import PsxExe.Bytes
import PsxExe.Extent

/-!
# The header of an executable

A PS-X EXE image starts with a header of `0x800` bytes, which says where the code, data and bss
sections belong and how the processor starts. The fields are arbitrary integers here, so that a header
can be made by hand; those of a parsed header are 32-bit words.
-/

namespace PsxExe

structure Header where
  magic : Bytes
  initialPc : Int
  initialGp : Int
  code : Extent
  data : Extent
  bss : Extent
  stackBase : Int
  stackOffset : Int
  marker : String
deriving DecidableEq, Repr, Inhabited

namespace Header

/-- The tag `PS-X EXE` that opens every image. -/
def expectedMagic : Bytes := [0x50, 0x53, 0x2D, 0x58, 0x20, 0x45, 0x58, 0x45]

def size : Nat := 0x800

def fieldsEnd : Nat := 0x38

def markerOffset : Nat := 0x4C

def isValid (h : Header) : Bool := h.magic == expectedMagic

def stackPointer (h : Header) : Int := word32 (h.stackBase + h.stackOffset)

/-- A data section is present unless its address is zero. -/
def hasData (h : Header) : Bool := h.data.address != 0

def hasBss (h : Header) : Bool := h.bss.address != 0

end Header

end PsxExe
