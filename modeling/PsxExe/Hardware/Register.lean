import PsxExe.Extent
import PsxExe.Text.Template

/-!
# Hardware registers

A register of the console has a name, an address and a width in bits. Registers that repeat at a fixed
distance form a bank, whose name is a template for the element's index. How an index is filled in is
left open here and in all that is built on it, with `Text.fillTemplate` as the usual choice.
-/

namespace PsxExe.Hardware

/-- A register, or a bank of `count` registers that lie `stride` addresses apart. -/
structure Bank where
  name : String
  address : Int
  width : Int
  count : Int := 1
  stride : Int := 0
deriving DecidableEq, Repr

structure Element where
  name : String
  address : Int
  width : Int
deriving DecidableEq, Repr

def byteCount (width : Int) : Int := width / 8

def Element.extent (e : Element) : Extent := ⟨e.address, byteCount e.width⟩

namespace Bank

def size (b : Bank) : Int := byteCount b.width

/-- The name of the register with an index. The name of a single register is no template. -/
def elementName (b : Bank) (index : Nat) (format : Text.Format := Text.fillTemplate) :
    Except Text.TemplateError String :=
  if 1 < b.count then format b.name index else .ok b.name

def element (b : Bank) (index : Nat) (format : Text.Format := Text.fillTemplate) :
    Except Text.TemplateError Element := do
  let name ← b.elementName index format
  return ⟨name, b.address + index * b.stride, b.width⟩

def elements (b : Bank) (format : Text.Format := Text.fillTemplate) :
    Except Text.TemplateError (List Element) :=
  (List.range b.count.toNat).mapM fun index => b.element index format

end Bank

end PsxExe.Hardware
