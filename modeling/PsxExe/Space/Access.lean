import PsxExe.Space.Basic
import PsxExe.Space.Error

/-!
# Reading and writing memory

An access names an address and a size. It must start in a region and must not cross that region's end.
A negative size is measured against the end like any other, and what is read then is the slice of
the storage between the two positions. Addresses that lead to one cell of a storage are aliases: what
is written at one of them is read at all.
-/

namespace PsxExe

/-- One byte of a storage: the number of the storage, and the index in it. -/
structure Cell where
  storage : Nat
  index : Nat
deriving DecidableEq, Repr

namespace AddressSpace

/-- The region of an access. -/
def locate (s : AddressSpace) (a size : Int) : Except SpaceError Region :=
  match s.regionAt a with
  | none => .error (.notMapped a)
  | some r => if r.stop < a + size then .error (.crossesEnd a size r.name) else .ok r

def read (s : AddressSpace) (a size : Int) : Except SpaceError Bytes := do
  let r ← s.locate a size
  let index : Int := r.storageIndex a
  return (s.storageOf r).slice index (index + size)

/-- Writes bytes at an address. Every mirror of the bytes shows them too. -/
def write (s : AddressSpace) (a : Int) (bytes : Bytes) : Except SpaceError AddressSpace := do
  let r ← s.locate a bytes.length
  return { s with storages := s.storages.modify r.storage (·.write (r.storageIndex a) bytes) }

/-- The cell that an address leads to, where one is mapped. -/
def cellAt (s : AddressSpace) (a : Int) : Option Cell :=
  (s.regionAt a).map fun r => ⟨r.storage, r.storageIndex a⟩

def byteIn (s : AddressSpace) (c : Cell) : UInt8 := (s.storages.getD c.storage default).byteAt c.index

def byteAt (s : AddressSpace) (a : Int) : Option UInt8 := (s.cellAt a).map s.byteIn

/-- The bytes of a region from an offset on, at most `length` of them. -/
def regionWindow (s : AddressSpace) (r : Region) (offset length : Nat) : Array UInt8 :=
  (s.storageOf r).window (r.offset + offset) (min length (r.size.toNat - offset))

end AddressSpace

end PsxExe
