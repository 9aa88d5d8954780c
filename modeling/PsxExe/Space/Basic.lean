import PsxExe.Instruction.Basic
import PsxExe.Label.Table
import PsxExe.Space.Region
import PsxExe.Space.Storage

/-!
# Address spaces

The state that a load builds up: mapped regions in ascending order with their storages, and what is
known about addresses, which is labels, typed data, functions, entry points, instructions, and the
values that registers start with.
-/

namespace PsxExe

/-- Items of one width at an address. -/
structure DataItem where
  width : Int
  count : Int
deriving DecidableEq, Repr, Inhabited

/-- The contents of the memory that a program sees, with annotations. -/
structure AddressSpace where
  regions : List Region
  storages : List Storage
  labels : LabelTable
  data : Table Int DataItem
  functions : Table Int String
  entryPoints : List Int
  registers : Table String Int
  instructions : Table Int Instruction

/-- What the machine that holds an address space provides: how large a storage it grants, and the
decoder of its instructions. -/
structure Host where
  allocationLimit : Int
  decoder : Decoder

namespace AddressSpace

def empty : AddressSpace := ⟨[], [], ∅, ∅, ∅, [], ∅, ∅⟩

instance : EmptyCollection AddressSpace := ⟨empty⟩
instance : Inhabited AddressSpace := ⟨empty⟩

def regionAt (s : AddressSpace) (a : Int) : Option Region :=
  s.regions.find? fun r => decide (a ∈ r.extent)

/-- The first region with a name; with an address too, when one is given. -/
def findRegion (s : AddressSpace) (name : String) (address : Option Int) : Option Region :=
  s.regions.find? fun r => r.name == name && address.all (r.address == ·)

def storageOf (s : AddressSpace) (r : Region) : Storage := s.storages.getD r.storage default

end AddressSpace

end PsxExe
