import PsxExe.Extent

/-!
# Regions

A region is a named range of mapped addresses with permissions. It owns a storage, or it is a mirror and
looks at the storage of another region from an offset on.
-/

namespace PsxExe

structure Permissions where
  read : Bool
  write : Bool
  execute : Bool
deriving DecidableEq, Repr, Inhabited

namespace Permissions

def all : Permissions := ⟨true, true, true⟩

def readWrite : Permissions := ⟨true, true, false⟩

def readExecute : Permissions := ⟨true, false, true⟩

/-- A letter for each permission, or a dash in its place. -/
def text (p : Permissions) : String :=
  (if p.read then "r" else "-") ++ (if p.write then "w" else "-") ++
    (if p.execute then "x" else "-")

end Permissions

/-- A mapped range. `storage` is the number of its storage and `offset` where it starts in there;
`mirrorOf` is the address that a mirror repeats; `initialized` tells whether bytes came with it. -/
structure Region where
  name : String
  extent : Extent
  permissions : Permissions
  storage : Nat
  offset : Nat
  mirrorOf : Option Int
  initialized : Bool
deriving DecidableEq, Repr, Inhabited

namespace Region

def address (r : Region) : Int := r.extent.address

def size (r : Region) : Int := r.extent.size

def stop (r : Region) : Int := r.extent.stop

def isMirror (r : Region) : Bool := r.mirrorOf.isSome

/-- Where the byte at an address of the region lies in its storage. -/
def storageIndex (r : Region) (a : Int) : Nat := r.offset + (a - r.address).toNat

end Region

end PsxExe
