import PsxExe.Sorting
import PsxExe.Space.Basic
import PsxExe.Space.Error

/-!
# Mapping regions and mirrors

A new range must have a positive size, lie inside the 32-bit address space and meet no mapped range. A
region gets a storage of its own; a mirror looks at bytes that are mapped already and takes over
their permissions. A refusal changes nothing.
-/

namespace PsxExe

def Host.allocate (host : Host) (size : Int) : Except SpaceError Storage :=
  if host.allocationLimit < size then .error .outOfStorage else .ok (Storage.zeros size.toNat)

/-- The storage for a region. That the machine has none left is a refusal of the region. -/
def Host.storageFor (host : Host) (region : String) (size : Int) : Except SpaceError Storage :=
  match host.allocate size with
  | .ok storage => .ok storage
  | .error e => .error (if e.isOf [.storage] then .cannotAllocate region size e.message else e)

namespace AddressSpace

def checkRange (s : AddressSpace) (name : String) (e : Extent) : Except SpaceError Unit :=
  if e.size ≤ 0 then .error (.sizeNotPositive name e.size)
  else if ¬ e.InAddressSpace then .error (.outsideAddressSpace name e)
  else match s.regions.find? fun r => decide (e.Overlaps r.extent) with
    | some r => .error (.overlap name e r.name r.extent)
    | none => .ok ()

def insertRegion (s : AddressSpace) (r : Region) : AddressSpace :=
  { s with regions := insertBy (fun a b => decide (a.address ≤ b.address)) r s.regions }

/-- Maps a region with the given bytes at its front; bytes that do not fit are dropped. -/
def createRegion (s : AddressSpace) (host : Host) (name : String) (e : Extent)
    (permissions : Permissions) (bytes : Option Bytes) : Except SpaceError (Region × AddressSpace) := do
  s.checkRange name e
  let storage ← host.storageFor name e.size
  let storage := storage.write 0 ((bytes.getD []).take e.size.toNat)
  let region : Region := ⟨name, e, permissions, s.storages.length, 0, none, bytes.isSome⟩
  return (region, { s with storages := s.storages ++ [storage] }.insertRegion region)

/-- Maps a range that repeats the bytes from an address on. -/
def createMirror (s : AddressSpace) (name : String) (base : Int) (e : Extent) :
    Except SpaceError (Region × AddressSpace) :=
  match s.regionAt base with
  | none => .error (.noMirrorBase name base)
  | some r =>
    if r.stop < base + e.size then .error (.mirrorRunsPast name e.size base r.name)
    else do
      s.checkRange name e
      let region : Region :=
        ⟨name, e, r.permissions, r.storage, r.storageIndex base, some base, r.initialized⟩
      return (region, s.insertRegion region)

end AddressSpace

end PsxExe
