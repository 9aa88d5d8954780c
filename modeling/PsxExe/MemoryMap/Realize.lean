import PsxExe.Load.Progress
import PsxExe.Space.Listing
import PsxExe.Space.Mapping

/-!
# Realizing a memory map

The requests of a map are applied in order. One that the address space refuses is recorded and the rest
still follow. Typed data with a name gets its label even if the data itself was refused.
-/

namespace PsxExe

/-- A request that was refused, or whose label was. -/
structure Failure where
  request : Request
  cause : SpaceError
deriving DecidableEq, Repr

def RegionRequest.shortage (r : RegionRequest) (file : Bytes) : List Event :=
  match r.fileOffset, r.fileBytes file with
  | some offset, some bytes =>
    if bytes.length < r.extent.size then
      [.fileTooShort r.name bytes.length r.extent.size offset]
    else []
  | _, _ => []

namespace Request

/-- Creates what a request asks for, its label apart. -/
def create (host : Host) (file : Bytes) (s : AddressSpace) : Request → Except SpaceError AddressSpace
  | region r =>
    (s.createRegion host r.name r.extent r.permissions (r.fileBytes file)).map (·.2)
  | mirror m => (s.createMirror m.name m.base m.extent).map (·.2)
  | data d => s.createData d.address d.width d.count

def shortage (file : Bytes) : Request → List Event
  | region r => r.shortage file
  | _ => []

def label? : Request → Option (Int × String)
  | data d => d.label?.map (d.address, ·)
  | _ => none

/-- Does a part of what a request asks for. A refusal of one of the kinds is noted down and recorded. -/
def attempt (r : Request) (kinds : List SpaceError.Kind) (event : SpaceError → Event) (step : LoadM Unit) :
    LoadM (List Failure) :=
  LoadM.handling kinds
    (do
      step
      return [])
    fun e => do
      LoadM.note [event e]
      return [⟨r, e⟩]

def realizeCreation (host : Host) (file : Bytes) (r : Request) : LoadM (List Failure) :=
  r.attempt [.memory, .value, .storage] (.requestRefused r) do
    LoadM.note (r.shortage file)
    LoadM.alter fun s => r.create host file s

def realizeLabel (r : Request) : LoadM (List Failure) :=
  match r.label? with
  | none => return []
  | some (address, name) =>
    r.attempt [.value] (.labelRefused name) do
      LoadM.alter fun s => (s.createLabel address name .register).map (·.2)

end Request

/-- Applies requests in order and gives their failures. The monitor is asked before each one. -/
def realize (host : Host) (file : Bytes) : List Request → LoadM (List Failure)
  | [] => return []
  | r :: rest => do
    LoadM.check
    let created ← r.realizeCreation host file
    let labelled ← r.realizeLabel
    return created ++ labelled ++ (← realize host file rest)

end PsxExe
