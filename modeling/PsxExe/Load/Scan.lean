import PsxExe.Load.Progress
import PsxExe.Signature.Search
import PsxExe.Space.Access

/-!
# Scanning an address space

A scan looks for a signature in the region that holds its start and in every region above that is no
mirror, in ascending order; a match never spans two regions. A region is looked at in windows, each of
which reaches so far into the next that no match is lost between them. The monitor is asked before each
window.
-/

namespace PsxExe

def windowStep : Nat := 0x10000

/-- The length of the windows in which a pattern is looked for. -/
def windowLength (p : Pattern) : Nat := windowStep + p.length - 1

/-- The starts of the windows on a region of the given size, from an offset on. -/
def windowOffsets (first size : Nat) : List Nat :=
  (List.range ((size - first + (windowStep - 1)) / windowStep)).map fun i => first + windowStep * i

namespace AddressSpace

/-- The region that holds the start, and every region above that is no mirror. -/
def scanRegions (s : AddressSpace) (start : Int) : List Region :=
  s.regions.filter fun r => decide (start ∈ r.extent) || (decide (start < r.address) && !r.isMirror)

/-- The windows of a scan, in order: a region and an offset in it. -/
def scanWindows (s : AddressSpace) (start : Int) : List (Region × Nat) :=
  (s.scanRegions start).flatMap fun r =>
    (windowOffsets (start - r.address).toNat r.size.toNat).map (r, ·)

def searchWindow (s : AddressSpace) (p : Pattern) (w : Region × Nat) : Option Int :=
  (p.findUp (s.regionWindow w.1 w.2 (windowLength p)) 0).map fun hit => w.1.address + w.2 + hit

end AddressSpace

def searchWindows (s : AddressSpace) (p : Pattern) : List (Region × Nat) → LoadM (Option Int)
  | [] => return none
  | w :: rest => do
    LoadM.check
    match s.searchWindow p w with
    | some hit => return some hit
    | none => searchWindows s p rest

/-- The first match of a signature from an address on; none when the address is not mapped. -/
def findSignature (start : Int) (signature : Signature) : LoadM (Option Int) := do
  let s ← LoadM.space
  if (s.regionAt start).isNone then return none
  searchWindows s signature.pattern (s.scanWindows start)

end PsxExe
