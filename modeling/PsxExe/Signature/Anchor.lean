import PsxExe.Signature.Pattern

/-!
# The anchor of a pattern

The longest run of exact bytes in a pattern, and of several the leftmost, is what a search looks for
first. One pass over the pattern, from the left, finds it.
-/

namespace PsxExe.Pattern

/-- The exact bytes of a run, of which there is at least one, and where they lie in the pattern. -/
structure Anchor where
  offset : Nat
  head : UInt8
  tail : Bytes
deriving DecidableEq, Repr

def Anchor.bytes (a : Anchor) : Bytes := a.head :: a.tail

/-- What the pass remembers: where the best run so far starts and how long it is, and the same of the
run that it is in. Between two runs the length of the latter is zero, and its start is out of date. -/
structure RunScan where
  start : Nat
  length : Nat
  runStart : Nat
  runLength : Nat
deriving DecidableEq, Repr

/-- Takes in the byte at an index. Only a longer run replaces the best one, so the first keeps a tie. -/
def RunScan.step (s : RunScan) (m : MaskedByte) (i : Nat) : RunScan :=
  if m.isExact then
    let runStart := if s.runLength = 0 then i else s.runStart
    let runLength := s.runLength + 1
    if s.length < runLength then ⟨runStart, runLength, runStart, runLength⟩
    else { s with runStart, runLength }
  else { s with runLength := 0 }

def runs (p : Pattern) : RunScan := p.zipIdx.foldl (fun s m => s.step m.1 m.2) ⟨0, 0, 0, 0⟩

def anchor (p : Pattern) : Option Anchor :=
  match ((p.drop p.runs.start).take p.runs.length).map (·.value) with
  | [] => none
  | b :: rest => some ⟨p.runs.start, b, rest⟩

end PsxExe.Pattern
