import PsxExe.Load.Basic
import PsxExe.Text.Figures

/-!
# Printed statistics

The summary of a load that is printed for people: the header, counts, the memory map with one line for
each region, and the requests that failed.
-/

namespace PsxExe

open Text

/-- The line for a region: its range, permissions, name and size, and what a mirror repeats. -/
def Region.line (r : Region) : String :=
  s!"    {Hex.address r.address}-{Hex.address (r.stop - 1)}  {r.permissions.text}  " ++
    s!"{Figures.left 14 r.name} {Figures.right 9 (Figures.thousands r.size.toNat)}" ++
    match r.mirrorOf with
    | none => ""
    | some base => "  -> " ++ Hex.address base

def memoryMapLines (s : AddressSpace) : List String := s.regions.map Region.line

def countText (n : Nat) : String := Figures.right 10 (Figures.thousands n)

def Failure.line (f : Failure) : String :=
  s!"    {Figures.left 14 f.request.kindWord} {Figures.left 14 f.request.name} " ++
    s!"{Hex.address f.request.address}  {f.cause.message}"

def rule : String := String.ofList (List.replicate 60 '=')

/-- A line that is there only if its text is not empty. -/
def optionalLine (title text : String) : List String :=
  if text = "" then [] else [title ++ text]

def statisticsLines (file : String) (s : AddressSpace) (r : LoadResult) : List String :=
  let h := r.header
  ["", rule, "  PS-X EXE Load Summary", rule] ++
  optionalLine "  Binary: " file ++
  optionalLine "  Marker: " h.marker ++
  [s!"  Entry: {Hex.address h.initialPc}  GP: {Hex.address h.initialGp}  " ++
      s!"SP: {Hex.address h.stackPointer}",
    s!"  Code:  {Hex.address h.code.address}  ({Figures.oneDecimal h.code.size 1024} KB)",
    "  main:  " ++ (r.mainAddress.map Hex.address).getD "not found",
    "",
    "  Regions:          " ++ countText s.regions.length,
    "    mirrors:        " ++ countText (s.regions.countP Region.isMirror),
    "  Labels:           " ++ countText s.labels.size,
    "    registers:      " ++ countText (s.labels.count .register),
    "  Failures:         " ++ countText r.failures.length,
    "",
    "  Memory map:"] ++
  memoryMapLines s ++
  (if r.failures.isEmpty then [] else ["", "  Rejected requests:"] ++ r.failures.map Failure.line) ++
  ["", rule]

def printed (lines : List String) : String := String.join (lines.map (· ++ "\n"))

end PsxExe
