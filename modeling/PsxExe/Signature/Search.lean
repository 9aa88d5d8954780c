import PsxExe.Signature.Anchor

/-!
# Searching for a pattern

A search goes through the data upwards or downwards. A pattern with exact bytes is searched by its
anchor: only where the anchor occurs is the whole pattern compared. Without one, every offset is tried.
-/

namespace PsxExe

/-- The first of `count` numbers from `i` on that has a property. -/
@[specialize] def firstFrom (p : Nat → Bool) (i : Nat) : (count : Nat) → Option Nat
  | 0 => none
  | count + 1 => if p i then some i else firstFrom p (i + 1) count

/-- The last of the numbers below `bound` that has a property. -/
@[specialize] def lastBelow (p : Nat → Bool) : (bound : Nat) → Option Nat
  | 0 => none
  | bound + 1 => if p bound then some bound else lastBelow p bound

theorem firstFrom_bounds {p : Nat → Bool} {i count k : Nat} (h : firstFrom p i count = some k) :
    i ≤ k ∧ k < i + count := by
  induction count generalizing i with
  | zero => simp [firstFrom] at h
  | succ count ih =>
    rw [firstFrom] at h
    split at h
    · obtain rfl := Option.some.inj h; omega
    · have := ih h; omega

theorem lastBelow_lt {p : Nat → Bool} {bound k : Nat} (h : lastBelow p bound = some k) :
    k < bound := by
  induction bound with
  | zero => simp [lastBelow] at h
  | succ bound ih =>
    rw [lastBelow] at h
    split at h
    · obtain rfl := Option.some.inj h; omega
    · have := ih h; omega

def holdsFrom (data : Array UInt8) : Nat → Bytes → Bool
  | _, [] => true
  | i, b :: rest => data.getD i 0 == b && holdsFrom data (i + 1) rest

namespace Pattern

/-- The first occurrence of an anchor that starts at an index or behind it. -/
def Anchor.next? (a : Anchor) (data : Array UInt8) (start : Nat) : Option Nat :=
  firstFrom (holdsFrom data · a.bytes) start (data.size - a.tail.length - start)

/-- The last occurrence of an anchor that ends at an index or in front of it. -/
def Anchor.last? (a : Anchor) (data : Array UInt8) (stop : Nat) : Option Nat :=
  lastBelow (holdsFrom data · a.bytes) (min stop data.size - a.tail.length)

def searchUp (p : Pattern) (a : Anchor) (data : Array UInt8) (last start : Nat) : Option Nat :=
  match h : a.next? data start with
  | none => none
  | some i =>
    if last < i - a.offset then none
    else if acceptsFrom data (i - a.offset) p then some (i - a.offset)
    else searchUp p a data last (i + 1)
termination_by data.size - start
decreasing_by
  have := firstFrom_bounds h
  omega

def searchDown (p : Pattern) (a : Anchor) (data : Array UInt8) (stop : Nat) : Option Nat :=
  match _hlast : a.last? data stop with
  | none => none
  | some i =>
    if i < a.offset then none
    else if acceptsFrom data (i - a.offset) p then some (i - a.offset)
    else searchDown p a data (i + a.tail.length)
termination_by stop
decreasing_by
  have := lastBelow_lt _hlast
  omega

def findUp (p : Pattern) (data : Array UInt8) (start : Int) : Option Nat :=
  if p.length = 0 ∨ data.size < p.length then none
  else
    let last := data.size - p.length
    let first := start.toNat
    if last < first then none
    else match p.anchor with
      | none => firstFrom (acceptsFrom data · p) first (last + 1 - first)
      | some a => searchUp p a data last (first + a.offset)

def findDown (p : Pattern) (data : Array UInt8) (start : Int) : Option Nat :=
  if p.length = 0 ∨ data.size < p.length ∨ start < 0 then none
  else
    let first := min start.toNat (data.size - p.length)
    match p.anchor with
    | none => lastBelow (acceptsFrom data · p) (first + 1)
    | some a => searchDown p a data (first + a.offset + a.tail.length + 1)

end Pattern

/-- Searches the data, upwards or downwards, for the pattern with the given values and masks. -/
def findMasked (data : Array UInt8) (values masks : Bytes) (start : Int) (upwards : Bool) :
    Except LengthMismatch (Option Nat) :=
  (Pattern.ofBytes values masks).map fun p =>
    if upwards then p.findUp data start else p.findDown data start

end PsxExe
