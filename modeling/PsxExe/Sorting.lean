/-!
# Sorting by insertion

The listings of this library are in ascending order of an address or a name. `sortBy` keeps equal items
in the order in which they stand, and evaluates inside proofs, since it recurses on the list alone.
-/

namespace PsxExe

variable {α : Type}

/-- Puts an item in front of the first one that it does not have to follow. -/
def insertBy (le : α → α → Bool) (x : α) : List α → List α
  | [] => [x]
  | y :: rest => if le x y then x :: y :: rest else y :: insertBy le x rest

def sortBy (le : α → α → Bool) (xs : List α) : List α := xs.foldr (insertBy le) []

theorem insertBy_perm (le : α → α → Bool) (x : α) (l : List α) : (insertBy le x l).Perm (x :: l) := by
  induction l with
  | nil => exact .refl _
  | cons y rest ih =>
    rw [insertBy]
    split
    · exact .refl _
    · exact (ih.cons y).trans (.swap x y rest)

theorem sortBy_perm (le : α → α → Bool) (xs : List α) : (sortBy le xs).Perm xs := by
  induction xs with
  | nil => exact .refl _
  | cons x rest ih => exact (insertBy_perm le x _).trans (ih.cons x)

@[simp] theorem mem_insertBy {le : α → α → Bool} {x a : α} {l : List α} :
    a ∈ insertBy le x l ↔ a = x ∨ a ∈ l := by
  rw [(insertBy_perm le x l).mem_iff, List.mem_cons]

@[simp] theorem mem_sortBy {le : α → α → Bool} {a : α} {xs : List α} : a ∈ sortBy le xs ↔ a ∈ xs :=
  (sortBy_perm le xs).mem_iff

theorem insertBy_pairwise {le : α → α → Bool} (trans : ∀ a b c, le a b → le b c → le a c)
    (total : ∀ a b, le a b ∨ le b a) (x : α) {l : List α} (h : l.Pairwise fun a b => le a b) :
    (insertBy le x l).Pairwise fun a b => le a b := by
  induction l with
  | nil => simp [insertBy]
  | cons y rest ih =>
    obtain ⟨hy, hrest⟩ := List.pairwise_cons.1 h
    rw [insertBy]
    split
    next hxy =>
      refine List.pairwise_cons.2 ⟨fun a ha => ?_, h⟩
      rcases List.mem_cons.1 ha with rfl | ha
      · exact hxy
      · exact trans x y a hxy (hy a ha)
    next hxy =>
      refine List.pairwise_cons.2 ⟨fun a ha => ?_, ih hrest⟩
      rcases mem_insertBy.1 ha with rfl | ha
      · exact (total y a).resolve_right hxy
      · exact hy a ha

theorem sortBy_pairwise {le : α → α → Bool} (trans : ∀ a b c, le a b → le b c → le a c)
    (total : ∀ a b, le a b ∨ le b a) (xs : List α) : (sortBy le xs).Pairwise fun a b => le a b := by
  induction xs with
  | nil => exact .nil
  | cons x rest ih => exact insertBy_pairwise trans total x ih

end PsxExe
