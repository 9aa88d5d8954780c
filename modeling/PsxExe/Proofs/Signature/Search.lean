import PsxExe.Proofs.Signature.Anchor
import PsxExe.Signature.Search

/-!
# What a search finds

An upward search finds the first offset, from its start on, at which the whole pattern fits and is
matched. It looks for the anchor only, and loses nothing by that: every byte of the anchor is exact, so
wherever the pattern is matched the anchor occurs at its place in it.
-/

namespace PsxExe

/-- The answer is the least thing with a property, or there is none and the answer says so. -/
def IsFirst {α : Type} [LE α] (P : α → Prop) : Option α → Prop
  | some k => P k ∧ ∀ j, P j → k ≤ j
  | none => ∀ j, ¬ P j

theorem IsFirst.congr {α : Type} [LE α] {P Q : α → Prop} {answer : Option α} (h : IsFirst P answer)
    (hPQ : ∀ j, P j ↔ Q j) : IsFirst Q answer := by
  have hsame : P = Q := funext fun j => propext (hPQ j)
  exact hsame ▸ h

theorem firstFrom_isFirst (p : Nat → Bool) (i count : Nat) :
    IsFirst (fun j => i ≤ j ∧ j < i + count ∧ p j) (firstFrom p i count) := by
  induction count generalizing i with
  | zero =>
    intro j hj
    omega
  | succ count ih =>
    rw [firstFrom]
    split
    next hp => exact ⟨⟨Nat.le_refl _, by omega, hp⟩, fun j hj => hj.1⟩
    next hp =>
      refine (ih (i + 1)).congr fun j => ?_
      constructor
      · rintro ⟨hfrom, hto, hj⟩
        exact ⟨by omega, by omega, hj⟩
      · rintro ⟨hfrom, hto, hj⟩
        have hne : i ≠ j := by
          rintro rfl
          exact hp hj
        exact ⟨by omega, by omega, hj⟩

theorem MaskedByte.accepts_of_isExact {m : MaskedByte} (h : m.isExact) (b : UInt8) :
    m.accepts b = (b == m.value) := by
  have hmask : m.mask = 0xFF := by simpa [isExact] using h
  have hall (c : UInt8) : c &&& 0xFF = c := by
    apply UInt8.toNat.inj
    rw [UInt8.toNat_and]
    exact Nat.and_two_pow_sub_one_of_lt_two_pow (n := 8) c.toNat_lt
  rw [accepts, hmask, hall, hall]

namespace Pattern

variable {p : Pattern} {a : Anchor} {data : Array UInt8}

theorem acceptsFrom_iff {i : Nat} :
    acceptsFrom data i p ↔ ∀ j (hj : j < p.length), p[j].accepts (data.getD (i + j) 0) := by
  induction p generalizing i with
  | nil => simp [acceptsFrom]
  | cons m rest ih =>
    rw [acceptsFrom, Bool.and_eq_true, ih]
    constructor
    · rintro ⟨hfirst, hrest⟩ j hj
      cases j with
      | zero => exact hfirst
      | succ j =>
        rw [show i + (j + 1) = i + 1 + j by omega]
        exact hrest j (by simpa using hj)
    · intro h
      refine ⟨h 0 (Nat.succ_pos _), fun j hj => ?_⟩
      rw [show i + 1 + j = i + (j + 1) by omega]
      exact h (j + 1) (Nat.succ_lt_succ hj)

theorem holdsFrom_eq (bytes : Bytes) (i : Nat) :
    holdsFrom data i bytes = acceptsFrom data i (bytes.map fun b => ⟨b, 0xFF⟩) := by
  induction bytes generalizing i with
  | nil => rfl
  | cons b rest ih => rw [holdsFrom, List.map_cons, acceptsFrom, ih, MaskedByte.accepts_of_isExact rfl]

theorem holdsFrom_anchor (h : p.anchor = some a) {o : Nat} (hmatch : acceptsFrom data o p) :
    holdsFrom data (o + a.offset) a.bytes := by
  have hle := anchor_le h
  rw [holdsFrom_eq, acceptsFrom_iff]
  intro j hj
  rw [List.length_map] at hj
  obtain ⟨hexact, hbyte⟩ := anchor_byte h hj (by omega)
  have haccepts := acceptsFrom_iff.1 hmatch (a.offset + j) (by omega)
  rw [MaskedByte.accepts_of_isExact hexact, ← Nat.add_assoc] at haccepts
  rw [List.getElem_map, MaskedByte.accepts_of_isExact rfl, hbyte]
  exact haccepts

/-! ### Upward searches -/

theorem Anchor.next?_isFirst (a : Anchor) (data : Array UInt8) (start : Nat) :
    IsFirst (fun i => start ≤ i ∧ i + a.bytes.length ≤ data.size ∧ holdsFrom data i a.bytes)
      (a.next? data start) := by
  have hlength : a.bytes.length = a.tail.length + 1 := rfl
  refine (firstFrom_isFirst _ _ _).congr fun i => and_congr_right fun hfrom => and_congr_left fun _ => ?_
  omega

theorem searchUp_isFirst (h : p.anchor = some a) {last start : Nat} (hlast : last + p.length = data.size)
    (hstart : a.offset ≤ start) :
    IsFirst (fun o => start ≤ o + a.offset ∧ o ≤ last ∧ acceptsFrom data o p)
      (searchUp p a data last start) := by
  have hinside := anchor_le h
  -- A match is an occurrence of the anchor, which the next one cannot pass over.
  have hnext {start o : Nat} (ho : start ≤ o + a.offset ∧ o ≤ last ∧ acceptsFrom data o p) :
      start ≤ o + a.offset ∧ o + a.offset + a.bytes.length ≤ data.size ∧
        holdsFrom data (o + a.offset) a.bytes :=
    ⟨ho.1, by omega, holdsFrom_anchor h ho.2.2⟩
  induction hmeasure : data.size - start using Nat.strongRecOn generalizing start with
  | ind measure ih =>
    have hfirst := a.next?_isFirst data start
    rw [searchUp]
    split
    next hnone =>
      rw [hnone] at hfirst
      intro o ho
      exact hfirst _ (hnext ho)
    next i hsome =>
      rw [hsome] at hfirst
      obtain ⟨⟨hfrom, hfits, -⟩, hleast⟩ := hfirst
      have hpos : 0 < a.bytes.length := Nat.succ_pos _
      split
      next hpast =>
        intro o ho
        have := hleast _ (hnext ho)
        omega
      next hpast =>
        split
        next hmatch =>
          refine ⟨⟨by omega, by omega, hmatch⟩, fun o ho => ?_⟩
          have := hleast _ (hnext ho)
          omega
        next hmatch =>
          refine (ih (data.size - (i + 1)) (by omega) (by omega) rfl).congr fun o => ?_
          constructor
          · rintro ⟨ho, hrest⟩
            exact ⟨by omega, hrest⟩
          · intro ho
            have hle := hleast _ (hnext ho)
            have hne : i ≠ o + a.offset := by
              rintro rfl
              rw [Nat.add_sub_cancel] at hmatch
              exact hmatch ho.2.2
            exact ⟨by omega, ho.2⟩

/-- An upward search finds the first match that starts at its start or behind it and fits into the data.
-/
theorem findUp_isFirst (hp : p ≠ []) (data : Array UInt8) (start : Int) :
    IsFirst (fun o => start.toNat ≤ o ∧ o + p.length ≤ data.size ∧ acceptsFrom data o p)
      (p.findUp data start) := by
  have hpos : 0 < p.length := List.length_pos_iff.2 hp
  rw [findUp]
  split
  next hshort =>
    intro o ho
    omega
  next hlong =>
    dsimp only
    split
    next hpast =>
      intro o ho
      omega
    next hpast =>
      split
      next =>
        refine (firstFrom_isFirst _ _ _).congr fun o => ?_
        refine and_congr_right fun hfrom => and_congr_left fun _ => ?_
        omega
      next a hanchor =>
        refine (searchUp_isFirst hanchor (by omega) (by omega)).congr fun o => ?_
        refine and_congr (by omega) (and_congr_left fun _ => ?_)
        omega

end Pattern

end PsxExe
