import PsxExe.Proofs.Signature.Search

/-!
# Masked searches in both directions

A downward search finds the last offset, up to its start, at which the whole pattern fits and is matched. Like
an upward search it looks for the anchor only, from one occurrence to the one in front of it. Both searches
together answer as if every offset were compared byte by byte under the mask.
-/

namespace PsxExe

/-- The answer is the greatest thing with a property, or there is none and the answer says so. -/
def IsLast {α : Type} [LE α] (P : α → Prop) : Option α → Prop
  | some k => P k ∧ ∀ j, P j → j ≤ k
  | none => ∀ j, ¬ P j

theorem IsLast.congr {α : Type} [LE α] {P Q : α → Prop} {answer : Option α} (h : IsLast P answer)
    (hPQ : ∀ j, P j ↔ Q j) : IsLast Q answer := by
  have hsame : P = Q := funext fun j => propext (hPQ j)
  exact hsame ▸ h

theorem lastBelow_isLast (p : Nat → Bool) (bound : Nat) :
    IsLast (fun j => j < bound ∧ p j) (lastBelow p bound) := by
  induction bound with
  | zero =>
    intro j hj
    omega
  | succ bound ih =>
    rw [lastBelow]
    split
    next hp => exact ⟨⟨Nat.lt_succ_self _, hp⟩, fun j hj => Nat.le_of_lt_succ hj.1⟩
    next hp =>
      refine ih.congr fun j => ?_
      constructor
      · rintro ⟨hbelow, hj⟩
        exact ⟨by omega, hj⟩
      · rintro ⟨hbelow, hj⟩
        have hne : j ≠ bound := by
          rintro rfl
          exact hp hj
        exact ⟨by omega, hj⟩

namespace Pattern

variable {p : Pattern} {a : Anchor} {data : Array UInt8}

/-! ### Downward searches -/

theorem Anchor.last?_isLast (a : Anchor) (data : Array UInt8) (stop : Nat) :
    IsLast (fun i => i + a.bytes.length ≤ min stop data.size ∧ holdsFrom data i a.bytes)
      (a.last? data stop) := by
  have hlength : a.bytes.length = a.tail.length + 1 := rfl
  refine (lastBelow_isLast _ _).congr fun i => and_congr_left fun _ => ?_
  omega

theorem searchDown_isLast (h : p.anchor = some a) {stop : Nat}
    (hstop : stop + p.length ≤ data.size + a.offset + a.bytes.length) :
    IsLast (fun o => o + a.offset + a.bytes.length ≤ stop ∧ acceptsFrom data o p)
      (searchDown p a data stop) := by
  have hinside := anchor_le h
  have hlength : a.bytes.length = a.tail.length + 1 := rfl
  -- A match is an occurrence of the anchor, which the last one cannot pass over.
  have hlast {stop o : Nat} (hstop : stop + p.length ≤ data.size + a.offset + a.bytes.length)
      (ho : o + a.offset + a.bytes.length ≤ stop ∧ acceptsFrom data o p) :
      o + a.offset + a.bytes.length ≤ min stop data.size ∧ holdsFrom data (o + a.offset) a.bytes :=
    ⟨by omega, holdsFrom_anchor h ho.2⟩
  induction stop using Nat.strongRecOn with
  | ind stop ih =>
    have hgreatest := a.last?_isLast data stop
    rw [searchDown]
    split
    next hnone =>
      rw [hnone] at hgreatest
      intro o ho
      exact hgreatest _ (hlast hstop ho)
    next i hsome =>
      rw [hsome] at hgreatest
      obtain ⟨⟨hfits, -⟩, hgreatest⟩ := hgreatest
      split
      next hfront =>
        intro o ho
        have := hgreatest _ (hlast hstop ho)
        omega
      next hfront =>
        split
        next hmatch =>
          refine ⟨⟨by omega, hmatch⟩, fun o ho => ?_⟩
          have := hgreatest _ (hlast hstop ho)
          omega
        next hmatch =>
          refine (ih (i + a.tail.length) (by omega) (by omega)).congr fun o => ?_
          constructor
          · rintro ⟨ho, haccepts⟩
            exact ⟨by omega, haccepts⟩
          · intro ho
            have hle := hgreatest _ (hlast hstop ho)
            have hne : o + a.offset ≠ i := by
              rintro rfl
              rw [Nat.add_sub_cancel] at hmatch
              exact hmatch ho.2
            exact ⟨by omega, ho.2⟩

/-- A downward search finds the last match that starts at its start or in front of it and fits into the data.
-/
theorem findDown_isLast (hp : p ≠ []) (data : Array UInt8) (start : Int) :
    IsLast (fun o : Nat => o ≤ start ∧ o + p.length ≤ data.size ∧ acceptsFrom data o p)
      (p.findDown data start) := by
  have hpos : 0 < p.length := List.length_pos_iff.2 hp
  rw [findDown]
  split
  next hshort =>
    intro o ho
    omega
  next hlong =>
    dsimp only
    split
    next =>
      refine (lastBelow_isLast _ _).congr fun o => ?_
      rw [← and_assoc]
      refine and_congr_left fun _ => ?_
      omega
    next a hanchor =>
      have hinside := anchor_le hanchor
      have hlength : a.bytes.length = a.tail.length + 1 := rfl
      refine (searchDown_isLast hanchor (by omega)).congr fun o => ?_
      rw [← and_assoc]
      refine and_congr_left fun _ => ?_
      omega

theorem find_of_unfit (h : p.length = 0 ∨ data.size < p.length) (start : Int) :
    p.findUp data start = none ∧ p.findDown data start = none := by
  refine ⟨if_pos h, if_pos ?_⟩
  rw [← or_assoc]
  exact .inl h

end Pattern

/-! ### Searches for values under masks -/

section Masked

variable {data : Array UInt8} {values masks : Bytes}

/-- The values fit into the data at an offset and agree with it there in every bit of the masks. -/
def AgreesAt (data : Array UInt8) (values masks : Bytes) (o : Nat) : Prop :=
  o + values.length ≤ data.size ∧
    ∀ i < values.length, data.getD (o + i) 0 &&& masks.getD i 0 = values.getD i 0 &&& masks.getD i 0

theorem length_ofBytes (h : values.length = masks.length) :
    (List.zipWith MaskedByte.mk values masks).length = values.length := by
  rw [List.length_zipWith, h, Nat.min_self]

theorem agreesAt_iff (h : values.length = masks.length) (o : Nat) :
    AgreesAt data values masks o ↔
      o + (List.zipWith MaskedByte.mk values masks).length ≤ data.size ∧
        Pattern.acceptsFrom data o (List.zipWith MaskedByte.mk values masks) := by
  have hlength := length_ofBytes h
  rw [AgreesAt, Pattern.acceptsFrom_iff]
  refine and_congr (by rw [hlength]) (forall_congr' fun i => ?_)
  constructor
  · intro hagrees hi
    have hvalue : i < values.length := hlength ▸ hi
    rw [List.getElem_zipWith, MaskedByte.accepts, beq_iff_eq]
    simpa [List.getD_eq_getElem?_getD, hvalue, h ▸ hvalue] using hagrees hvalue
  · intro haccepts hvalue
    have hbyte := haccepts (hlength.symm ▸ hvalue)
    rw [List.getElem_zipWith, MaskedByte.accepts, beq_iff_eq] at hbyte
    simpa [List.getD_eq_getElem?_getD, hvalue, h ▸ hvalue] using hbyte

theorem findMasked_of_length (h : values.length = masks.length) (start : Int) (upwards : Bool) :
    findMasked data values masks start upwards =
      .ok (if upwards then Pattern.findUp (List.zipWith MaskedByte.mk values masks) data start
        else Pattern.findDown (List.zipWith MaskedByte.mk values masks) data start) := by
  rw [findMasked, Pattern.ofBytes, if_pos h]
  rfl

/-- A search for values under masks fails if and only if there are not as many values as masks. Otherwise it
answers, with the first offset from its start on, or with the last one up to its start, at which the values agree
with the data; nothing is found where there are no values, or more of them than the data has bytes. -/
theorem findMasked_answers (data : Array UInt8) (values masks : Bytes) (start : Int) (upwards : Bool) :
    match findMasked data values masks start upwards with
    | .error e => values.length ≠ masks.length ∧ e = ⟨values.length, masks.length⟩
    | .ok found =>
      values.length = masks.length ∧
        (values = [] ∨ data.size < values.length → found = none) ∧
        (values ≠ [] →
          if upwards then IsFirst (fun o : Nat => max start 0 ≤ o ∧ AgreesAt data values masks o) found
          else IsLast (fun o : Nat => o ≤ start ∧ AgreesAt data values masks o) found) := by
  by_cases h : values.length = masks.length
  · have hlength := length_ofBytes h
    rw [findMasked_of_length h]
    refine ⟨h, fun hunfit => ?_, fun hvalues => ?_⟩
    · have hunfit : (List.zipWith MaskedByte.mk values masks).length = 0 ∨
          data.size < (List.zipWith MaskedByte.mk values masks).length := by
        rw [hlength]
        exact hunfit.imp_left List.length_eq_zero_iff.2
      obtain ⟨hup, hdown⟩ := Pattern.find_of_unfit hunfit start
      rw [hup, hdown, ite_self]
    · have hpattern : List.zipWith MaskedByte.mk values masks ≠ [] := by
        rw [← List.length_pos_iff, hlength]
        exact List.length_pos_iff.2 hvalues
      cases upwards with
      | true =>
        refine (Pattern.findUp_isFirst hpattern data start).congr fun o => ?_
        rw [agreesAt_iff h]
        refine and_congr_left fun _ => ?_
        omega
      | false =>
        refine (Pattern.findDown_isLast hpattern data start).congr fun o => ?_
        rw [agreesAt_iff h]
  · have hfails : findMasked data values masks start upwards = .error ⟨values.length, masks.length⟩ := by
      rw [findMasked, Pattern.ofBytes, if_neg h]
      rfl
    rw [hfails]
    exact ⟨h, rfl⟩

end Masked

end PsxExe
