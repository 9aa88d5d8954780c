import Mathlib.Algebra.GroupWithZero.Nat
import PsxExe.Proofs.Space.Notes

/-!
# The laws of a label table

What becomes of a label that is added is decided by what its name is bound to before: nothing, and it is bound; its
own address, and all stays as it was; another address, and the label is refused. The listing is in strict order,
since two labels at one address differ in their names.
-/

namespace PsxExe

/-- The order of the listing: by the address, and at one address by the name. -/
def Label.Before (a b : Label) : Prop := a.address < b.address ∨ a.address = b.address ∧ a.name < b.name

namespace LabelTable

variable {t u : LabelTable} {l k : Label} {name : String}

/-! ### Adding a label -/

theorem find?_eq_none_iff : t.find? name = none ↔ t.bindings.get? name = none := Option.map_eq_none_iff

theorem find?_insert_self (t : LabelTable) (l : Label) :
    (LabelTable.mk (t.bindings.insert l.name ⟨l.address, l.kind, l.region⟩)).find? l.name = some l :=
  congrArg (Option.map _) (Table.get?_insert_self ..)

theorem find?_insert_ne (t : LabelTable) {l : Label} (hne : name ≠ l.name) :
    (LabelTable.mk (t.bindings.insert l.name ⟨l.address, l.kind, l.region⟩)).find? name = t.find? name :=
  congrArg (Option.map _) (Table.get?_insert_ne _ hne _)

theorem add_of_find? (hname : isLabelName l.name = true) (hk : t.find? l.name = some k) :
    t.add l = if k.address = l.address then .ok (k, t) else .error (.alreadyDefined l.name k.address) := by
  obtain ⟨b, hb, rfl⟩ := Option.map_eq_some_iff.1 hk
  exact add_of_bound hname hb

/-- The label that an addition gives is the one that had the name before, and else the new one. It has the name
then, and no other name is touched. -/
theorem find?_of_add (h : t.add l = .ok (k, u)) :
    k = (t.find? l.name).getD l ∧ u.find? l.name = some k ∧ ∀ name, name ≠ l.name → u.find? name = t.find? name := by
  obtain ⟨hname, -⟩ := add_binds h
  cases hfound : t.find? l.name with
  | none =>
    rw [add_of_free hname (find?_eq_none_iff.1 hfound)] at h
    obtain ⟨rfl, rfl⟩ := Prod.mk.inj (Except.ok.inj h)
    exact ⟨rfl, find?_insert_self t l, fun name hne => find?_insert_ne t hne⟩
  | some first =>
    rw [add_of_find? hname hfound] at h
    by_cases haddress : first.address = l.address
    · rw [if_pos haddress] at h
      obtain ⟨rfl, rfl⟩ := Prod.mk.inj (Except.ok.inj h)
      exact ⟨rfl, hfound, fun _ _ => rfl⟩
    · rw [if_neg haddress] at h
      cases h

theorem add_isOk_iff :
    (∃ added, t.add l = .ok added) ↔ isLabelName l.name = true ∧ ∀ k, t.find? l.name = some k → k.address = l.address := by
  cases hname : isLabelName l.name with
  | false => simp [add_of_invalid hname]
  | true =>
    cases hfound : t.find? l.name with
    | none => simp [add_of_free hname (find?_eq_none_iff.1 hfound)]
    | some k =>
      rw [add_of_find? hname hfound]
      by_cases haddress : k.address = l.address <;> simp [haddress]

/-- A label is refused because its name is none for labels, or because it is bound elsewhere. -/
theorem add_eq_error_iff {e : LabelError} :
    t.add l = .error e ↔
      isLabelName l.name = false ∧ e = .invalidName l.name ∨
        isLabelName l.name = true ∧
          ∃ k, t.find? l.name = some k ∧ k.address ≠ l.address ∧ e = .alreadyDefined l.name k.address := by
  cases hname : isLabelName l.name with
  | false => simp [add_of_invalid hname, eq_comm]
  | true =>
    cases hfound : t.find? l.name with
    | none => simp [add_of_free hname (find?_eq_none_iff.1 hfound)]
    | some k =>
      rw [add_of_find? hname hfound]
      by_cases haddress : k.address = l.address
      · simp [haddress]
      · rw [if_neg haddress, Except.error.injEq]
        simp only [Bool.true_eq_false, false_and, false_or, true_and, Option.some.injEq, exists_eq_left', haddress,
          ne_eq, not_false_eq_true]
        exact eq_comm

/-! ### The listing -/

theorem precedes_iff : precedes l k = true ↔ l.address < k.address ∨ l.address = k.address ∧ l.name ≤ k.name := by
  simp only [precedes, Bool.or_eq_true, Bool.and_eq_true, beq_iff_eq, decide_eq_true_eq]

theorem precedes_trans (a b c : Label) (hab : precedes a b) (hbc : precedes b c) : precedes a c := by
  rw [precedes_iff] at hab hbc ⊢
  rcases hab with hab | ⟨hab, hnames⟩
  · exact .inl (by omega)
  · rcases hbc with hbc | ⟨hbc, hnames'⟩
    · exact .inl (by omega)
    · exact .inr ⟨hab.trans hbc, String.le_trans hnames hnames'⟩

theorem precedes_total (a b : Label) : precedes a b ∨ precedes b a := by
  rw [precedes_iff, precedes_iff]
  have hnames := String.le_total a.name b.name
  rcases Int.lt_trichotomy a.address b.address with hlt | heq | hgt
  · exact .inl (.inl hlt)
  · exact hnames.imp (fun h => .inr ⟨heq, h⟩) fun h => .inr ⟨heq.symm, h⟩
  · exact .inr (.inl hgt)

theorem listing_names (t : LabelTable) : t.listing.Pairwise fun a b => a.name ≠ b.name := by
  refine ((sortBy_perm precedes t.byName).pairwise_iff fun h => h.symm).2 ?_
  rw [byName, List.pairwise_map]
  refine t.bindings.ascending.imp fun {a b} hlt hsame => ?_
  change a.1 = b.1 at hsame
  rw [hsame] at hlt
  exact absurd hlt (by simp)

theorem listing_ascending (t : LabelTable) : t.listing.Pairwise Label.Before := by
  have hsorted := sortBy_pairwise precedes_trans precedes_total t.byName
  refine (hsorted.and t.listing_names).imp fun {a b} ⟨hle, hne⟩ => ?_
  exact (precedes_iff.1 hle).imp_right fun ⟨haddress, hnames⟩ => ⟨haddress, Std.lt_of_le_of_ne hnames hne⟩

theorem listing_nodup (t : LabelTable) : t.listing.Nodup :=
  t.listing_names.imp fun hne hsame => hne (congrArg Label.name hsame)

theorem length_listing (t : LabelTable) : t.listing.length = t.size := by
  rw [listing, (sortBy_perm precedes t.byName).length_eq, byName, List.length_map]
  rfl

theorem sum_countP_kinds (l : List Label) :
    (LabelKind.all.map fun kind => l.countP (·.kind == kind)).sum = l.length := by
  induction l with
  | nil => rfl
  | cons k rest ih =>
    simp only [LabelKind.all, List.map_cons, List.map_nil, List.sum_cons, List.sum_nil, List.countP_cons,
      List.length_cons] at ih ⊢
    cases k.kind <;> simp <;> omega

theorem sum_count (t : LabelTable) : (LabelKind.all.map t.count).sum = t.size := by
  have hcounts := sum_countP_kinds t.byName
  rwa [byName, List.length_map] at hcounts

end LabelTable

namespace AddressSpace

variable {s t : AddressSpace} {a : Int} {name : String} {kind : LabelKind} {l : Label}

/-! ### Labels in a space -/

theorem createLabel_of_agreeing (hname : isLabelName name = true)
    (hbound : ∀ l, s.labels.find? name = some l → l.address = a) (kind : LabelKind) :
    ∃ l labels, s.createLabel a name kind = .ok (l, { s with labels }) ∧ labels.find? name = some l ∧
      l.address = a := by
  obtain ⟨⟨l, labels⟩, hadd⟩ : ∃ added, s.labels.add ⟨a, name, kind, s.regionNameAt a⟩ = .ok added :=
    LabelTable.add_isOk_iff.2 ⟨hname, hbound⟩
  obtain ⟨rfl, hfound, -⟩ := LabelTable.find?_of_add hadd
  refine ⟨_, labels, createLabel_eq_ok_iff.2 ⟨labels, hadd, rfl⟩, hfound, ?_⟩
  cases hfirst : s.labels.find? name with
  | none => rw [Option.getD_none]
  | some k =>
    rw [Option.getD_some]
    exact hbound k hfirst

theorem createLabel_of_elsewhere (hname : isLabelName name = true)
    (hl : s.labels.find? name = some l) (hne : l.address ≠ a) (kind : LabelKind) :
    ∃ e, s.createLabel a name kind = .error e := by
  obtain ⟨b, hb, rfl⟩ := Option.map_eq_some_iff.1 hl
  have haddress : b.address ≠ a := hne
  rw [createLabel_of_bound hname hb, if_neg haddress]
  exact ⟨_, rfl⟩

theorem find?_of_createLabel (h : s.createLabel a name kind = .ok (l, t)) :
    l = (s.labels.find? name).getD ⟨a, name, kind, s.regionNameAt a⟩ ∧ t.labels.find? name = some l ∧
      ∀ other, other ≠ name → t.labels.find? other = s.labels.find? other := by
  obtain ⟨labels, hadd, rfl⟩ := createLabel_eq_ok_iff.1 h
  exact LabelTable.find?_of_add hadd

end AddressSpace

end PsxExe
