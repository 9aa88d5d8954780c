import PsxExe.Proofs.Space.Change

/-!
# What is noted down

A name stays bound as it was bound first, and entry points are only ever added behind the others. To note
something down that is known already changes nothing.
-/

namespace PsxExe

namespace LabelTable

variable {t u : LabelTable} {l k : Label} {name : String} {b : Binding}

/-- No label can bind the name any more: it is bound, or not a name for labels. -/
def Taken (t : LabelTable) (name : String) : Prop := isLabelName name = true → (t.bindings.get? name).isSome

theorem not_taken_iff : ¬ t.Taken name ↔ isLabelName name = true ∧ t.bindings.get? name = none := by
  rw [Taken, Classical.not_imp, Option.not_isSome_iff_eq_none]

theorem add_of_bound (hname : isLabelName l.name = true) (hb : t.bindings.get? l.name = some b) :
    t.add l =
      if b.address = l.address then .ok (b.label l.name, t) else .error (.alreadyDefined l.name b.address) := by
  simp only [add, hname, hb, if_true]

theorem add_of_free (hname : isLabelName l.name = true) (hfree : t.bindings.get? l.name = none) :
    t.add l = .ok (l, ⟨t.bindings.insert l.name ⟨l.address, l.kind, l.region⟩⟩) := by
  simp only [add, hname, hfree, if_true]

theorem add_of_invalid (hname : isLabelName l.name = false) : t.add l = .error (.invalidName l.name) := by
  simp only [add, hname, Bool.false_eq_true, if_false]

theorem add_binds (h : t.add l = .ok (k, u)) :
    isLabelName l.name = true ∧ ∃ b, u.bindings.get? l.name = some b ∧ b.address = l.address := by
  cases hname : isLabelName l.name with
  | false =>
    rw [add_of_invalid hname] at h
    cases h
  | true =>
    refine ⟨rfl, ?_⟩
    cases hbound : t.bindings.get? l.name with
    | none =>
      rw [add_of_free hname hbound] at h
      obtain ⟨-, rfl⟩ := Prod.mk.inj (Except.ok.inj h)
      exact ⟨_, Table.get?_insert_self .., rfl⟩
    | some b =>
      rw [add_of_bound hname hbound] at h
      by_cases haddress : b.address = l.address
      · rw [if_pos haddress] at h
        obtain ⟨-, rfl⟩ := Prod.mk.inj (Except.ok.inj h)
        exact ⟨b, hbound, haddress⟩
      · rw [if_neg haddress] at h
        cases h

theorem add_outcome (h : t.add l = .ok (k, u)) :
    u = t ∨ u = ⟨t.bindings.insert l.name ⟨l.address, l.kind, l.region⟩⟩ := by
  obtain ⟨hname, -⟩ := add_binds h
  cases hbound : t.bindings.get? l.name with
  | none =>
    rw [add_of_free hname hbound] at h
    exact .inr (Prod.mk.inj (Except.ok.inj h)).2.symm
  | some b =>
    rw [add_of_bound hname hbound] at h
    by_cases haddress : b.address = l.address
    · rw [if_pos haddress] at h
      exact .inl (Prod.mk.inj (Except.ok.inj h)).2.symm
    · rw [if_neg haddress] at h
      cases h

theorem add_of_ne (h : t.add l = .ok (k, u)) (hne : name ≠ l.name) :
    u.bindings.get? name = t.bindings.get? name := by
  rcases add_outcome h with rfl | rfl
  · rfl
  · exact Table.get?_insert_ne _ hne _

theorem add_keeps (h : t.add l = .ok (k, u)) (hb : t.bindings.get? name = some b) :
    u.bindings.get? name = some b := by
  by_cases hname : name = l.name
  · subst hname
    obtain ⟨hvalid, -⟩ := add_binds h
    rw [add_of_bound hvalid hb] at h
    by_cases haddress : b.address = l.address
    · rw [if_pos haddress] at h
      rwa [← (Prod.mk.inj (Except.ok.inj h)).2]
    · rw [if_neg haddress] at h
      cases h
  · rw [add_of_ne h hname]
    exact hb

end LabelTable

namespace AddressSpace

variable {host : Host} {s t : AddressSpace} {a : Int} {name : String} {kind : LabelKind} {b : Binding} {l : Label}

/-! ### Labels -/

theorem createLabel_of_bound (hname : isLabelName name = true)
    (hb : s.labels.bindings.get? name = some b) :
    s.createLabel a name kind =
      if b.address = a then .ok (b.label name, s) else .error (.label (.alreadyDefined name b.address)) := by
  have hadd := LabelTable.add_of_bound (l := ⟨a, name, kind, s.regionNameAt a⟩) hname hb
  rw [createLabel_eq, hadd]
  dsimp only
  by_cases haddress : b.address = a
  · rw [if_pos haddress, if_pos haddress]
  · rw [if_neg haddress, if_neg haddress]

theorem createLabel_of_taken (h : s.labels.Taken name) :
    (∃ l, s.createLabel a name kind = .ok (l, s)) ∨ ∃ e, s.createLabel a name kind = .error e := by
  cases hname : isLabelName name with
  | false =>
    refine .inr ⟨.label (.invalidName name), ?_⟩
    have hadd := LabelTable.add_of_invalid (t := s.labels) (l := ⟨a, name, kind, s.regionNameAt a⟩) hname
    rw [createLabel_eq, hadd]
  | true =>
    obtain ⟨b, hb⟩ := Option.isSome_iff_exists.1 (h hname)
    rw [createLabel_of_bound hname hb]
    by_cases haddress : b.address = a
    · rw [if_pos haddress]
      exact .inl ⟨_, rfl⟩
    · rw [if_neg haddress]
      exact .inr ⟨_, rfl⟩

theorem createLabel_binds (h : s.createLabel a name kind = .ok (l, t)) :
    isLabelName name = true ∧ ∃ b, t.labels.bindings.get? name = some b ∧ b.address = a := by
  obtain ⟨labels, hadd, rfl⟩ := createLabel_eq_ok_iff.1 h
  exact LabelTable.add_binds (l := ⟨a, name, kind, s.regionNameAt a⟩) hadd

theorem createLabel_again (h : s.createLabel a name kind = .ok (l, t)) (other : LabelKind) :
    ∃ k, t.createLabel a name other = .ok (k, t) := by
  obtain ⟨hname, b, hb, haddress⟩ := createLabel_binds h
  exact ⟨_, by rw [createLabel_of_bound hname hb, if_pos haddress]⟩

/-- Once a label is there, a function of its name at its address is not refused. -/
theorem createFunction_of_createLabel (h : s.createLabel a name kind = .ok (l, t)) :
    t.createFunction a name = .ok { t with functions := t.functions.insert a name } := by
  obtain ⟨k, hagain⟩ := createLabel_again h .function
  rw [createFunction_eq, hagain]

/-- The space once a label has been asked for, granted or not. -/
def labelled (s : AddressSpace) (a : Int) (name : String) (kind : LabelKind) : AddressSpace :=
  match s.createLabel a name kind with
  | .ok (_, t) => t
  | .error _ => s

theorem labelled_of_taken (h : s.labels.Taken name) : s.labelled a name kind = s := by
  rw [labelled]
  rcases createLabel_of_taken h with ⟨l, hsame⟩ | ⟨e, he⟩
  · rw [hsame]
  · rw [he]

theorem taken_labelled (s : AddressSpace) (a : Int) (name : String) (kind : LabelKind) :
    (s.labelled a name kind).labels.Taken name := by
  intro hname
  cases hcreate : s.createLabel a name kind with
  | ok created =>
    rw [labelled, hcreate]
    obtain ⟨-, b, hb, -⟩ := createLabel_binds (l := created.1) (t := created.2) hcreate
    exact Option.isSome_iff_exists.2 ⟨b, hb⟩
  | error e =>
    rw [labelled, hcreate]
    cases hbound : s.labels.bindings.get? name with
    | some b => rfl
    | none =>
      have hadd := LabelTable.add_of_free (l := ⟨a, name, kind, s.regionNameAt a⟩) hname hbound
      rw [createLabel_eq, hadd] at hcreate
      cases hcreate

/-! ### What every change leaves -/

theorem Change.notes (h : Change host s t) :
    (t.labels = s.labels ∨ ∃ l k, s.labels.add l = .ok (k, t.labels)) ∧
      (t.entryPoints = s.entryPoints ∨ ∃ a, a ∉ s.entryPoints ∧ t.entryPoints = s.entryPoints ++ [a]) := by
  cases h with
  | region h =>
    obtain ⟨-, -, -, rfl⟩ := createRegion_eq_ok_iff.1 h
    exact ⟨.inl rfl, .inl rfl⟩
  | mirror h =>
    obtain ⟨-, -, -, -, -, rfl⟩ := createMirror_eq_ok_iff.1 h
    exact ⟨.inl rfl, .inl rfl⟩
  | write h =>
    obtain ⟨-, -, rfl⟩ := write_eq_ok_iff.1 h
    exact ⟨.inl rfl, .inl rfl⟩
  | data h =>
    obtain ⟨-, -, rfl⟩ := createData_eq_ok_iff.1 h
    exact ⟨.inl rfl, .inl rfl⟩
  | label h =>
    obtain ⟨labels, hadd, rfl⟩ := createLabel_eq_ok_iff.1 h
    exact ⟨.inr ⟨_, _, hadd⟩, .inl rfl⟩
  | function h =>
    obtain ⟨_, u, hu, rfl⟩ := createFunction_eq_ok_iff.1 h
    obtain ⟨labels, hadd, rfl⟩ := createLabel_eq_ok_iff.1 hu
    exact ⟨.inr ⟨_, _, hadd⟩, .inl rfl⟩
  | entryPoint a =>
    rw [addEntryPoint]
    by_cases ha : a ∈ s.entryPoints
    · rw [if_pos ha]
      exact ⟨.inl rfl, .inl rfl⟩
    · rw [if_neg ha]
      exact ⟨.inl rfl, .inr ⟨a, ha, rfl⟩⟩
  | register => exact ⟨.inl rfl, .inl rfl⟩
  | instruction a =>
    rw [decoded]
    split
    · exact ⟨.inl rfl, .inl rfl⟩
    · dsimp only
      split <;> exact ⟨.inl rfl, .inl rfl⟩

theorem Change.binding (h : Change host s t) (hb : s.labels.bindings.get? name = some b) :
    t.labels.bindings.get? name = some b := by
  rcases h.notes.1 with hsame | ⟨l, k, hadd⟩
  · rwa [hsame]
  · exact LabelTable.add_keeps hadd hb

theorem Changes.binding (h : Changes host s t) (hb : s.labels.bindings.get? name = some b) :
    t.labels.bindings.get? name = some b :=
  h.preserves (fun _ _ hchange hb => hchange.binding hb) hb

theorem Changes.taken (h : Changes host s t) (htaken : s.labels.Taken name) : t.labels.Taken name := by
  intro hname
  obtain ⟨b, hb⟩ := Option.isSome_iff_exists.1 (htaken hname)
  exact Option.isSome_iff_exists.2 ⟨b, h.binding hb⟩

theorem Change.nodup_entryPoints (h : Change host s t) (hs : s.entryPoints.Nodup) : t.entryPoints.Nodup := by
  rcases h.notes.2 with hsame | ⟨a, ha, hmore⟩
  · rwa [hsame]
  · rw [hmore]
    refine List.nodup_append.2 ⟨hs, List.pairwise_singleton .., fun x hx y hy => ?_⟩
    obtain rfl := List.mem_singleton.1 hy
    exact ne_of_mem_of_not_mem hx ha

end AddressSpace

end PsxExe
