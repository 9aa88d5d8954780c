import PsxExe.Proofs.MemoryMap.Settled

/-!
# Where regions come from

A region that requests have mapped is the one that some request asked for, and its range could be mapped
before the first of them: requests only ever use up room. A region request therefore leaves its region if
and only if there was room for it when its turn came, and it is recorded as a failure otherwise.
-/

namespace PsxExe

open AddressSpace

variable {host : Host} {file : Bytes} {s t : AddressSpace} {r : Request} {q : Region}

namespace AddressSpace

theorem Change.mem_regions (h : Change host s t) (hq : q ∈ t.regions) : q ∈ s.regions ∨ s.Admits q.extent := by
  rcases h.memory with ⟨_, _, _, _, _, h⟩ | ⟨_, _, _, _, h⟩ | ⟨_, _, h⟩ | h
  · obtain ⟨hadmits, -, rfl, rfl⟩ := createRegion_eq_ok_iff.1 h
    rcases mem_insertRegion.1 hq with rfl | hold
    · exact .inr hadmits
    · exact .inl hold
  · obtain ⟨_, -, -, hadmits, rfl, rfl⟩ := createMirror_eq_ok_iff.1 h
    rcases mem_insertRegion.1 hq with rfl | hold
    · exact .inr hadmits
    · exact .inl hold
  · rw [(write_keeps h).2] at hq
    exact .inl hq
  · rw [h.regions] at hq
    exact .inl hq

theorem Changes.mem_regions (h : Changes host s t) (hq : q ∈ t.regions) :
    q ∈ s.regions ∨ s.Admits q.extent := by
  induction h with
  | refl => exact .inl hq
  | tail hc hchange ih =>
    rcases hchange.mem_regions hq with hq | hadmits
    · exact ih hq
    · exact .inr (hadmits.of_keeps (Changes.keeps hc))

end AddressSpace

namespace Request

/-- The region is what the request asks for. -/
def Yields : Request → Region → Prop
  | region r, q =>
    q.name = r.name ∧ q.extent = r.extent ∧ q.permissions = r.permissions ∧ q.offset = 0 ∧ q.mirrorOf = none
  | mirror m, q => q.name = m.name ∧ q.extent = m.extent ∧ q.mirrorOf = some m.base
  | data _, _ => False

theorem Yields.name_eq (h : r.Yields q) : q.name = r.name := by
  cases r with
  | region k => exact h.1
  | mirror m => exact h.1
  | data d => exact h.elim

/-- What the request asks for is mapped. -/
def RealizedIn (s : AddressSpace) (r : Request) : Prop := ∃ q ∈ s.regions, r.Yields q

theorem RealizedIn.of_keeps (h : r.RealizedIn s) (hk : Keeps s t) : r.RealizedIn t := by
  obtain ⟨q, hq, hyields⟩ := h
  exact ⟨q, hk.regions.subset hq, hyields⟩

theorem create_mem_regions (h : r.create host file s = .ok t) (hq : q ∈ t.regions) :
    q ∈ s.regions ∨ r.Yields q := by
  cases r with
  | region r =>
    obtain ⟨⟨k, u⟩, hu, rfl⟩ := exists_of_map_eq_ok h
    obtain ⟨-, -, rfl, rfl⟩ := createRegion_eq_ok_iff.1 hu
    rcases mem_insertRegion.1 hq with rfl | hold
    · exact .inr ⟨rfl, rfl, rfl, rfl, rfl⟩
    · exact .inl hold
  | mirror m =>
    obtain ⟨⟨k, u⟩, hu, rfl⟩ := exists_of_map_eq_ok h
    obtain ⟨b, -, -, -, rfl, rfl⟩ := createMirror_eq_ok_iff.1 hu
    rcases mem_insertRegion.1 hq with rfl | hold
    · exact .inr ⟨rfl, rfl, rfl⟩
    · exact .inl hold
  | data d =>
    rw [(createData_sameMemory h).regions] at hq
    exact .inl hq

theorem exists_filled_of_create {k : RegionRequest} (h : (region k).create host file s = .ok t) :
    ∃ q ∈ t.regions, (region k).Yields q ∧ q.storage < t.storages.length ∧
      ∀ i : Nat, i < k.extent.size → t.byteIn ⟨q.storage, i⟩ = ((k.fileBytes file).getD []).getD i 0 := by
  obtain ⟨⟨q, u⟩, hu, rfl⟩ := exists_of_map_eq_ok h
  obtain ⟨-, -, rfl, rfl⟩ := createRegion_eq_ok_iff.1 hu
  refine ⟨_, mem_insertRegion.2 (.inl rfl), ⟨rfl, rfl, rfl, rfl, rfl⟩, ?_, fun i hi => ?_⟩
  · simp only [storages_insertRegion, List.length_append, List.length_singleton, Nat.lt_succ_self]
  · rw [← byteAt_filledStorage hi, byteIn]
    simp only [storages_insertRegion, List.getD_eq_getElem?_getD, List.getElem?_concat_length,
      Option.getD_some]

theorem apply_mem_regions (hq : q ∈ (r.apply host file s).space.regions) : q ∈ s.regions ∨ r.Yields q := by
  rw [apply, (r.applyLabel_sameMemory _).regions, applyCreation] at hq
  cases hcreate : r.create host file s with
  | error cause =>
    rw [hcreate] at hq
    exact .inl hq
  | ok t =>
    rw [hcreate] at hq
    exact create_mem_regions hcreate hq

theorem applyAll_mem_regions {l : List Request} (hq : q ∈ (applyAll host file s l).space.regions) :
    q ∈ s.regions ∨ ∃ r ∈ l, r.Yields q := by
  induction l generalizing s with
  | nil => exact .inl hq
  | cons r rest ih =>
    rcases ih hq with hq | ⟨r', hr', hyields⟩
    · exact (apply_mem_regions hq).imp_right fun hyields => ⟨r, List.mem_cons_self, hyields⟩
    · exact .inr ⟨r', List.mem_cons_of_mem _ hr', hyields⟩

/-! ### Failures -/

theorem mem_failures_apply {f : Failure} (hf : f ∈ (r.apply host file s).failures) : f.request = r := by
  rw [apply] at hf
  rcases List.mem_append.1 hf with hf | hf
  · rw [applyCreation] at hf
    cases hcreate : r.create host file s with
    | error cause =>
      rw [hcreate] at hf
      rw [List.mem_singleton.1 hf]
    | ok t =>
      rw [hcreate] at hf
      cases hf
  · rw [applyLabel] at hf
    split at hf
    next => cases hf
    next =>
      split at hf
      next => cases hf
      next => rw [List.mem_singleton.1 hf]

theorem mem_failures_applyAll {l : List Request} {f : Failure} (hf : f ∈ (applyAll host file s l).failures) :
    f.request ∈ l := by
  induction l generalizing s with
  | nil => cases hf
  | cons r rest ih =>
    rcases List.mem_append.1 hf with hf | hf
    · rw [mem_failures_apply hf]
      exact List.mem_cons_self
    · exact List.mem_cons_of_mem _ (ih hf)

theorem exists_create_of_grants {k : RegionRequest} (h : s.Grants host k.extent) :
    ∃ t, (region k).create host file s = .ok t := by
  cases hcreate : (region k).create host file s with
  | error cause => exact absurd h (region_refused_iff.1 ⟨cause, hcreate⟩)
  | ok t => exact ⟨t, rfl⟩

theorem failures_region_eq_nil {k : RegionRequest} (h : s.Grants host k.extent) :
    ((region k).apply host file s).failures = [] := by
  obtain ⟨t, ht⟩ := @exists_create_of_grants host file s k h
  exact failures_of_create ht rfl

theorem region_failure_iff {k : RegionRequest} :
    (∃ cause, ⟨region k, cause⟩ ∈ ((region k).apply host file s).failures) ↔ ¬ s.Grants host k.extent := by
  constructor
  · intro hfailed hgrants
    obtain ⟨cause, hcause⟩ := hfailed
    rw [failures_region_eq_nil hgrants] at hcause
    cases hcause
  · intro hno
    exact failure_of_refused (region_refused_iff.2 hno)

theorem turn_failure {k : RegionRequest} {before : List Request}
    (hno : ¬ (applyAll host file s before).space.Grants host k.extent) (after : List Request) :
    ∃ cause, ⟨region k, cause⟩ ∈ (applyAll host file s (before ++ region k :: after)).failures := by
  obtain ⟨cause, hcause⟩ := (@region_failure_iff host file _ k).2 hno
  rw [failures_applyAll_append]
  exact ⟨cause, List.mem_append_right _ (List.mem_append_left _ hcause)⟩

/-- A region that is asked for once is recorded as a failure only for that reason. -/
theorem turn_failure_iff {k : RegionRequest} {before after : List Request}
    (hbefore : .region k ∉ before) (hafter : .region k ∉ after) :
    (∃ cause, ⟨region k, cause⟩ ∈ (applyAll host file s (before ++ region k :: after)).failures) ↔
      ¬ (applyAll host file s before).space.Grants host k.extent := by
  refine ⟨fun ⟨cause, hfailed⟩ => ?_, fun hno => turn_failure hno after⟩
  refine (@region_failure_iff host file _ k).1 ⟨cause, ?_⟩
  rw [failures_applyAll_append] at hfailed
  rcases List.mem_append.1 hfailed with hmem | hmem
  · exact absurd (mem_failures_applyAll hmem) hbefore
  · rcases List.mem_append.1 hmem with hmem | hmem
    · exact hmem
    · exact absurd (mem_failures_applyAll hmem) hafter

theorem realizedIn_of_grants {k : RegionRequest} (h : s.Grants host k.extent) (rest : List Request) :
    (region k).RealizedIn (applyAll host file s (region k :: rest)).space := by
  obtain ⟨t, ht⟩ := @exists_create_of_grants host file s k h
  obtain ⟨q, hq, hyields, -⟩ := exists_filled_of_create ht
  have hrealized : (region k).RealizedIn t := ⟨q, hq, hyields⟩
  rw [applyAll, apply_of_create ht rfl]
  exact hrealized.of_keeps (applyAll_extends rest t).keeps

/-- The region of a request is there in the end if there was room for it when its turn came. -/
theorem realizedIn_applyAll_iff {k : RegionRequest} (hg : s.Granted host)
    (hnew : ¬ (region k).RealizedIn s) (rest : List Request) :
    (region k).RealizedIn (applyAll host file s (region k :: rest)).space ↔ s.Grants host k.extent := by
  have hc : Changes host s (applyAll host file s (region k :: rest)).space := applyAll_changes _ s
  refine ⟨fun ⟨q, hq, hyields⟩ => ?_, fun h => realizedIn_of_grants h rest⟩
  have hextent : q.extent = k.extent := hyields.2.1
  have hsize := hc.granted hg q hq
  rw [Region.size, hextent] at hsize
  rcases hc.mem_regions hq with hold | hadmits
  · exact absurd ⟨q, hold, hyields⟩ hnew
  · rw [hextent] at hadmits
    exact ⟨hadmits, hsize⟩

/-- A region whose name was not asked for before is there in the end if there was room for it at its turn. -/
theorem turn_realizedIn_iff {k : RegionRequest} {before after : List Request}
    (hbefore : ∀ r ∈ before, r.name ≠ k.name) :
    (region k).RealizedIn (applyAll host file ∅ (before ++ region k :: after)).space ↔
      (applyAll host file ∅ before).space.Grants host k.extent := by
  rw [applyAll_append]
  have hgranted : (applyAll host file ∅ before).space.Granted host :=
    (applyAll_changes _ _).granted granted_empty
  refine realizedIn_applyAll_iff hgranted ?_ after
  rintro ⟨q, hq, hyields⟩
  rcases applyAll_mem_regions hq with hold | ⟨r, hr, hother⟩
  · exact (List.not_mem_nil hold).elim
  · exact hbefore r hr (hother.name_eq.symm.trans hyields.name_eq)

theorem read_of_grants {k : RegionRequest} (hs : s.Arranged) (h : s.Grants host k.extent)
    (rest : List Request) :
    (applyAll host file s (region k :: rest)).space.read k.extent.address k.extent.size =
      .ok ((List.range k.extent.size.toNat).map fun i => ((k.fileBytes file).getD []).getD i 0) := by
  obtain ⟨t, ht⟩ := @exists_create_of_grants host file s k h
  obtain ⟨q, hq, hyields, hstorage, hbytes⟩ := exists_filled_of_create ht
  obtain ⟨-, hextent, -, hoffset, -⟩ := hyields
  have hall : (applyAll host file s (region k :: rest)).space.Arranged := (applyAll_changes _ s).arranged hs
  rw [applyAll, apply_of_create ht rfl] at hall ⊢
  have he : Extends t (applyAll host file t rest).space := applyAll_extends rest t
  have hread := hall.read_whole (he.keeps.regions.subset hq)
  rw [Region.address, Region.size, hextent, hoffset] at hread
  rw [hread]
  refine congrArg Except.ok (List.map_congr_left fun i hi => ?_)
  rw [Nat.zero_add, he.byteIn hstorage]
  exact hbytes i (by have := List.mem_range.1 hi; omega)

end Request

end PsxExe
