import PsxExe.Proofs.MemoryMap.Refusals
import PsxExe.Proofs.Space.Acceptance

/-!
# Empty requests

A piece of the RAM without bytes is left out of a memory map, and so is code without bytes. A data or bss
section is asked for by its address alone, so one without bytes gets into the map all the same. These are
the only empty requests that a map can have. Realizing the map reports each of them for its size, and
nothing else.
-/

namespace PsxExe

open AddressSpace

variable {host : Host} {file : Bytes} {s : AddressSpace} {r : Request} {f : Failure}

/-- The request is to map a range that has no addresses. -/
def Request.IsEmpty : Request → Prop
  | region r => r.extent.size ≤ 0
  | mirror m => m.extent.size ≤ 0
  | data _ => False

def Failure.BlamesSize (f : Failure) : Prop := ∃ name size, f.cause = .sizeNotPositive name size

def RegionRequest.sizeFailure (k : RegionRequest) : Failure :=
  ⟨.region k, .sizeNotPositive k.name k.extent.size⟩

/-! ### Refusals for the size -/

theorem map_eq_error_iff {ε α β : Type} {x : Except ε α} {g : α → β} {e : ε} :
    x.map g = .error e ↔ x = .error e := by
  cases x <;> simp [Except.map]

namespace Request

theorem isEmpty_of_create {name : String} {size : Int}
    (h : r.create host file s = .error (.sizeNotPositive name size)) : r.IsEmpty := by
  have hrange {e : Extent} {label : String} (h : s.checkRange label e = .error (.sizeNotPositive name size)) :
      e.size ≤ 0 := by
    rcases checkRange_eq_error_iff.1 h with ⟨hsize, -⟩ | ⟨-, -, hcause⟩ | ⟨-, q, -, hcause⟩
    · exact hsize
    · cases hcause
    · cases hcause
  cases r with
  | region k =>
    rcases createRegion_eq_error_iff.1 (map_eq_error_iff.1 h) with hcheck | ⟨-, -, hcause⟩
    · exact hrange hcheck
    · cases hcause
  | mirror m =>
    rcases createMirror_eq_error_iff.1 (map_eq_error_iff.1 h) with
      ⟨-, hcause⟩ | ⟨q, -, ⟨-, hcause⟩ | ⟨-, hcheck⟩⟩
    · cases hcause
    · cases hcause
    · exact hrange hcheck
  | data d =>
    rw [create, createData] at h
    by_cases hwidth : d.width ∈ [8, 16, 32]
    · cases hlocate : s.locate d.address (d.width / 8 * d.count) with
      | ok q => simp [hwidth, hlocate, bind, Except.bind, pure, Except.pure] at h
      | error cause =>
        have hcause : cause = .sizeNotPositive name size := by
          simpa [hwidth, hlocate, bind, Except.bind] using h
        rcases locate_eq_error_iff.1 hlocate with ⟨-, hother⟩ | ⟨q, -, -, hother⟩
        · rw [hother] at hcause
          cases hcause
        · rw [hother] at hcause
          cases hcause
    · simp [hwidth, throw, throwThe, MonadExceptOf.throw, bind, Except.bind] at h

theorem create_of_isEmpty {k : RegionRequest} (h : k.extent.size ≤ 0) :
    (region k).create host file s = .error (.sizeNotPositive k.name k.extent.size) :=
  map_eq_error_iff.2 (createRegion_eq_error_iff.2 (.inl (checkRange_eq_error_iff.2 (.inl ⟨h, rfl⟩))))

theorem blamesSize_apply (hf : f ∈ (r.apply host file s).failures) (hsize : f.BlamesSize) :
    f.request = r ∧ r.create host file s = .error f.cause := by
  obtain ⟨name, size, hcause⟩ := hsize
  rw [apply] at hf
  rcases List.mem_append.1 hf with hf | hf
  · rw [applyCreation] at hf
    cases hcreate : r.create host file s with
    | ok t =>
      rw [hcreate] at hf
      cases hf
    | error cause =>
      rw [hcreate] at hf
      obtain rfl := List.mem_singleton.1 hf
      exact ⟨rfl, rfl⟩
  · -- What is recorded of a label is the cause that the labels gave.
    rw [applyLabel] at hf
    split at hf
    next => cases hf
    next =>
      split at hf
      next => cases hf
      next e hrefused =>
        have hkind := createLabel_error hrefused
        rw [List.mem_singleton.1 hf] at hcause
        rw [show e = .sizeNotPositive name size from hcause] at hkind
        cases hkind

theorem sizeFailure_mem_apply {k : RegionRequest} (h : k.extent.size ≤ 0) :
    k.sizeFailure ∈ ((region k).apply host file s).failures := by
  simp only [apply, applyCreation, create_of_isEmpty h]
  exact List.mem_append_left _ (List.mem_singleton.2 rfl)

/-- Where no mirror is empty, the failures for sizes are those of the empty regions, whatever the requests
find mapped. -/
theorem blamesSize_applyAll_iff {l : List Request} (hmirrors : ∀ m, .mirror m ∈ l → ¬ (mirror m).IsEmpty) :
    (f ∈ (applyAll host file s l).failures ∧ f.BlamesSize) ↔
      ∃ k, .region k ∈ l ∧ k.extent.size ≤ 0 ∧ f = k.sizeFailure := by
  induction l generalizing s with
  | nil => simp [applyAll]
  | cons r rest ih =>
    have ih := ih (s := (r.apply host file s).space) fun m hm => hmirrors m (List.mem_cons_of_mem _ hm)
    constructor
    · rintro ⟨hf, hsize⟩
      rcases List.mem_append.1 hf with hf | hf
      · obtain ⟨hrequest, hcreate⟩ := blamesSize_apply hf hsize
        obtain ⟨request, cause⟩ := f
        obtain rfl : request = r := hrequest
        obtain ⟨name, size, rfl⟩ := hsize
        have hempty := isEmpty_of_create hcreate
        cases request with
        | region k =>
          rw [create_of_isEmpty hempty] at hcreate
          exact ⟨k, List.mem_cons_self, hempty, by rw [RegionRequest.sizeFailure, Except.error.inj hcreate]⟩
        | mirror m => exact absurd hempty (hmirrors m List.mem_cons_self)
        | data d => exact hempty.elim
      · -- An empty region fails wherever it has its turn, so the space that it finds does not matter.
        obtain ⟨k, hk, hempty⟩ := ih.1 ⟨hf, hsize⟩
        exact ⟨k, List.mem_cons_of_mem _ hk, hempty⟩
    · rintro ⟨k, hk, hempty, rfl⟩
      refine ⟨List.mem_append.2 ?_, _, _, rfl⟩
      rcases List.mem_cons.1 hk with rfl | hk
      · exact .inl (sizeFailure_mem_apply hempty)
      · exact .inr (ih.2 ⟨k, hk, hempty, rfl⟩).1

end Request

/-! ### The requests of a map -/

theorem RamPiece.requests_nonempty {p : RamPiece} (hr : r ∈ p.requests) : ¬ r.IsEmpty := by
  by_cases hempty : p.IsEmpty
  · rw [requests, if_pos hempty] at hr
    cases hr
  · rcases mem_requests hr with rfl | ⟨w, -, rfl⟩
    · exact hempty
    · exact hempty

theorem chipRequests_nonempty (hr : r ∈ chipRequests) : ¬ r.IsEmpty := by
  rcases List.mem_pair.1 hr with rfl | rfl
  · exact Int.not_le.2 (show 0 < scratchpad.size by decide)
  · exact Int.not_le.2 (show 0 < behindScratchpad.size by decide)

theorem hardwareRequests_nonempty (hr : r ∈ hardwareRequests) : ¬ r.IsEmpty := by
  have hsizes : ∀ b ∈ Hardware.catalog, 0 < b.extent.size := by decide
  rw [Hardware.hardwareRequests_eq] at hr
  obtain ⟨b, hb, hr⟩ := List.mem_flatMap.1 hr
  rcases Hardware.Block.mem_mapped hr with rfl | ⟨entries, x, -, -, rfl⟩
  · exact Int.not_le.2 (hsizes b hb)
  · cases x <;> exact id

namespace Header

variable {h : Header}

/-- The empty requests of a map are those for empty sections that have an address. -/
theorem mem_memoryMap_empty_iff :
    (r ∈ h.memoryMap ∧ r.IsEmpty) ↔
      (h.hasData ∧ h.data.size ≤ 0 ∧ r = .region h.dataRequest) ∨
        (h.hasBss ∧ h.bss.size ≤ 0 ∧ r = .region h.bssRequest) := by
  rw [memoryMap_eq_sections]
  simp only [List.mem_append, mem_dataSection, mem_bssSection]
  constructor
  · rintro ⟨hr | ⟨hpresent, rfl⟩ | ⟨hpresent, rfl⟩ | hr | hr, hempty⟩
    · obtain ⟨p, -, hr⟩ := List.mem_flatMap.1 hr
      exact absurd hempty (RamPiece.requests_nonempty hr)
    · exact .inl ⟨hpresent, hempty, rfl⟩
    · exact .inr ⟨hpresent, hempty, rfl⟩
    · exact absurd hempty (chipRequests_nonempty hr)
    · exact absurd hempty (hardwareRequests_nonempty hr)
  · rintro (⟨hpresent, hsize, rfl⟩ | ⟨hpresent, hsize, rfl⟩)
    · exact ⟨.inr (.inl ⟨hpresent, rfl⟩), hsize⟩
    · exact ⟨.inr (.inr (.inl ⟨hpresent, rfl⟩)), hsize⟩

/-- An empty request of a map is that for a data or bss section which has an address and no bytes, and
there are no others. Realizing the map on any space records for each of them that its size is not positive,
and records this of nothing else. -/
theorem memoryMap_empty_requests (h : Header) (host : Host) (file : Bytes) {p : Progress}
    (hp : p.monitor.Patient) :
    (∀ r, (r ∈ h.memoryMap ∧ r.IsEmpty) ↔
      (h.data.address ≠ 0 ∧ h.data.size ≤ 0 ∧ r = .region h.dataRequest) ∨
        (h.bss.address ≠ 0 ∧ h.bss.size ≤ 0 ∧ r = .region h.bssRequest)) ∧
    ∃ failures, ((realize host file h.memoryMap).exec p).1 = .ok failures ∧
      ∀ f, (f ∈ failures ∧ f.BlamesSize) ↔
        (h.data.address ≠ 0 ∧ h.data.size ≤ 0 ∧ f = h.dataRequest.sizeFailure) ∨
          (h.bss.address ≠ 0 ∧ h.bss.size ≤ 0 ∧ f = h.bssRequest.sizeFailure) := by
  have hempty : ∀ r, (r ∈ h.memoryMap ∧ r.IsEmpty) ↔
      (h.data.address ≠ 0 ∧ h.data.size ≤ 0 ∧ r = .region h.dataRequest) ∨
        (h.bss.address ≠ 0 ∧ h.bss.size ≤ 0 ∧ r = .region h.bssRequest) := by
    intro r
    rw [mem_memoryMap_empty_iff, hasData, hasBss, bne_iff_ne, bne_iff_ne]
  have hmirrors : ∀ m, .mirror m ∈ h.memoryMap → ¬ (Request.mirror m).IsEmpty := by
    intro m hm hsize
    rcases (hempty _).1 ⟨hm, hsize⟩ with ⟨-, -, hr⟩ | ⟨-, -, hr⟩
    · cases hr
    · cases hr
  obtain ⟨failures, hrun⟩ := @realize_of_patient host file p h.memoryMap hp
  obtain ⟨rfl, -⟩ := realize_ok hrun
  refine ⟨hempty, _, hrun, fun f => (Request.blamesSize_applyAll_iff hmirrors).trans ⟨?_, ?_⟩⟩
  · rintro ⟨k, hk, hsize, rfl⟩
    rcases (hempty _).1 ⟨hk, hsize⟩ with ⟨haddress, hsize, hr⟩ | ⟨haddress, hsize, hr⟩
    · exact .inl ⟨haddress, hsize, by rw [Request.region.inj hr]⟩
    · exact .inr ⟨haddress, hsize, by rw [Request.region.inj hr]⟩
  · rintro (⟨haddress, hsize, rfl⟩ | ⟨haddress, hsize, rfl⟩)
    · exact ⟨_, ((hempty _).2 (.inl ⟨haddress, hsize, rfl⟩)).1, hsize, rfl⟩
    · exact ⟨_, ((hempty _).2 (.inr ⟨haddress, hsize, rfl⟩)).1, hsize, rfl⟩

def hollowData : Header :=
  ⟨expectedMagic, 0, 0, ⟨0x80010000, 0x800⟩, ⟨0x1F000000, 0⟩, ⟨0, 0⟩, 0, 0, ""⟩

def hollowImage : Bytes := hollowData.image (List.replicate 8 0) (List.replicate 20 0) [] []

theorem hollowData_reported :
    Monitor.Patient {} ∧ ∃ failures,
      ((realize defaultHost hollowImage hollowData.memoryMap).exec ⟨∅, {}, []⟩).1 = .ok failures ∧
      ⟨.region ⟨"DATA", ⟨0x1F000000, 0⟩, .all, none⟩, .sizeNotPositive "DATA" 0⟩ ∈ failures := by
  obtain ⟨-, failures, hrun, hfailures⟩ :=
    memoryMap_empty_requests hollowData defaultHost hollowImage (p := ⟨∅, {}, []⟩) Monitor.patient_default
  have hreported := (hfailures hollowData.dataRequest.sizeFailure).2 (.inl ⟨by decide, by decide, rfl⟩)
  exact ⟨Monitor.patient_default, failures, hrun, hreported.1⟩

/-- A file can be read to a header whose map asks for a region without bytes. -/
theorem hollowData_requested :
    parse hollowImage = .ok hollowData ∧
      .region ⟨"DATA", ⟨0x1F000000, 0⟩, .all, none⟩ ∈ hollowData.memoryMap ∧
      ¬ ∀ k, .region k ∈ hollowData.memoryMap → 0 < k.extent.size := by
  have hparse : parse hollowImage = .ok hollowData := by decide +kernel
  have hmem : .region hollowData.dataRequest ∈ hollowData.memoryMap :=
    (mem_memoryMap_empty_iff.2 (.inl ⟨by decide, by decide, rfl⟩)).1
  exact ⟨hparse, hmem, fun hall => absurd (hall _ hmem) (by decide)⟩

end Header

end PsxExe
