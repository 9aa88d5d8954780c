import PsxExe.Proofs.MemoryMap.Realize
import PsxExe.Proofs.Space.Grants
import PsxExe.Proofs.Space.Notes

/-!
# Requests that have nothing left to do

Once a request of a map has been applied it is settled: to apply it again changes nothing, and what it
wanted to map is refused. Later requests could only unsettle it by mapping or typing the address of its
typed data, so requests that are apart from each other are all settled in the end.
-/

namespace PsxExe

open AddressSpace

variable {host : Host} {file : Bytes} {s t u : AddressSpace} {r : Request} {a : Int}

namespace AddressSpace

/-- At the address nothing has been mapped, and no data has been typed. -/
structure Spares (s t : AddressSpace) (a : Int) : Prop where
  unmapped : s.regionAt a = none → t.regionAt a = none
  data : t.data.get? a = s.data.get? a

theorem Spares.refl (s : AddressSpace) (a : Int) : Spares s s a := ⟨id, rfl⟩

theorem Spares.trans (h : Spares s t a) (h' : Spares t u a) : Spares s u a :=
  ⟨fun hfree => h'.unmapped (h.unmapped hfree), h'.data.trans h.data⟩

theorem SameMemory.spares (h : SameMemory s t) (hdata : t.data = s.data) (a : Int) : Spares s t a := by
  refine ⟨fun hfree => ?_, by rw [hdata]⟩
  rw [regionAt, h.regions]
  exact hfree

/-- Typed data that was refused is refused as long as nothing is mapped at its address. -/
theorem createData_refused {width count : Int} (hrefused : ∃ cause, s.createData a width count = .error cause)
    (hk : Keeps s t) (ht : t.Arranged) (hfree : s.regionAt a = none → t.regionAt a = none) :
    ∃ cause, t.createData a width count = .error cause := by
  cases hcreate : t.createData a width count with
  | error cause => exact ⟨cause, rfl⟩
  | ok u =>
    obtain ⟨hwidth, ⟨r, hr⟩, -⟩ := createData_eq_ok_iff.1 hcreate
    obtain ⟨hregion, hstop⟩ := locate_eq_ok_iff.1 hr
    exfalso
    cases hmapped : s.regionAt a with
    | none =>
      rw [hfree hmapped] at hregion
      cases hregion
    | some q =>
      obtain rfl : q = r := Option.some.inj ((hk.regionAt ht hmapped).symm.trans hregion)
      have hok := (@createData_eq_ok_iff s _ a width count).2
        ⟨hwidth, ⟨q, locate_eq_ok_iff.2 ⟨hmapped, hstop⟩⟩, rfl⟩
      obtain ⟨cause, hcause⟩ := hrefused
      rw [hok] at hcause
      cases hcause

end AddressSpace

namespace Request

def maps : Request → Bool
  | data _ => false
  | _ => true

/-- The addresses that a request maps, or the one under which it notes typed data. -/
def footprint : Request → Extent
  | region r => r.extent
  | mirror m => m.extent
  | data d => ⟨d.address, 1⟩

def typed? : Request → Option Int
  | data d => some d.address
  | _ => none

/-- The second request leaves alone the address at which the first one types data. -/
def Apart (r q : Request) : Prop := ∀ a ∈ r.typed?, a ∉ q.footprint

/-- What the request should create is refused. -/
def Refused (host : Host) (file : Bytes) (s : AddressSpace) (r : Request) : Prop :=
  ∃ cause, r.create host file s = .error cause

/-- The request has nothing left to do. A mirror has to be refused for good, and so the range that it
repeats may not become mappable. -/
def Settled (host : Host) (file : Bytes) (s : AddressSpace) : Request → Prop
  | region r => (region r).Refused host file s
  | mirror m => (mirror m).Refused host file s ∧ ¬ s.Grants host ⟨m.base, m.extent.size⟩
  | data d =>
    ((data d).Refused host file s ∨ s.data.get? d.address = some ⟨d.width, d.count⟩) ∧
      ∀ name ∈ d.label?, s.labels.Taken name

theorem region_refused_iff {q : RegionRequest} :
    (region q).Refused host file s ↔ ¬ s.Grants host q.extent :=
  exists_map_eq_error_iff.trans createRegion_error_iff

theorem mirror_refused_iff {m : MirrorRequest} :
    (mirror m).Refused host file s ↔ ∃ cause, s.createMirror m.name m.base m.extent = .error cause :=
  exists_map_eq_error_iff

/-! ### The parts of a request -/

theorem apply_of_refused (h : r.Refused host file s) (hlabel : r.label? = none) :
    (r.apply host file s).space = s := by
  obtain ⟨cause, hcause⟩ := h
  simp only [apply, applyCreation, hcause, applyLabel, hlabel]

theorem failure_of_refused (h : r.Refused host file s) :
    ∃ cause, ⟨r, cause⟩ ∈ (r.apply host file s).failures := by
  obtain ⟨cause, hcause⟩ := h
  refine ⟨cause, ?_⟩
  simp only [apply, applyCreation, hcause]
  exact List.mem_append_left _ (List.mem_singleton.2 rfl)

theorem applyCreation_space (h : ∀ t, r.create host file s = .ok t → t = s) :
    (r.applyCreation host file s).space = s := by
  rw [applyCreation]
  cases hcreate : r.create host file s with
  | error cause => rfl
  | ok t => exact h t hcreate

theorem applyLabel_space {name : String} (hlabel : r.label? = some (a, name)) :
    (r.applyLabel s).space = s.labelled a name .register := by
  simp only [applyLabel, hlabel, labelled]
  cases s.createLabel a name .register with
  | error cause => rfl
  | ok created => rfl

theorem applyLabel_of_taken (h : ∀ a name, r.label? = some (a, name) → s.labels.Taken name) :
    (r.applyLabel s).space = s := by
  cases hlabel : r.label? with
  | none => simp only [applyLabel, hlabel]
  | some wanted =>
    obtain ⟨a, name⟩ := wanted
    rw [applyLabel_space hlabel, labelled_of_taken (h a name hlabel)]

theorem applyLabel_spares (r : Request) (s : AddressSpace) (a : Int) : Spares s (r.applyLabel s).space a := by
  refine (r.applyLabel_sameMemory s).spares ?_ a
  rw [r.applyLabel_butLabels s]

theorem data_label? {d : DataRequest} {name : String} :
    (data d).label? = some (a, name) ↔ d.address = a ∧ d.label? = some name := by
  rw [label?, Option.map_eq_some_iff]
  constructor
  · rintro ⟨n, hn, heq⟩
    obtain ⟨rfl, rfl⟩ := Prod.mk.inj heq
    exact ⟨rfl, hn⟩
  · rintro ⟨rfl, hn⟩
    exact ⟨name, hn, rfl⟩

/-! ### Being settled -/

theorem Settled.apply_eq (h : Settled host file s r) : (r.apply host file s).space = s := by
  cases r with
  | region q => exact apply_of_refused h rfl
  | mirror m => exact apply_of_refused h.1 rfl
  | data d =>
    obtain ⟨hcreated, hlabelled⟩ := h
    have hcreation : ((data d).applyCreation host file s).space = s := by
      refine applyCreation_space fun t ht => ?_
      rcases hcreated with ⟨cause, hcause⟩ | hthere
      · rw [hcause] at ht
        cases ht
      · obtain ⟨-, -, rfl⟩ := createData_eq_ok_iff.1 ht
        rw [Table.insert_eq_self hthere]
    rw [apply, hcreation]
    refine applyLabel_of_taken fun a name hlabel => ?_
    exact hlabelled name (data_label?.1 hlabel).2

theorem Settled.refused (h : Settled host file s r) (hmaps : r.maps = true) : r.Refused host file s := by
  cases r with
  | region q => exact h
  | mirror m => exact h.1
  | data d => cases hmaps

/-- Requests stay settled while an address space changes, as long as it spares the typed data. -/
theorem Settled.of_changes (h : Settled host file s r) (hs : s.Arranged) (hg : s.Granted host)
    (hc : Changes host s t) (hspared : ∀ a ∈ r.typed?, Spares s t a) : Settled host file t r := by
  have ht := hc.arranged hs
  have hk := hc.keeps
  cases r with
  | region q =>
    refine region_refused_iff.2 fun hgrants => ?_
    exact region_refused_iff.1 h (hgrants.of_keeps hk)
  | mirror m =>
    obtain ⟨hrefused, hbase⟩ := h
    refine ⟨mirror_refused_iff.2 ?_, fun hgrants => hbase (hgrants.of_keeps hk)⟩
    exact createMirror_refused hbase (mirror_refused_iff.1 hrefused) hk ht (hc.granted hg)
  | data d =>
    obtain ⟨hcreated, hlabelled⟩ := h
    have hsame := hspared d.address rfl
    refine ⟨?_, fun name hname => hc.taken (hlabelled name hname)⟩
    rcases hcreated with hrefused | hthere
    · exact .inl (createData_refused hrefused hk ht hsame.unmapped)
    · rw [hsame.data]
      exact .inr hthere

/-- To apply a request settles it. For a mirror, the range that it repeats has to be settled before. -/
theorem settled_apply (hs : s.Arranged)
    (hbase : ∀ m, r = mirror m → ¬ s.Grants host ⟨m.base, m.extent.size⟩) :
    Settled host file (r.apply host file s).space r := by
  cases r with
  | region q =>
    cases hcreate : (region q).create host file s with
    | error cause =>
      have hrefused : (region q).Refused host file s := ⟨cause, hcreate⟩
      rw [apply_of_refused hrefused rfl]
      exact hrefused
    | ok t =>
      rw [apply_of_create hcreate rfl]
      obtain ⟨⟨k, u⟩, hu, rfl⟩ := exists_of_map_eq_ok hcreate
      exact region_refused_iff.2 (createRegion_not_grants hu)
  | mirror m =>
    have hno := hbase m rfl
    cases hcreate : (mirror m).create host file s with
    | error cause =>
      have hrefused : (mirror m).Refused host file s := ⟨cause, hcreate⟩
      rw [apply_of_refused hrefused rfl]
      exact ⟨hrefused, hno⟩
    | ok t =>
      rw [apply_of_create hcreate rfl]
      have hk := (create_extends hcreate).keeps
      refine ⟨mirror_refused_iff.2 ?_, fun hgrants => hno (hgrants.of_keeps hk)⟩
      obtain ⟨⟨k, u⟩, hu, rfl⟩ := exists_of_map_eq_ok hcreate
      cases hagain : u.createMirror m.name m.base m.extent with
      | error cause => exact ⟨cause, rfl⟩
      | ok created =>
        obtain ⟨_, -, -, hadmits, -⟩ := createMirror_eq_ok_iff.1 hagain
        exact absurd hadmits (createMirror_not_admits hu)
  | data d =>
    have hlabelled : ∀ u : AddressSpace, ∀ name ∈ d.label?,
        ((data d).applyLabel u).space.labels.Taken name := by
      intro u name hname
      rw [applyLabel_space (data_label?.2 ⟨rfl, hname⟩)]
      exact taken_labelled u d.address name .register
    refine ⟨?_, hlabelled _⟩
    have hmemory (u : AddressSpace) := (data d).applyLabel_sameMemory u
    have hspares (u : AddressSpace) := (data d).applyLabel_spares u d.address
    cases hcreate : (data d).create host file s with
    | error cause =>
      have hk := (hmemory s).extends.keeps
      have hrefused : ∃ cause, s.createData d.address d.width d.count = .error cause := ⟨cause, hcreate⟩
      simp only [apply, applyCreation, hcreate]
      exact .inl (createData_refused hrefused hk (hs.of_keeps hk (hmemory s).regions) (hspares s).unmapped)
    | ok t =>
      simp only [apply, applyCreation, hcreate]
      rw [(hspares t).data]
      obtain ⟨-, -, rfl⟩ := createData_eq_ok_iff.1 hcreate
      exact .inr (Table.get?_insert_self ..)

/-! ### Settling all of them -/

theorem create_spares (ha : a ∉ r.footprint) (h : r.create host file s = .ok t) : Spares s t a := by
  cases r with
  | region q =>
    obtain ⟨⟨k, u⟩, hu, rfl⟩ := exists_of_map_eq_ok h
    obtain ⟨-, -, rfl, rfl⟩ := createRegion_eq_ok_iff.1 hu
    exact ⟨fun hfree => regionAt_insertRegion_eq_none hfree ha, rfl⟩
  | mirror m =>
    obtain ⟨⟨k, u⟩, hu, rfl⟩ := exists_of_map_eq_ok h
    obtain ⟨b, -, -, -, rfl, rfl⟩ := createMirror_eq_ok_iff.1 hu
    exact ⟨fun hfree => regionAt_insertRegion_eq_none hfree ha, rfl⟩
  | data d =>
    obtain ⟨-, -, rfl⟩ := createData_eq_ok_iff.1 h
    refine ⟨id, Table.get?_insert_ne _ ?_ _⟩
    rintro rfl
    exact ha ⟨Int.le_refl _, Int.lt_succ _⟩

theorem apply_spares (ha : a ∉ r.footprint) (s : AddressSpace) :
    Spares s (r.apply host file s).space a := by
  refine Spares.trans ?_ (r.applyLabel_spares _ a)
  rw [applyCreation]
  cases hcreate : r.create host file s with
  | error cause => exact .refl s a
  | ok t => exact create_spares ha hcreate

theorem applyAll_spares {l : List Request} (ha : ∀ r ∈ l, a ∉ r.footprint) (s : AddressSpace) :
    Spares s (applyAll host file s l).space a := by
  induction l generalizing s with
  | nil => exact .refl s a
  | cons r rest ih =>
    have hfirst := @apply_spares host file r a (ha r List.mem_cons_self) s
    exact hfirst.trans (ih (fun r hr => ha r (List.mem_cons_of_mem _ hr)) _)

theorem Settled.applyAll {l : List Request} (h : Settled host file s r) (hs : s.Arranged)
    (hg : s.Granted host) (hapart : ∀ q ∈ l, r.Apart q) :
    Settled host file (applyAll host file s l).space r :=
  h.of_changes hs hg (applyAll_changes l s) fun a ha => applyAll_spares (fun q hq => hapart q hq a ha) s

theorem applyAll_settled {l : List Request} (hs : s.Arranged) (hg : s.Granted host)
    (hbase : ∀ m, mirror m ∈ l → ¬ s.Grants host ⟨m.base, m.extent.size⟩) (hapart : l.Pairwise Apart) :
    ∀ r ∈ l, Settled host file (Request.applyAll host file s l).space r := by
  induction l generalizing s with
  | nil =>
    intro r hr
    cases hr
  | cons q rest ih =>
    obtain ⟨hq, hrest⟩ := List.pairwise_cons.1 hapart
    have hc : Changes host s (q.apply host file s).space := q.apply_changes s
    have hs' := hc.arranged hs
    have hg' := hc.granted hg
    have hsettled : Settled host file (q.apply host file s).space q :=
      settled_apply hs fun m hm => hbase m (hm ▸ List.mem_cons_self)
    -- What could not be mapped before cannot be mapped now.
    have hothers : ∀ m, mirror m ∈ rest →
        ¬ (q.apply host file s).space.Grants host ⟨m.base, m.extent.size⟩ := by
      intro m hm hgrants
      exact hbase m (List.mem_cons_of_mem _ hm) (hgrants.of_keeps hc.keeps)
    intro r hr
    rcases List.mem_cons.1 hr with rfl | hr
    · exact hsettled.applyAll hs' hg' hq
    · exact ih hs' hg' hothers hrest r hr

theorem applyAll_of_settled {l : List Request} (h : ∀ r ∈ l, Settled host file s r) :
    (Request.applyAll host file s l).space = s ∧
      ∀ r ∈ l, r.maps = true → ∃ cause, ⟨r, cause⟩ ∈ (Request.applyAll host file s l).failures := by
  induction l with
  | nil =>
    refine ⟨rfl, fun r hr => ?_⟩
    cases hr
  | cons q rest ih =>
    have hq := h q List.mem_cons_self
    obtain ⟨hspace, hfailures⟩ := ih fun r hr => h r (List.mem_cons_of_mem _ hr)
    rw [Request.applyAll, hq.apply_eq]
    refine ⟨hspace, fun r hr hmaps => ?_⟩
    rcases List.mem_cons.1 hr with rfl | hr
    · obtain ⟨cause, hcause⟩ := failure_of_refused (hq.refused hmaps)
      exact ⟨cause, List.mem_append_left _ hcause⟩
    · obtain ⟨cause, hcause⟩ := hfailures r hr hmaps
      exact ⟨cause, List.mem_append_right _ hcause⟩

/-- Whatever the space, to apply the requests settles all of them. -/
def Settles (host : Host) (file : Bytes) (l : List Request) : Prop :=
  ∀ s, s.Arranged → s.Granted host → ∀ r ∈ l, Settled host file (Request.applyAll host file s l).space r

theorem Settles.append {l l' : List Request} (h : Settles host file l) (h' : Settles host file l')
    (hapart : ∀ r ∈ l, ∀ q ∈ l', r.Apart q) : Settles host file (l ++ l') := by
  intro s hs hg r hr
  have hc : Changes host s (Request.applyAll host file s l).space := applyAll_changes l s
  rw [applyAll_append]
  rcases List.mem_append.1 hr with hr | hr
  · exact (h s hs hg r hr).applyAll (hc.arranged hs) (hc.granted hg) (hapart r hr)
  · exact h' _ (hc.arranged hs) (hc.granted hg) r hr

theorem apart_of_untyped {q : Request} (h : r.typed? = none) : r.Apart q := by
  intro a ha
  rw [h] at ha
  cases ha

theorem settles_of_apart {l : List Request} (hmirror : ∀ m, mirror m ∉ l) (hapart : l.Pairwise Apart) :
    Settles host file l :=
  fun _ hs hg => applyAll_settled hs hg (fun m hm => absurd hm (hmirror m)) hapart

end Request

end PsxExe
