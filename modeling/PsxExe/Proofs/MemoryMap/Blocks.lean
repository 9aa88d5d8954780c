import PsxExe.Proofs.Hardware.Names
import PsxExe.Proofs.MemoryMap.Origin
import PsxExe.Proofs.MemoryMap.SettledMap

/-!
# The console's own memory

Where its area is free, the memory that the console has of its own is mapped without a refusal: the
scratchpad, the area behind it, and all blocks of registers with their data and labels. A block takes
nothing but its own range and the names of its own registers, so the blocks behind it find their ranges
and names free.
-/

namespace PsxExe

open AddressSpace Request

variable {host : Host} {file : Bytes} {s t : AddressSpace} {r : Request} {l : List Request}
  {name : String} {e : Extent}

/-! ### What requests leave free -/

namespace Request

/-- What a request creates touches the memory and the typed data only. -/
theorem create_outcome (h : r.create host file s = .ok t) :
    t = { s with regions := t.regions, storages := t.storages, data := t.data } := by
  cases r with
  | region k =>
    obtain ⟨⟨q, u⟩, hu, rfl⟩ := exists_of_map_eq_ok h
    obtain ⟨-, -, -, rfl⟩ := createRegion_eq_ok_iff.1 hu
    rfl
  | mirror m =>
    obtain ⟨⟨q, u⟩, hu, rfl⟩ := exists_of_map_eq_ok h
    obtain ⟨-, -, -, -, -, rfl⟩ := createMirror_eq_ok_iff.1 hu
    rfl
  | data d =>
    obtain ⟨-, -, rfl⟩ := createData_eq_ok_iff.1 h
    rfl

theorem create_labels (h : r.create host file s = .ok t) : t.labels = s.labels := by
  rw [create_outcome h]

theorem applyCreation_labels (r : Request) (s : AddressSpace) :
    (r.applyCreation host file s).space.labels = s.labels := by
  rw [applyCreation]
  cases hcreate : r.create host file s with
  | error cause => rfl
  | ok t => exact create_labels hcreate

theorem apply_binding (hother : ∀ p ∈ r.label?, p.2 ≠ name) :
    (r.apply host file s).space.labels.bindings.get? name = s.labels.bindings.get? name := by
  rw [apply, ← @applyCreation_labels host file r s, applyLabel]
  split
  next => rfl
  next address other hlabel =>
    rcases hcreate : (r.applyCreation host file s).space.createLabel address other .register with e | ⟨l, t⟩
    · rfl
    · obtain ⟨labels, hadd, rfl⟩ := createLabel_eq_ok_iff.1 hcreate
      exact LabelTable.add_of_ne hadd (hother _ hlabel).symm

theorem applyAll_binding (hother : ∀ r ∈ l, ∀ p ∈ r.label?, p.2 ≠ name) :
    (applyAll host file s l).space.labels.bindings.get? name = s.labels.bindings.get? name := by
  induction l generalizing s with
  | nil => rfl
  | cons r rest ih =>
    rw [applyAll]
    exact (ih fun r' hr' => hother r' (List.mem_cons_of_mem _ hr')).trans
      (apply_binding (hother r List.mem_cons_self))

theorem failures_of_free (h : r.create host file s = .ok t) (hfree : ∀ p ∈ r.label?, ¬ s.labels.Taken p.2) :
    (r.apply host file s).failures = [] := by
  simp only [apply, applyCreation, h, applyLabel, List.nil_append]
  cases hlabel : r.label? with
  | none => rfl
  | some p =>
    obtain ⟨hname, hunbound⟩ := LabelTable.not_taken_iff.1 (hfree p hlabel)
    rw [← create_labels h] at hunbound
    have hadd := LabelTable.add_of_free (l := ⟨p.1, p.2, .register, t.regionNameAt p.1⟩) hname hunbound
    dsimp only
    rw [createLabel_eq, hadd]

end Request

/-- Requests for other ranges leave room for a range. -/
theorem AddressSpace.Grants.applyAll (h : s.Grants host e) (hs : s.Arranged)
    (haside : ∀ q ∈ (Request.applyAll host file s l).space.regions, ∀ r ∈ l, r.Yields q → ¬ e.Meets q.extent) :
    (Request.applyAll host file s l).space.Grants host e := by
  have ht : (Request.applyAll host file s l).space.Arranged := (applyAll_changes _ _).arranged hs
  refine ⟨⟨h.admits.nonempty, h.admits.inside, fun q hq hoverlaps => ?_⟩, h.size_le⟩
  rcases applyAll_mem_regions hq with hold | ⟨r, hr, hyields⟩
  · exact h.admits.unmapped q hold hoverlaps
  · exact haside q hq r hr hyields (Extent.meets_iff.2 ⟨h.admits.nonempty, ht.nonempty q hq, hoverlaps⟩)

namespace Hardware

/-! ### Layouts -/

variable {b : Block} {entries rest : List LayoutEntry} {x : LayoutEntry} {k : Region} {format : Text.Format}

def layoutNames (entries : List LayoutEntry) : List String :=
  (entries.filterMap LayoutEntry.element?).map (·.name)

theorem layoutNames_cons (x : LayoutEntry) (rest : List LayoutEntry) :
    layoutNames (x :: rest) = (x.element?.map (·.name)).toList ++ layoutNames rest := by
  cases x <;> rfl

theorem LayoutEntry.name_of_label {p : Int × String} (hp : p ∈ x.request.label?) :
    p.2 ∈ x.element?.map (·.name) := by
  cases x with
  | register e =>
    obtain ⟨n, hn, rfl⟩ := Option.map_eq_some_iff.1 hp
    exact (Option.filter_eq_some_iff.1 hn).1
  | filler e => cases hp

/-- The entries lie in a region of the address space, with widths that data can have, and their names can
still be bound. -/
structure Accepts (s : AddressSpace) (k : Region) (entries : List LayoutEntry) : Prop where
  arranged : s.Arranged
  mapped : k ∈ s.regions
  inside : ∀ x ∈ entries, x.extent.address ∈ k.extent ∧ x.extent.stop ≤ k.stop
  widths : ∀ e ∈ entries.filterMap LayoutEntry.element?, e.width ∈ [8, 16, 32]
  free : ∀ n ∈ layoutNames entries, ¬ s.labels.Taken n
  nodup : (layoutNames entries).Nodup

theorem Accepts.exists_create (h : Accepts s k (x :: rest)) : ∃ t, x.request.create host file s = .ok t := by
  obtain ⟨haddress, hstop⟩ := h.inside x List.mem_cons_self
  have hfound := h.arranged.regionAt_of_mem h.mapped haddress
  cases x with
  | register e =>
    have hwidth : e.width ∈ [8, 16, 32] := h.widths e List.mem_cons_self
    refine ⟨_, createData_eq_ok_iff.2 ⟨hwidth, ⟨k, locate_eq_ok_iff.2 ⟨hfound, ?_⟩⟩, rfl⟩⟩
    rw [Int.mul_one]
    exact hstop
  | filler e =>
    show ∃ t, s.createData e.address 8 e.size = .ok t
    refine ⟨_, createData_eq_ok_iff.2 ⟨by decide, ⟨k, locate_eq_ok_iff.2 ⟨hfound, ?_⟩⟩, rfl⟩⟩
    show e.address + 1 * e.size ≤ k.stop
    rw [Int.one_mul]
    exact hstop

theorem Accepts.failures_head (h : Accepts s k (x :: rest)) :
    (x.request.apply host file s).failures = [] := by
  obtain ⟨t, ht⟩ := @Accepts.exists_create host file _ _ _ _ h
  refine failures_of_free ht fun p hp => h.free _ ?_
  rw [layoutNames_cons]
  exact List.mem_append_left _ (Option.mem_toList.2 (LayoutEntry.name_of_label hp))

theorem Accepts.tail (h : Accepts s k (x :: rest)) : Accepts (x.request.apply host file s).space k rest := by
  have hnodup := h.nodup
  rw [layoutNames_cons] at hnodup
  obtain ⟨-, hrest, hdisjoint⟩ := List.nodup_append.1 hnodup
  refine ⟨(x.request.apply_changes s).arranged h.arranged, ?_, ?_, ?_, ?_, hrest⟩
  · exact (x.request.apply_extends s).keeps.regions.subset h.mapped
  · intro y hy
    exact h.inside y (List.mem_cons_of_mem _ hy)
  · intro e he
    exact h.widths e (((List.sublist_cons_self x rest).filterMap _).subset he)
  · intro n hn
    have hfree := h.free n (by rw [layoutNames_cons]; exact List.mem_append_right _ hn)
    rw [LabelTable.not_taken_iff, apply_binding fun p hp => ?_, ← LabelTable.not_taken_iff]
    · exact hfree
    · exact hdisjoint _ (Option.mem_toList.2 (LayoutEntry.name_of_label hp)) n hn

theorem Accepts.failures_eq_nil (h : Accepts s k entries) :
    (applyAll host file s (entries.map LayoutEntry.request)).failures = [] := by
  induction entries generalizing s with
  | nil => rfl
  | cons x rest ih =>
    rw [List.map_cons, applyAll]
    dsimp only
    rw [h.failures_head, ih h.tail, List.append_nil]

/-! ### Blocks -/

theorem Block.yields_extent (hr : r ∈ b.mapped) {q : Region} (hq : r.Yields q) : q.extent = b.extent := by
  rcases Block.mem_mapped hr with rfl | ⟨_, x, -, -, rfl⟩
  · exact hq.2.1
  · cases x with
    | register e => exact hq.elim
    | filler e => exact hq.elim

theorem Block.layoutNames_perm (h : b.layout = .ok entries) : (layoutNames entries).Perm b.names :=
  Block.names_perm (Block.layout_elements h)

theorem Block.name_of_label (hr : r ∈ b.mapped) {p : Int × String} (hp : p ∈ r.label?) : p.2 ∈ b.names := by
  rcases Block.mem_mapped hr with rfl | ⟨entries, x, hx, hlayout, rfl⟩
  · cases hp
  · obtain ⟨e, he, hname⟩ := Option.map_eq_some_iff.1 (LayoutEntry.name_of_label hp)
    refine (Block.layoutNames_perm hlayout).subset (List.mem_map.2 ⟨e, ?_, hname⟩)
    exact List.mem_filterMap.2 ⟨x, hx, he⟩

theorem Block.accepts (hlayout : b.layout format = .ok entries) (hwidths : ∀ k ∈ b.banks, k.width ∈ [8, 16, 32])
    (hs : s.Arranged) (ht : (Request.region ⟨b.name, b.extent, .readWrite, none⟩).create host file s = .ok t)
    (hk : k ∈ t.regions) (hextent : k.extent = b.extent) (hfree : ∀ n ∈ layoutNames entries, ¬ s.labels.Taken n)
    (hnodup : (layoutNames entries).Nodup) : Accepts t k entries := by
  have htiles := b.layout_tiles hlayout (Block.positive_widths hwidths)
  refine ⟨?_, hk, fun x hx => ?_, fun e he => ?_, fun n hn => ?_, hnodup⟩
  · rw [← apply_of_create ht rfl]
    exact (Request.apply_changes _ s).arranged hs
  · rw [Region.stop, hextent]
    exact ⟨htiles.address_mem x hx, htiles.stop_le x hx⟩
  · obtain ⟨k, hk, hwidth⟩ := Block.width_of_mem (Block.layout_elements hlayout) he
    rw [hwidth]
    exact hwidths k hk
  · rw [create_labels ht]
    exact hfree n hn

theorem Block.failures_eq_nil (hwidths : ∀ k ∈ b.banks, k.width ∈ [8, 16, 32]) (hs : s.Arranged)
    (hgrants : s.Grants host b.extent) (hfree : ∀ n ∈ b.names, ¬ s.labels.Taken n) (hnodup : b.names.Nodup) :
    (applyAll host file s b.mapped).failures = [] := by
  rcases b.mapped_eq with hnil | ⟨entries, hlayout, hcons⟩
  · rw [hnil]
    rfl
  · obtain ⟨t, ht⟩ := @exists_create_of_grants host file s ⟨b.name, b.extent, .readWrite, none⟩ hgrants
    obtain ⟨q, hq, ⟨-, hextent, -⟩, -⟩ := exists_filled_of_create ht
    have hperm := Block.layoutNames_perm hlayout
    have haccepts := Block.accepts hlayout hwidths hs ht hq hextent (fun n hn => hfree n (hperm.subset hn))
      (hperm.nodup_iff.2 hnodup)
    rw [hcons, applyAll]
    dsimp only
    rw [failures_region_eq_nil hgrants, apply_of_create ht rfl, haccepts.failures_eq_nil, List.append_nil]

/-- There is room for the blocks and for the names of their registers. -/
structure Receives (host : Host) (s : AddressSpace) (blocks : List Block) : Prop where
  arranged : s.Arranged
  room : ∀ b ∈ blocks, s.Grants host b.extent
  apart : blocks.Pairwise fun b c => ¬ b.extent.Overlaps c.extent
  free : ∀ n ∈ blocks.flatMap Block.names, ¬ s.labels.Taken n
  nodup : (blocks.flatMap Block.names).Nodup

variable {blocks : List Block}

theorem Receives.tail (h : Receives host s (b :: blocks)) :
    Receives host (applyAll host file s b.mapped).space blocks := by
  obtain ⟨hapart, hrest⟩ := List.pairwise_cons.1 h.apart
  have hnodup := h.nodup
  rw [List.flatMap_cons] at hnodup
  obtain ⟨-, hnames, hdisjoint⟩ := List.nodup_append.1 hnodup
  refine ⟨(applyAll_changes _ s).arranged h.arranged, fun c hc => ?_, hrest, fun n hn => ?_, hnames⟩
  · refine (h.room c (List.mem_cons_of_mem _ hc)).applyAll h.arranged fun q _ r hr hq hmeets => ?_
    rw [Block.yields_extent hr hq] at hmeets
    exact hapart c hc (Extent.meets_iff.1 hmeets).2.2.symm
  · have hfree := h.free n (by rw [List.flatMap_cons]; exact List.mem_append_right _ hn)
    rw [LabelTable.not_taken_iff, applyAll_binding fun r hr p hp => ?_, ← LabelTable.not_taken_iff]
    · exact hfree
    · exact hdisjoint _ (Block.name_of_label hr hp) n hn

theorem Receives.failures_eq_nil (h : Receives host s blocks)
    (hwidths : ∀ b ∈ blocks, ∀ k ∈ b.banks, k.width ∈ [8, 16, 32]) :
    (applyAll host file s (blocks.flatMap Block.mapped)).failures = [] := by
  induction blocks generalizing s with
  | nil => rfl
  | cons b rest ih =>
    have hnodup := h.nodup
    rw [List.flatMap_cons] at hnodup
    have hhead : (applyAll host file s b.mapped).failures = [] := by
      refine Block.failures_eq_nil (hwidths b List.mem_cons_self) h.arranged (h.room b List.mem_cons_self) ?_
        (List.nodup_append.1 hnodup).1
      intro n hn
      exact h.free n (by rw [List.flatMap_cons]; exact List.mem_append_left _ hn)
    rw [List.flatMap_cons, failures_applyAll_append, hhead,
      ih h.tail fun c hc => hwidths c (List.mem_cons_of_mem _ hc), List.append_nil]

end Hardware

/-! ### The whole area -/

/-- The addresses of the scratchpad, of the area behind it and of the registers. -/
def consoleArea : Extent := ⟨0x1F800000, 0x2000⟩

def chipRequests : List Request :=
  [.region ⟨"CACHE", scratchpad, .readWrite, none⟩, .region ⟨"UNK1", behindScratchpad, .readWrite, none⟩]

theorem grants_of_area (hlimit : consoleArea.size ≤ host.allocationLimit)
    (hfree : ∀ q ∈ s.regions, ¬ q.extent.Meets consoleArea) (hs : s.Arranged)
    (he : 0 < e.size ∧ consoleArea.address ≤ e.address ∧ e.stop ≤ consoleArea.stop) : s.Grants host e := by
  obtain ⟨hpos, hfrom, hto⟩ := he
  have hstop := e.stop_eq
  have harea : consoleArea.address = 0x1F800000 ∧ consoleArea.size = 0x2000 ∧ consoleArea.stop = 0x1F802000 :=
    ⟨rfl, rfl, rfl⟩
  refine ⟨⟨hpos, ⟨by omega, ?_⟩, fun q hq hoverlaps => ?_⟩, by omega⟩
  · rw [addressLimit]
    omega
  · obtain ⟨hbelow, habove⟩ := hoverlaps
    refine hfree q hq (Extent.meets_iff.2 ⟨hs.nonempty q hq, by decide, ?_, ?_⟩)
    · exact Int.lt_of_lt_of_le habove hto
    · exact Int.lt_of_le_of_lt hfrom hbelow

/-- Where its area and all names are free, everything that the console has of its own is mapped. -/
theorem console_failures_eq_nil (hlimit : consoleArea.size ≤ host.allocationLimit) (hs : s.Arranged)
    (hfree : ∀ q ∈ s.regions, ¬ q.extent.Meets consoleArea)
    (hunbound : ∀ name, s.labels.bindings.get? name = none) :
    (applyAll host file s (chipRequests ++ hardwareRequests)).failures = [] := by
  have hblocks : ∀ b ∈ Hardware.catalog,
      0 < b.extent.size ∧ consoleArea.address ≤ b.extent.address ∧ b.extent.stop ≤ consoleArea.stop := by decide
  have haside : ∀ b ∈ Hardware.catalog, ¬ b.extent.Meets scratchpad ∧ ¬ b.extent.Meets behindScratchpad := by
    decide
  have hscratchpad : s.Grants host scratchpad := grants_of_area hlimit hfree hs (by decide)
  have hbehind : s.Grants host behindScratchpad := grants_of_area hlimit hfree hs (by decide)
  have hlater : (applyAll host file s [.region ⟨"CACHE", scratchpad, .readWrite, none⟩]).space.Grants host
      behindScratchpad := by
    refine hbehind.applyAll hs fun q _ r hr hq => ?_
    obtain rfl := List.mem_singleton.1 hr
    rw [hq.2.1]
    decide
  have hchip : (applyAll host file s chipRequests).failures = [] := by
    refine List.append_eq_nil_iff.2 ⟨failures_region_eq_nil hscratchpad, ?_⟩
    exact List.append_eq_nil_iff.2 ⟨failures_region_eq_nil hlater, rfl⟩
  have hreceives : Hardware.Receives host (applyAll host file s chipRequests).space Hardware.catalog := by
    refine ⟨(applyAll_changes _ s).arranged hs, fun b hb => ?_, Hardware.catalog_apart, fun n hn => ?_,
      Hardware.catalog_names_nodup⟩
    · refine (grants_of_area hlimit hfree hs (hblocks b hb)).applyAll hs fun q _ r hr hq => ?_
      rcases List.mem_cons.1 hr with rfl | hr
      · rw [hq.2.1]
        exact (haside b hb).1
      · obtain rfl := List.mem_singleton.1 hr
        rw [hq.2.1]
        exact (haside b hb).2
    · obtain ⟨b, hb, hname⟩ := List.mem_flatMap.1 hn
      refine LabelTable.not_taken_iff.2 ⟨Hardware.catalog_names_valid b hb n hname, ?_⟩
      rw [applyAll_binding fun r hr p hp => ?_]
      · exact hunbound n
      · rcases List.mem_cons.1 hr with rfl | hr
        · cases hp
        · obtain rfl := List.mem_singleton.1 hr
          cases hp
  rw [failures_applyAll_append, hchip, List.nil_append, Hardware.hardwareRequests_eq]
  exact hreceives.failures_eq_nil Hardware.catalog_widths

end PsxExe
