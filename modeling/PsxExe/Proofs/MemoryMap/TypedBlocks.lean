import PsxExe.Proofs.MemoryMap.Labels
import PsxExe.Proofs.Space.Aliasing
import PsxExe.Proofs.Space.Listings

/-!
# Blocks in an address space

A block of registers with a layout is realized as a whole wherever its range is free: one region of zeros, and
in it one data item for each entry of the layout, so that every byte has one. Each register gets its label.
-/

namespace PsxExe

open AddressSpace Request

variable {host : Host} {file : Bytes} {s t : AddressSpace} {r : Request} {k : RegionRequest} {a : Int}

namespace Request

theorem exists_region_of_create (h : (region k).create host file s = .ok t) :
    ∃ q, (region k).Yields q ∧ q.initialized = k.fileOffset.isSome ∧
      ∀ x, x ∈ t.regions ↔ x = q ∨ x ∈ s.regions := by
  obtain ⟨⟨q, u⟩, hu, rfl⟩ := exists_of_map_eq_ok h
  obtain ⟨-, -, rfl, rfl⟩ := createRegion_eq_ok_iff.1 hu
  refine ⟨_, ⟨rfl, rfl, rfl, rfl, rfl⟩, ?_, fun x => mem_insertRegion⟩
  rw [RegionRequest.fileBytes, Option.isSome_map]

theorem create_data (h : (region k).create host file s = .ok t) : t.data = s.data := by
  obtain ⟨⟨q, u⟩, hu, rfl⟩ := exists_of_map_eq_ok h
  obtain ⟨-, -, -, rfl⟩ := createRegion_eq_ok_iff.1 hu
  rfl

theorem apply_data (h : r.create host file s = .ok t) (a : Int) :
    (r.apply host file s).space.data.get? a = t.data.get? a := by
  simp only [apply, applyCreation, h]
  exact (r.applyLabel_spares t a).data

end Request

theorem AddressSpace.Built.data_eq_none {e : Extent} (h : Built s) (hunmapped : s.Unmapped e) (ha : a ∈ e) :
    s.data.get? a = none := by
  cases hitem : s.data.get? a with
  | none => rfl
  | some item =>
    obtain ⟨-, q, hq, hin, -⟩ := h.dataLies a item hitem
    exact absurd (Extent.overlaps_of_mem ha hin) (hunmapped q hq)

namespace Hardware

variable {b : Block} {entries : List LayoutEntry} {elements : List Element} {q : Region} {format : Text.Format}

def LayoutEntry.item : LayoutEntry → DataItem
  | register e => ⟨e.width, 1⟩
  | filler e => ⟨8, e.size⟩

theorem LayoutEntry.extent_item (x : LayoutEntry) : x.item.extent x.extent.address = x.extent := by
  cases x with
  | register e =>
    rw [item, DataItem.extent, Int.mul_one]
    rfl
  | filler e =>
    show (⟨e.address, 1 * e.size⟩ : Extent) = e
    rw [Int.one_mul]

theorem LayoutEntry.create_eq (x : LayoutEntry) :
    x.request.create host file s = s.createData x.extent.address x.item.width x.item.count := by
  cases x <;> rfl

theorem register_mem {e : Element} (he : e ∈ entries.filterMap LayoutEntry.element?) : .register e ∈ entries := by
  obtain ⟨x, hx, hxe⟩ := List.mem_filterMap.1 he
  cases x with
  | register e' =>
    obtain rfl : e' = e := Option.some.inj hxe
    exact hx
  | filler gap => cases hxe

theorem regions_applyAll (s : AddressSpace) (entries : List LayoutEntry) :
    (applyAll host file s (entries.map LayoutEntry.request)).space.regions ⊆ s.regions := by
  intro k hk
  rcases applyAll_mem_regions hk with hold | ⟨r, hr, hyields⟩
  · exact hold
  · obtain ⟨x, -, rfl⟩ := List.mem_map.1 hr
    cases x <;> exact hyields.elim

theorem Accepts.data_eq (h : Accepts s q entries) (hapart : (entries.map LayoutEntry.request).Pairwise Apart)
    {x : LayoutEntry} (hx : x ∈ entries) :
    (applyAll host file s (entries.map LayoutEntry.request)).space.data.get? x.extent.address = some x.item := by
  induction entries generalizing s with
  | nil => cases hx
  | cons y rest ih =>
    obtain ⟨hy, hrest⟩ := List.pairwise_cons.1 hapart
    rcases List.mem_cons.1 hx with rfl | hx
    -- The entries behind the first one start elsewhere, so they leave its item alone.
    · obtain ⟨t, ht⟩ := @Accepts.exists_create host file _ _ _ _ h
      have hspared := @applyAll_spares host file x.extent.address (rest.map LayoutEntry.request)
        (fun r hr => hy r hr _ x.typed?_request) (x.request.apply host file s).space
      rw [List.map_cons, applyAll]
      dsimp only
      rw [hspared.data, apply_data ht]
      rw [LayoutEntry.create_eq] at ht
      obtain ⟨-, -, rfl⟩ := createData_eq_ok_iff.1 ht
      exact Table.get?_insert_self ..
    · exact ih h.tail hrest hx

theorem data_elsewhere (h : ∀ x ∈ entries, x.extent.address ≠ a) (s : AddressSpace) :
    (applyAll host file s (entries.map LayoutEntry.request)).space.data.get? a = s.data.get? a := by
  refine (applyAll_spares (fun r hr hin => ?_) s).data
  obtain ⟨x, hx, rfl⟩ := List.mem_map.1 hr
  rw [x.footprint_request] at hin
  exact h x hx (Int.le_antisymm hin.1 (Int.lt_add_one_iff.1 hin.2))

theorem Accepts.labelled (h : Accepts s q entries) (hapart : (entries.map LayoutEntry.request).Pairwise Apart)
    (hnames : ∀ e ∈ entries.filterMap LayoutEntry.element?, isLabelName e.name = true) {e : Element}
    (he : e ∈ entries.filterMap LayoutEntry.element?) :
    (applyAll host file s (entries.map LayoutEntry.request)).space.labels.find? e.name =
      some ⟨e.address, e.name, .register, q.name⟩ := by
  have hwanted := wanted_layout hnames
  have hlayoutNames : (wanted (entries.map LayoutEntry.request)).map (·.2) = layoutNames entries := by
    rw [hwanted, List.map_map]
    rfl
  have hlisting := @applyAll_listing host file s _ h.arranged hapart (hlayoutNames ▸ h.nodup) fun p hp =>
    h.free p.2 (hlayoutNames ▸ List.mem_map_of_mem hp)
  have hmem : (e.address, e.name) ∈ wanted (entries.map LayoutEntry.request) := by
    rw [hwanted]
    exact List.mem_map_of_mem he
  have hc := @applyAll_changes host file (entries.map LayoutEntry.request) s
  have hregion := (hc.arranged h.arranged).regionAt_of_mem (hc.keeps.regions.subset h.mapped)
    (h.inside _ (register_mem he)).1
  have hname : (applyAll host file s (entries.map LayoutEntry.request)).space.regionNameAt e.address = q.name := by
    rw [regionNameAt, show e.address = (LayoutEntry.register e).extent.address from rfl, hregion]
    rfl
  have hthere := hlisting.symm.subset (List.mem_append_left _ (List.mem_map_of_mem hmem))
  rw [labelAt, hname] at hthere
  exact LabelTable.mem_listing.1 hthere

theorem Accepts.data_iff (h : Accepts s q entries) (hapart : (entries.map LayoutEntry.request).Pairwise Apart)
    (hfresh : s.data.get? a = none) {item : DataItem} :
    (applyAll host file s (entries.map LayoutEntry.request)).space.data.get? a = some item ↔
      ∃ x ∈ entries, x.extent.address = a ∧ x.item = item := by
  constructor
  · intro hitem
    by_contra hnone
    push Not at hnone
    have helsewhere : ∀ x ∈ entries, x.extent.address ≠ a := by
      rintro x hx rfl
      rw [h.data_eq hapart hx] at hitem
      exact hnone x hx rfl (Option.some.inj hitem)
    rw [data_elsewhere helsewhere, hfresh] at hitem
    cases hitem
  · rintro ⟨x, hx, rfl, rfl⟩
    exact h.data_eq hapart hx

/-- If the data that starts in a tiled range is that of the tiles, every address in it belongs to one item. -/
theorem Tiles.existsUnique_item {e : Extent} (h : Tiles e.address e.stop entries)
    (hdata : ∀ x ∈ e, ∀ item, s.data.get? x = some item ↔ ∃ y ∈ entries, y.extent.address = x ∧ y.item = item)
    (ha : a ∈ e) : ∃! x, x ∈ e ∧ ∃ item, s.data.get? x = some item ∧ a ∈ item.extent x := by
  obtain ⟨x, hx, hin, honly⟩ := h.exists_covering ha.1 ha.2
  have hstart : x.extent.address ∈ e := h.address_mem x hx
  refine ⟨x.extent.address, ⟨hstart, x.item, (hdata _ hstart _).2 ⟨x, hx, rfl, rfl⟩, ?_⟩, ?_⟩
  · rw [x.extent_item]
    exact hin
  · rintro z ⟨hz, item, hitem, hcovers⟩
    obtain ⟨y, hy, rfl, rfl⟩ := (hdata z hz item).1 hitem
    rw [y.extent_item] at hcovers
    rw [honly y hy hcovers]

/-- However indices are filled into names, a block with a layout, legal widths and names that can be labels, all of
them different, is realized without a failure wherever its range is free, fits and can be allocated, and none of the
names is bound. One region of zeros is added for it. Every byte of the range belongs to exactly one of the data items
that start in it, and these are the entries of the layout. Each register has its name as a label at its address, in
the region of the block. -/
theorem realize_block {p : Progress} (hlayout : b.layout format = .ok entries)
    (helements : b.elements format = .ok elements) (hsize : 0 < b.extent.size)
    (hwidths : ∀ k ∈ b.banks, k.width ∈ [8, 16, 32])
    (hnames : ∀ e ∈ elements, isLabelName e.name = true) (hnodup : (elements.map (·.name)).Nodup)
    (hbuilt : Built p.space) (hinside : b.extent.InAddressSpace) (hunmapped : p.space.Unmapped b.extent)
    (hlimit : b.extent.size ≤ host.allocationLimit)
    (hunbound : ∀ e ∈ elements, p.space.labels.find? e.name = none) (hp : p.monitor.Patient) (file : Bytes) :
    ∃ requests q, b.requests format = .ok requests ∧ (realize host file requests).exec p = (.ok [], q) ∧
      (∃ r, r ∉ p.space.regions ∧ (∀ k, k ∈ q.space.regions ↔ k = r ∨ k ∈ p.space.regions) ∧
        r.name = b.name ∧ r.extent = b.extent ∧ r.permissions = .readWrite ∧ r.mirrorOf = none ∧
        r.initialized = false) ∧
      q.space.read b.extent.address b.extent.size = .ok (List.replicate b.extent.size.toNat 0) ∧
      (∀ a ∈ b.extent, ∃! x, x ∈ b.extent ∧ ∃ item, q.space.data.get? x = some item ∧ a ∈ item.extent x) ∧
      (∀ a ∈ b.extent, ∀ item, q.space.data.get? a = some item ↔
        ∃ x ∈ entries, x.extent.address = a ∧ x.item = item) ∧
      ∀ e ∈ elements, q.space.labels.find? e.name = some ⟨e.address, e.name, .register, b.name⟩ := by
  have hgrants : p.space.Grants host b.extent := ⟨⟨hsize, hinside, hunmapped⟩, hlimit⟩
  have htiles := b.layout_tiles hlayout (Block.positive_widths hwidths)
  obtain rfl := Except.ok.inj (helements.symm.trans (Block.layout_elements hlayout))
  have hfree : ∀ n ∈ layoutNames entries, ¬ p.space.labels.Taken n := by
    intro n hn
    obtain ⟨e, he, rfl⟩ := List.mem_map.1 hn
    exact LabelTable.not_taken_iff.2 ⟨hnames e he, Option.map_eq_none_iff.1 (hunbound e he)⟩
  obtain ⟨t, ht⟩ := @exists_create_of_grants host file p.space ⟨b.name, b.extent, .readWrite, none⟩ hgrants
  obtain ⟨r, ⟨hname, hextent, hpermissions, -, hmirror⟩, hinitialized, hregions⟩ := exists_region_of_create ht
  have hr : r ∈ t.regions := (hregions r).2 (.inl rfl)
  have haccepts := Block.accepts hlayout hwidths hbuilt.arranged ht hr hextent hfree hnodup
  have hrequests : b.requests format =
      .ok (.region ⟨b.name, b.extent, .readWrite, none⟩ :: entries.map LayoutEntry.request) := by
    rw [Block.requests, hlayout]
    rfl
  obtain ⟨q, hends, hspace, -⟩ := @realize_ends host file p hp
    (.region ⟨b.name, b.extent, .readWrite, none⟩ :: entries.map LayoutEntry.request)
  have hread := @read_of_grants host file p.space ⟨b.name, b.extent, .readWrite, none⟩ hbuilt.arranged hgrants
    (entries.map LayoutEntry.request)
  rw [← hspace] at hread
  rw [applyAll, apply_of_create ht rfl] at hends hspace
  dsimp only at hends hspace
  rw [failures_region_eq_nil hgrants, haccepts.failures_eq_nil] at hends
  have hdata : ∀ a ∈ b.extent, ∀ item, q.space.data.get? a = some item ↔
      ∃ x ∈ entries, x.extent.address = a ∧ x.item = item := by
    intro a ha item
    rw [hspace]
    refine haccepts.data_iff htiles.requests_apart ?_
    -- Nothing was mapped in the range before, and so nothing was typed in it.
    rw [create_data ht]
    exact hbuilt.data_eq_none hunmapped ha
  refine ⟨_, q, hrequests, hends.run, ⟨r, ?_, fun k => ?_, hname, hextent, hpermissions, hmirror, hinitialized⟩,
    ?_, fun a ha => htiles.existsUnique_item hdata ha, hdata, fun e he => ?_⟩
  · intro hold
    exact hgrants.admits.extent_ne hold hextent
  · rw [hspace, ← hregions k]
    exact ⟨fun hk => regions_applyAll t entries hk, fun hk => (applyAll_extends _ t).keeps.regions.subset hk⟩
  · rw [hread]
    simp [RegionRequest.fileBytes, List.map_const']
  · rw [hspace, ← show r.name = b.name from hname]
    exact haccepts.labelled htiles.requests_apart hnames he

/-- A block with bytes that belong to no register at its start, between two registers and at its end. -/
def probe : Block := ⟨"PROBE", ⟨0x2000, 0x10⟩, [⟨"CTRL", 0x2004, 32, 1, 0⟩, ⟨"CH\x7b\x7d_VAL", 0x2008, 16, 2, 4⟩]⟩

theorem probe_realized :
    Built nestedMirrors ∧ ∃ requests q, probe.requests = .ok requests ∧
      (realize defaultHost [] requests).exec ⟨nestedMirrors, {}, []⟩ = (.ok [], q) ∧
      q.space.read 0x2000 0x10 = .ok (List.replicate 0x10 0) ∧
      (∃! x, x ∈ probe.extent ∧ ∃ item, q.space.data.get? x = some item ∧ 0x200F ∈ item.extent x) ∧
      q.space.data.get? 0x200E = some ⟨8, 2⟩ ∧
      q.space.labels.find? "CH1_VAL" = some ⟨0x200C, "CH1_VAL", .register, "PROBE"⟩ := by
  have hlayout : probe.layout = .ok [.filler ⟨0x2000, 4⟩, .register ⟨"CTRL", 0x2004, 32⟩,
      .register ⟨"CH0_VAL", 0x2008, 16⟩, .filler ⟨0x200A, 2⟩, .register ⟨"CH1_VAL", 0x200C, 16⟩,
      .filler ⟨0x200E, 2⟩] := by decide +kernel
  have helements : probe.elements =
      .ok [⟨"CTRL", 0x2004, 32⟩, ⟨"CH0_VAL", 0x2008, 16⟩, ⟨"CH1_VAL", 0x200C, 16⟩] :=
    Block.layout_elements hlayout
  have hunmapped : ∀ r ∈ nestedMirrors.regions, ¬ probe.extent.Overlaps r.extent := by decide
  have hunbound : ∀ e ∈ ([⟨"CTRL", 0x2004, 32⟩, ⟨"CH0_VAL", 0x2008, 16⟩, ⟨"CH1_VAL", 0x200C, 16⟩] : List Element),
      nestedMirrors.labels.find? e.name = none := by decide
  obtain ⟨requests, q, hrequests, hrun, -, hread, hcovered, hdata, hlabels⟩ :=
    @realize_block defaultHost probe _ _ Text.fillTemplate ⟨nestedMirrors, {}, []⟩ hlayout helements (by decide) (by decide)
      (by decide) (by decide) built_nestedMirrors (by decide) hunmapped (by decide) hunbound
      Monitor.patient_default []
  refine ⟨built_nestedMirrors, requests, q, hrequests, hrun, hread, hcovered _ (by decide), ?_, ?_⟩
  · exact (hdata 0x200E (by decide) _).2 ⟨.filler ⟨0x200E, 2⟩, by decide, rfl, rfl⟩
  · exact hlabels ⟨"CH1_VAL", 0x200C, 16⟩ (by decide)

end Hardware

end PsxExe
