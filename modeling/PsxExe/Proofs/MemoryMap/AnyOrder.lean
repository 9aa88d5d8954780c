import PsxExe.Proofs.MemoryMap.Origin
import PsxExe.Proofs.Space.Acceptance

/-!
# Region requests in any order

Region requests that leave each other's ranges alone can be realized in any order. What a run of them adds to a
space is described without their order: the regions that they ask for, each with the bytes that come with it, and
nothing else. Since regions stand in ascending order, this settles the list of regions too. Only the numbers of the
storages tell which request came first.
-/

namespace PsxExe

open AddressSpace

variable {host : Host} {file : Bytes} {s t u : AddressSpace} {k : RegionRequest} {l l' : List RegionRequest} {a : Int}

def Region.unnumbered (r : Region) : Region := { r with storage := 0 }

namespace RegionRequest

def wanted (k : RegionRequest) : Region := ⟨k.name, k.extent, k.permissions, 0, 0, none, k.fileOffset.isSome⟩

/-- The byte that is asked for at an address: one of the file, or zero where the file ends or none was named. -/
def byteAt (k : RegionRequest) (file : Bytes) (a : Int) : UInt8 :=
  ((k.fileBytes file).getD []).getD (a - k.extent.address).toNat 0

end RegionRequest

/-- There is room for the regions of all requests at once. -/
structure RoomFor (host : Host) (s : AddressSpace) (l : List RegionRequest) : Prop where
  grants : ∀ k ∈ l, s.Grants host k.extent
  apart : l.Pairwise fun k j => ¬ k.extent.Overlaps j.extent

/-- The second space has what the first one has, and what the requests ask for. -/
structure Gains (file : Bytes) (l : List RegionRequest) (s t : AddressSpace) : Prop where
  regions : (t.regions.map Region.unnumbered).Perm
    (l.map RegionRequest.wanted ++ s.regions.map Region.unnumbered)
  within : ∀ k ∈ l, ∀ a ∈ k.extent, t.byteAt a = some (k.byteAt file a)
  outside : ∀ a, (∀ k ∈ l, a ∉ k.extent) → t.byteAt a = s.byteAt a
  notes : t = { s with regions := t.regions, storages := t.storages }

/-! ### Room -/

theorem RoomFor.perm (h : RoomFor host s l) (hperm : l.Perm l') : RoomFor host s l' where
  grants k hk := h.grants k (hperm.mem_iff.2 hk)
  apart := (hperm.pairwise_iff fun hno hover => hno hover.symm).1 h.apart

theorem RoomFor.tail (h : RoomFor host s (k :: l)) (hcreate : (Request.region k).create host file s = .ok t) :
    RoomFor host t l := by
  obtain ⟨hfirst, hapart⟩ := List.pairwise_cons.1 h.apart
  refine ⟨fun j hj => ?_, hapart⟩
  obtain ⟨⟨hsize, hinside, hunmapped⟩, hlimit⟩ := h.grants j (List.mem_cons_of_mem _ hj)
  obtain ⟨⟨q, u⟩, hu, rfl⟩ := exists_of_map_eq_ok hcreate
  obtain ⟨-, -, rfl, rfl⟩ := createRegion_eq_ok_iff.1 hu
  refine ⟨⟨hsize, hinside, fun r hr hoverlaps => ?_⟩, hlimit⟩
  rcases mem_insertRegion.1 hr with rfl | hold
  · exact hfirst j hj hoverlaps.symm
  · exact hunmapped r hold hoverlaps

theorem AddressSpace.Arranged.roomFor (hs : s.Arranged)
    (hrequests : ∀ k ∈ l, k.extent.Proper ∧ k.extent.size ≤ host.allocationLimit ∧ s.Free k.extent)
    (hapart : l.Pairwise fun k j => ¬ k.extent.Meets j.extent) : RoomFor host s l := by
  refine ⟨fun k hk => ?_, ?_⟩
  · obtain ⟨hproper, hsize, hfree⟩ := hrequests k hk
    exact ⟨hs.admits_iff.2 ⟨hproper, hfree⟩, hsize⟩
  · refine hapart.imp_of_mem fun {k j} hk hj hno hoverlaps => ?_
    exact hno (Extent.meets_iff.2 ⟨(hrequests k hk).1.1, (hrequests j hj).1.1, hoverlaps⟩)

/-! ### Gains -/

theorem AddressSpace.Extends.byteAt_eq (h : Extends s t) (hs : s.Arranged) (hregion : t.regionAt a = s.regionAt a) :
    t.byteAt a = s.byteAt a := by
  rw [AddressSpace.byteAt, AddressSpace.byteAt, cellAt, cellAt, hregion]
  cases hr : s.regionAt a with
  | none => rfl
  | some r => exact congrArg some (h.byteIn (hs.storage_lt (mem_of_regionAt hr).1))

namespace Gains

theorem nil : Gains file [] s s where
  regions := .refl _
  within := fun _ hk => (List.not_mem_nil hk).elim
  outside := fun _ _ => rfl
  notes := rfl

theorem of_create (hs : s.Arranged) (h : (Request.region k).create host file s = .ok t) : Gains file [k] s t := by
  obtain ⟨⟨q, u⟩, hu, rfl⟩ := exists_of_map_eq_ok h
  have hextends := createRegion_extends hu
  have ht := hs.createRegion hu
  obtain ⟨-, -, rfl, rfl⟩ := createRegion_eq_ok_iff.1 hu
  have hregion := ht.regionAt_join fun q => mem_insertRegion
  refine ⟨?_, fun j hj a ha => ?_, fun a ha => ?_, rfl⟩
  · refine ((insertBy_perm _ _ s.regions).map Region.unnumbered).trans (.of_eq ?_)
    rw [List.map_cons, Region.unnumbered, RegionRequest.fileBytes, Option.isSome_map]
    rfl
  · obtain rfl := List.mem_singleton.1 hj
    have hin := hregion a
    rw [if_pos ha] at hin
    obtain ⟨hfrom, hto⟩ := Extent.mem_iff.1 ha
    rw [Extent.stop] at hto
    rw [AddressSpace.byteAt, cellAt_of_regionAt hin, Option.map_some, Option.some.injEq, RegionRequest.byteAt,
      ← @byteAt_filledStorage j.extent.size _ (by omega), byteIn]
    simp only [storages_insertRegion, List.getD_eq_getElem?_getD, List.getElem?_concat_length, Option.getD_some,
      Region.storageIndex, Nat.zero_add]
    rfl
  · have hout := hregion a
    rw [if_neg (ha k List.mem_cons_self)] at hout
    exact hextends.byteAt_eq hs hout

theorem cons (h : Gains file [k] s t) (hrest : Gains file l t u)
    (hapart : ∀ j ∈ l, ¬ k.extent.Overlaps j.extent) : Gains file (k :: l) s u := by
  refine ⟨?_, fun j hj a ha => ?_, fun a ha => ?_, ?_⟩
  · calc (u.regions.map Region.unnumbered).Perm
          (l.map RegionRequest.wanted ++ t.regions.map Region.unnumbered) := hrest.regions
      List.Perm _ (l.map RegionRequest.wanted ++ k.wanted :: s.regions.map Region.unnumbered) :=
        h.regions.append_left _
      List.Perm _ (k.wanted :: (l.map RegionRequest.wanted ++ s.regions.map Region.unnumbered)) :=
        List.perm_middle
  · rcases List.mem_cons.1 hj with rfl | hj
    · rw [hrest.outside a fun i hi hai => hapart i hi (Extent.overlaps_of_mem ha hai)]
      exact h.within j List.mem_cons_self a ha
    · exact hrest.within j hj a ha
  · rw [hrest.outside a fun j hj => ha j (List.mem_cons_of_mem _ hj)]
    exact h.outside a fun j hj => ha j (List.mem_singleton.1 hj ▸ List.mem_cons_self)
  · rw [hrest.notes, h.notes]

theorem perm (h : Gains file l s t) (hperm : l.Perm l') : Gains file l' s t where
  regions := h.regions.trans ((hperm.map _).append_right _)
  within k hk := h.within k (hperm.mem_iff.2 hk)
  outside a ha := h.outside a fun k hk => ha k (hperm.mem_iff.1 hk)
  notes := h.notes

theorem regions_eq (h : Gains file l s t) (h' : Gains file l s u) (ht : t.Arranged) (hu : u.Arranged) :
    t.regions.map Region.unnumbered = u.regions.map Region.unnumbered := by
  have hascending : ∀ {v : AddressSpace}, v.Arranged →
      (v.regions.map Region.unnumbered).Pairwise fun r q => r.address < q.address := fun hv =>
    List.pairwise_map.2 hv.ascending
  refine List.Perm.eq_of_pairwise (fun r q _ _ hrq hqr => ?_) (hascending ht) (hascending hu)
    (h.regions.trans h'.regions.symm)
  exact absurd hrq (by omega)

theorem byteAt_eq (h : Gains file l s t) (h' : Gains file l s u) (a : Int) : t.byteAt a = u.byteAt a := by
  by_cases ha : ∃ k ∈ l, a ∈ k.extent
  · obtain ⟨k, hk, hin⟩ := ha
    rw [h.within k hk a hin, h'.within k hk a hin]
  · have hout : ∀ k ∈ l, a ∉ k.extent := fun k hk hin => ha ⟨k, hk, hin⟩
    rw [h.outside a hout, h'.outside a hout]

end Gains

/-! ### Runs -/

theorem RoomFor.applyAll (h : RoomFor host s l) (hs : s.Arranged) :
    (Request.applyAll host file s (l.map .region)).failures = [] ∧
      Gains file l s (Request.applyAll host file s (l.map .region)).space := by
  induction l generalizing s with
  | nil => exact ⟨rfl, .nil⟩
  | cons k rest ih =>
    have hgrants := h.grants k List.mem_cons_self
    obtain ⟨t, ht⟩ := @Request.exists_create_of_grants host file s k hgrants
    -- The first region leaves room for the others, so that they are granted in the space behind it.
    obtain ⟨hfailures, hgains⟩ := ih (h.tail ht) ((Request.create_change ht).arranged hs)
    rw [List.map_cons, Request.applyAll]
    dsimp only
    rw [Request.apply_of_create ht rfl, Request.failures_of_create ht rfl, hfailures]
    exact ⟨rfl, (Gains.of_create hs ht).cons hgains (List.pairwise_cons.1 h.apart).1⟩

/-- Region requests for ranges that are proper, free and apart from each other are all granted, in whatever order,
and the order makes no difference to the regions and the bytes in the end. -/
theorem AddressSpace.Built.realize_anyOrder {p : Progress} (h : Built p.space) (hp : p.monitor.Patient)
    (hperm : l.Perm l')
    (hrequests : ∀ k ∈ l, k.extent.Proper ∧ k.extent.size ≤ host.allocationLimit ∧ p.space.Free k.extent)
    (hapart : l.Pairwise fun k j => ¬ k.extent.Meets j.extent) (file : Bytes) :
    ∃ q q', (realize host file (l.map .region)).exec p = (.ok [], q) ∧
      (realize host file (l'.map .region)).exec p = (.ok [], q') ∧
      q.space.regions.map Region.unnumbered = q'.space.regions.map Region.unnumbered ∧
      (∀ a, q.space.byteAt a = q'.space.byteAt a) ∧ Gains file l p.space q.space := by
  have hs := h.arranged
  have hroom : RoomFor host p.space l := hs.roomFor hrequests hapart
  obtain ⟨hfailures, hgains⟩ := @RoomFor.applyAll host file _ _ hroom hs
  obtain ⟨hfailures', hgains'⟩ := @RoomFor.applyAll host file _ _ (hroom.perm hperm) hs
  obtain ⟨q, hends, hspace, -⟩ := @realize_ends host file p hp (l.map .region)
  obtain ⟨q', hends', hspace', -⟩ := @realize_ends host file p hp (l'.map .region)
  have harranged : q.space.Arranged := hspace ▸ (Request.applyAll_changes _ _).arranged hs
  have harranged' : q'.space.Arranged := hspace' ▸ (Request.applyAll_changes _ _).arranged hs
  rw [← hspace] at hgains
  rw [← hspace'] at hgains'
  have hsame := hgains'.perm hperm.symm
  refine ⟨q, q', ?_, ?_, hgains.regions_eq hsame harranged harranged', hgains.byteAt_eq hsame, hgains⟩
  · rw [hends.run, hfailures]
  · rw [hends'.run, hfailures']

/-- Requests between, below and beside the regions: one that the file fills, one past its end, and one of zeros. -/
def besideMirrors : List RegionRequest := [
  ⟨"NEXT", ⟨0x1040, 0x10⟩, .all, some 2⟩,
  ⟨"PAST", ⟨0x90000000, 4⟩, .readExecute, some 100⟩,
  ⟨"ZEROS", ⟨0xFF0, 0x10⟩, .readWrite, none⟩]

theorem besideMirrors_anyOrder :
    Built nestedMirrors ∧ besideMirrors.Perm besideMirrors.reverse ∧ ∃ q q',
      (realize defaultHost [1, 2, 3, 4] (besideMirrors.map .region)).exec ⟨nestedMirrors, {}, []⟩ = (.ok [], q) ∧
      (realize defaultHost [1, 2, 3, 4] (besideMirrors.reverse.map .region)).exec ⟨nestedMirrors, {}, []⟩ =
        (.ok [], q') ∧
      q.space.regions.map Region.unnumbered = q'.space.regions.map Region.unnumbered ∧
      q'.space.byteAt 0x1041 = some 4 ∧ q'.space.byteAt 0x1008 = some 0 := by
  have hs := built_nestedMirrors.arranged
  have hfree : ∀ k ∈ besideMirrors, nestedMirrors.Free k.extent := fun k hk =>
    (hs.unmapped_iff (by revert k; decide)).1 (by revert k; unfold Unmapped; decide)
  have hperm : besideMirrors.Perm besideMirrors.reverse := (List.reverse_perm _).symm
  obtain ⟨q, q', hrun, hrun', hregions, hbytes, hgains⟩ :=
    @Built.realize_anyOrder defaultHost _ _ ⟨nestedMirrors, {}, []⟩ built_nestedMirrors Monitor.patient_default hperm
      (fun k hk => ⟨by revert k; decide, by revert k; decide, hfree k hk⟩) (by decide) [1, 2, 3, 4]
  refine ⟨built_nestedMirrors, hperm, q, q', hrun, hrun', hregions, ?_, ?_⟩
  · rw [← hbytes, hgains.within _ (List.mem_cons_self ..) 0x1041 (by decide)]
    rfl
  · rw [← hbytes, hgains.outside 0x1008 (by decide)]
    rfl

end PsxExe
