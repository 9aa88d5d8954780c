import Mathlib.Data.List.Pairwise
import PsxExe.Space.Access
import PsxExe.Space.Mapping

/-!
# How regions lie in an address space

The regions of a space that was built by its operations stand in ascending order, none reaches into
another, each has bytes, and each lies on a storage that is large enough for it. An address then has at
most one region, and that is the one `regionAt` finds. The module says what it takes to map a region or
a mirror, and that mapping keeps the regions arranged.
-/

namespace PsxExe

theorem Extent.overlaps_of_mem {e f : Extent} {a : Int} (he : a ∈ e) (hf : a ∈ f) : e.Overlaps f := by
  rw [Extent.mem_iff] at he hf
  exact ⟨by omega, by omega⟩

theorem Extent.not_overlaps_iff {e f : Extent} :
    ¬ e.Overlaps f ↔ f.stop ≤ e.address ∨ e.stop ≤ f.address := by
  rw [Extent.Overlaps]
  omega

def Extent.Meets (e f : Extent) : Prop := ∃ a ∈ e, a ∈ f

theorem Extent.meets_iff {e f : Extent} : e.Meets f ↔ 0 < e.size ∧ 0 < f.size ∧ e.Overlaps f := by
  simp only [Meets, mem_iff, Overlaps, stop]
  constructor
  · rintro ⟨a, ⟨hfrom, hto⟩, hfrom', hto'⟩
    omega
  · rintro ⟨he, hf, hbelow, habove⟩
    exact ⟨max e.address f.address, by omega, by omega⟩

instance (e f : Extent) : Decidable (e.Meets f) := decidable_of_iff' _ Extent.meets_iff

theorem Region.mem_extent {r : Region} {a : Int} : a ∈ r.extent ↔ r.address ≤ a ∧ a < r.stop := Iff.rfl

theorem eq_of_apart {α : Type} {range : α → Extent} {l : List α}
    (h : l.Pairwise fun x y => ¬ (range x).Overlaps (range y)) {x y : α} (hx : x ∈ l) (hy : y ∈ l) {a : Int}
    (hxa : a ∈ range x) (hya : a ∈ range y) : x = y := by
  have hsymm : Std.Symm fun x y : α => ¬ (range x).Overlaps (range y) := ⟨fun _ _ hno hover => hno hover.symm⟩
  by_contra hne
  exact h.forall hx hy hne (Extent.overlaps_of_mem hxa hya)

theorem Region.stop_eq (r : Region) : r.stop = r.address + r.size := rfl

theorem Host.storageFor_eq (host : Host) (region : String) (size : Int) :
    host.storageFor region size =
      if host.allocationLimit < size then .error (.cannotAllocate region size "")
      else .ok (Storage.zeros size.toNat) := by
  rw [storageFor, allocate]
  by_cases hlimit : host.allocationLimit < size
  · rw [if_pos hlimit, if_pos hlimit]
    rfl
  · rw [if_neg hlimit, if_neg hlimit]

namespace AddressSpace

/-- The regions are in strict order and apart from each other, none is empty or reaches out of the
32-bit addresses, and each has the bytes it needs in its storage; a storage that did not exist would
have none. -/
structure Arranged (s : AddressSpace) : Prop where
  ascending : s.regions.Pairwise fun r q => r.address < q.address
  apart : s.regions.Pairwise fun r q => ¬ r.extent.Overlaps q.extent
  nonempty : ∀ r ∈ s.regions, 0 < r.size
  inside : ∀ r ∈ s.regions, r.extent.InAddressSpace
  backed : ∀ r ∈ s.regions, r.offset + r.size ≤ (s.storageOf r).size

/-- No region reaches into the range. -/
def Unmapped (s : AddressSpace) (e : Extent) : Prop := ∀ r ∈ s.regions, ¬ e.Overlaps r.extent

/-- The range passes the checks that a new region or mirror has to pass. -/
structure Admits (s : AddressSpace) (e : Extent) : Prop where
  nonempty : 0 < e.size
  inside : e.InAddressSpace
  unmapped : s.Unmapped e

variable {s t : AddressSpace} {r q : Region} {a : Int}

theorem arranged_empty : Arranged ∅ where
  ascending := .nil
  apart := .nil
  nonempty := fun _ h => (List.not_mem_nil h).elim
  inside := fun _ h => (List.not_mem_nil h).elim
  backed := fun _ h => (List.not_mem_nil h).elim

/-! ### Looking up an address -/

theorem mem_of_regionAt (h : s.regionAt a = some r) : r ∈ s.regions ∧ a ∈ r.extent :=
  ⟨List.mem_of_find?_eq_some h, by simpa using List.find?_some h⟩

theorem regionAt_eq_none_iff : s.regionAt a = none ↔ ∀ r ∈ s.regions, a ∉ r.extent := by
  simp only [regionAt, List.find?_eq_none, decide_eq_true_eq]

theorem Arranged.eq_of_mem (h : s.Arranged) (hr : r ∈ s.regions) (hq : q ∈ s.regions)
    (har : a ∈ r.extent) (haq : a ∈ q.extent) : r = q :=
  eq_of_apart h.apart hr hq har haq

theorem Arranged.regionAt_eq_some_iff (h : s.Arranged) :
    s.regionAt a = some r ↔ r ∈ s.regions ∧ a ∈ r.extent := by
  refine ⟨mem_of_regionAt, fun ⟨hr, ha⟩ => ?_⟩
  rcases hfound : s.regionAt a with _ | q
  · exact absurd ha (regionAt_eq_none_iff.1 hfound r hr)
  · obtain ⟨hq, haq⟩ := mem_of_regionAt hfound
    rw [h.eq_of_mem hr hq ha haq]

theorem Arranged.regionAt_of_mem (h : s.Arranged) (hr : r ∈ s.regions) (ha : a ∈ r.extent) :
    s.regionAt a = some r := h.regionAt_eq_some_iff.2 ⟨hr, ha⟩

theorem Arranged.storage_lt (h : s.Arranged) (hr : r ∈ s.regions) : r.storage < s.storages.length := by
  by_contra hle
  have hsize : (s.storageOf r).size = 0 := by
    rw [storageOf, List.getD_eq_getElem?_getD, List.getElem?_eq_none (by omega)]
    rfl
  have hbacked := h.backed r hr
  have hpos := h.nonempty r hr
  omega

theorem Arranged.pairwise_stop_le (h : s.Arranged) : s.regions.Pairwise fun r q => r.stop ≤ q.address := by
  refine (h.ascending.and h.apart).imp_of_mem fun {r q} hr hq hrq => ?_
  obtain ⟨hlt, hno⟩ := hrq
  have hsize := h.nonempty q hq
  rcases Extent.not_overlaps_iff.1 hno with hle | hle
  · change q.address + q.size ≤ r.address at hle
    omega
  · exact hle

/-! ### Putting a region in its place -/

@[simp] theorem mem_insertRegion : q ∈ (s.insertRegion r).regions ↔ q = r ∨ q ∈ s.regions := mem_insertBy

theorem regionAt_insertRegion_eq_none (hfree : s.regionAt a = none) (ha : a ∉ r.extent) :
    (s.insertRegion r).regionAt a = none := by
  refine regionAt_eq_none_iff.2 fun q hq => ?_
  rcases mem_insertRegion.1 hq with rfl | hold
  · exact ha
  · exact regionAt_eq_none_iff.1 hfree q hold

@[simp] theorem storages_insertRegion : (s.insertRegion r).storages = s.storages := rfl

theorem storageOf_congr (h : t.storages = s.storages) : t.storageOf r = s.storageOf r := by
  rw [storageOf, storageOf, h]

theorem sublist_insertBy {α : Type} (le : α → α → Bool) (x : α) (l : List α) :
    l.Sublist (insertBy le x l) := by
  induction l with
  | nil => exact List.nil_sublist _
  | cons y rest ih =>
    rw [insertBy]
    split
    · exact List.sublist_cons_self ..
    · exact ih.cons_cons y

theorem pairwise_address_lt {l : List Region} (hsorted : l.Pairwise fun r q => r.address ≤ q.address)
    (hapart : l.Pairwise fun r q => ¬ r.extent.Overlaps q.extent) (hsize : ∀ r ∈ l, 0 < r.size) :
    l.Pairwise fun r q => r.address < q.address := by
  refine (hsorted.and hapart).imp_of_mem fun {r q} hr hq hrq => ?_
  obtain ⟨hle, hno⟩ := hrq
  rcases Extent.not_overlaps_iff.1 hno with hstop | hstop
  · have hq0 := hsize q hq
    change q.address + q.size ≤ r.address at hstop
    omega
  · have hr0 := hsize r hr
    change r.address + r.size ≤ q.address at hstop
    omega

theorem Arranged.insertRegion (h : s.Arranged) (hr : s.Admits r.extent)
    (hbacked : r.offset + r.size ≤ (s.storageOf r).size) : (s.insertRegion r).Arranged := by
  have hsorted : (s.insertRegion r).regions.Pairwise fun a b => decide (a.address ≤ b.address) = true := by
    apply insertBy_pairwise
    · simp only [decide_eq_true_eq]
      omega
    · simp only [decide_eq_true_eq]
      omega
    · exact h.ascending.imp fun hlt => by simpa only [decide_eq_true_eq] using Int.le_of_lt hlt
  have hapart : (s.insertRegion r).regions.Pairwise fun r q => ¬ r.extent.Overlaps q.extent := by
    refine ((insertBy_perm _ r s.regions).pairwise_iff fun h ho => h ho.symm).2 ?_
    exact List.pairwise_cons.2 ⟨hr.unmapped, h.apart⟩
  have hsize : ∀ q ∈ (s.insertRegion r).regions, 0 < q.size := by
    intro q hq
    rcases mem_insertRegion.1 hq with rfl | hq
    · exact hr.nonempty
    · exact h.nonempty q hq
  refine ⟨?_, hapart, hsize, fun q hq => ?_, fun q hq => ?_⟩
  · exact pairwise_address_lt (by simpa only [decide_eq_true_eq] using hsorted) hapart hsize
  · rcases mem_insertRegion.1 hq with rfl | hq
    · exact hr.inside
    · exact h.inside q hq
  · rw [storageOf_congr storages_insertRegion]
    rcases mem_insertRegion.1 hq with rfl | hq
    · exact hbacked
    · exact h.backed q hq

/-! ### What it takes to map a range -/

theorem checkRange_eq_ok_iff {name : String} {e : Extent} : s.checkRange name e = .ok () ↔ s.Admits e := by
  rw [checkRange]
  split
  next hsize => exact ⟨fun h => by simp at h, fun h => absurd h.nonempty (by omega)⟩
  next hsize =>
    split
    next hinside => exact ⟨fun h => by simp at h, fun h => absurd h.inside hinside⟩
    next hinside =>
      split
      next q hfound =>
        refine ⟨fun h => by simp at h, fun h => ?_⟩
        have hoverlaps : e.Overlaps q.extent := by simpa using List.find?_some hfound
        exact absurd hoverlaps (h.unmapped q (List.mem_of_find?_eq_some hfound))
      next hnone =>
        simp only [List.find?_eq_none, decide_eq_true_eq] at hnone
        exact ⟨fun _ => ⟨by omega, not_not.1 hinside, hnone⟩, fun _ => rfl⟩

theorem Admits.extent_ne {e : Extent} (h : s.Admits e) (hr : r ∈ s.regions) : r.extent ≠ e := by
  intro hextent
  have hpos : 0 < e.size := h.nonempty
  have hself : e.address ∈ e := ⟨Int.le_refl _, by rw [Extent.stop]; omega⟩
  refine h.unmapped r hr ?_
  rw [hextent]
  exact Extent.overlaps_of_mem hself hself

theorem checkRange_bind_eq_ok_iff {α : Type} {name : String} {e : Extent} {next : Unit → Except SpaceError α}
    {x : α} : s.checkRange name e >>= next = .ok x ↔ s.Admits e ∧ next () = .ok x := by
  rw [show s.Admits e ↔ s.checkRange name e = .ok () from checkRange_eq_ok_iff.symm]
  cases s.checkRange name e <;> simp [bind, Except.bind]

/-- The storage of a new region: the bytes that come with it and fit, and zeros behind them. -/
def filledStorage (size : Int) (bytes : Option Bytes) : Storage :=
  (Storage.zeros size.toNat).write 0 ((bytes.getD []).take size.toNat)

@[simp] theorem size_filledStorage (size : Int) (bytes : Option Bytes) :
    (filledStorage size bytes).size = size.toNat := rfl

theorem byteAt_filledStorage {size : Int} {i : Nat} (hi : i < size) (bytes : Option Bytes) :
    (filledStorage size bytes).byteAt i = (bytes.getD []).getD i 0 := by
  rw [filledStorage, Storage.byteAt_write, List.length_take]
  by_cases hin : i < (bytes.getD []).length
  · rw [if_pos (by omega), Nat.sub_zero, List.getD_eq_getElem?_getD, List.getD_eq_getElem?_getD,
      List.getElem?_take_of_lt (by omega)]
  · rw [if_neg (by omega), List.getD_eq_getElem?_getD, List.getElem?_eq_none (by omega)]
    rfl

theorem createRegion_eq_ok_iff {host : Host} {name : String} {e : Extent} {permissions : Permissions}
    {bytes : Option Bytes} :
    s.createRegion host name e permissions bytes = .ok (r, t) ↔
      s.Admits e ∧ e.size ≤ host.allocationLimit ∧
        r = ⟨name, e, permissions, s.storages.length, 0, none, bytes.isSome⟩ ∧
        t = { s with storages := s.storages ++ [filledStorage e.size bytes] }.insertRegion r := by
  rw [createRegion, checkRange_bind_eq_ok_iff, host.storageFor_eq]
  by_cases hlimit : host.allocationLimit < e.size
  · exact ⟨fun h => by simp [hlimit, bind, Except.bind] at h, fun h => absurd h.2.1 (by omega)⟩
  · simp only [if_neg hlimit, bind, Except.bind, pure, Except.pure, Except.ok.injEq, Prod.mk.injEq,
      Int.not_lt.1 hlimit, true_and]
    refine and_congr_right fun _ => ⟨?_, ?_⟩ <;> rintro ⟨rfl, rfl⟩ <;> exact ⟨rfl, rfl⟩

theorem createMirror_eq_ok_iff {name : String} {base : Int} {e : Extent} :
    s.createMirror name base e = .ok (r, t) ↔
      ∃ q, s.regionAt base = some q ∧ base + e.size ≤ q.stop ∧ s.Admits e ∧
        r = ⟨name, e, q.permissions, q.storage, q.storageIndex base, some base, q.initialized⟩ ∧
        t = s.insertRegion r := by
  rw [createMirror]
  rcases hbase : s.regionAt base with _ | q
  · simp
  · by_cases hpast : q.stop < base + e.size
    · refine ⟨fun h => by simp [hpast] at h, fun ⟨_, hq, hle, _⟩ => ?_⟩
      cases hq
      omega
    · simp only [if_neg hpast, checkRange_bind_eq_ok_iff, pure, Except.pure, Except.ok.injEq, Prod.mk.injEq,
        Option.some.injEq, exists_eq_left', Int.not_lt.1 hpast, true_and]
      refine and_congr_right fun _ => ⟨?_, ?_⟩ <;> rintro ⟨rfl, rfl⟩ <;> exact ⟨rfl, rfl⟩

end AddressSpace

end PsxExe
