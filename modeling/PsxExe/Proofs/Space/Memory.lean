import PsxExe.Proofs.Space.Arrangement

/-!
# Cells, reads and writes

What an access does is said cell by cell. An access that is granted stays in the region of its address,
so it covers consecutive cells of one storage; a read gives the bytes in them, and a write changes these
cells and no others.
-/

namespace PsxExe

theorem Region.storageIndex_add {r : Region} {a : Int} (ha : r.address ≤ a) (n : Nat) :
    r.storageIndex (a + n) = r.storageIndex a + n := by
  simp only [storageIndex]
  omega

theorem Storage.slice_eq_map (st : Storage) {i n : Nat} (h : i + n ≤ st.size) :
    st.slice i ((i + n : Nat) : Int) = (List.range n).map fun j => st.byteAt (i + j) := by
  have hfirst : Bytes.position st.size i = i := by
    rw [Bytes.position, if_neg (by omega)]
    omega
  have hlast : Bytes.position st.size ((i + n : Nat) : Int) = i + n := by
    rw [Bytes.position, if_neg (by omega)]
    omega
  rw [slice, hfirst, hlast, Nat.add_sub_cancel_left, List.range'_eq_map_range, List.map_map]
  rfl

namespace AddressSpace

variable {s t : AddressSpace} {r q : Region} {a b : Int} {bytes : Bytes}

theorem cellAt_of_regionAt (h : s.regionAt a = some r) :
    s.cellAt a = some ⟨r.storage, r.storageIndex a⟩ := by
  rw [cellAt, h, Option.map_some]

theorem cellAt_eq_some_iff {c : Cell} :
    s.cellAt a = some c ↔ ∃ r, s.regionAt a = some r ∧ ⟨r.storage, r.storageIndex a⟩ = c :=
  Option.map_eq_some_iff

/-! ### The region of an access -/

theorem locate_eq_ok_iff {n : Int} :
    s.locate a n = .ok r ↔ s.regionAt a = some r ∧ a + n ≤ r.stop := by
  rw [locate]
  split
  next hnone => simp [hnone]
  next q hq =>
    rw [hq, Option.some.injEq]
    split
    next hcross =>
      refine ⟨fun h => by simp at h, fun ⟨hqr, hle⟩ => ?_⟩
      rw [hqr] at hcross
      omega
    next hcross =>
      rw [Except.ok.injEq]
      refine ⟨fun hqr => ⟨hqr, ?_⟩, And.left⟩
      rw [← hqr]
      omega

/-- An access is refused because nothing is mapped at its address, or because it crosses an end. -/
theorem locate_eq_error_iff {n : Int} {e : SpaceError} :
    s.locate a n = .error e ↔
      (s.regionAt a = none ∧ e = .notMapped a) ∨
        ∃ r, s.regionAt a = some r ∧ r.stop < a + n ∧ e = .crossesEnd a n r.name := by
  rw [locate]
  split
  next hnone => simp [hnone, eq_comm]
  next q hq =>
    simp only [hq, reduceCtorEq, false_and, false_or, Option.some.injEq, exists_eq_left']
    split
    next hcross => simp [hcross, eq_comm]
    next hcross => simp [hcross]

theorem Arranged.storageIndex_add_le (h : s.Arranged) (hr : s.regionAt a = some r) {n : Nat}
    (hn : a + n ≤ r.stop) : r.storageIndex a + n ≤ (s.storageOf r).size := by
  obtain ⟨hmem, ha⟩ := mem_of_regionAt hr
  have hbacked := h.backed r hmem
  rw [Region.mem_extent] at ha
  rw [Region.stop_eq] at hn ha
  simp only [Region.storageIndex]
  omega

theorem Arranged.cellAt_add (h : s.Arranged) (hr : s.regionAt a = some r) {j : Nat} (hj : a + j < r.stop) :
    s.cellAt (a + j) = some ⟨r.storage, r.storageIndex a + j⟩ := by
  obtain ⟨hmem, ha⟩ := mem_of_regionAt hr
  rw [Region.mem_extent] at ha
  rw [← Region.storageIndex_add ha.1]
  exact cellAt_of_regionAt (h.regionAt_of_mem hmem (Region.mem_extent.2 ⟨by omega, hj⟩))

/-! ### Reading -/

theorem Arranged.read_of_locate (h : s.Arranged) {n : Nat} (hl : s.locate a n = .ok r) :
    s.read a n = .ok ((List.range n).map fun j => s.byteIn ⟨r.storage, r.storageIndex a + j⟩) := by
  obtain ⟨hr, hn⟩ := locate_eq_ok_iff.1 hl
  simp only [read, hl, bind, Except.bind, pure, Except.pure]
  rw [← Int.natCast_add, Storage.slice_eq_map _ (h.storageIndex_add_le hr hn)]
  rfl

theorem read_isOk {n : Int} : (s.read a n).isOk ↔ ∃ r, s.regionAt a = some r ∧ a + n ≤ r.stop := by
  simp only [← locate_eq_ok_iff, read]
  cases s.locate a n <;> simp [bind, Except.bind, pure, Except.pure, Except.isOk, Except.toBool]

theorem Arranged.read_one (h : s.Arranged) {c : Cell} (hc : s.cellAt a = some c) :
    s.read a 1 = .ok [s.byteIn c] := by
  obtain ⟨r, hr, rfl⟩ := cellAt_eq_some_iff.1 hc
  have ha := Region.mem_extent.1 (mem_of_regionAt hr).2
  have hl : s.locate a (1 : Nat) = .ok r := locate_eq_ok_iff.2 ⟨hr, by omega⟩
  exact h.read_of_locate hl

theorem Arranged.read_whole (h : s.Arranged) (hr : r ∈ s.regions) :
    s.read r.address r.size =
      .ok ((List.range r.size.toNat).map fun j => s.byteIn ⟨r.storage, r.offset + j⟩) := by
  have hpos := h.nonempty r hr
  have hstop := r.stop_eq
  have hlocate : s.locate r.address r.size.toNat = .ok r :=
    locate_eq_ok_iff.2 ⟨h.regionAt_of_mem hr (Region.mem_extent.2 (by omega)), by omega⟩
  have hread := h.read_of_locate hlocate
  have hindex : r.storageIndex r.address = r.offset := by simp [Region.storageIndex]
  rw [Int.toNat_of_nonneg (Int.le_of_lt hpos), hindex] at hread
  exact hread

/-! ### Writing -/

theorem write_eq_ok_iff :
    s.write a bytes = .ok t ↔
      ∃ r, s.locate a bytes.length = .ok r ∧
        t = { s with storages := s.storages.modify r.storage (·.write (r.storageIndex a) bytes) } := by
  rw [write]
  cases s.locate a bytes.length <;> simp [bind, Except.bind, pure, Except.pure, eq_comm]

theorem write_isOk : (s.write a bytes).isOk ↔ ∃ r, s.regionAt a = some r ∧ a + bytes.length ≤ r.stop := by
  simp only [← locate_eq_ok_iff, write]
  cases s.locate a bytes.length <;> simp [bind, Except.bind, pure, Except.pure, Except.isOk, Except.toBool]

theorem write_eq_error_iff {e : SpaceError} :
    s.write a bytes = .error e ↔ s.locate a bytes.length = .error e := by
  rw [write]
  cases s.locate a bytes.length <;> simp [bind, Except.bind, pure, Except.pure]

/-- A write leaves its bytes in the cells that it covers and every other cell as it was. -/
theorem Arranged.byteIn_write (h : s.Arranged) (hl : s.locate a bytes.length = .ok r) (c : Cell) :
    byteIn { s with storages := s.storages.modify r.storage (·.write (r.storageIndex a) bytes) } c =
      if c.storage = r.storage ∧ r.storageIndex a ≤ c.index ∧ c.index < r.storageIndex a + bytes.length then
        bytes.getD (c.index - r.storageIndex a) 0
      else s.byteIn c := by
  have hlt := h.storage_lt (mem_of_regionAt (locate_eq_ok_iff.1 hl).1).1
  simp only [byteIn, List.getD_eq_getElem?_getD, List.getElem?_modify]
  by_cases hc : c.storage = r.storage
  · simp [hc, List.getElem?_eq_getElem hlt, Storage.byteAt_write]
  · simp [hc, Ne.symm hc]

end AddressSpace

end PsxExe
