import PsxExe.Proofs.Space.Aliasing

/-!
# What a read shows

A read starts in a region and does not cross its end, and then it takes a slice of the storage. If its size is not
negative, it shows the bytes of its addresses, all of them in the one region. A negative size always passes the check
at the end. The range is empty then, and so is the slice, unless it ends in front of the storage: such an end is
counted from the other end of the storage, and the read shows bytes that lie outside the region.
-/

namespace PsxExe

namespace Storage

variable {st : Storage} {i : Nat} {n : Int}

theorem slice_eq_nil (hn : n ≤ 0) (hin : 0 ≤ i + n) : st.slice i (i + n) = [] := by
  have hpositions : Bytes.position st.size (i + n) ≤ Bytes.position st.size i := by
    rw [Bytes.position, Bytes.position, if_neg (by omega), if_neg (by omega)]
    omega
  rw [slice, Nat.sub_eq_zero_of_le hpositions]
  rfl

/-- A slice that ends in front of the storage goes on up to where that end is counted from the other end. -/
theorem slice_of_neg (hi : i ≤ st.size) (hin : i + n < 0) :
    st.slice i (i + n) = (List.range (st.size + n).toNat).map fun j => st.byteAt (i + j) := by
  have hfirst : Bytes.position st.size i = i := by
    rw [Bytes.position, if_neg (by omega)]
    omega
  have hlength : Bytes.position st.size (i + n) - i = (st.size + n).toNat := by
    rw [Bytes.position, if_pos hin]
    omega
  rw [slice, hfirst, hlength, List.range'_eq_map_range, List.map_map]
  rfl

end Storage

namespace AddressSpace

variable {s : AddressSpace} {r : Region} {a n : Int}

/-- The bytes are those of a range, one for each address, and all of the range lies in the region. -/
def ShownIn (s : AddressSpace) (r : Region) (e : Extent) (bytes : Bytes) : Prop :=
  bytes.length = e.size.toNat ∧
    ∀ j (hj : j < bytes.length), e.address + j ∈ r.extent ∧ s.byteAt (e.address + j) = some bytes[j]

theorem shownIn_nil (hn : n ≤ 0) : s.ShownIn r ⟨a, n⟩ [] := by
  refine ⟨?_, fun j hj => absurd hj (Nat.not_lt_zero j)⟩
  rw [Int.toNat_of_nonpos hn]
  rfl

theorem Arranged.read_shows (hs : s.Arranged) (hr : s.regionAt a = some r) (hn : 0 ≤ n) (hstop : a + n ≤ r.stop) :
    ∃ bytes, s.read a n = .ok bytes ∧ s.ShownIn r ⟨a, n⟩ bytes := by
  obtain ⟨k, rfl⟩ := Int.eq_ofNat_of_zero_le hn
  refine ⟨_, hs.read_of_locate (locate_eq_ok_iff.2 ⟨hr, hstop⟩), by simp, fun j hj => ?_⟩
  have hjk : j < k := by simpa using hj
  have hfrom := (Region.mem_extent.1 (mem_of_regionAt hr).2).1
  have hto : a + j < r.stop := by omega
  have hin : a + j ∈ r.extent := Region.mem_extent.2 ⟨by omega, hto⟩
  refine ⟨hin, ?_⟩
  change s.byteAt (a + j) = _
  rw [byteAt, hs.cellAt_add hr hto]
  simp

/-- A read that ends in front of its start gives a slice all the same, since it crosses no end. -/
theorem read_of_neg (hr : s.regionAt a = some r) (hn : n < 0) :
    s.read a n = .ok ((s.storageOf r).slice (r.storageIndex a) (r.storageIndex a + n)) := by
  have hto := (Region.mem_extent.1 (mem_of_regionAt hr).2).2
  have hlocate : s.locate a n = .ok r := locate_eq_ok_iff.2 ⟨hr, by omega⟩
  rw [read, hlocate]
  rfl

/-- A read is refused where nothing is mapped and where it crosses the end of its region. Otherwise it shows the
bytes of its range, as long as that does not end in front of the storage. If it does, the read shows what the storage
holds from the address on, as many bytes of it as are left when the size is taken away. -/
theorem Built.read_shows_range (h : Built s) (a n : Int) :
    (s.regionAt a = none → s.read a n = .error (.notMapped a)) ∧
      ∀ r, s.regionAt a = some r →
        (r.stop < a + n → s.read a n = .error (.crossesEnd a n r.name)) ∧
        (a + n ≤ r.stop → 0 ≤ r.storageIndex a + n → ∃ bytes, s.read a n = .ok bytes ∧ s.ShownIn r ⟨a, n⟩ bytes) ∧
        (r.storageIndex a + n < 0 → ∃ bytes, s.read a n = .ok bytes ∧
          bytes.length = ((s.storageOf r).size + n).toNat ∧
          ∀ j (hj : j < bytes.length), bytes[j] = s.byteIn ⟨r.storage, r.storageIndex a + j⟩) := by
  have hs := h.arranged
  refine ⟨fun hnone => ?_, fun r hr => ⟨fun hcross => ?_, fun hstop hin => ?_, fun hin => ?_⟩⟩
  · rw [read, locate_eq_error_iff.2 (.inl ⟨hnone, rfl⟩)]
    rfl
  · rw [read, locate_eq_error_iff.2 (.inr ⟨r, hr, hcross, rfl⟩)]
    rfl
  · by_cases hn : 0 ≤ n
    · exact hs.read_shows hr hn hstop
    · refine ⟨[], ?_, shownIn_nil (by omega)⟩
      rw [read_of_neg hr (by omega), Storage.slice_eq_nil (by omega) hin]
  · have hto := (Region.mem_extent.1 (mem_of_regionAt hr).2).2
    have hbacked : r.storageIndex a ≤ (s.storageOf r).size := hs.storageIndex_add_le (n := 0) hr (by omega)
    refine ⟨_, read_of_neg hr (by omega), ?_⟩
    rw [Storage.slice_of_neg hbacked hin]
    refine ⟨by simp, fun j hj => ?_⟩
    simp [byteIn, storageOf]

/-- A region, and a mirror of two bytes in the middle of it. -/
def partMirror : AddressSpace := Operation.runAll defaultHost ∅ [
  .createRegion "RAM" ⟨0x1000, 8⟩ .all (some [1, 2, 3, 4, 5, 6, 7, 8]),
  .createMirror "PART" 0x1002 ⟨0x2000, 2⟩]

theorem built_partMirror : Built partMirror := Built.empty.runAll ..

theorem partMirror_shows_range :
    Built partMirror ∧
      (∃ bytes, partMirror.read 0x2000 2 = .ok bytes ∧
        partMirror.ShownIn ⟨"PART", ⟨0x2000, 2⟩, .all, 0, 2, some 0x1002, true⟩ ⟨0x2000, 2⟩ bytes) ∧
      (∃ bytes, partMirror.read 0x2000 (-2) = .ok bytes ∧
        partMirror.ShownIn ⟨"PART", ⟨0x2000, 2⟩, .all, 0, 2, some 0x1002, true⟩ ⟨0x2000, -2⟩ bytes) ∧
      (∃ bytes, partMirror.read 0x2000 (-3) = .ok bytes ∧ bytes.length = 5) ∧
      partMirror.read 0x2001 2 = .error (.crossesEnd 0x2001 2 "PART") ∧
      partMirror.read 0x2002 0 = .error (.notMapped 0x2002) := by
  have hwhole := (Built.read_shows_range built_partMirror 0x2000 2).2 _ rfl
  have hback := (Built.read_shows_range built_partMirror 0x2000 (-2)).2 _ rfl
  have hfront := (Built.read_shows_range built_partMirror 0x2000 (-3)).2 _ rfl
  have hcross := (Built.read_shows_range built_partMirror 0x2001 2).2 _ rfl
  obtain ⟨bytes, hread, hlength, -⟩ := hfront.2.2 (by decide)
  exact ⟨built_partMirror, hwhole.2.1 (by decide) (by decide), hback.2.1 (by decide) (by decide),
    ⟨bytes, hread, hlength⟩, hcross.1 (by decide), (Built.read_shows_range built_partMirror 0x2002 0).1 rfl⟩

/-- Through the mirror of two bytes a read of a negative size shows three bytes more, which the mirror does not
repeat. -/
theorem partMirror_read_leaves :
    ¬ ∀ (s : AddressSpace) (a n : Int), Built s → (∃ e, s.read a n = .error e) ∨
      ∃ r bytes, s.regionAt a = some r ∧ s.read a n = .ok bytes ∧ s.ShownIn r ⟨a, n⟩ bytes := by
  intro hshown
  have hread : partMirror.read 0x2000 (-3) = .ok [3, 4, 5, 6, 7] := rfl
  rcases hshown partMirror 0x2000 (-3) built_partMirror with ⟨e, he⟩ | ⟨r, bytes, -, hbytes, hlength, -⟩
  · rw [hread] at he
    cases he
  · obtain rfl := Except.ok.inj (hread.symm.trans hbytes)
    exact absurd hlength (by decide)

end AddressSpace

end PsxExe
