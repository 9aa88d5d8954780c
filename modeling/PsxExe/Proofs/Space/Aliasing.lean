import PsxExe.Proofs.Load.History

/-!
# Regions and memory of the spaces that histories build

Two statements about every address space that a history of operations builds. `Built.regions_arranged`
says how its regions lie, what looking up an address gives, and that regions are never taken away or
altered. `Built.write_read` says what a write does to memory in which one byte may be seen at many
addresses: it is seen at all of them, and nowhere else.
-/

namespace PsxExe.AddressSpace

variable {s t : AddressSpace} {r : Region} {a b : Int} {bytes : Bytes}

/-- A region, a mirror of a part of it, a mirror of a part of that mirror, and a region that is refused.
-/
def nestedMirrors : AddressSpace := Operation.runAll defaultHost ∅ [
  .createRegion "RAM" ⟨0x80000000, 0x100⟩ .all (some [1, 2, 3, 4]),
  .createMirror "LOW" 0x80000010 ⟨0x1000, 0x40⟩,
  .createMirror "HIGH" 0x1008 ⟨0xA0000000, 0x10⟩,
  .createRegion "LATE" ⟨0xFFF, 2⟩ .all none]

theorem built_nestedMirrors : Built nestedMirrors := Built.empty.runAll ..

/-- The regions of a space that was built are arranged, the lookup of an address finds the one region
that holds it, and no operation takes a region away or alters more of it than the bytes in its storage.
-/
theorem Built.regions_arranged (h : Built s) :
    s.Arranged ∧
      (∀ a, (∀ r, s.regionAt a = some r ↔ r ∈ s.regions ∧ a ∈ r.extent) ∧
        (s.regionAt a = none ↔ ∀ r ∈ s.regions, a ∉ r.extent)) ∧
      ∀ host o, Keeps s (Operation.run host s o) := by
  refine ⟨h.arranged, fun a => ⟨fun r => h.arranged.regionAt_eq_some_iff, regionAt_eq_none_iff⟩, ?_⟩
  intro host o
  exact (o.changes s).keeps

theorem nestedMirrors_regions :
    Built nestedMirrors ∧ nestedMirrors.Arranged ∧
      nestedMirrors.regionAt 0xA0000004 =
        some ⟨"HIGH", ⟨0xA0000000, 0x10⟩, .all, 0, 0x18, some 0x1008, true⟩ ∧
      nestedMirrors.regionAt 0x1040 = none ∧
      Keeps nestedMirrors ((Operation.write 0x1000 [5]).run defaultHost nestedMirrors) := by
  obtain ⟨harranged, hlookup, hkeeps⟩ := Built.regions_arranged built_nestedMirrors
  refine ⟨built_nestedMirrors, harranged, ((hlookup _).1 _).2 ?_, (hlookup _).2.2 ?_, hkeeps _ _⟩
  · decide
  · decide

/-! ### Aliases -/

/-- Two mapped addresses that lead to one byte of one storage. -/
def Alias (s : AddressSpace) (a b : Int) : Prop := (s.cellAt a).isSome ∧ s.cellAt a = s.cellAt b

instance (s : AddressSpace) (a b : Int) : Decidable (s.Alias a b) :=
  inferInstanceAs (Decidable ((s.cellAt a).isSome ∧ s.cellAt a = s.cellAt b))

theorem Arranged.write_arranged (hs : s.Arranged) (h : s.write a bytes = .ok t) : t.Arranged :=
  hs.of_keeps (write_keeps h).1 (write_keeps h).2

theorem write_cellAt (h : s.write a bytes = .ok t) (b : Int) : t.cellAt b = s.cellAt b := by
  rw [cellAt, cellAt, regionAt, regionAt, (write_keeps h).2]

theorem Arranged.alias_iff (hs : s.Arranged) (hl : s.locate a bytes.length = .ok r) {c : Cell}
    (hc : s.cellAt b = some c) {j : Nat} (hj : j < bytes.length) :
    s.Alias b (a + j) ↔ c = ⟨r.storage, r.storageIndex a + j⟩ := by
  obtain ⟨hr, hn⟩ := locate_eq_ok_iff.1 hl
  have hcell := hs.cellAt_add hr (j := j) (by omega)
  simp only [Alias, hc, hcell, Option.isSome_some, Option.some.injEq, true_and]

theorem Arranged.read_written (hs : s.Arranged) (h : s.write a bytes = .ok t) {j : Nat}
    (hj : j < bytes.length) (halias : s.Alias b (a + j)) : t.read b 1 = .ok [bytes[j]] := by
  obtain ⟨c, hc⟩ := Option.isSome_iff_exists.1 halias.1
  have hread := (hs.write_arranged h).read_one ((write_cellAt h b).trans hc)
  obtain ⟨r, hl, rfl⟩ := write_eq_ok_iff.1 h
  obtain rfl := (hs.alias_iff hl hc hj).1 halias
  rw [hread, hs.byteIn_write hl]
  simp [hj]

theorem Arranged.read_unwritten (hs : s.Arranged) (h : s.write a bytes = .ok t) {c : Cell}
    (hc : s.cellAt b = some c) (hno : ∀ j < bytes.length, ¬ s.Alias b (a + j)) :
    t.read b 1 = .ok [s.byteIn c] := by
  have hread := (hs.write_arranged h).read_one ((write_cellAt h b).trans hc)
  obtain ⟨r, hl, rfl⟩ := write_eq_ok_iff.1 h
  rw [hread, hs.byteIn_write hl, if_neg]
  rintro ⟨hstorage, hfrom, hto⟩
  have hj : c.index - r.storageIndex a < bytes.length := by omega
  refine hno _ hj ((hs.alias_iff hl hc hj).2 ?_)
  rw [← hstorage, Nat.add_sub_cancel' hfrom]

theorem Arranged.read_getElem (hs : s.Arranged) {n : Nat} {all : Bytes} (h : s.read b n = .ok all) :
    all.length = n ∧ ∀ j (hj : j < all.length), s.read (b + j) 1 = .ok [all[j]] := by
  obtain ⟨r, hr, hn⟩ := read_isOk.1 (show (s.read b n).isOk by rw [h]; rfl)
  have hl : s.locate b n = .ok r := locate_eq_ok_iff.2 ⟨hr, hn⟩
  rw [hs.read_of_locate hl, Except.ok.injEq] at h
  subst h
  refine ⟨by simp, fun j hj => ?_⟩
  have hjn : j < n := by simpa using hj
  rw [hs.read_one (hs.cellAt_add hr (j := j) (by omega))]
  simp

/-- What a write does, and what reads give, in every space that was built: a write that is granted is
seen at all aliases of what it covers and leaves everything else alone, one that is refused changes
nothing, and a long read gives the bytes of the short ones. -/
theorem Built.write_read (h : Built s) (a : Int) (bytes : Bytes) :
    ((s.write a bytes).isOk ↔ ∃ r, s.regionAt a = some r ∧ a + bytes.length ≤ r.stop) ∧
      (∀ t, s.write a bytes = .ok t →
        (∀ b, (s.regionAt b).isSome →
          (∀ j (hj : j < bytes.length), s.Alias b (a + j) → t.read b 1 = .ok [bytes[j]]) ∧
            ((∀ j < bytes.length, ¬ s.Alias b (a + j)) →
              ∃ x, s.read b 1 = .ok [x] ∧ t.read b 1 = .ok [x])) ∧
          t = { s with storages := t.storages }) ∧
      (∀ e, s.write a bytes = .error e →
        (e = .notMapped a ∨ ∃ r, s.regionAt a = some r ∧ e = .crossesEnd a bytes.length r.name) ∧
          ∀ host, (Operation.write a bytes).run host s = s) ∧
      ∀ b (n : Nat), ((s.read b n).isOk ↔ ∃ r, s.regionAt b = some r ∧ b + n ≤ r.stop) ∧
        ∀ all, s.read b n = .ok all →
          all.length = n ∧ ∀ j (hj : j < all.length), s.read (b + j) 1 = .ok [all[j]] := by
  have hs := h.arranged
  refine ⟨write_isOk, fun t ht => ⟨fun b hb => ⟨fun j hj => hs.read_written ht hj, fun hno => ?_⟩, ?_⟩,
    fun e he => ⟨?_, fun host => ?_⟩, fun b n => ⟨read_isOk, fun all => hs.read_getElem⟩⟩
  · obtain ⟨r, hr⟩ := Option.isSome_iff_exists.1 hb
    have hc := cellAt_of_regionAt hr
    exact ⟨_, hs.read_one hc, hs.read_unwritten ht hc hno⟩
  · obtain ⟨r, -, rfl⟩ := write_eq_ok_iff.1 ht
    rfl
  · rcases locate_eq_error_iff.1 (write_eq_error_iff.1 he) with ⟨-, rfl⟩ | ⟨r, hr, -, rfl⟩
    · exact .inl rfl
    · exact .inr ⟨r, hr, rfl⟩
  · simp only [Operation.run, he, Except.toOption, Option.getD_none]

theorem nestedMirrors_write :
    Built nestedMirrors ∧ ∃ t, nestedMirrors.write 0xA0000002 [7, 8] = .ok t ∧
      t.read 0x8000001B 1 = .ok [8] ∧ t.read 0x80000003 1 = .ok [4] ∧
      (nestedMirrors.read 0x80000001 3).isOk ∧ ¬ (nestedMirrors.read 0x103E 3).isOk := by
  obtain ⟨hgranted, hwritten, -, hread⟩ := Built.write_read built_nestedMirrors 0xA0000002 [7, 8]
  have hok : (nestedMirrors.write 0xA0000002 [7, 8]).isOk := hgranted.2 ⟨_, rfl, by decide⟩
  rcases hwrite : nestedMirrors.write 0xA0000002 [7, 8] with e | t
  · rw [hwrite] at hok
    exact absurd hok Bool.false_ne_true
  · obtain ⟨hbytes, -⟩ := hwritten t hwrite
    refine ⟨built_nestedMirrors, t, rfl, ?_, ?_, ?_, ?_⟩
    · exact (hbytes 0x8000001B (by decide)).1 1 (by decide) (by decide)
    · obtain ⟨x, hbefore, hafter⟩ := (hbytes 0x80000003 (by decide)).2 (by decide)
      have hx : nestedMirrors.read 0x80000003 1 = .ok [4] := rfl
      rw [hafter, ← hbefore, hx]
    · exact (hread 0x80000001 3).1.2 ⟨_, rfl, by decide⟩
    · rw [show (3 : Int) = (3 : Nat) from rfl, (hread 0x103E 3).1]
      rintro ⟨r, hr, hstop⟩
      obtain rfl := Option.some.inj hr
      exact absurd hstop (by decide)

end PsxExe.AddressSpace
