import PsxExe.Proofs.Load.Scan
import PsxExe.Proofs.Space.Mirrors

/-!
# Matches behind mirrors

A scan skips the mirrors above its start, since what they show is scanned in the region that owns it. That is so
only if the bytes lie in the owner at the start of the scan or behind it. A scan that starts high in the address
space, in the uncached window for instance, does not come back for memory that is owned further down, and a match
which it could have seen in a mirror above its start stays unseen.
-/

namespace PsxExe

theorem IsFirst.isSome_iff {α : Type} [LE α] {P : α → Prop} {answer : Option α} (h : IsFirst P answer) :
    answer.isSome ↔ ∃ a, P a := by
  cases answer with
  | none => exact ⟨fun hsome => (by cases hsome), fun ⟨a, ha⟩ => absurd ha (h a)⟩
  | some k => exact ⟨fun _ => ⟨k, h.1⟩, fun _ => rfl⟩

namespace AddressSpace

variable {s : AddressSpace} {r o : Region} {p : Pattern} {start a : Int}

/-- A complete match that lies in a region. -/
def MatchedIn (s : AddressSpace) (p : Pattern) (r : Region) (a : Int) : Prop :=
  r ∈ s.regions ∧ r.address ≤ a ∧ a + p.length ≤ r.stop ∧ s.Matched p a

/-- The bytes of a match are matched in the region that owns them, too. -/
theorem MatchedIn.owner (h : s.MatchedIn p r a) (hs : s.Arranged) (hf : s.Faithful) (hp : p ≠ [])
    (hleads : s.LeadsTo r o) (ho : s.Owns o) : s.MatchedIn p o (o.address + r.storageIndex a) := by
  obtain ⟨hr, hfrom, hfits, hmatched⟩ := h
  have hpos : 0 < p.length := List.length_pos_iff.2 hp
  have hstorage : s.storageOf r = s.storageOf o := by
    rw [storageOf, storageOf, (hf.storage_eq hleads hr).2]
  have hregion : s.regionAt a = some r := hs.regionAt_of_mem hr (Region.mem_extent.2 ⟨hfrom, by omega⟩)
  have hbacked := hs.storageIndex_add_le hregion hfits
  rw [hstorage] at hbacked
  have hsize := ho.size
  have hstop := o.stop_eq
  have hindex : o.storageIndex (o.address + r.storageIndex a) = r.storageIndex a := by
    rw [Region.storageIndex, ho.offset]
    omega
  have hinside : o.address + r.storageIndex a + p.length ≤ o.stop := by omega
  refine ⟨ho.mem, by omega, hinside, ?_⟩
  rw [hs.matched_iff ho.mem hp (by omega) hinside, hindex, ← hstorage]
  exact (hs.matched_iff hr hp hfrom hfits).1 hmatched

theorem Owns.scanned (ho : s.Owns o) (ha : start ≤ a) (hin : a < o.stop) : s.Scanned start o := by
  refine ⟨ho.mem, ?_⟩
  by_cases habove : start < o.address
  · exact .inr ⟨habove, ho.mirrorOf⟩
  · exact .inl (Region.mem_extent.2 ⟨by omega, by omega⟩)

/-- A match that a scan finds, or whose bytes it finds in another place: it lies in the region of the start, not in
front of it, or its bytes lie in the region that owns them, not in front of the start. -/
def Findable (s : AddressSpace) (start : Int) (p : Pattern) (r : Region) (a : Int) : Prop :=
  s.MatchedIn p r a ∧
    (start ∈ r.extent ∧ start ≤ a ∨ ∃ o, s.LeadsTo r o ∧ s.Owns o ∧ start ≤ o.address + r.storageIndex a)

theorem Built.exists_matchFrom_iff (h : Built s) (hp : p ≠ []) :
    (∃ a, s.MatchFrom start p a) ↔ ∃ r a, s.Findable start p r a := by
  have hs := h.arranged
  have hpos : 0 < p.length := List.length_pos_iff.2 hp
  constructor
  · rintro ⟨a, hstart, r, ⟨hr, hscanned⟩, hfrom, hfits, hmatched⟩
    refine ⟨r, a, ⟨hr, hfrom, hfits, hmatched⟩, ?_⟩
    rcases hscanned with hin | ⟨habove, hmirror⟩
    · exact .inl ⟨hin, hstart⟩
    · refine .inr ⟨r, .refl, h.faithful.owned r hr hmirror, ?_⟩
      omega
  · rintro ⟨r, a, hmatch, hplace⟩
    rcases hplace with ⟨hin, hstart⟩ | ⟨o, hleads, ho, hstart⟩
    · obtain ⟨hr, hfrom, hfits, hmatched⟩ := hmatch
      exact ⟨a, hstart, r, ⟨hr, .inl hin⟩, hfrom, hfits, hmatched⟩
    · obtain ⟨-, hfrom, hfits, hmatched⟩ := hmatch.owner hs h.faithful hp hleads ho
      exact ⟨_, hstart, o, ho.scanned hstart (by omega), hfrom, hfits, hmatched⟩

theorem Arranged.findSignature_ok {q : Progress} (hs : q.space.Arranged) {signature : Signature}
    (hp : signature.pattern ≠ []) (hpatient : q.monitor.Patient) (hmapped : (q.space.regionAt start).isSome) :
    ∃ found, ((findSignature start signature).exec q).1 = .ok found ∧
      IsFirst (q.space.MatchFrom start signature.pattern) found := by
  have hnone : ¬ (q.space.regionAt start).isNone := by
    rw [Option.isNone_iff_eq_none]
    exact Option.isSome_iff_ne_none.1 hmapped
  refine ⟨(q.space.scanWindows start).findSome? (q.space.searchWindow signature.pattern), ?_, hs.scan_isFirst hp start⟩
  rw [findSignature_exec, if_neg hnone]
  exact searchWindows_of_patient hpatient _

/-- A scan of a space that was built, from a mapped address on, tells an address if and only if there is a match in
the region of its start, not in front of it, or one anywhere whose bytes do not lie in front of the start in the
region that owns them. -/
theorem Built.findSignature_isSome {q : Progress} (h : Built q.space) {signature : Signature}
    (hp : signature.pattern ≠ []) (hpatient : q.monitor.Patient) (hmapped : (q.space.regionAt start).isSome) :
    ∃ found, ((findSignature start signature).exec q).1 = .ok found ∧
      (found.isSome ↔ ∃ r a, q.space.Findable start signature.pattern r a) := by
  obtain ⟨found, hfound, hfirst⟩ := h.arranged.findSignature_ok hp hpatient hmapped
  exact ⟨found, hfound, hfirst.isSome_iff.trans (h.exists_matchFrom_iff hp)⟩

/-- Memory with startup code in it, and the same seen through the uncached window. -/
def uncached : AddressSpace := Operation.runAll defaultHost ∅ [
  .createRegion "RAM_B" ⟨0x80000000, 0x10⟩ .all none,
  .createRegion "CODE_B" ⟨0x80000010, 0x10⟩ .readExecute
    (some [0, 0, 0, 0, 0x40, 0, 0, 0x0C, 0, 0, 0, 0, 0x4D, 0, 0, 0]),
  .createMirror "RAM_C" 0x80000000 ⟨0xA0000000, 0x10⟩,
  .createMirror "CODE_C" 0x80000010 ⟨0xA0000010, 0x10⟩]

theorem built_uncached : Built uncached := Built.empty.runAll ..

def uncachedOwner : Region := ⟨"CODE_B", ⟨0x80000010, 0x10⟩, .readExecute, 1, 0, none, true⟩

def uncachedMirror : Region := ⟨"CODE_C", ⟨0xA0000010, 0x10⟩, .readExecute, 1, 0, some 0x80000010, true⟩

theorem uncachedMirror_matched : uncached.MatchedIn psyqMainCall.pattern uncachedMirror 0xA0000010 := by
  refine ⟨by decide, by decide, by decide, by decide⟩

/-- A scan from the cached window on finds the bytes of the match in the mirror. -/
theorem uncached_isSome :
    Built uncached ∧ psyqMainCall.pattern ≠ [] ∧ (uncached.regionAt 0x80000000).isSome ∧
      ∃ found, ((findSignature 0x80000000 psyqMainCall).exec ⟨uncached, {}, []⟩).1 = .ok found ∧ found.isSome := by
  have hpattern : psyqMainCall.pattern ≠ [] := by decide
  have hmapped : (uncached.regionAt 0x80000000).isSome := by decide
  obtain ⟨found, hfound, hiff⟩ :=
    Built.findSignature_isSome (q := ⟨uncached, {}, []⟩) built_uncached hpattern Monitor.patient_default hmapped
  have hbehind : uncached.behind uncachedMirror = some uncachedOwner := by decide
  have howns : uncached.Owns uncachedOwner := built_uncached.faithful.owned _ (by decide) rfl
  refine ⟨built_uncached, hpattern, hmapped, found, hfound, hiff.2 ⟨_, _, uncachedMirror_matched, .inr ?_⟩⟩
  exact ⟨_, .single hbehind, howns, by decide⟩

/-- From the start of the uncached window on, the match in the mirror above is not found: no scan comes back for
the region that owns its bytes. -/
theorem uncached_unseen :
    ¬ ∀ (q : Progress) (start : Int) (signature : Signature), Built q.space → (q.space.regionAt start).isSome →
      signature.pattern ≠ [] → q.monitor.Patient →
      (∃ r a, q.space.MatchedIn signature.pattern r a ∧ start ≤ a) →
      ∃ k, ((findSignature start signature).exec q).1 = .ok (some k) := by
  intro hseen
  have hpattern : psyqMainCall.pattern ≠ [] := by decide
  have hmapped : (uncached.regionAt 0xA0000000).isSome := by decide
  obtain ⟨k, hk⟩ := hseen ⟨uncached, {}, []⟩ 0xA0000000 psyqMainCall built_uncached hmapped hpattern
    Monitor.patient_default ⟨_, _, uncachedMirror_matched, by decide⟩
  obtain ⟨found, hfound, hfirst⟩ := built_uncached.arranged.findSignature_ok (q := ⟨uncached, {}, []⟩)
    hpattern Monitor.patient_default hmapped
  obtain rfl := Except.ok.inj (hk.symm.trans hfound)
  obtain ⟨⟨hstart, r, ⟨hr, hscanned⟩, -, hfits, hmatched⟩, -⟩ := hfirst
  have honly : ∀ r ∈ uncached.regions, (0xA0000000 ∈ r.extent ∨ 0xA0000000 < r.address ∧ r.mirrorOf = none) →
      r.stop = 0xA0000010 := by decide
  have hstop := honly r hr hscanned
  have hlength : psyqMainCall.pattern.length = 16 := rfl
  obtain rfl : k = 0xA0000000 := by omega
  exact absurd hmatched (by decide)

end AddressSpace

end PsxExe
