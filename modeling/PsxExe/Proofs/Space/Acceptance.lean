import PsxExe.Proofs.Space.Aliasing
import PsxExe.Proofs.Space.Grants

/-!
# Which ranges are accepted

The checks on a new range compare it with the regions one by one. What they decide is a matter of single
addresses: the numbers of the range are in order, and no address in it is mapped. A mirror needs besides a
region that holds all the bytes that it should repeat, which is looked at first. The module says for
every space that was built when a region or a mirror is accepted, which kind of refusal a caller sees
otherwise, and what is mapped afterwards.
-/

namespace PsxExe

/-- The range has addresses, and the processor can form all of them. -/
def Extent.Proper (e : Extent) : Prop := 0 < e.size ∧ 0 ≤ e.address ∧ e.stop ≤ addressLimit

instance (e : Extent) : Decidable e.Proper :=
  inferInstanceAs (Decidable (0 < e.size ∧ 0 ≤ e.address ∧ e.stop ≤ addressLimit))

namespace AddressSpace

variable {host : Host} {s t : AddressSpace} {r : Region} {a base : Int} {e : Extent} {name : String}
  {permissions : Permissions} {bytes : Option Bytes} {cause : SpaceError}

def Free (s : AddressSpace) (e : Extent) : Prop := ∀ a ∈ e, s.regionAt a = none

/-- One region holds `size` bytes from an address on. -/
def Covers (s : AddressSpace) (base size : Int) : Prop :=
  ∃ r ∈ s.regions, base ∈ r.extent ∧ base + size ≤ r.stop

/-! ### Ranges and their addresses -/

theorem Arranged.unmapped_iff (h : s.Arranged) (hsize : 0 < e.size) : s.Unmapped e ↔ s.Free e := by
  constructor
  · intro hunmapped a ha
    refine regionAt_eq_none_iff.2 fun r hr har => ?_
    exact hunmapped r hr (Extent.overlaps_of_mem ha har)
  · intro hfree r hr hoverlaps
    -- Neither range is empty, so two that reach into each other have an address in common.
    obtain ⟨a, ha, har⟩ : e.Meets r.extent := Extent.meets_iff.2 ⟨hsize, h.nonempty r hr, hoverlaps⟩
    exact regionAt_eq_none_iff.1 (hfree a ha) r hr har

theorem Arranged.admits_iff (h : s.Arranged) : s.Admits e ↔ e.Proper ∧ s.Free e := by
  constructor
  · intro hadmits
    exact ⟨⟨hadmits.nonempty, hadmits.inside⟩, (h.unmapped_iff hadmits.nonempty).1 hadmits.unmapped⟩
  · rintro ⟨⟨hsize, hinside⟩, hfree⟩
    exact ⟨hsize, hinside, (h.unmapped_iff hsize).2 hfree⟩

theorem Arranged.covers_iff (h : s.Arranged) {size : Int} :
    s.Covers base size ↔ ∃ r, s.regionAt base = some r ∧ base + size ≤ r.stop := by
  simp only [Covers, h.regionAt_eq_some_iff, and_assoc]

theorem Arranged.regionAt_join (ht : t.Arranged)
    (hjoin : ∀ q, q ∈ t.regions ↔ q = r ∨ q ∈ s.regions) (a : Int) :
    t.regionAt a = if a ∈ r.extent then some r else s.regionAt a := by
  by_cases ha : a ∈ r.extent
  · rw [if_pos ha]
    exact ht.regionAt_of_mem ((hjoin r).2 (.inl rfl)) ha
  · rw [if_neg ha]
    rcases hold : s.regionAt a with _ | q
    · refine regionAt_eq_none_iff.2 fun q hq => ?_
      rcases (hjoin q).1 hq with rfl | hmem
      · exact ha
      · exact regionAt_eq_none_iff.1 hold q hmem
    · obtain ⟨hmem, hin⟩ := mem_of_regionAt hold
      exact ht.regionAt_of_mem ((hjoin q).2 (.inr hmem)) hin

/-! ### Refusals -/

/-- The checks of a range in their order, and what each reports. -/
theorem checkRange_eq_error_iff :
    s.checkRange name e = .error cause ↔
      (e.size ≤ 0 ∧ cause = .sizeNotPositive name e.size) ∨
        (0 < e.size ∧ ¬ e.InAddressSpace ∧ cause = .outsideAddressSpace name e) ∨
          (e.Proper ∧ ∃ q, s.regions.find? (fun r => decide (e.Overlaps r.extent)) = some q ∧
            cause = .overlap name e q.name q.extent) := by
  rw [checkRange, show e.Proper ↔ 0 < e.size ∧ e.InAddressSpace from Iff.rfl]
  by_cases hsize : e.size ≤ 0
  · simp [hsize, Int.not_lt.2 hsize, eq_comm]
  · have hpos := Int.not_le.1 hsize
    by_cases hinside : e.InAddressSpace
    · simp only [hsize, hpos, hinside, if_false, not_true_eq_false, false_and, and_false,
        false_or, true_and]
      cases s.regions.find? fun r => decide (e.Overlaps r.extent) <;> simp [eq_comm]
    · simp [hsize, hpos, hinside, eq_comm]

theorem Arranged.checkRange_kind (h : s.Arranged) (hrefused : s.checkRange name e = .error cause) :
    (¬ e.Proper ∧ cause.kind = .value) ∨ (e.Proper ∧ ¬ s.Free e ∧ cause.kind = .conflict) := by
  rcases checkRange_eq_error_iff.1 hrefused with ⟨hsize, rfl⟩ | ⟨-, hout, rfl⟩ | ⟨hproper, q, hfound, rfl⟩
  · exact .inl ⟨fun hproper => absurd hproper.1 (Int.not_lt.2 hsize), rfl⟩
  · exact .inl ⟨fun hproper => hout hproper.2, rfl⟩
  · refine .inr ⟨hproper, fun hfree => ?_, rfl⟩
    have hoverlaps : e.Overlaps q.extent := by simpa using List.find?_some hfound
    exact (h.unmapped_iff hproper.1).2 hfree q (List.mem_of_find?_eq_some hfound) hoverlaps

theorem createRegion_eq_error_iff :
    s.createRegion host name e permissions bytes = .error cause ↔
      s.checkRange name e = .error cause ∨
        (s.Admits e ∧ host.allocationLimit < e.size ∧ cause = .cannotAllocate name e.size "") := by
  rw [createRegion, host.storageFor_eq, show s.Admits e ↔ s.checkRange name e = .ok () from checkRange_eq_ok_iff.symm]
  rcases s.checkRange name e with refusal | _
  · simp [bind, Except.bind]
  · by_cases hlimit : host.allocationLimit < e.size <;>
      simp [hlimit, bind, Except.bind, pure, Except.pure, eq_comm]

/-- Where a mirror would look is settled before its own range is. -/
theorem createMirror_eq_error_iff :
    s.createMirror name base e = .error cause ↔
      (s.regionAt base = none ∧ cause = .noMirrorBase name base) ∨
        ∃ q, s.regionAt base = some q ∧
          ((q.stop < base + e.size ∧ cause = .mirrorRunsPast name e.size base q.name) ∨
            (base + e.size ≤ q.stop ∧ s.checkRange name e = .error cause)) := by
  rw [createMirror]
  rcases s.regionAt base with _ | q
  · simp [eq_comm]
  · by_cases hpast : q.stop < base + e.size
    · simp [hpast, Int.not_le.2 hpast, eq_comm]
    · rcases s.checkRange name e with refusal | _ <;>
        simp [hpast, Int.not_lt.1 hpast, bind, Except.bind, pure, Except.pure]

theorem Arranged.createRegion_kind (h : s.Arranged)
    (hrefused : s.createRegion host name e permissions bytes = .error cause) :
    (¬ e.Proper ∧ cause.kind = .value) ∨ (e.Proper ∧ ¬ s.Free e ∧ cause.kind = .conflict) ∨
      (e.Proper ∧ s.Free e ∧ cause.kind = .memory) := by
  rcases createRegion_eq_error_iff.1 hrefused with hcheck | ⟨hadmits, -, rfl⟩
  · rcases h.checkRange_kind hcheck with hvalue | hconflict
    · exact .inl hvalue
    · exact .inr (.inl hconflict)
  · obtain ⟨hproper, hfree⟩ := h.admits_iff.1 hadmits
    exact .inr (.inr ⟨hproper, hfree, rfl⟩)

theorem Arranged.createMirror_kind (h : s.Arranged) (hrefused : s.createMirror name base e = .error cause) :
    (¬ s.Covers base e.size ∧ cause.kind = .memory) ∨
      (s.Covers base e.size ∧ ¬ e.Proper ∧ cause.kind = .value) ∨
        (s.Covers base e.size ∧ e.Proper ∧ ¬ s.Free e ∧ cause.kind = .conflict) := by
  simp only [h.covers_iff]
  rcases createMirror_eq_error_iff.1 hrefused with ⟨hnone, rfl⟩ | ⟨q, hq, ⟨hpast, rfl⟩ | ⟨hwithin, hcheck⟩⟩
  · exact .inl ⟨by simp [hnone], rfl⟩
  · exact .inl ⟨by simpa [hq] using hpast, rfl⟩
  · rcases h.checkRange_kind hcheck with hvalue | hconflict
    · exact .inr (.inl ⟨⟨q, hq, hwithin⟩, hvalue⟩)
    · exact .inr (.inr ⟨⟨q, hq, hwithin⟩, hconflict⟩)

/-! ### Acceptance -/

theorem Arranged.createRegion_isOk (h : s.Arranged) :
    (s.createRegion host name e permissions bytes).isOk ↔
      e.Proper ∧ s.Free e ∧ e.size ≤ host.allocationLimit := by
  rw [← and_assoc, ← h.admits_iff]
  rcases hcreate : s.createRegion host name e permissions bytes with refusal | ⟨r, t⟩
  · have hno := createRegion_error_iff.1 ⟨refusal, hcreate⟩
    exact ⟨fun hok => absurd hok Bool.false_ne_true, fun hgrants => absurd ⟨hgrants.1, hgrants.2⟩ hno⟩
  · obtain ⟨hadmits, hsize, -⟩ := createRegion_eq_ok_iff.1 hcreate
    exact ⟨fun _ => ⟨hadmits, hsize⟩, fun _ => rfl⟩

theorem Arranged.createMirror_isOk (h : s.Arranged) :
    (s.createMirror name base e).isOk ↔ s.Covers base e.size ∧ e.Proper ∧ s.Free e := by
  rw [h.covers_iff, ← h.admits_iff]
  constructor
  · intro hok
    rcases hcreate : s.createMirror name base e with refusal | ⟨r, t⟩
    · rw [hcreate] at hok
      exact absurd hok Bool.false_ne_true
    · obtain ⟨q, hq, hwithin, hadmits, -⟩ := createMirror_eq_ok_iff.1 hcreate
      exact ⟨⟨q, hq, hwithin⟩, hadmits⟩
  · rintro ⟨⟨q, hq, hwithin⟩, hadmits⟩
    rw [createMirror_eq_ok_iff.2 ⟨q, hq, hwithin, hadmits, rfl, rfl⟩]
    rfl

/-- A region is accepted exactly if its numbers are in order, none of its addresses is mapped and the
machine has the storage; a mirror, if some region holds all that it repeats, its numbers are in order and
none of its addresses is mapped. A refusal is of the kind that the first condition missed asks for, and
leaves the space as it was. After an acceptance the new range is mapped as well, and every other
address is what it was. -/
theorem Built.acceptance (h : Built s) (host : Host) (name : String) (e : Extent) :
    (∀ permissions bytes,
      ((s.createRegion host name e permissions bytes).isOk ↔
        e.Proper ∧ s.Free e ∧ e.size ≤ host.allocationLimit) ∧
      (∀ cause, s.createRegion host name e permissions bytes = .error cause →
        ((¬ e.Proper ∧ cause.kind = .value) ∨ (e.Proper ∧ ¬ s.Free e ∧ cause.kind = .conflict) ∨
          (e.Proper ∧ s.Free e ∧ cause.kind = .memory)) ∧
        (Operation.createRegion name e permissions bytes).run host s = s) ∧
      ∀ r t, s.createRegion host name e permissions bytes = .ok (r, t) →
        r.extent = e ∧ ∀ a, t.regionAt a = if a ∈ e then some r else s.regionAt a) ∧
    ∀ base,
      ((s.createMirror name base e).isOk ↔ s.Covers base e.size ∧ e.Proper ∧ s.Free e) ∧
      (∀ cause, s.createMirror name base e = .error cause →
        ((¬ s.Covers base e.size ∧ cause.kind = .memory) ∨
          (s.Covers base e.size ∧ ¬ e.Proper ∧ cause.kind = .value) ∨
            (s.Covers base e.size ∧ e.Proper ∧ ¬ s.Free e ∧ cause.kind = .conflict)) ∧
        (Operation.createMirror name base e).run host s = s) ∧
      ∀ r t, s.createMirror name base e = .ok (r, t) →
        r.extent = e ∧ ∀ a, t.regionAt a = if a ∈ e then some r else s.regionAt a := by
  have hs := h.arranged
  refine ⟨fun permissions bytes => ⟨hs.createRegion_isOk, fun cause hrefused => ?_, fun r t hcreate => ?_⟩,
    fun base => ⟨hs.createMirror_isOk, fun cause hrefused => ?_, fun r t hcreate => ?_⟩⟩
  · refine ⟨hs.createRegion_kind hrefused, ?_⟩
    simp only [Operation.run, hrefused, Except.map, Except.toOption, Option.getD_none]
  · have ht := hs.createRegion hcreate
    obtain ⟨-, -, rfl, rfl⟩ := createRegion_eq_ok_iff.1 hcreate
    exact ⟨rfl, ht.regionAt_join fun q => mem_insertRegion⟩
  · refine ⟨hs.createMirror_kind hrefused, ?_⟩
    simp only [Operation.run, hrefused, Except.map, Except.toOption, Option.getD_none]
  · have ht := hs.createMirror hcreate
    obtain ⟨q, -, -, -, rfl, rfl⟩ := createMirror_eq_ok_iff.1 hcreate
    exact ⟨rfl, ht.regionAt_join fun q => mem_insertRegion⟩

/-- Right behind `LOW` there is room; one address earlier there is none. -/
theorem nestedMirrors_acceptance :
    Built nestedMirrors ∧ nestedMirrors.Free ⟨0x1040, 0x10⟩ ∧
      (∃ r t, nestedMirrors.createMirror "NEXT" 0x1030 ⟨0x1040, 0x10⟩ = .ok (r, t) ∧
        t.regionAt 0x104F = some r ∧ t.regionAt 0x1050 = none) ∧
      (∃ cause, nestedMirrors.createMirror "NEXT" 0x1031 ⟨0x1040, 0x10⟩ = .error cause ∧
        cause.kind = .memory) ∧
      ∃ cause, nestedMirrors.createRegion defaultHost "NEXT" ⟨0x103F, 0x10⟩ .all none = .error cause ∧
        cause.kind = .conflict ∧
        (Operation.createRegion "NEXT" ⟨0x103F, 0x10⟩ .all none).run defaultHost nestedMirrors =
          nestedMirrors := by
  obtain ⟨-, hmirror⟩ := Built.acceptance built_nestedMirrors defaultHost "NEXT" ⟨0x1040, 0x10⟩
  obtain ⟨hregion, -⟩ := Built.acceptance built_nestedMirrors defaultHost "NEXT" ⟨0x103F, 0x10⟩
  have haccepted : (nestedMirrors.createMirror "NEXT" 0x1030 ⟨0x1040, 0x10⟩).isOk := by decide
  refine ⟨built_nestedMirrors, ((hmirror 0x1030).1.1 haccepted).2.2, ?_, ⟨_, rfl, ?_⟩, ⟨_, rfl, ?_⟩⟩
  · obtain ⟨-, hmapped⟩ := (hmirror 0x1030).2.2 _ _ rfl
    exact ⟨_, _, rfl, hmapped 0x104F, hmapped 0x1050⟩
  · rcases ((hmirror 0x1031).2.1 _ rfl).1 with ⟨-, hkind⟩ | ⟨hcovers, -⟩ | ⟨hcovers, -⟩
    · exact hkind
    all_goals
      obtain ⟨q, hq, hwithin⟩ := built_nestedMirrors.arranged.covers_iff.1 hcovers
      obtain rfl := Option.some.inj hq
      exact absurd hwithin (by decide)
  · obtain ⟨hkind, hunchanged⟩ := (hregion .all none).2.1 _ rfl
    refine ⟨?_, hunchanged⟩
    rcases hkind with ⟨himproper, -⟩ | ⟨-, -, hconflict⟩ | ⟨-, hfree, -⟩
    · exact absurd (by decide) himproper
    · exact hconflict
    · exact absurd (hfree 0x103F (by decide)) (by decide)

end AddressSpace

end PsxExe
