import PsxExe.Proofs.Space.Aliasing

/-!
# Mirrors

A mirror shows a part of the region behind the address that it repeats: the same cells of the same
storage, under the same permissions. The region behind it may be a mirror again, but was mapped earlier;
so going from a mirror to what is behind it ends at a region that owns the storage. `Faithful` collects
this, and every change of a space keeps it.
-/

namespace PsxExe.AddressSpace

variable {host : Host} {s t : AddressSpace} {m b o r q : Region} {base : Int}

def behind (s : AddressSpace) (r : Region) : Option Region := r.mirrorOf.bind s.regionAt

/-- Going from a region to the one behind it, any number of times, leads to another one. -/
def LeadsTo (s : AddressSpace) : Region → Region → Prop :=
  Relation.ReflTransGen fun r q => s.behind r = some q

/-- What a mirror of an address has in common with the region behind it. -/
structure Shows (s : AddressSpace) (m : Region) (base : Int) (b : Region) : Prop where
  mirrorOf : m.mirrorOf = some base
  found : s.regionAt base = some b
  other : b ≠ m
  within : base + m.size ≤ b.stop
  storage : m.storage = b.storage
  offset : m.offset = b.storageIndex base
  permissions : m.permissions = b.permissions
  initialized : m.initialized = b.initialized

/-- A region that covers a whole storage and is the only one besides mirrors that lies on it. -/
structure Owns (s : AddressSpace) (o : Region) : Prop where
  mem : o ∈ s.regions
  mirrorOf : o.mirrorOf = none
  offset : o.offset = 0
  size : (s.storageOf o).size = o.size
  only : ∀ q ∈ s.regions, q.mirrorOf = none → q.storage = o.storage → q = o

/-- Mirrors show what is behind them and lead to an owner, and all other regions are owners. -/
structure Faithful (s : AddressSpace) : Prop where
  shown : ∀ m ∈ s.regions, ∀ base, m.mirrorOf = some base → ∃ b, s.Shows m base b
  owned : ∀ o ∈ s.regions, o.mirrorOf = none → s.Owns o
  grounded : ∀ m ∈ s.regions, ∃ o, s.LeadsTo m o ∧ s.Owns o

theorem faithful_empty : Faithful ∅ where
  shown := fun _ h => (List.not_mem_nil h).elim
  owned := fun _ h => (List.not_mem_nil h).elim
  grounded := fun _ h => (List.not_mem_nil h).elim

/-! ### What outlasts changes -/

theorem Shows.of_keeps (h : s.Shows m base b) (ht : t.Arranged) (hk : Keeps s t) : t.Shows m base b :=
  { h with found := hk.regionAt ht h.found }

theorem LeadsTo.of_keeps (h : s.LeadsTo m o) (ht : t.Arranged) (hk : Keeps s t) : t.LeadsTo m o := by
  refine Relation.ReflTransGen.mono (fun r q hrq => ?_) m o h
  obtain ⟨base, hbase, hq⟩ := Option.bind_eq_some_iff.1 hrq
  exact Option.bind_eq_some_iff.2 ⟨base, hbase, hk.regionAt ht hq⟩

theorem Owns.of_keeps (h : s.Owns o) (hs : s.Arranged) (hk : Keeps s t)
    (hnew : ∀ r ∈ t.regions, r.mirrorOf = none → r ∈ s.regions ∨ t.Owns r) : t.Owns o where
  mem := hk.regions.subset h.mem
  mirrorOf := h.mirrorOf
  offset := h.offset
  size := by
    rw [hk.size_storageOf (hs.storage_lt h.mem)]
    exact h.size
  only := by
    intro q hq hmirror hstorage
    rcases hnew q hq hmirror with hold | howns
    · exact h.only q hold hmirror hstorage
    · exact (howns.only o (hk.regions.subset h.mem) h.mirrorOf hstorage.symm).symm

theorem Faithful.grow (h : s.Faithful) (hs : s.Arranged) (ht : t.Arranged) (hk : Keeps s t)
    (hnew : ∀ r ∈ t.regions, r ∈ s.regions ∨ t.Owns r ∨ ∃ base, ∃ b ∈ s.regions, t.Shows r base b) :
    t.Faithful := by
  have howner : ∀ o, s.Owns o → t.Owns o := by
    intro o ho
    refine ho.of_keeps hs hk fun r hr hmirror => ?_
    rcases hnew r hr with hold | howns | ⟨base, b, -, hshows⟩
    · exact .inl hold
    · exact .inr howns
    · exact absurd (hmirror.symm.trans hshows.mirrorOf) (Option.some_ne_none _).symm
  have hground : ∀ m ∈ s.regions, ∃ o, t.LeadsTo m o ∧ t.Owns o := by
    intro m hm
    obtain ⟨o, hleads, ho⟩ := h.grounded m hm
    exact ⟨o, hleads.of_keeps ht hk, howner o ho⟩
  constructor
  · intro m hm base hbase
    rcases hnew m hm with hold | howns | ⟨base', b, -, hshows⟩
    · obtain ⟨b, hb⟩ := h.shown m hold base hbase
      exact ⟨b, hb.of_keeps ht hk⟩
    · exact absurd (howns.mirrorOf.symm.trans hbase) (Option.some_ne_none _).symm
    · obtain rfl : base' = base := Option.some.inj (hshows.mirrorOf.symm.trans hbase)
      exact ⟨b, hshows⟩
  · intro o ho hmirror
    rcases hnew o ho with hold | howns | ⟨base, b, -, hshows⟩
    · exact howner o (h.owned o hold hmirror)
    · exact howns
    · exact absurd (hmirror.symm.trans hshows.mirrorOf) (Option.some_ne_none _).symm
  · intro m hm
    rcases hnew m hm with hold | howns | ⟨base, b, hb, hshows⟩
    · exact hground m hold
    · exact ⟨m, .refl, howns⟩
    · obtain ⟨o, hleads, ho⟩ := hground b hb
      have hfirst : t.behind m = some b := by
        rw [behind, hshows.mirrorOf]
        exact hshows.found
      exact ⟨o, .head hfirst hleads, ho⟩

/-! ### The changes -/

theorem Faithful.createRegion {name : String} {e : Extent} {permissions : Permissions}
    {bytes : Option Bytes} (h : s.Faithful) (hs : s.Arranged)
    (hcreate : s.createRegion host name e permissions bytes = .ok (r, t)) : t.Faithful := by
  have ht := hs.createRegion hcreate
  have hk := (createRegion_extends hcreate).keeps
  obtain ⟨hadmits, -, rfl, rfl⟩ := createRegion_eq_ok_iff.1 hcreate
  refine h.grow hs ht hk fun q hq => ?_
  rcases mem_insertRegion.1 hq with rfl | hold
  · refine .inr (.inl ⟨hq, rfl, rfl, ?_, ?_⟩)
    · have hpos : 0 < e.size := hadmits.nonempty
      simp only [storageOf, storages_insertRegion, List.getD_eq_getElem?_getD, List.getElem?_concat_length,
        Option.getD_some, size_filledStorage, Region.size]
      omega
    · intro q hq _ hstorage
      rcases mem_insertRegion.1 hq with rfl | hold
      · rfl
      · have hlt := hs.storage_lt hold
        rw [hstorage] at hlt
        exact absurd hlt (Nat.lt_irrefl _)
  · exact .inl hold

theorem Faithful.createMirror {name : String} {e : Extent} (h : s.Faithful) (hs : s.Arranged)
    (hcreate : s.createMirror name base e = .ok (r, t)) : t.Faithful := by
  have ht := hs.createMirror hcreate
  have hk := (createMirror_extends hcreate).keeps
  obtain ⟨q, hq, hwithin, hadmits, rfl, rfl⟩ := createMirror_eq_ok_iff.1 hcreate
  have hmem := (mem_of_regionAt hq).1
  refine h.grow hs ht hk fun m hm => ?_
  rcases mem_insertRegion.1 hm with rfl | hold
  · refine .inr (.inr ⟨base, q, hmem, rfl, hk.regionAt ht hq, ?_, hwithin, rfl, rfl, rfl, rfl⟩)
    intro hsame
    exact hadmits.extent_ne hmem (congrArg Region.extent hsame)
  · exact .inl hold

theorem Faithful.of_regions_eq (h : s.Faithful) (hs : s.Arranged) (hk : Keeps s t)
    (hregions : t.regions = s.regions) : t.Faithful := by
  refine h.grow hs (hs.of_keeps hk hregions) hk fun r hr => ?_
  rw [hregions] at hr
  exact .inl hr

theorem Change.faithful (hchange : Change host s t) (hs : s.Arranged) (h : s.Faithful) : t.Faithful := by
  rcases hchange.memory with ⟨_, _, _, _, _, hregion⟩ | ⟨_, _, _, _, hmirror⟩ | ⟨_, _, hwrite⟩ | hsame
  · exact h.createRegion hs hregion
  · exact h.createMirror hs hmirror
  · exact h.of_regions_eq hs (write_keeps hwrite).1 (write_keeps hwrite).2
  · exact h.of_regions_eq hs hsame.extends.keeps hsame.regions

theorem Built.faithful (h : Built s) : s.Faithful := by
  have hboth : s.Arranged ∧ s.Faithful := by
    refine h.of_changes (P := fun s => s.Arranged ∧ s.Faithful) ⟨arranged_empty, faithful_empty⟩ ?_
    intro host s t hchange hs
    exact ⟨hchange.arranged hs.1, hchange.faithful hs.1 hs.2⟩
  exact hboth.2

/-! ### What mirrors show -/

theorem Shows.regionAt (h : s.Shows m base b) (hs : s.Arranged) (hm : m ∈ s.regions) {i : Int}
    (hfrom : 0 ≤ i) (hto : i < m.size) :
    s.regionAt (m.address + i) = some m ∧ s.regionAt (base + i) = some b ∧
      m.storageIndex (m.address + i) = b.storageIndex (base + i) := by
  obtain ⟨hb, hin⟩ := mem_of_regionAt h.found
  have hin := Region.mem_extent.1 hin
  have hwithin := h.within
  have hstop := m.stop_eq
  refine ⟨hs.regionAt_of_mem hm (Region.mem_extent.2 ⟨by omega, by omega⟩),
    hs.regionAt_of_mem hb (Region.mem_extent.2 ⟨by omega, by omega⟩), ?_⟩
  rw [Region.storageIndex, h.offset, Region.storageIndex, Region.storageIndex]
  omega

theorem Shows.alias (h : s.Shows m base b) (hs : s.Arranged) (hm : m ∈ s.regions) {i : Int}
    (hfrom : 0 ≤ i) (hto : i < m.size) : s.Alias (m.address + i) (base + i) := by
  obtain ⟨hleft, hright, hindex⟩ := h.regionAt hs hm hfrom hto
  rw [Alias, cellAt_of_regionAt hleft, cellAt_of_regionAt hright, h.storage, hindex]
  exact ⟨rfl, rfl⟩

theorem Shows.read (h : s.Shows m base b) (hs : s.Arranged) (hm : m ∈ s.regions) {i : Int} {n : Nat}
    (hfrom : 0 ≤ i) (hto : i < m.size) (hn : i + n ≤ m.size) :
    ∃ bytes, s.read (m.address + i) n = .ok bytes ∧ s.read (base + i) n = .ok bytes := by
  obtain ⟨hleft, hright, hindex⟩ := h.regionAt hs hm hfrom hto
  have hwithin := h.within
  have hstop := m.stop_eq
  have hleft : s.locate (m.address + i) n = .ok m := locate_eq_ok_iff.2 ⟨hleft, by omega⟩
  have hright : s.locate (base + i) n = .ok b := locate_eq_ok_iff.2 ⟨hright, by omega⟩
  refine ⟨_, hs.read_of_locate hleft, ?_⟩
  rw [hs.read_of_locate hright, h.storage, hindex]

theorem Faithful.storage_eq (h : s.Faithful) (hleads : s.LeadsTo m o) (hm : m ∈ s.regions) :
    o ∈ s.regions ∧ m.storage = o.storage := by
  induction hleads with
  | refl => exact ⟨hm, rfl⟩
  | @tail q o _ hlast ih =>
    obtain ⟨hq, hstorage⟩ := ih
    obtain ⟨base, hbase, hfound⟩ := Option.bind_eq_some_iff.1 hlast
    obtain ⟨b, hb⟩ := h.shown q hq base hbase
    obtain rfl : b = o := Option.some.inj (hb.found.symm.trans hfound)
    exact ⟨(mem_of_regionAt hfound).1, hstorage.trans hb.storage⟩

/-- Every mirror of a space that was built shows a part of one other region, on the same storage and
with the same flags; its addresses lead to the cells of those that it repeats, and so they read alike.
Going on to what is behind ends at the region that owns the storage. -/
theorem Built.mirrors_faithful (h : Built s) (hm : m ∈ s.regions) (hbase : m.mirrorOf = some base) :
    (∃ b, s.behind m = some b ∧ s.regionAt base = some b ∧ b ≠ m ∧ base + m.size ≤ b.stop ∧
        m.storage = b.storage ∧ m.permissions = b.permissions ∧ m.initialized = b.initialized) ∧
      (∀ i, 0 ≤ i → i < m.size → s.Alias (m.address + i) (base + i)) ∧
      (∃ o, s.LeadsTo m o ∧ s.Owns o ∧ m.storage = o.storage) ∧
      ∀ i (n : Nat), 0 ≤ i → i < m.size → i + n ≤ m.size →
        ∃ bytes, s.read (m.address + i) n = .ok bytes ∧ s.read (base + i) n = .ok bytes := by
  have hs := h.arranged
  obtain ⟨b, hb⟩ := h.faithful.shown m hm base hbase
  obtain ⟨o, hleads, ho⟩ := h.faithful.grounded m hm
  refine ⟨⟨b, ?_, hb.found, hb.other, hb.within, hb.storage, hb.permissions, hb.initialized⟩,
    fun i => hb.alias hs hm, ⟨o, hleads, ho, ?_⟩, fun i n => hb.read hs hm⟩
  · rw [behind, hbase]
    exact hb.found
  · exact (h.faithful.storage_eq hleads hm).2

theorem nestedMirrors_faithful :
    Built nestedMirrors ∧ ∃ m ∈ nestedMirrors.regions, m.mirrorOf = some 0x1008 ∧
      (∃ b, nestedMirrors.behind m = some b ∧ b.mirrorOf = some 0x80000010) ∧
      (∃ o, nestedMirrors.LeadsTo m o ∧ nestedMirrors.Owns o ∧ o.name = "RAM") ∧
      nestedMirrors.Alias 0xA0000004 0x100C ∧
      ∃ bytes, nestedMirrors.read 0xA0000002 3 = .ok bytes ∧ nestedMirrors.read 0x100A 3 = .ok bytes := by
  have hm : (⟨"HIGH", ⟨0xA0000000, 0x10⟩, .all, 0, 0x18, some 0x1008, true⟩ : Region) ∈
      nestedMirrors.regions := by decide
  obtain ⟨⟨b, hbehind, hfound, -⟩, halias, ⟨o, hleads, howns, hstorage⟩, hread⟩ :=
    Built.mirrors_faithful built_nestedMirrors hm rfl
  refine ⟨built_nestedMirrors, _, hm, rfl, ⟨b, hbehind, ?_⟩, ⟨o, hleads, howns, ?_⟩,
    halias 4 (by decide) (by decide), hread 2 3 (by decide) (by decide) (by decide)⟩
  · obtain rfl := Option.some.inj hfound
    rfl
  · have hnames : ∀ r ∈ nestedMirrors.regions, r.mirrorOf = none → r.storage = 0 → r.name = "RAM" := by
      decide
    exact hnames o howns.mem howns.mirrorOf hstorage.symm

/-- Where a mirror stops, the address that it would repeat next can be mapped while its own is not; then
even a read of no bytes at all is granted at the one and refused at the other. -/
theorem nestedMirrors_read_stop :
    Built nestedMirrors ∧ ¬ ∀ m ∈ nestedMirrors.regions, ∀ base, m.mirrorOf = some base →
      ∀ i (n : Nat), 0 ≤ i → i + n ≤ m.size →
        nestedMirrors.read (m.address + i) n = nestedMirrors.read (base + i) n := by
  refine ⟨built_nestedMirrors, fun halike => ?_⟩
  have hm : (⟨"LOW", ⟨0x1000, 0x40⟩, .all, 0, 0x10, some 0x80000010, true⟩ : Region) ∈
      nestedMirrors.regions := by decide
  have hrefused : nestedMirrors.read 0x1040 0 = .error (.notMapped 0x1040) := rfl
  have hgranted : nestedMirrors.read 0x80000050 0 = .ok [] := rfl
  have hsame : nestedMirrors.read 0x1040 0 = nestedMirrors.read 0x80000050 0 :=
    halike _ hm _ rfl 0x40 0 (by decide) (by decide)
  rw [hrefused, hgranted] at hsame
  cases hsame

end PsxExe.AddressSpace
