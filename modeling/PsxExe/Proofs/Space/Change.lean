import Mathlib.Logic.Relation
import PsxExe.Proofs.Space.Memory
import PsxExe.Space.Listing

/-!
# Changes of an address space

All that ever happens to an address space is a sequence of a few changes, and `Change` lists them. Only
three of them touch memory: a new region, a new mirror and a write. None takes a region away or gives it
other fields, none makes a storage shorter or longer, and all keep the regions arranged.
-/

namespace PsxExe.AddressSpace

variable {host : Host} {s t u : AddressSpace} {r q : Region} {a : Int}

/-- Every region is still there with the same fields, in the same order, on a storage of the same size.
-/
structure Keeps (s t : AddressSpace) : Prop where
  regions : s.regions.Sublist t.regions
  sizes : s.storages.map (·.size) <+: t.storages.map (·.size)

/-- Every region is still there, and so is every storage with its bytes. -/
structure Extends (s t : AddressSpace) : Prop where
  regions : s.regions.Sublist t.regions
  storages : s.storages <+: t.storages

/-- The regions and storages are the same; what is noted down about them may differ. -/
structure SameMemory (s t : AddressSpace) : Prop where
  regions : t.regions = s.regions
  storages : t.storages = s.storages

theorem Keeps.refl (s : AddressSpace) : Keeps s s := ⟨List.Sublist.refl _, List.prefix_rfl⟩

theorem Keeps.trans (h : Keeps s t) (h' : Keeps t u) : Keeps s u :=
  ⟨h.regions.trans h'.regions, h.sizes.trans h'.sizes⟩

theorem Extends.refl (s : AddressSpace) : Extends s s := ⟨List.Sublist.refl _, List.prefix_rfl⟩

theorem Extends.trans (h : Extends s t) (h' : Extends t u) : Extends s u :=
  ⟨h.regions.trans h'.regions, h.storages.trans h'.storages⟩

theorem Extends.keeps (h : Extends s t) : Keeps s t := ⟨h.regions, h.storages.map _⟩

theorem SameMemory.extends (h : SameMemory s t) : Extends s t := by
  refine ⟨?_, ?_⟩
  · rewrite [h.regions]
    exact List.Sublist.refl _
  · rewrite [h.storages]
    exact List.prefix_rfl

theorem Keeps.size_storageOf (h : Keeps s t) (hr : r.storage < s.storages.length) :
    (t.storageOf r).size = (s.storageOf r).size := by
  have hlen : (s.storages.map (·.size)).length ≤ (t.storages.map (·.size)).length := h.sizes.length_le
  simp only [List.length_map] at hlen
  have hsize := h.sizes.getElem (i := r.storage) (by simpa using hr)
  simp only [List.getElem_map] at hsize
  simp only [storageOf, List.getD_eq_getElem?_getD, List.getElem?_eq_getElem hr,
    List.getElem?_eq_getElem (Nat.lt_of_lt_of_le hr hlen), Option.getD_some]
  exact hsize.symm

theorem Extends.byteIn (h : Extends s t) {c : Cell} (hc : c.storage < s.storages.length) :
    t.byteIn c = s.byteIn c := by
  obtain ⟨more, hmore⟩ := h.storages
  simp only [AddressSpace.byteIn, ← hmore, List.getD_eq_getElem?_getD, List.getElem?_append_left hc]

theorem Keeps.regionAt (h : Keeps s t) (ht : t.Arranged) (hr : s.regionAt a = some r) :
    t.regionAt a = some r := by
  obtain ⟨hmem, ha⟩ := mem_of_regionAt hr
  exact ht.regionAt_of_mem (h.regions.subset hmem) ha

theorem Arranged.of_keeps (hs : s.Arranged) (h : Keeps s t) (hregions : t.regions = s.regions) :
    t.Arranged where
  ascending := hregions ▸ hs.ascending
  apart := hregions ▸ hs.apart
  nonempty := hregions ▸ hs.nonempty
  inside := hregions ▸ hs.inside
  backed := by
    intro r hr
    rw [hregions] at hr
    rw [h.size_storageOf (hs.storage_lt hr)]
    exact hs.backed r hr

/-! ### New regions and mirrors -/

theorem createRegion_extends {name : String} {e : Extent} {permissions : Permissions} {bytes : Option Bytes}
    (h : s.createRegion host name e permissions bytes = .ok (r, t)) : Extends s t := by
  obtain ⟨-, -, -, rfl⟩ := createRegion_eq_ok_iff.1 h
  exact ⟨sublist_insertBy .., List.prefix_append ..⟩

theorem createMirror_extends {name : String} {base : Int} {e : Extent}
    (h : s.createMirror name base e = .ok (r, t)) : Extends s t := by
  obtain ⟨-, -, -, -, -, rfl⟩ := createMirror_eq_ok_iff.1 h
  exact ⟨sublist_insertBy .., List.prefix_rfl⟩

theorem Arranged.createRegion {name : String} {e : Extent} {permissions : Permissions} {bytes : Option Bytes}
    (hs : s.Arranged) (h : s.createRegion host name e permissions bytes = .ok (r, t)) : t.Arranged := by
  obtain ⟨hadmits, -, rfl, rfl⟩ := createRegion_eq_ok_iff.1 h
  have hmore : Keeps s { s with storages := s.storages ++ [filledStorage e.size bytes] } :=
    Extends.keeps ⟨List.Sublist.refl _, List.prefix_append ..⟩
  refine (hs.of_keeps hmore rfl).insertRegion ⟨hadmits.nonempty, hadmits.inside, hadmits.unmapped⟩ ?_
  have hsize : 0 < e.size := hadmits.nonempty
  simp only [storageOf, List.getD_eq_getElem?_getD, List.getElem?_concat_length, Option.getD_some,
    size_filledStorage, Region.size]
  omega

theorem Arranged.createMirror {name : String} {base : Int} {e : Extent}
    (hs : s.Arranged) (h : s.createMirror name base e = .ok (r, t)) : t.Arranged := by
  obtain ⟨q, hq, hpast, hadmits, rfl, rfl⟩ := createMirror_eq_ok_iff.1 h
  refine hs.insertRegion ⟨hadmits.nonempty, hadmits.inside, hadmits.unmapped⟩ ?_
  have hsize : 0 < e.size := hadmits.nonempty
  have hbound := hs.storageIndex_add_le (n := e.size.toNat) hq (by omega)
  simp only [storageOf, Region.size] at hbound ⊢
  omega

/-! ### Writes -/

theorem write_keeps {bytes : Bytes} (h : s.write a bytes = .ok t) : Keeps s t ∧ t.regions = s.regions := by
  obtain ⟨r, -, rfl⟩ := write_eq_ok_iff.1 h
  refine ⟨⟨List.Sublist.refl _, ?_⟩, rfl⟩
  have hsizes : (s.storages.modify r.storage (·.write (r.storageIndex a) bytes)).map (·.size) =
      s.storages.map (·.size) := by
    apply List.ext_getElem?
    intro i
    rw [List.getElem?_map, List.getElem?_map, List.getElem?_modify]
    rcases s.storages[i]? with _ | st
    · rfl
    · by_cases hi : r.storage = i <;> simp [hi]
  rewrite [hsizes]
  exact List.prefix_rfl

/-! ### Notes -/

theorem createData_eq_ok_iff {width count : Int} :
    s.createData a width count = .ok t ↔
      width ∈ [8, 16, 32] ∧ (∃ r, s.locate a (width / 8 * count) = .ok r) ∧
        t = { s with data := s.data.insert a ⟨width, count⟩ } := by
  rw [createData]
  by_cases hwidth : width ∈ [8, 16, 32]
  · simp only [hwidth, not_true_eq_false, if_false, true_and]
    cases s.locate a (width / 8 * count) <;> simp [bind, Except.bind, pure, Except.pure, eq_comm]
  · simp [hwidth, bind, Except.bind]

theorem createLabel_eq {name : String} {kind : LabelKind} :
    s.createLabel a name kind =
      match s.labels.add ⟨a, name, kind, s.regionNameAt a⟩ with
      | .ok (l, labels) => .ok (l, { s with labels })
      | .error e => .error (.label e) := by
  rw [createLabel]
  rcases s.labels.add ⟨a, name, kind, s.regionNameAt a⟩ with e | ⟨l, labels⟩ <;> rfl

theorem createLabel_eq_ok_iff {name : String} {kind : LabelKind} {l : Label} :
    s.createLabel a name kind = .ok (l, t) ↔
      ∃ labels, s.labels.add ⟨a, name, kind, s.regionNameAt a⟩ = .ok (l, labels) ∧ t = { s with labels } := by
  rw [createLabel_eq]
  rcases s.labels.add ⟨a, name, kind, s.regionNameAt a⟩ with e | ⟨k, labels⟩
  · simp
  · simp only [Except.ok.injEq, Prod.mk.injEq]
    constructor
    · rintro ⟨rfl, rfl⟩
      exact ⟨labels, ⟨rfl, rfl⟩, rfl⟩
    · rintro ⟨_, ⟨rfl, rfl⟩, rfl⟩
      exact ⟨rfl, rfl⟩

theorem createLabel_error {name : String} {kind : LabelKind} {e : SpaceError}
    (h : s.createLabel a name kind = .error e) : e.kind = .label := by
  rw [createLabel_eq] at h
  split at h
  next => cases h
  next cause _ => rw [← Except.error.inj h]; rfl

theorem createFunction_eq {name : String} :
    s.createFunction a name =
      match s.createLabel a name .function with
      | .ok (_, u) => .ok { u with functions := u.functions.insert a name }
      | .error e => .error e := by
  rw [createFunction]
  rcases s.createLabel a name .function with e | ⟨l, u⟩ <;> rfl

theorem createFunction_eq_ok_iff {name : String} :
    s.createFunction a name = .ok t ↔
      ∃ l u, s.createLabel a name .function = .ok (l, u) ∧
        t = { u with functions := u.functions.insert a name } := by
  rw [createFunction_eq]
  rcases s.createLabel a name .function with e | ⟨l, u⟩
  · simp
  · simp only [Except.ok.injEq, Prod.mk.injEq]
    constructor
    · rintro rfl
      exact ⟨l, u, ⟨rfl, rfl⟩, rfl⟩
    · rintro ⟨_, _, ⟨rfl, rfl⟩, rfl⟩
      rfl

theorem createLabel_sameMemory {name : String} {kind : LabelKind} {l : Label}
    (h : s.createLabel a name kind = .ok (l, t)) : SameMemory s t := by
  obtain ⟨labels, -, rfl⟩ := createLabel_eq_ok_iff.1 h
  exact ⟨rfl, rfl⟩

theorem createData_sameMemory {width count : Int} (h : s.createData a width count = .ok t) :
    SameMemory s t := by
  obtain ⟨-, -, rfl⟩ := createData_eq_ok_iff.1 h
  exact ⟨rfl, rfl⟩

/-- The instruction at an address, and the space in which it is noted down. -/
def decoded (s : AddressSpace) (host : Host) (a : Int) : Option Instruction × AddressSpace :=
  match s.regionAt a with
  | none => (none, s)
  | some r =>
    let code := ((s.read a (min (r.stop - a) 4)).toOption).getD []
    match host.decoder code a with
    | none => (none, s)
    | some i => (some i, { s with instructions := s.instructions.insert a i })

/-- No more is read for an instruction than the region of its address holds, so reading does not fail. -/
theorem read_instruction (hr : s.regionAt a = some r) : ∃ code, s.read a (min (r.stop - a) 4) = .ok code := by
  have hfits : ¬ r.stop < a + min (r.stop - a) 4 := by omega
  rw [read, locate, hr]
  simp only [if_neg hfits]
  exact ⟨_, rfl⟩

theorem disassemble_eq (s : AddressSpace) (host : Host) (a : Int) : s.disassemble host a = .ok (s.decoded host a) := by
  rw [disassemble, decoded]
  cases hr : s.regionAt a with
  | none => rfl
  | some r =>
    obtain ⟨code, hcode⟩ := read_instruction hr
    simp only [hcode, Except.toOption, Option.getD_some, bind, Except.bind]
    cases host.decoder code a <;> rfl

theorem decoded_sameMemory (a : Int) : SameMemory s (s.decoded host a).2 := by
  rw [decoded]
  split
  · exact ⟨rfl, rfl⟩
  · dsimp only
    split <;> exact ⟨rfl, rfl⟩

/-! ### The changes -/

inductive Change (host : Host) (s : AddressSpace) : AddressSpace → Prop
  | region {name : String} {e : Extent} {permissions : Permissions} {bytes : Option Bytes} {r : Region}
      {t : AddressSpace} (h : s.createRegion host name e permissions bytes = .ok (r, t)) : Change host s t
  | mirror {name : String} {base : Int} {e : Extent} {r : Region} {t : AddressSpace}
      (h : s.createMirror name base e = .ok (r, t)) : Change host s t
  | write {a : Int} {bytes : Bytes} {t : AddressSpace} (h : s.write a bytes = .ok t) : Change host s t
  | data {a width count : Int} {t : AddressSpace} (h : s.createData a width count = .ok t) : Change host s t
  | label {a : Int} {name : String} {kind : LabelKind} {l : Label} {t : AddressSpace}
      (h : s.createLabel a name kind = .ok (l, t)) : Change host s t
  | function {a : Int} {name : String} {t : AddressSpace} (h : s.createFunction a name = .ok t) :
      Change host s t
  | entryPoint (a : Int) : Change host s (s.addEntryPoint a)
  | register (name : String) (value : Int) : Change host s (s.setRegister name value)
  | instruction (a : Int) : Change host s (s.decoded host a).2

abbrev Changes (host : Host) : AddressSpace → AddressSpace → Prop := Relation.ReflTransGen (Change host)

theorem Change.memory (h : Change host s t) :
    (∃ name e permissions bytes r, s.createRegion host name e permissions bytes = .ok (r, t)) ∨
      (∃ name base e r, s.createMirror name base e = .ok (r, t)) ∨
      (∃ a bytes, s.write a bytes = .ok t) ∨ SameMemory s t := by
  cases h with
  | region h => exact .inl ⟨_, _, _, _, _, h⟩
  | mirror h => exact .inr (.inl ⟨_, _, _, _, h⟩)
  | write h => exact .inr (.inr (.inl ⟨_, _, h⟩))
  | data h => exact .inr (.inr (.inr (createData_sameMemory h)))
  | label h => exact .inr (.inr (.inr (createLabel_sameMemory h)))
  | function h =>
    obtain ⟨_, u, hu, rfl⟩ := createFunction_eq_ok_iff.1 h
    obtain ⟨hregions, hstorages⟩ := createLabel_sameMemory hu
    exact .inr (.inr (.inr ⟨hregions, hstorages⟩))
  | entryPoint a =>
    refine .inr (.inr (.inr ?_))
    rw [addEntryPoint]
    split <;> exact ⟨rfl, rfl⟩
  | register => exact .inr (.inr (.inr ⟨rfl, rfl⟩))
  | instruction a => exact .inr (.inr (.inr (decoded_sameMemory a)))

theorem Change.keeps (h : Change host s t) : Keeps s t := by
  rcases h.memory with ⟨_, _, _, _, _, h⟩ | ⟨_, _, _, _, h⟩ | ⟨_, _, h⟩ | h
  · exact (createRegion_extends h).keeps
  · exact (createMirror_extends h).keeps
  · exact (write_keeps h).1
  · exact h.extends.keeps

theorem Change.arranged (h : Change host s t) (hs : s.Arranged) : t.Arranged := by
  rcases h.memory with ⟨_, _, _, _, _, h⟩ | ⟨_, _, _, _, h⟩ | ⟨_, _, h⟩ | h
  · exact hs.createRegion h
  · exact hs.createMirror h
  · exact hs.of_keeps (write_keeps h).1 (write_keeps h).2
  · exact hs.of_keeps h.extends.keeps h.regions

theorem Changes.keeps (h : Changes host s t) : Keeps s t := by
  induction h with
  | refl => exact Keeps.refl _
  | tail _ hlast ih => exact ih.trans hlast.keeps

/-- What outlasts every change outlasts all of them in a row. -/
theorem Changes.preserves {P : AddressSpace → Prop} (h : Changes host s t)
    (hchange : ∀ s t, Change host s t → P s → P t) (hs : P s) : P t := by
  induction h with
  | refl => exact hs
  | tail _ hlast ih => exact hchange _ _ hlast ih

theorem Changes.arranged (h : Changes host s t) (hs : s.Arranged) : t.Arranged :=
  h.preserves (fun _ _ hchange hs => hchange.arranged hs) hs

end PsxExe.AddressSpace
