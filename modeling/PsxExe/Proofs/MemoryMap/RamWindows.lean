import PsxExe.MemoryMap.Build
import PsxExe.Proofs.MemoryMap.Realize

/-!
# One memory behind three windows

When the code of an executable lies in the RAM, its memory map lays three pieces end to end over the
cached window and repeats each of them in the other two. The pieces are mapped in ascending order, so
each finds its place free in every window. In the end the windows show the same cells of the same
storages, with the same permissions; and as nothing ever takes a region away or alters it, they do so
ever after.
-/

namespace PsxExe

theorem Bytes.getD_slice (bytes : Bytes) (start : Nat) {size : Int} {i : Nat} (hi : i < size) :
    (bytes.slice start (start + size)).getD i 0 = bytes.getD (start + i) 0 := by
  have hfirst : position bytes.length start = min start bytes.length := by
    rw [position, if_neg (by omega), Int.toNat_natCast]
  have hlast : position bytes.length (start + size) = min (start + size).toNat bytes.length := by
    rw [position, if_neg (by omega)]
  simp only [slice, hfirst, hlast, List.getD_eq_getElem?_getD, List.getElem?_take, List.getElem?_drop]
  by_cases hin : start + i < bytes.length
  · rw [if_pos (by omega), Nat.min_eq_left (by omega)]
  · rw [List.getElem?_eq_none (by omega : bytes.length ≤ start + i)]
    split
    · rw [List.getElem?_eq_none (by omega)]
    · rfl

/-! ### Windows -/

namespace Window

/-- The part of a window that starts at a distance from its base. -/
def part (w : Window) (start size : Int) : Extent := ⟨w.base + start, size⟩

theorem apart {w v : Window} (h : w ≠ v) : w.base + ramSize ≤ v.base ∨ v.base + ramSize ≤ w.base := by
  cases w <;> cases v <;> first | exact absurd rfl h | decide

/-- A part that is not empty and does not reach out of the windows. -/
structure Fits (start size : Int) : Prop where
  nonempty : 0 < size
  start_nonneg : 0 ≤ start
  stop_le : start + size ≤ ramSize

theorem Fits.inAddressSpace {start size : Int} (h : Fits start size) (w : Window) :
    (w.part start size).InAddressSpace := by
  have hbase : 0 ≤ w.base ∧ w.base + ramSize ≤ addressLimit := by cases w <;> decide
  have hstart := h.start_nonneg
  have hstop := h.stop_le
  refine ⟨?_, ?_⟩
  · change 0 ≤ w.base + start
    omega
  · change w.base + start + size ≤ addressLimit
    omega

/-- An address of the cached window keeps its distance from the base when it is carried over. -/
theorem mirrorAddress_base_add (w : Window) {start : Int} (hstart : 0 ≤ start) (hstop : start ≤ ramSize) :
    mirrorAddress (kseg0.base + start) w.base = w.base + start := by
  rw [ramSize] at hstop
  rw [mirrorAddress, base]
  omega

end Window

namespace AddressSpace

variable {host : Host} {file : Bytes} {s t : AddressSpace} {r : Region} {permissions : Permissions}
  {start stop size k : Int} {storage : Nat} {done : List Window} {w : Window}

/-! ### A piece in one window after the other -/

/-- The windows in `done` show a piece from its storage, and nothing is mapped behind its end there, or
behind its start in the windows that are not done. -/
structure Mapped (s : AddressSpace) (start size : Int) (permissions : Permissions) (storage : Nat)
    (done : List Window) : Prop where
  arranged : s.Arranged
  within : ∀ r ∈ s.regions, ∃ w : Window,
    w.base ≤ r.address ∧ r.stop ≤ w.base + if w ∈ done then start + size else start
  shown : ∀ w ∈ done, ∃ r ∈ s.regions,
    r.extent = w.part start size ∧ r.permissions = permissions ∧ r.storage = storage ∧ r.offset = 0

theorem Mapped.admits (h : s.Mapped start size permissions storage done) (hfits : Window.Fits start size)
    (hw : w ∉ done) : s.Admits (w.part start size) := by
  refine ⟨hfits.nonempty, hfits.inAddressSpace w, fun r hr => ?_⟩
  obtain ⟨hsize, hstart, hstop⟩ := hfits
  obtain ⟨v, hfrom, hto⟩ := h.within r hr
  rw [Extent.not_overlaps_iff]
  change r.stop ≤ w.base + start ∨ w.base + start + size ≤ r.address
  by_cases hv : w = v
  · left
    rw [← hv, if_neg hw] at hto
    exact hto
  · have hto' : r.stop ≤ v.base + ramSize := by
      split at hto <;> omega
    rcases Window.apart hv with hbelow | habove
    · right
      omega
    · left
      omega

theorem Mapped.add (h : s.Mapped start size permissions storage done) (hfits : Window.Fits start size)
    (ht : t.Arranged) (hregions : ∀ q, q ∈ t.regions ↔ q = r ∨ q ∈ s.regions)
    (hr : r.extent = w.part start size ∧ r.permissions = permissions ∧ r.storage = storage ∧
      r.offset = 0) :
    t.Mapped start size permissions storage (w :: done) := by
  obtain ⟨hsize, hstart, -⟩ := hfits
  refine ⟨ht, fun q hq => ?_, fun v hv => ?_⟩
  · rcases (hregions q).1 hq with rfl | hq
    · refine ⟨w, ?_, ?_⟩
      · rw [Region.address, hr.1]
        change w.base ≤ w.base + start
        omega
      · rw [Region.stop, hr.1, if_pos List.mem_cons_self]
        change w.base + start + size ≤ w.base + (start + size)
        omega
    · obtain ⟨v, hfrom, hto⟩ := h.within q hq
      refine ⟨v, hfrom, ?_⟩
      by_cases hv : v ∈ done
      · rw [if_pos hv] at hto
        rw [if_pos (List.mem_cons_of_mem w hv)]
        exact hto
      · rw [if_neg hv] at hto
        split <;> omega
  · rcases List.mem_cons.1 hv with rfl | hv
    · exact ⟨r, (hregions r).2 (.inl rfl), hr⟩
    · obtain ⟨q, hq, hshown⟩ := h.shown v hv
      exact ⟨q, (hregions q).2 (.inr hq), hshown⟩

theorem Mapped.createRegion (h : s.Mapped start size permissions s.storages.length [])
    (hlimit : size ≤ host.allocationLimit) (hfits : Window.Fits start size) (name : String)
    (bytes : Option Bytes) :
    ∃ r t, s.createRegion host name (Window.kseg0.part start size) permissions bytes = .ok (r, t) ∧
      t.Mapped start size permissions s.storages.length [.kseg0] ∧
      t.storages = s.storages ++ [filledStorage size bytes] := by
  have hadmits := h.admits (w := .kseg0) hfits List.not_mem_nil
  obtain ⟨r, t, hcreate⟩ :
      ∃ r t, s.createRegion host name (Window.kseg0.part start size) permissions bytes = .ok (r, t) :=
    ⟨_, _, createRegion_eq_ok_iff.2 ⟨hadmits, hlimit, rfl, rfl⟩⟩
  have ht := h.arranged.createRegion hcreate
  refine ⟨r, t, hcreate, ?_⟩
  obtain ⟨-, -, rfl, rfl⟩ := createRegion_eq_ok_iff.1 hcreate
  exact ⟨h.add hfits ht (fun q => mem_insertRegion) ⟨rfl, rfl, rfl, rfl⟩, rfl⟩

theorem Mapped.createMirror (h : s.Mapped start size permissions storage done) (hbase : .kseg0 ∈ done)
    (hfits : Window.Fits start size) (hw : w ∉ done) (name : String) :
    ∃ r t, s.createMirror name (Window.kseg0.base + start) (w.part start size) = .ok (r, t) ∧
      t.Mapped start size permissions storage (w :: done) := by
  obtain ⟨q, hq, hextent, hpermissions, hstorage, hoffset⟩ := h.shown .kseg0 hbase
  have haddress : q.address = Window.kseg0.base + start := congrArg Extent.address hextent
  have hqstop : q.stop = Window.kseg0.base + start + size := congrArg Extent.stop hextent
  have hfound : s.regionAt (Window.kseg0.base + start) = some q := by
    have hsize := hfits.nonempty
    exact h.arranged.regionAt_of_mem hq (Region.mem_extent.2 ⟨by omega, by omega⟩)
  have hadmits := h.admits hfits hw
  have hinside : Window.kseg0.base + start + (w.part start size).size ≤ q.stop := Int.le_of_eq hqstop.symm
  obtain ⟨r, t, hcreate⟩ :
      ∃ r t, s.createMirror name (Window.kseg0.base + start) (w.part start size) = .ok (r, t) :=
    ⟨_, _, createMirror_eq_ok_iff.2 ⟨q, hfound, hinside, hadmits, rfl, rfl⟩⟩
  have ht := h.arranged.createMirror hcreate
  have hindex : q.storageIndex (Window.kseg0.base + start) = 0 := by
    rw [Region.storageIndex, hoffset, haddress]
    omega
  refine ⟨r, t, hcreate, ?_⟩
  obtain ⟨q', hfound', -, -, rfl, rfl⟩ := createMirror_eq_ok_iff.1 hcreate
  obtain rfl : q = q' := Option.some.inj (hfound.symm.trans hfound')
  exact h.add hfits ht (fun q => mem_insertRegion) ⟨rfl, hpermissions, hstorage, hindex⟩

theorem Mapped.applyAll_mirrors {p : RamPiece} (hp : p.extent = Window.kseg0.part start size)
    (hfits : Window.Fits start size) (windows : List Window)
    (h : s.Mapped start size permissions storage done) (hbase : .kseg0 ∈ done) (hnodup : windows.Nodup)
    (hopen : ∀ w ∈ windows, w ∉ done) :
    (Request.applyAll host file s (windows.map p.mirrorIn)).space.Mapped start size permissions storage
        (windows.reverse ++ done) ∧
      (Request.applyAll host file s (windows.map p.mirrorIn)).failures = [] := by
  induction windows generalizing s done with
  | nil => exact ⟨h, rfl⟩
  | cons w rest ih =>
    obtain ⟨hw, hrest⟩ := List.nodup_cons.1 hnodup
    obtain ⟨r, t, hcreate, ht⟩ :=
      h.createMirror hbase hfits (hopen w List.mem_cons_self) (p.nameIn w)
    have hmirror : (p.mirrorIn w).create host file s = .ok t := by
      have haddress : mirrorAddress (Window.kseg0.base + start) w.base = w.base + start := by
        obtain ⟨hsize, hstart, hstop⟩ := hfits
        exact w.mirrorAddress_base_add hstart (by omega)
      simp only [RamPiece.mirrorIn, Request.create, hp, Window.part, haddress] at hcreate ⊢
      rw [hcreate]
      rfl
    have happly := Request.apply_of_create hmirror rfl
    have hquiet := Request.failures_of_create hmirror rfl
    rw [List.map_cons, Request.applyAll, happly, hquiet, List.reverse_cons, List.append_assoc,
      List.singleton_append, List.nil_append]
    refine ih ht (List.mem_cons_of_mem w hbase) hrest fun v hv => ?_
    intro hdone
    rcases List.mem_cons.1 hdone with rfl | hdone
    · exact hw hv
    · exact hopen v (List.mem_cons_of_mem w hv) hdone

/-! ### What the windows show -/

/-- At a distance from their bases, all windows show one byte of one storage, with the same permissions.
-/
def SeenAlike (s : AddressSpace) (k : Int) (permissions : Permissions) (b : UInt8) : Prop :=
  ∃ c, s.byteIn c = b ∧ ∀ w : Window, ∃ r, s.regionAt (w.base + k) = some r ∧
    r.permissions = permissions ∧ ⟨r.storage, r.storageIndex (w.base + k)⟩ = c

theorem Mapped.seenAlike (h : s.Mapped start size permissions storage done) (hdone : ∀ w, w ∈ done)
    (hfrom : start ≤ k) (hto : k < start + size) :
    s.SeenAlike k permissions (s.byteIn ⟨storage, (k - start).toNat⟩) := by
  refine ⟨_, rfl, fun w => ?_⟩
  obtain ⟨r, hr, hextent, hpermissions, hstorage, hoffset⟩ := h.shown w (hdone w)
  have haddress : r.address = w.base + start := congrArg Extent.address hextent
  have hstop : r.stop = w.base + start + size := congrArg Extent.stop hextent
  have hfound : s.regionAt (w.base + k) = some r :=
    h.arranged.regionAt_of_mem hr (Region.mem_extent.2 ⟨by omega, by omega⟩)
  have hindex : r.storageIndex (w.base + k) = (k - start).toNat := by
    rw [Region.storageIndex, hoffset, haddress]
    omega
  exact ⟨r, hfound, hpermissions, by rw [hstorage, hindex]⟩

theorem SeenAlike.of_extends {b : UInt8} (h : s.SeenAlike k permissions b) (hs : s.Arranged)
    (ht : t.Arranged) (he : Extends s t) : t.SeenAlike k permissions b := by
  obtain ⟨c, hbyte, hseen⟩ := h
  have hc : c.storage < s.storages.length := by
    obtain ⟨r, hr, -, rfl⟩ := hseen .kseg0
    exact hs.storage_lt (mem_of_regionAt hr).1
  refine ⟨c, (he.byteIn hc).trans hbyte, fun w => ?_⟩
  obtain ⟨r, hr, hshown⟩ := hseen w
  exact ⟨r, he.keeps.regionAt ht hr, hshown⟩

theorem SeenAlike.of_keeps {b : UInt8} (h : s.SeenAlike k permissions b) (ht : t.Arranged)
    (hk : Keeps s t) : ∃ b', t.SeenAlike k permissions b' := by
  obtain ⟨c, -, hseen⟩ := h
  refine ⟨t.byteIn c, c, rfl, fun w => ?_⟩
  obtain ⟨r, hr, hshown⟩ := hseen w
  exact ⟨r, hk.regionAt ht hr, hshown⟩

theorem SeenAlike.read {b : UInt8} (h : s.SeenAlike k permissions b) (hs : s.Arranged) (w : Window) :
    s.read (w.base + k) 1 = .ok [b] := by
  obtain ⟨c, hbyte, hseen⟩ := h
  obtain ⟨r, hr, -, hcell⟩ := hseen w
  rw [hs.read_one ((cellAt_of_regionAt hr).trans (congrArg some hcell)), hbyte]

end AddressSpace

/-! ### The three pieces -/

def Header.ramPermissions (h : Header) (a : Int) : Permissions :=
  if a ∈ h.code then .readExecute else .all

/-- The byte that the map puts at an address of the cached window: that of the file in the code, as far
as the file goes, and zero elsewhere. -/
def Header.ramByte (h : Header) (file : Bytes) (a : Int) : UInt8 :=
  if a ∈ h.code then file.getD (Header.size + (a - h.code.address).toNat) 0 else 0

open AddressSpace

variable {host : Host} {file : Bytes} {s t : AddressSpace} {h : Header} {p : RamPiece} {start stop : Int}

/-- The windows show what they should up to a distance from their bases, and nothing is mapped
elsewhere. -/
structure Filled (h : Header) (file : Bytes) (s : AddressSpace) (stop : Int) : Prop where
  arranged : s.Arranged
  within : ∀ r ∈ s.regions, ∃ w : Window, w.base ≤ r.address ∧ r.stop ≤ w.base + stop
  seen : ∀ k, 0 ≤ k → k < stop →
    s.SeenAlike k (h.ramPermissions (Window.kseg0.base + k)) (h.ramByte file (Window.kseg0.base + k))

theorem filled_empty : Filled h file ∅ 0 where
  arranged := arranged_empty
  within := fun _ hr => (List.not_mem_nil hr).elim
  seen := by
    intro k hfrom hto
    omega

/-- The extent covers the windows from one distance behind their bases up to another. -/
structure Spans (e : Extent) (start stop : Int) : Prop where
  address_eq : e.address = Window.kseg0.base + start
  stop_eq : e.stop = Window.kseg0.base + stop
  start_nonneg : 0 ≤ start
  start_le : start ≤ stop
  stop_le : stop ≤ ramSize

theorem RamPiece.applyAll_mapped {size : Int} (hlimit : size ≤ host.allocationLimit)
    (hopen : s.Mapped start size p.permissions s.storages.length [])
    (hp : p.extent = Window.kseg0.part start size) (hfits : Window.Fits start size) :
    (Request.applyAll host file s p.requests).space.Mapped start size p.permissions s.storages.length
        [.kseg1, .kuseg, .kseg0] ∧
      (Request.applyAll host file s p.requests).failures = [] ∧
      ∀ i < size.toNat, (Request.applyAll host file s p.requests).space.byteIn ⟨s.storages.length, i⟩ =
        ((p.own.fileBytes file).getD []).getD i 0 := by
  obtain ⟨r, t, hcreate, ht, hstorages⟩ :=
    hopen.createRegion hlimit hfits (p.nameIn .kseg0) (p.own.fileBytes file)
  have hregion : (Request.region p.own).create host file s = .ok t := by
    rw [← hp] at hcreate
    rw [Request.create]
    change (s.createRegion host (p.nameIn .kseg0) p.extent p.permissions _).map (·.2) = .ok t
    rw [hcreate]
    rfl
  have hrequests : p.requests = .region p.own :: Window.mirrors.map p.mirrorIn := by
    refine p.requests_of_not_isEmpty fun hempty => ?_
    rw [IsEmpty, hp] at hempty
    exact absurd hempty (Int.not_le.2 hfits.nonempty)
  have happly := Request.apply_of_create hregion rfl
  have hquiet := Request.failures_of_create hregion rfl
  obtain ⟨hmapped, hmirrors⟩ :=
    @Mapped.applyAll_mirrors host file _ _ _ _ _ _ p hp hfits Window.mirrors ht List.mem_cons_self
      (by decide) (by decide)
  rw [hrequests, Request.applyAll, happly, hquiet, hmirrors]
  refine ⟨hmapped, rfl, ?_⟩
  · intro i hi
    have hextends : Extends t (Request.applyAll host file t (Window.mirrors.map p.mirrorIn)).space :=
      Request.applyAll_extends _ t
    have hlast : s.storages.length < t.storages.length := by
      rw [hstorages, List.length_append]
      exact Nat.lt_succ_self _
    rw [hextends.byteIn hlast, byteIn, hstorages]
    simp only [List.getD_eq_getElem?_getD, List.getElem?_concat_length, Option.getD_some]
    rw [byteAt_filledStorage (by omega), List.getD_eq_getElem?_getD]

/-- Requests of a piece that starts where the windows are filled to fill them up to its end. -/
theorem Filled.piece (hs : Filled h file s start) (hlimit : ramSize ≤ host.allocationLimit)
    (hspans : Spans p.extent start stop) (hpermissions : ∀ a ∈ p.extent, h.ramPermissions a = p.permissions)
    (hbytes : ∀ a ∈ p.extent,
      h.ramByte file a = ((p.own.fileBytes file).getD []).getD (a - p.extent.address).toNat 0) :
    Filled h file (Request.applyAll host file s p.requests).space stop ∧
      (Request.applyAll host file s p.requests).failures = [] := by
  obtain ⟨haddress, hend, hstart, hle, hstop⟩ := hspans
  have hsize : p.extent.size = stop - start := by
    rw [Extent.stop] at hend
    omega
  rcases Int.le_iff_lt_or_eq.1 hle with hlt | rfl
  · have hp : p.extent = Window.kseg0.part start (stop - start) := by
      rw [Window.part, ← haddress, ← hsize]
    have harranged : (Request.applyAll host file s p.requests).space.Arranged :=
      (Request.applyAll_changes p.requests s).arranged hs.arranged
    have hopen : s.Mapped start (stop - start) p.permissions s.storages.length [] := by
      refine ⟨hs.arranged, fun r hr => ?_, fun w hw => absurd hw List.not_mem_nil⟩
      obtain ⟨w, hfrom, hto⟩ := hs.within r hr
      exact ⟨w, hfrom, hto⟩
    obtain ⟨hmapped, hquiet, hcontent⟩ :=
      @RamPiece.applyAll_mapped host file s p _ _ (by omega) hopen hp ⟨by omega, hstart, by omega⟩
    refine ⟨⟨harranged, fun r hr => ?_, fun k hfrom hto => ?_⟩, hquiet⟩
    · obtain ⟨w, hfrom, hto⟩ := hmapped.within r hr
      refine ⟨w, hfrom, ?_⟩
      rw [if_pos (by cases w <;> decide)] at hto
      omega
    · by_cases hk : k < start
      · exact (hs.seen k hfrom hk).of_extends hs.arranged harranged (Request.applyAll_extends _ _)
      · have hseen := hmapped.seenAlike (k := k) (fun w => by cases w <;> decide) (by omega) (by omega)
        have hmem : Window.kseg0.base + k ∈ p.extent := Extent.mem_iff.2 ⟨by omega, by omega⟩
        have hindex : (Window.kseg0.base + k - p.extent.address).toNat = (k - start).toNat := by omega
        rw [hcontent _ (by omega)] at hseen
        rw [hpermissions _ hmem, hbytes _ hmem, hindex]
        exact hseen
  · have hrequests : p.requests = [] := if_pos (by rw [RamPiece.IsEmpty]; omega)
    rw [hrequests]
    exact ⟨hs, rfl⟩

theorem Filled.beside (hs : Filled h file s start) (hlimit : ramSize ≤ host.allocationLimit) (name : String)
    {e : Extent} (hspans : Spans e start stop) (hbeside : ∀ a ∈ e, a ∉ h.code) :
    Filled h file (Request.applyAll host file s (RamPiece.requests ⟨name, e, .all, none⟩)).space stop ∧
      (Request.applyAll host file s (RamPiece.requests ⟨name, e, .all, none⟩)).failures = [] := by
  refine hs.piece hlimit hspans (fun a ha => if_neg (hbeside a ha)) fun a ha => ?_
  rw [Header.ramByte, if_neg (hbeside a ha)]
  rfl

theorem Filled.code (hs : Filled h file s start) (hlimit : ramSize ≤ host.allocationLimit) (name : String)
    (hspans : Spans h.code start stop) :
    Filled h file (Request.applyAll host file s
        (RamPiece.requests ⟨name, h.code, .readExecute, some Header.size⟩)).space stop ∧
      (Request.applyAll host file s
        (RamPiece.requests ⟨name, h.code, .readExecute, some Header.size⟩)).failures = [] := by
  refine hs.piece hlimit hspans (fun a ha => if_pos ha) fun a ha => ?_
  have hin : ((a - h.code.address).toNat : Int) < h.code.size := by
    have hto : a < h.code.address + h.code.size := ha.2
    have hfrom : h.code.address ≤ a := ha.1
    omega
  rw [Header.ramByte, if_pos ha]
  exact (Bytes.getD_slice file Header.size hin).symm

namespace Header

/-- The pieces of RAM that the code leaves, and the code, fill the windows to their ends, and none of their
requests fails. -/
theorem ramPieces_filled (hlimit : ramSize ≤ host.allocationLimit)
    (hstart : Window.kseg0.base ≤ h.code.address) (hsize : 0 ≤ h.code.size)
    (hstop : h.code.stop ≤ Window.kseg0.base + ramSize) :
    Filled h file (Request.applyAll host file ∅ (h.ramPieces.flatMap RamPiece.requests)).space ramSize ∧
      (Request.applyAll host file ∅ (h.ramPieces.flatMap RamPiece.requests)).failures = [] := by
  have hcode := h.code.stop_eq
  have hfirst : min h.code.address (Window.kseg0.base + ramSize) = h.code.address := by omega
  have hlast : max h.code.stop Window.kseg0.base = h.code.stop := by omega
  have hbelow : Spans ⟨Window.kseg0.base, h.code.address - Window.kseg0.base⟩ 0
      (h.code.address - Window.kseg0.base) :=
    ⟨(Int.add_zero _).symm, rfl, Int.le_refl 0, by omega, by omega⟩
  have hinside : Spans h.code (h.code.address - Window.kseg0.base) (h.code.stop - Window.kseg0.base) :=
    ⟨by omega, by omega, by omega, by omega, by omega⟩
  have habove : Spans ⟨h.code.stop, Window.kseg0.base + ramSize - h.code.stop⟩
      (h.code.stop - Window.kseg0.base) ramSize := by
    have hbegin : h.code.stop = Window.kseg0.base + (h.code.stop - Window.kseg0.base) := by omega
    have hend : h.code.stop + (Window.kseg0.base + ramSize - h.code.stop) = Window.kseg0.base + ramSize := by
      omega
    exact ⟨hbegin, hend, by omega, by omega, Int.le_refl _⟩
  have hfree : ∀ a ∈ Extent.mk Window.kseg0.base (h.code.address - Window.kseg0.base), a ∉ h.code := by
    intro a ha hin
    have hto : a < Window.kseg0.base + (h.code.address - Window.kseg0.base) := ha.2
    have hfrom : h.code.address ≤ a := hin.1
    omega
  have hfree' : ∀ a ∈ Extent.mk h.code.stop (Window.kseg0.base + ramSize - h.code.stop), a ∉ h.code := by
    intro a ha hin
    have hfrom : h.code.stop ≤ a := ha.1
    have hto : a < h.code.stop := hin.2
    omega
  simp only [ramPieces, hfirst, hlast, List.flatMap_cons, List.flatMap_nil, List.append_nil,
    Request.applyAll_append, Request.failures_applyAll_append, List.append_eq_nil_iff]
  obtain ⟨hs, hquiet⟩ := (filled_empty (h := h)).beside hlimit "RAM" hbelow hfree
  obtain ⟨ht, hquiet'⟩ := hs.code hlimit "CODE" hinside
  obtain ⟨hu, hquiet''⟩ := ht.beside hlimit "RAM" habove hfree'
  exact ⟨hu, hquiet, hquiet', hquiet''⟩

theorem memoryMap_seenAlike (hlimit : ramSize ≤ host.allocationLimit)
    (hstart : Window.kseg0.base ≤ h.code.address) (hsize : 0 ≤ h.code.size)
    (hstop : h.code.stop ≤ Window.kseg0.base + ramSize) {k : Int} (hfrom : 0 ≤ k) (hto : k < ramSize) :
    (Request.applyAll host file ∅ h.memoryMap).space.SeenAlike k
      (h.ramPermissions (Window.kseg0.base + k)) (h.ramByte file (Window.kseg0.base + k)) := by
  have hfilled : Filled h file
      (Request.applyAll host file ∅ (h.ramPieces.flatMap RamPiece.requests)).space ramSize :=
    (ramPieces_filled hlimit hstart hsize hstop).1
  have hall : (Request.applyAll host file ∅ h.memoryMap).space.Arranged := Request.arranged_applyAll _
  obtain ⟨others, hmap⟩ : ∃ others, h.memoryMap = h.ramPieces.flatMap RamPiece.requests ++ others := by
    simp only [memoryMap, programRequests, List.append_assoc]
    exact ⟨_, rfl⟩
  refine (hfilled.seen k hfrom hto).of_extends hfilled.arranged hall ?_
  rw [hmap, Request.applyAll_append]
  exact Request.applyAll_extends others _

/-- The map of an executable whose code lies in the RAM, realized on the empty space, shows the RAM
through all three windows: at a distance from their bases they have the same permissions and the same
byte, which is that of the file in the code and zero elsewhere. Whatever is done to the space later,
writes through any of the windows included, they go on to show the same byte. A run that the monitor
lets finish does end. -/
theorem memoryMap_windows (hlimit : ramSize ≤ host.allocationLimit) (hstart : 0x80000000 ≤ h.code.address)
    (hsize : 0 ≤ h.code.size) (hstop : h.code.stop ≤ 0x80200000) (file : Bytes) (m : Monitor) :
    (m.Patient → ∃ failures, ((realize host file h.memoryMap).exec ⟨∅, m, []⟩).1 = .ok failures) ∧
      ∀ failures s, ((realize host file h.memoryMap).exec ⟨∅, m, []⟩).1 = .ok failures →
        (realize host file h.memoryMap).spaceAfter ∅ m = s →
        ∀ k, 0 ≤ k → k < 0x200000 →
          (∀ w : Window,
            (∃ r, s.regionAt (w.base + k) = some r ∧ r.permissions = h.ramPermissions (0x80000000 + k)) ∧
              s.read (w.base + k) 1 = .ok [h.ramByte file (0x80000000 + k)]) ∧
            ∀ host' later, ∃ b, ∀ w : Window,
              (Operation.runAll host' s later).read (w.base + k) 1 = .ok [b] := by
  refine ⟨fun hm => realize_of_patient hm, fun failures s hrun hs k hfrom hto => ?_⟩
  obtain ⟨-, hspace, -⟩ := realize_ok hrun
  rw [LoadM.spaceAfter_eq, hspace] at hs
  have harranged : s.Arranged := hs ▸ (Request.applyAll_changes _ _).arranged arranged_empty
  have hseen : s.SeenAlike k (h.ramPermissions (0x80000000 + k)) (h.ramByte file (0x80000000 + k)) :=
    hs ▸ memoryMap_seenAlike hlimit hstart hsize hstop hfrom hto
  refine ⟨fun w => ⟨?_, hseen.read harranged w⟩, fun host' later => ?_⟩
  · obtain ⟨c, -, hshown⟩ := hseen
    obtain ⟨r, hr, hpermissions, -⟩ := hshown w
    exact ⟨r, hr, hpermissions⟩
  · have hchanges : Changes host' s (Operation.runAll host' s later) := Operation.runAll_changes later s
    obtain ⟨b, hb⟩ := hseen.of_keeps (hchanges.arranged harranged) hchanges.keeps
    exact ⟨b, fun w => hb.read (hchanges.arranged harranged) w⟩

def sixteenBytes : Header :=
  ⟨expectedMagic, 0x80010000, 0, ⟨0x80010000, 0x10⟩, ⟨0, 0⟩, ⟨0, 0⟩, 0, 0, ""⟩

def threeBytesOfCode : Bytes := List.replicate size 0xFF ++ [1, 2, 3]

theorem getD_threeBytesOfCode (i : Nat) : threeBytesOfCode.getD (size + i) 0 = [1, 2, 3].getD i 0 := by
  have hlength : (List.replicate size (0xFF : UInt8)).length = size := List.length_replicate
  rw [threeBytesOfCode, List.getD_eq_getElem?_getD, List.getElem?_append_right (by omega), hlength,
    Nat.add_sub_cancel_left, List.getD_eq_getElem?_getD]

theorem sixteenBytes_windows :
    ∃ s, (realize defaultHost threeBytesOfCode sixteenBytes.memoryMap).spaceAfter ∅ {} = s ∧
      s.read 0x10002 1 = .ok [3] ∧ s.read 0xA0010003 1 = .ok [0] ∧
      (∃ r, s.regionAt 0x80010000 = some r ∧ r.permissions = .readExecute) ∧
      ∃ b, (Operation.runAll defaultHost s [.write 0xA000FFFF [7, 8, 9]]).read 0x10000 1 = .ok [b] ∧
        (Operation.runAll defaultHost s [.write 0xA000FFFF [7, 8, 9]]).read 0x80010000 1 = .ok [b] := by
  obtain ⟨hends, hwindows⟩ := memoryMap_windows (show ramSize ≤ defaultHost.allocationLimit by decide)
    (show 0x80000000 ≤ sixteenBytes.code.address by decide) (by decide) (by decide) threeBytesOfCode {}
  obtain ⟨failures, hrun⟩ := hends Monitor.patient_default
  have hthird : sixteenBytes.ramByte threeBytesOfCode (0x80000000 + 0x10002) = 3 := getD_threeBytesOfCode 2
  have hfourth : sixteenBytes.ramByte threeBytesOfCode (0x80000000 + 0x10003) = 0 := getD_threeBytesOfCode 3
  have hwindows := hwindows failures _ hrun rfl
  refine ⟨_, rfl, ?_, ?_, ?_, ?_⟩
  · rw [← hthird]
    exact ((hwindows 0x10002 (by decide) (by decide)).1 .kuseg).2
  · rw [← hfourth]
    exact ((hwindows 0x10003 (by decide) (by decide)).1 .kseg1).2
  · exact ((hwindows 0x10000 (by decide) (by decide)).1 .kseg0).1
  · obtain ⟨b, hb⟩ := (hwindows 0x10000 (by decide) (by decide)).2 defaultHost [.write 0xA000FFFF [7, 8, 9]]
    exact ⟨b, hb .kuseg, hb .kseg0⟩

end Header

end PsxExe
