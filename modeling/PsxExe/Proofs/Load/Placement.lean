import PsxExe.Header.Image
import PsxExe.Proofs.Load.Again
import PsxExe.Proofs.MemoryMap.CodePlace

/-!
# What a load maps around the code

Behind its map a load leaves the memory alone, so what the pieces of the RAM have become in the map is what
they are in the end. Every mirror repeats its own piece. The code is lost in one case: when the mirror of
the RAM in front of it has taken its place in the uncached window.
-/

namespace PsxExe

open AddressSpace

variable {host : Host} {file : Bytes} {h : Header} {p : Progress}

theorem load_sameMemory {s : AddressSpace} (hparse : Header.parse file = .ok h) (hspace : p.space = s)
    (hp : p.monitor.Patient) :
    ∃ result, ((load host file).exec p).1 = .ok result ∧
      result.failures = (Request.applyAll host file s h.memoryMap).failures ∧
      SameMemory (Request.applyAll host file s h.memoryMap).space ((load host file).exec p).2.space := by
  obtain ⟨q, hends, hq, -⟩ := @load_ends host file h p hparse hp
  rw [hspace] at hends hq
  refine ⟨_, congrArg Prod.fst hends.run, rfl, ?_⟩
  rw [hends.run, hq]
  exact finish_sameMemory host h (Request.applyAll host file s h.memoryMap).space entrySignatures

theorem AddressSpace.SameMemory.read_eq {s t : AddressSpace} (hsame : SameMemory s t) (a n : Int) :
    t.read a n = s.read a n := by
  simp only [read, locate, regionAt, storageOf, hsame.regions, hsame.storages]

/-- A load into the empty space, which the monitor lets finish, never mirrors the wrong piece. A mirror
repeats, from its first byte to its last, the region of the piece that gives it its name; and if a piece is
refused, so are its mirrors, whatever else is mapped in its place. -/
theorem load_mirrors (hparse : Header.parse file = .ok h) (hspace : p.space = ∅) (hp : p.monitor.Patient)
    (host : Host) :
    ∃ result s, ((load host file).exec p).1 = .ok result ∧ ((load host file).exec p).2.space = s ∧
      (∀ r ∈ s.regions, ∀ base, r.mirrorOf = some base → ∃ q ∈ s.regions,
        q.mirrorOf = none ∧ q.offset = 0 ∧ q.address = base ∧ q.size = r.size ∧
          (q.name = "RAM_B" ∧ r.name ∈ ["RAM_A", "RAM_C"] ∨
            q.name = "CODE_B" ∧ r.name ∈ ["CODE_A", "CODE_C"])) ∧
      ∀ piece ∈ h.ramPieces, ∀ cause, ⟨.region piece.own, cause⟩ ∈ result.failures →
        ∀ w ∈ Window.mirrors, (∃ cause, ⟨piece.mirrorIn w, cause⟩ ∈ result.failures) ∧
          ¬ (piece.mirrorIn w).RealizedIn s := by
  obtain ⟨⟨hstart, hsize⟩, -⟩ := Header.parse_nonneg hparse
  obtain ⟨result, hresult, hfailures, hmemory⟩ := @load_sameMemory host file h p _ hparse hspace hp
  refine ⟨result, _, hresult, rfl, fun r hr base hbase => ?_, fun piece hpiece cause hcause w hw => ?_⟩
  · rw [hmemory.regions] at hr ⊢
    obtain ⟨k, hk, ⟨q, hq, hqname, hqextent, -, hqoffset, hqnone⟩, w, hw, hname, hextent, hmirror⟩ :=
      Header.exists_piece_of_mirror hstart hsize hr (by rw [hbase]; exact Option.some_ne_none _)
    rw [hbase, Option.some.injEq] at hmirror
    refine ⟨q, hq, hqnone, hqoffset, ?_, ?_, ?_⟩
    · rw [Region.address, hqextent, hmirror]
      rfl
    · rw [Region.size, hqextent, Region.size, hextent]
      rfl
    · rw [hqname, hname]
      exact Header.names hk hw
  · rw [hfailures] at hcause ⊢
    obtain ⟨hrefused, hunmapped⟩ := Header.mirrors_refused hstart hsize hpiece hcause w hw
    refine ⟨hrefused, ?_⟩
    rw [Request.RealizedIn, hmemory.regions]
    exact hunmapped

/-- A header whose code belongs into the uncached window. -/
def uncachedHeader : Header :=
  ⟨Header.expectedMagic, 0, 0, ⟨0xA0010000, 0x10⟩, ⟨0, 0⟩, ⟨0, 0⟩, 0, 0, ""⟩

def uncachedImage : Bytes := uncachedHeader.image (List.replicate 8 0) (List.replicate 20 0) [] []

theorem parse_uncachedImage : Header.parse uncachedImage = .ok uncachedHeader := by
  decide +kernel

/-- The RAM in front of this code is mirrored into its place. -/
theorem uncachedCode_refused :
    (∃ cause, ⟨.region uncachedHeader.codePiece.own, cause⟩ ∈
        (Request.applyAll defaultHost uncachedImage ∅ uncachedHeader.memoryMap).failures) ∧
      ∀ r ∈ (Request.applyAll defaultHost uncachedImage ∅ uncachedHeader.memoryMap).space.regions,
        r.name ≠ "CODE_B" := by
  have hplace := @Header.grants_code_iff defaultHost uncachedImage uncachedHeader (by decide) (by decide)
    (by decide) (by decide) (by decide)
  have hmeets : uncachedHeader.code.Meets uncachedHeader.uncachedBelow := by decide
  exact Header.code_refused (by decide) (by decide) fun hgrants => hplace.1 hgrants hmeets

theorem uncachedImage_mirrors :
    ∃ result s, ((load defaultHost uncachedImage).exec ⟨∅, {}, []⟩).1 = .ok result ∧
      ((load defaultHost uncachedImage).exec ⟨∅, {}, []⟩).2.space = s ∧
      (∃ cause, ⟨.mirror ⟨"CODE_A", 0xA0010000, ⟨0x10000, 0x10⟩⟩, cause⟩ ∈ result.failures) ∧
      (∃ cause, ⟨.mirror ⟨"CODE_C", 0xA0010000, ⟨0xA0010000, 0x10⟩⟩, cause⟩ ∈ result.failures) ∧
      ¬ (Request.mirror ⟨"CODE_A", 0xA0010000, ⟨0x10000, 0x10⟩⟩).RealizedIn s := by
  obtain ⟨result, s, hresult, hs, -, hrefused⟩ :=
    load_mirrors (p := ⟨∅, {}, []⟩) parse_uncachedImage rfl Monitor.patient_default defaultHost
  obtain ⟨result', hresult', hfailures, -⟩ :=
    @load_sameMemory defaultHost uncachedImage uncachedHeader ⟨∅, {}, []⟩ ∅ parse_uncachedImage rfl
      Monitor.patient_default
  obtain rfl : result' = result := Except.ok.inj (hresult'.symm.trans hresult)
  obtain ⟨cause, hcause⟩ := uncachedCode_refused.1
  rw [← hfailures] at hcause
  have hmirrors := hrefused uncachedHeader.codePiece (List.mem_cons_of_mem _ List.mem_cons_self) cause hcause
  obtain ⟨hlow, hunmapped⟩ := hmirrors .kuseg (by decide)
  obtain ⟨huncached, -⟩ := hmirrors .kseg1 (by decide)
  exact ⟨_, s, hresult, hs, hlow, huncached, hunmapped⟩

/-- A load of code that is not too large into the empty space maps it, with the bytes of the file, and with
zeros where the file is too short, unless the code meets the place of the uncached mirror of the RAM in
front of it. Then the code is reported as refused, and no region has its name. -/
theorem load_code (hparse : Header.parse file = .ok h) (hspace : p.space = ∅) (hp : p.monitor.Patient)
    (hlimit : ramSize ≤ host.allocationLimit) (hpos : 0 < h.code.size) (hstop : h.code.stop ≤ addressLimit)
    (hsize : h.code.size ≤ host.allocationLimit) :
    ∃ result s, ((load host file).exec p).1 = .ok result ∧ ((load host file).exec p).2.space = s ∧
      (¬ h.code.Meets h.uncachedBelow →
        (∃ r ∈ s.regions, r.name = "CODE_B" ∧ r.extent = h.code ∧ r.mirrorOf = none) ∧
          s.read h.code.address h.code.size =
            .ok ((List.range h.code.size.toNat).map fun i => file.getD (0x800 + i) 0)) ∧
      (h.code.Meets h.uncachedBelow →
        (∃ cause, ⟨.region ⟨"CODE_B", h.code, .readExecute, some 0x800⟩, cause⟩ ∈ result.failures) ∧
          ∀ r ∈ s.regions, r.name ≠ "CODE_B") := by
  obtain ⟨⟨hstart, -⟩, -⟩ := Header.parse_nonneg hparse
  obtain ⟨result, hresult, hfailures, hmemory⟩ := @load_sameMemory host file h p _ hparse hspace hp
  have hplace := @Header.grants_code_iff host file h hlimit hstart hpos hstop hsize
  refine ⟨result, _, hresult, rfl, fun hfree => ?_, fun htaken => ?_⟩
  · obtain ⟨⟨r, hr, hname, hextent, -, -, hnone⟩, hread⟩ := Header.code_mapped (hplace.2 hfree)
    rw [hmemory.regions, hmemory.read_eq]
    exact ⟨⟨r, hr, hname, hextent, hnone⟩, hread⟩
  · rw [hmemory.regions, hfailures]
    exact Header.code_refused hstart hpos fun hgrants => hplace.1 hgrants htaken

def lowHeader : Header := { uncachedHeader with code := ⟨0x10000, 4⟩ }

def lowImage : Bytes :=
  lowHeader.image (List.replicate 8 0) (List.replicate 20 0) (List.replicate Header.markerRoom 0) [1, 2, 3, 4]

theorem images_code :
    (∃ s, ((load defaultHost lowImage).exec ⟨∅, {}, []⟩).2.space = s ∧
      (∃ r ∈ s.regions, r.name = "CODE_B" ∧ r.extent = ⟨0x10000, 4⟩ ∧ r.mirrorOf = none) ∧
        s.read 0x10000 4 = .ok [1, 2, 3, 4]) ∧
      ∃ result, ((load defaultHost uncachedImage).exec ⟨∅, {}, []⟩).1 = .ok result ∧
        ∃ cause, ⟨.region ⟨"CODE_B", ⟨0xA0010000, 0x10⟩, .readExecute, some 0x800⟩, cause⟩ ∈
          result.failures := by
  have hlow : Header.parse lowImage = .ok lowHeader := by decide +kernel
  have hbytes : (List.range 4).map (fun i => lowImage.getD (0x800 + i) 0) = [1, 2, 3, 4] := by decide +kernel
  obtain ⟨-, s, -, hs, hmapped, -⟩ := load_code (p := ⟨∅, {}, []⟩) hlow rfl Monitor.patient_default
    (show ramSize ≤ defaultHost.allocationLimit by decide) (by decide) (by decide) (by decide)
  obtain ⟨hregion, hread⟩ := hmapped (by decide)
  obtain ⟨result, _, hresult, -, -, hrefused⟩ := load_code (p := ⟨∅, {}, []⟩) parse_uncachedImage rfl
    Monitor.patient_default (show ramSize ≤ defaultHost.allocationLimit by decide) (by decide) (by decide)
    (by decide)
  refine ⟨⟨s, hs, hregion, ?_⟩, result, hresult, (hrefused (by decide)).1⟩
  rw [← hbytes]
  exact hread

theorem uncachedImage_loses_code :
    Header.parse uncachedImage = .ok uncachedHeader ∧ 0 < uncachedHeader.code.size ∧
      uncachedHeader.code.stop ≤ 0x100000000 ∧ uncachedHeader.code.size ≤ defaultHost.allocationLimit ∧
      0x200000 ≤ defaultHost.allocationLimit ∧
      ∃ s, ((load defaultHost uncachedImage).exec ⟨∅, {}, []⟩).2.space = s ∧
        ∀ r ∈ s.regions, r.name ≠ "CODE_B" := by
  refine ⟨parse_uncachedImage, by decide, by decide, by decide, by decide, _, rfl, ?_⟩
  obtain ⟨-, -, -, hmemory⟩ :=
    @load_sameMemory defaultHost uncachedImage uncachedHeader ⟨∅, {}, []⟩ ∅ parse_uncachedImage rfl
      Monitor.patient_default
  rw [hmemory.regions]
  exact uncachedCode_refused.2

end PsxExe
