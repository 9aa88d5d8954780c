import PsxExe.Proofs.MemoryMap.Origin
import PsxExe.Proofs.MemoryMap.RamWindows
import PsxExe.Proofs.MemoryMap.SettledMap

/-!
# Pieces that are refused

A mirror is found by the address that it repeats, not by the piece that it belongs to. So if the region
of a piece is refused, its mirrors could repeat whatever else covers its range. They never do: the RAM in
front of the code is the only memory that can cover a later piece, namely with its uncached mirror, and then
the places of that piece's own mirrors are taken as well.
-/

namespace PsxExe

open AddressSpace Request

variable {host : Host} {file : Bytes} {s t : AddressSpace} {h : Header} {p : RamPiece}
  {pieces : List RamPiece}

namespace AddressSpace

/-- Every region belongs to a piece that is mapped: it is the region of the piece or one of its mirrors. -/
def Pieced (s : AddressSpace) (pieces : List RamPiece) : Prop :=
  ∀ r ∈ s.regions, ∃ p ∈ pieces, (region p.own).RealizedIn s ∧
    ((region p.own).Yields r ∨ ∃ w ∈ Window.mirrors, (p.mirrorIn w).Yields r)

/-- What covers the range of a piece is a mirror, and leaves no room for mirrors of the piece. -/
def Guards (s : AddressSpace) (p : RamPiece) : Prop :=
  0 < p.extent.size → ∀ q ∈ s.regions, p.extent.address ∈ q.extent → p.extent.stop ≤ q.stop →
    q.mirrorOf ≠ none ∧ ∀ w ∈ Window.mirrors, ¬ s.Admits ⟨mirrorAddress p.extent.address w.base, p.extent.size⟩

end AddressSpace

/-- A piece without room for its region is left out with its mirrors, and everything is reported. -/
theorem RamPiece.applyAll_refused (hguards : s.Guards p) (hno : ¬ s.Grants host p.extent) :
    (applyAll host file s p.requests).space = s ∧
      ∀ r ∈ p.requests, ∃ cause, ⟨r, cause⟩ ∈ (applyAll host file s p.requests).failures := by
  have hsettled : ∀ r ∈ p.requests, r.Settled host file s := by
    intro r hr
    rcases p.mem_requests hr with rfl | ⟨w, hw, rfl⟩
    · exact region_refused_iff.2 hno
    · refine ⟨mirror_refused_iff.2 ?_, hno⟩
      cases hcreate : s.createMirror (p.nameIn w) p.extent.address
        ⟨mirrorAddress p.extent.address w.base, p.extent.size⟩ with
      | error cause => exact ⟨cause, rfl⟩
      | ok created =>
        obtain ⟨q, hbase, hcovers, hadmits, -⟩ := createMirror_eq_ok_iff.1 hcreate
        obtain ⟨hq, hin⟩ := mem_of_regionAt hbase
        exact absurd hadmits ((hguards hadmits.nonempty q hq hin hcovers).2 w hw)
  obtain ⟨hspace, hfailures⟩ := applyAll_of_settled hsettled
  refine ⟨hspace, fun r hr => hfailures r hr ?_⟩
  rcases p.mem_requests hr with rfl | ⟨w, -, rfl⟩
  · rfl
  · rfl

/-- Where a mirror of the piece lies, and what it repeats. -/
theorem RamPiece.place_of_mirror {q : Region} {w : Window} (h : (p.mirrorIn w).Yields q) :
    q.address = mirrorAddress p.extent.address w.base ∧ q.size = p.extent.size ∧
      q.mirrorOf = some p.extent.address := by
  obtain ⟨-, hextent, hmirror⟩ := h
  rw [Region.address, Region.size, hextent]
  exact ⟨rfl, rfl, hmirror⟩

theorem Window.eq_of_mem_mirrors {w : Window} (hw : w ∈ Window.mirrors) : w = .kuseg ∨ w = .kseg1 := by
  simpa only [Window.mirrors, List.mem_cons, List.not_mem_nil, or_false] using hw

theorem RamPiece.realizedIn_of_grants (hgrants : s.Grants host p.extent) :
    (region p.own).RealizedIn (applyAll host file s p.requests).space := by
  rw [requests_of_not_isEmpty (Int.not_le.2 hgrants.admits.nonempty)]
  exact Request.realizedIn_of_grants hgrants _

theorem RamPiece.not_grants_of_failure {before after : List Request} {cause : SpaceError}
    (hbefore : .region p.own ∉ before) (hafter : .region p.own ∉ after)
    (hfailed : ⟨region p.own, cause⟩ ∈ (applyAll host file s (before ++ (p.requests ++ after))).failures) :
    ¬ p.IsEmpty ∧ ¬ (applyAll host file s before).space.Grants host p.extent := by
  by_cases hempty : p.IsEmpty
  · rw [requests, if_pos hempty, List.nil_append] at hfailed
    rcases List.mem_append.1 (mem_failures_applyAll hfailed) with hmem | hmem
    · exact absurd hmem hbefore
    · exact absurd hmem hafter
  · rw [requests_of_not_isEmpty hempty, List.cons_append] at hfailed
    refine ⟨hempty, (turn_failure_iff hbefore ?_).1 ⟨cause, hfailed⟩⟩
    intro hmem
    rcases List.mem_append.1 hmem with hmem | hmem
    · obtain ⟨w, -, hw⟩ := List.mem_map.1 hmem
      cases hw
    · exact hafter hmem

theorem AddressSpace.pieced_empty : Pieced ∅ [] := fun _ hr => (List.not_mem_nil hr).elim

theorem AddressSpace.Pieced.requests (hs : s.Pieced pieces) (hguards : s.Guards p) :
    (applyAll host file s p.requests).space.Pieced (p :: pieces) := by
  by_cases hgrants : s.Grants host p.extent
  · have hkeeps : Keeps s (applyAll host file s p.requests).space := (applyAll_extends _ s).keeps
    have hrealized : (region p.own).RealizedIn (applyAll host file s p.requests).space :=
      RamPiece.realizedIn_of_grants hgrants
    intro r hr
    rcases applyAll_mem_regions hr with hold | ⟨q, hq, hyields⟩
    · obtain ⟨k, hk, hown, hyields⟩ := hs r hold
      exact ⟨k, List.mem_cons_of_mem _ hk, hown.of_keeps hkeeps, hyields⟩
    · refine ⟨p, List.mem_cons_self, hrealized, ?_⟩
      rcases p.mem_requests hq with rfl | ⟨w, hw, rfl⟩
      · exact .inl hyields
      · exact .inr ⟨w, hw, hyields⟩
  · rw [(RamPiece.applyAll_refused hguards hgrants).1]
    intro r hr
    obtain ⟨k, hk, hpieced⟩ := hs r hr
    exact ⟨k, List.mem_cons_of_mem _ hk, hpieced⟩

namespace Header

/-! ### The pieces of a header -/

def ramBelow (h : Header) : RamPiece :=
  ⟨"RAM", ⟨Window.kseg0.base, min h.code.address (Window.kseg0.base + ramSize) - Window.kseg0.base⟩, .all,
    none⟩

def codePiece (h : Header) : RamPiece := ⟨"CODE", h.code, .readExecute, some Header.size⟩

def ramAbove (h : Header) : RamPiece :=
  ⟨"RAM", ⟨max h.code.stop Window.kseg0.base,
    Window.kseg0.base + ramSize - max h.code.stop Window.kseg0.base⟩, .all, none⟩

theorem ramPieces_eq (h : Header) : h.ramPieces = [h.ramBelow, h.codePiece, h.ramAbove] := rfl

theorem mem_ramPieces : p ∈ h.ramPieces ↔ p = h.ramBelow ∨ p = h.codePiece ∨ p = h.ramAbove := by
  simp only [ramPieces_eq, List.mem_cons, List.not_mem_nil, or_false]

theorem ramBelow_mapped (hpos : 0 < h.ramBelow.extent.size)
    (hlimit : h.ramBelow.extent.size ≤ host.allocationLimit) :
    (applyAll host file ∅ h.ramBelow.requests).space.Mapped 0 h.ramBelow.extent.size .all 0
      [.kseg1, .kuseg, .kseg0] := by
  have hopen : Mapped ∅ 0 h.ramBelow.extent.size .all 0 [] :=
    ⟨arranged_empty, fun r hr => (List.not_mem_nil hr).elim, fun w hw => (List.not_mem_nil hw).elim⟩
  have hextent : h.ramBelow.extent = Window.kseg0.part 0 h.ramBelow.extent.size := rfl
  have hfits : Window.Fits 0 h.ramBelow.extent.size := by
    refine ⟨hpos, Int.le_refl 0, ?_⟩
    simp only [ramBelow]
    omega
  exact (RamPiece.applyAll_mapped hlimit hopen hextent hfits).1

theorem pieced_ramBelow (h : Header) :
    (applyAll host file ∅ h.ramBelow.requests).space.Pieced [h.ramBelow] :=
  pieced_empty.requests fun _ _ hr => (List.not_mem_nil hr).elim

/-- The uncached mirror of the RAM in front of the code is all that can cover the code. -/
theorem guards_codePiece (h : Header) :
    (applyAll host file ∅ h.ramBelow.requests).space.Guards h.codePiece := by
  intro hpos q hq hin hcovers
  have harranged : (applyAll host file ∅ h.ramBelow.requests).space.Arranged := arranged_applyAll _
  have hgranted : (applyAll host file ∅ h.ramBelow.requests).space.Granted host :=
    (applyAll_changes _ _).granted granted_empty
  obtain ⟨p, hp, ⟨r, hr, hyields⟩, hsource⟩ := h.pieced_ramBelow q hq
  obtain rfl := List.mem_singleton.1 hp
  have hsize : r.size = h.ramBelow.extent.size := congrArg Extent.size hyields.2.1
  have hmapped := @ramBelow_mapped host file h (hsize ▸ harranged.nonempty r hr) (hsize ▸ hgranted r hr)
  have hbelow : h.ramBelow.extent.size =
      min h.code.address (Window.kseg0.base + ramSize) - Window.kseg0.base := rfl
  have hcode : h.codePiece.extent = h.code := rfl
  obtain ⟨hfrom, hto⟩ := Region.mem_extent.1 hin
  rw [hcode] at hpos hfrom hto ⊢
  simp only [Window.base, ramSize] at hbelow
  rcases hsource with ⟨-, hextent, -⟩ | ⟨w, hw, hmirrored⟩
  · have hstop : q.stop = 0x80000000 + h.ramBelow.extent.size := congrArg Extent.stop hextent
    omega
  · obtain ⟨hplace, hsize', hmirror⟩ := RamPiece.place_of_mirror hmirrored
    have haddress : q.address = w.base :=
      hplace.trans ((w.mirrorAddress_base_add (Int.le_refl 0) (by decide)).trans (Int.add_zero _))
    have hstop := q.stop_eq
    refine ⟨hmirror ▸ Option.some_ne_none _, fun v hv hadmits => ?_⟩
    obtain ⟨k, hmem, hk, -⟩ := hmapped.shown v (by cases v <;> decide)
    have hkstart : k.address = v.base + 0 := congrArg Extent.address hk
    have hkstop : k.stop = v.base + 0 + h.ramBelow.extent.size := congrArg Extent.stop hk
    -- The code starts in the uncached window, and its mirrors at the same distance from other bases.
    have hdistance : mirrorAddress h.code.address v.base = v.base + (h.code.address - w.base) := by
      rcases Window.eq_of_mem_mirrors hw with rfl | rfl
      · simp only [Window.base] at haddress
        omega
      · simp only [mirrorAddress, Window.base] at haddress ⊢
        omega
    rw [hdistance] at hadmits
    have hapart : k.stop ≤ v.base + (h.code.address - w.base) ∨
        v.base + (h.code.address - w.base) + h.code.size ≤ k.address :=
      Extent.not_overlaps_iff.1 (hadmits.unmapped k hmem)
    omega

theorem pieced_codePiece (h : Header) :
    (applyAll host file ∅ (h.ramBelow.requests ++ h.codePiece.requests)).space.Pieced
      [h.codePiece, h.ramBelow] := by
  rw [applyAll_append]
  exact h.pieced_ramBelow.requests h.guards_codePiece

/-- Nothing covers the RAM behind the code. A mirror of the code that did would reach into the code. -/
theorem guards_ramAbove (hs : s.Arranged) (hpieced : s.Pieced [h.codePiece, h.ramBelow])
    (hstart : 0 ≤ h.code.address) (hsize : 0 ≤ h.code.size) : s.Guards h.ramAbove := by
  intro hpos q hq hin hcovers
  exfalso
  have hcode := h.code.stop_eq
  have hqstop := q.stop_eq
  obtain ⟨hfrom, hto⟩ := Region.mem_extent.1 hin
  simp only [ramAbove, Extent.stop, Window.base, ramSize] at hpos hfrom hto hcovers
  obtain ⟨p, hp, ⟨r, hr, -, hown, -, -, hnone⟩, hsource⟩ := hpieced q hq
  simp only [List.mem_cons, List.not_mem_nil, or_false] at hp
  rcases hp with rfl | rfl
  · rcases hsource with ⟨-, hextent, -⟩ | ⟨w, hw, hmirrored⟩
    · have hstop : q.stop = h.code.stop := congrArg Extent.stop hextent
      simp only [Extent.stop] at hcode hstop
      omega
    · obtain ⟨haddress, hqsize, hmirror⟩ := RamPiece.place_of_mirror hmirrored
      change q.address = mirrorAddress h.code.address w.base at haddress
      change q.size = h.code.size at hqsize
      have hapart : h.code.address ∉ q.extent := by
        intro hinside
        have hpos' := hs.nonempty q hq
        have hself : h.code.address ∈ r.extent := by
          rw [hown]
          exact ⟨Int.le_refl _, by rw [Extent.stop]; change _ < h.code.address + h.code.size; omega⟩
        rw [hs.eq_of_mem hr hq hself hinside] at hnone
        rw [hnone] at hmirror
        cases hmirror
      rw [Region.mem_extent] at hapart
      simp only [Extent.stop] at hcode
      rcases Window.eq_of_mem_mirrors hw with rfl | rfl
      · simp only [mirrorAddress, Window.base] at haddress
        omega
      · simp only [mirrorAddress, Window.base] at haddress
        omega
  · have hbelow : h.ramBelow.extent.size = min h.code.address (0x80000000 + 0x200000) - 0x80000000 := rfl
    simp only [Extent.stop] at hcode
    rcases hsource with ⟨-, hextent, -⟩ | ⟨w, hw, hmirrored⟩
    · have hstop : q.stop = 0x80000000 + h.ramBelow.extent.size := congrArg Extent.stop hextent
      omega
    · obtain ⟨haddress, hqsize, -⟩ := RamPiece.place_of_mirror hmirrored
      change q.address = mirrorAddress 0x80000000 w.base at haddress
      rcases Window.eq_of_mem_mirrors hw with rfl | rfl
      · simp only [mirrorAddress, Window.base] at haddress
        omega
      · simp only [mirrorAddress, Window.base] at haddress
        omega

/-! ### The whole map -/

def otherRequests (h : Header) : List Request :=
  sectionRequest h.hasData "DATA" h.data ++ sectionRequest h.hasBss "BSS" h.bss ++
    [.region ⟨"CACHE", scratchpad, .readWrite, none⟩,
      .region ⟨"UNK1", behindScratchpad, .readWrite, none⟩] ++
    hardwareRequests

theorem memoryMap_eq (h : Header) :
    h.memoryMap = h.ramBelow.requests ++ (h.codePiece.requests ++ (h.ramAbove.requests ++ h.otherRequests)) := by
  simp only [memoryMap, programRequests, ramPieces_eq, otherRequests, List.flatMap_cons, List.flatMap_nil, List.append_assoc,
    List.nil_append]

theorem otherRequests_unmirrored (h : Header) (m : MirrorRequest) : .mirror m ∉ h.otherRequests := by
  intro hm
  rcases List.mem_append.1 hm with hm | hm
  · obtain ⟨q, hq⟩ := h.exists_region hm
    cases hq
  · exact hardwareRequests_unmirrored m hm

theorem region_mem_otherRequests {k : RegionRequest} (hk : .region k ∈ h.otherRequests) :
    k = ⟨"DATA", h.data, .all, none⟩ ∨ k = ⟨"BSS", h.bss, .all, none⟩ ∨
      k = ⟨"CACHE", scratchpad, .readWrite, none⟩ ∨ k = ⟨"UNK1", behindScratchpad, .readWrite, none⟩ ∨
      ∃ b ∈ Hardware.catalog, k = ⟨b.name, b.extent, .readWrite, none⟩ := by
  simp only [otherRequests, List.mem_append, mem_sectionRequest, List.mem_cons, List.not_mem_nil, or_false,
    or_assoc, Request.region.injEq] at hk
  rcases hk with ⟨-, hk⟩ | ⟨-, hk⟩ | hk | hk | hk
  · exact .inl hk
  · exact .inr (.inl hk)
  · exact .inr (.inr (.inl hk))
  · exact .inr (.inr (.inr (.inl hk)))
  · rw [Hardware.hardwareRequests_eq] at hk
    obtain ⟨b, hb, hk⟩ := List.mem_flatMap.1 hk
    refine .inr (.inr (.inr (.inr ⟨b, hb, ?_⟩)))
    rcases Hardware.Block.mem_mapped hk with hk | ⟨_, x, -, -, hx⟩
    · exact Request.region.inj hk
    · cases x <;> cases hx

theorem region_mem_memoryMap {k : RegionRequest} (hk : .region k ∈ h.memoryMap) :
    (∃ p ∈ h.ramPieces, k = p.own) ∨ .region k ∈ h.otherRequests := by
  have hpiece : ∀ p ∈ h.ramPieces, .region k ∈ p.requests → ∃ p ∈ h.ramPieces, k = p.own := by
    intro p hp hmem
    rcases p.mem_requests hmem with hown | ⟨w, -, hw⟩
    · exact ⟨p, hp, Request.region.inj hown⟩
    · cases hw
  rw [memoryMap_eq] at hk
  simp only [List.mem_append] at hk
  rcases hk with hk | hk | hk | hk
  · exact .inl (hpiece h.ramBelow (mem_ramPieces.2 (.inl rfl)) hk)
  · exact .inl (hpiece h.codePiece (mem_ramPieces.2 (.inr (.inl rfl))) hk)
  · exact .inl (hpiece h.ramAbove (mem_ramPieces.2 (.inr (.inr rfl))) hk)
  · exact .inr hk

theorem otherRequests_name {k : RegionRequest} (hk : .region k ∈ h.otherRequests) :
    k.name ≠ "RAM_B" ∧ k.name ≠ "CODE_B" := by
  have hblocks : ∀ b ∈ Hardware.catalog, b.name ≠ "RAM_B" ∧ b.name ≠ "CODE_B" := by decide
  rcases region_mem_otherRequests hk with rfl | rfl | rfl | rfl | ⟨b, hb, rfl⟩
  · simp
  · simp
  · simp
  · simp
  · exact hblocks b hb

theorem own_name (hp : p ∈ h.ramPieces) : p.own.name = "RAM_B" ∨ p.own.name = "CODE_B" ∧ p = h.codePiece := by
  rcases mem_ramPieces.1 hp with rfl | rfl | rfl
  · exact .inl rfl
  · exact .inr ⟨rfl, rfl⟩
  · exact .inl rfl

theorem names {w : Window} (hp : p ∈ h.ramPieces) (hw : w ∈ Window.mirrors) :
    p.own.name = "RAM_B" ∧ p.nameIn w ∈ ["RAM_A", "RAM_C"] ∨
      p.own.name = "CODE_B" ∧ p.nameIn w ∈ ["CODE_A", "CODE_C"] := by
  rcases mem_ramPieces.1 hp with rfl | rfl | rfl <;> rcases Window.eq_of_mem_mirrors hw with rfl | rfl
  · exact .inl ⟨rfl, List.mem_cons.2 (.inl rfl)⟩
  · exact .inl ⟨rfl, List.mem_cons_of_mem _ (List.mem_singleton.2 rfl)⟩
  · exact .inr ⟨rfl, List.mem_cons.2 (.inl rfl)⟩
  · exact .inr ⟨rfl, List.mem_cons_of_mem _ (List.mem_singleton.2 rfl)⟩
  · exact .inl ⟨rfl, List.mem_cons.2 (.inl rfl)⟩
  · exact .inl ⟨rfl, List.mem_cons_of_mem _ (List.mem_singleton.2 rfl)⟩

theorem own_notMem_otherRequests (hp : p ∈ h.ramPieces) : .region p.own ∉ h.otherRequests := by
  intro hmem
  obtain ⟨hram, hcode⟩ := otherRequests_name hmem
  rcases own_name hp with hname | ⟨hname, -⟩
  · exact hram hname
  · exact hcode hname

theorem own_notMem_requests {q : RamPiece} (h : p.own ≠ q.own) : .region p.own ∉ q.requests := by
  intro hmem
  rcases q.mem_requests hmem with hq | ⟨w, -, hw⟩
  · exact h (Request.region.inj hq)
  · cases hw

/-- Each piece has its turn in the map, and when it comes the piece cannot be mirrored wrongly. -/
theorem exists_turn (hstart : 0 ≤ h.code.address) (hsize : 0 ≤ h.code.size) (hp : p ∈ h.ramPieces) :
    ∃ before after, h.memoryMap = before ++ (p.requests ++ after) ∧
      (applyAll host file ∅ before).space.Guards p ∧ .region p.own ∉ before ∧ .region p.own ∉ after := by
  have hothers := own_notMem_otherRequests hp
  have hnames : "RAM_B" ≠ "CODE_B" := by decide
  have hcode : h.ramBelow.own ≠ h.codePiece.own := fun heq => hnames (congrArg RegionRequest.name heq)
  have hcode' : h.ramAbove.own ≠ h.codePiece.own := fun heq => hnames (congrArg RegionRequest.name heq)
  have hram : h.ramBelow.own ≠ h.ramAbove.own := by
    intro heq
    have hextent : h.ramBelow.extent = h.ramAbove.extent := congrArg RegionRequest.extent heq
    simp only [ramBelow, ramAbove, Extent.mk.injEq, Extent.stop, Window.base, ramSize] at hextent
    omega
  rcases mem_ramPieces.1 hp with rfl | rfl | rfl
  · refine ⟨[], _, h.memoryMap_eq, fun _ q hq => (List.not_mem_nil hq).elim, List.not_mem_nil, ?_⟩
    simp only [List.mem_append, not_or]
    exact ⟨own_notMem_requests hcode, own_notMem_requests hram, hothers⟩
  · refine ⟨_, _, h.memoryMap_eq, h.guards_codePiece, own_notMem_requests hcode.symm, ?_⟩
    simp only [List.mem_append, not_or]
    exact ⟨own_notMem_requests hcode'.symm, hothers⟩
  · refine ⟨h.ramBelow.requests ++ h.codePiece.requests, h.otherRequests, ?_, ?_, ?_, hothers⟩
    · rw [memoryMap_eq, List.append_assoc]
    · exact guards_ramAbove (arranged_applyAll _) h.pieced_codePiece hstart hsize
    · simp only [List.mem_append, not_or]
      exact ⟨own_notMem_requests hram.symm, own_notMem_requests hcode'⟩

theorem pieced_ramAbove (hstart : 0 ≤ h.code.address) (hsize : 0 ≤ h.code.size) :
    (applyAll host file ∅ (h.ramBelow.requests ++ h.codePiece.requests ++ h.ramAbove.requests)).space.Pieced
      [h.ramAbove, h.codePiece, h.ramBelow] := by
  rw [applyAll_append]
  exact h.pieced_codePiece.requests (guards_ramAbove (arranged_applyAll _) h.pieced_codePiece hstart hsize)

theorem exists_piece_of_mirror (hstart : 0 ≤ h.code.address) (hsize : 0 ≤ h.code.size) {r : Region}
    (hr : r ∈ (applyAll host file ∅ h.memoryMap).space.regions) (hmirror : r.mirrorOf ≠ none) :
    ∃ p ∈ h.ramPieces, (region p.own).RealizedIn (applyAll host file ∅ h.memoryMap).space ∧
      ∃ w ∈ Window.mirrors, (p.mirrorIn w).Yields r := by
  have hmap : h.memoryMap =
      h.ramBelow.requests ++ h.codePiece.requests ++ h.ramAbove.requests ++ h.otherRequests := by
    rw [memoryMap_eq, List.append_assoc, List.append_assoc]
  rw [hmap, applyAll_append] at hr ⊢
  rcases applyAll_mem_regions hr with hold | ⟨q, hq, hyields⟩
  · obtain ⟨p, hp, hown, hsource⟩ := pieced_ramAbove hstart hsize r hold
    refine ⟨p, ?_, hown.of_keeps (applyAll_extends _ _).keeps, ?_⟩
    · rw [mem_ramPieces]
      simpa [or_comm, or_left_comm, or_assoc] using hp
    · rcases hsource with ⟨-, -, -, -, hnone⟩ | hsource
      · exact absurd hnone hmirror
      · exact hsource
  · cases q with
    | region k => exact absurd hyields.2.2.2.2 hmirror
    | mirror m => exact absurd hq (h.otherRequests_unmirrored m)
    | data d => exact hyields.elim

theorem mirrors_refused (hstart : 0 ≤ h.code.address) (hsize : 0 ≤ h.code.size) (hp : p ∈ h.ramPieces)
    {cause : SpaceError} (hfailed : ⟨region p.own, cause⟩ ∈ (applyAll host file ∅ h.memoryMap).failures) :
    ∀ w ∈ Window.mirrors, (∃ cause, ⟨p.mirrorIn w, cause⟩ ∈ (applyAll host file ∅ h.memoryMap).failures) ∧
      ¬ (p.mirrorIn w).RealizedIn (applyAll host file ∅ h.memoryMap).space := by
  obtain ⟨before, after, hmap, hguards, hbefore, hafter⟩ := @exists_turn host file h p hstart hsize hp
  have hchanges : Changes host (applyAll host file ∅ before).space (applyAll host file ∅ h.memoryMap).space := by
    rw [hmap, applyAll_append]
    exact applyAll_changes _ _
  have hgranted : (applyAll host file ∅ h.memoryMap).space.Granted host :=
    (applyAll_changes _ _).granted granted_empty
  rw [hmap] at hfailed
  obtain ⟨hpresent, hno⟩ := RamPiece.not_grants_of_failure hbefore hafter hfailed
  obtain ⟨-, hreported⟩ := @RamPiece.applyAll_refused host file _ p hguards hno
  intro w hw
  constructor
  · obtain ⟨cause, hcause⟩ := hreported (p.mirrorIn w) (by
      rw [RamPiece.requests_of_not_isEmpty hpresent]
      exact List.mem_cons_of_mem _ (List.mem_map.2 ⟨w, hw, rfl⟩))
    refine ⟨cause, ?_⟩
    rw [hmap, failures_applyAll_append, failures_applyAll_append]
    exact List.mem_append_right _ (List.mem_append_left _ hcause)
  · -- The region that the mirror would repeat has exactly the range of the piece.
    rintro ⟨r, hr, hmirrored⟩
    obtain ⟨-, hrsize, hrbase⟩ := RamPiece.place_of_mirror hmirrored
    obtain ⟨k, -, ⟨q, hq, -, hqextent, -, -, hqnone⟩, v, -, hmirrored'⟩ :=
      exists_piece_of_mirror hstart hsize hr (hrbase ▸ Option.some_ne_none _)
    obtain ⟨-, hksize, hkbase⟩ := RamPiece.place_of_mirror hmirrored'
    have haddress : k.extent.address = p.extent.address := Option.some.inj (hkbase.symm.trans hrbase)
    have hextents : k.extent = p.extent := (Extent.mk.injEq ..).mpr ⟨haddress, hksize.symm.trans hrsize⟩
    have hsame : q.extent = p.extent := hqextent.trans hextents
    have hpos : 0 < p.extent.size := Int.not_le.1 hpresent
    rcases hchanges.mem_regions hq with hold | hadmits
    · refine (hguards hpos q hold ?_ ?_).1 hqnone
      · rw [hsame]
        exact ⟨Int.le_refl _, by rw [Extent.stop]; omega⟩
      · exact Int.le_of_eq (congrArg Extent.stop hsame).symm
    · have hlimit := hgranted q hq
      rw [Region.size, hsame] at hlimit
      rw [hsame] at hadmits
      exact hno ⟨hadmits, hlimit⟩

end Header

end PsxExe
