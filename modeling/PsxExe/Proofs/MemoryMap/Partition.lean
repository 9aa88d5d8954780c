import Mathlib.Data.List.Basic
import PsxExe.Proofs.MemoryMap.Pieces

/-!
# The pieces partition the cached window

Wherever the code is loaded, the pieces that are left in the map do not reach into each other, and together
they cover the cached window; only the code can lie outside it. Each piece is followed by its two mirrors,
and the map has no others.
-/

namespace PsxExe

open Request

variable {h : Header} {p q : RamPiece} {a : Int}

def Request.cached? : Request → Option RegionRequest
  | region r => if r.name = "RAM_B" ∨ r.name = "CODE_B" then some r else none
  | _ => none

def Header.cachedRegions (h : Header) : List RegionRequest := h.memoryMap.filterMap Request.cached?

/-- A piece in the cached window, and the requests that repeat it in the two other windows. -/
def RamPiece.seenThrough (p : RamPiece) : List Request :=
  [.region ⟨p.name ++ "_B", p.extent, p.permissions, p.fileOffset⟩,
    .mirror ⟨p.name ++ "_A", p.extent.address, ⟨p.extent.address % 0x1000000, p.extent.size⟩⟩,
    .mirror ⟨p.name ++ "_C", p.extent.address, ⟨0xA0000000 + p.extent.address % 0x1000000, p.extent.size⟩⟩]

namespace RamPiece

theorem requests_of_present (hp : ¬ p.IsEmpty) : p.requests = p.seenThrough := by
  rw [requests_of_not_isEmpty hp, seenThrough]
  simp only [Window.mirrors, List.map_cons, List.map_nil, mirrorIn, mirrorAddress, Window.base, Int.zero_add]
  rfl

end RamPiece

namespace Header

def presentPieces (h : Header) : List RamPiece := h.ramPieces.filter fun p => decide (¬ p.IsEmpty)

theorem mem_presentPieces : p ∈ h.presentPieces ↔ p ∈ h.ramPieces ∧ 0 < p.extent.size := by
  rw [presentPieces, List.mem_filter, decide_eq_true_eq, RamPiece.IsEmpty, Int.not_le]

theorem flatMap_requests (pieces : List RamPiece) :
    pieces.flatMap RamPiece.requests =
      (pieces.filter fun p => decide (¬ p.IsEmpty)).flatMap RamPiece.seenThrough := by
  induction pieces with
  | nil => rfl
  | cons p rest ih =>
    rw [List.flatMap_cons, ih, List.filter_cons]
    by_cases hempty : p.IsEmpty
    · rw [RamPiece.requests, if_pos hempty, if_neg (by simpa using hempty), List.nil_append]
    · rw [RamPiece.requests_of_present hempty, if_pos (by simpa using hempty), List.flatMap_cons]

theorem memoryMap_eq_present (h : Header) :
    h.memoryMap = h.presentPieces.flatMap RamPiece.seenThrough ++ h.otherRequests := by
  rw [presentPieces, ← flatMap_requests, memoryMap_eq, ramPieces_eq]
  simp only [List.flatMap_cons, List.flatMap_nil, List.append_nil, List.append_assoc]

theorem cachedRegions_eq (h : Header) : h.cachedRegions = h.presentPieces.map RamPiece.own := by
  have hpieces : ∀ pieces : List RamPiece, (∀ p ∈ pieces, p ∈ h.ramPieces) →
      (pieces.flatMap RamPiece.seenThrough).filterMap Request.cached? = pieces.map RamPiece.own := by
    intro pieces hpieces
    rw [List.filterMap_flatMap, List.map_eq_flatMap]
    refine List.flatMap_congr fun p hp => ?_
    have hname : p.own.name = "RAM_B" ∨ p.own.name = "CODE_B" := (own_name (hpieces p hp)).imp_right And.left
    exact congrArg (Option.toList) (if_pos hname)
  have hothers : h.otherRequests.filterMap Request.cached? = [] := by
    rw [List.filterMap_eq_nil_iff]
    intro r hr
    cases r with
    | region k =>
      obtain ⟨hram, hcode⟩ := otherRequests_name hr
      exact if_neg (not_or.2 ⟨hram, hcode⟩)
    | mirror m => rfl
    | data d => rfl
  rw [cachedRegions, memoryMap_eq_present, List.filterMap_append, hothers, List.append_nil]
  exact hpieces _ fun p hp => (mem_presentPieces.1 hp).1

theorem mem_cachedRegions {r : RegionRequest} :
    r ∈ h.cachedRegions ↔ ∃ p ∈ h.presentPieces, p.own = r := by
  rw [cachedRegions_eq, List.mem_map]

/-! ### Where the pieces lie -/

theorem presentPieces_disjoint (hsize : 0 ≤ h.code.size) :
    h.presentPieces.Pairwise fun p q => ¬ p.extent.Overlaps q.extent := by
  have hall : h.ramPieces.Pairwise fun p q => 0 < p.extent.size → 0 < q.extent.size →
      ¬ p.extent.Overlaps q.extent := by
    simp only [ramPieces_eq, List.pairwise_cons, List.mem_cons, List.not_mem_nil, or_false, forall_eq_or_imp,
      forall_eq, IsEmpty.forall_iff, implies_true, List.Pairwise.nil, and_true, ramBelow, codePiece, ramAbove,
      Extent.Overlaps, Extent.stop, Window.base, ramSize]
    omega
  exact (hall.filter _).imp_of_mem fun hp hq hapart =>
    hapart (mem_presentPieces.1 hp).2 (mem_presentPieces.1 hq).2

theorem exists_present (hfrom : 0x80000000 ≤ a) (hto : a < 0x80200000) : ∃ p ∈ h.presentPieces, a ∈ p.extent := by
  have hpresent : ∀ p ∈ h.ramPieces, a ∈ p.extent → ∃ p ∈ h.presentPieces, a ∈ p.extent := by
    intro p hp hin
    have hstop := p.extent.stop_eq
    have hinside := Extent.mem_iff.1 hin
    exact ⟨p, mem_presentPieces.2 ⟨hp, by omega⟩, hin⟩
  by_cases hbelow : a < h.code.address
  · refine hpresent h.ramBelow (mem_ramPieces.2 (.inl rfl)) ?_
    simp only [Extent.mem_iff, ramBelow, Extent.stop, Window.base, ramSize]
    omega
  · by_cases hcode : a < h.code.stop
    · exact hpresent h.codePiece (mem_ramPieces.2 (.inr (.inl rfl))) ⟨Int.not_lt.1 hbelow, hcode⟩
    · refine hpresent h.ramAbove (mem_ramPieces.2 (.inr (.inr rfl))) ?_
      simp only [Extent.mem_iff, ramAbove, Extent.stop, Window.base, ramSize] at hcode ⊢
      omega

theorem own_place (hp : p ∈ h.ramPieces) :
    (p.own.name = "RAM_B" → 0x80000000 ≤ p.extent.address ∧ p.extent.stop ≤ 0x80200000) ∧
      (p.own.name = "CODE_B" → p = h.codePiece) := by
  have hnames : "RAM_B" ≠ "CODE_B" := by decide
  rcases mem_ramPieces.1 hp with rfl | rfl | rfl
  · refine ⟨fun _ => ?_, fun hname => absurd hname hnames⟩
    simp only [ramBelow, Extent.stop, Window.base, ramSize]
    omega
  · exact ⟨fun hname => absurd hname.symm hnames, fun _ => rfl⟩
  · refine ⟨fun _ => ?_, fun hname => absurd hname hnames⟩
    simp only [ramAbove, Extent.stop, Window.base, ramSize]
    omega

/-- Wherever the code is loaded, the regions of cached RAM and of the code do not reach into each other, and every
address of the cached window lies in exactly one of them. Regions of RAM stay inside that window. The code has a
region if and only if it is not empty, which is then exactly its range. None of these regions is empty, each is
followed by its mirror in the low and the one in the uncached window, and the map has no other mirrors. -/
theorem memoryMap_partition (h : Header) (hsize : 0 ≤ h.code.size) :
    (∀ a : Int, 0x80000000 ≤ a → a < 0x80200000 → ∃! r, r ∈ h.cachedRegions ∧ a ∈ r.extent) ∧
      h.cachedRegions.Pairwise (fun r q => ¬ r.extent.Overlaps q.extent) ∧
      (∀ r ∈ h.cachedRegions, r.name = "RAM_B" → 0x80000000 ≤ r.extent.address ∧ r.extent.stop ≤ 0x80200000) ∧
      ((∃ r ∈ h.cachedRegions, r.name = "CODE_B") ↔ 0 < h.code.size) ∧
      (∀ r ∈ h.cachedRegions, r.name = "CODE_B" → r.extent = h.code) ∧
      (∀ r ∈ h.cachedRegions, 0 < r.extent.size) ∧
      ∃ (pieces : List RamPiece) (others : List Request), h.cachedRegions = pieces.map RamPiece.own ∧
        h.memoryMap = pieces.flatMap RamPiece.seenThrough ++ others ∧ ∀ m, .mirror m ∉ others := by
  refine ⟨fun a hfrom hto => ?_, ?_, fun r hr hname => ?_, ⟨?_, fun hpos => ?_⟩, fun r hr hname => ?_, fun r hr => ?_,
    h.presentPieces, h.otherRequests, h.cachedRegions_eq, h.memoryMap_eq_present, h.otherRequests_unmirrored⟩
  · obtain ⟨p, hp, hin⟩ := exists_present (h := h) hfrom hto
    refine ⟨p.own, ⟨mem_cachedRegions.2 ⟨p, hp, rfl⟩, hin⟩, ?_⟩
    rintro r ⟨hr, hin'⟩
    obtain ⟨q, hq, rfl⟩ := mem_cachedRegions.1 hr
    rw [eq_of_apart (presentPieces_disjoint hsize) hq hp hin' hin]
  · rw [cachedRegions_eq]
    exact List.pairwise_map.2 (presentPieces_disjoint hsize)
  · obtain ⟨p, hp, rfl⟩ := mem_cachedRegions.1 hr
    exact (own_place (mem_presentPieces.1 hp).1).1 hname
  · rintro ⟨r, hr, hname⟩
    obtain ⟨p, hp, rfl⟩ := mem_cachedRegions.1 hr
    obtain ⟨hpiece, hpos⟩ := mem_presentPieces.1 hp
    rw [(own_place hpiece).2 hname] at hpos
    exact hpos
  · have hcode : h.codePiece ∈ h.presentPieces := mem_presentPieces.2 ⟨mem_ramPieces.2 (.inr (.inl rfl)), hpos⟩
    exact ⟨h.codePiece.own, mem_cachedRegions.2 ⟨_, hcode, rfl⟩, rfl⟩
  · obtain ⟨p, hp, rfl⟩ := mem_cachedRegions.1 hr
    rw [(own_place (mem_presentPieces.1 hp).1).2 hname]
    rfl
  · obtain ⟨p, hp, rfl⟩ := mem_cachedRegions.1 hr
    exact (mem_presentPieces.1 hp).2

/-- Code that starts in front of the cached window and ends in it. -/
def straddling : Header := ⟨expectedMagic, 0x80000000, 0, ⟨0x7FFFFFF0, 0x20⟩, ⟨0, 0⟩, ⟨0, 0⟩, 0, 0, ""⟩

theorem straddling_partition :
    0 ≤ straddling.code.size ∧
      (∃! r, r ∈ straddling.cachedRegions ∧ 0x80000008 ∈ r.extent) ∧
      (∃ r ∈ straddling.cachedRegions, r.name = "CODE_B" ∧ r.extent = ⟨0x7FFFFFF0, 0x20⟩) ∧
      ∃ r ∈ straddling.cachedRegions, r.name = "RAM_B" ∧ 0x80100000 ∈ r.extent ∧
        0x80000000 ≤ r.extent.address ∧ r.extent.stop ≤ 0x80200000 := by
  have hsize : 0 ≤ straddling.code.size := by decide
  obtain ⟨hunique, -, hram, hpresent, hcode, -, -⟩ := memoryMap_partition straddling hsize
  obtain ⟨r, hr, hname⟩ := hpresent.2 (by decide)
  refine ⟨hsize, hunique _ (by decide) (by decide), ⟨r, hr, hname, hcode r hr hname⟩, ?_⟩
  obtain ⟨q, ⟨hq, hin⟩, -⟩ := hunique 0x80100000 (by decide) (by decide)
  obtain ⟨p, hp, rfl⟩ := mem_cachedRegions.1 hq
  rcases own_name (mem_presentPieces.1 hp).1 with hqname | ⟨hqname, -⟩
  · exact ⟨p.own, hq, hqname, hin, hram _ hq hqname⟩
  · rw [hcode _ hq hqname] at hin
    exact absurd hin (by decide)

end Header

end PsxExe
