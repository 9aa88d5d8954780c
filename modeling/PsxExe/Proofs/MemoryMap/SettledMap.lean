import PsxExe.Proofs.Hardware.Layout
import PsxExe.Proofs.MemoryMap.Settled

/-!
# The settled map

To realize the map of an executable settles all its requests. The range that a mirror of the map repeats
was asked for as a region in front of it, and no two requests of the map are about one address of typed
data, since the layouts tile blocks that do not reach into each other.
-/

namespace PsxExe

open AddressSpace Request

variable {host : Host} {file : Bytes} {s : AddressSpace}

/-! ### The RAM -/

namespace RamPiece

theorem requests_untyped (p : RamPiece) : ∀ r ∈ p.requests, r.typed? = none := by
  intro r hr
  rcases p.mem_requests hr with rfl | ⟨w, -, rfl⟩
  · rfl
  · rfl

theorem mirrors_settled (p : RamPiece) (windows : List Window) (hs : s.Arranged) (hg : s.Granted host)
    (hno : ¬ s.Grants host p.extent) :
    ∀ r ∈ windows.map p.mirrorIn,
      Settled host file (applyAll host file s (windows.map p.mirrorIn)).space r := by
  refine applyAll_settled hs hg (fun m hm => ?_) (List.pairwise_map.2 ?_)
  · obtain ⟨w, -, hw⟩ := List.mem_map.1 hm
    obtain rfl := Request.mirror.inj hw
    exact hno
  · exact List.pairwise_of_forall fun v w => apart_of_untyped rfl

theorem requests_settle (p : RamPiece) : Settles host file p.requests := by
  by_cases hempty : p.IsEmpty
  · rw [requests, if_pos hempty]
    intro s _ _ r hr
    cases hr
  · rw [requests_of_not_isEmpty hempty]
    intro s hs hg r hr
    have hc : Changes host s ((Request.region p.own).apply host file s).space :=
      Request.apply_changes _ s
    have hsettled : Settled host file ((Request.region p.own).apply host file s).space
        (.region p.own) := settled_apply hs fun m hm => by cases hm
    rcases List.mem_cons.1 hr with rfl | hr
    · exact hsettled.applyAll (hc.arranged hs) (hc.granted hg) fun q _ => apart_of_untyped rfl
    · exact p.mirrors_settled _ (hc.arranged hs) (hc.granted hg) (region_refused_iff.1 hsettled) r hr

theorem flatMap_requests_settle (pieces : List RamPiece) :
    Settles host file (pieces.flatMap requests) := by
  induction pieces with
  | nil =>
    intro s _ _ r hr
    cases hr
  | cons p rest ih =>
    rw [List.flatMap_cons]
    exact p.requests_settle.append ih fun r hr q _ => apart_of_untyped (p.requests_untyped r hr)

end RamPiece

/-! ### The hardware registers -/

namespace Hardware

theorem LayoutEntry.typed?_request (x : LayoutEntry) : x.request.typed? = some x.extent.address := by
  cases x <;> rfl

theorem LayoutEntry.footprint_request (x : LayoutEntry) : x.request.footprint = ⟨x.extent.address, 1⟩ := by
  cases x <;> rfl

theorem Block.mapped_eq (b : Block) :
    b.mapped = [] ∨ ∃ entries, b.layout = .ok entries ∧
      b.mapped = .region ⟨b.name, b.extent, .readWrite, none⟩ :: entries.map LayoutEntry.request := by
  rw [mapped, Block.requests]
  cases b.layout with
  | error cause => exact .inl rfl
  | ok entries => exact .inr ⟨entries, rfl, rfl⟩

variable {b : Block}

theorem Block.mem_mapped {r : Request} (hr : r ∈ b.mapped) :
    r = .region ⟨b.name, b.extent, .readWrite, none⟩ ∨
      ∃ entries, ∃ x ∈ entries, b.layout = .ok entries ∧ r = x.request := by
  rcases b.mapped_eq with hnil | ⟨entries, hlayout, hcons⟩
  · rw [hnil] at hr
    cases hr
  · rw [hcons] at hr
    rcases List.mem_cons.1 hr with rfl | hr
    · exact .inl rfl
    · obtain ⟨x, hx, rfl⟩ := List.mem_map.1 hr
      exact .inr ⟨entries, x, hx, hlayout, rfl⟩

theorem Block.mapped_unmirrored (b : Block) (m : MirrorRequest) : .mirror m ∉ b.mapped := by
  intro hm
  rcases Block.mem_mapped hm with hm | ⟨_, x, -, -, hx⟩
  · cases hm
  · cases x <;> cases hx

theorem Tiles.requests_apart {start stop : Int} {entries : List LayoutEntry} (h : Tiles start stop entries) :
    (entries.map LayoutEntry.request).Pairwise Apart := by
  refine List.pairwise_map.2 (h.ascending.imp fun {x y} hlt a ha hin => ?_)
  rw [x.typed?_request] at ha
  rw [y.footprint_request] at hin
  obtain rfl := Option.some.inj ha
  exact absurd hin.1 (Int.not_le.2 hlt)

theorem mapped_apart (hb : b ∈ catalog) : b.mapped.Pairwise Apart := by
  rcases b.mapped_eq with hnil | ⟨entries, hlayout, hcons⟩
  · rw [hnil]
    exact .nil
  · rw [hcons]
    exact List.pairwise_cons.2 ⟨fun _ _ => apart_of_untyped rfl, (catalog_tiles hb hlayout).requests_apart⟩

theorem mapped_mem (hb : b ∈ catalog) {r : Request} (hr : r ∈ b.mapped) {a : Int}
    (ha : a ∈ r.typed? ∨ a ∈ r.footprint) : a ∈ b.extent := by
  rcases Block.mem_mapped hr with rfl | ⟨entries, x, hx, hlayout, rfl⟩
  · rcases ha with ha | ha
    · cases ha
    · exact ha
  · have hbounds := (catalog_tiles hb hlayout).address_mem x hx
    rw [x.typed?_request, x.footprint_request] at ha
    rcases ha with ha | ha
    · obtain rfl := Option.some.inj ha
      exact hbounds
    · obtain ⟨hfrom, hto⟩ := Extent.mem_iff.1 ha
      change x.extent.address ≤ a at hfrom
      change a < x.extent.address + 1 at hto
      exact Extent.mem_iff.2 ⟨by omega, by omega⟩

end Hardware

theorem hardwareRequests_unmirrored (m : MirrorRequest) : .mirror m ∉ hardwareRequests := by
  intro hm
  rw [Hardware.hardwareRequests_eq] at hm
  obtain ⟨b, -, hm⟩ := List.mem_flatMap.1 hm
  exact b.mapped_unmirrored m hm

theorem hardwareRequests_apart : hardwareRequests.Pairwise Apart := by
  rw [Hardware.hardwareRequests_eq]
  refine List.pairwise_flatMap.2 ⟨fun b hb => Hardware.mapped_apart hb, ?_⟩
  refine Hardware.catalog_apart.imp_of_mem fun {b c} hb hc hno r hr q hq a ha hin => ?_
  have hleft := Hardware.mapped_mem hb hr (.inl ha)
  have hright := Hardware.mapped_mem hc hq (.inr hin)
  exact hno (Extent.overlaps_of_mem hleft hright)

/-! ### The whole map -/

theorem Header.exists_region (h : Header) {r : Request}
    (hr : r ∈ sectionRequest h.hasData "DATA" h.data ++ sectionRequest h.hasBss "BSS" h.bss ++
      [.region ⟨"CACHE", scratchpad, .readWrite, none⟩,
        .region ⟨"UNK1", behindScratchpad, .readWrite, none⟩]) :
    ∃ q, r = .region q := by
  simp only [List.mem_append, mem_sectionRequest, List.mem_cons, List.not_mem_nil, or_false] at hr
  rcases hr with (⟨-, hr⟩ | ⟨-, hr⟩) | hr | hr
  · exact ⟨_, hr⟩
  · exact ⟨_, hr⟩
  · exact ⟨_, hr⟩
  · exact ⟨_, hr⟩

theorem Header.memoryMap_settles (h : Header) : Settles host file h.memoryMap := by
  have hplain : Settles host file (sectionRequest h.hasData "DATA" h.data ++
      sectionRequest h.hasBss "BSS" h.bss ++ [.region ⟨"CACHE", scratchpad, .readWrite, none⟩,
        .region ⟨"UNK1", behindScratchpad, .readWrite, none⟩] ++ hardwareRequests) := by
    refine settles_of_apart (fun m hm => ?_) (List.pairwise_append.2 ⟨?_, hardwareRequests_apart, ?_⟩)
    · rcases List.mem_append.1 hm with hm | hm
      · obtain ⟨q, hq⟩ := h.exists_region hm
        cases hq
      · exact hardwareRequests_unmirrored m hm
    · refine List.pairwise_of_forall_mem_list fun r hr q _ => ?_
      obtain ⟨q, rfl⟩ := h.exists_region hr
      exact apart_of_untyped rfl
    · intro r hr q _
      obtain ⟨q, rfl⟩ := h.exists_region hr
      exact apart_of_untyped rfl
  have hpieces := @RamPiece.flatMap_requests_settle host file h.ramPieces
  have hall := hpieces.append hplain fun r hr q _ => by
    obtain ⟨p, -, hr⟩ := List.mem_flatMap.1 hr
    exact apart_of_untyped (p.requests_untyped r hr)
  rw [memoryMap, programRequests]
  simpa only [List.append_assoc] using hall

end PsxExe
