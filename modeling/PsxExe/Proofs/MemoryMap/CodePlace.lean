import PsxExe.Proofs.MemoryMap.Pieces

/-!
# The place of the code

The RAM in front of the code is mapped and mirrored before the code has its turn. Its cached region ends
where the code starts, and its low mirror lies below that, so only the uncached mirror can be in the way. If
it is, the code is refused; otherwise it is mapped and shows the bytes of the file.
-/

namespace PsxExe.Header

open AddressSpace Request

variable {host : Host} {file : Bytes} {h : Header}

/-- The place of the uncached mirror of the RAM in front of the code. -/
def uncachedBelow (h : Header) : Extent := Window.kseg1.part 0 h.ramBelow.extent.size

/-- The code finds its place free unless the RAM in front of it has been mirrored there. -/
theorem grants_code_iff (hlimit : ramSize ≤ host.allocationLimit) (hstart : 0 ≤ h.code.address)
    (hpos : 0 < h.code.size) (hstop : h.code.stop ≤ addressLimit) (hsize : h.code.size ≤ host.allocationLimit) :
    (applyAll host file ∅ h.ramBelow.requests).space.Grants host h.code ↔ ¬ h.code.Meets h.uncachedBelow := by
  have hbelow : h.ramBelow.extent.size = min h.code.address (0x80000000 + 0x200000) - 0x80000000 := rfl
  by_cases hempty : h.ramBelow.IsEmpty
  · have hnone : h.ramBelow.requests = [] := if_pos hempty
    rw [hnone]
    refine ⟨fun _ hmeets => ?_, fun _ => ⟨⟨hpos, ⟨hstart, hstop⟩, ?_⟩, hsize⟩⟩
    · exact absurd (Extent.meets_iff.1 hmeets).2.1 (Int.not_lt.2 hempty)
    · exact fun r hr => (List.not_mem_nil hr).elim
  · have hmapped := @ramBelow_mapped host file h (Int.not_le.1 hempty) (by rw [ramSize] at hlimit; omega)
    constructor
    · rintro hgrants ⟨a, ha, ha'⟩
      obtain ⟨k, hk, hextent, -⟩ := hmapped.shown .kseg1 (by decide)
      refine hgrants.admits.unmapped k hk (Extent.overlaps_of_mem ha ?_)
      rw [hextent]
      exact ha'
    · intro hapart
      refine ⟨⟨hpos, ⟨hstart, hstop⟩, fun r hr hoverlaps => ?_⟩, hsize⟩
      obtain ⟨w, hfrom, hto⟩ := hmapped.within r hr
      rw [if_pos (by cases w <;> decide)] at hto
      obtain ⟨hleft, hright⟩ := hoverlaps
      change h.code.address < r.stop at hleft
      change r.address < h.code.stop at hright
      cases w with
      | kuseg =>
        simp only [Window.base] at hto
        omega
      | kseg0 =>
        simp only [Window.base] at hto
        omega
      | kseg1 =>
        refine hapart (Extent.meets_iff.2 ⟨hpos, Int.not_le.1 hempty, ?_, ?_⟩)
        · change h.code.address < Window.kseg1.base + 0 + h.ramBelow.extent.size
          omega
        · change Window.kseg1.base + 0 < h.code.stop
          omega

theorem exists_memoryMap_eq (hpos : 0 < h.code.size) :
    ∃ rest, h.memoryMap = h.ramBelow.requests ++ .region h.codePiece.own :: rest := by
  have hpresent : ¬ h.codePiece.IsEmpty := Int.not_le.2 hpos
  rw [memoryMap_eq, RamPiece.requests_of_not_isEmpty hpresent, List.cons_append]
  exact ⟨_, rfl⟩

theorem ramBelow_name {r : Request} (hr : r ∈ h.ramBelow.requests) : r.name ≠ "CODE_B" := by
  have hnames : ∀ w : Window, "RAM" ++ w.suffix ≠ "CODE_B" := by
    intro w
    cases w <;> decide
  obtain ⟨w, hw⟩ := RamPiece.exists_name hr
  rw [hw]
  exact hnames w

theorem realizedIn_of_name (hstart : 0 ≤ h.code.address) (hsize : 0 ≤ h.code.size) {r : Region}
    (hr : r ∈ (applyAll host file ∅ h.memoryMap).space.regions) (hname : r.name = "CODE_B") :
    (region h.codePiece.own).Yields r := by
  by_cases hnone : r.mirrorOf = none
  · rcases applyAll_mem_regions hr with hold | ⟨q, hq, hyields⟩
    · cases hold
    · cases q with
      | region k =>
        have hk : k.name = "CODE_B" := hyields.1.symm.trans hname
        rcases region_mem_memoryMap hq with ⟨p, hp, rfl⟩ | hother
        · rcases own_name hp with hram | ⟨-, rfl⟩
          · rw [hk] at hram
            exact absurd hram (by decide)
          · exact hyields
        · exact absurd hk (otherRequests_name hother).2
      | mirror m =>
        cases hnone.symm.trans hyields.2.2
      | data d => exact hyields.elim
  · obtain ⟨p, hp, -, w, hw, hmirrored, -⟩ := exists_piece_of_mirror hstart hsize hr hnone
    have hmirrors : "CODE_B" ∉ ["RAM_A", "RAM_C"] ∧ "CODE_B" ∉ ["CODE_A", "CODE_C"] := by decide
    have hcode : p.nameIn w = "CODE_B" := hmirrored.symm.trans hname
    rcases names hp hw with ⟨-, hmem⟩ | ⟨-, hmem⟩
    · rw [hcode] at hmem
      exact absurd hmem hmirrors.1
    · rw [hcode] at hmem
      exact absurd hmem hmirrors.2

/-- Without room for the code it is reported, and no region is named as it would be. -/
theorem code_refused (hstart : 0 ≤ h.code.address) (hpos : 0 < h.code.size)
    (hno : ¬ (applyAll host file ∅ h.ramBelow.requests).space.Grants host h.code) :
    (∃ cause, ⟨.region h.codePiece.own, cause⟩ ∈ (applyAll host file ∅ h.memoryMap).failures) ∧
      ∀ r ∈ (applyAll host file ∅ h.memoryMap).space.regions, r.name ≠ "CODE_B" := by
  obtain ⟨rest, hmap⟩ := exists_memoryMap_eq hpos
  constructor
  · rw [hmap]
    exact turn_failure hno rest
  · intro r hr hname
    have hyields := realizedIn_of_name hstart (Int.le_of_lt hpos) hr hname
    rw [hmap] at hr
    exact hno ((turn_realizedIn_iff fun _ => ramBelow_name).1 ⟨r, hr, hyields⟩)

/-- With room for the code it is mapped, with the bytes of the file behind the header. -/
theorem code_mapped (hgrants : (applyAll host file ∅ h.ramBelow.requests).space.Grants host h.code) :
    (region h.codePiece.own).RealizedIn (applyAll host file ∅ h.memoryMap).space ∧
      (applyAll host file ∅ h.memoryMap).space.read h.code.address h.code.size =
        .ok ((List.range h.code.size.toNat).map fun i => file.getD (Header.size + i) 0) := by
  obtain ⟨rest, hmap⟩ := exists_memoryMap_eq hgrants.admits.nonempty
  have harranged : (applyAll host file ∅ h.ramBelow.requests).space.Arranged := arranged_applyAll _
  have hread := @read_of_grants host file _ h.codePiece.own harranged hgrants rest
  rw [hmap, applyAll_append]
  refine ⟨realizedIn_of_grants hgrants rest, hread.trans (congrArg Except.ok ?_)⟩
  refine List.map_congr_left fun i hi => ?_
  have hi' := List.mem_range.1 hi
  exact file.getD_slice Header.size (by omega)

end PsxExe.Header
