import PsxExe.Header.Image
import PsxExe.Header.Parser
import PsxExe.Proofs.MemoryMap.Blocks
import PsxExe.Proofs.MemoryMap.Pieces

/-!
# What a map can fail at

When the code of an executable lies in the RAM, and its sections keep off the console's own area, then
only the sections can be refused. Each is mapped if it fits beside the RAM; the bss section must keep off
the data section as well, if that has been mapped.
-/

namespace PsxExe

open AddressSpace Request

variable {host : Host} {file : Bytes} {s : AddressSpace} {h : Header} {e : Extent}

/-- The range is not empty, has a size that the machine grants, ends inside the 32-bit addresses, and keeps
off the RAM in all its windows. -/
structure Extent.FitsBesideRam (e : Extent) (host : Host) : Prop where
  nonempty : 0 < e.size
  size_le : e.size ≤ host.allocationLimit
  stop_le : e.stop ≤ addressLimit
  beside : ∀ w : Window, ¬ e.Meets ⟨w.base, ramSize⟩

/-- Where the RAM is all that is mapped, there is room for what fits beside it. -/
theorem Filled.grants_iff (hs : Filled h file s ramSize) (haddress : 0 ≤ e.address) :
    s.Grants host e ↔ e.FitsBesideRam host := by
  constructor
  · rintro ⟨⟨hpos, ⟨-, hstop⟩, hfree⟩, hsize⟩
    refine ⟨hpos, hsize, hstop, fun w ⟨a, ha, hfrom, hto⟩ => ?_⟩
    change w.base ≤ a at hfrom
    change a < w.base + ramSize at hto
    obtain ⟨_, -, hseen⟩ := hs.seen (a - w.base) (by omega) (by omega)
    obtain ⟨r, hr, -⟩ := hseen w
    rw [show w.base + (a - w.base) = a by omega] at hr
    obtain ⟨hr, har⟩ := mem_of_regionAt hr
    exact hfree r hr (Extent.overlaps_of_mem ha har)
  · rintro ⟨hpos, hsize, hstop, hbeside⟩
    refine ⟨⟨hpos, ⟨haddress, hstop⟩, fun r hr hoverlaps => ?_⟩, hsize⟩
    obtain ⟨w, hfrom, hto⟩ := hs.within r hr
    obtain ⟨hbelow, habove⟩ := hoverlaps
    refine hbeside w (Extent.meets_iff.2 ⟨hpos, show 0 < ramSize by decide, ?_, ?_⟩)
    · exact Int.lt_of_lt_of_le hbelow hto
    · exact Int.lt_of_le_of_lt hfrom habove

theorem Filled.aside (hs : Filled h file s ramSize) : ∀ q ∈ s.regions, ¬ q.extent.Meets consoleArea := by
  rintro q hq ⟨a, ⟨hfrom, hto⟩, hfrom', hto'⟩
  obtain ⟨w, hbegin, hend⟩ := hs.within q hq
  change q.address ≤ a at hfrom
  change a < q.stop at hto
  change 0x1F800000 ≤ a at hfrom'
  change a < 0x1F800000 + 0x2000 at hto'
  rw [ramSize] at hend
  cases w with
  | kuseg =>
    rw [Window.base] at hend
    omega
  | kseg0 =>
    rw [Window.base] at hbegin
    omega
  | kseg1 =>
    rw [Window.base] at hbegin
    omega

namespace Header

def dataRequest (h : Header) : RegionRequest := ⟨"DATA", h.data, .all, none⟩

def bssRequest (h : Header) : RegionRequest := ⟨"BSS", h.bss, .all, none⟩

def ramRequests (h : Header) : List Request := h.ramPieces.flatMap RamPiece.requests

def dataSection (h : Header) : List Request := sectionRequest h.hasData "DATA" h.data

def bssSection (h : Header) : List Request := sectionRequest h.hasBss "BSS" h.bss

theorem memoryMap_eq_sections (h : Header) :
    h.memoryMap = h.ramRequests ++ (h.dataSection ++ (h.bssSection ++ (chipRequests ++ hardwareRequests))) := by
  simp only [memoryMap, programRequests, ramRequests, dataSection, bssSection, chipRequests, List.append_assoc]

theorem mem_dataSection {r : Request} : r ∈ h.dataSection ↔ h.hasData ∧ r = .region h.dataRequest :=
  mem_sectionRequest

theorem mem_bssSection {r : Request} : r ∈ h.bssSection ↔ h.hasBss ∧ r = .region h.bssRequest :=
  mem_sectionRequest

theorem ramRequests_name {r : Request} (hr : r ∈ h.ramRequests) : r.name ≠ "DATA" ∧ r.name ≠ "BSS" := by
  have hnames : ∀ name ∈ ["RAM", "CODE"], ∀ w : Window,
      name ++ w.suffix ≠ "DATA" ∧ name ++ w.suffix ≠ "BSS" := by
    intro name hname w
    revert name
    cases w <;> decide
  obtain ⟨p, hp, hr⟩ := List.mem_flatMap.1 hr
  have hname : p.name ∈ ["RAM", "CODE"] := by
    rcases mem_ramPieces.1 hp with rfl | rfl | rfl
    · exact List.mem_cons_self
    · exact List.mem_cons_of_mem _ List.mem_cons_self
    · exact List.mem_cons_self
  obtain ⟨w, hw⟩ := p.exists_name hr
  rw [hw]
  exact hnames p.name hname w

theorem label?_eq_none {r : Request} (hr : r ∈ h.ramRequests ++ (h.dataSection ++ h.bssSection)) :
    r.label? = none := by
  simp only [List.mem_append, mem_dataSection, mem_bssSection] at hr
  rcases hr with hr | ⟨-, rfl⟩ | ⟨-, rfl⟩
  · obtain ⟨p, -, hr⟩ := List.mem_flatMap.1 hr
    rcases p.mem_requests hr with rfl | ⟨w, -, rfl⟩
    · rfl
    · rfl
  · rfl
  · rfl

/-- The sections that are present keep off the console's own area. -/
def SectionsAside (h : Header) : Prop :=
  (h.hasData → ¬ h.data.Meets consoleArea) ∧ (h.hasBss → ¬ h.bss.Meets consoleArea)

theorem memoryMap_failures_eq (hlimit : ramSize ≤ host.allocationLimit)
    (hram : Filled h file (applyAll host file ∅ h.ramRequests).space ramSize) (haside : h.SectionsAside) :
    (applyAll host file ∅ h.memoryMap).failures =
      (applyAll host file ∅ (h.ramRequests ++ (h.dataSection ++ h.bssSection))).failures := by
  have hmap : h.memoryMap =
      h.ramRequests ++ (h.dataSection ++ h.bssSection) ++ (chipRequests ++ hardwareRequests) := by
    rw [memoryMap_eq_sections, List.append_assoc, List.append_assoc]
  rw [hmap, failures_applyAll_append, console_failures_eq_nil, List.append_nil]
  · exact Int.le_trans (by decide) hlimit
  · exact arranged_applyAll _
  · intro q hq
    rw [applyAll_append] at hq
    rcases applyAll_mem_regions hq with hq | ⟨r, hr, hyields⟩
    · exact hram.aside q hq
    · simp only [List.mem_append, mem_dataSection, mem_bssSection] at hr
      rcases hr with ⟨hpresent, rfl⟩ | ⟨hpresent, rfl⟩
      · rw [hyields.2.1]
        exact haside.1 hpresent
      · rw [hyields.2.1]
        exact haside.2 hpresent
  · intro name
    rw [applyAll_binding fun r hr p hp => ?_]
    · rfl
    · rw [label?_eq_none hr] at hp
      cases hp

theorem data_outcome (hram : Filled h file (applyAll host file ∅ h.ramRequests).space ramSize)
    (hpresent : h.hasData) (haddress : 0 ≤ h.data.address) :
    ((region h.dataRequest).RealizedIn (applyAll host file ∅ h.memoryMap).space ↔ h.data.FitsBesideRam host) ∧
      ((∃ cause, ⟨region h.dataRequest, cause⟩ ∈
          (applyAll host file ∅ (h.ramRequests ++ (h.dataSection ++ h.bssSection))).failures) ↔
        ¬ h.data.FitsBesideRam host) := by
  have hsection : h.dataSection = [.region h.dataRequest] := by
    rw [dataSection, hpresent]
    rfl
  have hplace : (applyAll host file ∅ h.ramRequests).space.Grants host h.dataRequest.extent ↔
      h.data.FitsBesideRam host := hram.grants_iff haddress
  rw [memoryMap_eq_sections, hsection, List.singleton_append, List.singleton_append, ← hplace]
  refine ⟨turn_realizedIn_iff fun r hr => (ramRequests_name hr).1, turn_failure_iff ?_ ?_⟩
  · exact fun hmem => (ramRequests_name hmem).1 rfl
  · intro hmem
    have hname : "DATA" = "BSS" := congrArg Request.name (mem_bssSection.1 hmem).2
    exact absurd hname (by decide)

/-- At its turn there is room for the bss section if it fits beside the RAM and keeps off the data section,
unless that has been refused. -/
theorem grants_bss_iff (hram : Filled h file (applyAll host file ∅ h.ramRequests).space ramSize)
    (hpresent : h.hasBss) (haddress : 0 ≤ h.bss.address) :
    (applyAll host file ∅ (h.ramRequests ++ h.dataSection)).space.Grants host h.bss ↔
      h.bss.FitsBesideRam host ∧
        ((region h.dataRequest).RealizedIn (applyAll host file ∅ h.memoryMap).space →
          ¬ h.bss.Meets h.data) := by
  have hmap : h.memoryMap = h.ramRequests ++ h.dataSection ++
      .region h.bssRequest :: (chipRequests ++ hardwareRequests) := by
    rw [memoryMap_eq_sections, bssSection, hpresent, List.append_assoc]
    rfl
  have hlast : (applyAll host file ∅ h.memoryMap).space =
      (applyAll host file (applyAll host file ∅ (h.ramRequests ++ h.dataSection)).space
        (.region h.bssRequest :: (chipRequests ++ hardwareRequests))).space := by
    rw [hmap, applyAll_append]
  have harranged : (applyAll host file ∅ h.memoryMap).space.Arranged := arranged_applyAll _
  rw [hlast] at harranged ⊢
  constructor
  · intro hgrants
    have hfirst := hgrants
    rw [applyAll_append] at hfirst
    refine ⟨(hram.grants_iff haddress).1 (hfirst.of_keeps (applyAll_extends _ _).keeps), ?_⟩
    rintro ⟨q, hq, hname, hextent, -⟩ ⟨a, ha, ha'⟩
    obtain ⟨r, hr, hname', hextent', -⟩ := @Request.realizedIn_of_grants host file _ h.bssRequest hgrants
      (chipRequests ++ hardwareRequests)
    -- A common address would make one region of the two sections.
    have hsame : r = q := by
      refine harranged.eq_of_mem hr hq (a := a) ?_ ?_
      · rw [hextent']
        exact ha
      · rw [hextent]
        exact ha'
    have hnames : "BSS" = "DATA" := hname'.symm.trans (hsame ▸ hname)
    exact absurd hnames (by decide)
  · rintro ⟨hfits, hdisjoint⟩
    rw [applyAll_append] at hdisjoint ⊢
    refine ((hram.grants_iff haddress).2 hfits).applyAll hram.arranged fun q hq r hr hyields => ?_
    obtain ⟨-, rfl⟩ := mem_dataSection.1 hr
    have hmapped : (region h.dataRequest).RealizedIn
        (applyAll host file (applyAll host file ∅ h.ramRequests).space h.dataSection).space := ⟨q, hq, hyields⟩
    rw [hyields.2.1]
    exact hdisjoint (hmapped.of_keeps (applyAll_extends _ _).keeps)

theorem bss_outcome (hpresent : h.hasBss) :
    ((region h.bssRequest).RealizedIn (applyAll host file ∅ h.memoryMap).space ↔
        (applyAll host file ∅ (h.ramRequests ++ h.dataSection)).space.Grants host h.bss) ∧
      ((∃ cause, ⟨region h.bssRequest, cause⟩ ∈
          (applyAll host file ∅ (h.ramRequests ++ (h.dataSection ++ h.bssSection))).failures) ↔
        ¬ (applyAll host file ∅ (h.ramRequests ++ h.dataSection)).space.Grants host h.bss) := by
  have hsection : h.bssSection = [.region h.bssRequest] := by
    rw [bssSection, hpresent]
    rfl
  have hbefore : ∀ r ∈ h.ramRequests ++ h.dataSection, r.name ≠ "BSS" := by
    intro r hr
    rcases List.mem_append.1 hr with hr | hr
    · exact (ramRequests_name hr).2
    · obtain ⟨-, rfl⟩ := mem_dataSection.1 hr
      show "DATA" ≠ "BSS"
      decide
  rw [memoryMap_eq_sections, hsection, List.singleton_append, ← List.append_assoc, ← List.append_assoc]
  refine ⟨turn_realizedIn_iff hbefore, turn_failure_iff (fun hmem => hbefore _ hmem rfl) List.not_mem_nil⟩

/-- When the code of an executable lies in the RAM and its sections keep off the console's own area, only
the requests for the sections can fail, whatever the file holds, if the machine grants the RAM at all. The
data section is mapped exactly if it fits beside the RAM. The bss section is mapped exactly if it fits
there too and keeps off the data section, should that be mapped. A section is reported exactly if it is not
mapped. -/
theorem memoryMap_refusals {image : Bytes} {p : Progress} (hparse : parse image = .ok h)
    (hstart : 0x80000000 ≤ h.code.address) (hstop : h.code.stop ≤ 0x80200000)
    (hdata : h.hasData → ¬ h.data.Meets ⟨0x1F800000, 0x2000⟩)
    (hbss : h.hasBss → ¬ h.bss.Meets ⟨0x1F800000, 0x2000⟩) (hlimit : 0x200000 ≤ host.allocationLimit)
    (file : Bytes) (hspace : p.space = ∅) (hp : p.monitor.Patient) :
    ∃ failures s, ((realize host file h.memoryMap).exec p).1 = .ok failures ∧
      ((realize host file h.memoryMap).exec p).2.space = s ∧
      (∀ f ∈ failures, h.hasData ∧ f.request = .region h.dataRequest ∨
        h.hasBss ∧ f.request = .region h.bssRequest) ∧
      (h.hasData →
        ((region h.dataRequest).RealizedIn s ↔ h.data.FitsBesideRam host) ∧
          ((∃ cause, ⟨.region h.dataRequest, cause⟩ ∈ failures) ↔ ¬ (region h.dataRequest).RealizedIn s)) ∧
      (h.hasBss →
        ((region h.bssRequest).RealizedIn s ↔ h.bss.FitsBesideRam host ∧
            ((region h.dataRequest).RealizedIn s → ¬ h.bss.Meets h.data)) ∧
          ((∃ cause, ⟨.region h.bssRequest, cause⟩ ∈ failures) ↔ ¬ (region h.bssRequest).RealizedIn s)) := by
  obtain ⟨⟨-, hsize⟩, hdataAddress, hbssAddress⟩ := parse_nonneg hparse
  obtain ⟨hram, hquiet⟩ := @ramPieces_filled host file h hlimit hstart hsize hstop
  obtain ⟨failures, hrun⟩ := @realize_of_patient host file p h.memoryMap hp
  obtain ⟨hfailures, hs, -⟩ := realize_ok hrun
  rw [hspace] at hfailures hs
  rw [memoryMap_failures_eq hlimit hram ⟨hdata, hbss⟩] at hfailures
  refine ⟨failures, _, hrun, hs, fun f hf => ?_, fun hpresent => ?_, fun hpresent => ?_⟩
  · rw [hfailures, failures_applyAll_append, ramRequests, hquiet] at hf
    have hmem := mem_failures_applyAll hf
    rw [List.mem_append, mem_dataSection, mem_bssSection] at hmem
    exact hmem
  · obtain ⟨hmapped, hreported⟩ := data_outcome hram hpresent hdataAddress
    rw [hfailures, hreported, hmapped]
    exact ⟨Iff.rfl, Iff.rfl⟩
  · obtain ⟨hmapped, hreported⟩ := @bss_outcome host file h hpresent
    rw [hfailures, hreported, hmapped]
    exact ⟨grants_bss_iff hram hpresent hbssAddress, Iff.rfl⟩

def meetingSections : Header :=
  ⟨expectedMagic, 0, 0, ⟨0x80010000, 0x800⟩, ⟨0x1F000000, 0x100⟩, ⟨0x1F000080, 0x100⟩, 0, 0, ""⟩

def meetingImage : Bytes := meetingSections.image (List.replicate 8 0) (List.replicate 20 0) [] []

theorem meetingSections_refusals :
    ∃ failures s,
      ((realize defaultHost meetingImage meetingSections.memoryMap).exec ⟨∅, {}, []⟩).1 = .ok failures ∧
      ((realize defaultHost meetingImage meetingSections.memoryMap).exec ⟨∅, {}, []⟩).2.space = s ∧
      (region ⟨"DATA", ⟨0x1F000000, 0x100⟩, .all, none⟩).RealizedIn s ∧
      (∃ cause, ⟨.region ⟨"BSS", ⟨0x1F000080, 0x100⟩, .all, none⟩, cause⟩ ∈ failures) ∧
      ∀ f ∈ failures, f.request = .region ⟨"BSS", ⟨0x1F000080, 0x100⟩, .all, none⟩ := by
  have hparse : parse meetingImage = .ok meetingSections := by decide +kernel
  have hfits : meetingSections.data.FitsBesideRam defaultHost :=
    ⟨by decide, by decide, by decide, fun w => by cases w <;> decide⟩
  have hmeets : meetingSections.bss.Meets meetingSections.data := by decide
  obtain ⟨failures, s, hrun, hs, honly, hdata, hbss⟩ := memoryMap_refusals (p := ⟨∅, {}, []⟩) hparse
    (by decide) (by decide) (by decide) (by decide) (show 0x200000 ≤ defaultHost.allocationLimit by decide)
    meetingImage rfl Monitor.patient_default
  obtain ⟨hmapped, hunreported⟩ := hdata rfl
  obtain ⟨hplace, hreported⟩ := hbss rfl
  have hrealized := hmapped.2 hfits
  refine ⟨failures, s, hrun, hs, hrealized, ?_, fun f hf => ?_⟩
  · exact hreported.2 fun hbssMapped => (hplace.1 hbssMapped).2 hrealized hmeets
  · rcases honly f hf with ⟨-, hrequest⟩ | ⟨-, hrequest⟩
    · obtain ⟨request, cause⟩ := f
      obtain rfl : request = .region meetingSections.dataRequest := hrequest
      exact absurd hrealized (hunreported.1 ⟨cause, hf⟩)
    · exact hrequest

end Header

end PsxExe
