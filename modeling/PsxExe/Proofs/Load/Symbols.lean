import Mathlib.Data.List.Perm.Basic
import PsxExe.Proofs.Load.Placement
import PsxExe.Proofs.MemoryMap.Labels
import PsxExe.Proofs.MemoryMap.Refusals

/-!
# The symbols of a load

A load into the empty space labels the registers of the console, the entry point and, if it is found, the main
function, and nothing else. The header has no say in this: whatever its map takes from the registers, their labels
are made all the same, and remember what is mapped at their addresses.
-/

namespace PsxExe

open AddressSpace Request

variable {host : Host} {file : Bytes} {h : Header} {s : AddressSpace} {l : List Request} {a : Int} {name : String}

/-! ### The registers -/

namespace Hardware

variable {b : Block}

def catalogElements : List Element := catalog.flatMap fun b => b.elements.toOption.getD []

theorem catalog_elements (hb : b ∈ catalog) : ∃ elements, b.elements = .ok elements := by
  obtain ⟨entries, hlayout⟩ := catalog_layout b hb
  exact ⟨_, Block.layout_elements hlayout⟩

theorem catalogElements_names : (catalogElements.map (·.name)).Perm (catalog.flatMap Block.names) := by
  rw [catalogElements, List.map_flatMap]
  refine List.Perm.flatMap_left _ fun b hb => ?_
  obtain ⟨elements, helements⟩ := catalog_elements hb
  rw [helements]
  exact Block.names_perm helements

theorem wanted_mapped (hb : b ∈ catalog) :
    wanted b.mapped = (b.elements.toOption.getD []).map fun e => (e.address, e.name) := by
  obtain ⟨entries, hlayout⟩ := catalog_layout b hb
  have helements := Block.layout_elements hlayout
  have hmapped : b.mapped =
      .region ⟨b.name, b.extent, .readWrite, none⟩ :: entries.map LayoutEntry.request := by
    rw [Block.mapped, Block.requests, hlayout]
    rfl
  rw [hmapped, helements]
  refine wanted_layout fun e he => catalog_names_valid b hb _ ?_
  exact (Block.names_perm helements).subset (List.mem_map_of_mem he)

theorem wanted_hardwareRequests :
    wanted hardwareRequests = catalogElements.map fun e => (e.address, e.name) := by
  rw [wanted, hardwareRequests_eq, List.filterMap_flatMap, catalogElements, List.map_flatMap]
  exact List.flatMap_congr fun b hb => wanted_mapped hb

theorem names_notMem : entryName ∉ catalog.flatMap Block.names ∧ mainName ∉ catalog.flatMap Block.names := by
  decide +kernel

theorem catalogElements_valid {e : Element} (he : e ∈ catalogElements) :
    isLabelName e.name = true ∧ e.name ≠ entryName ∧ e.name ≠ mainName := by
  have hname : e.name ∈ catalog.flatMap Block.names := catalogElements_names.subset (List.mem_map_of_mem he)
  obtain ⟨hentry, hmain⟩ := names_notMem
  obtain ⟨b, hb, hname'⟩ := List.mem_flatMap.1 hname
  exact ⟨catalog_names_valid b hb _ hname', ne_of_mem_of_not_mem hname hentry, ne_of_mem_of_not_mem hname hmain⟩

end Hardware

open Hardware

/-! ### The map -/

namespace Request

theorem applyAll_unwanted (hl : ∀ r ∈ l, r.label? = none) (s : AddressSpace) :
    (applyAll host file s l).space.labels = s.labels := by
  induction l generalizing s with
  | nil => rfl
  | cons r rest ih =>
    have hhead : (r.apply host file s).space.labels = s.labels := by
      rw [apply, applyLabel, hl r List.mem_cons_self]
      exact applyCreation_labels r s
    exact (ih (fun r' hr' => hl r' (List.mem_cons_of_mem _ hr')) _).trans hhead

theorem apply_declares (r : Request) (s : AddressSpace) :
    (r.apply host file s).space.functions = s.functions ∧
      (r.apply host file s).space.entryPoints = s.entryPoints := by
  have hcreated : (r.applyCreation host file s).space.functions = s.functions ∧
      (r.applyCreation host file s).space.entryPoints = s.entryPoints := by
    rw [applyCreation]
    cases hcreate : r.create host file s with
    | error e => exact ⟨rfl, rfl⟩
    | ok t =>
      dsimp only
      rw [create_outcome hcreate]
      exact ⟨rfl, rfl⟩
  rw [apply, r.applyLabel_butLabels _]
  exact hcreated

theorem applyAll_declares (l : List Request) (s : AddressSpace) :
    (applyAll host file s l).space.functions = s.functions ∧
      (applyAll host file s l).space.entryPoints = s.entryPoints := by
  induction l generalizing s with
  | nil => exact ⟨rfl, rfl⟩
  | cons r rest ih =>
    obtain ⟨hfunctions, hentries⟩ := @apply_declares host file r s
    obtain ⟨hfunctions', hentries'⟩ := ih (r.apply host file s).space
    exact ⟨hfunctions'.trans hfunctions, hentries'.trans hentries⟩

end Request

/-- The map labels every register, and nothing else. -/
theorem Header.memoryMap_listing (host : Host) (file : Bytes) (h : Header) :
    (applyAll host file ∅ h.memoryMap).space.labels.listing.Perm
      (catalogElements.map fun e =>
        (applyAll host file ∅ h.memoryMap).space.labelAt .register (e.address, e.name)) := by
  have hmap : h.memoryMap =
      h.ramRequests ++ (h.dataSection ++ h.bssSection) ++ chipRequests ++ hardwareRequests := by
    simp only [memoryMap_eq_sections, List.append_assoc]
  have hfront : ∀ r ∈ h.ramRequests ++ (h.dataSection ++ h.bssSection) ++ chipRequests, r.label? = none := by
    intro r hr
    rcases List.mem_append.1 hr with hr | hr
    · exact label?_eq_none hr
    · have hchip : ∀ r ∈ chipRequests, r.label? = none := by decide
      exact hchip r hr
  have hlabels := @applyAll_unwanted host file _ hfront ∅
  have harranged := @arranged_applyAll host file
    (h.ramRequests ++ (h.dataSection ++ h.bssSection) ++ chipRequests)
  rw [hmap, applyAll_append]
  generalize (applyAll host file ∅ (h.ramRequests ++ (h.dataSection ++ h.bssSection) ++ chipRequests)).space = s
    at hlabels harranged ⊢
  have hlisting := @applyAll_listing host file s hardwareRequests harranged hardwareRequests_apart
  rw [wanted_hardwareRequests, List.map_map, List.map_map, hlabels] at hlisting
  refine (hlisting (catalogElements_names.nodup_iff.2 catalog_names_nodup) fun p hp => ?_).trans ?_
  · obtain ⟨e, he, rfl⟩ := List.mem_map.1 hp
    exact LabelTable.not_taken_iff.2 ⟨(catalogElements_valid he).1, rfl⟩
  · exact .of_eq (List.append_nil _)

/-! ### The entry point and the main function -/

namespace AddressSpace

theorem enter_listing (hfree : ¬ s.labels.Taken entryName) (h : Header) :
    (s.enter h).labels.listing.Perm (s.labelAt .entryPoint (h.initialPc, entryName) :: s.labels.listing) ∧
      (s.enter h).functions = s.functions.insert h.initialPc entryName ∧
      (s.enter h).entryPoints = (s.addEntryPoint h.initialPc).entryPoints := by
  obtain ⟨labels, hlabelled, hlisting⟩ := createLabel_of_free hfree h.initialPc .entryPoint
  rw [enter, declared_of_createLabel hlabelled]
  simp only [addEntryPoint, setRegister]
  split <;> exact ⟨hlisting, rfl, rfl⟩

theorem searchMain_listing (hfree : ¬ s.labels.Taken mainName) (host : Host) (h : Header)
    (signatures : List Signature) :
    (s.searchMain host h signatures).2.labels.listing.Perm
      ((s.searchMain host h signatures).1.toList.map (fun a => s.labelAt .function (a, mainName)) ++
        s.labels.listing) := by
  induction signatures generalizing s with
  | nil => exact .refl _
  | cons signature rest ih =>
    rw [searchMain_cons]
    cases s.callBy host h signature with
    | none => exact ih hfree
    | some call =>
      obtain ⟨b, i⟩ := call
      have hfree' : ¬ (s.noteInstruction b i).labels.Taken mainName := hfree
      dsimp only
      cases i.reference 0 with
      | none => exact ih hfree'
      | some target =>
        obtain ⟨labels, hlabelled, hlisting⟩ := createLabel_of_free hfree' target .function
        simp only [hlabelled]
        exact hlisting

theorem searchMain_declares (host : Host) (h : Header) (s : AddressSpace) (signatures : List Signature) :
    (s.searchMain host h signatures).2.functions = s.functions ∧
      (s.searchMain host h signatures).2.entryPoints = s.entryPoints := by
  obtain ⟨labels, instructions, houtcome, -⟩ := searchMain_outcome host h s signatures
  rw [houtcome]
  exact ⟨rfl, rfl⟩

theorem not_taken_of_listing (hname : isLabelName name = true) (hnames : ∀ l ∈ s.labels.listing, l.name ≠ name) :
    ¬ s.labels.Taken name :=
  LabelTable.not_taken_iff.2 ⟨hname, LabelTable.get?_eq_none_iff.2 hnames⟩

theorem finish_listing
    (hregisters : s.labels.listing.Perm (catalogElements.map fun e => s.labelAt .register (e.address, e.name)))
    (hfunctions : s.functions = ∅) (hentries : s.entryPoints = []) (host : Host) (h : Header)
    (signatures : List Signature) :
    ((s.enter h).searchMain host h signatures).2.labels.listing.Perm
        ((catalogElements.map fun e => s.labelAt .register (e.address, e.name)) ++
          s.labelAt .entryPoint (h.initialPc, entryName) ::
            ((s.enter h).searchMain host h signatures).1.toList.map
              fun a => s.labelAt .function (a, mainName)) ∧
      ((s.enter h).searchMain host h signatures).2.functions.entries = [(h.initialPc, entryName)] ∧
      ((s.enter h).searchMain host h signatures).2.entryPoints = [h.initialPc] := by
  have hothers : ∀ l ∈ s.labels.listing, l.name ≠ entryName ∧ l.name ≠ mainName := by
    intro l hl
    obtain ⟨e, he, rfl⟩ := List.mem_map.1 (hregisters.subset hl)
    exact (catalogElements_valid he).2
  have hstart : ¬ s.labels.Taken entryName := not_taken_of_listing (by decide) fun l hl => (hothers l hl).1
  obtain ⟨hentered, hfunctions', hentries'⟩ := enter_listing hstart h
  have hmain : ¬ (s.enter h).labels.Taken mainName := by
    refine not_taken_of_listing (by decide) fun l hl => ?_
    rcases List.mem_cons.1 (hentered.subset hl) with rfl | hl
    · show entryName ≠ mainName
      decide
    · exact (hothers l hl).2
  obtain ⟨hfunctions'', hentries''⟩ := searchMain_declares host h (s.enter h) signatures
  refine ⟨?_, ?_, ?_⟩
  · have hregions : ∀ a, (s.enter h).regionNameAt a = s.regionNameAt a := by
      obtain ⟨⟨_, _, _, _, henter⟩, -⟩ := enter_outcome s h
      rw [henter]
      exact fun a => rfl
    have hfound := searchMain_listing hmain host h signatures
    simp only [labelAt, hregions] at hfound hentered hregisters ⊢
    refine hfound.trans (((hentered.trans (hregisters.cons _)).append_left _).trans ?_)
    refine List.perm_append_comm.trans ?_
    rw [List.cons_append]
    exact List.perm_middle.symm
  · rw [hfunctions'', hfunctions', hfunctions]
    rfl
  · rw [hentries'', hentries', addEntryPoint, hentries]
    rfl

end AddressSpace

/-! ### The whole load -/

theorem AddressSpace.Arranged.regionNameAt_spec (hs : s.Arranged) (a : Int) :
    (∀ r ∈ s.regions, a ∈ r.extent → s.regionNameAt a = r.name) ∧
      ((∀ r ∈ s.regions, a ∉ r.extent) → s.regionNameAt a = "") := by
  constructor
  · intro r hr hin
    rw [regionNameAt, hs.regionAt_of_mem hr hin]
    rfl
  · intro hnone
    rw [regionNameAt, regionAt_eq_none_iff.2 hnone]
    rfl

/-- A load into the empty space, which the monitor lets finish, leaves exactly these labels, whatever its map is
refused: one for each register of the console at its address, the entry point, and the main function if it was
found. Each remembers the region that its address lies in, or none if nothing is mapped there. The entry point is
the only function and the only entry point. -/
theorem load_symbols {p : Progress} (hparse : Header.parse file = .ok h) (hspace : p.space = ∅)
    (hp : p.monitor.Patient) (host : Host) :
    (∀ b ∈ catalog, ∃ elements, b.elements = .ok elements) ∧
      ∃ result s, ((load host file).exec p).1 = .ok result ∧ ((load host file).exec p).2.space = s ∧
        s.labels.listing.Perm
          ((catalogElements.map fun e => ⟨e.address, e.name, .register, s.regionNameAt e.address⟩) ++
            ⟨h.initialPc, "start", .entryPoint, s.regionNameAt h.initialPc⟩ ::
              result.mainAddress.toList.map fun a => ⟨a, "main", .function, s.regionNameAt a⟩) ∧
        (∀ l ∈ s.labels.listing, (∀ r ∈ s.regions, l.address ∈ r.extent → l.region = r.name) ∧
          ((∀ r ∈ s.regions, l.address ∉ r.extent) → l.region = "")) ∧
        s.functions.entries = [(h.initialPc, "start")] ∧ s.entryPoints = [h.initialPc] := by
  refine ⟨fun b hb => catalog_elements hb, ?_⟩
  obtain ⟨q, hends, hq, -⟩ := @load_ends host file h p hparse hp
  rw [hspace] at hends hq
  have hregisters := h.memoryMap_listing host file
  obtain ⟨hfunctions, hentries⟩ := @applyAll_declares host file h.memoryMap ∅
  have harranged := @arranged_applyAll host file h.memoryMap
  refine ⟨_, q.space, congrArg Prod.fst hends.run, by rw [hends.run], ?_⟩
  dsimp only
  generalize (applyAll host file ∅ h.memoryMap).space = s at *
  obtain ⟨hlisting, hdeclared⟩ := finish_listing hregisters hfunctions hentries host h entrySignatures
  -- The labels remember regions of the map, and behind the map no region is added.
  have hmemory := finish_sameMemory host h s entrySignatures
  rw [hq]
  generalize (s.enter h).searchMain host h entrySignatures = found at *
  obtain ⟨main, t⟩ := found
  dsimp only at *
  simp only [labelAt, ← hmemory.regionNameAt_eq] at hlisting
  refine ⟨hlisting, fun l hl => ?_, hdeclared⟩
  have hregion : l.region = t.regionNameAt l.address := by
    rcases List.mem_append.1 (hlisting.subset hl) with hl | hl
    · obtain ⟨e, -, rfl⟩ := List.mem_map.1 hl
      rfl
    · rcases List.mem_cons.1 hl with rfl | hl
      · rfl
      · obtain ⟨a, -, rfl⟩ := List.mem_map.1 hl
        rfl
  rw [hregion]
  exact (harranged.of_keeps hmemory.extends.keeps hmemory.regions).regionNameAt_spec l.address

/-- A header whose data section takes the place of the registers. -/
def coveringHeader : Header :=
  ⟨Header.expectedMagic, 0x80010000, 0, ⟨0x80010000, 0x800⟩, ⟨0x1F801000, 0x800⟩, ⟨0, 0⟩, 0, 0, ""⟩

def coveringImage : Bytes := coveringHeader.image (List.replicate 8 0) (List.replicate 20 0) [] []

theorem coveringImage_symbols :
    ∃ result s, ((load defaultHost coveringImage).exec ⟨∅, {}, []⟩).1 = .ok result ∧
      ((load defaultHost coveringImage).exec ⟨∅, {}, []⟩).2.space = s ∧
      ⟨0x1F801060, "RAM_SIZE", .register, "DATA"⟩ ∈ s.labels.listing ∧
      s.labels.listing.length = catalogElements.length + 1 + result.mainAddress.toList.length ∧
      s.functions.entries = [(0x80010000, "start")] ∧ s.entryPoints = [0x80010000] := by
  have hparse : Header.parse coveringImage = .ok coveringHeader := by decide +kernel
  obtain ⟨-, result, s, hresult, hs, hlisting, hregions, hdeclared⟩ :=
    load_symbols (p := ⟨∅, {}, []⟩) hparse rfl Monitor.patient_default defaultHost
  obtain ⟨-, -, -, hmemory⟩ := @load_sameMemory defaultHost coveringImage coveringHeader ⟨∅, {}, []⟩ ∅ hparse rfl
    Monitor.patient_default
  obtain ⟨hram, -⟩ := @Header.ramPieces_filled defaultHost coveringImage coveringHeader (by decide) (by decide)
    (by decide) (by decide)
  have hfits : coveringHeader.data.FitsBesideRam defaultHost :=
    ⟨by decide, by decide, by decide, fun w => by cases w <;> decide⟩
  obtain ⟨r, hr, hname, hextent, -⟩ := (Header.data_outcome hram rfl (by decide)).1.2 hfits
  rw [← hmemory.regions, hs] at hr
  have hregister : ⟨"RAM_SIZE", 0x1F801060, 32⟩ ∈ catalogElements := by decide +kernel
  have hlabel := hlisting.symm.subset (List.mem_append_left _ (List.mem_map_of_mem hregister))
  have hin : (0x1F801060 : Int) ∈ coveringHeader.data := by decide
  have hdata := (hregions _ hlabel).1 r hr (hextent ▸ hin)
  refine ⟨result, s, hresult, hs, ?_, ?_, hdeclared⟩
  · rw [show s.regionNameAt 0x1F801060 = "DATA" from hdata.trans hname] at hlabel
    exact hlabel
  · rw [hlisting.length_eq]
    simp [Nat.add_assoc, Nat.add_comm]

end PsxExe
