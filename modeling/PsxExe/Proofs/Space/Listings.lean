import PsxExe.Instruction.Disassemble
import PsxExe.Proofs.Load.History
import PsxExe.Proofs.Space.Notes

/-!
# Listings and the map

Typed data, labels, functions, entry points and instructions are noted down at different times, and nothing
goes back to them when more is mapped or noted later. They stay true of the map all the same: regions do not
move, and a name is never bound again. This module proves what then holds of every space that a history of
operations builds.
-/

namespace PsxExe

def DataItem.extent (d : DataItem) (a : Int) : Extent := ⟨a, d.width / 8 * d.count⟩

/-- The decoder when it is asked about whole instructions only. -/
def Decoder.guarded (decoder : Decoder) : Decoder := fun code a =>
  if code.length < Mips.instructionSize then none else decoder (code.take Mips.instructionSize) a

/-- An instruction is reported at the address that was asked about, and with the size that all of them have. -/
structure Decoder.Reports (decoder : Decoder) : Prop where
  address : ∀ code a i, 0 ≤ a → a < addressLimit → decoder code a = some i → i.address = a
  size : ∀ code a i, decoder code a = some i → i.size = Mips.instructionSize

theorem Decoder.length_of_guarded {decoder : Decoder} {code : Bytes} {a : Int} {i : Instruction}
    (h : decoder.guarded code a = some i) :
    Mips.instructionSize ≤ code.length ∧ decoder (code.take Mips.instructionSize) a = some i := by
  rw [guarded] at h
  by_cases hshort : code.length < Mips.instructionSize
  · rw [if_pos hshort] at h
    cases h
  · rw [if_neg hshort] at h
    exact ⟨Nat.le_of_not_lt hshort, h⟩

namespace Mips

theorem decode_guarded : Decoder.guarded decode = decode := by
  funext code a
  by_cases hshort : code.length < instructionSize
  · simp [Decoder.guarded, decode, decoder, hshort]
  · have htaken : ¬ (code.take instructionSize).length < instructionSize := by
      rw [List.length_take]
      omega
    simp only [Decoder.guarded, decode, decoder, hshort, htaken, if_false, List.take_take, Nat.min_self]

theorem decode_reports : decode.Reports := by
  have hcut : ∀ {code : Bytes} {a : Int} {i : Instruction}, decode code a = some i →
      i.address = heldAddress a ∧ i.size = instructionSize := by
    intro code a i hi
    rw [decode, decoder] at hi
    by_cases hshort : code.length < instructionSize
    · rw [if_pos hshort] at hi
      cases hi
    · rw [if_neg hshort] at hi
      obtain ⟨d, hd, rfl⟩ := Option.map_eq_some_iff.1 hi
      obtain ⟨_, -, rfl⟩ := Option.map_eq_some_iff.1 hd
      exact ⟨rfl, rfl⟩
  refine ⟨fun code a i hfrom hto hi => ?_, fun code a i hi => (hcut hi).2⟩
  rw [(hcut hi).1, heldAddress, addressSpan]
  rw [addressLimit] at hto
  omega

end Mips

namespace AddressSpace

variable {host : Host} {s t : AddressSpace} {a : Int}

/-! ### What a change notes down -/

/-- What a change can do to the listings: to each of them it adds at most one entry. -/
structure Records (host : Host) (s t : AddressSpace) : Prop where
  data : t.data = s.data ∨ ∃ a width count, s.createData a width count = .ok t
  labels : t.labels = s.labels ∨ ∃ a name kind l, s.createLabel a name kind = .ok (l, { s with labels := t.labels })
  functions : t.functions = s.functions ∨ ∃ a name, t.functions = s.functions.insert a name ∧
    ∃ b, t.labels.bindings.get? name = some b ∧ b.address = a
  instructions : t.instructions = s.instructions ∨ ∃ a i, (s.decoded host a).1 = some i ∧
    t.instructions = s.instructions.insert a i

theorem decoded_records (s : AddressSpace) (a : Int) : Records host s (s.decoded host a).2 := by
  rw [decoded]
  cases hregion : s.regionAt a with
  | none => exact ⟨.inl rfl, .inl rfl, .inl rfl, .inl rfl⟩
  | some r =>
    dsimp only
    cases hdecoded : host.decoder ((s.read a (min (r.stop - a) 4)).toOption.getD []) a with
    | none => exact ⟨.inl rfl, .inl rfl, .inl rfl, .inl rfl⟩
    | some i =>
      refine ⟨.inl rfl, .inl rfl, .inl rfl, .inr ⟨a, i, ?_, rfl⟩⟩
      simp only [decoded, hregion, hdecoded]

theorem Change.records (h : Change host s t) : Records host s t := by
  cases h with
  | region h =>
    obtain ⟨-, -, -, rfl⟩ := createRegion_eq_ok_iff.1 h
    exact ⟨.inl rfl, .inl rfl, .inl rfl, .inl rfl⟩
  | mirror h =>
    obtain ⟨-, -, -, -, -, rfl⟩ := createMirror_eq_ok_iff.1 h
    exact ⟨.inl rfl, .inl rfl, .inl rfl, .inl rfl⟩
  | write h =>
    obtain ⟨-, -, rfl⟩ := write_eq_ok_iff.1 h
    exact ⟨.inl rfl, .inl rfl, .inl rfl, .inl rfl⟩
  | data h =>
    have hcreate := h
    obtain ⟨-, -, rfl⟩ := createData_eq_ok_iff.1 h
    exact ⟨.inr ⟨_, _, _, hcreate⟩, .inl rfl, .inl rfl, .inl rfl⟩
  | label h =>
    have hcreate := h
    obtain ⟨_, -, rfl⟩ := createLabel_eq_ok_iff.1 h
    exact ⟨.inl rfl, .inr ⟨_, _, _, _, hcreate⟩, .inl rfl, .inl rfl⟩
  | function h =>
    obtain ⟨_, u, hcreate, rfl⟩ := createFunction_eq_ok_iff.1 h
    obtain ⟨-, hbound⟩ := createLabel_binds hcreate
    obtain ⟨_, -, rfl⟩ := createLabel_eq_ok_iff.1 hcreate
    exact ⟨.inl rfl, .inr ⟨_, _, _, _, hcreate⟩, .inr ⟨_, _, rfl, hbound⟩, .inl rfl⟩
  | entryPoint a =>
    rw [addEntryPoint]
    split <;> exact ⟨.inl rfl, .inl rfl, .inl rfl, .inl rfl⟩
  | register => exact ⟨.inl rfl, .inl rfl, .inl rfl, .inl rfl⟩
  | instruction a => exact decoded_records s a

/-! ### Typed data -/

/-- Every data item has a legal width and lies in the region of its address. -/
def DataLies (s : AddressSpace) : Prop :=
  ∀ a item, s.data.get? a = some item →
    item.width ∈ [8, 16, 32] ∧ ∃ r ∈ s.regions, a ∈ r.extent ∧ (item.extent a).stop ≤ r.stop

theorem Change.dataLies (h : Change host s t) (hs : s.DataLies) : t.DataLies := by
  have hsub := h.keeps.regions.subset
  intro b item hitem
  rcases h.records.data with hsame | ⟨a, width, count, hcreate⟩
  · obtain ⟨hwidth, r, hr, hlies⟩ := hs b item (hsame ▸ hitem)
    exact ⟨hwidth, r, hsub hr, hlies⟩
  · obtain ⟨hwidth, ⟨r, hlocate⟩, rfl⟩ := createData_eq_ok_iff.1 hcreate
    by_cases hab : b = a
    · subst hab
      obtain ⟨hregion, hstop⟩ := locate_eq_ok_iff.1 hlocate
      obtain ⟨hr, hin⟩ := mem_of_regionAt hregion
      obtain rfl : ⟨width, count⟩ = item := by simpa using hitem
      exact ⟨hwidth, r, hr, hin, hstop⟩
    · exact hs b item (by simpa [Table.get?_insert_ne _ hab] using hitem)

theorem Built.dataLies (h : Built s) : s.DataLies :=
  h.of_changes (fun _ _ hitem => by cases hitem) fun _ _ _ hchange hs => hchange.dataLies hs

/-! ### Labels and functions -/

/-- Every function has its name as a label at its address. -/
def FunctionsLabelled (s : AddressSpace) : Prop :=
  ∀ a name, s.functions.get? a = some name → ∃ b, s.labels.bindings.get? name = some b ∧ b.address = a

/-- Every label that remembers a region lies in one of that name. -/
def LabelsLie (s : AddressSpace) : Prop :=
  ∀ name b, s.labels.bindings.get? name = some b → b.region ≠ "" →
    ∃ r ∈ s.regions, r.name = b.region ∧ b.address ∈ r.extent

theorem Change.functionsLabelled (h : Change host s t) (hs : s.FunctionsLabelled) : t.FunctionsLabelled := by
  have hkept : ∀ a name, s.functions.get? a = some name →
      ∃ b, t.labels.bindings.get? name = some b ∧ b.address = a := by
    intro a name hname
    obtain ⟨b, hb, haddress⟩ := hs a name hname
    exact ⟨b, h.binding hb, haddress⟩
  intro a name hname
  rcases h.records.functions with hsame | ⟨c, other, hinsert, hbound⟩
  · exact hkept a name (hsame ▸ hname)
  · rw [hinsert] at hname
    by_cases hac : a = c
    · subst hac
      obtain rfl : other = name := by simpa using hname
      exact hbound
    · rw [Table.get?_insert_ne _ hac] at hname
      exact hkept a name hname

theorem Built.functionsLabelled (h : Built s) : s.FunctionsLabelled :=
  h.of_changes (fun _ _ hname => by cases hname) fun _ _ _ hchange hs => hchange.functionsLabelled hs

theorem region_of_regionNameAt (hname : s.regionNameAt a ≠ "") :
    ∃ r ∈ s.regions, r.name = s.regionNameAt a ∧ a ∈ r.extent := by
  rw [regionNameAt] at hname ⊢
  cases hregion : s.regionAt a with
  | none => simp [hregion] at hname
  | some r =>
    obtain ⟨hr, hin⟩ := mem_of_regionAt hregion
    exact ⟨r, hr, rfl, hin⟩

theorem Change.labelsLie (h : Change host s t) (hs : s.LabelsLie) : t.LabelsLie := by
  have hsub := h.keeps.regions.subset
  have hkept : ∀ name b, s.labels.bindings.get? name = some b → b.region ≠ "" →
      ∃ r ∈ t.regions, r.name = b.region ∧ b.address ∈ r.extent := by
    intro name b hb hregion
    obtain ⟨r, hr, hlies⟩ := hs name b hb hregion
    exact ⟨r, hsub hr, hlies⟩
  intro name b hb hregion
  rcases h.records.labels with hsame | ⟨a, other, kind, _, hcreate⟩
  · exact hkept name b (hsame ▸ hb) hregion
  · obtain ⟨labels, hadd, hlabels⟩ := createLabel_eq_ok_iff.1 hcreate
    rw [show t.labels = labels from congrArg AddressSpace.labels hlabels] at hb
    rcases LabelTable.add_outcome hadd with rfl | rfl
    · exact hkept name b hb hregion
    · by_cases hname : name = other
      · subst hname
        obtain rfl := Option.some.inj ((Table.get?_insert_self ..).symm.trans hb)
        obtain ⟨r, hr, hlies⟩ := region_of_regionNameAt hregion
        exact ⟨r, hsub hr, hlies⟩
      · rw [Table.get?_insert_ne _ hname] at hb
        exact hkept name b hb hregion

theorem Built.labelsLie (h : Built s) : s.LabelsLie :=
  h.of_changes (fun _ _ hb => by cases hb) fun _ _ _ hchange hs => hchange.labelsLie hs

/-! ### Instructions -/

/-- Every instruction is noted at its own address, and its bytes lie in one region. -/
def InstructionsLie (s : AddressSpace) : Prop :=
  ∀ a i, s.instructions.get? a = some i →
    i.address = a ∧ i.size = Mips.instructionSize ∧ ∃ r ∈ s.regions, a ∈ r.extent ∧ a + i.size ≤ r.stop

/-- What is decoded in a region has not been cut off by its end. -/
theorem Arranged.decoded_within {decoder : Decoder} {i : Instruction} (hs : s.Arranged)
    (hdecoder : host.decoder = decoder.guarded) (h : (s.decoded host a).1 = some i) :
    ∃ r ∈ s.regions, a ∈ r.extent ∧ a + Mips.instructionSize ≤ r.stop ∧ ∃ code, decoder code a = some i := by
  rw [decoded, hdecoder] at h
  cases hregion : s.regionAt a with
  | none => simp [hregion] at h
  | some r =>
    obtain ⟨hr, hin⟩ := mem_of_regionAt hregion
    have hbounds := Region.mem_extent.1 hin
    obtain ⟨n, hn⟩ := Int.eq_ofNat_of_zero_le (a := min (r.stop - a) 4) (by omega)
    have hread := hs.read_of_locate (locate_eq_ok_iff.2 ⟨hregion, show a + (n : Int) ≤ r.stop by omega⟩)
    simp only [hregion, hn, hread, Except.toOption, Option.getD_some] at h
    cases hdecoded : decoder.guarded ((List.range n).map fun j => s.byteIn ⟨r.storage, r.storageIndex a + j⟩) a with
    | none => simp [hdecoded] at h
    | some k =>
      obtain rfl : k = i := by simpa [hdecoded] using h
      obtain ⟨hlength, hcode⟩ := Decoder.length_of_guarded hdecoded
      rw [List.length_map, List.length_range] at hlength
      exact ⟨r, hr, hin, by omega, _, hcode⟩

theorem Change.instructionsLie {decoder : Decoder} (h : Change host s t) (hs : s.Arranged)
    (hdecoder : host.decoder = decoder.guarded) (hreports : decoder.Reports) (hlie : s.InstructionsLie) :
    t.InstructionsLie := by
  have hsub := h.keeps.regions.subset
  intro b i hi
  have hkept : s.instructions.get? b = some i → _ := hlie b i
  rcases h.records.instructions with hsame | ⟨a, k, hdecoded, hinsert⟩
  · obtain ⟨haddress, hsize, r, hr, hlies⟩ := hkept (hsame ▸ hi)
    exact ⟨haddress, hsize, r, hsub hr, hlies⟩
  · rw [hinsert] at hi
    by_cases hab : b = a
    · subst hab
      obtain rfl : k = i := by simpa using hi
      obtain ⟨r, hr, hin, hstop, code, hcode⟩ := hs.decoded_within hdecoder hdecoded
      have hinside := hs.inside r hr
      obtain ⟨hfrom, hto⟩ := Region.mem_extent.1 hin
      have hsize := hreports.size _ _ _ hcode
      refine ⟨hreports.address _ _ _ ?_ ?_ hcode, hsize, r, hsub hr, hin, by rw [hsize]; exact hstop⟩
      · exact Int.le_trans hinside.1 hfrom
      · exact Int.lt_of_lt_of_le hto hinside.2
    · rw [Table.get?_insert_ne _ hab] at hi
      obtain ⟨haddress, hsize, r, hr, hlies⟩ := hkept hi
      exact ⟨haddress, hsize, r, hsub hr, hlies⟩

theorem BuiltWith.built {decoder : Decoder} (h : BuiltWith decoder s) : Built s := by
  induction h with
  | empty => exact .empty
  | step _ limit o ih => exact ih.step _ o

theorem BuiltWith.instructionsLie {decoder : Decoder} (h : BuiltWith decoder.guarded s)
    (hreports : decoder.Reports) : s.InstructionsLie := by
  induction h with
  | empty =>
    intro a i hi
    cases hi
  | @step u hbuilt limit o ih =>
    have hc : Changes ⟨limit, decoder.guarded⟩ u (o.run ⟨limit, decoder.guarded⟩ u) := o.changes u
    have hboth := hc.preserves (P := fun v => v.Arranged ∧ v.InstructionsLie)
      (fun _ _ hchange hv => ⟨hchange.arranged hv.1, hchange.instructionsLie hv.1 rfl hreports hv.2⟩)
      ⟨hbuilt.built.arranged, ih⟩
    exact hboth.2

/-! ### All of them together -/

theorem BuiltWith.runAll {decoder : Decoder} (h : BuiltWith decoder s) (limit : Int)
    (operations : List Operation) : BuiltWith decoder (Operation.runAll ⟨limit, decoder⟩ s operations) := by
  induction operations generalizing s with
  | nil => exact h
  | cons o rest ih => exact ih (h.step limit o)

/-- What histories note down agrees with what they map, when the decoder is only asked about whole instructions
and reports them as it should. Data lies in the region of its address. A function has its name as a label, at its
address and at no other one. A label that remembers a region lies in one of that name. Instructions are noted
where they stand, and each lies in one region. No entry point is noted twice. -/
theorem BuiltWith.listings_agree {decoder : Decoder} (h : BuiltWith decoder.guarded s)
    (hreports : decoder.Reports) :
    (∀ a item, s.data.get? a = some item → item.width ∈ [8, 16, 32] ∧
        ∃ r ∈ s.regions, a ∈ r.extent ∧ ∀ x ∈ item.extent a, x ∈ r.extent) ∧
      (∀ a name, s.functions.get? a = some name →
        (∃ l ∈ s.labels.listing, l.name = name ∧ l.address = a) ∧
          ∀ b, s.functions.get? b = some name → b = a) ∧
      (∀ l ∈ s.labels.listing, l.region ≠ "" → ∃ r ∈ s.regions, r.name = l.region ∧ l.address ∈ r.extent) ∧
      (∀ a i, s.instructions.get? a = some i → i.address = a ∧ i.size = 4 ∧
        ∃ r ∈ s.regions, ∀ x ∈ (⟨a, 4⟩ : Extent), x ∈ r.extent) ∧
      s.entryPoints.Nodup := by
  have hbuilt := h.built
  refine ⟨fun a item hitem => ?_, fun a name hname => ?_, fun l hl hregion => ?_, fun a i hi => ?_, ?_⟩
  · obtain ⟨hwidth, r, hr, hin, hstop⟩ := hbuilt.dataLies a item hitem
    refine ⟨hwidth, r, hr, hin, fun x ⟨hfrom, hto⟩ => ?_⟩
    exact ⟨Int.le_trans hin.1 hfrom, Int.lt_of_lt_of_le hto hstop⟩
  · obtain ⟨b, hb, haddress⟩ := hbuilt.functionsLabelled a name hname
    refine ⟨⟨b.label name, LabelTable.mem_listing.2 ?_, rfl, haddress⟩, fun c hc => ?_⟩
    · exact congrArg (Option.map (·.label name)) hb
    · obtain ⟨b', hb', haddress'⟩ := hbuilt.functionsLabelled c name hc
      obtain rfl : b = b' := Option.some.inj (hb.symm.trans hb')
      rw [← haddress, ← haddress']
  · obtain ⟨b, hb, hlabel⟩ := Option.map_eq_some_iff.1 (LabelTable.mem_listing.1 hl)
    rw [← hlabel] at hregion ⊢
    exact hbuilt.labelsLie _ b hb hregion
  · obtain ⟨haddress, hsize, r, hr, hin, hstop⟩ := h.instructionsLie hreports a i hi
    rw [hsize] at hstop
    refine ⟨haddress, hsize, r, hr, fun x ⟨hfrom, hto⟩ => ?_⟩
    exact ⟨Int.le_trans hin.1 hfrom, Int.lt_of_lt_of_le hto hstop⟩
  · exact hbuilt.of_changes List.nodup_nil fun _ _ _ hchange hs => hchange.nodup_entryPoints hs

/-- Notes on a region and its mirror: data, a function that calls the start of the region, a label in unmapped
memory that is mapped later, and the instruction at the start. -/
def annotated : AddressSpace := Operation.runAll defaultHost ∅ [
  .createRegion "RAM" ⟨0x80000000, 0x100⟩ .readExecute (some [0, 0, 0, 0x0C]),
  .createMirror "LOW" 0x80000000 ⟨0x1000, 0x10⟩,
  .createData 0x1008 16 4,
  .createFunction 0x1000 "boot",
  .createLabel 0x1010 "later" .data,
  .addEntryPoint 0x1000,
  .addEntryPoint 0x1000,
  .disassemble 0x1000,
  .createRegion "LATE" ⟨0x1010, 4⟩ .all none]

theorem builtWith_annotated : BuiltWith Mips.decode.guarded annotated := by
  rw [Mips.decode_guarded]
  exact BuiltWith.empty.runAll ..

theorem annotated_listings :
    Mips.decode.Reports ∧ BuiltWith Mips.decode.guarded annotated ∧
      (∃ r ∈ annotated.regions, ∀ x ∈ (⟨0x1008, 8⟩ : Extent), x ∈ r.extent) ∧
      (∃ l ∈ annotated.labels.listing, l.name = "boot" ∧ l.address = 0x1000) ∧
      (∃ i, annotated.instructions.get? 0x1000 = some i ∧ i.address = 0x1000 ∧
        ∃ r ∈ annotated.regions, ∀ x ∈ (⟨0x1000, 4⟩ : Extent), x ∈ r.extent) ∧
      annotated.entryPoints.Nodup := by
  obtain ⟨hdata, hfunctions, -, hinstructions, hentries⟩ :=
    BuiltWith.listings_agree builtWith_annotated Mips.decode_reports
  obtain ⟨-, r, hr, -, hlies⟩ := hdata 0x1008 ⟨16, 4⟩ rfl
  obtain ⟨hlabel, -⟩ := hfunctions 0x1000 "boot" rfl
  have hthere : (annotated.instructions.get? 0x1000).isSome := by decide
  obtain ⟨i, hi⟩ := Option.isSome_iff_exists.1 hthere
  obtain ⟨haddress, -, hregion⟩ := hinstructions 0x1000 i hi
  exact ⟨Mips.decode_reports, builtWith_annotated, ⟨r, hr, hlies⟩, hlabel, ⟨i, hi, haddress, hregion⟩, hentries⟩

end AddressSpace

end PsxExe
