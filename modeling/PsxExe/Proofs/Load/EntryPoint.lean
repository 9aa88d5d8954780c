import PsxExe.Proofs.Label.Table
import PsxExe.Proofs.Load.Again

/-!
# The entry point, all or nothing

Three tables take part in the declaration of an entry point: it is labelled, it becomes a function, and it joins the
entry points. Only the label can be refused, and it comes first: once the name is bound to the address, the label
that a function asks for is bound already. So where the name is bound elsewhere nothing has happened to any of the
three, and otherwise all three agree. The registers are set either way.
-/

namespace PsxExe

open AddressSpace LoadM

variable {h : Header} {s : AddressSpace} {a : Int}

namespace AddressSpace

/-! ### The declaration -/

/-- The name of the entry point is free, or is bound to the address already. -/
def EntryFree (s : AddressSpace) (a : Int) : Prop := ∀ l, s.labels.find? entryName = some l → l.address = a

/-- An entry point is in all of its tables, which are otherwise those of the first space. -/
structure EntryDeclared (a : Int) (s t : AddressSpace) : Prop where
  address : ∃ l, t.labels.find? entryName = some l ∧ l.address = a
  /-- A label that was there before keeps its kind. -/
  label : t.labels.find? entryName =
    some ((s.labels.find? entryName).getD ⟨a, entryName, .entryPoint, s.regionNameAt a⟩)
  otherLabels : ∀ name, name ≠ entryName → t.labels.find? name = s.labels.find? name
  function : t.functions.get? a = some entryName
  otherFunctions : ∀ b, b ≠ a → t.functions.get? b = s.functions.get? b
  once : t.entryPoints.count a = 1
  otherEntries : t.entryPoints.filter (· ≠ a) = s.entryPoints.filter (· ≠ a)

theorem EntryFree.declared (hfree : s.EntryFree a) (hs : s.entryPoints.Nodup) :
    EntryDeclared a s (s.declared a) := by
  obtain ⟨l, labels, hcreate, hlabel, haddress⟩ := createLabel_of_agreeing (by decide) hfree .entryPoint
  obtain ⟨hfirst, -, hothers⟩ := find?_of_createLabel hcreate
  obtain ⟨entryPoints, hentries, -, honce, hrest⟩ :=
    addEntryPoint_eq { s with labels, functions := s.functions.insert a entryName } a
  rw [declared_of_createLabel hcreate, hentries]
  exact ⟨⟨l, hlabel, haddress⟩, hlabel.trans (congrArg some hfirst), hothers, Table.get?_insert_self ..,
    fun b hb => Table.get?_insert_ne _ hb _, honce hs, hrest⟩

theorem declared_of_not_entryFree (hbound : ¬ s.EntryFree a) : s.declared a = s := by
  simp only [EntryFree, not_forall] at hbound
  obtain ⟨l, hl, hne⟩ := hbound
  obtain ⟨e, hcreate⟩ := createLabel_of_elsewhere (by decide) hl hne .entryPoint
  exact declared_of_refused hcreate

/-! ### The registers -/

theorem enter_registers (s : AddressSpace) (h : Header) :
    (s.enter h).registers =
      (s.registers.insert "gp" (word32 h.initialGp)).insert "sp" (word32 h.stackPointer) := by
  obtain ⟨_, _, _, hdeclared, -⟩ := declared_outcome s h.initialPc
  rw [enter, hdeclared]
  rfl

theorem word32_stackPointer (h : Header) : word32 h.stackPointer = (h.stackBase + h.stackOffset) % 0x100000000 :=
  Int.emod_emod_of_dvd _ (Int.dvd_refl _)

/-! ### The whole step -/

theorem enter_of_entryFree (hs : s.entryPoints.Nodup) (hfree : s.EntryFree h.initialPc) :
    EntryDeclared h.initialPc s (s.enter h) := by
  exact { hfree.declared hs with }

theorem enter_of_not_entryFree (hbound : ¬ s.EntryFree h.initialPc) :
    (s.enter h).labels = s.labels ∧ (s.enter h).functions = s.functions ∧
      (s.enter h).entryPoints = s.entryPoints := by
  rw [enter, declared_of_not_entryFree hbound]
  exact ⟨rfl, rfl, rfl⟩

/-- The entry point is declared in all of its tables where its name is free or bound to it, and in none where the
name is bound elsewhere. The registers are set in both cases, all else stays as it was, and a second time changes
nothing. -/
theorem Built.applyEntryPoint_atomic {p : Progress} (hs : Built p.space) (h : Header) :
    ∃ t log, (applyEntryPoint h).exec p = (.ok (), ⟨t, p.monitor, log⟩) ∧
      (p.space.EntryFree h.initialPc → EntryDeclared h.initialPc p.space t) ∧
      (¬ p.space.EntryFree h.initialPc →
        t.labels = p.space.labels ∧ t.functions = p.space.functions ∧ t.entryPoints = p.space.entryPoints) ∧
      t.registers.get? "gp" = some (h.initialGp % 0x100000000) ∧
      t.registers.get? "sp" = some ((h.stackBase + h.stackOffset) % 0x100000000) ∧
      (∀ register, register ≠ "gp" → register ≠ "sp" →
        t.registers.get? register = p.space.registers.get? register) ∧
      t.regions = p.space.regions ∧ t.storages = p.space.storages ∧ t.data = p.space.data ∧
      t.instructions = p.space.instructions ∧
      ∀ q : Progress, q.space = t →
        ((applyEntryPoint h).exec q).1 = .ok () ∧ ((applyEntryPoint h).exec q).2.space = t := by
  have hnodup : p.space.entryPoints.Nodup :=
    hs.of_changes List.nodup_nil fun _ _ _ hchange hs => hchange.nodup_entryPoints hs
  obtain ⟨⟨labels, functions, entryPoints, registers, henter⟩, hentered⟩ := enter_outcome p.space h
  have hregisters := enter_registers p.space h
  refine ⟨p.space.enter h, _, applyEntryPoint_settles h p, enter_of_entryFree hnodup, enter_of_not_entryFree,
    hentered.gp, ?_, fun register hgp hsp => ?_, ?_, ?_, ?_, ?_, fun q hq => ?_⟩
  · rw [← word32_stackPointer]
    exact hentered.sp
  · rw [hregisters, Table.get?_insert_ne _ hsp, Table.get?_insert_ne _ hgp]
  iterate 4 rw [henter]
  · rw [applyEntryPoint_settles, hq]
    exact ⟨rfl, hentered.enter_eq⟩

def wrappedHeader : Header :=
  ⟨Header.expectedMagic, 0x80000010, 0x8001F800, ⟨0x80000000, 0x20⟩, ⟨0, 0⟩, ⟨0, 0⟩, 0xFFFFFFF0, 0x30, ""⟩

/-- The program starts at typed data with the name of the entry point, which is an entry point between two others. -/
def enteredBefore : AddressSpace := Operation.runAll defaultHost ∅ [
  .createRegion "RAM" ⟨0x80000000, 0x20⟩ .all none,
  .createLabel 0x80000010 "start" .data,
  .createFunction 0x80000004 "boot",
  .addEntryPoint 0x80000008,
  .addEntryPoint 0x80000010,
  .addEntryPoint 0x80000004,
  .setRegister "ra" 0x80000000]

def enteredElsewhere : AddressSpace := Operation.runAll defaultHost ∅ [
  .createRegion "RAM" ⟨0x80000000, 0x20⟩ .all none,
  .createFunction 0x80000000 "start",
  .addEntryPoint 0x80000008]

theorem enteredBefore_entry :
    Built enteredBefore ∧ Built enteredElsewhere ∧ enteredBefore.EntryFree 0x80000010 ∧
      ¬ enteredElsewhere.EntryFree 0x80000010 ∧
      (∃ t log, (applyEntryPoint wrappedHeader).exec ⟨enteredBefore, {}, []⟩ = (.ok (), ⟨t, {}, log⟩) ∧
        t.labels.find? "start" = some ⟨0x80000010, "start", .data, "RAM"⟩ ∧
        t.functions.get? 0x80000010 = some "start" ∧ t.functions.get? 0x80000004 = some "boot" ∧
        t.entryPoints.count 0x80000010 = 1 ∧
        t.entryPoints.filter (· ≠ 0x80000010) = [0x80000008, 0x80000004] ∧
        t.registers.get? "sp" = some 0x20 ∧ t.registers.get? "ra" = some 0x80000000) ∧
      ∃ t log, (applyEntryPoint wrappedHeader).exec ⟨enteredElsewhere, {}, []⟩ = (.ok (), ⟨t, {}, log⟩) ∧
        t.labels = enteredElsewhere.labels ∧ t.functions.get? 0x80000010 = none ∧
        t.entryPoints = [0x80000008] ∧ t.registers.get? "gp" = some 0x8001F800 := by
  have hbefore : Built enteredBefore := Built.empty.runAll ..
  have helsewhere : Built enteredElsewhere := Built.empty.runAll ..
  have hlabel : enteredBefore.labels.find? "start" = some ⟨0x80000010, "start", .data, "RAM"⟩ := by decide
  have hfree : enteredBefore.EntryFree 0x80000010 := by
    intro l hl
    rw [Option.some.inj (hl.symm.trans hlabel)]
  have hbound : ¬ enteredElsewhere.EntryFree 0x80000010 := fun hfree =>
    absurd (hfree ⟨0x80000000, "start", .function, "RAM"⟩ (by decide)) (by decide)
  refine ⟨hbefore, helsewhere, hfree, hbound, ?_, ?_⟩
  · obtain ⟨t, log, hexec, hdeclared, -, -, hsp, hregisters, -⟩ :=
      Built.applyEntryPoint_atomic (p := ⟨enteredBefore, {}, []⟩) hbefore wrappedHeader
    obtain ⟨-, hstart, -, hfunction, hothers, honce, hrest⟩ := hdeclared hfree
    refine ⟨t, log, hexec, ?_, hfunction, ?_, honce, ?_, hsp, ?_⟩
    · exact hstart.trans (by decide)
    · exact (hothers _ (by decide)).trans (by decide)
    · exact hrest.trans (by decide)
    · exact (hregisters "ra" (by decide) (by decide)).trans (by decide)
  · obtain ⟨t, log, hexec, -, hrefused, hgp, -⟩ :=
      Built.applyEntryPoint_atomic (p := ⟨enteredElsewhere, {}, []⟩) helsewhere wrappedHeader
    obtain ⟨hlabels, hfunctions, hentries⟩ := hrefused hbound
    refine ⟨t, log, hexec, hlabels, ?_, hentries, hgp⟩
    rw [hfunctions]
    decide

end AddressSpace

end PsxExe
