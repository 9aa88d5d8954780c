import PsxExe.Proofs.Load.Refusal
import PsxExe.Proofs.MemoryMap.SettledMap

/-!
# Loading a file again

A load leaves an address space in which the same load has nothing left to do. The requests of the map are
settled, the entry point is declared or its name is bound elsewhere for good, and the search for the main
function finds in the same memory the same call, decoded and labelled before.
-/

namespace PsxExe

open AddressSpace LoadM

variable {host : Host} {file : Bytes} {h : Header} {s t : AddressSpace} {a : Int}

theorem Operation.run_load (host : Host) (s : AddressSpace) (file : Bytes) (m : Monitor) :
    (Operation.load file m).run host s =
      ((PsxExe.load host file).exec ⟨s, m, []⟩).2.space := rfl

namespace AddressSpace

/-! ### The entry point -/

/-- The registers are set, and the name of the entry point is bound: elsewhere, or to a function that is
an entry point. -/
structure Entered (h : Header) (s : AddressSpace) : Prop where
  gp : s.registers.get? "gp" = some (word32 h.initialGp)
  sp : s.registers.get? "sp" = some (word32 h.stackPointer)
  start : ∃ b, s.labels.bindings.get? entryName = some b ∧
    (b.address = h.initialPc →
      s.functions.get? h.initialPc = some entryName ∧ h.initialPc ∈ s.entryPoints)

theorem addEntryPoint_eq (s : AddressSpace) (a : Int) :
    ∃ entryPoints, s.addEntryPoint a = { s with entryPoints } ∧ a ∈ entryPoints ∧
      (s.entryPoints.Nodup → entryPoints.count a = 1) ∧
      entryPoints.filter (· ≠ a) = s.entryPoints.filter (· ≠ a) := by
  rw [addEntryPoint]
  by_cases ha : a ∈ s.entryPoints
  · rw [if_pos ha]
    exact ⟨_, rfl, ha, fun hs => by rw [hs.count, if_pos ha], rfl⟩
  · rw [if_neg ha]
    refine ⟨_, rfl, List.mem_append_right _ (List.mem_singleton.2 rfl), fun _ => ?_, by simp⟩
    rw [List.count_append, List.count_eq_zero_of_not_mem ha, List.count_singleton_self]

theorem setRegister_eq_self {register : String} {value : Int}
    (hvalue : s.registers.get? register = some (word32 value)) : s.setRegister register value = s := by
  rw [setRegister, Table.insert_eq_self hvalue]

theorem declared_of_createLabel {l : Label} (hcreate : s.createLabel a entryName .entryPoint = .ok (l, t)) :
    s.declared a = { t with functions := t.functions.insert a entryName }.addEntryPoint a := by
  rw [declared, hcreate]

theorem declared_of_refused {e : SpaceError} (hcreate : s.createLabel a entryName .entryPoint = .error e) :
    s.declared a = s := by
  rw [declared, hcreate]

theorem declared_of_bound {b : Binding} (hb : s.labels.bindings.get? entryName = some b) :
    s.declared a =
      if b.address = a then { s with functions := s.functions.insert a entryName }.addEntryPoint a else s := by
  have hname : isLabelName entryName = true := by decide
  have hcreate : s.createLabel a entryName .entryPoint = _ := createLabel_of_bound hname hb
  by_cases haddress : b.address = a
  · rw [if_pos haddress] at hcreate ⊢
    exact declared_of_createLabel hcreate
  · rw [if_neg haddress] at hcreate ⊢
    exact declared_of_refused hcreate

theorem declared_outcome (s : AddressSpace) (a : Int) :
    ∃ labels functions entryPoints, s.declared a = { s with labels, functions, entryPoints } ∧
      ∃ b, labels.bindings.get? entryName = some b ∧
        (b.address = a → functions.get? a = some entryName ∧ a ∈ entryPoints) := by
  have hname : isLabelName entryName = true := by decide
  cases hcreate : s.createLabel a entryName .entryPoint with
  | ok created =>
    obtain ⟨l, t⟩ := created
    obtain ⟨-, b, hb, -⟩ := createLabel_binds hcreate
    rw [declared_of_createLabel hcreate]
    obtain ⟨labels, -, rfl⟩ := createLabel_eq_ok_iff.1 hcreate
    obtain ⟨entryPoints, hentry, hmem, -⟩ :=
      addEntryPoint_eq { s with labels, functions := s.functions.insert a entryName } a
    rw [hentry]
    exact ⟨_, _, _, rfl, b, hb, fun _ => ⟨Table.get?_insert_self .., hmem⟩⟩
  | error e =>
    have htaken := taken_labelled s a entryName .entryPoint hname
    rw [labelled, hcreate] at htaken
    obtain ⟨b, hb⟩ := Option.isSome_iff_exists.1 htaken
    refine ⟨_, _, _, declared_of_refused hcreate, b, hb, fun haddress => ?_⟩
    have hbound : s.createLabel a entryName .entryPoint = _ := createLabel_of_bound hname hb
    rw [hcreate, if_pos haddress] at hbound
    cases hbound

theorem enter_outcome (s : AddressSpace) (h : Header) :
    (∃ labels functions entryPoints registers,
      s.enter h = { s with labels, functions, entryPoints, registers }) ∧ (s.enter h).Entered h := by
  obtain ⟨labels, functions, entryPoints, hdeclared, hstart⟩ := declared_outcome s h.initialPc
  rw [enter, hdeclared]
  refine ⟨⟨_, _, _, _, rfl⟩, ?_, Table.get?_insert_self .., hstart⟩
  have hne : "gp" ≠ "sp" := by decide
  exact (Table.get?_insert_ne _ hne _).trans (Table.get?_insert_self ..)

theorem Entered.enter_eq (hs : s.Entered h) : s.enter h = s := by
  obtain ⟨b, hb, hdeclared⟩ := hs.start
  have hsame : s.declared h.initialPc = s := by
    rw [declared_of_bound hb]
    by_cases haddress : b.address = h.initialPc
    · obtain ⟨hfunction, hentry⟩ := hdeclared haddress
      rw [if_pos haddress, Table.insert_eq_self hfunction]
      change s.addEntryPoint h.initialPc = s
      rw [addEntryPoint, if_pos hentry]
    · rw [if_neg haddress]
  rw [enter, hsame, setRegister_eq_self hs.gp, setRegister_eq_self hs.sp]

/-! ### The main function -/

theorem SameMemory.storageOf_eq (hsame : SameMemory s t) (r : Region) : t.storageOf r = s.storageOf r :=
  storageOf_congr hsame.storages

theorem SameMemory.firstMatch_eq (hsame : SameMemory s t) (start : Int) (pattern : Pattern) :
    t.firstMatch start pattern = s.firstMatch start pattern := by
  have hregion : t.regionAt start = s.regionAt start := by rw [regionAt, hsame.regions, regionAt]
  have hwindows : t.scanWindows start = s.scanWindows start := by
    rw [scanWindows, scanRegions, hsame.regions, scanWindows, scanRegions]
  have hsearch : t.searchWindow pattern = s.searchWindow pattern := by
    funext w
    rw [searchWindow, regionWindow, hsame.storageOf_eq, searchWindow, regionWindow]
  rw [firstMatch, hregion, hwindows, hsearch, firstMatch]

theorem SameMemory.decoded_eq (hsame : SameMemory s t) (host : Host) (a : Int) :
    t.decoded host a =
      ((s.decoded host a).1,
        match (s.decoded host a).1 with
        | none => t
        | some i => { t with instructions := t.instructions.insert a i }) := by
  have hregion : t.regionAt a = s.regionAt a := by rw [regionAt, hsame.regions, regionAt]
  have hread (n : Int) : t.read a n = s.read a n := by
    simp only [read, locate, hregion, hsame.storageOf_eq]
  rw [decoded, hregion, decoded]
  cases s.regionAt a with
  | none => rfl
  | some r =>
    dsimp only
    rw [hread]
    cases host.decoder ((s.read a (min (r.stop - a) 4)).toOption.getD []) a with
    | none => rfl
    | some i => rfl

/-- The call that a signature leads to, and where it stands. -/
def callBy (host : Host) (h : Header) (s : AddressSpace) (signature : Signature) :
    Option (Int × Instruction) :=
  (s.firstMatch h.initialPc signature.pattern).bind fun found =>
    (s.decoded host (found + signature.skip)).1.map (found + signature.skip, ·)

def noteInstruction (s : AddressSpace) (a : Int) (i : Instruction) : AddressSpace :=
  { s with instructions := s.instructions.insert a i }

theorem decoded_cases (s : AddressSpace) (host : Host) (a : Int) :
    s.decoded host a = (none, s) ∨ ∃ i, s.decoded host a = (some i, s.noteInstruction a i) := by
  rw [decoded]
  split
  next => exact .inl rfl
  next =>
    dsimp only
    split
    next => exact .inl rfl
    next i _ => exact .inr ⟨i, rfl⟩

theorem noteInstruction_sameMemory (s : AddressSpace) (a : Int) (i : Instruction) :
    SameMemory s (s.noteInstruction a i) := ⟨rfl, rfl⟩

theorem noteInstruction_eq_self {i : Instruction} (hi : s.instructions.get? a = some i) :
    s.noteInstruction a i = s := by
  rw [noteInstruction, Table.insert_eq_self hi]

theorem noteInstruction_keeps {b : Int} {i j : Instruction} (hj : (s.decoded host b).1 = some j)
    (hdecodes : (s.decoded host a).1 = some i) (hi : s.instructions.get? a = some i) :
    (s.noteInstruction b j).instructions.get? a = some i := by
  -- What stood at the same address was decoded from the same bytes, so it is the same.
  by_cases hab : a = b
  · obtain rfl := hab
    obtain rfl := Option.some.inj (hj.symm.trans hdecodes)
    exact Table.get?_insert_self ..
  · exact (Table.get?_insert_ne _ hab _).trans hi

theorem SameMemory.callBy_eq (hsame : SameMemory s t) (signature : Signature) :
    t.callBy host h signature = s.callBy host h signature := by
  rw [callBy, callBy, hsame.firstMatch_eq]
  congr 1
  funext found
  rw [hsame.decoded_eq]

theorem decoded_of_callBy {signature : Signature} {i : Instruction}
    (hcall : s.callBy host h signature = some (a, i)) : (s.decoded host a).1 = some i := by
  obtain ⟨found, -, hdecoded⟩ := Option.bind_eq_some_iff.1 hcall
  obtain ⟨j, hj, hpair⟩ := Option.map_eq_some_iff.1 hdecoded
  obtain ⟨rfl, rfl⟩ := Prod.mk.inj hpair
  exact hj

theorem searchMain_cons (signature : Signature) (rest : List Signature) :
    s.searchMain host h (signature :: rest) =
      match s.callBy host h signature with
      | none => s.searchMain host h rest
      | some (a, i) =>
        match i.reference 0 with
        | none => (s.noteInstruction a i).searchMain host h rest
        | some target =>
          match (s.noteInstruction a i).createLabel target mainName .function with
          | .error _ => (none, s.noteInstruction a i)
          | .ok (_, u) => (some target, u) := by
  rw [searchMain, callBy]
  cases s.firstMatch h.initialPc signature.pattern with
  | none => rfl
  | some found =>
    dsimp only [Option.bind_some]
    rcases s.decoded_cases host (found + signature.skip) with hdecoded | ⟨i, hdecoded⟩
    · rw [hdecoded]
      rfl
    · rw [hdecoded]
      rfl

/-- A search only adds labels and instructions, and keeps what has been decoded. -/
theorem searchMain_outcome (host : Host) (h : Header) (s : AddressSpace) (signatures : List Signature) :
    ∃ labels instructions, (s.searchMain host h signatures).2 = { s with labels, instructions } ∧
      ∀ a i, (s.decoded host a).1 = some i → s.instructions.get? a = some i →
        instructions.get? a = some i := by
  induction signatures generalizing s with
  | nil => exact ⟨_, _, rfl, fun _ _ _ hi => hi⟩
  | cons signature rest ih =>
    rw [searchMain_cons]
    cases hcall : s.callBy host h signature with
    | none => exact ih s
    | some call =>
      obtain ⟨b, j⟩ := call
      have hj := decoded_of_callBy hcall
      dsimp only
      cases j.reference 0 with
      | none =>
        obtain ⟨labels, instructions, hrest, hmore⟩ := ih (s.noteInstruction b j)
        refine ⟨labels, instructions, hrest, fun a i hdecodes hi => ?_⟩
        refine hmore a i ?_ (noteInstruction_keeps hj hdecodes hi)
        rw [(s.noteInstruction_sameMemory b j).decoded_eq]
        exact hdecodes
      | some target =>
        dsimp only
        cases hlabel : (s.noteInstruction b j).createLabel target mainName .function with
        | error e => exact ⟨_, _, rfl, fun _ _ => noteInstruction_keeps hj⟩
        | ok created =>
          obtain ⟨l, u⟩ := created
          obtain ⟨labels, -, rfl⟩ := createLabel_eq_ok_iff.1 hlabel
          exact ⟨_, _, rfl, fun _ _ => noteInstruction_keeps hj⟩

theorem searchMain_sameMemory (host : Host) (h : Header) (s : AddressSpace) (signatures : List Signature) :
    SameMemory s (s.searchMain host h signatures).2 := by
  obtain ⟨labels, instructions, houtcome, -⟩ := searchMain_outcome host h s signatures
  rw [houtcome]
  exact ⟨rfl, rfl⟩

theorem finish_sameMemory (host : Host) (h : Header) (s : AddressSpace) (signatures : List Signature) :
    SameMemory s ((s.enter h).searchMain host h signatures).2 := by
  obtain ⟨⟨_, _, _, _, henter⟩, -⟩ := enter_outcome s h
  obtain ⟨_, _, hsearch, -⟩ := searchMain_outcome host h (s.enter h) signatures
  rw [hsearch, henter]
  exact ⟨rfl, rfl⟩

/-- What was noted in front of a search is still there behind it, so noting it again changes nothing. -/
theorem searchMain_noted {i : Instruction} (hi : (s.decoded host a).1 = some i) (rest : List Signature) :
    ((s.noteInstruction a i).searchMain host h rest).2.instructions.get? a = some i := by
  obtain ⟨labels, instructions, houtcome, hkept⟩ := searchMain_outcome host h (s.noteInstruction a i) rest
  rw [houtcome]
  refine hkept a i ?_ (Table.get?_insert_self ..)
  rw [(s.noteInstruction_sameMemory a i).decoded_eq]
  exact hi

theorem searchMain_again {signatures : List Signature} {found : Option Int}
    (hfirst : s.searchMain host h signatures = (found, t)) :
    t.searchMain host h signatures = (found, t) := by
  induction signatures generalizing s with
  | nil =>
    obtain ⟨rfl, rfl⟩ := Prod.mk.inj hfirst
    rfl
  | cons signature rest ih =>
    have hsame : SameMemory s t := by
      have hmemory := searchMain_sameMemory host h s (signature :: rest)
      rw [hfirst] at hmemory
      exact hmemory
    rw [searchMain_cons] at hfirst
    rw [searchMain_cons, hsame.callBy_eq]
    cases hcall : s.callBy host h signature with
    | none =>
      rw [hcall] at hfirst
      exact ih hfirst
    | some call =>
      obtain ⟨a, i⟩ := call
      rw [hcall] at hfirst
      dsimp only at hfirst ⊢
      cases hreference : i.reference 0 with
      | none =>
        rw [hreference] at hfirst
        have hnoted := searchMain_noted (h := h) (decoded_of_callBy hcall) rest
        dsimp only at hfirst ⊢
        rw [hfirst] at hnoted
        rw [noteInstruction_eq_self hnoted]
        exact ih hfirst
      | some target =>
        rw [hreference] at hfirst
        have hnoted : (s.noteInstruction a i).instructions.get? a = some i := Table.get?_insert_self ..
        dsimp only at hfirst ⊢
        cases hlabel : (s.noteInstruction a i).createLabel target mainName .function with
        | error e =>
          rw [hlabel] at hfirst
          obtain ⟨rfl, rfl⟩ := Prod.mk.inj hfirst
          rw [noteInstruction_eq_self hnoted, hlabel]
        | ok created =>
          obtain ⟨l, u⟩ := created
          rw [hlabel] at hfirst
          obtain ⟨k, hagain⟩ := createLabel_again hlabel .function
          obtain ⟨labels, -, hu⟩ := createLabel_eq_ok_iff.1 hlabel
          have hkept : u.instructions.get? a = some i := by
            rw [hu]
            exact hnoted
          obtain ⟨rfl, rfl⟩ := Prod.mk.inj hfirst
          rw [noteInstruction_eq_self hkept, hagain]

/-! ### The whole load -/

theorem enter_changes (s : AddressSpace) (h : Header) : Changes host s (s.enter h) := by
  have hchanges : Changes host s ((applyEntryPoint h).exec ⟨s, {}, []⟩).2.space :=
    applyEntryPoint_onlyChanges h ⟨s, {}, []⟩
  rw [applyEntryPoint_settles] at hchanges
  exact hchanges

theorem searchMain_changes (host : Host) (h : Header) (s : AddressSpace) (signatures : List Signature) :
    Changes host s (s.searchMain host h signatures).2 := by
  obtain ⟨q, hends, hspace⟩ :=
    @locateMain_ends host h ⟨s, {}, []⟩ s rfl Monitor.patient_default signatures
  have hchanges : Changes host s ((locateMain host h signatures).exec ⟨s, {}, []⟩).2.space :=
    locateMain_onlyChanges h signatures ⟨s, {}, []⟩
  rw [hends.run] at hchanges
  rw [← hspace]
  exact hchanges

theorem Entered.of_changes (hs : s.Entered h) (hc : Changes host s t) (hregisters : t.registers = s.registers)
    (hfunctions : t.functions = s.functions) (hentries : t.entryPoints = s.entryPoints) : t.Entered h := by
  obtain ⟨b, hb, hdeclared⟩ := hs.start
  refine ⟨?_, ?_, b, hc.binding hb, ?_⟩
  · rw [hregisters]
    exact hs.gp
  · rw [hregisters]
    exact hs.sp
  · rw [hfunctions, hentries]
    exact hdeclared

/-- Behind a load its requests are settled, its entry point is declared, and the search is over. -/
theorem settled_of_load {found : Option Int} (hs : s.Arranged) (hg : s.Granted host)
    (hload : ((Request.applyAll host file s h.memoryMap).space.enter h).searchMain host h entrySignatures =
      (found, t)) :
    (∀ r ∈ h.memoryMap, r.Settled host file t) ∧ t.enter h = t ∧
      t.searchMain host h entrySignatures = (found, t) := by
  have hrealized : Changes host s (Request.applyAll host file s h.memoryMap).space :=
    Request.applyAll_changes _ s
  have hsettled : ∀ r ∈ h.memoryMap,
      r.Settled host file (Request.applyAll host file s h.memoryMap).space :=
    h.memoryMap_settles s hs hg
  generalize (Request.applyAll host file s h.memoryMap).space = u at *
  obtain ⟨⟨_, _, _, _, henter⟩, hentered⟩ := enter_outcome u h
  obtain ⟨_, _, hsearch, -⟩ := searchMain_outcome host h (u.enter h) entrySignatures
  have hfinished : Changes host (u.enter h) t := by
    have hsearched := searchMain_changes host h (u.enter h) entrySignatures
    rw [hload] at hsearched
    exact hsearched
  rw [hload] at hsearch
  change t = _ at hsearch
  refine ⟨fun r hr => ?_, Entered.enter_eq ?_, searchMain_again hload⟩
  · have hc : Changes host u t := (enter_changes u h).trans hfinished
    refine (hsettled r hr).of_changes (hrealized.arranged hs) (hrealized.granted hg) hc fun a _ => ?_
    refine SameMemory.spares ⟨?_, ?_⟩ ?_ a
    all_goals rw [hsearch, henter]
  · refine hentered.of_changes hfinished ?_ ?_ ?_
    all_goals rw [hsearch]

/-- To load a file a second time, on the machine on which the address space was built, changes nothing at
all in the space, finds the same main function, and is refused everything that it wants to map. -/
theorem Reachable.load_again {p q : Progress} (hs : Reachable host p.space)
    (hparse : Header.parse file = .ok h) (hp : p.monitor.Patient) (hq : q.monitor.Patient)
    (hagain : q.space = ((load host file).exec p).2.space) :
    ∃ first second, ((load host file).exec p).1 = .ok first ∧ ((load host file).exec q).1 = .ok second ∧
      ((load host file).exec q).2.space = q.space ∧ q.space.entryPoints.Nodup ∧
      second.mainAddress = first.mainAddress ∧ second.requests = h.memoryMap ∧
      ∀ r ∈ h.memoryMap, r.maps = true → ∃ cause, ⟨r, cause⟩ ∈ second.failures := by
  obtain ⟨p', hfirst, hp', -⟩ := @load_ends host file h p hparse hp
  obtain ⟨q', hsecond, hq', -⟩ := @load_ends host file h q hparse hq
  have harranged : p.space.Arranged := hs.built.arranged
  have hgranted : p.space.Granted host := hs.changes.granted granted_empty
  have hchanges : Changes host p.space q.space := by
    rw [hagain]
    exact load_onlyChanges p
  rcases hload : ((Request.applyAll host file p.space h.memoryMap).space.enter h).searchMain host h
    entrySignatures with ⟨found, t⟩
  rw [hload] at hfirst hp'
  obtain rfl : q.space = t := by rw [hagain, hfirst.run, hp']
  -- The second load starts where the first one ended, and has nothing left to do in any phase.
  obtain ⟨hsettled, hentered, hsearched⟩ := settled_of_load harranged hgranted hload
  obtain ⟨hspace, hfailures⟩ := Request.applyAll_of_settled hsettled
  rw [hspace, hentered, hsearched] at hsecond hq'
  refine ⟨_, _, congrArg Prod.fst hfirst.run, congrArg Prod.fst hsecond.run, ?_, ?_, rfl, rfl, hfailures⟩
  · rw [hsecond.run]
    exact hq'
  · have hall : Changes host ∅ q.space := hs.changes.trans hchanges
    exact hall.preserves (fun _ _ hchange hnodup => hchange.nodup_entryPoints hnodup) List.nodup_nil

theorem blankImage_loadedAgain :
    (Operation.load blankImage {}).run defaultHost ((Operation.load blankImage {}).run defaultHost ∅) =
        (Operation.load blankImage {}).run defaultHost ∅ ∧
      ∃ second, ((load defaultHost blankImage).exec
          ⟨(Operation.load blankImage {}).run defaultHost ∅, {}, []⟩).1 = .ok second ∧
        (∃ cause, ⟨.region ⟨"RAM_B", ⟨0x80000000, 0x200000⟩, .all, none⟩, cause⟩ ∈ second.failures) ∧
        ∃ cause, ⟨.mirror ⟨"RAM_C", 0x80000000, ⟨0xA0000000, 0x200000⟩⟩, cause⟩ ∈ second.failures := by
  have hfirst := Operation.run_load defaultHost ∅ blankImage {}
  generalize (Operation.load blankImage {}).run defaultHost ∅ = s at hfirst ⊢
  obtain ⟨first, second, -, hsecond, hspace, -, -, -, hfailures⟩ :=
    @Reachable.load_again defaultHost blankImage blankHeader ⟨∅, {}, []⟩ ⟨s, {}, []⟩ .empty
      parse_blankImage Monitor.patient_default Monitor.patient_default hfirst
  have hsecondRun := Operation.run_load defaultHost s blankImage {}
  have hmap : blankHeader.memoryMap.take 3 = [.region ⟨"RAM_B", ⟨0x80000000, 0x200000⟩, .all, none⟩,
    .mirror ⟨"RAM_A", 0x80000000, ⟨0, 0x200000⟩⟩,
    .mirror ⟨"RAM_C", 0x80000000, ⟨0xA0000000, 0x200000⟩⟩] := rfl
  have hmem : ∀ r ∈ blankHeader.memoryMap.take 3, r ∈ blankHeader.memoryMap :=
    fun r hr => List.mem_of_mem_take hr
  rw [hmap] at hmem
  refine ⟨hsecondRun.trans hspace, second, hsecond, hfailures _ (hmem _ ?_) rfl, hfailures _ (hmem _ ?_) rfl⟩
  · exact List.mem_cons_self
  · exact List.mem_cons_of_mem _ (List.mem_cons_of_mem _ List.mem_cons_self)

end AddressSpace

end PsxExe
