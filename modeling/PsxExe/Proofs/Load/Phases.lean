import PsxExe.Proofs.Hardware.Layout
import PsxExe.Proofs.Load.Scan
import PsxExe.Proofs.MemoryMap.Realize
import PsxExe.Proofs.Space.Notes

/-!
# The phases of a load

A load that nothing stops realizes the map of the header, declares the entry point and looks for the main
function, and what each phase makes of an address space is a function of that space. The log and the
messages of the monitor play no part in it.
-/

namespace PsxExe

open AddressSpace LoadM

variable {host : Host} {file : Bytes} {h : Header} {p : Progress}

namespace AddressSpace

/-- The space with its entry point declared. Only the label can be refused, and then nothing is declared. -/
def declared (s : AddressSpace) (pc : Int) : AddressSpace :=
  match s.createLabel pc entryName .entryPoint with
  | .error _ => s
  | .ok (_, t) => { t with functions := t.functions.insert pc entryName }.addEntryPoint pc

/-- The space with its entry point declared, unless the name is taken, and with the registers set. -/
def enter (s : AddressSpace) (h : Header) : AddressSpace :=
  ((s.declared h.initialPc).setRegister "gp" h.initialGp).setRegister "sp" h.stackPointer

/-- The target of the call that the first signature with a target leads to, unless its name is taken, and
the space with what was decoded and labelled on the way. -/
def searchMain (host : Host) (h : Header) (s : AddressSpace) : List Signature → Option Int × AddressSpace
  | [] => (none, s)
  | signature :: rest =>
    match s.firstMatch h.initialPc signature.pattern with
    | none => searchMain host h s rest
    | some found =>
      match s.decoded host (found + signature.skip) with
      | (none, t) => searchMain host h t rest
      | (some i, t) =>
        match i.reference 0 with
        | none => searchMain host h t rest
        | some target =>
          match t.createLabel target mainName .function with
          | .error _ => (none, t)
          | .ok (_, u) => (some target, u)

end AddressSpace

/-! ### The entry point and the main function -/

theorem declareEntry_exec (pc : Int) (p : Progress) :
    (declareEntry pc).exec p =
      match p.space.createLabel pc entryName .entryPoint with
      | .error e => (.error (.space e), p)
      | .ok _ => (.ok (), { p with space := p.space.declared pc }) := by
  rw [declareEntry, exec_bind, exec_alter, declared]
  cases hlabel : p.space.createLabel pc entryName .entryPoint with
  | error e => rfl
  | ok created =>
    obtain ⟨l, t⟩ := created
    have hfunction := createFunction_of_createLabel hlabel
    simp only [Except.map, exec_bind, exec_alter, hfunction, exec_modifySpace]

theorem applyEntryPoint_settles (h : Header) :
    Settles (applyEntryPoint h) (fun _ => ()) (·.enter h) fun s =>
      match s.createLabel h.initialPc entryName .entryPoint with
      | .error e => [.entryRefused h.initialPc e]
      | .ok _ => [] := by
  intro p
  rw [applyEntryPoint, exec_bind, exec_handling, declareEntry_exec]
  cases hlabel : p.space.createLabel h.initialPc entryName .entryPoint with
  | ok created => simp only [exec_bind, exec_modifySpace, enter, hlabel, List.append_nil]
  | error e =>
    have hhandled : e.isOf [.label] = true := e.isOf_label (createLabel_error hlabel)
    simp only [hhandled, if_true, exec_bind, exec_note, exec_modifySpace, enter, declared, hlabel]

theorem applyEntryPoint_ends (hp : p.monitor.Patient) (h : Header) :
    ∃ q, Ends (applyEntryPoint h) p () q ∧ q.space = p.space.enter h ∧ q.monitor = p.monitor :=
  ⟨_, (applyEntryPoint_settles h).ends hp, rfl, rfl⟩

theorem labelMain_settles (target : Int) :
    Settles (labelMain target)
      (fun s =>
        match s.createLabel target mainName .function with
        | .error _ => false
        | .ok _ => true)
      (·.labelled target mainName .function)
      fun s =>
        match s.createLabel target mainName .function with
        | .error e => [.mainRefused target e]
        | .ok _ => [] := by
  intro p
  rw [labelMain, exec_handling, exec_bind, exec_alter]
  dsimp only [labelled]
  cases hlabel : p.space.createLabel target mainName .function with
  | ok created => simp only [Except.map, exec_pure, List.append_nil]
  | error e =>
    have hhandled : e.isOf [.label] = true := e.isOf_label (createLabel_error hlabel)
    simp only [Except.map, hhandled, if_true, exec_bind, exec_note, exec_pure]

theorem disassemble_settles (a : Int) :
    Settles (LoadM.perform fun s => s.disassemble host a) (fun s => (s.decoded host a).1)
      (fun s => (s.decoded host a).2) fun _ => [] := by
  intro p
  rw [exec_perform, disassemble_eq, List.append_nil]

theorem locateMain_ends {s : AddressSpace} (hs : p.space = s) (hp : p.monitor.Patient)
    (signatures : List Signature) :
    ∃ q, Ends (locateMain host h signatures) p (s.searchMain host h signatures).1 q ∧
      q.space = (s.searchMain host h signatures).2 := by
  induction signatures generalizing p s with
  | nil => exact ⟨p, .pure hp none, hs⟩
  | cons signature rest ih =>
    obtain ⟨q, hscan, hspace⟩ := findSignature_ends hp h.initialPc signature
    rw [hs] at hscan hspace
    rw [locateMain, searchMain]
    cases hfound : s.firstMatch h.initialPc signature.pattern with
    | none =>
      rw [hfound] at hscan
      have hnote := Ends.note hscan.patient [.signatureMissing signature.name h.initialPc]
      obtain ⟨r, hrest, hr⟩ := ih (p := ⟨q.space, q.monitor, q.log ++ _⟩) hspace hnote.patient
      exact ⟨r, hscan.bind (hnote.bind hrest), hr⟩
    | some found =>
      rw [hfound] at hscan
      have hdecoding := (@disassemble_settles host (found + signature.skip)).ends hscan.patient
      rw [hspace] at hdecoding
      rcases hdecoded : s.decoded host (found + signature.skip) with ⟨instruction, t⟩
      simp only [hdecoded, List.append_nil] at hdecoding ⊢
      cases instruction with
      | none =>
        have hnote := Ends.note hdecoding.patient [.callUndecodable (found + signature.skip)]
        obtain ⟨r, hrest, hr⟩ := ih rfl hnote.patient
        exact ⟨r, hscan.bind (hdecoding.bind (hnote.bind hrest)), hr⟩
      | some i =>
        cases htarget : i.reference 0 with
        | none =>
          have hnote := Ends.note hdecoding.patient [.noReference i]
          obtain ⟨r, hrest, hr⟩ := ih rfl hnote.patient
          simp only [htarget]
          refine ⟨r, hscan.bind (hdecoding.bind ?_), hr⟩
          simp only [htarget]
          exact hnote.bind hrest
        | some target =>
          simp only [htarget]
          cases hlabel : t.createLabel target mainName .function with
          | error e =>
            have hlabelling := (labelMain_settles target).ends hdecoding.patient
            simp only [hlabel, labelled] at hlabelling
            refine ⟨⟨t, q.monitor, q.log ++ [.mainRefused target e]⟩, hscan.bind (hdecoding.bind ?_), rfl⟩
            simp only [htarget]
            exact hlabelling.bind (.pure hlabelling.patient none)
          | ok created =>
            have hlabelling := (labelMain_settles target).ends hdecoding.patient
            simp only [hlabel, labelled, List.append_nil] at hlabelling
            have hnote := Ends.note hlabelling.patient [.mainFound target (found + signature.skip)]
            refine ⟨⟨created.2, q.monitor, q.log ++ [.mainFound target (found + signature.skip)]⟩,
              hscan.bind (hdecoding.bind ?_), rfl⟩
            simp only [htarget]
            exact hlabelling.bind (hnote.bind_pure fun _ => some target)

/-- A search by one signature that stops early has changed nothing: once there is a match, the monitor is
not asked any more, and all refusals are handled. -/
theorem locateMain_single_error {signature : Signature} {e : LoadError}
    (herror : ((locateMain host h [signature]).exec p).1 = .error e) :
    ((locateMain host h [signature]).exec p).2.space = p.space := by
  have hspace := findSignature_space h.initialPc signature p
  rw [locateMain, exec_bind] at herror ⊢
  rcases hscan : (findSignature h.initialPc signature).exec p with ⟨_ | found, q⟩
  · rw [hscan] at hspace
    exact hspace
  · rw [hscan] at herror
    cases found with
    | none => cases herror
    | some found =>
      simp only [exec_bind, disassemble_settles _ q] at herror
      generalize (q.space.decoded host (found + signature.skip)).1 = instruction at herror
      rcases instruction with _ | i
      · cases herror
      · dsimp only at herror
        generalize i.reference 0 = reference at herror
        cases reference with
        | none => cases herror
        | some target =>
          simp only [exec_bind, labelMain_settles target _] at herror
          generalize AddressSpace.createLabel _ target mainName .function = labelled at herror
          cases labelled <;> cases herror

/-! ### The whole load -/

def finishLoad (host : Host) (h : Header) (requests : List Request) (failures : List Failure) :
    LoadM LoadResult := do
  applyEntryPoint h
  LoadM.check
  let mainAddress ← locateMain host h entrySignatures
  LoadM.say (loaderName ++ " : Loading done")
  return ⟨h, requests, failures, mainAddress⟩

def Progress.started (p : Progress) (h : Header) : Progress :=
  ⟨p.space, p.monitor.say (loaderName ++ " : Start loading"),
    p.log ++ [.loading h] ++ h.skippedPieces.map .pieceSkipped⟩

theorem buildMemoryMap_eq (h : Header) :
    buildMemoryMap h = do
      LoadM.note (h.skippedPieces.map .pieceSkipped)
      return h.memoryMap := by
  rw [buildMemoryMap, Header.memoryMap, Hardware.hardwareRequests_eq, Hardware.hardwareRequests?_eq]

theorem load_exec (hparse : Header.parse file = .ok h) :
    (load host file).exec p =
      (realize host file h.memoryMap >>= finishLoad host h h.memoryMap).exec (p.started h) := by
  rw [load, hparse]
  simp only [noteHeader, buildMemoryMap_eq, finishLoad, Progress.started, exec_bind, exec_pure, exec_say,
    exec_note]

theorem load_exec_of_error {e : HeaderError} (hparse : Header.parse file = .error e) :
    (load host file).exec p = (.error .unsupportedFormat,
      { p with
        monitor := p.monitor.say (loaderName ++ " : Cannot load")
        log := p.log ++ [.noHeader e] }) := by
  rw [load, hparse]
  rfl

theorem finishLoad_ends (hp : p.monitor.Patient) (requests : List Request) (failures : List Failure) :
    ∃ q, Ends (finishLoad host h requests failures) p
        ⟨h, requests, failures, ((p.space.enter h).searchMain host h entrySignatures).1⟩ q ∧
      q.space = ((p.space.enter h).searchMain host h entrySignatures).2 ∧
      p.monitor.checks < q.monitor.checks := by
  obtain ⟨u, hentry, hspace, hmonitor⟩ := applyEntryPoint_ends hp h
  have hcheck := Ends.check hentry.patient
  obtain ⟨v, hmain, hv⟩ :=
    @locateMain_ends host h { u with monitor := u.monitor.check } _ hspace hcheck.patient entrySignatures
  have hsay := Ends.say hmain.patient (loaderName ++ " : Loading done")
  refine ⟨_, hentry.bind (hcheck.bind (hmain.bind (hsay.bind_pure _))), hv, ?_⟩
  have hle : u.monitor.check.checks ≤ v.monitor.checks := hmain.checks_le
  rw [hmonitor] at hle
  exact hle

theorem finishLoad_error {requests : List Request} {failures : List Failure} {e : LoadError}
    (herror : ((finishLoad host h requests failures).exec p).1 = .error e) :
    ((finishLoad host h requests failures).exec p).2.space = p.space.enter h := by
  rw [finishLoad, exec_bind, applyEntryPoint_settles h p] at herror ⊢
  simp only [exec_bind, exec_check] at herror ⊢
  by_cases hcancelled : p.monitor.check.cancelled
  · simp only [if_pos hcancelled]
  · simp only [if_neg hcancelled] at herror ⊢
    generalize hentered : Progress.mk (p.space.enter h) _ _ = entered at herror ⊢
    have hsearch := @locateMain_single_error host h entered psyqMainCall
    rw [entrySignatures] at herror ⊢
    rcases hmain : (locateMain host h [psyqMainCall]).exec entered with ⟨_ | found, q⟩
    · rw [hmain, ← hentered] at hsearch
      exact hsearch rfl
    · rw [hmain] at herror
      cases herror

theorem finishLoad_header {requests : List Request} {failures : List Failure} {result : LoadResult}
    (hrun : ((finishLoad host h requests failures).exec p).1 = .ok result) : result.header = h := by
  obtain ⟨_, q, -, hrun⟩ := exists_of_exec_bind_eq_ok hrun
  obtain ⟨_, q, -, hrun⟩ := exists_of_exec_bind_eq_ok hrun
  obtain ⟨mainAddress, q, -, hrun⟩ := exists_of_exec_bind_eq_ok hrun
  obtain ⟨_, q, -, hrun⟩ := exists_of_exec_bind_eq_ok hrun
  rw [exec_pure, Except.ok.injEq] at hrun
  rw [← hrun]

theorem load_header {result : LoadResult} (hrun : ((load host file).exec p).1 = .ok result) :
    Header.parse file = .ok result.header := by
  cases hparse : Header.parse file with
  | error cause =>
    rw [load_exec_of_error hparse] at hrun
    cases hrun
  | ok h =>
    rw [load_exec hparse] at hrun
    obtain ⟨failures, q, -, hrun⟩ := exists_of_exec_bind_eq_ok hrun
    rw [finishLoad_header hrun]

/-- A load that nothing stops, phase by phase. -/
theorem load_ends (hparse : Header.parse file = .ok h) (hp : p.monitor.Patient) :
    ∃ q, Ends (load host file) p
        ⟨h, h.memoryMap, (Request.applyAll host file p.space h.memoryMap).failures,
          (((Request.applyAll host file p.space h.memoryMap).space.enter h).searchMain host h
            entrySignatures).1⟩ q ∧
      q.space = (((Request.applyAll host file p.space h.memoryMap).space.enter h).searchMain host h
        entrySignatures).2 ∧
      p.monitor.checks + h.memoryMap.length < q.monitor.checks := by
  have hstarted : (p.started h).monitor.Patient := hp.say _
  obtain ⟨u, hrealize, hspace, hchecks⟩ := @realize_ends host file (p.started h) hstarted h.memoryMap
  obtain ⟨q, hfinish, hq, hlt⟩ :=
    @finishLoad_ends host h u hrealize.patient h.memoryMap
      (Request.applyAll host file p.space h.memoryMap).failures
  rw [hspace] at hfinish hq
  rw [hchecks] at hlt
  refine ⟨q, ?_, hq, hlt⟩
  rw [load, hparse]
  have hsay := Ends.say hp (loaderName ++ " : Start loading")
  have hnote := Ends.note hsay.patient [.loading h]
  refine (Ends.pure hp (some h)).bind (hsay.bind (hnote.bind ?_))
  rw [buildMemoryMap_eq]
  exact ((Ends.note hnote.patient _).bind_pure fun _ => h.memoryMap).bind (hrealize.bind hfinish)

end PsxExe
