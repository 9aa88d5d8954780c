import PsxExe.MemoryMap.Realize
import PsxExe.Proofs.Load.Run
import PsxExe.Proofs.Space.Change

/-!
# What comes of a request

The handlers for a request take every refusal there is, so a request ends no load. What comes of it then
depends on the address space alone: `Request.apply` is the space that it leaves, with what failed and what
was noted down.
-/

namespace PsxExe

variable {host : Host} {file : Bytes} {s : AddressSpace} {e : SpaceError}

/-- Every refusal is of a kind that creating a region, a mirror or data is handled for. -/
theorem SpaceError.isOf_creation (e : SpaceError) : e.isOf [.memory, .value, .storage] = true := by
  cases e <;> rfl

theorem SpaceError.isOf_value (h : e.kind = .label) : e.isOf [.value] = true := by
  simp only [isOf, h]
  rfl

theorem SpaceError.isOf_label (h : e.kind = .label) : e.isOf [.label] = true := by
  simp only [isOf, h]
  rfl

/-- An address space after requests, with what failed and what was noted down. -/
structure Outcome where
  space : AddressSpace
  failures : List Failure
  events : List Event

namespace Request

def applyCreation (host : Host) (file : Bytes) (s : AddressSpace) (r : Request) : Outcome :=
  match r.create host file s with
  | .ok s => ⟨s, [], r.shortage file⟩
  | .error e => ⟨s, [⟨r, e⟩], r.shortage file ++ [.requestRefused r e]⟩

def applyLabel (s : AddressSpace) (r : Request) : Outcome :=
  match r.label? with
  | none => ⟨s, [], []⟩
  | some (address, name) =>
    match s.createLabel address name .register with
    | .ok (_, s) => ⟨s, [], []⟩
    | .error e => ⟨s, [⟨r, e⟩], [.labelRefused name e]⟩

def apply (host : Host) (file : Bytes) (s : AddressSpace) (r : Request) : Outcome :=
  let created := r.applyCreation host file s
  let labelled := r.applyLabel created.space
  ⟨labelled.space, created.failures ++ labelled.failures, created.events ++ labelled.events⟩

/-- Requests in order, with nothing to stop them. -/
def applyAll (host : Host) (file : Bytes) (s : AddressSpace) : List Request → Outcome
  | [] => ⟨s, [], []⟩
  | r :: rest =>
    let first := r.apply host file s
    let others := applyAll host file first.space rest
    ⟨others.space, first.failures ++ others.failures, first.events ++ others.events⟩

/-- The requests whose creation succeeds when all are applied in order. -/
def accepted (host : Host) (file : Bytes) (s : AddressSpace) : List Request → List Request
  | [] => []
  | r :: rest =>
    let others := accepted host file (r.apply host file s).space rest
    if (r.create host file s).isOk then r :: others else others

theorem realizeCreation_settles (r : Request) :
    LoadM.Settles (r.realizeCreation host file) (fun s => (r.applyCreation host file s).failures)
      (fun s => (r.applyCreation host file s).space) fun s => (r.applyCreation host file s).events := by
  intro p
  rw [realizeCreation, attempt, LoadM.exec_handling, LoadM.exec_bind, LoadM.exec_bind, LoadM.exec_note]
  simp only [applyCreation, LoadM.exec_alter]
  cases r.create host file p.space with
  | ok t => rfl
  | error e =>
    simp only [e.isOf_creation, if_true, LoadM.exec_bind, LoadM.exec_note, LoadM.exec_pure, List.append_assoc]

theorem realizeLabel_settles (r : Request) :
    LoadM.Settles r.realizeLabel (fun s => (r.applyLabel s).failures) (fun s => (r.applyLabel s).space)
      fun s => (r.applyLabel s).events := by
  intro p
  simp only [realizeLabel, applyLabel]
  cases r.label? with
  | none => simp only [LoadM.exec_pure, List.append_nil]
  | some label =>
    obtain ⟨address, name⟩ := label
    simp only [attempt, LoadM.exec_handling, LoadM.exec_bind, LoadM.exec_alter]
    cases hlabel : p.space.createLabel address name .register with
    | ok created => simp only [Except.map, LoadM.exec_pure, List.append_nil]
    | error e =>
      have hhandled : e.isOf [.value] = true := e.isOf_value (AddressSpace.createLabel_error hlabel)
      simp only [Except.map, hhandled, if_true, LoadM.exec_note, LoadM.exec_pure]

end Request

theorem realize_cons_exec (r : Request) (rest : List Request) (p : Progress) :
    (realize host file (r :: rest)).exec p =
      if p.monitor.check.cancelled then (.error .cancelled, { p with monitor := p.monitor.check })
      else
        let outcome := r.apply host file p.space
        let run := (realize host file rest).exec ⟨outcome.space, p.monitor.check, p.log ++ outcome.events⟩
        (run.1.map (outcome.failures ++ ·), run.2) := by
  rw [realize, LoadM.exec_bind, LoadM.exec_check]
  by_cases hcancelled : p.monitor.check.cancelled
  · simp only [if_pos hcancelled]
  · simp only [if_neg hcancelled, LoadM.exec_bind, r.realizeCreation_settles _, r.realizeLabel_settles _,
      Request.apply, List.append_assoc]
    rcases (realize host file rest).exec _ with ⟨_ | failures, q⟩
    · rfl
    · simp only [LoadM.exec_pure, Except.map]

end PsxExe
