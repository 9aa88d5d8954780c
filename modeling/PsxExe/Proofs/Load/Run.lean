import PsxExe.Load.History

/-!
# Running the steps of a load

`LoadM.exec` runs a step on the progress made so far. The lemmas here evaluate it one instruction at a
time, and say what a step does under a monitor that lets it finish.
-/

namespace PsxExe

/-- The monitor is not cancelled, and will not cancel itself any more. -/
structure Monitor.Patient (m : Monitor) : Prop where
  notCancelled : m.cancelled = false
  neverCancels : ∀ n, m.cancelAt = some n → n < m.checks

theorem Monitor.Patient.cancelAt_ne {m : Monitor} (h : m.Patient) : m.cancelAt ≠ some m.checks := by
  intro hn
  exact Nat.lt_irrefl _ (h.neverCancels _ hn)

theorem Monitor.Patient.check_eq {m : Monitor} (h : m.Patient) :
    m.check = { m with checks := m.checks + 1 } := by
  simp only [Monitor.check, beq_eq_false_iff_ne.2 h.cancelAt_ne, Bool.or_false]

theorem Monitor.Patient.check {m : Monitor} (h : m.Patient) : m.check.Patient := by
  rw [h.check_eq]
  exact ⟨h.notCancelled, fun n hn => Nat.lt_succ_of_lt (h.neverCancels n hn)⟩

theorem Monitor.patient_default : ({} : Monitor).Patient := ⟨rfl, fun _ hn => by simp at hn⟩

namespace LoadM

variable {α β : Type} {p : Progress}

def exec (action : LoadM α) (p : Progress) : Except LoadError α × Progress := action.run.run p

theorem spaceAfter_eq (action : LoadM α) (s : AddressSpace) (m : Monitor) :
    action.spaceAfter s m = (action.exec ⟨s, m, []⟩).2.space := rfl

@[simp] theorem exec_pure (a : α) : exec (pure a) p = (.ok a, p) := rfl

@[simp] theorem exec_bind (action : LoadM α) (next : α → LoadM β) :
    exec (action >>= next) p =
      match exec action p with
      | (.ok a, q) => exec (next a) q
      | (.error e, q) => (.error e, q) := by
  change (ExceptT.bind action next).run.run p = _
  simp only [exec, ExceptT.bind, ExceptT.run, ExceptT.mk, bind, StateT.bind, StateT.run]
  rcases action p with ⟨_ | a, q⟩ <;> rfl

theorem exists_of_exec_bind_eq_ok {action : LoadM α} {next : α → LoadM β} {b : β}
    (h : (exec (action >>= next) p).1 = .ok b) :
    ∃ a q, exec action p = (.ok a, q) ∧ (exec (next a) q).1 = .ok b := by
  rw [exec_bind] at h
  rcases hrun : exec action p with ⟨_ | a, q⟩
  · rw [hrun] at h
    cases h
  · rw [hrun] at h
    exact ⟨a, q, rfl, h⟩

@[simp] theorem exec_say (message : String) :
    exec (say message) p = (.ok (), { p with monitor := p.monitor.say message }) := rfl

@[simp] theorem exec_note (events : List Event) :
    exec (note events) p = (.ok (), { p with log := p.log ++ events }) := rfl

@[simp] theorem exec_space : exec space p = (.ok p.space, p) := rfl

@[simp] theorem exec_modifySpace (f : AddressSpace → AddressSpace) :
    exec (modifySpace f) p = (.ok (), { p with space := f p.space }) := rfl

theorem exec_perform (operation : AddressSpace → Except SpaceError (α × AddressSpace)) :
    exec (perform operation) p =
      match operation p.space with
      | .ok (a, s) => (.ok a, { p with space := s })
      | .error e => (.error (.space e), p) := by
  rw [perform, exec_bind, exec_space]
  dsimp only
  rcases operation p.space with e | ⟨a, s⟩ <;> rfl

theorem exec_alter (operation : AddressSpace → Except SpaceError AddressSpace) :
    exec (alter operation) p =
      match operation p.space with
      | .ok s => (.ok (), { p with space := s })
      | .error e => (.error (.space e), p) := by
  rw [alter, exec_perform]
  rcases operation p.space with e | s <;> rfl

theorem exec_tryCatch (step : LoadM α) (handler : LoadError → LoadM α) :
    exec (tryCatch step handler) p =
      match exec step p with
      | (.error e, q) => exec (handler e) q
      | other => other := by
  simp only [exec, tryCatch, tryCatchThe, MonadExceptOf.tryCatch, ExceptT.tryCatch, ExceptT.run, ExceptT.mk, bind,
    StateT.bind, StateT.run]
  rcases step p with ⟨_ | a, q⟩ <;> rfl

/-- A handler takes over with the progress that the step has made. -/
theorem exec_handling (kinds : List SpaceError.Kind) (step : LoadM α) (handler : SpaceError → LoadM α) :
    exec (handling kinds step handler) p =
      match exec step p with
      | (.error (.space e), q) => if e.isOf kinds then exec (handler e) q else (.error (.space e), q)
      | other => other := by
  rw [handling, exec_tryCatch]
  rcases exec step p with ⟨e | a, q⟩
  · cases e with
    | space e =>
      dsimp only
      split <;> rfl
    | cancelled | unsupportedFormat | layout => rfl
  · rfl

/-- The step asks no monitor and never ends the load, so that what comes of it depends on the space alone. -/
def Settles (action : LoadM α) (value : AddressSpace → α) (space : AddressSpace → AddressSpace)
    (events : AddressSpace → List Event) : Prop :=
  ∀ p, exec action p = (.ok (value p.space), ⟨space p.space, p.monitor, p.log ++ events p.space⟩)

theorem exec_check :
    exec check p =
      (if p.monitor.check.cancelled then .error .cancelled else .ok (),
        { p with monitor := p.monitor.check }) := by
  rw [check, exec_bind]
  change exec (if p.monitor.check.cancelled then throw LoadError.cancelled else pure PUnit.unit) _ = _
  split <;> rfl

theorem exec_check_of_patient (h : p.monitor.Patient) :
    exec check p = (.ok (), { p with monitor := p.monitor.check }) := by
  rw [exec_check, h.check.notCancelled]
  rfl

end LoadM

end PsxExe
