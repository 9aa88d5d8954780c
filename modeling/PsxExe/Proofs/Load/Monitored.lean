import PsxExe.Proofs.Load.Run

/-!
# Steps under a monitor

A step of a load asks its monitor now and then whether to go on. `Ends` describes a run that nothing
stops, and with it what becomes of the same run when the monitor cancels itself at some later check: if
the run gets by with the checks before, nothing is different, and if not, it is cancelled at that check.
The description of two steps in a row comes from those of each, so it is found by following a program.
-/

namespace PsxExe

def Progress.cancelledAt (p : Progress) (n : Nat) : Progress :=
  { p with monitor := { p.monitor with cancelAt := some n } }

theorem Progress.check_cancelledAt (p : Progress) (h : p.monitor.Patient) {n : Nat}
    (hn : p.monitor.checks < n) :
    (p.cancelledAt n).monitor.check = { p.monitor.check with cancelAt := some n } := by
  have hnow : (some n == some p.monitor.checks) = false := by
    rw [beq_eq_false_iff_ne, ne_eq, Option.some.injEq]
    exact Nat.ne_of_gt hn
  rw [h.check_eq]
  simp only [cancelledAt, Monitor.check, hnow, Bool.or_false]

theorem Progress.check_cancelledAt_self (p : Progress) :
    (p.cancelledAt p.monitor.checks).monitor.check.cancelled = true := by
  simp [cancelledAt, Monitor.check]

theorem Monitor.Patient.say {m : Monitor} (h : m.Patient) (message : String) : (m.say message).Patient :=
  ⟨h.notCancelled, h.neverCancels⟩

namespace LoadM

variable {α β : Type} {action : LoadM α} {next : α → LoadM β} {p q r : Progress} {a : α} {b : β}

/-- A run that gives a result and that its monitor lets finish. -/
structure Ends (action : LoadM α) (p : Progress) (a : α) (q : Progress) : Prop where
  run : action.exec p = (.ok a, q)
  patient : q.monitor.Patient
  checks_le : p.monitor.checks ≤ q.monitor.checks
  /-- It is the same run if the monitor cancels itself later. -/
  spared : ∀ n, q.monitor.checks ≤ n → action.exec (p.cancelledAt n) = (.ok a, q.cancelledAt n)
  /-- It is cancelled if the monitor cancels itself at one of the checks that it makes. -/
  cut : ∀ n, p.monitor.checks ≤ n → n < q.monitor.checks →
    ∃ r, action.exec (p.cancelledAt n) = (.error .cancelled, r) ∧ r.monitor.checks = n + 1

theorem Ends.unchecked (hrun : action.exec p = (.ok a, q)) (hpatient : q.monitor.Patient)
    (hchecks : q.monitor.checks = p.monitor.checks)
    (hspared : ∀ n, action.exec (p.cancelledAt n) = (.ok a, q.cancelledAt n)) : Ends action p a q where
  run := hrun
  patient := hpatient
  checks_le := Nat.le_of_eq hchecks.symm
  spared := fun n _ => hspared n
  cut := by
    intro n hfrom hto
    omega

theorem Ends.pure (h : p.monitor.Patient) (a : α) : Ends (Pure.pure a : LoadM α) p a p :=
  .unchecked rfl h rfl fun _ => rfl

theorem Ends.say (h : p.monitor.Patient) (message : String) :
    Ends (LoadM.say message) p () { p with monitor := p.monitor.say message } :=
  .unchecked rfl (h.say message) rfl fun _ => rfl

theorem Ends.note (h : p.monitor.Patient) (events : List Event) :
    Ends (LoadM.note events) p () { p with log := p.log ++ events } :=
  .unchecked rfl h rfl fun _ => rfl

theorem Ends.space (h : p.monitor.Patient) : Ends LoadM.space p p.space p :=
  .unchecked rfl h rfl fun _ => rfl

theorem Settles.ends {value : AddressSpace → α} {space : AddressSpace → AddressSpace}
    {events : AddressSpace → List Event} (hsettles : Settles action value space events) (h : p.monitor.Patient) :
    Ends action p (value p.space) ⟨space p.space, p.monitor, p.log ++ events p.space⟩ :=
  .unchecked (hsettles p) h rfl fun n => hsettles (p.cancelledAt n)

theorem Ends.check (h : p.monitor.Patient) :
    Ends LoadM.check p () { p with monitor := p.monitor.check } where
  run := exec_check_of_patient h
  patient := h.check
  checks_le := Nat.le_succ _
  spared := by
    intro n hn
    have hgoes := p.check_cancelledAt h hn
    rw [exec_check, if_neg]
    · rw [hgoes]
      rfl
    · rw [hgoes]
      exact Bool.eq_false_iff.1 h.check.notCancelled
  cut := by
    intro n hfrom hto
    obtain rfl : n = p.monitor.checks := Nat.le_antisymm (Nat.le_of_lt_succ hto) hfrom
    rw [exec_check, if_pos p.check_cancelledAt_self]
    exact ⟨_, rfl, rfl⟩

theorem Ends.bind (h : Ends action p a q) (hnext : Ends (next a) q b r) : Ends (action >>= next) p b r where
  run := by
    rw [exec_bind, h.run]
    exact hnext.run
  patient := hnext.patient
  checks_le := Nat.le_trans h.checks_le hnext.checks_le
  spared := by
    intro n hn
    rw [exec_bind, h.spared n (Nat.le_trans hnext.checks_le hn)]
    exact hnext.spared n hn
  cut := by
    intro n hfrom hto
    by_cases hfirst : n < q.monitor.checks
    · obtain ⟨u, hcut, hchecks⟩ := h.cut n hfrom hfirst
      refine ⟨u, ?_, hchecks⟩
      rw [exec_bind, hcut]
    · have hlater : q.monitor.checks ≤ n := Nat.le_of_not_lt hfirst
      rw [exec_bind, h.spared n hlater]
      exact hnext.cut n hlater hto

theorem Ends.bind_pure (h : Ends action p a q) (f : α → β) :
    Ends (action >>= fun a => Pure.pure (f a)) p (f a) q := h.bind (.pure h.patient _)

end LoadM

end PsxExe
