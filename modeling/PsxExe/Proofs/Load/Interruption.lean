import PsxExe.Proofs.Load.Refusal

/-!
# Interrupted loads

A monitor can stop a load at each of its checks. What is then done is a beginning of the load, cut between
two requests or behind the entry point, and never inside one of them: the search for the main function
changes nothing before its last check.
-/

namespace PsxExe

open AddressSpace LoadM

variable {host : Host} {file : Bytes} {h : Header} {p : Progress} {n : Nat}

def LoadM.checksMade {α : Type} (action : LoadM α) (p : Progress) : Nat :=
  (action.exec p).2.monitor.checks - p.monitor.checks

/-- Runs a step with a monitor that cancels itself at the n-th check, counted from zero. -/
def LoadM.interrupted {α : Type} (action : LoadM α) (p : Progress) (n : Nat) :
    Except LoadError α × Progress :=
  action.exec (p.cancelledAt (p.monitor.checks + n))

theorem Operation.run_realize (host : Host) (s : AddressSpace) (file : Bytes) (requests : List Request) :
    (Operation.realize file requests {}).run host s = (Request.applyAll host file s requests).space := by
  obtain ⟨q, hends, hspace, -⟩ := @realize_ends host file ⟨s, {}, []⟩ Monitor.patient_default requests
  rw [run, spaceAfter_eq, hends.run]
  exact hspace

theorem Operation.run_applyEntryPoint (host : Host) (s : AddressSpace) (h : Header) :
    (Operation.applyEntryPoint h {}).run host s = s.enter h := by
  rw [run, spaceAfter_eq, applyEntryPoint_settles]

theorem load_exec_cancelledAt (hparse : Header.parse file = .ok h) :
    (load host file).exec (p.cancelledAt n) =
      (realize host file h.memoryMap >>= finishLoad host h h.memoryMap).exec
        ((p.started h).cancelledAt n) :=
  load_exec hparse

theorem load_cancelledAt_space (hparse : Header.parse file = .ok h) (hp : p.monitor.Patient)
    (hfrom : p.monitor.checks ≤ n) (hto : n < p.monitor.checks + h.memoryMap.length) :
    ((load host file).exec (p.cancelledAt n)).2.space =
      (Request.applyAll host file p.space (h.memoryMap.take (n - p.monitor.checks))).space := by
  have hstarted : (p.started h).monitor.Patient := hp.say _
  obtain ⟨u, hrealize, -, hchecks⟩ := @realize_ends host file _ hstarted h.memoryMap
  obtain ⟨r, hcut, -⟩ := hrealize.cut n hfrom (by rw [hchecks]; exact hto)
  have hspace := @realize_cancelledAt host file _ h.memoryMap hstarted n hfrom hto
  rw [load_exec_cancelledAt hparse, exec_bind, hcut]
  rw [hcut] at hspace
  exact hspace

theorem load_cancelledAt_enter (hparse : Header.parse file = .ok h) (hp : p.monitor.Patient)
    (hfrom : p.monitor.checks + h.memoryMap.length ≤ n) {e : LoadError}
    (herror : ((load host file).exec (p.cancelledAt n)).1 = .error e) :
    ((load host file).exec (p.cancelledAt n)).2.space =
      (Request.applyAll host file p.space h.memoryMap).space.enter h := by
  have hstarted : (p.started h).monitor.Patient := hp.say _
  obtain ⟨u, hrealize, hspace, hchecks⟩ := @realize_ends host file _ hstarted h.memoryMap
  have hspared := hrealize.spared n (by rw [hchecks]; exact hfrom)
  rw [load_exec_cancelledAt hparse, exec_bind, hspared] at herror ⊢
  have hentered := finishLoad_error herror
  rw [hentered]
  exact congrArg (·.enter h) hspace

/-- A monitor that cancels itself at some check of a load stops it there. Among the requests, the space
is the one in which the requests in front were realized, and behind them it is the one in which all were
realized and the entry point was declared. At a later check than the load makes, it is the load without
the interruption. -/
theorem load_interrupted (hparse : Header.parse file = .ok h) (hp : p.monitor.Patient) (host : Host)
    (n : Nat) :
    (n < h.memoryMap.length →
        ((load host file).interrupted p n).1 = .error .cancelled ∧
          ((load host file).interrupted p n).2.space =
            Operation.runAll host p.space [.realize file (h.memoryMap.take n) {}]) ∧
      (h.memoryMap.length ≤ n → n < (load host file).checksMade p →
        ((load host file).interrupted p n).1 = .error .cancelled ∧
          ((load host file).interrupted p n).2.space =
            Operation.runAll host p.space [.realize file h.memoryMap {}, .applyEntryPoint h {}]) ∧
      ((load host file).checksMade p ≤ n →
        (∃ result, ((load host file).interrupted p n).1 = .ok result) ∧
          ((load host file).interrupted p n).1 = ((load host file).exec p).1 ∧
          ((load host file).interrupted p n).2.space = ((load host file).exec p).2.space) ∧
      h.memoryMap.length < (load host file).checksMade p ∧
      (n < (load host file).checksMade p →
        ((load host file).interrupted p n).2.monitor.checks = p.monitor.checks + n + 1) := by
  obtain ⟨q, hends, -, hlt⟩ := @load_ends host file h p hparse hp
  have hmade : (load host file).checksMade p = q.monitor.checks - p.monitor.checks := by
    rw [checksMade, hends.run]
  have hcut : n < (load host file).checksMade p → ∃ r,
      (load host file).interrupted p n = (.error .cancelled, r) ∧
        r.monitor.checks = p.monitor.checks + n + 1 := by
    intro hn
    exact hends.cut _ (Nat.le_add_right _ _) (by omega)
  have hmore : h.memoryMap.length < (load host file).checksMade p := by omega
  refine ⟨?_, ?_, ?_, hmore, ?_⟩
  · intro hn
    obtain ⟨r, hr, -⟩ := hcut (Nat.lt_trans hn hmore)
    refine ⟨by rw [hr], ?_⟩
    have hspace := @load_cancelledAt_space host file h p _ hparse hp (Nat.le_add_right _ n) (by omega)
    rw [Nat.add_sub_cancel_left, ← Operation.run_realize] at hspace
    exact hspace
  · intro hn hless
    obtain ⟨r, hr, -⟩ := hcut hless
    have herror : ((load host file).interrupted p n).1 = .error .cancelled := by rw [hr]
    have hspace := load_cancelledAt_enter hparse hp (by omega) herror
    rw [← Operation.run_realize, ← Operation.run_applyEntryPoint host] at hspace
    exact ⟨herror, hspace⟩
  · intro hn
    have hspared := hends.spared (p.monitor.checks + n) (by omega)
    rw [interrupted, hspared, hends.run]
    exact ⟨⟨_, rfl⟩, rfl, rfl⟩
  · intro hn
    obtain ⟨r, hr, hchecks⟩ := hcut hn
    rw [hr]
    exact hchecks

theorem touching_interrupted :
    Built touching ∧
      ((load defaultHost blankImage).interrupted ⟨touching, {}, []⟩ 1).1 = .error .cancelled ∧
      ((load defaultHost blankImage).interrupted ⟨touching, {}, []⟩ 1).2.space.regions.map (·.name) =
        ["FRONT", "BACK", "RAM_B"] ∧
      (∃ n, ((load defaultHost blankImage).interrupted ⟨touching, {}, []⟩ n).2.space =
        Operation.runAll defaultHost touching
          [.realize blankImage blankHeader.memoryMap {}, .applyEntryPoint blankHeader {}]) ∧
      ∃ n result, ((load defaultHost blankImage).interrupted ⟨touching, {}, []⟩ n).1 = .ok result := by
  have hrun := @load_interrupted blankImage blankHeader ⟨touching, {}, []⟩ parse_blankImage
    Monitor.patient_default defaultHost
  have hmap : blankHeader.memoryMap.take 1 = [.region ⟨"RAM_B", ⟨0x80000000, 0x200000⟩, .all, none⟩] := rfl
  have hlength : 1 < blankHeader.memoryMap.length := by
    have htaken : (blankHeader.memoryMap.take 2).length = 2 := rfl
    rw [List.length_take] at htaken
    omega
  obtain ⟨hstopped, hspace⟩ := (hrun 1).1 hlength
  refine ⟨built_touching, hstopped, ?_, ⟨_, ((hrun _).2.1 (Nat.le_refl _) (hrun 0).2.2.2.1).2⟩, _,
    ((hrun _).2.2.1 (Nat.le_refl _)).1⟩
  rw [hspace, hmap]
  rfl

end PsxExe
