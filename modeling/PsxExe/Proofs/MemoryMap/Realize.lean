import PsxExe.Proofs.Load.History
import PsxExe.Proofs.Load.Monitored
import PsxExe.Proofs.MemoryMap.Outcome

/-!
# Realizing requests

A run that a monitor lets finish does what applying the requests in order does. The requests of a map
only ever add to an address space, so what the first ones have mapped is there at the end, with its
bytes.
-/

namespace PsxExe

open AddressSpace

variable {host : Host} {file : Bytes} {s t : AddressSpace}

/-- The spaces differ in their labels only. -/
def AddressSpace.ButLabels (s t : AddressSpace) : Prop := t = { s with labels := t.labels }

namespace Request

/-! ### What requests leave alone -/

theorem create_extends {r : Request} (h : r.create host file s = .ok t) : Extends s t := by
  cases r with
  | region r =>
    obtain ⟨⟨q, u⟩, hu, rfl⟩ := exists_of_map_eq_ok h
    exact createRegion_extends hu
  | mirror m =>
    obtain ⟨⟨q, u⟩, hu, rfl⟩ := exists_of_map_eq_ok h
    exact createMirror_extends hu
  | data d => exact (createData_sameMemory h).extends

theorem applyLabel_butLabels (r : Request) (s : AddressSpace) : ButLabels s (r.applyLabel s).space := by
  rw [applyLabel]
  split
  next => rfl
  next address name _ =>
    cases hlabel : s.createLabel address name .register with
    | error e => rfl
    | ok created =>
      obtain ⟨l, t⟩ := created
      obtain ⟨labels, -, rfl⟩ := createLabel_eq_ok_iff.1 hlabel
      rfl

theorem applyLabel_sameMemory (r : Request) (s : AddressSpace) : SameMemory s (r.applyLabel s).space := by
  rw [r.applyLabel_butLabels s]
  exact ⟨rfl, rfl⟩

theorem apply_extends (r : Request) (s : AddressSpace) : Extends s (r.apply host file s).space := by
  have hcreated : Extends s (r.applyCreation host file s).space := by
    rw [applyCreation]
    rcases hcreate : r.create host file s with e | t
    · exact .refl s
    · exact create_extends hcreate
  exact hcreated.trans (r.applyLabel_sameMemory _).extends

theorem apply_changes (r : Request) (s : AddressSpace) : Changes host s (r.apply host file s).space := by
  have hcreated : Changes host s (r.applyCreation host file s).space := by
    rw [applyCreation]
    rcases hcreate : r.create host file s with e | t
    · exact .refl
    · exact .single (create_change hcreate)
  have hlabelled (u : AddressSpace) : Changes host u (r.applyLabel u).space := by
    rw [applyLabel]
    split
    next => exact .refl
    next address name _ =>
      rcases hlabel : u.createLabel address name .register with e | ⟨l, t⟩
      · exact .refl
      · exact .single (.label hlabel)
  exact hcreated.trans (hlabelled _)

theorem applyAll_extends (requests : List Request) (s : AddressSpace) :
    Extends s (applyAll host file s requests).space := by
  induction requests generalizing s with
  | nil => exact .refl s
  | cons r rest ih => exact (r.apply_extends s).trans (ih _)

theorem applyAll_changes (requests : List Request) (s : AddressSpace) :
    Changes host s (applyAll host file s requests).space := by
  induction requests generalizing s with
  | nil => exact .refl
  | cons r rest ih => exact (r.apply_changes s).trans (ih _)

theorem arranged_applyAll (requests : List Request) : (applyAll host file ∅ requests).space.Arranged :=
  (applyAll_changes requests ∅).arranged arranged_empty

/-! ### Requests in a row -/

theorem applyAll_append (first others : List Request) :
    (applyAll host file s (first ++ others)).space =
      (applyAll host file (applyAll host file s first).space others).space := by
  induction first generalizing s with
  | nil => rfl
  | cons r rest ih => exact ih

theorem failures_applyAll_append (first others : List Request) :
    (applyAll host file s (first ++ others)).failures =
      (applyAll host file s first).failures ++
        (applyAll host file (applyAll host file s first).space others).failures := by
  induction first generalizing s with
  | nil => rfl
  | cons r rest ih => simp only [List.cons_append, applyAll, ih, List.append_assoc]

theorem apply_of_create {r : Request} (h : r.create host file s = .ok t) (hlabel : r.label? = none) :
    (r.apply host file s).space = t := by
  simp only [apply, applyCreation, h, applyLabel, hlabel]

theorem failures_of_create {r : Request} (h : r.create host file s = .ok t) (hlabel : r.label? = none) :
    (r.apply host file s).failures = [] := by
  simp only [apply, applyCreation, h, applyLabel, hlabel, List.append_nil]

end Request

/-! ### Pieces -/

namespace RamPiece

def own (p : RamPiece) : RegionRequest :=
  ⟨p.nameIn .kseg0, p.extent, p.permissions, p.fileOffset⟩

theorem requests_of_not_isEmpty {p : RamPiece} (h : ¬ p.IsEmpty) :
    p.requests = .region p.own :: Window.mirrors.map p.mirrorIn := by
  rw [requests, if_neg h]
  rfl

theorem mem_requests {p : RamPiece} {r : Request} (hr : r ∈ p.requests) :
    r = .region p.own ∨ ∃ w ∈ Window.mirrors, r = p.mirrorIn w := by
  by_cases hempty : p.IsEmpty
  · rw [requests, if_pos hempty] at hr
    cases hr
  · rw [requests_of_not_isEmpty hempty] at hr
    rcases List.mem_cons.1 hr with rfl | hr
    · exact .inl rfl
    · obtain ⟨w, hw, rfl⟩ := List.mem_map.1 hr
      exact .inr ⟨w, hw, rfl⟩

theorem exists_name {p : RamPiece} {r : Request} (hr : r ∈ p.requests) : ∃ w : Window, r.name = p.nameIn w := by
  rcases mem_requests hr with rfl | ⟨w, -, rfl⟩
  · exact ⟨.kseg0, rfl⟩
  · exact ⟨w, rfl⟩

end RamPiece

theorem Header.mem_sectionRequest {present : Bool} {name : String} {e : Extent} {r : Request} :
    r ∈ sectionRequest present name e ↔ present ∧ r = .region ⟨name, e, .all, none⟩ := by
  cases present <;> simp [sectionRequest]

/-! ### Runs -/

variable {p : Progress} {requests : List Request}

theorem realize_ok {failures : List Failure}
    (h : ((realize host file requests).exec p).1 = .ok failures) :
    failures = (Request.applyAll host file p.space requests).failures ∧
      ((realize host file requests).exec p).2.space = (Request.applyAll host file p.space requests).space ∧
      ((realize host file requests).exec p).2.log =
        p.log ++ (Request.applyAll host file p.space requests).events := by
  induction requests generalizing p failures with
  | nil =>
    refine ⟨?_, rfl, (List.append_nil _).symm⟩
    exact (Except.ok.inj h).symm
  | cons r rest ih =>
    rw [realize_cons_exec] at h ⊢
    by_cases hcancelled : p.monitor.check.cancelled
    · simp [hcancelled] at h
    · simp only [if_neg hcancelled] at h ⊢
      obtain ⟨others, hothers, rfl⟩ := exists_of_map_eq_ok h
      obtain ⟨hfailures, hspace, hlog⟩ := ih hothers
      refine ⟨?_, hspace, ?_⟩
      · rw [hfailures]
        rfl
      · rw [hlog, List.append_assoc]
        rfl

theorem realize_ends (h : p.monitor.Patient) (requests : List Request) :
    ∃ q, LoadM.Ends (realize host file requests) p (Request.applyAll host file p.space requests).failures q ∧
      q.space = (Request.applyAll host file p.space requests).space ∧
      q.monitor.checks = p.monitor.checks + requests.length := by
  induction requests generalizing p with
  | nil => exact ⟨p, .pure h _, rfl, rfl⟩
  | cons r rest ih =>
    obtain ⟨q, hends, hspace, hchecks⟩ := ih (p := ⟨(r.apply host file p.space).space, p.monitor.check,
      p.log ++ (r.apply host file p.space).events⟩) h.check
    refine ⟨q, ?_, hspace, ?_⟩
    · rw [realize]
      refine (LoadM.Ends.check h).bind ?_
      refine (r.realizeCreation_settles.ends h.check).bind ((r.realizeLabel_settles.ends h.check).bind ?_)
      rw [List.append_assoc]
      exact hends.bind_pure _
    · rw [hchecks, List.length_cons]
      exact Nat.succ_add_eq_add_succ _ _

theorem realize_of_patient (h : p.monitor.Patient) :
    ∃ failures, ((realize host file requests).exec p).1 = .ok failures := by
  obtain ⟨q, hends, -⟩ := @realize_ends host file p h requests
  exact ⟨_, congrArg Prod.fst hends.run⟩

/-- A run that is cancelled has applied the requests in front of the check at which it was. -/
theorem realize_cancelledAt (h : p.monitor.Patient) {n : Nat} (hfrom : p.monitor.checks ≤ n)
    (hto : n < p.monitor.checks + requests.length) :
    ((realize host file requests).exec (p.cancelledAt n)).2.space =
      (Request.applyAll host file p.space (requests.take (n - p.monitor.checks))).space := by
  induction requests generalizing p with
  | nil =>
    rw [List.length_nil] at hto
    omega
  | cons r rest ih =>
    rw [realize_cons_exec]
    by_cases hnow : n = p.monitor.checks
    · rw [hnow, if_pos p.check_cancelledAt_self, Nat.sub_self]
      rfl
    · have hlater : p.monitor.checks < n := Nat.lt_of_le_of_ne hfrom (Ne.symm hnow)
      have hgoes := p.check_cancelledAt h hlater
      have hrest := ih (p := ⟨(r.apply host file p.space).space, p.monitor.check,
        p.log ++ (r.apply host file p.space).events⟩) h.check hlater (by
          rw [List.length_cons] at hto
          change n < p.monitor.checks + 1 + rest.length
          omega)
      rw [if_neg (by rw [hgoes]; exact Bool.eq_false_iff.1 h.check.notCancelled), hgoes]
      rw [show n - p.monitor.checks = n - p.monitor.check.checks + 1 by
        change n - p.monitor.checks = n - (p.monitor.checks + 1) + 1
        omega, List.take_succ_cons]
      exact hrest

end PsxExe
