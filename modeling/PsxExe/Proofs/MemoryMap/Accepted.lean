import PsxExe.Proofs.MemoryMap.Realize
import PsxExe.Proofs.Space.Aliasing
import PsxExe.Proofs.Space.Notes

/-!
# Refused requests leave no trace

A request whose creation is refused leaves nothing behind but its label, and labels play no part in what is
created. So the requests whose creation is accepted, realized alone, make the same memory and the same typed data
as the whole list, and all of them are accepted again. The failures of the whole list follow the requests, turn by
turn: one for a refused creation, and one for a refused label behind it.
-/

namespace PsxExe

open AddressSpace

variable {host : Host} {file : Bytes} {s t u : AddressSpace}

/-- A request, and the space that it finds when its turn comes. -/
structure Turn where
  request : Request
  space : AddressSpace

namespace Turn

def accepted (host : Host) (file : Bytes) (t : Turn) : Bool := (t.request.create host file t.space).isOk

def labelRefused (host : Host) (file : Bytes) (t : Turn) : Bool :=
  t.request.label?.any fun l =>
    !((t.request.applyCreation host file t.space).space.createLabel l.1 l.2 .register).isOk

/-- The request, once for each of its two parts that is refused. -/
def reported (host : Host) (file : Bytes) (t : Turn) : List Request :=
  (if t.accepted host file then [] else [t.request]) ++
    if t.labelRefused host file then [t.request] else []

end Turn

/-! ### Labels play no part -/

namespace AddressSpace

theorem ButLabels.symm (h : ButLabels s t) : ButLabels t s := by
  rw [ButLabels, h]

theorem ButLabels.trans (h : ButLabels s t) (h' : ButLabels t u) : ButLabels s u := by
  rw [ButLabels, h', h]

end AddressSpace

namespace Request

theorem create_of_butLabels {r : Request} (hst : ButLabels s t) (h : r.create host file s = .ok u) :
    ∃ v, r.create host file t = .ok v ∧ ButLabels u v := by
  rw [hst]
  cases r with
  | region k =>
    obtain ⟨⟨q, v⟩, hv, rfl⟩ := exists_of_map_eq_ok h
    obtain ⟨hadmits, hsize, rfl, rfl⟩ := createRegion_eq_ok_iff.1 hv
    have hcreate := (@createRegion_eq_ok_iff { s with labels := t.labels } _ _ host k.name k.extent k.permissions
      (k.fileBytes file)).2 ⟨⟨hadmits.nonempty, hadmits.inside, hadmits.unmapped⟩, hsize, rfl, rfl⟩
    rw [create, hcreate]
    exact ⟨_, rfl, rfl⟩
  | mirror m =>
    obtain ⟨⟨q, v⟩, hv, rfl⟩ := exists_of_map_eq_ok h
    obtain ⟨b, hb, hwithin, hadmits, rfl, rfl⟩ := createMirror_eq_ok_iff.1 hv
    have hcreate := (@createMirror_eq_ok_iff { s with labels := t.labels } _ _ m.name m.base m.extent).2
      ⟨b, hb, hwithin, ⟨hadmits.nonempty, hadmits.inside, hadmits.unmapped⟩, rfl, rfl⟩
    rw [create, hcreate]
    exact ⟨_, rfl, rfl⟩
  | data d =>
    obtain ⟨hwidth, ⟨b, hlocate⟩, rfl⟩ := createData_eq_ok_iff.1 h
    obtain ⟨hb, hstop⟩ := locate_eq_ok_iff.1 hlocate
    refine ⟨_, createData_eq_ok_iff.2 ⟨hwidth, ⟨b, locate_eq_ok_iff.2 ⟨hb, hstop⟩⟩, rfl⟩, rfl⟩

theorem apply_butLabels_of_ok {r : Request} (h : r.create host file s = .ok t) :
    ButLabels t (r.apply host file s).space := by
  simpa only [apply, applyCreation, h] using r.applyLabel_butLabels t

theorem apply_butLabels_of_error {r : Request} {e : SpaceError} (h : r.create host file s = .error e) :
    ButLabels s (r.apply host file s).space := by
  simpa only [apply, applyCreation, h] using r.applyLabel_butLabels s

/-! ### Turn by turn -/

def turns (host : Host) (file : Bytes) (s : AddressSpace) : List Request → List Turn
  | [] => []
  | r :: rest => ⟨r, s⟩ :: turns host file (r.apply host file s).space rest

theorem requests_turns (l : List Request) : (turns host file s l).map (·.request) = l := by
  induction l generalizing s with
  | nil => rfl
  | cons r rest ih => simp [turns, ih]

theorem accepted_eq_filter (l : List Request) :
    accepted host file s l = ((turns host file s l).filter (Turn.accepted host file)).map (·.request) := by
  induction l generalizing s with
  | nil => rfl
  | cons r rest ih =>
    rw [accepted, turns, List.filter_cons, ih]
    by_cases hok : (r.create host file s).isOk
    · simp [Turn.accepted, hok]
    · simp [Turn.accepted, hok]

theorem failures_apply_requests (r : Request) (s : AddressSpace) :
    (r.apply host file s).failures.map (·.request) = Turn.reported host file ⟨r, s⟩ := by
  have hcreated : (r.applyCreation host file s).failures.map (·.request) =
      if Turn.accepted host file ⟨r, s⟩ then [] else [r] := by
    rw [applyCreation, Turn.accepted]
    cases r.create host file s <;> rfl
  have hlabelled : (r.applyLabel (r.applyCreation host file s).space).failures.map (·.request) =
      if Turn.labelRefused host file ⟨r, s⟩ then [r] else [] := by
    rw [applyLabel, Turn.labelRefused]
    cases r.label? with
    | none => rfl
    | some l =>
      cases hcreate : (r.applyCreation host file s).space.createLabel l.1 l.2 .register <;>
        simp [hcreate, Except.isOk, Except.toBool]
  rw [apply, List.map_append, hcreated, hlabelled, Turn.reported]

theorem failures_applyAll_requests (l : List Request) :
    (applyAll host file s l).failures.map (·.request) =
      (turns host file s l).flatMap (Turn.reported host file) := by
  induction l generalizing s with
  | nil => rfl
  | cons r rest ih =>
    rw [applyAll, List.map_append, failures_apply_requests, ih, turns, List.flatMap_cons]

theorem binding_of_turn {l : List Request} {turn : Turn} (hturn : turn ∈ turns host file s l) {a : Int}
    {name : String} (hlabel : turn.request.label? = some (a, name))
    (hgranted : turn.labelRefused host file = false) :
    ∃ b, (applyAll host file s l).space.labels.bindings.get? name = some b ∧ b.address = a := by
  induction l generalizing s with
  | nil => cases hturn
  | cons r rest ih =>
    rcases List.mem_cons.1 hturn with rfl | hturn
    · cases hcreate : (r.applyCreation host file s).space.createLabel a name .register with
      | error e => simp [Turn.labelRefused, hlabel, hcreate, Except.isOk, Except.toBool] at hgranted
      | ok created =>
        obtain ⟨l, t⟩ := created
        obtain ⟨-, b, hb, haddress⟩ := createLabel_binds hcreate
        have happly : (r.apply host file s).space = t := by
          simp only [apply, applyLabel, hlabel, hcreate]
        refine ⟨b, (applyAll_changes rest _).binding ?_, haddress⟩
        rw [happly]
        exact hb
    · exact ih hturn

/-- To apply the accepted requests to a space that differs in its labels only makes the same of it, labels
apart, and all of them are accepted. -/
theorem applyAll_accepted (l : List Request) (hst : ButLabels s t) :
    ButLabels (applyAll host file s l).space (applyAll host file t (accepted host file s l)).space ∧
      ∀ turn ∈ turns host file t (accepted host file s l), turn.accepted host file = true := by
  induction l generalizing s t with
  | nil => exact ⟨hst, fun _ hturn => by cases hturn⟩
  | cons r rest ih =>
    rw [applyAll, accepted]
    cases hcreate : r.create host file s with
    | error e => exact ih ((apply_butLabels_of_error hcreate).symm.trans hst)
    | ok u =>
      obtain ⟨v, hv, huv⟩ := create_of_butLabels hst hcreate
      have hnext : ButLabels (r.apply host file s).space (r.apply host file t).space :=
        (apply_butLabels_of_ok hcreate).symm.trans (huv.trans (apply_butLabels_of_ok hv))
      obtain ⟨hspace, hall⟩ := ih hnext
      refine ⟨hspace, fun turn hturn => ?_⟩
      rcases List.mem_cons.1 hturn with rfl | hturn
      · rw [Turn.accepted, hv]
        rfl
      · exact hall turn hturn

end Request

/-- A run that the monitor lets finish ends with failures, and leaves the same regions, bytes and typed data as a
run of the accepted requests alone, in which every creation is accepted: all but the labels is the same. The
failures are those of the turns, in their order: an accepted request is reported only if its label is refused, and
another one once for its creation and once more, right behind, if its label is refused as well. What gets its
label has its name bound to its address in the end, even if its creation is refused. -/
theorem realize_accepted {p : Progress} (hp : p.monitor.Patient) (host : Host) (file : Bytes)
    (requests : List Request) :
    ∃ failures q, (realize host file requests).exec p = (.ok failures, q) ∧
      (∃ failures' q', (realize host file (Request.accepted host file p.space requests)).exec p =
          (.ok failures', q') ∧ q'.space = { q.space with labels := q'.space.labels }) ∧
      (∀ t ∈ Request.turns host file p.space (Request.accepted host file p.space requests),
        t.accepted host file = true) ∧
      (Request.turns host file p.space requests).map (·.request) = requests ∧
      Request.accepted host file p.space requests =
        ((Request.turns host file p.space requests).filter (Turn.accepted host file)).map (·.request) ∧
      failures.map (·.request) =
        (Request.turns host file p.space requests).flatMap (Turn.reported host file) ∧
      ∀ t ∈ Request.turns host file p.space requests, ∀ a name, t.request.label? = some (a, name) →
        t.labelRefused host file = false →
          ∃ b, q.space.labels.bindings.get? name = some b ∧ b.address = a := by
  obtain ⟨q, hends, hspace, -⟩ := @realize_ends host file p hp requests
  obtain ⟨q', hends', hspace', -⟩ :=
    @realize_ends host file p hp (Request.accepted host file p.space requests)
  obtain ⟨halike, hall⟩ := @Request.applyAll_accepted host file p.space p.space requests rfl
  refine ⟨_, q, hends.run, ⟨_, q', hends'.run, ?_⟩, hall, Request.requests_turns _,
    Request.accepted_eq_filter _, Request.failures_applyAll_requests _, fun t ht a name hlabel hgranted => ?_⟩
  · rw [hspace, hspace']
    exact halike
  · rw [hspace]
    exact Request.binding_of_turn ht hlabel hgranted

/-- A region that meets a mirror, data where nothing is mapped with a label all the same, and behind it a region,
data in it that asks for the name again, and a mirror of it. -/
def mixedRequests : List Request := [
  .region ⟨"LATE", ⟨0xFFF, 2⟩, .all, none⟩,
  .data ⟨0x3000, 8, 1, some "gone"⟩,
  .region ⟨"NEW", ⟨0x2000, 0x10⟩, .all, none⟩,
  .data ⟨0x2000, 16, 1, some "gone"⟩,
  .mirror ⟨"AGAIN", 0x2000, ⟨0x4000, 8⟩⟩]

theorem nestedMirrors_accepted :
    Built nestedMirrors ∧ ∃ failures q,
      (realize defaultHost [] mixedRequests).exec ⟨nestedMirrors, {}, []⟩ = (.ok failures, q) ∧
      (∃ failures' q', (realize defaultHost [] [.region ⟨"NEW", ⟨0x2000, 0x10⟩, .all, none⟩,
          .data ⟨0x2000, 16, 1, some "gone"⟩, .mirror ⟨"AGAIN", 0x2000, ⟨0x4000, 8⟩⟩]).exec
            ⟨nestedMirrors, {}, []⟩ = (.ok failures', q') ∧
        q'.space = { q.space with labels := q'.space.labels }) ∧
      failures.map (·.request) = [.region ⟨"LATE", ⟨0xFFF, 2⟩, .all, none⟩,
        .data ⟨0x3000, 8, 1, some "gone"⟩, .data ⟨0x2000, 16, 1, some "gone"⟩] ∧
      ∃ b, q.space.labels.bindings.get? "gone" = some b ∧ b.address = 0x3000 := by
  obtain ⟨failures, q, hrun, halone, -, -, -, hfailures, hbound⟩ :=
    realize_accepted (p := ⟨nestedMirrors, {}, []⟩) Monitor.patient_default defaultHost [] mixedRequests
  refine ⟨built_nestedMirrors, failures, q, hrun, halone, ?_, ?_⟩
  · rw [hfailures]
    decide
  · exact hbound _ (List.mem_cons_of_mem _ List.mem_cons_self) _ _ rfl (by decide)

end PsxExe
