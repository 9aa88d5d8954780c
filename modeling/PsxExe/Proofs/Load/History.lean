import PsxExe.Proofs.Load.Run
import PsxExe.Proofs.Space.Change

/-!
# What a history does

Every operation, a whole load included, comes down to changes of the address space in a row, however it
ends. So what each change keeps holds in every space that a history builds.
-/

namespace PsxExe

open AddressSpace

variable {host : Host} {file : Bytes} {s t : AddressSpace}

theorem exists_of_map_eq_ok {ε α β : Type} {x : Except ε α} {f : α → β} {b : β} (h : x.map f = .ok b) :
    ∃ a, x = .ok a ∧ f a = b := by
  cases x with
  | error e => simp [Except.map] at h
  | ok a => exact ⟨a, rfl, by simpa [Except.map] using h⟩

theorem exists_map_eq_error_iff {ε α β : Type} {x : Except ε α} {f : α → β} :
    (∃ e, x.map f = .error e) ↔ ∃ e, x = .error e := by
  cases x with
  | error e => exact ⟨fun _ => ⟨e, rfl⟩, fun _ => ⟨e, rfl⟩⟩
  | ok a =>
    constructor
    · intro ⟨e, he⟩
      cases he
    · intro ⟨e, he⟩
      cases he

/-! ### Requests -/

theorem Request.create_change {r : Request} (h : r.create host file s = .ok t) : Change host s t := by
  cases r with
  | region r =>
    obtain ⟨⟨q, u⟩, hu, rfl⟩ := exists_of_map_eq_ok h
    exact .region hu
  | mirror m =>
    obtain ⟨⟨q, u⟩, hu, rfl⟩ := exists_of_map_eq_ok h
    exact .mirror hu
  | data d => exact .data h

/-! ### Steps of a load -/

/-- However the step ends, it has only changed the address space in the listed ways. -/
def LoadM.OnlyChanges {α : Type} (host : Host) (action : LoadM α) : Prop :=
  ∀ p, Changes host p.space (action.exec p).2.space

namespace LoadM.OnlyChanges

variable {α β : Type}

theorem of_space_eq {action : LoadM α} (h : ∀ p, (action.exec p).2.space = p.space) :
    OnlyChanges host action := by
  intro p
  rw [h p]

theorem bind {action : LoadM α} {next : α → LoadM β} (h : OnlyChanges host action)
    (hnext : ∀ a, OnlyChanges host (next a)) : OnlyChanges host (action >>= next) := by
  intro p
  have hfirst := h p
  rw [exec_bind]
  rcases hrun : action.exec p with ⟨_ | a, q⟩
  · simpa only [hrun] using hfirst
  · rw [hrun] at hfirst
    exact hfirst.trans (hnext a q)

theorem pure (a : α) : OnlyChanges host (Pure.pure a : LoadM α) := of_space_eq fun _ => rfl

theorem throw (e : LoadError) : OnlyChanges host (MonadExcept.throw e : LoadM α) := of_space_eq fun _ => rfl

theorem say (message : String) : OnlyChanges host (LoadM.say message) := of_space_eq fun _ => rfl

theorem note (events : List Event) : OnlyChanges host (LoadM.note events) := of_space_eq fun _ => rfl

theorem check : OnlyChanges host LoadM.check := of_space_eq fun p => by rw [exec_check]

theorem modifySpace {f : AddressSpace → AddressSpace} (h : ∀ s, Changes host s (f s)) :
    OnlyChanges host (LoadM.modifySpace f) := fun p => h p.space

theorem perform {operation : AddressSpace → Except SpaceError (α × AddressSpace)}
    (h : ∀ s a t, operation s = .ok (a, t) → Changes host s t) : OnlyChanges host (LoadM.perform operation) := by
  intro p
  rw [exec_perform]
  rcases hdone : operation p.space with e | ⟨a, t⟩
  · exact .refl
  · exact h _ _ _ hdone

theorem alter {operation : AddressSpace → Except SpaceError AddressSpace}
    (h : ∀ s t, operation s = .ok t → Changes host s t) : OnlyChanges host (LoadM.alter operation) := by
  intro p
  rw [exec_alter]
  rcases hdone : operation p.space with e | t
  · exact .refl
  · exact h _ _ hdone

theorem handling {kinds : List SpaceError.Kind} {action : LoadM α} {handler : SpaceError → LoadM α}
    (h : OnlyChanges host action) (hhandler : ∀ e, OnlyChanges host (handler e)) :
    OnlyChanges host (LoadM.handling kinds action handler) := by
  intro p
  have hfirst := h p
  rw [exec_handling]
  rcases hrun : action.exec p with ⟨_ | a, q⟩
  · rw [hrun] at hfirst
    split
    next e _ heq =>
      obtain ⟨-, rfl⟩ := Prod.mk.inj heq
      split
      · exact hfirst.trans (hhandler e _)
      · exact hfirst
    next => exact hfirst
  · rwa [hrun] at hfirst

theorem label (a : Int) (name : String) (kind : LabelKind) :
    OnlyChanges host (LoadM.alter fun s => (s.createLabel a name kind).map (·.2)) := by
  refine .alter fun s t h => ?_
  obtain ⟨⟨l, u⟩, hu, rfl⟩ := exists_of_map_eq_ok h
  exact .single (.label hu)

end LoadM.OnlyChanges

open LoadM

theorem Request.attempt_onlyChanges (r : Request) (kinds : List SpaceError.Kind) (event : SpaceError → Event)
    {step : LoadM Unit} (h : OnlyChanges host step) : OnlyChanges host (r.attempt kinds event step) :=
  .handling (.bind h fun _ => .pure _) fun _ => .bind (.note _) fun _ => .pure _

theorem Request.realizeLabel_onlyChanges (r : Request) : OnlyChanges host r.realizeLabel := by
  rw [realizeLabel]
  split
  · exact .pure _
  · exact r.attempt_onlyChanges _ _ (.label _ _ _)

theorem realize_onlyChanges (requests : List Request) : OnlyChanges host (realize host file requests) := by
  induction requests with
  | nil => exact .pure _
  | cons r rest ih =>
    rw [realize]
    refine .bind .check fun _ => .bind ?_ fun _ => .bind r.realizeLabel_onlyChanges fun _ => ?_
    · refine r.attempt_onlyChanges _ _ (.bind (.note _) fun _ => .alter fun s t h => ?_)
      exact .single (Request.create_change h)
    · exact .bind ih fun _ => .pure _

/-- A search is cancelled or tells the first answer of a window. It leaves nothing behind but what the monitor
remembers. -/
theorem searchWindows_outcome (s : AddressSpace) (pattern : Pattern) (windows : List (Region × Nat)) (p : Progress) :
    ∃ m, (searchWindows s pattern windows).exec p = (.error .cancelled, { p with monitor := m }) ∨
      (searchWindows s pattern windows).exec p =
        (.ok (windows.findSome? (s.searchWindow pattern)), { p with monitor := m }) := by
  induction windows generalizing p with
  | nil => exact ⟨p.monitor, .inr rfl⟩
  | cons w rest ih =>
    rw [searchWindows, exec_bind, exec_check]
    by_cases hcancelled : p.monitor.check.cancelled
    · rw [if_pos hcancelled]
      exact ⟨_, .inl rfl⟩
    · rw [if_neg hcancelled, List.findSome?_cons]
      cases s.searchWindow pattern w with
      | none => exact ih { p with monitor := p.monitor.check }
      | some hit => exact ⟨_, .inr rfl⟩

theorem searchWindows_space (pattern : Pattern) (windows : List (Region × Nat)) (p : Progress) :
    ((searchWindows s pattern windows).exec p).2.space = p.space := by
  obtain ⟨m, hcancelled | hanswer⟩ := searchWindows_outcome s pattern windows p
  · rw [hcancelled]
  · rw [hanswer]

theorem findSignature_space (start : Int) (signature : Signature) (p : Progress) :
    ((findSignature start signature).exec p).2.space = p.space := by
  rw [findSignature, exec_bind, exec_space]
  by_cases hnone : (p.space.regionAt start).isNone
  · simp only [if_pos hnone]
    rfl
  · simp only [if_neg hnone]
    exact searchWindows_space ..

theorem applyEntryPoint_onlyChanges (h : Header) : OnlyChanges host (applyEntryPoint h) := by
  refine .bind (.handling ?_ fun _ => .note _) fun _ => ?_
  · refine .bind (.label _ _ _) fun _ => .bind (.alter fun s t h => ?_) fun _ => ?_
    · exact .single (.function h)
    · exact .modifySpace fun s => .single (.entryPoint _)
  · exact .bind (.modifySpace fun s => .single (.register _ _)) fun _ =>
      .modifySpace fun s => .single (.register _ _)

theorem labelMain_onlyChanges (target : Int) : OnlyChanges host (labelMain target) :=
  .handling (.bind (.label _ _ _) fun _ => .pure _) fun _ => .bind (.note _) fun _ => .pure _

theorem disassemble_onlyChanges (a : Int) : OnlyChanges host (LoadM.perform fun s => s.disassemble host a) := by
  refine .perform fun s i t h => ?_
  have hdecoded : (s.decoded host a).2 = t := by
    rw [disassemble_eq] at h
    rw [Except.ok.inj h]
  rw [← hdecoded]
  exact .single (.instruction a)

theorem locateMain_onlyChanges (h : Header) (signatures : List Signature) :
    OnlyChanges host (locateMain host h signatures) := by
  induction signatures with
  | nil => exact .pure _
  | cons signature rest ih =>
    rw [locateMain]
    refine .bind (.of_space_eq (findSignature_space _ _)) fun found => ?_
    cases found with
    | none => exact .bind (.note _) fun _ => ih
    | some found =>
      refine .bind (disassemble_onlyChanges _) fun instruction => ?_
      rcases instruction with _ | i
      · exact .bind (.note _) fun _ => ih
      · dsimp only
        rcases i.reference 0 with _ | target
        · exact .bind (.note _) fun _ => ih
        · refine .bind (labelMain_onlyChanges target) fun free => ?_
          cases free with
          | true => exact .bind (.note _) fun _ => .pure _
          | false => exact .pure _

theorem buildMemoryMap_onlyChanges (h : Header) : OnlyChanges host (buildMemoryMap h) := by
  refine .bind (.note _) fun _ => ?_
  rcases hardwareRequests? with e | hardware
  · exact .throw _
  · exact .pure _

theorem noteHeader_onlyChanges (parsed : Except HeaderError Header) :
    OnlyChanges host (noteHeader parsed) := by
  cases parsed with
  | ok h => exact .pure _
  | error e => exact .bind (.note _) fun _ => .pure _

theorem load_onlyChanges : OnlyChanges host (load host file) := by
  rw [load]
  refine .bind (noteHeader_onlyChanges _) fun found => ?_
  cases found with
  | none => exact .bind (.say _) fun _ => .throw _
  | some h =>
    refine .bind (.say _) fun _ => .bind (.note _) fun _ => ?_
    refine .bind (buildMemoryMap_onlyChanges h) fun requests => ?_
    refine .bind (realize_onlyChanges requests) fun failures => ?_
    refine .bind (applyEntryPoint_onlyChanges h) fun _ => .bind .check fun _ => ?_
    exact .bind (locateMain_onlyChanges h _) fun found => .bind (.say _) fun _ => .pure _

/-! ### Operations -/

theorem changes_getD {ε : Type} {x : Except ε AddressSpace} (h : ∀ t, x = .ok t → Change host s t) :
    Changes host s (x.toOption.getD s) := by
  rcases x with e | t
  · exact .refl
  · exact .single (h t rfl)

theorem Operation.changes (o : Operation) (s : AddressSpace) : Changes host s (o.run host s) := by
  cases o with
  | createRegion name e permissions bytes =>
    refine changes_getD fun t h => ?_
    obtain ⟨⟨r, u⟩, hu, rfl⟩ := exists_of_map_eq_ok h
    exact .region hu
  | createMirror name base e =>
    refine changes_getD fun t h => ?_
    obtain ⟨⟨r, u⟩, hu, rfl⟩ := exists_of_map_eq_ok h
    exact .mirror hu
  | write a bytes => exact changes_getD fun t h => .write h
  | createData a width count => exact changes_getD fun t h => .data h
  | createLabel a name kind =>
    refine changes_getD fun t h => ?_
    obtain ⟨⟨l, u⟩, hu, rfl⟩ := exists_of_map_eq_ok h
    exact .label hu
  | createFunction a name => exact changes_getD fun t h => .function h
  | addEntryPoint a => exact .single (.entryPoint a)
  | setRegister register value => exact .single (.register register value)
  | disassemble a =>
    rw [run, disassemble_eq]
    exact .single (.instruction a)
  | realize file requests monitor => exact realize_onlyChanges requests ⟨s, monitor, []⟩
  | applyEntryPoint header monitor => exact applyEntryPoint_onlyChanges header ⟨s, monitor, []⟩
  | locateMain header signatures monitor => exact locateMain_onlyChanges header signatures ⟨s, monitor, []⟩
  | load file monitor => exact load_onlyChanges ⟨s, monitor, []⟩

theorem Operation.runAll_changes (operations : List Operation) (s : AddressSpace) :
    Changes host s (runAll host s operations) := by
  induction operations generalizing s with
  | nil => exact .refl
  | cons o rest ih => exact (o.changes s).trans (ih _)

namespace AddressSpace

theorem Reachable.built (h : Reachable host s) : Built s := by
  induction h with
  | empty => exact .empty
  | step _ o ih => exact ih.step host o

theorem Reachable.changes (h : Reachable host s) : Changes host ∅ s := by
  induction h with
  | empty => exact .refl
  | step _ o ih => exact ih.trans (o.changes _)

/-- What holds of the empty space and outlasts every change holds of all that histories build. -/
theorem Built.of_changes {P : AddressSpace → Prop} (h : Built s) (hempty : P ∅)
    (hchange : ∀ host s t, Change host s t → P s → P t) : P s := by
  induction h with
  | empty => exact hempty
  | step _ host o ih => exact (o.changes _).preserves (fun _ _ => hchange host _ _) ih

theorem Built.runAll (h : Built s) (host : Host) (operations : List Operation) :
    Built (Operation.runAll host s operations) := by
  induction operations generalizing s with
  | nil => exact h
  | cons o rest ih => exact ih (h.step host o)

theorem Built.arranged (h : Built s) : s.Arranged :=
  h.of_changes arranged_empty fun _ _ _ hchange hs => hchange.arranged hs

end AddressSpace

end PsxExe
