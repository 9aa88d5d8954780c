import PsxExe.Header.Image
import PsxExe.Proofs.Header.Agreement
import PsxExe.Proofs.Load.Phases
import PsxExe.Proofs.MemoryMap.Pieces

/-!
# What of a file matters

Of a file a load reads the header and the bytes of the code, and nothing tells a byte that is missing from
a zero, apart from the warning that the file is too short. Two files that agree as far as the code goes
are therefore loaded alike, step by step: `Agree` relates two programs whose runs can only differ in the
warnings they note down, and it is found for the whole load by following it.
-/

namespace PsxExe

open AddressSpace LoadM

/-! ### Runs that differ in warnings -/

def withoutWarnings (events : List Event) : List Event := events.filter (·.level != .warning)

@[simp] theorem withoutWarnings_append (events others : List Event) :
    withoutWarnings (events ++ others) = withoutWarnings events ++ withoutWarnings others :=
  List.filter_append ..

/-- Loads that have come equally far, with the same log but for its warnings. -/
structure Progress.Alike (p q : Progress) : Prop where
  space : q.space = p.space
  monitor : q.monitor = p.monitor
  log : withoutWarnings q.log = withoutWarnings p.log

namespace LoadM

variable {α β : Type} {action other : LoadM α} {next next' : α → LoadM β}

/-- From progress that is alike, both programs give the same result and leave progress that is alike. -/
def Agree (action other : LoadM α) : Prop :=
  ∀ p q : Progress, p.Alike q →
    (other.exec q).1 = (action.exec p).1 ∧ (action.exec p).2.Alike (other.exec q).2

theorem Agree.bind (h : Agree action other) (hnext : ∀ a, Agree (next a) (next' a)) :
    Agree (action >>= next) (other >>= next') := by
  intro p q hpq
  obtain ⟨hresult, halike⟩ := h p q hpq
  rw [exec_bind, exec_bind]
  rcases hp : action.exec p with ⟨result, p'⟩
  rcases hq : other.exec q with ⟨result', q'⟩
  rw [hp, hq] at hresult halike
  obtain rfl : result' = result := hresult
  cases result' with
  | error e => exact ⟨rfl, halike⟩
  | ok a => exact hnext a p' q' halike

theorem Agree.pure (a : α) : Agree (Pure.pure a : LoadM α) (Pure.pure a) := fun _ _ h => ⟨rfl, h⟩

theorem Agree.say (message : String) : Agree (LoadM.say message) (LoadM.say message) :=
  fun _ _ h => ⟨rfl, h.space, congrArg (Monitor.say · message) h.monitor, h.log⟩

theorem Agree.note {events others : List Event} (h : withoutWarnings others = withoutWarnings events) :
    Agree (LoadM.note events) (LoadM.note others) := by
  intro p q hpq
  refine ⟨rfl, hpq.space, hpq.monitor, ?_⟩
  simp only [exec_note, withoutWarnings_append, hpq.log, h]

theorem Agree.space : Agree LoadM.space LoadM.space := fun _ _ h => ⟨congrArg Except.ok h.space, h⟩

theorem Agree.modifySpace (f : AddressSpace → AddressSpace) : Agree (LoadM.modifySpace f) (LoadM.modifySpace f) :=
  fun _ _ h => ⟨rfl, congrArg f h.space, h.monitor, h.log⟩

theorem Agree.perform (operation : AddressSpace → Except SpaceError (α × AddressSpace)) :
    Agree (LoadM.perform operation) (LoadM.perform operation) := by
  intro p q hpq
  rw [exec_perform, exec_perform, hpq.space]
  cases operation p.space with
  | error e => exact ⟨rfl, hpq⟩
  | ok done => exact ⟨rfl, rfl, hpq.monitor, hpq.log⟩

theorem Agree.alter (operation : AddressSpace → Except SpaceError AddressSpace) :
    Agree (LoadM.alter operation) (LoadM.alter operation) := .perform _

theorem Agree.handling {kinds : List SpaceError.Kind} {handler : SpaceError → LoadM α} (h : Agree action other)
    (hhandler : ∀ e, Agree (handler e) (handler e)) :
    Agree (LoadM.handling kinds action handler) (LoadM.handling kinds other handler) := by
  intro p q hpq
  obtain ⟨hresult, halike⟩ := h p q hpq
  rw [exec_handling, exec_handling]
  rcases hp : action.exec p with ⟨result, p'⟩
  rcases hq : other.exec q with ⟨result', q'⟩
  rw [hp, hq] at hresult halike
  obtain rfl : result' = result := hresult
  rcases result' with e | a
  · cases e with
    | space e =>
      dsimp only
      split
      · exact hhandler e p' q' halike
      · exact ⟨rfl, halike⟩
    | cancelled | unsupportedFormat | layout => exact ⟨rfl, halike⟩
  · exact ⟨rfl, halike⟩

theorem Agree.check : Agree LoadM.check LoadM.check := by
  intro p q hpq
  rw [exec_check, exec_check, hpq.monitor]
  exact ⟨rfl, hpq.space, rfl, hpq.log⟩

end LoadM

variable {host : Host} {h : Header}

theorem searchWindows_agree (s : AddressSpace) (pattern : Pattern) (windows : List (Region × Nat)) :
    Agree (searchWindows s pattern windows) (searchWindows s pattern windows) := by
  induction windows with
  | nil => exact .pure none
  | cons w rest ih =>
    rw [searchWindows]
    refine .bind .check fun _ => ?_
    cases s.searchWindow pattern w with
    | some hit => exact .pure (some hit)
    | none => exact ih

theorem findSignature_agree (start : Int) (signature : Signature) :
    Agree (findSignature start signature) (findSignature start signature) := by
  refine .bind .space fun s => ?_
  by_cases hnone : (s.regionAt start).isNone
  · simp only [if_pos hnone]
    exact .pure none
  · simp only [if_neg hnone]
    exact searchWindows_agree _ _ _

theorem applyEntryPoint_agree (h : Header) : Agree (applyEntryPoint h) (applyEntryPoint h) := by
  refine .bind (.handling ?_ fun _ => .note rfl) fun _ => .bind (.modifySpace _) fun _ => .modifySpace _
  exact .bind (.alter _) fun _ => .bind (.alter _) fun _ => .modifySpace _

theorem labelMain_agree (target : Int) : Agree (labelMain target) (labelMain target) :=
  .handling (.bind (.alter _) fun _ => .pure _) fun _ => .bind (.note rfl) fun _ => .pure _

theorem locateMain_agree (h : Header) (signatures : List Signature) :
    Agree (locateMain host h signatures) (locateMain host h signatures) := by
  induction signatures with
  | nil => exact .pure none
  | cons signature rest ih =>
    rw [locateMain]
    refine .bind (findSignature_agree _ _) fun found => ?_
    cases found with
    | none => exact .bind (.note rfl) fun _ => ih
    | some found =>
      refine .bind (.perform _) fun instruction => ?_
      cases instruction with
      | none => exact .bind (.note rfl) fun _ => ih
      | some i =>
        dsimp only
        cases i.reference 0 with
        | none => exact .bind (.note rfl) fun _ => ih
        | some target =>
          refine .bind (labelMain_agree target) fun granted => ?_
          cases granted with
          | true => exact .bind (.note rfl) fun _ => .pure (some target)
          | false => exact .pure none

theorem finishLoad_agree (h : Header) (requests : List Request) (failures : List Failure) :
    Agree (finishLoad host h requests failures) (finishLoad host h requests failures) :=
  .bind (applyEntryPoint_agree h) fun _ => .bind .check fun _ =>
    .bind (locateMain_agree h _) fun _ => .bind (.say _) fun _ => .pure _

/-! ### What requests read -/

variable {first second : Bytes}

theorem AddressSpace.filledStorage_eq {size : Int}
    (h : ∀ i < size.toNat, first.getD i 0 = second.getD i 0) :
    filledStorage size (some first) = filledStorage size (some second) := by
  have hbyte (bytes : Bytes) (i : Nat) :
      (filledStorage size (some bytes)).byteAt i = if i < size.toNat then bytes.getD i 0 else 0 := by
    by_cases hi : i < size.toNat
    · rw [if_pos hi, byteAt_filledStorage (by omega)]
      rfl
    · rw [if_neg hi, filledStorage, Storage.byteAt_write, List.length_take, if_neg (by omega)]
      rfl
  have hall : (filledStorage size (some first)).byteAt = (filledStorage size (some second)).byteAt := by
    funext i
    rw [hbyte, hbyte]
    split
    next hi => exact h i hi
    next => rfl
  exact Storage.mk.injEq .. |>.mpr ⟨rfl, hall⟩

/-- The request creates the same from both files. -/
def Request.ReadsAlike (host : Host) (first second : Bytes) (r : Request) : Prop :=
  ∀ s, r.create host first s = r.create host second s

theorem RegionRequest.readsAlike {q : RegionRequest}
    (h : q.fileOffset = none ∨ ∃ offset : Nat, q.fileOffset = some (offset : Int) ∧
      Bytes.AgreeBelow (offset + q.extent.size.toNat) first second) :
    (Request.region q).ReadsAlike host first second := by
  intro s
  rw [Request.create, Request.create, fileBytes, fileBytes]
  rcases h with hnone | ⟨offset, hsome, hagree⟩
  · rw [hnone]
    rfl
  · have hstorage : filledStorage q.extent.size (some (first.slice offset (offset + q.extent.size))) =
        filledStorage q.extent.size (some (second.slice offset (offset + q.extent.size))) := by
      apply filledStorage_eq
      intro i hi
      rw [Bytes.getD_slice _ _ (by omega), Bytes.getD_slice _ _ (by omega)]
      exact hagree _ (by omega)
    rw [hsome]
    simp only [filledStorage] at hstorage
    simp only [Option.map_some, createRegion, Option.isSome_some, host.storageFor_eq]
    by_cases hlimit : host.allocationLimit < q.extent.size
    · simp only [if_pos hlimit]
      rfl
    · simp only [if_neg hlimit, bind, Except.bind, hstorage]

theorem Request.withoutWarnings_shortage (file : Bytes) (r : Request) : withoutWarnings (r.shortage file) = [] := by
  cases r with
  | region q =>
    rw [shortage, RegionRequest.shortage]
    split
    · split <;> rfl
    · rfl
  | mirror m => rfl
  | data d => rfl

theorem Request.ReadsAlike.apply_eq {r : Request} (h : r.ReadsAlike host first second) (s : AddressSpace) :
    (r.apply host second s).space = (r.apply host first s).space ∧
      (r.apply host second s).failures = (r.apply host first s).failures := by
  rw [apply, applyCreation, ← h s, apply, applyCreation]
  cases r.create host first s with
  | ok t => exact ⟨rfl, rfl⟩
  | error e => exact ⟨rfl, rfl⟩

theorem Request.applyAll_eq {requests : List Request}
    (h : ∀ r ∈ requests, r.ReadsAlike host first second) (s : AddressSpace) :
    (applyAll host second s requests).space = (applyAll host first s requests).space ∧
      (applyAll host second s requests).failures = (applyAll host first s requests).failures := by
  induction requests generalizing s with
  | nil => exact ⟨rfl, rfl⟩
  | cons r rest ih =>
    obtain ⟨hspace, hfailures⟩ := (h r List.mem_cons_self).apply_eq s
    obtain ⟨hspaces, hothers⟩ := ih (fun r hr => h r (List.mem_cons_of_mem _ hr)) (r.apply host first s).space
    rw [applyAll, applyAll, hspace, hfailures]
    exact ⟨hspaces, congrArg (_ ++ ·) hothers⟩

theorem Request.attempt_agree (r : Request) {kinds : List SpaceError.Kind} {event : SpaceError → Event}
    {step step' : LoadM Unit} (h : Agree step step') :
    Agree (r.attempt kinds event step) (r.attempt kinds event step') :=
  .handling (.bind h fun _ => .pure _) fun _ => .bind (.note rfl) fun _ => .pure _

theorem Request.ReadsAlike.agree {r : Request} (h : r.ReadsAlike host first second) :
    Agree (r.realizeCreation host first) (r.realizeCreation host second) := by
  have hsame : r.create host first = r.create host second := funext h
  rw [realizeCreation, realizeCreation, hsame]
  refine r.attempt_agree (.bind (.note ?_) fun _ => .alter _)
  rw [r.withoutWarnings_shortage, r.withoutWarnings_shortage]

theorem Request.realizeLabel_agree (r : Request) : Agree r.realizeLabel r.realizeLabel := by
  rw [realizeLabel]
  split
  · exact .pure _
  · exact r.attempt_agree (.alter _)

theorem realize_agree {requests : List Request} (h : ∀ r ∈ requests, r.ReadsAlike host first second) :
    Agree (realize host first requests) (realize host second requests) := by
  induction requests with
  | nil => exact .pure []
  | cons r rest ih =>
    rw [realize, realize]
    refine .bind .check fun _ => .bind (h r List.mem_cons_self).agree fun _ => ?_
    refine .bind r.realizeLabel_agree fun _ => ?_
    exact .bind (ih fun r hr => h r (List.mem_cons_of_mem _ hr)) fun _ => .pure _

/-! ### The map of a header -/

theorem Header.memoryMap_fileOffset {q : RegionRequest} (hq : .region q ∈ h.memoryMap) :
    q.fileOffset = none ∨ q.fileOffset = some (Header.size : Int) ∧ q.extent = h.code := by
  rcases region_mem_memoryMap hq with ⟨p, hp, rfl⟩ | hother
  · rcases mem_ramPieces.1 hp with rfl | rfl | rfl
    · exact .inl rfl
    · exact .inr ⟨rfl, rfl⟩
    · exact .inl rfl
  · rcases region_mem_otherRequests hother with rfl | rfl | rfl | rfl | ⟨b, -, rfl⟩ <;> exact .inl rfl

theorem Header.memoryMap_readsAlike
    (hagree : Bytes.AgreeBelow (Header.size + h.code.size.toNat) first second) :
    ∀ r ∈ h.memoryMap, r.ReadsAlike host first second := by
  intro r hr
  cases r with
  | region q =>
    rcases memoryMap_fileOffset hr with hnone | ⟨hsome, hextent⟩
    · exact q.readsAlike (.inl hnone)
    · rw [← hextent] at hagree
      exact q.readsAlike (.inr ⟨_, hsome, hagree⟩)
  | mirror m => exact fun _ => rfl
  | data d => exact fun _ => rfl

theorem load_agree (hfirst : Header.parse first = .ok h) (hsecond : Header.parse second = .ok h)
    (hagree : Bytes.AgreeBelow (Header.size + h.code.size.toNat) first second) :
    Agree (load host first) (load host second) := by
  intro p q hpq
  rw [load_exec hfirst, load_exec hsecond]
  have hrun : Agree (realize host first h.memoryMap >>= finishLoad host h h.memoryMap)
      (realize host second h.memoryMap >>= finishLoad host h h.memoryMap) :=
    .bind (realize_agree (h.memoryMap_readsAlike hagree)) fun failures => finishLoad_agree h _ failures
  refine hrun _ _ ⟨hpq.space, congrArg (Monitor.say · _) hpq.monitor, ?_⟩
  simp only [Progress.started, withoutWarnings_append, hpq.log]

/-- Files with a tag and all fixed fields that agree, each continued with zeros, up to the end of the code
that the first one declares: a load of either, which the monitor lets finish, gives the same result and
leaves the same address space. If they start alike, nothing but warnings in the log tells them apart. -/
theorem load_of_agree {p q : Progress} (hfirst : Header.Carried first) (hsecond : Header.Carried second)
    (hagree : Bytes.AgreeBelow (Header.size + first.wordAt 0x1C) first second) (hspace : q.space = p.space)
    (hp : p.monitor.Patient) (hq : q.monitor.Patient) (host : Host) :
    ∃ h result, Header.parse first = .ok h ∧ h.code.size = first.wordAt 0x1C ∧
      Header.parse second = .ok h ∧ result.header = h ∧ ((load host first).exec p).1 = .ok result ∧
      ((load host second).exec q).1 = .ok result ∧
      ((load host second).exec q).2.space = ((load host first).exec p).2.space ∧
      ((load host first).exec p).2.Alike ((load host second).exec p).2 := by
  obtain ⟨h, hparse, hsize⟩ := hfirst.parse_isOk
  have hparse' : Header.parse second = .ok h := by
    rw [← hparse, Header.parse_eq_of_agree hfirst hsecond (hagree.mono (Nat.le_add_right ..))]
  have hcode : Bytes.AgreeBelow (Header.size + h.code.size.toNat) first second := by
    rw [hsize]
    exact hagree
  obtain ⟨p', hends, hp', -⟩ := @load_ends host first h p hparse hp
  obtain ⟨q', hends', hq', -⟩ := @load_ends host second h q hparse' hq
  have hreads : ∀ r ∈ h.memoryMap, r.ReadsAlike host first second := h.memoryMap_readsAlike hcode
  obtain ⟨hrealized, hfailures⟩ := Request.applyAll_eq hreads p.space
  rw [hspace, hrealized, hfailures] at hends'
  rw [hspace, hrealized] at hq'
  refine ⟨h, _, hparse, hsize, hparse', rfl, congrArg Prod.fst hends.run, congrArg Prod.fst hends'.run, ?_, ?_⟩
  · rw [hends'.run, hends.run]
    exact hq'.trans hp'.symm
  · exact (load_agree hparse hparse' hcode p p ⟨rfl, rfl, rfl⟩).2

/-- A file that ends behind its fixed fields and declares four bytes of code. -/
def headlessImage : Bytes :=
  Header.expectedMagic ++ List.replicate 16 0 ++ Header.wordBytes 0x80010000 ++ Header.wordBytes 4 ++
    List.replicate 24 0

def paddedImage : Bytes := headlessImage ++ List.replicate 0x7CC 0

def overlongImage : Bytes := paddedImage ++ [0xFF]

theorem images_alike :
    ∃ result, ((load defaultHost headlessImage).exec ⟨∅, {}, []⟩).1 = .ok result ∧
      ((load defaultHost paddedImage).exec ⟨∅, {}, []⟩).1 = .ok result ∧
      ((load defaultHost overlongImage).exec ⟨∅, {}, []⟩).1 = .ok result ∧
      ((load defaultHost overlongImage).exec ⟨∅, {}, []⟩).2.space =
        ((load defaultHost headlessImage).exec ⟨∅, {}, []⟩).2.space := by
  have htag : Header.expectedMagic <+: headlessImage := by decide
  have hlength : headlessImage.length = 0x38 := by decide
  have hword : headlessImage.wordAt 0x1C = 4 := by decide
  have hpadded : paddedImage.length = Header.size + headlessImage.wordAt 0x1C := by
    rw [paddedImage, List.length_append, List.length_replicate, hlength, hword]
    rfl
  have hzeros : Bytes.AgreeBelow (Header.size + headlessImage.wordAt 0x1C) headlessImage paddedImage :=
    Bytes.agreeBelow_append_zeros _ _ _
  have hbehind : Bytes.AgreeBelow (Header.size + headlessImage.wordAt 0x1C) paddedImage overlongImage :=
    Bytes.agreeBelow_append (Nat.le_of_eq hpadded.symm) _
  have hshort : Header.Carried headlessImage := ⟨htag, Nat.le_of_eq hlength.symm⟩
  have hwhole : Header.Carried paddedImage := hshort.append _
  have hlong : Header.Carried overlongImage := hwhole.append _
  obtain ⟨-, result, -, -, -, -, hresult, hresult', -⟩ :=
    load_of_agree (p := ⟨∅, {}, []⟩) (q := ⟨∅, {}, []⟩) hshort hwhole hzeros rfl
      Monitor.patient_default Monitor.patient_default defaultHost
  obtain ⟨-, other, -, -, -, -, hsame, hother, hspace, -⟩ :=
    load_of_agree (p := ⟨∅, {}, []⟩) (q := ⟨∅, {}, []⟩) hshort hlong (hzeros.trans hbehind) rfl
      Monitor.patient_default Monitor.patient_default defaultHost
  obtain rfl : other = result := Except.ok.inj (hsame.symm.trans hresult)
  exact ⟨_, hresult, hresult', hother, hspace⟩

end PsxExe
