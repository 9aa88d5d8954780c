import PsxExe.Proofs.Load.MainCall

/-!
# The search for the main function, way by way

A signature can fail the search in three ways: nothing matches, nothing decodes where it leads to, or what decodes
there has no target. The next one is tried then, and all that is left of the one before is the instruction that was
decoded for it. The search ends when the label is refused or made, when no signature is left, or when the monitor
stops it inside a scan. On each way the label is the last thing that is done, so where there is no answer there is no
label.
-/

namespace PsxExe

open AddressSpace LoadM

variable {host : Host} {h : Header} {s t : AddressSpace} {p : Progress} {start a : Int}

namespace AddressSpace

/-! ### First matches -/

theorem firstMatch_nil (s : AddressSpace) (start : Int) : s.firstMatch start [] = none := by
  have hwindow : ∀ w ∈ s.scanWindows start, s.searchWindow [] w = none := by
    intro w _
    rw [searchWindow, Pattern.findUp, if_pos (.inl rfl)]
    rfl
  rw [firstMatch, List.findSome?_eq_none_iff.2 hwindow, ite_self]

theorem Arranged.isFirst_of_firstMatch (hs : s.Arranged) {pattern : Pattern} {m : Int}
    (hm : s.firstMatch start pattern = some m) : IsFirst (s.MatchFrom start pattern) (some m) := by
  have hpattern : pattern ≠ [] := by
    rintro rfl
    rw [firstMatch_nil] at hm
    cases hm
  rw [firstMatch] at hm
  by_cases hnone : (s.regionAt start).isNone
  · rw [if_pos hnone] at hm
    cases hm
  · rw [if_neg hnone] at hm
    rw [← hm]
    exact hs.scan_isFirst hpattern start

/-! ### The ways of a search -/

/-- How a search for the main function can go: the space that it starts from, the signatures that it has left, its
answer, and the space that it leaves behind. -/
inductive MainSearch (host : Host) (h : Header) :
    AddressSpace → List Signature → Except LoadError (Option Int) → AddressSpace → Prop
  | exhausted (s : AddressSpace) : MainSearch host h s [] (.ok none) s
  | cancelled (s : AddressSpace) (signature : Signature) (rest : List Signature) :
      MainSearch host h s (signature :: rest) (.error .cancelled) s
  /-- There is no match, or nothing decodes where it leads to. -/
  | uncalled {s t : AddressSpace} {signature : Signature} {rest : List Signature}
      {result : Except LoadError (Option Int)} (hcall : s.callBy host h signature = none)
      (hrest : MainSearch host h s rest result t) : MainSearch host h s (signature :: rest) result t
  | untargeted {s t : AddressSpace} {signature : Signature} {rest : List Signature}
      {result : Except LoadError (Option Int)} {a : Int} {i : Instruction}
      (hcall : s.callBy host h signature = some (a, i)) (htarget : i.reference 0 = none)
      (hrest : MainSearch host h (s.noteInstruction a i) rest result t) :
      MainSearch host h s (signature :: rest) result t
  | refused {s : AddressSpace} {signature : Signature} {rest : List Signature} {a target : Int} {i : Instruction}
      {e : SpaceError} (hcall : s.callBy host h signature = some (a, i)) (htarget : i.reference 0 = some target)
      (hlabel : (s.noteInstruction a i).createLabel target mainName .function = .error e) :
      MainSearch host h s (signature :: rest) (.ok none) (s.noteInstruction a i)
  | found {s t : AddressSpace} {signature : Signature} {rest : List Signature} {a target : Int} {i : Instruction}
      {l : Label} (hcall : s.callBy host h signature = some (a, i)) (htarget : i.reference 0 = some target)
      (hlabel : (s.noteInstruction a i).createLabel target mainName .function = .ok (l, t)) :
      MainSearch host h s (signature :: rest) (.ok (some target)) t

/-- Every run of the search goes in one of these ways, whatever the monitor does. -/
theorem locateMain_mainSearch (host : Host) (h : Header) (signatures : List Signature) (p : Progress) :
    MainSearch host h p.space signatures ((locateMain host h signatures).exec p).1
      ((locateMain host h signatures).exec p).2.space := by
  induction signatures generalizing p with
  | nil => exact .exhausted p.space
  | cons signature rest ih =>
    obtain ⟨s, monitor, log⟩ := p
    rw [locateMain, exec_bind]
    obtain ⟨m, hscan | hscan⟩ := findSignature_outcome h.initialPc signature ⟨s, monitor, log⟩
    · rw [hscan]
      exact .cancelled ..
    · rw [hscan]
      dsimp only
      cases hfound : s.firstMatch h.initialPc signature.pattern with
      | none =>
        have hcall : s.callBy host h signature = none := by
          rw [callBy, hfound]
          rfl
        exact .uncalled hcall (ih ⟨s, m, _⟩)
      | some found =>
        have hcall : s.callBy host h signature =
            (s.decoded host (found + signature.skip)).1.map (found + signature.skip, ·) := by
          rw [callBy, hfound]
          rfl
        dsimp only
        rw [exec_bind, disassemble_settles]
        dsimp only
        rcases s.decoded_cases host (found + signature.skip) with hdecoded | ⟨i, hdecoded⟩
        · rw [hdecoded] at hcall ⊢
          exact .uncalled hcall (ih ⟨s, m, _⟩)
        · rw [hdecoded] at hcall ⊢
          dsimp only
          cases htarget : i.reference 0 with
          | none => exact .untargeted hcall htarget (ih ⟨_, m, _⟩)
          | some target =>
            dsimp only
            rw [exec_bind, labelMain_settles]
            dsimp only [labelled]
            cases hlabel : (s.noteInstruction (found + signature.skip) i).createLabel target mainName .function with
            | error e => exact .refused hcall htarget hlabel
            | ok created => exact .found (l := created.1) hcall htarget hlabel

/-! ### What a search leaves behind -/

theorem Arranged.isFirst_of_callBy (hs : s.Arranged) {signature : Signature} {i : Instruction}
    (hcall : s.callBy host h signature = some (a, i)) :
    ∃ m, IsFirst (s.MatchFrom h.initialPc signature.pattern) (some m) ∧ a = m + signature.skip := by
  obtain ⟨m, hm, hdecoded⟩ := Option.bind_eq_some_iff.1 hcall
  obtain ⟨_, -, hpair⟩ := Option.map_eq_some_iff.1 hdecoded
  exact ⟨m, hs.isFirst_of_firstMatch hm, (Prod.mk.inj hpair).1.symm⟩

/-- What an answer of the search says of the labels that it leaves behind. -/
def Answered (s : AddressSpace) (labels : LabelTable) : Except LoadError (Option Int) → Prop
  | .ok (some target) => ∃ l, s.labels.add ⟨target, mainName, .function, s.regionNameAt target⟩ = .ok (l, labels)
  | .ok none => labels = s.labels
  | .error e => e = .cancelled ∧ labels = s.labels

/-- Instructions that are those of the space, but where one of the signatures leads to. -/
def Noted (host : Host) (h : Header) (s : AddressSpace) (signatures : List Signature)
    (instructions : Table Int Instruction) : Prop :=
  ∀ b, instructions.get? b = s.instructions.get? b ∨
    ∃ signature ∈ signatures, ∃ i, s.callBy host h signature = some (b, i) ∧ instructions.get? b = some i

theorem noted_noteInstruction {signature : Signature} {i : Instruction}
    (hcall : s.callBy host h signature = some (a, i)) (rest : List Signature) :
    s.Noted host h (signature :: rest) (s.noteInstruction a i).instructions := by
  intro b
  by_cases hb : b = a
  · subst hb
    exact .inr ⟨signature, List.mem_cons_self, i, hcall, Table.get?_insert_self ..⟩
  · exact .inl (Table.get?_insert_ne _ hb _)

namespace MainSearch

variable {signatures : List Signature} {result : Except LoadError (Option Int)}

theorem outcome (hsearch : MainSearch host h s signatures result t) :
    ∃ labels instructions, t = { s with labels, instructions } := by
  induction hsearch with
  | exhausted => exact ⟨_, _, rfl⟩
  | cancelled => exact ⟨_, _, rfl⟩
  | uncalled _ _ ih => exact ih
  | untargeted _ _ _ ih =>
    obtain ⟨labels, instructions, rfl⟩ := ih
    exact ⟨_, _, rfl⟩
  | refused => exact ⟨_, _, rfl⟩
  | found _ _ hlabel =>
    obtain ⟨labels, -, rfl⟩ := createLabel_eq_ok_iff.1 hlabel
    exact ⟨_, _, rfl⟩

theorem answered (hsearch : MainSearch host h s signatures result t) : s.Answered t.labels result := by
  induction hsearch with
  | exhausted => exact rfl
  | cancelled => exact ⟨rfl, rfl⟩
  | uncalled _ _ ih => exact ih
  | @untargeted _ _ _ _ result _ _ _ _ _ ih =>
    -- Noting an instruction touches neither the labels nor the regions.
    rcases result with _ | _ | _ <;> exact ih
  | refused => exact rfl
  | found _ _ hlabel =>
    obtain ⟨labels, hadd, rfl⟩ := createLabel_eq_ok_iff.1 hlabel
    exact ⟨_, hadd⟩

theorem noted (hsearch : MainSearch host h s signatures result t) : s.Noted host h signatures t.instructions := by
  induction hsearch with
  | exhausted => exact fun _ => .inl rfl
  | cancelled => exact fun _ => .inl rfl
  | uncalled _ _ ih =>
    intro b
    refine (ih b).imp_right fun ⟨signature, hmem, hcall⟩ => ⟨signature, List.mem_cons_of_mem _ hmem, hcall⟩
  | @untargeted s _ signature rest _ a i hcall _ _ ih =>
    intro b
    rcases ih b with hsame | ⟨other, hmem, j, hcall', hj⟩
    · rw [hsame]
      exact noted_noteInstruction hcall rest b
    · rw [(s.noteInstruction_sameMemory a i).callBy_eq] at hcall'
      exact .inr ⟨other, List.mem_cons_of_mem _ hmem, j, hcall', hj⟩
  | refused hcall => exact noted_noteInstruction hcall _
  | found hcall _ hlabel =>
    obtain ⟨labels, -, rfl⟩ := createLabel_eq_ok_iff.1 hlabel
    exact noted_noteInstruction hcall _

end MainSearch

/-- A search changes the labels if it has an answer, and then by the label of the answer. The memory, the typed data,
the functions, the entry points and the registers stay as they were, and instructions are only noted where one of the
signatures leads to. -/
theorem Built.locateMain_allOrNothing (hs : Built p.space) (host : Host) (h : Header) (signatures : List Signature) :
    ∃ result q, (locateMain host h signatures).exec p = (result, q) ∧
      (q.space.regions = p.space.regions ∧ q.space.storages = p.space.storages ∧ q.space.data = p.space.data ∧
        q.space.functions = p.space.functions ∧ q.space.entryPoints = p.space.entryPoints ∧
        q.space.registers = p.space.registers) ∧
      (∀ target, result = .ok (some target) →
        (∃ l, q.space.labels.find? mainName = some l ∧ l.address = target) ∧
        q.space.labels.find? mainName = some
          ((p.space.labels.find? mainName).getD ⟨target, mainName, .function, p.space.regionNameAt target⟩) ∧
        ∀ name, name ≠ mainName → q.space.labels.find? name = p.space.labels.find? name) ∧
      (result = .ok none → q.space.labels = p.space.labels) ∧
      (∀ e, result = .error e → e = .cancelled ∧ q.space.labels = p.space.labels) ∧
      ∀ a, q.space.instructions.get? a = p.space.instructions.get? a ∨
        ∃ signature ∈ signatures, ∃ m i,
          IsFirst (p.space.MatchFrom h.initialPc signature.pattern) (some m) ∧ a = m + signature.skip ∧
            (∃ t, p.space.disassemble host a = .ok (some i, t)) ∧ q.space.instructions.get? a = some i := by
  have hsearch := locateMain_mainSearch host h signatures p
  rcases hrun : (locateMain host h signatures).exec p with ⟨result, q⟩
  rw [hrun] at hsearch
  refine ⟨result, q, rfl, ?_, ?_, ?_, ?_, fun a => ?_⟩
  · obtain ⟨labels, instructions, houtcome⟩ := hsearch.outcome
    rw [houtcome]
    exact ⟨rfl, rfl, rfl, rfl, rfl, rfl⟩
  · rintro target rfl
    obtain ⟨l, hadd⟩ := hsearch.answered
    obtain ⟨-, b, hb, haddress⟩ := LabelTable.add_binds hadd
    obtain ⟨hfirst, hmain, hothers⟩ := LabelTable.find?_of_add hadd
    exact ⟨⟨b.label mainName, congrArg (Option.map _) hb, haddress⟩, hmain.trans (congrArg some hfirst), hothers⟩
  · rintro rfl
    exact hsearch.answered
  · rintro e rfl
    exact hsearch.answered
  · refine (hsearch.noted a).imp_right fun ⟨signature, hmem, i, hcall, hi⟩ => ?_
    obtain ⟨m, hfirst, ha⟩ := hs.arranged.isFirst_of_callBy hcall
    have hdecoded : p.space.disassemble host a = .ok (some i, (p.space.decoded host a).2) := by
      rw [disassemble_eq, ← decoded_of_callBy hcall]
    exact ⟨signature, hmem, m, i, hfirst, ha, ⟨_, hdecoded⟩, hi⟩

/-- Signatures of which one matches nowhere, and the others lead out of the memory, to an instruction without a target
in front of their match, and to a call. -/
def mixedSignatures : List Signature := [
  ⟨"absent", [⟨0xAA, 0xFF⟩], 0⟩,
  ⟨"unmapped", psyqMainCall.pattern, -0x100⟩,
  ⟨"idle", psyqMainCall.pattern, -4⟩,
  psyqMainCall]

/-- The search finds the call, or it is cancelled in front of it, with one instruction noted. -/
theorem uncached_mixedSignatures :
    Built uncached ∧
      (∃ q, (locateMain defaultHost uncachedHeader mixedSignatures).exec ⟨uncached, {}, []⟩ =
          (.ok (some 0x80000100), q) ∧
        q.space.labels.find? mainName = some ⟨0x80000100, "main", .function, ""⟩ ∧
        q.space.functions = uncached.functions) ∧
      ∃ q, (locateMain defaultHost uncachedHeader mixedSignatures).exec ⟨uncached, { cancelAt := some 6 }, []⟩ =
          (.error .cancelled, q) ∧
        q.space.labels = uncached.labels ∧ (q.space.instructions.get? 0x8000000C).isSome ∧
        ∃ signature ∈ mixedSignatures, ∃ m,
          IsFirst (uncached.MatchFrom 0x80000000 signature.pattern) (some m) ∧ 0x8000000C = m + signature.skip := by
  refine ⟨built_uncached, ?_, ?_⟩
  · obtain ⟨result, q, hrun, hframe, hfound, -⟩ := Built.locateMain_allOrNothing
      (p := ⟨uncached, {}, []⟩) built_uncached defaultHost uncachedHeader mixedSignatures
    have hanswer : ((locateMain defaultHost uncachedHeader mixedSignatures).exec ⟨uncached, {}, []⟩).1 =
        .ok (some 0x80000100) := by decide +kernel
    rw [hrun] at hanswer
    obtain rfl : result = .ok (some 0x80000100) := hanswer
    obtain ⟨-, hmain, -⟩ := hfound _ rfl
    exact ⟨q, hrun, hmain.trans (by decide), hframe.2.2.2.1⟩
  · obtain ⟨result, q, hrun, -, -, -, hstopped, hnoted⟩ := Built.locateMain_allOrNothing
      (p := ⟨uncached, { cancelAt := some 6 }, []⟩) built_uncached defaultHost uncachedHeader mixedSignatures
    have hanswer : ((locateMain defaultHost uncachedHeader mixedSignatures).exec
        ⟨uncached, { cancelAt := some 6 }, []⟩).1 = .error .cancelled := by decide +kernel
    have hidle : (((locateMain defaultHost uncachedHeader mixedSignatures).exec
        ⟨uncached, { cancelAt := some 6 }, []⟩).2.space.instructions.get? 0x8000000C).isSome := by decide +kernel
    rw [hrun] at hanswer hidle
    obtain rfl : result = .error .cancelled := hanswer
    refine ⟨q, hrun, (hstopped _ rfl).2, hidle, ?_⟩
    rcases hnoted 0x8000000C with hsame | ⟨signature, hmem, m, -, hfirst, ha, -⟩
    · rw [hsame] at hidle
      exact absurd hidle (by decide)
    · exact ⟨signature, hmem, m, hfirst, ha⟩

end AddressSpace

end PsxExe
