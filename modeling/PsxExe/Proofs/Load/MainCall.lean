import PsxExe.Proofs.Instruction.Call
import PsxExe.Proofs.Label.Table
import PsxExe.Proofs.Load.Again
import PsxExe.Proofs.Load.MirrorMatches
import PsxExe.Proofs.MemoryMap.Labels

/-!
# The call of the main function

The search for the main function takes the first match of the startup code, decodes the call that is its second
instruction, and binds the name to the target of the call. All of the call lies in the region of the match, so
it can be read, and all that is asked of the disassembler is that it reads calls as such. The answer then depends on
nothing but the memory and on what the name is bound to already.
-/

namespace PsxExe

open AddressSpace LoadM

variable {host : Host} {h : Header} {s : AddressSpace} {p : Pattern} {start m : Int} {reader : Mips.Disassembler}

theorem IsFirst.unique {P : Int → Prop} {x y : Option Int} (hx : IsFirst P x) (hy : IsFirst P y) : x = y := by
  cases x with
  | none =>
    cases y with
    | none => rfl
    | some k => exact absurd hy.1 (hx k)
  | some j =>
    cases y with
    | none => exact absurd hx.1 (hy j)
    | some k => rw [Int.le_antisymm (hx.2 k hy.1) (hy.2 j hx.1)]

namespace AddressSpace

/-! ### The match -/

theorem firstMatch_of_unmapped (hstart : s.regionAt start = none) : s.firstMatch start p = none := by
  rw [firstMatch, hstart]
  rfl

theorem Arranged.firstMatch_eq (hs : s.Arranged) (hp : p ≠ []) (hmapped : (s.regionAt start).isSome)
    {answer : Option Int} (hfirst : IsFirst (s.MatchFrom start p) answer) : s.firstMatch start p = answer := by
  have hnone : ¬ (s.regionAt start).isNone := by
    rw [Option.isNone_iff_eq_none]
    exact Option.isSome_iff_ne_none.1 hmapped
  rw [firstMatch, if_neg hnone]
  exact (hs.scan_isFirst hp start).unique hfirst

theorem Arranged.callBy_eq_none (hs : s.Arranged) {signature : Signature} (hp : signature.pattern ≠ [])
    (hno : s.regionAt h.initialPc = none ∨ ∀ a, ¬ s.MatchFrom h.initialPc signature.pattern a) :
    s.callBy host h signature = none := by
  have hfound : s.firstMatch h.initialPc signature.pattern = none := by
    cases hstart : s.regionAt h.initialPc with
    | none => exact firstMatch_of_unmapped hstart
    | some r =>
      rcases hno with hnone | hunmatched
      · rw [hstart] at hnone
        cases hnone
      · exact hs.firstMatch_eq hp (by rw [hstart]; rfl) hunmatched
  rw [callBy, hfound]
  rfl

theorem Arranged.read_call (hs : s.Arranged) (host : Host)
    (hmatch : s.MatchFrom start psyqMainCall.pattern m) :
    0 ≤ m ∧ m + 16 ≤ addressLimit ∧ ∃ code, s.read (m + 4) 4 = .ok code ∧ code.length = 4 ∧
      (s.decoded host (m + 4)).1 = host.decoder code (m + 4) := by
  obtain ⟨-, r, ⟨hr, -⟩, hfrom, hfits, -⟩ := hmatch
  obtain ⟨hbottom, htop⟩ := hs.inside r hr
  change 0 ≤ r.address at hbottom
  change r.stop ≤ addressLimit at htop
  change m + 16 ≤ r.stop at hfits
  have hregion : s.regionAt (m + 4) = some r :=
    hs.regionAt_of_mem hr (Region.mem_extent.2 ⟨by omega, by omega⟩)
  have hread := hs.read_of_locate (n := 4) (locate_eq_ok_iff.2 ⟨hregion, by omega⟩)
  refine ⟨by omega, by omega, _, hread, by simp, ?_⟩
  -- The match reaches eight bytes behind the call, so the region does not cut the call short.
  have hsize : min (r.stop - (m + 4)) 4 = (4 : Nat) := by omega
  rw [decoded, hregion]
  dsimp only
  rw [hsize, hread]
  dsimp only [Except.toOption, Option.getD_some]
  split
  next hnone => exact hnone.symm
  next hsome => exact hsome.symm

/-- The target of the word behind the first four bytes of a match, as a call. -/
def callTarget (m : Int) (word : Nat) : Nat := (m + 8).toNat &&& 0xF0000000 ||| (word &&& 0x3FFFFFF) <<< 2

theorem Arranged.callBy_psyq (hs : s.Arranged) (hdecoder : host.decoder = Mips.decoder reader)
    (hreader : reader.ReadsCalls) (hmapped : (s.regionAt h.initialPc).isSome)
    (hfirst : IsFirst (s.MatchFrom h.initialPc psyqMainCall.pattern) (some m)) :
    ∃ code, s.read (m + 4) 4 = .ok code ∧ (Bytes.littleEndian code >>> 26 = 3 →
      ∃ i, s.callBy host h psyqMainCall = some (m + 4, i) ∧ Mips.IsCall i (m + 4) code ∧
        i.reference 0 = some (callTarget m (Bytes.littleEndian code) : Int)) := by
  obtain ⟨hbottom, htop, code, hread, hlength, hdecoded⟩ := hs.read_call host hfirst.1
  have hfrom : 0 ≤ m + 4 := by omega
  have hto : m + 4 < addressLimit := by omega
  refine ⟨code, hread, fun hword => ?_⟩
  obtain ⟨i, hi, hcall⟩ := Mips.decoder_call hreader hlength hfrom hto hword
  refine ⟨i, ?_, hcall, ?_⟩
  · have hskip : m + psyqMainCall.skip = m + 4 := rfl
    rw [callBy, hs.firstMatch_eq (by decide) hmapped hfirst, Option.bind_some, hskip, hdecoded, hdecoder, hi]
    rfl
  · rw [addressLimit] at htop
    have hbehind : m + 4 + 4 = m + 8 := by omega
    rw [hcall.reference, jumpTarget_eq_bits (by omega), hbehind, callTarget]

/-! ### The search -/

theorem searchMain_of_call {signature : Signature} {a target : Int} {i : Instruction}
    (hcall : s.callBy host h signature = some (a, i)) (htarget : i.reference 0 = some target)
    (rest : List Signature) :
    s.searchMain host h (signature :: rest) =
      match (s.noteInstruction a i).createLabel target mainName .function with
      | .error _ => (none, s.noteInstruction a i)
      | .ok (_, u) => (some target, u) := by
  have hsearch := @searchMain_cons host h s signature rest
  rw [hcall] at hsearch
  simp only [htarget] at hsearch
  exact hsearch

/-- With any disassembler that reads calls, the main function is found at the target of the call in the first match,
wherever the name is free or bound to that target already. -/
theorem Built.locateMain_finds {q : Progress} (hbuilt : Built q.space) (hq : q.monitor.Patient)
    (hdecoder : host.decoder = Mips.decoder reader) (hreader : reader.ReadsCalls) (h : Header) :
    (∀ m, (q.space.regionAt h.initialPc).isSome →
      IsFirst (q.space.MatchFrom h.initialPc psyqMainCall.pattern) (some m) →
      ∃ code, q.space.read (m + 4) 4 = .ok code ∧
        ∀ w t : Nat, w = Bytes.littleEndian code → w >>> 26 = 3 →
          t = ((m + 8).toNat &&& 0xF0000000 ||| (w &&& 0x3FFFFFF) <<< 2) →
          ((∀ l, q.space.labels.find? mainName = some l → l.address = t) →
            ((locateMain host h entrySignatures).exec q).1 = .ok (some (t : Int)) ∧
            (∃ l, ((locateMain host h entrySignatures).exec q).2.space.labels.find? mainName = some l ∧
              l.address = t) ∧
            ∃ i, ((locateMain host h entrySignatures).exec q).2.space.instructions.get? (m + 4) = some i ∧
              i.address = m + 4 ∧ i.size = 4 ∧ i.mnemonic = "jal" ∧ i.bytes = code ∧
              i.reference 0 = some (t : Int)) ∧
          ∀ l, q.space.labels.find? mainName = some l → l.address ≠ t →
            ((locateMain host h entrySignatures).exec q).1 = .ok none) ∧
    ((q.space.regionAt h.initialPc = none ∨
        ∀ a, ¬ q.space.MatchFrom h.initialPc psyqMainCall.pattern a) →
      ((locateMain host h entrySignatures).exec q).1 = .ok none ∧
        ((locateMain host h entrySignatures).exec q).2.space = q.space) := by
  have hs := hbuilt.arranged
  have hname : isLabelName mainName = true := by decide
  obtain ⟨r, hends, hspace⟩ := @locateMain_ends host h q _ rfl hq entrySignatures
  rw [hends.run, hspace, entrySignatures]
  refine ⟨fun m hmapped hfirst => ?_, fun hno => ?_⟩
  · obtain ⟨code, hread, hcalls⟩ := hs.callBy_psyq hdecoder hreader hmapped hfirst
    refine ⟨code, hread, ?_⟩
    rintro w t rfl hword ht
    obtain rfl : t = callTarget m (Bytes.littleEndian code) := ht
    obtain ⟨i, hcalled, hcall, htarget⟩ := hcalls hword
    rw [searchMain_of_call hcalled htarget]
    refine ⟨fun hagrees => ?_, fun l hl hne => ?_⟩
    · obtain ⟨l, labels, hcreate, hbound, haddress⟩ := createLabel_of_agreeing
        (s := q.space.noteInstruction (m + 4) i) hname hagrees .function
      rw [hcreate]
      exact ⟨rfl, ⟨l, hbound, haddress⟩, i, Table.get?_insert_self .., hcall.address, hcall.size, hcall.mnemonic,
        hcall.bytes, htarget⟩
    · obtain ⟨e, hcreate⟩ := createLabel_of_elsewhere
        (s := q.space.noteInstruction (m + 4) i) hname hl hne .function
      rw [hcreate]
  · rw [searchMain_cons, hs.callBy_eq_none (by decide) hno]
    exact ⟨rfl, rfl⟩

def uncachedHeader : Header :=
  ⟨Header.expectedMagic, 0x80000000, 0, ⟨0x80000010, 0x10⟩, ⟨0, 0⟩, ⟨0, 0⟩, 0, 0, ""⟩

theorem uncached_first :
    IsFirst (uncached.MatchFrom uncachedHeader.initialPc psyqMainCall.pattern) (some 0x80000010) := by
  refine ⟨⟨by decide, uncachedOwner, ⟨by decide, .inr (by decide)⟩, by decide, by decide, by decide⟩, ?_⟩
  rintro j ⟨hstart, r, ⟨hr, hscanned⟩, hfrom, hfits, hmatched⟩
  have hregions : ∀ r ∈ uncached.regions, (0x80000000 ∈ r.extent ∨ 0x80000000 < r.address ∧ r.mirrorOf = none) →
      r.address = 0x80000000 ∧ r.stop = 0x80000010 ∨ r.address = 0x80000010 := by decide
  have hlength : psyqMainCall.pattern.length = 16 := rfl
  rcases hregions r hr hscanned with ⟨haddress, hstop⟩ | haddress
  · obtain rfl : j = 0x80000000 := by omega
    exact absurd hmatched (by decide)
  · omega

theorem uncached_locateMain :
    Built uncached ∧ Monitor.Patient {} ∧ defaultHost.decoder = Mips.decoder Mips.disassemble ∧
      Mips.disassemble.ReadsCalls ∧
      (uncached.regionAt uncachedHeader.initialPc).isSome ∧
      uncached.read 0x80000014 4 = .ok [0x40, 0, 0, 0x0C] ∧
      ((locateMain defaultHost uncachedHeader entrySignatures).exec ⟨uncached, {}, []⟩).1 =
        .ok (some 0x80000100) ∧
      ∃ l, ((locateMain defaultHost uncachedHeader entrySignatures).exec
          ⟨uncached, {}, []⟩).2.space.labels.find? mainName = some l ∧ l.address = 0x80000100 := by
  have hmapped : (uncached.regionAt uncachedHeader.initialPc).isSome := by decide
  have hread : uncached.read 0x80000014 4 = .ok [0x40, 0, 0, 0x0C] := by rfl
  obtain ⟨hmatched, -⟩ := Built.locateMain_finds (q := ⟨uncached, {}, []⟩) built_uncached
    Monitor.patient_default (show defaultHost.decoder = Mips.decoder Mips.disassemble from rfl)
    Mips.disassemble_readsCalls uncachedHeader
  obtain ⟨code, hcode, hfound⟩ := hmatched 0x80000010 hmapped uncached_first
  obtain rfl : [0x40, 0, 0, 0x0C] = code := Except.ok.inj (hread.symm.trans hcode)
  obtain ⟨hanswer, hlabel, -⟩ := (hfound 0x0C000040 0x80000100 (by decide) (by decide) (by decide)).1 (by
    intro l hl
    cases hl)
  exact ⟨built_uncached, Monitor.patient_default, rfl, Mips.disassemble_readsCalls, hmapped, hread, hanswer, hlabel⟩

end AddressSpace

end PsxExe
