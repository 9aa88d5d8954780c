import Mathlib.Data.Nat.Bitwise
import PsxExe.Instruction.Decode

/-!
# Targets and the words that lead to them

The target of a jump or branch is computed with masks, shifts and a sign bit. In terms of numbers a jump keeps the
segment of the address behind it, cut to 32 bits, and a branch goes a signed number of words from there, around the
end of the address space if it has to. So a word that was put together for a target leads to this target.
-/

namespace PsxExe

/-! ### Bits -/

theorem and_shiftLeft (n mask count : Nat) : n &&& mask <<< count = (n >>> count &&& mask) <<< count := by
  apply Nat.eq_of_testBit_eq
  intro i
  by_cases hi : count ≤ i
  · simp [hi, Nat.testBit_shiftLeft, Nat.testBit_shiftRight]
  · simp [hi, Nat.testBit_shiftLeft]

theorem and_segment (n : Nat) : n &&& 0xF0000000 = (n / 0x10000000 % 16) <<< 28 := by
  have hshift : n >>> 28 = n / 0x10000000 := Nat.shiftRight_eq_div_pow n 28
  have hmask : n / 0x10000000 &&& 0xF = n / 0x10000000 % 16 := Nat.and_two_pow_sub_one_eq_mod _ 4
  rw [show 0xF0000000 = 0xF <<< 28 from rfl, and_shiftLeft, hshift, hmask]

theorem and_index (n : Nat) : n &&& 0x3FFFFFF = n % 0x4000000 := Nat.and_two_pow_sub_one_eq_mod n 26

theorem and_half (n : Nat) : n &&& 0xFFFF = n % 0x10000 := Nat.and_two_pow_sub_one_eq_mod n 16

theorem and_sign_eq_zero_iff {n : Nat} (hn : n < 0x10000) : n &&& 0x8000 = 0 ↔ n < 0x8000 := by
  have hshift : n >>> 15 = n / 0x8000 := Nat.shiftRight_eq_div_pow n 15
  have hmask : n / 0x8000 &&& 1 = n / 0x8000 % 2 := Nat.and_two_pow_sub_one_eq_mod _ 1
  rw [show 0x8000 = 1 <<< 15 from rfl, and_shiftLeft, hshift, hmask, Nat.shiftLeft_eq]
  omega

theorem jumpTarget_eq_bits {address : Int} (hfrom : 0 ≤ address + 4) (word : Nat) :
    jumpTarget word address =
      (((address + 4).toNat &&& 0xF0000000 ||| (word &&& 0x3FFFFFF) <<< 2 : Nat) : Int) := by
  have hlow : (word % 0x4000000) <<< 2 < 2 ^ 28 := by
    rw [Nat.shiftLeft_eq]
    omega
  rw [and_segment, and_index, ← Nat.shiftLeft_add_eq_or_of_lt hlow, Nat.shiftLeft_eq, Nat.shiftLeft_eq, jumpTarget,
    word32, segmentSize]
  omega

theorem signedHalf_eq_bits (word : Nat) :
    signedHalf word =
      if word &&& 0xFFFF &&& 0x8000 = 0 then ((word &&& 0xFFFF : Nat) : Int)
      else ((word &&& 0xFFFF : Nat) : Int) - 0x10000 := by
  have hhalf : word % 0x10000 < 0x10000 := Nat.mod_lt _ (by decide)
  simp only [and_half, and_sign_eq_zero_iff hhalf, signedHalf, Int.bmod_def]
  split <;> split <;> omega

/-! ### Jumps -/

variable {word v w address target d : Int}

/-- A jump does not leave the segment of the address behind it, and its target is aligned. -/
theorem jumpTarget_in_segment (word address : Int) :
    4 ∣ jumpTarget word address ∧ 0 ≤ jumpTarget word address ∧ jumpTarget word address < 0x100000000 ∧
      jumpTarget word address / segmentSize = word32 (address + 4) / segmentSize := by
  rw [jumpTarget, word32, segmentSize]
  omega

theorem jumpTarget_of_index (haligned : 4 ∣ target)
    (hsegment : target / segmentSize = word32 (address + 4) / segmentSize)
    (hindex : word % 0x4000000 = target / 4 % 0x4000000) : jumpTarget word address = target := by
  rw [segmentSize] at hsegment
  rw [jumpTarget, hindex, segmentSize, ← hsegment]
  omega

theorem jumpTarget_eq_iff : jumpTarget v address = jumpTarget w address ↔ v % 0x4000000 = w % 0x4000000 := by
  rw [jumpTarget, jumpTarget]
  omega

theorem jumpWord_emod (operation target : Int) :
    jumpWord operation target % 0x4000000 = target / 4 % 0x4000000 := by
  rw [jumpWord]
  omega

theorem jumpWord_eq_bits (operation target : Nat) :
    jumpWord operation target = ((operation <<< 26 ||| (target >>> 2 &&& 0x3FFFFFF) : Nat) : Int) := by
  have hindex : target / 4 % 0x4000000 < 2 ^ 26 := Nat.mod_lt _ (by decide)
  rw [and_index, Nat.shiftRight_eq_div_pow, ← Nat.shiftLeft_add_eq_or_of_lt hindex, Nat.shiftLeft_eq, jumpWord]
  omega

/-! ### Branches -/

theorem signedHalf_of_emod (hfrom : -0x8000 ≤ d) (hto : d < 0x8000) (hword : word % 0x10000 = d % 0x10000) :
    signedHalf word = d := by
  rw [signedHalf, Int.bmod_def]
  split <;> omega

theorem branchTarget_of_half (hfrom : -0x8000 ≤ d) (hto : d < 0x8000) (hword : word % 0x10000 = d % 0x10000)
    (address : Int) : branchTarget word address = (address + 4 + 4 * d) % 0x100000000 := by
  rw [branchTarget, signedHalf_of_emod hfrom hto hword, word32, Int.mul_comm]

theorem branchTarget_eq_iff : branchTarget v address = branchTarget w address ↔ v % 0x10000 = w % 0x10000 := by
  -- Two counts of words are less than a turn around the address space apart.
  simp only [branchTarget, signedHalf, word32, Int.bmod_def]
  split <;> split <;> omega

theorem branchWord_emod (upper d : Int) : branchWord upper d % 0x10000 = d % 0x10000 := by
  rw [branchWord]
  omega

theorem branchWord_eq_bits (upper : Nat) (d : Int) :
    branchWord upper d = ((upper <<< 16 ||| (d % 0x10000).toNat : Nat) : Int) := by
  have hhalf : (d % 0x10000).toNat < 2 ^ 16 := by omega
  rw [← Nat.shiftLeft_add_eq_or_of_lt hhalf, Nat.shiftLeft_eq, branchWord]
  omega

/-! ### Words at an address -/

/-- At every address, the last ones included, the word that is made for an aligned target in the segment leads to it,
as does the word that is made for a signed number of words. Jumps lead nowhere else, and the low bits of a word, 26
or 16, are all that counts. The last two equations are the targets in terms of bits. -/
theorem targets_invert (address : Nat) :
    (∀ operation target : Nat, 4 ∣ target → target / 0x10000000 = (address + 4) % 0x100000000 / 0x10000000 →
      jumpTarget ((operation <<< 26 ||| (target >>> 2 &&& 0x3FFFFFF) : Nat) : Int) address = target) ∧
    (∀ word : Int, 4 ∣ jumpTarget word address ∧ 0 ≤ jumpTarget word address ∧
      jumpTarget word address < 0x100000000 ∧
      jumpTarget word address / 0x10000000 = ((address + 4) % 0x100000000 / 0x10000000 : Nat)) ∧
    (∀ (upper : Nat) (d : Int), -0x8000 ≤ d → d < 0x8000 →
      branchTarget ((upper <<< 16 ||| (d % 0x10000).toNat : Nat) : Int) address =
        (address + 4 + 4 * d) % 0x100000000) ∧
    (∀ v w : Int, (jumpTarget v address = jumpTarget w address ↔ v % 0x4000000 = w % 0x4000000) ∧
      (branchTarget v address = branchTarget w address ↔ v % 0x10000 = w % 0x10000)) ∧
    ∀ word : Nat,
      jumpTarget word address = ((address + 4 &&& 0xF0000000 ||| (word &&& 0x3FFFFFF) <<< 2 : Nat) : Int) ∧
      branchTarget word address =
        (address + 4 + 4 * (if word &&& 0xFFFF &&& 0x8000 = 0 then ((word &&& 0xFFFF : Nat) : Int)
          else ((word &&& 0xFFFF : Nat) : Int) - 0x10000)) % 0x100000000 := by
  have hsegment : word32 (address + 4) / segmentSize = ((address + 4) % 0x100000000 / 0x10000000 : Nat) := by
    rw [word32, segmentSize]
    omega
  refine ⟨fun operation target haligned htarget => ?_, fun word => ?_, fun upper d hfrom hto => ?_, fun v w => ?_,
    fun word => ⟨?_, ?_⟩⟩
  · have haligned : (4 : Int) ∣ target := by exact_mod_cast haligned
    have htarget : (target : Int) / segmentSize = word32 (address + 4) / segmentSize := by
      rw [hsegment, ← htarget, segmentSize]
      omega
    rw [← jumpWord_eq_bits]
    exact jumpTarget_of_index haligned htarget (jumpWord_emod operation target)
  · rw [← hsegment]
    exact jumpTarget_in_segment word address
  · rw [← branchWord_eq_bits]
    exact branchTarget_of_half hfrom hto (branchWord_emod upper d) address
  · exact ⟨jumpTarget_eq_iff, branchTarget_eq_iff⟩
  · rw [jumpTarget_eq_bits (by omega)]
    rfl
  · rw [branchTarget, signedHalf_eq_bits, word32, Int.mul_comm]

/-- The address behind the last word of a segment is in the next one, and behind the last of all is the first: a
jump from there and a branch back. -/
theorem lastWord_targets_invert :
    jumpTarget ((2 <<< 26 ||| (0x9FFFFFFC >>> 2 &&& 0x3FFFFFF) : Nat) : Int) (0x8FFFFFFC : Nat) = 0x9FFFFFFC ∧
      jumpTarget ((3 <<< 26 ||| (0x100 >>> 2 &&& 0x3FFFFFF) : Nat) : Int) (0xFFFFFFFC : Nat) = 0x100 ∧
      branchTarget ((0x1000 <<< 16 ||| ((-2 : Int) % 0x10000).toNat : Nat) : Int) (0xFFFFFFFC : Nat) = 0xFFFFFFF8 ∧
      branchTarget (0x10000004 : Nat) (0xFFFFFFFC : Nat) = 0x10 := by
  obtain ⟨hjump, -, hbranch, -, hbits⟩ := targets_invert 0xFFFFFFFC
  exact ⟨(targets_invert 0x8FFFFFFC).1 2 0x9FFFFFFC (by decide) (by decide), hjump 3 0x100 (by decide) (by decide),
    hbranch 0x1000 (-2) (by decide) (by decide), (hbits 0x10000004).2⟩

end PsxExe
