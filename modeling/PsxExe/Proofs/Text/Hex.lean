import PsxExe.Text.Hex

/-!
# What hexadecimal numbers show

Digits show the number that they stand for, zeros in front of them do not count, and a minus sign is no digit. So
two integers that are written alike are the same, whatever the width and however far they lie outside of it. The
lower-case digits are those of the standard library.
-/

namespace PsxExe.Hex

variable {letters : Letters} {width m n : Nat} {c : Char}

theorem digits_of_lt (h : n < 16) : digits letters n = [digit letters n] := by
  rw [digits, if_pos h]

theorem digits_of_le (h : 16 ≤ n) : digits letters n = digits letters (n / 16) ++ [digit letters (n % 16)] := by
  rw [digits, if_neg (Nat.not_lt.2 h)]

/-! ### What digits stand for -/

def digitValue (c : Char) : Nat := if c.toNat < 58 then c.toNat - 48 else c.toNat - 87

def value (cs : List Char) : Nat := cs.foldl (fun n c => 16 * n + digitValue c) 0

theorem digitValue_digit : ∀ d < 16, digitValue (digit .lower d) = d := by decide

theorem value_append_singleton (cs : List Char) (c : Char) :
    value (cs ++ [c]) = 16 * value cs + digitValue c := by
  simp [value, List.foldl_append]

theorem value_digits (n : Nat) : value (digits .lower n) = n := by
  induction n using Nat.strongRecOn with
  | ind n ih =>
    rcases Nat.lt_or_ge n 16 with hn | hn
    · rw [digits_of_lt hn]
      simp [value, digitValue_digit n hn]
    · rw [digits_of_le hn, value_append_singleton, ih (n / 16) (by omega),
        digitValue_digit _ (Nat.mod_lt _ (by decide))]
      omega

theorem value_zeroPadded (width : Nat) (cs : List Char) : value (zeroPadded width cs) = value cs := by
  have hzeros (k : Nat) : (List.replicate k '0').foldl (fun n c => 16 * n + digitValue c) 0 = 0 := by
    induction k with
    | zero => rfl
    | succ k ih =>
      rw [List.replicate_succ, List.foldl_cons]
      exact ih
  rw [value, zeroPadded, List.foldl_append, hzeros]
  rfl

theorem zeroPadded_injective
    (h : zeroPadded width (digits .lower m) = zeroPadded width (digits .lower n)) : m = n := by
  have hvalue := congrArg value h
  rwa [value_zeroPadded, value_zeroPadded, value_digits, value_digits] at hvalue

theorem mem_digits (h : c ∈ digits .lower n) : ∃ d < 16, c = digit .lower d := by
  induction n using Nat.strongRecOn with
  | ind n ih =>
    rcases Nat.lt_or_ge n 16 with hn | hn
    · rw [digits_of_lt hn] at h
      exact ⟨n, hn, List.mem_singleton.1 h⟩
    · rw [digits_of_le hn] at h
      rcases List.mem_append.1 h with h | h
      · exact ih (n / 16) (by omega) h
      · exact ⟨n % 16, Nat.mod_lt _ (by decide), List.mem_singleton.1 h⟩

theorem mem_zeroPadded (h : c ∈ zeroPadded width (digits .lower n)) :
    ∃ d < 16, c = digit .lower d := by
  rcases List.mem_append.1 h with h | h
  · exact ⟨0, by decide, List.eq_of_mem_replicate h⟩
  · exact mem_digits h

theorem length_zeroPadded (h : n < 256) : (zeroPadded 2 (digits .lower n)).length = 2 := by
  rw [zeroPadded, List.length_append, List.length_replicate]
  have hlength : (digits .lower n).length = 1 ∨ (digits .lower n).length = 2 := by
    rcases Nat.lt_or_ge n 16 with hn | hn
    · rw [digits_of_lt hn]
      exact .inl rfl
    · rw [digits_of_le hn, digits_of_lt (by omega)]
      exact .inr rfl
  omega

/-! ### The digits of the standard library -/

theorem digitChar_eq : ∀ d < 16, Nat.digitChar d = digit .lower d := by decide

theorem toDigits_eq (n : Nat) : Nat.toDigits 16 n = digits .lower n := by
  induction n using Nat.strongRecOn with
  | ind n ih =>
    rcases Nat.lt_or_ge n 16 with hn | hn
    · rw [digits_of_lt hn, Nat.toDigits_of_lt_base hn, digitChar_eq n hn]
    · rw [digits_of_le hn, Nat.toDigits_of_base_le (by decide) hn, ih (n / 16) (by omega),
        digitChar_eq _ (Nat.mod_lt _ (by decide))]

/-! ### Integers -/

theorem toLower_digit (letters : Letters) : ∀ d < 16, (digit letters d).toLower = digit .lower d := by
  cases letters <;> decide

theorem map_toLower_digits (letters : Letters) (n : Nat) : (digits letters n).map Char.toLower = digits .lower n := by
  induction n using Nat.strongRecOn with
  | ind n ih =>
    rcases Nat.lt_or_ge n 16 with hn | hn
    · rw [digits_of_lt hn, digits_of_lt hn, List.map_singleton, toLower_digit letters n hn]
    · rw [digits_of_le hn, digits_of_le hn, List.map_append, List.map_singleton, ih (n / 16) (by omega),
        toLower_digit letters _ (Nat.mod_lt _ (by decide))]

theorem map_toLower_zeroPadded (letters : Letters) (width n : Nat) :
    (zeroPadded width (digits letters n)).map Char.toLower = zeroPadded width (digits .lower n) := by
  rw [← map_toLower_digits letters n, zeroPadded, zeroPadded, List.map_append, List.map_replicate, List.length_map]
  rfl

theorem padded_injective (h : padded letters width m = padded letters width n) : m = n := by
  have hlower := congrArg (List.map Char.toLower) (String.ofList_injective h)
  rw [map_toLower_zeroPadded, map_toLower_zeroPadded] at hlower
  exact zeroPadded_injective hlower

theorem minus_notMem_padded (letters : Letters) (width n : Nat) : '-' ∉ (padded letters width n).toList := by
  intro hmem
  rw [padded, String.toList_ofList] at hmem
  have hlower := List.mem_map_of_mem (f := Char.toLower) hmem
  rw [map_toLower_zeroPadded] at hlower
  obtain ⟨d, hd, hminus⟩ := mem_zeroPadded hlower
  have hdigits : ∀ d < 16, '-'.toLower ≠ digit .lower d := by decide
  exact hdigits d hd hminus

theorem minus_append_ne_padded (text : String) (letters : Letters) (width n : Nat) :
    "-" ++ text ≠ padded letters width n := by
  intro hsame
  refine minus_notMem_padded letters width n ?_
  rw [← hsame, String.toList_append]
  exact List.mem_append_left _ (by decide)

/-- The written form shows the integer, its sign included. -/
theorem signed_injective {v w : Int} (h : signed letters width v = signed letters width w) : v = w := by
  rw [signed, signed] at h
  by_cases hv : v < 0
  · by_cases hw : w < 0
    · rw [if_pos hv, if_pos hw] at h
      have hsame := padded_injective ((String.append_right_inj _).1 h)
      omega
    · rw [if_pos hv, if_neg hw] at h
      exact (minus_append_ne_padded _ _ _ _ h).elim
  · by_cases hw : w < 0
    · rw [if_neg hv, if_pos hw] at h
      exact (minus_append_ne_padded _ _ _ _ h.symm).elim
    · rw [if_neg hv, if_neg hw] at h
      have hsame := padded_injective h
      omega

theorem address_injective : Function.Injective address := by
  intro v w h
  exact signed_injective ((String.append_right_inj _).1 h)

example : address (-14) = "0x-000000E" ∧ address 0x100000000 = "0x100000000" := by decide +kernel

end PsxExe.Hex
