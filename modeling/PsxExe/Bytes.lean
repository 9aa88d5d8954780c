/-!
# Byte strings

Files, patterns and the contents of memory are lists of bytes. This module cuts them and reads
numbers from them. A cut is given by two positions; a negative position counts back from the end, and
both are moved into the string first, so every cut has an answer.
-/

namespace PsxExe

abbrev Bytes := List UInt8

namespace Bytes

/-- A position moved into a string of the given length; a negative one counts back from its end. -/
def position (length : Nat) (i : Int) : Nat :=
  min (if i < 0 then i + length else i).toNat length

/-- The bytes from one position up to another; none when the second does not lie behind the first. -/
def slice (bytes : Bytes) (start stop : Int) : Bytes :=
  let first := position bytes.length start
  (bytes.drop first).take (position bytes.length stop - first)

/-- The number whose digits in base 256 are the bytes, least significant first. -/
def littleEndian : Bytes → Nat
  | [] => 0
  | b :: rest => b.toNat + 256 * littleEndian rest

/-- The lowest `count` digits of a number in base 256, least significant first. -/
def ofNat : (count n : Nat) → Bytes
  | 0, _ => []
  | count + 1, n => UInt8.ofNat (n % 256) :: ofNat count (n / 256)

def wordAt (bytes : Bytes) (offset : Nat) : Nat :=
  littleEndian ((bytes.drop offset).take 4)

@[simp] theorem length_ofNat (count n : Nat) : (ofNat count n).length = count := by
  induction count generalizing n with
  | zero => rfl
  | succ count ih => simp [ofNat, ih]

theorem littleEndian_ofNat (count n : Nat) :
    littleEndian (ofNat count n) = n % Nat.pow 256 count := by
  induction count generalizing n with
  | zero => simp [ofNat, littleEndian, Nat.mod_one]
  | succ count ih =>
    have digit : (UInt8.ofNat (n % 256)).toNat = n % 256 := by simp
    have power : Nat.pow 256 (count + 1) = 256 * Nat.pow 256 count := Nat.mul_comm _ _
    rw [ofNat, littleEndian, ih, digit, power, Nat.mod_mul]

end Bytes

end PsxExe
