import Mathlib.Data.List.GetD
import PsxExe.Header.Parser

/-!
# Files that read alike

A file that ends early reads as if zeros followed: the marker stops there, and code that is missing is
zero in memory. So files are compared as if each went on with zeros, and two files with a tag and fixed
fields that agree in this way over the header have the same header, wherever they end.
-/

namespace PsxExe

namespace Bytes

variable {first second : Bytes} {n : Nat}

/-- Both strings, each continued with zeros, hold the same first `n` bytes. -/
def AgreeBelow (n : Nat) (first second : Bytes) : Prop := ∀ i < n, first.getD i 0 = second.getD i 0

theorem AgreeBelow.mono {m : Nat} (h : AgreeBelow n first second) (hle : m ≤ n) :
    AgreeBelow m first second :=
  fun i hi => h i (Nat.lt_of_lt_of_le hi hle)

theorem AgreeBelow.trans {third : Bytes} (h : AgreeBelow n first second) (h' : AgreeBelow n second third) :
    AgreeBelow n first third :=
  fun i hi => (h i hi).trans (h' i hi)

theorem agreeBelow_append_zeros (n : Nat) (bytes : Bytes) (count : Nat) :
    AgreeBelow n bytes (bytes ++ List.replicate count 0) := by
  intro i _
  by_cases hi : i < bytes.length
  · rw [List.getD_append _ _ _ _ hi]
  · rw [List.getD_append_right _ _ _ _ (by omega), List.getD_eq_default _ _ (by omega),
      List.getD_eq_getElem?_getD, List.getElem?_replicate]
    split <;> rfl

theorem agreeBelow_append (h : n ≤ first.length) (more : Bytes) : AgreeBelow n first (first ++ more) := by
  intro i hi
  rw [List.getD_append _ _ _ _ (by omega)]

theorem getD_window (bytes : Bytes) (offset count i : Nat) :
    ((bytes.drop offset).take count).getD i 0 = if i < count then bytes.getD (offset + i) 0 else 0 := by
  rw [List.getD_eq_getElem?_getD, List.getD_eq_getElem?_getD, List.getElem?_take, List.getElem?_drop]
  by_cases hi : i < count
  · rw [if_pos hi, if_pos hi]
  · rw [if_neg hi, if_neg hi]
    rfl

theorem AgreeBelow.window_eq (h : AgreeBelow n first second) {offset count : Nat} (hn : offset + count ≤ n)
    (hfirst : offset + count ≤ first.length) (hsecond : offset + count ≤ second.length) :
    (first.drop offset).take count = (second.drop offset).take count := by
  apply List.ext_getElem
  · simp only [List.length_take, List.length_drop]
    omega
  · intro i hi hi'
    have hcount : i < count := by
      rw [List.length_take] at hi
      omega
    have hsame : ((first.drop offset).take count).getD i 0 = ((second.drop offset).take count).getD i 0 := by
      rw [getD_window, getD_window, if_pos hcount, if_pos hcount, h _ (by omega)]
    simpa only [List.getD_eq_getElem?_getD, List.getElem?_eq_getElem hi, List.getElem?_eq_getElem hi',
      Option.getD_some] using hsame

theorem AgreeBelow.wordAt_eq (h : AgreeBelow n first second) {offset : Nat} (hn : offset + 4 ≤ n)
    (hfirst : offset + 4 ≤ first.length) (hsecond : offset + 4 ≤ second.length) :
    first.wordAt offset = second.wordAt offset := by
  rw [wordAt, wordAt, h.window_eq hn hfirst hsecond]

/-- The end of a string stops a reading up to the first zero just as a zero does. -/
theorem takeWhile_eq_of_getD_eq {first second : Bytes} (h : ∀ i, first.getD i 0 = second.getD i 0) :
    first.takeWhile (· != 0) = second.takeWhile (· != 0) := by
  induction first generalizing second with
  | nil =>
    cases second with
    | nil => rfl
    | cons b rest =>
      have hb : b = 0 := (h 0).symm
      simp [hb]
  | cons a rest ih =>
    cases second with
    | nil =>
      have ha : a = 0 := h 0
      simp [ha]
    | cons b others =>
      obtain rfl : a = b := h 0
      have hrest := ih fun i => h (i + 1)
      simp only [List.takeWhile_cons, hrest]

theorem AgreeBelow.takeWhile_eq (h : AgreeBelow n first second) (offset : Nat) :
    ((first.take n).drop offset).takeWhile (· != 0) = ((second.take n).drop offset).takeWhile (· != 0) := by
  apply takeWhile_eq_of_getD_eq
  intro i
  rw [List.drop_take, List.drop_take, getD_window, getD_window]
  split
  · exact h _ (by omega)
  · rfl

end Bytes

namespace Header

open Bytes

variable {first second : Bytes}

/-- The file has the tag and all fixed fields. -/
structure Carried (file : Bytes) : Prop where
  tag : expectedMagic <+: file
  fields : fieldsEnd ≤ file.length

theorem Carried.append {file : Bytes} (h : Carried file) (more : Bytes) : Carried (file ++ more) := by
  refine ⟨h.tag.trans (List.prefix_append ..), ?_⟩
  rw [List.length_append]
  exact Nat.le_add_right_of_le h.fields

theorem Carried.parse_isOk {file : Bytes} (h : Carried file) :
    ∃ header, parse file = .ok header ∧ header.code.size = wordAt file 0x1C := by
  have htag : file.take expectedMagic.length = expectedMagic := List.prefix_iff_eq_take.1 h.tag |>.symm
  rw [parse]
  simp only [htag, ne_eq, not_true_eq_false, if_false, Nat.not_lt.2 h.fields]
  exact ⟨_, rfl, rfl⟩

theorem parse_eq_of_agree (hfirst : Carried first) (hsecond : Carried second)
    (h : AgreeBelow size first second) : parse first = parse second := by
  have hfields : fieldsEnd ≤ size := by decide
  have htag := (List.prefix_iff_eq_take.1 hfirst.tag).symm.trans (List.prefix_iff_eq_take.1 hsecond.tag)
  have hword : ∀ offset, offset + 4 ≤ fieldsEnd → first.wordAt offset = second.wordAt offset := by
    intro offset hoffset
    exact h.wordAt_eq (Nat.le_trans hoffset hfields) (Nat.le_trans hoffset hfirst.fields)
      (Nat.le_trans hoffset hsecond.fields)
  have hmarker : markerOf first = markerOf second := by
    rw [markerOf, markerBytes, h.takeWhile_eq, markerOf, markerBytes]
  have hlong : ¬ first.length < fieldsEnd := Nat.not_lt.2 hfirst.fields
  have hlong' : ¬ second.length < fieldsEnd := Nat.not_lt.2 hsecond.fields
  rw [parse, parse, htag]
  simp only [if_neg hlong, if_neg hlong', hmarker, hword 0x10 (by decide), hword 0x14 (by decide),
    hword 0x18 (by decide), hword 0x1C (by decide), hword 0x20 (by decide), hword 0x24 (by decide),
    hword 0x28 (by decide), hword 0x2C (by decide), hword 0x30 (by decide), hword 0x34 (by decide)]

end Header

end PsxExe
