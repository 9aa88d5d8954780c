import Mathlib.Data.List.TakeWhile
import PsxExe.Header.Image
import PsxExe.Proofs.Header.Agreement

/-!
# Headers there and back

Reading the image of a header gives back that header, whatever stands in the bytes that mean nothing. The
other way round, a file has a header as soon as it carries the tag and the fixed fields, and the ten words
of that header are the bytes from which they were read. The marker has a character for each byte up to the
first at which it has to stop.
-/

namespace PsxExe

namespace Bytes

theorem ofNat_littleEndian (bytes : Bytes) : ofNat bytes.length (littleEndian bytes) = bytes := by
  induction bytes with
  | nil => rfl
  | cons b rest ih =>
    have hlow : (b.toNat + 256 * littleEndian rest) % 256 = b.toNat := by
      have := b.toNat_lt
      omega
    have hhigh : (b.toNat + 256 * littleEndian rest) / 256 = littleEndian rest := by
      have := b.toNat_lt
      omega
    rw [List.length_cons, littleEndian, ofNat, hlow, hhigh, ih, UInt8.ofNat_toNat]

theorem littleEndian_lt (bytes : Bytes) : littleEndian bytes < Nat.pow 256 bytes.length := by
  induction bytes with
  | nil => exact Nat.one_pos
  | cons b rest ih =>
    have hdigit := b.toNat_lt
    have hpower : Nat.pow 256 (rest.length + 1) = Nat.pow 256 rest.length * 256 := rfl
    rw [littleEndian, List.length_cons, hpower]
    omega

def wordsAt (bytes : Bytes) : (offset count : Nat) → List Int
  | _, 0 => []
  | offset, count + 1 => bytes.wordAt offset :: wordsAt bytes (offset + 4) count

end Bytes

namespace Header

open Bytes

variable {file bytes : Bytes} {h : Header}

/-! ### Words -/

theorem littleEndian_wordBytes {v : Int} (hfrom : 0 ≤ v) (hto : v < 0x100000000) :
    (littleEndian (wordBytes v) : Int) = v := by
  have hvalue : v.toNat % Nat.pow 256 4 = v.toNat :=
    Nat.mod_eq_of_lt (show v.toNat < 0x100000000 by omega)
  rw [wordBytes, littleEndian_ofNat, word32, Int.emod_eq_of_lt hfrom hto, hvalue, Int.toNat_of_nonneg hfrom]

theorem wordBytes_littleEndian (hlength : bytes.length = 4) : wordBytes (littleEndian bytes) = bytes := by
  have hbound : littleEndian bytes < 0x100000000 := by
    have := littleEndian_lt bytes
    rwa [hlength] at this
  rw [wordBytes, word32, Int.emod_eq_of_lt (Int.natCast_nonneg _) (by omega), Int.toNat_natCast, ← hlength]
  exact ofNat_littleEndian bytes

theorem flatMap_wordsAt {offset count : Nat} (hcount : offset + 4 * count ≤ bytes.length) :
    (bytes.wordsAt offset count).flatMap wordBytes = (bytes.drop offset).take (4 * count) := by
  induction count generalizing offset with
  | zero => rfl
  | succ count ih =>
    have hfirst : wordBytes (bytes.wordAt offset) = (bytes.drop offset).take 4 := by
      refine wordBytes_littleEndian ?_
      rw [List.length_take, List.length_drop]
      omega
    rw [wordsAt, List.flatMap_cons, hfirst, ih (by omega), Nat.mul_succ, Nat.add_comm (4 * count),
      List.take_add, List.drop_drop]

theorem wordsAt_of_isPrefix {words : List Int} (hwords : ∀ v ∈ words, 0 ≤ v ∧ v < 0x100000000) {offset : Nat}
    (hbytes : words.flatMap wordBytes <+: bytes.drop offset) : bytes.wordsAt offset words.length = words := by
  induction words generalizing offset with
  | nil => rfl
  | cons v rest ih =>
    obtain ⟨behind, hbehind⟩ := hbytes
    rw [List.flatMap_cons, List.append_assoc] at hbehind
    have hfirst : (bytes.drop offset).take 4 = wordBytes v := by
      rw [← hbehind, List.take_left' (length_wordBytes v)]
    have hrest : bytes.drop (offset + 4) = rest.flatMap wordBytes ++ behind := by
      rw [← List.drop_drop, ← hbehind, List.drop_left' (length_wordBytes v)]
    obtain ⟨hfrom, hto⟩ := hwords v List.mem_cons_self
    rw [List.length_cons, wordsAt, wordAt, hfirst, littleEndian_wordBytes hfrom hto,
      ih (fun w hw => hwords w (List.mem_cons_of_mem _ hw)) ⟨behind, hrest.symm⟩]

/-! ### What is read -/

theorem carried_iff : Carried file ↔ expectedMagic <+: file ∧ fieldsEnd ≤ file.length :=
  ⟨fun hfile => ⟨hfile.tag, hfile.fields⟩, fun hfile => ⟨hfile.1, hfile.2⟩⟩

/-- A header consists of its tag, its words and its marker, and each of them is read by itself. -/
theorem parse_eq_ok_iff :
    parse file = .ok h ↔ Carried file ∧
      h.magic = expectedMagic ∧ h.words = file.wordsAt 0x10 10 ∧ h.marker = markerOf file := by
  rw [parse, carried_iff, List.prefix_iff_eq_take, eq_comm (a := expectedMagic)]
  by_cases hmagic : file.take expectedMagic.length = expectedMagic
  · by_cases hlength : file.length < fieldsEnd
    · simp [hmagic, hlength, Nat.not_le.2 hlength]
    · obtain ⟨magic, initialPc, initialGp, ⟨_, _⟩, ⟨_, _⟩, ⟨_, _⟩, stackBase, stackOffset, marker⟩ := h
      simp only [hmagic, hlength, Nat.not_lt.1 hlength, ne_eq, not_true_eq_false, if_false, true_and,
        Except.ok.injEq, Header.mk.injEq, Extent.mk.injEq, words, wordsAt, List.cons.injEq, and_true]
      constructor
      · rintro ⟨rfl, rfl, rfl, ⟨rfl, rfl⟩, ⟨rfl, rfl⟩, ⟨rfl, rfl⟩, rfl, rfl, rfl⟩
        simp
      · rintro ⟨rfl, ⟨rfl, rfl, rfl, rfl, rfl, rfl, rfl, rfl, rfl, rfl⟩, rfl⟩
        simp
  · simp [hmagic]

theorem parse_eq_error_iff :
    (∃ cause, parse file = .error cause) ↔ ¬ expectedMagic <+: file ∨ file.length < fieldsEnd := by
  rw [← Nat.not_le, ← not_and_or, ← carried_iff]
  constructor
  · rintro ⟨cause, hcause⟩ hcarried
    obtain ⟨header, hheader, -⟩ := hcarried.parse_isOk
    rw [hheader] at hcause
    cases hcause
  · intro hno
    cases hparse : parse file with
    | error cause => exact ⟨cause, rfl⟩
    | ok header => exact absurd (parse_eq_ok_iff.1 hparse).1 hno

theorem fieldBytes_of_parse (hparse : parse file = .ok h) : h.fieldBytes = (file.drop 0x10).take 0x28 := by
  obtain ⟨hcarried, -, hwords, -⟩ := parse_eq_ok_iff.1 hparse
  rw [fieldBytes, hwords, flatMap_wordsAt hcarried.fields]

/-! ### The marker -/

/-- The byte `n` places into the marker's room has no character in the marker: the header or the file ends
there, or the byte is zero. -/
def MarkerStops (file : Bytes) (n : Nat) : Prop :=
  size ≤ markerOffset + n ∨ file.length ≤ markerOffset + n ∨ file[markerOffset + n]? = some 0

theorem markerBytes_stops (file : Bytes) :
    ∃ n, MarkerStops file n ∧ (∀ i < n, ¬ MarkerStops file i) ∧
      markerBytes file = (file.drop markerOffset).take n := by
  have hroom : (file.take size).drop markerOffset = (file.drop markerOffset).take markerRoom := List.drop_take
  have hlength : ((file.take size).drop markerOffset).length =
      min markerRoom (file.length - markerOffset) := by
    rw [hroom, List.length_take, List.length_drop]
  have hbyte : ∀ i (hi : i < ((file.take size).drop markerOffset).length),
      file[markerOffset + i]? = some ((file.take size).drop markerOffset)[i] := by
    intro i hi
    rw [← List.getElem?_eq_getElem hi, hroom, List.getElem?_take_of_lt (by omega), List.getElem?_drop]
  have hsize : size = markerOffset + markerRoom := rfl
  rw [markerBytes, List.takeWhile_eq_take_findIdx_not]
  -- The marker ends at the first zero byte in its room, or else with all that there is of the room.
  generalize hn : ((file.take size).drop markerOffset).findIdx (fun b => !(b != 0)) = n
  have hle : n ≤ ((file.take size).drop markerOffset).length := hn ▸ List.findIdx_le_length
  refine ⟨n, ?_, fun i hi hstops => ?_, ?_⟩
  · by_cases hend : n < ((file.take size).drop markerOffset).length
    · have hzero : ((file.take size).drop markerOffset)[n] = 0 := by
        have hfound := List.findIdx_getElem (w := hn.symm ▸ hend)
        simp only [hn] at hfound
        simpa using hfound
      exact .inr (.inr (by rw [hbyte n hend, hzero]))
    · rw [MarkerStops]
      omega
  · have hin : i < ((file.take size).drop markerOffset).length := Nat.lt_of_lt_of_le hi hle
    have hgoes : ((file.take size).drop markerOffset)[i] ≠ 0 := by
      have hbefore := List.not_of_lt_findIdx (hn.symm ▸ hi)
      rwa [Bool.not_eq_false', bne_iff_ne] at hbefore
    rw [MarkerStops, hbyte i hin, Option.some.injEq] at hstops
    rcases hstops with hstops | hstops | hstops
    · omega
    · omega
    · exact hgoes hstops
  · rw [hroom, List.take_take, Nat.min_eq_left (by omega)]

theorem markerChar_ofNat {c : Char} (hc : c.toNat < 0x80) : markerChar (UInt8.ofNat c.toNat) = c := by
  have hvalue : (UInt8.ofNat c.toNat).toNat = c.toNat := by
    rw [UInt8.toNat_ofNat']
    omega
  rw [markerChar, if_pos (UInt8.lt_iff_toNat_lt.2 (by rw [hvalue]; exact hc)), hvalue, Char.ofNat_toNat]

theorem ofList_markerText {marker : String} (hascii : ∀ c ∈ marker.toList, c.toNat < 0x80) :
    String.ofList ((markerText marker).map markerChar) = marker := by
  have hsame : (markerText marker).map markerChar = marker.toList.map id := by
    rw [markerText, List.map_map]
    exact List.map_congr_left fun c hc => markerChar_ofNat (hascii c hc)
  rw [hsame, List.map_id, String.ofList_toList]

theorem markerBytes_of_field {marker filling behind : Bytes} (hzero : 0 ∉ marker)
    (hroom : marker.length ≤ markerRoom) (hfile : file.drop markerOffset = markerField marker filling ++ behind) :
    markerBytes file = marker := by
  have hall : ∀ b ∈ marker, (b != 0) = true := by
    intro b hb
    exact bne_iff_ne.2 fun heq => hzero (heq ▸ hb)
  rw [markerBytes, List.drop_take, hfile, markerField]
  change List.takeWhile _ (List.take markerRoom _) = _
  -- A marker that fills its room ends with the room, and a shorter one at the zero byte behind it.
  rcases Nat.lt_or_eq_of_le hroom with hlt | heq
  · obtain ⟨left, hleft⟩ := Nat.exists_eq_add_of_lt hlt
    rw [hleft, Nat.add_assoc, List.take_length_add_append, List.take_succ_cons, List.append_assoc,
      List.cons_append, List.take_length_add_append, List.take_succ_cons,
      List.takeWhile_append_of_pos hall]
    simp
  · rw [← heq, List.take_left, List.take_left, List.takeWhile_eq_self_iff.2 hall]

theorem markerOf_stops (file : Bytes) :
    ∃ n, MarkerStops file n ∧ (∀ i < n, ¬ MarkerStops file i) ∧ (markerOf file).length = n ∧
      (markerOf file).toList = ((file.drop markerOffset).take n).map markerChar := by
  obtain ⟨n, hstops, hgoes, hbytes⟩ := markerBytes_stops file
  have htext : (markerOf file).toList = ((file.drop markerOffset).take n).map markerChar := by
    rw [markerOf, String.toList_ofList, hbytes]
  refine ⟨n, hstops, hgoes, ?_, htext⟩
  rw [← String.length_toList, htext, List.length_map, List.length_take, List.length_drop]
  refine Nat.min_eq_left (Nat.not_lt.1 fun hshort => ?_)
  exact hgoes (file.length - markerOffset) hshort (.inr (.inl (by omega)))

/-! ### Images -/

theorem parse_image {reserved unused filling code : Bytes} (hmagic : h.magic = expectedMagic)
    (hwords : ∀ v ∈ h.words, 0 ≤ v ∧ v < 0x100000000)
    (hmarker : ∀ c ∈ h.marker.toList, 0 < c.toNat ∧ c.toNat < 0x80) (hroom : h.marker.length ≤ markerRoom)
    (hreserved : reserved.length = tagGap) (hunused : unused.length = markerGap) :
    parse (h.image reserved unused filling code) = .ok h := by
  have hwordsAt : (h.image reserved unused filling code).drop 0x10 =
      h.fieldBytes ++ (unused ++ (markerField (markerText h.marker) filling ++ code)) := by
    simp only [image, List.append_assoc]
    rw [← List.append_assoc expectedMagic, List.drop_left' (by rw [List.length_append, hreserved]; rfl)]
  have hmarkerAt : (h.image reserved unused filling code).drop markerOffset =
      markerField (markerText h.marker) filling ++ code := by
    rw [show markerOffset = 0x10 + (40 + markerGap) from rfl, ← List.drop_drop, hwordsAt, ← List.append_assoc,
      List.drop_left' (by rw [List.length_append, length_fieldBytes, hunused])]
  have hlength : fieldsEnd ≤ (h.image reserved unused filling code).length := by
    have := congrArg List.length hwordsAt
    simp only [List.length_drop, List.length_append, length_fieldBytes] at this
    rw [fieldsEnd]
    omega
  have htag : expectedMagic <+: h.image reserved unused filling code := by
    simp only [image, List.append_assoc]
    exact List.prefix_append ..
  have hzero : 0 ∉ markerText h.marker := by
    intro hmem
    obtain ⟨c, hc, hcode⟩ := List.mem_map.1 hmem
    obtain ⟨hpos, hascii⟩ := hmarker c hc
    have hvalue := congrArg UInt8.toNat hcode
    rw [UInt8.toNat_ofNat', UInt8.toNat_zero] at hvalue
    omega
  refine parse_eq_ok_iff.2 ⟨⟨htag, hlength⟩, hmagic, (wordsAt_of_isPrefix hwords ?_).symm, ?_⟩
  · exact hwordsAt ▸ List.prefix_append ..
  · rw [markerOf, markerBytes_of_field hzero ?_ hmarkerAt, ofList_markerText fun c hc => (hmarker c hc).2]
    rw [markerText, List.length_map, String.length_toList]
    exact hroom

/-- The image of a header with words of 32 bits and a marker of ASCII characters that fits is read as that
header, whatever stands where nothing is read. A file has no header exactly if its tag or its fixed fields
are not there; if it has one, the words of the header are the bytes at `0x10` to `0x38`, and the marker has
a character for each byte in front of the first zero byte, the end of the header and the end of the file.
-/
theorem parse_roundTrip :
    (∀ (h : Header) (reserved unused filling code : Bytes), h.magic = expectedMagic →
      (∀ v ∈ h.words, 0 ≤ v ∧ v < 0x100000000) → (∀ c ∈ h.marker.toList, 0 < c.toNat ∧ c.toNat < 0x80) →
      h.marker.length ≤ 0x7B4 → reserved.length = 8 → unused.length = 20 →
      parse (h.image reserved unused filling code) = .ok h) ∧
    ∀ file : Bytes,
      ((∃ cause, parse file = .error cause) ↔ ¬ expectedMagic <+: file ∨ file.length < 0x38) ∧
      ∀ h, parse file = .ok h →
        h.fieldBytes = (file.drop 0x10).take 0x28 ∧
        ∃ n, MarkerStops file n ∧ (∀ i < n, ¬ MarkerStops file i) ∧ h.marker.length = n ∧
          h.marker.toList = ((file.drop 0x4C).take n).map markerChar := by
  refine ⟨fun h reserved unused filling code hmagic hwords hmarker hroom hreserved hunused => ?_,
    fun file => ⟨parse_eq_error_iff, fun h hparse => ⟨fieldBytes_of_parse hparse, ?_⟩⟩⟩
  · exact parse_image hmagic hwords hmarker hroom hreserved hunused
  · rw [(parse_eq_ok_iff.1 hparse).2.2.2]
    exact markerOf_stops file

def widest : Header :=
  ⟨expectedMagic, 0xFFFFFFFF, 0, ⟨0x80010000, 0x800⟩, ⟨0, 1⟩, ⟨0x12345678, 0⟩, 0x801FFF00, 0xFFFFFFFF,
    "NA~"⟩

theorem widest_roundTrip :
    (∀ v ∈ widest.words, 0 ≤ v ∧ v < 0x100000000) ∧
      parse (widest.image (List.replicate 8 1) (List.replicate 20 2) [3, 0, 4] [5]) = .ok widest ∧
      widest.fieldBytes =
        ((widest.image (List.replicate 8 1) (List.replicate 20 2) [3, 0, 4] [5]).drop 0x10).take 0x28 := by
  have hwords : ∀ v ∈ widest.words, 0 ≤ v ∧ v < 0x100000000 := by decide
  obtain ⟨himage, hback⟩ := parse_roundTrip
  have htext : widest.marker.toList = ['N', 'A', '~'] := rfl
  have hmarker : ∀ c ∈ widest.marker.toList, 0 < c.toNat ∧ c.toNat < 0x80 := by simp [htext]
  have hparse := himage widest (List.replicate 8 1) (List.replicate 20 2) [3, 0, 4] [5] rfl hwords hmarker
    (by decide) rfl rfl
  exact ⟨hwords, hparse, ((hback _).2 widest hparse).1⟩

end Header

end PsxExe
