import Mathlib
import PsxExe.Command.Disk
import PsxExe.Command.Source
import PsxExe.Proofs.Header.RoundTrip
import PsxExe.Proofs.Load.Phases

/-!
# The header from the front of a file

Who asks for the header of a file gets it from the front of the file, while a load parses all of it. Both see the
same header, since nothing that is parsed lies behind the header: the tag and the words end in front of it, the
marker is searched for its end up to there and no further, and a marker without an end goes up to there too.
-/

namespace PsxExe

open Bytes

variable {file : Bytes}

namespace Header

/-! ### The front of a file -/

theorem agreeBelow_take (n : Nat) (file : Bytes) : AgreeBelow n (file.take n) file := by
  intro i hi
  rw [List.getD_eq_getElem?_getD, List.getElem?_take_of_lt hi, List.getD_eq_getElem?_getD]

theorem Carried.take (h : Carried file) : Carried (file.take size) := by
  refine ⟨List.prefix_take_iff.2 ⟨h.tag, by decide⟩, ?_⟩
  rw [List.length_take]
  exact Nat.le_min.2 ⟨by decide, h.fields⟩

theorem parse_of_not_tag (h : ¬ expectedMagic <+: file) :
    parse file = .error (.badMagic (file.take expectedMagic.length)) := by
  rw [List.prefix_iff_eq_take, eq_comm] at h
  rw [parse]
  exact if_pos h

theorem parse_take (file : Bytes) : parse (file.take size) = parse file := by
  by_cases hshort : file.length ≤ size
  · rw [List.take_of_length_le hshort]
  · by_cases htag : expectedMagic <+: file
    · have hfields : fieldsEnd ≤ size := by decide
      have hcarried : Carried file := ⟨htag, by omega⟩
      exact parse_eq_of_agree hcarried.take hcarried (agreeBelow_take size file)
    · have hfront : ¬ expectedMagic <+: file.take size := fun h => htag (List.prefix_take_iff.1 h).1
      rw [parse_of_not_tag hfront, parse_of_not_tag htag, List.take_take]
      rfl

/-! ### The search for the end of the marker -/

/-- Where the marker ends: at the first zero byte in its room, or else where the header or the file does. -/
def markerEnd (file : Bytes) : Nat :=
  let stop := min file.length size
  ((List.range' markerOffset (stop - markerOffset)).find? fun i => file[i]? == some 0).getD stop

theorem markerEnd_of_no_zero (h : ∀ i, markerOffset ≤ i → i < min file.length size → file[i]? ≠ some 0) :
    markerEnd file = min file.length size := by
  have hnone : (List.range' markerOffset (min file.length size - markerOffset)).find?
      (fun i => file[i]? == some 0) = none := by
    rw [List.find?_range'_eq_none]
    intro i hfrom hto
    simpa using h i hfrom (by omega)
  rw [markerEnd, hnone, Option.getD_none]

theorem markerStops_iff {n : Nat} (h : markerOffset + n < min file.length size) :
    MarkerStops file n ↔ file[markerOffset + n]? = some 0 := by
  rw [MarkerStops, or_iff_right (by omega), or_iff_right (by omega)]

theorem markerEnd_stops (file : Bytes) :
    markerEnd file ≤ file.length ∧ MarkerStops file (markerEnd file - markerOffset) ∧
      ∀ i < markerEnd file - markerOffset, ¬ MarkerStops file i := by
  cases hfound : (List.range' markerOffset (min file.length size - markerOffset)).find?
      (fun i => file[i]? == some 0) with
  | none =>
    have hend : markerEnd file = min file.length size := by rw [markerEnd, hfound, Option.getD_none]
    rw [List.find?_range'_eq_none] at hfound
    rw [hend]
    refine ⟨Nat.min_le_left .., ?_, fun i hi => ?_⟩
    · rw [MarkerStops]
      omega
    · rw [markerStops_iff (by omega)]
      simpa using hfound (markerOffset + i) (by omega) (by omega)
  | some n =>
    have hend : markerEnd file = n := by rw [markerEnd, hfound, Option.getD_some]
    obtain ⟨hzero, hin, hbefore⟩ := List.find?_range'_eq_some.1 hfound
    rw [List.mem_range'_1] at hin
    rw [hend]
    refine ⟨by omega, ?_, fun i hi => ?_⟩
    · rw [markerStops_iff (by omega), Nat.add_sub_cancel' hin.1]
      exact beq_iff_eq.1 hzero
    · rw [markerStops_iff (by omega)]
      simpa using hbefore (markerOffset + i) (by omega) (by omega)

theorem markerBytes_eq_slice (file : Bytes) : markerBytes file = file.slice markerOffset (markerEnd file) := by
  obtain ⟨hlength, hstops, hgoes⟩ := markerEnd_stops file
  obtain ⟨n, hstops', hgoes', hbytes⟩ := markerBytes_stops file
  -- Both are the first place at which the marker stops.
  have hsame : n = markerEnd file - markerOffset := by
    rcases Nat.lt_trichotomy n (markerEnd file - markerOffset) with hlt | heq | hlt
    · exact absurd hstops' (hgoes n hlt)
    · exact heq
    · exact absurd hstops (hgoes' _ hlt)
  have hlast : position file.length (markerEnd file) = markerEnd file := by
    rw [position, if_neg (by omega)]
    omega
  have hfirst : position file.length markerOffset = min markerOffset file.length := by
    rw [position, if_neg (by omega)]
    omega
  rw [hbytes, hsame, slice, hlast, hfirst]
  by_cases hroom : markerOffset ≤ file.length
  · rw [Nat.min_eq_left hroom]
  · rw [Nat.min_eq_right (by omega), List.drop_eq_nil_of_le (by omega), List.drop_eq_nil_of_le (Nat.le_refl _)]
    simp

end Header

/-! ### Headers of files -/

namespace Command

variable {m : Type → Type} [Monad m] [Surroundings m]

theorem readHeader_eq (path : String) :
    (readHeader path : m _) = do return (← readExecutable path).map Header.parse := by
  rw [show Header.parse = Header.parseFront from funext fun file => (Header.parse_take file).symm]
  rfl

theorem readHeader_run {d : Disk} {path : String} (hfile : d.contents (Path.ofString path) = .ok file) :
    (readHeader path : StateM Disk _).run d = (.ok (Header.parse file), d) := by
  have hread : (readExecutable path : StateM Disk _).run d =
      ((d.contents (Path.ofString path)).mapError (.ofProblem path), d) := rfl
  rw [readHeader_eq, StateT.run_bind, hread, hfile]
  rfl

/-- The header that is read from the front of a file is the one that all of it parses to, which is also the one that
a load of it works with; where there is none, a load is refused. For every string of bytes the front alone decides
on the header, and its marker goes up to the first zero byte of the header behind its start, or else up to the end
of the header or the file. -/
theorem readHeader_whole {d : Disk} {path : String} (hfile : d.contents (Path.ofString path) = .ok file) :
    (readHeader path : StateM Disk _).run d = (.ok (Header.parse file), d) ∧
      (∀ host p result, ((load host file).exec p).1 = .ok result →
        (readHeader path : StateM Disk _).run d = (.ok (.ok result.header), d)) ∧
      (∀ cause, (readHeader path : StateM Disk _).run d = (.ok (.error cause), d) →
        ∀ host p, ((load host file).exec p).1 = .error .unsupportedFormat) ∧
      ∀ bytes : Bytes, Header.parse (bytes.take 0x800) = Header.parse bytes ∧
        ∀ h, Header.parse bytes = .ok h →
          h.marker = String.ofList ((bytes.slice 0x4C (Header.markerEnd bytes)).map Header.markerChar) ∧
            ((∀ i, 0x4C ≤ i → i < min bytes.length 0x800 → bytes[i]? ≠ some 0) →
              Header.markerEnd bytes = min bytes.length 0x800) := by
  have hread := readHeader_run hfile
  refine ⟨hread, fun host p result hrun => ?_, fun cause hcause host p => ?_,
    fun bytes => ⟨Header.parse_take bytes, fun h hparse => ⟨?_, Header.markerEnd_of_no_zero⟩⟩⟩
  · rw [hread, load_header hrun]
  · rw [hread] at hcause
    have hparse : Header.parse file = .error cause := Except.ok.inj (congrArg Prod.fst hcause)
    rw [load_exec_of_error hparse]
  · rw [(Header.parse_eq_ok_iff.1 hparse).2.2.2, Header.markerOf, Header.markerBytes_eq_slice]
    rfl

/-- A file that is longer than the header and has no zero byte from the marker on. -/
def endlessMarker : Bytes := Header.expectedMagic ++ List.replicate 68 0 ++ List.replicate 2000 0x41

def endlessDisk : Disk := ⟨[], [], [(["a"], endlessMarker)], "", ""⟩

theorem endlessMarker_whole :
    endlessDisk.contents (Path.ofString "a") = .ok endlessMarker ∧
      (∃ h, Header.parse endlessMarker = .ok h ∧ Header.parse (endlessMarker.take 0x800) = .ok h ∧
        (readHeader "a" : StateM Disk _).run endlessDisk = (.ok (.ok h), endlessDisk)) ∧
      Header.markerEnd endlessMarker = 0x800 := by
  have hpath : Path.ofString "a" = ⟨"", ["a"]⟩ := by
    rw [Path.ofString, Path.splitNames, show String.splitOn "a" "/" = ["a"] by cbv]
    decide
  have hfile : endlessDisk.contents (Path.ofString "a") = .ok endlessMarker := by
    rw [hpath]
    rfl
  have hlength : endlessMarker.length = 2076 := by
    rw [endlessMarker, List.length_append, List.length_append, List.length_replicate, List.length_replicate]
    rfl
  obtain ⟨hread, -, -, hfront⟩ := readHeader_whole hfile
  obtain ⟨hsame, hmarker⟩ := hfront endlessMarker
  have hcarried : Header.Carried endlessMarker := ⟨⟨_, (List.append_assoc ..).symm⟩, by rw [hlength]; decide⟩
  obtain ⟨h, hparse, -⟩ := hcarried.parse_isOk
  have hzero : ∀ i, 0x4C ≤ i → i < min endlessMarker.length 0x800 → endlessMarker[i]? ≠ some 0 := by
    intro i hfrom hto
    rw [endlessMarker, List.getElem?_append_right hfrom, List.getElem?_replicate]
    split <;> simp
  refine ⟨hfile, ⟨h, hparse, hsame.trans hparse, by rw [hread, hparse]⟩, ?_⟩
  rw [(hmarker h hparse).2 hzero, hlength]
  rfl

end Command

end PsxExe
