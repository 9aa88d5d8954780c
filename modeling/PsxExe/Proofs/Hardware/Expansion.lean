import PsxExe.Proofs.Hardware.Names
import PsxExe.Proofs.Space.Arrangement

/-!
# Registers of a bank

A bank whose name has a place for the index, in two hexadecimal digits or as many as it takes, has a register for
each index, one stride behind the other. The names are all different, also where the indices grow to three digits.
No byte belongs to two registers if and only if the stride, in whichever direction it goes, is no shorter than a
register.
-/

namespace PsxExe

theorem Extent.meets_iff_distance {x y size : Int} :
    Extent.Meets ⟨x, size⟩ ⟨y, size⟩ ↔ ((y - x).natAbs : Int) < size := by
  simp only [Extent.meets_iff, Extent.Overlaps, Extent.stop]
  omega

namespace Hardware

variable {k : Bank} {p q : List Char} {count i j : Nat}

theorem stride_le_distance (hlt : i < j) (address stride : Int) :
    stride.natAbs ≤ (address + j * stride - (address + i * stride)).natAbs := by
  have hsteps : address + j * stride - (address + i * stride) = ((j - i : Nat) : Int) * stride := by
    rw [Int.ofNat_sub (Nat.le_of_lt hlt), Int.sub_mul]
    omega
  rw [hsteps, Int.natAbs_mul, Int.natAbs_natCast]
  exact Nat.le_mul_of_pos_left _ (Nat.sub_pos_of_lt hlt)

theorem strides_apart_iff (hcount : 1 < count) (address stride size : Int) :
    ((List.range count).Pairwise fun i j : Nat =>
        ¬ Extent.Meets ⟨address + i * stride, size⟩ ⟨address + j * stride, size⟩) ↔
      size ≤ stride.natAbs := by
  simp only [Extent.meets_iff_distance, Int.not_lt]
  constructor
  · intro hapart
    have hlength : 1 < (List.range count).length := by rwa [List.length_range]
    have hfirst := List.pairwise_iff_getElem.1 hapart 0 1 (Nat.zero_lt_of_lt hlength) hlength Nat.one_pos
    rw [List.getElem_range, List.getElem_range] at hfirst
    omega
  · intro hle
    refine List.pairwise_lt_range.imp fun {i j} hlt => ?_
    exact Int.le_trans hle (Int.ofNat_le.2 (stride_le_distance hlt address stride))

/-- A bank of at least two registers, with a place for the index in its name, expands to as many registers as it
counts. The one with an index lies that many strides behind the first, is as wide as the bank says, and has the
index in its name, in lower-case hexadecimal digits with zeros in front up to two. All names are different, and no
two registers share a byte if and only if the stride spans a whole register. -/
theorem Bank.elements_expanded (hcount : 2 ≤ k.count) (hname : k.name.toList = p ++ Text.indexPlace ++ q)
    (hp : Text.BraceFree p) (hq : Text.BraceFree q) :
    ∃ elements, k.elements = .ok elements ∧ elements.length = k.count ∧
      (∀ i (hi : i < elements.length),
        elements[i].name.toList = p ++ (Nat.toDigits 16 i).leftpad 2 '0' ++ q ∧
          elements[i].address = k.address + i * k.stride ∧ elements[i].width = k.width) ∧
      (elements.map (·.name)).Nodup ∧
      (elements.Pairwise (fun e f => ¬ e.extent.Meets f.extent) ↔ byteCount k.width ≤ k.stride.natAbs) := by
  refine ⟨_, Bank.elements_indexed hcount hname hp hq, ?_, fun i hi => ?_, ?_, ?_⟩
  · rw [List.length_map, List.length_range]
    omega
  · rw [List.getElem_map, List.getElem_range, Hex.toDigits_eq]
    exact ⟨String.toList_ofList, rfl, rfl⟩
  · rw [List.map_map]
    exact List.Nodup.map (fun _ _ => indexedName_injective) List.nodup_range
  · rw [List.pairwise_map]
    exact strides_apart_iff (by omega) k.address k.stride (byteCount k.width)

/-- A bank that runs downwards and has more registers than two digits count. -/
def channels : Bank := ⟨"CH\x7b:02x\x7d_VAL", 0x2000, 32, 300, -4⟩

theorem channels_expanded :
    2 ≤ channels.count ∧ channels.name.toList = ['C', 'H'] ++ Text.indexPlace ++ ['_', 'V', 'A', 'L'] ∧
      Text.BraceFree ['C', 'H'] ∧ Text.BraceFree ['_', 'V', 'A', 'L'] ∧
      ∃ elements, channels.elements = .ok elements ∧ elements.length = 300 ∧
        elements[255]? = some ⟨"CHff_VAL", 0x1C04, 32⟩ ∧ elements[256]? = some ⟨"CH100_VAL", 0x1C00, 32⟩ ∧
        (elements.map (·.name)).Nodup ∧ elements.Pairwise fun e f => ¬ e.extent.Meets f.extent := by
  have hcount : 2 ≤ channels.count := by decide
  have hname : channels.name.toList = ['C', 'H'] ++ Text.indexPlace ++ ['_', 'V', 'A', 'L'] := by decide
  have hp : Text.BraceFree ['C', 'H'] := by decide
  have hq : Text.BraceFree ['_', 'V', 'A', 'L'] := by decide
  obtain ⟨elements, helements, hlength, hall, hnodup, hapart⟩ := Bank.elements_expanded hcount hname hp hq
  have hlength : elements.length = 300 := Int.ofNat.inj hlength
  have helement {i : Nat} {n : String} (hi : i < 300)
      (hn : n.toList = ['C', 'H'] ++ (Nat.toDigits 16 i).leftpad 2 '0' ++ ['_', 'V', 'A', 'L']) :
      elements[i]? = some ⟨n, 0x2000 + i * -4, 32⟩ := by
    obtain ⟨hname', haddress', hwidth'⟩ := hall i (hlength ▸ hi)
    rw [List.getElem?_eq_getElem (hlength ▸ hi), Option.some.injEq]
    show Element.mk elements[i].name elements[i].address elements[i].width = _
    rw [String.toList_injective (hname'.trans hn.symm), haddress', hwidth']
    rfl
  refine ⟨hcount, hname, hp, hq, elements, helements, hlength, ?_, ?_, hnodup, hapart.2 (by decide)⟩
  · exact helement (by decide) (by decide)
  · exact helement (by decide) (by decide)

end Hardware

end PsxExe
