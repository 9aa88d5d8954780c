import Mathlib.Data.List.Nodup
import PsxExe.Label.Name
import PsxExe.Proofs.Hardware.Layout
import PsxExe.Proofs.Text.Template

/-!
# Names of hardware registers

A single register has the name of its bank, and the registers of a larger bank have its template filled
in with their indices. The names of the console's registers can name labels, and no two of them are the same:
the voices of the sound processor are told apart by their indices and fields, and nothing else is
called a voice.
-/

namespace PsxExe

theorem isLabelName_ofList {c : Char} {cs : List Char} (hc : isNameStart c = true)
    (hcs : ∀ d ∈ cs, isNameChar d = true) : isLabelName (String.ofList (c :: cs)) = true := by
  have hbreak : '\n' ∉ c :: cs := by
    intro hmem
    rcases List.mem_cons.1 hmem with hfirst | hlater
    · rw [← hfirst] at hc
      exact absurd hc (by decide)
    · exact absurd (hcs _ hlater) (by decide)
  simp only [isLabelName, String.toList_ofList, Text.withoutFinalBreak_of_notMem hbreak, hc, Bool.true_and]
  exact List.all_eq_true.2 hcs

theorem isNameChar_digit : ∀ d < 16, isNameChar (Hex.digit .lower d) = true := by decide

namespace Hardware

variable {k k' : Bank} {b : Block} {p q : List Char}

/-! ### Banks -/

theorem Bank.elements_single (h : k.count = 1) : k.elements = .ok [⟨k.name, k.address, k.width⟩] := by
  have helement : k.element 0 = .ok ⟨k.name, k.address, k.width⟩ := by
    simp [element, elementName, h, bind, Except.bind, pure, Except.pure]
  rw [elements, h]
  show ([0].mapM fun index => k.element index) = _
  rw [List.mapM_cons, helement]
  rfl

theorem Bank.elements_indexed (hcount : 1 < k.count) (hname : k.name.toList = p ++ Text.indexPlace ++ q)
    (hp : Text.BraceFree p) (hq : Text.BraceFree q) :
    k.elements = .ok ((List.range k.count.toNat).map fun i =>
      ⟨String.ofList (p ++ Hex.zeroPadded 2 (Hex.digits .lower i) ++ q), k.address + i * k.stride,
        k.width⟩) := by
  refine mapM_eq_ok fun i _ => ?_
  rw [element, elementName, if_pos hcount, Text.fillTemplate_indexPlace hname hp hq]
  rfl

def Bank.names (k : Bank) : List String := (k.elements.toOption.getD []).map (·.name)

theorem Bank.names_single (h : k.count = 1) : k.names = [k.name] := by
  rw [names, elements_single h]
  rfl

theorem Bank.names_indexed (hcount : 1 < k.count) (hname : k.name.toList = p ++ Text.indexPlace ++ q)
    (hp : Text.BraceFree p) (hq : Text.BraceFree q) :
    k.names = (List.range k.count.toNat).map fun i =>
      String.ofList (p ++ Hex.zeroPadded 2 (Hex.digits .lower i) ++ q) := by
  rw [names, elements_indexed hcount hname hp hq]
  simp [Except.toOption, List.map_map, Function.comp_def]

theorem indexedName_injective {i j : Nat}
    (h : String.ofList (p ++ Hex.zeroPadded 2 (Hex.digits .lower i) ++ q) =
      String.ofList (p ++ Hex.zeroPadded 2 (Hex.digits .lower j) ++ q)) : i = j := by
  have hchars := String.ofList_injective h
  exact Hex.zeroPadded_injective (List.append_cancel_left (List.append_cancel_right hchars))

/-! ### Blocks -/

def Block.names (b : Block) : List String := b.banks.flatMap Bank.names

theorem map_of_mapM_eq_ok {ε α β : Type} {f : α → Except ε β} {l : List α} {l' : List β} {d : β}
    (h : l.mapM f = .ok l') : l' = l.map fun x => (f x).toOption.getD d := by
  induction l generalizing l' with
  | nil => exact (Except.ok.inj h).symm
  | cons x rest ih =>
    rw [List.mapM_cons] at h
    obtain ⟨y, hy, h⟩ := exists_of_bind_eq_ok h
    obtain ⟨others, hothers, h⟩ := exists_of_bind_eq_ok h
    obtain rfl := Except.ok.inj h
    rw [List.map_cons, ← ih hothers, hy]
    rfl

theorem Block.names_perm {elements : List Element} (h : b.elements = .ok elements) :
    (elements.map (·.name)).Perm b.names := by
  rw [Block.elements, bankElements] at h
  cases hbanks : b.banks.mapM fun k => k.elements with
  | error cause =>
    rw [hbanks] at h
    cases h
  | ok lists =>
    rw [hbanks] at h
    obtain rfl := Except.ok.inj h
    have hnames : lists.flatten.map (·.name) = b.names := by
      rw [map_of_mapM_eq_ok (d := []) hbanks, Block.names, List.map_flatten, List.map_map]
      rfl
    rw [← hnames]
    exact (sortBy_perm _ _).map _

/-! ### The console's names -/

def voicePrefix : List Char := ['V', 'O', 'I', 'C', 'E', '_']

/-- The bank is a single register that is not named as a voice is. -/
def Bank.IsSingle (k : Bank) : Prop :=
  k.count = 1 ∧ isLabelName k.name = true ∧ ¬ voicePrefix <+: k.name.toList

/-- The bank has one register for each voice, and its template ends in the given characters. -/
def Bank.IsVoice (k : Bank) (q : List Char) : Prop :=
  k.count = voiceCount ∧ k.name.toList = voicePrefix ++ Text.indexPlace ++ q ∧ Text.BraceFree q ∧
    ∀ c ∈ q, isNameChar c = true

theorem Bank.IsVoice.names_eq (h : k.IsVoice q) :
    k.names = (List.range voiceCount.toNat).map fun i =>
      String.ofList (voicePrefix ++ Hex.zeroPadded 2 (Hex.digits .lower i) ++ q) := by
  obtain ⟨hcount, hname, hbraces, -⟩ := h
  rw [Bank.names_indexed (hcount ▸ by decide) hname (by decide) hbraces, hcount]

theorem Bank.IsVoice.exists_index (h : k.IsVoice q) {n : String} (hn : n ∈ k.names) :
    ∃ i < 256, n = String.ofList (voicePrefix ++ Hex.zeroPadded 2 (Hex.digits .lower i) ++ q) := by
  rw [h.names_eq] at hn
  obtain ⟨i, hi, rfl⟩ := List.mem_map.1 hn
  have hlt : i < 24 := List.mem_range.1 hi
  exact ⟨i, by omega, rfl⟩

theorem Bank.IsSingle.name_notMem (h : k.IsSingle) (h' : k'.IsVoice q) : k.name ∉ k'.names := by
  intro hmem
  obtain ⟨i, -, hi⟩ := h'.exists_index hmem
  refine h.2.2 ?_
  rw [hi, String.toList_ofList, List.append_assoc]
  exact List.prefix_append ..

theorem Bank.names_disjoint (h : k.IsSingle ∨ ∃ q, k.IsVoice q) (h' : k'.IsSingle ∨ ∃ q, k'.IsVoice q)
    (hne : k.name ≠ k'.name) : List.Disjoint k.names k'.names := by
  intro n hn hn'
  rcases h with h | ⟨q, h⟩
  · rw [Bank.names_single h.1] at hn
    obtain rfl := List.mem_singleton.1 hn
    rcases h' with h' | ⟨q', h'⟩
    · rw [Bank.names_single h'.1] at hn'
      exact hne (List.mem_singleton.1 hn')
    · exact h.name_notMem h' hn'
  · rcases h' with h' | ⟨q', h'⟩
    · rw [Bank.names_single h'.1] at hn'
      obtain rfl := List.mem_singleton.1 hn'
      exact h'.name_notMem h hn
    · obtain ⟨i, hi, rfl⟩ := h.exists_index hn
      obtain ⟨j, hj, hsame⟩ := h'.exists_index hn'
      have hchars := String.ofList_injective hsame
      rw [List.append_assoc, List.append_assoc] at hchars
      -- Both indices take two digits, so the names also end alike.
      have hlength : (Hex.zeroPadded 2 (Hex.digits .lower i)).length =
          (Hex.zeroPadded 2 (Hex.digits .lower j)).length := by
        rw [Hex.length_zeroPadded hi, Hex.length_zeroPadded hj]
      obtain ⟨-, hend⟩ := List.append_inj (List.append_cancel_left hchars) hlength
      refine hne (String.toList_injective ?_)
      rw [h.2.1, h'.2.1, hend]

theorem Bank.names_nodup (h : k.IsSingle ∨ ∃ q, k.IsVoice q) : k.names.Nodup := by
  rcases h with h | ⟨q, h⟩
  · rw [Bank.names_single h.1]
    exact List.nodup_singleton _
  · rw [h.names_eq]
    exact List.Nodup.map (fun _ _ => indexedName_injective) List.nodup_range

theorem Bank.names_valid (h : k.IsSingle ∨ ∃ q, k.IsVoice q) : ∀ n ∈ k.names, isLabelName n = true := by
  intro n hn
  rcases h with h | ⟨q, h⟩
  · rw [Bank.names_single h.1] at hn
    rw [List.mem_singleton.1 hn]
    exact h.2.1
  · obtain ⟨i, -, rfl⟩ := h.exists_index hn
    have hprefix : voicePrefix.all isNameChar = true := by decide
    have hall : ∀ c ∈ voicePrefix ++ Hex.zeroPadded 2 (Hex.digits .lower i) ++ q, isNameChar c = true := by
      intro c hc
      rcases List.mem_append.1 hc with hc | hc
      · rcases List.mem_append.1 hc with hc | hc
        · exact List.all_eq_true.1 hprefix c hc
        · obtain ⟨d, hd, rfl⟩ := Hex.mem_zeroPadded hc
          exact isNameChar_digit d hd
      · exact h.2.2.2 c hc
    exact isLabelName_ofList (by decide) fun c hc => hall c (List.mem_cons_of_mem _ hc)

theorem catalog_banks : ∀ b ∈ catalog, ∀ k ∈ b.banks, k.IsSingle ∨ ∃ q, k.IsVoice q := by
  have hbanks : ∀ b ∈ catalog, ∀ k ∈ b.banks,
      (k.count = 1 ∧ isLabelName k.name = true ∧ ¬ voicePrefix <+: k.name.toList) ∨
        k.count = voiceCount ∧ k.name.toList = voicePrefix ++ Text.indexPlace ++ k.name.toList.drop 12 ∧
          Text.BraceFree (k.name.toList.drop 12) ∧ (k.name.toList.drop 12).all isNameChar = true := by
    decide +kernel
  intro b hb k hk
  refine (hbanks b hb k hk).imp_right fun h => ⟨k.name.toList.drop 12, ?_⟩
  obtain ⟨hcount, hname, hbraces, hchars⟩ := h
  exact ⟨hcount, hname, hbraces, List.all_eq_true.1 hchars⟩

theorem catalog_banks_nodup : ((catalog.flatMap (·.banks)).map (·.name)).Nodup := by decide +kernel

theorem catalog_names_valid : ∀ b ∈ catalog, ∀ n ∈ b.names, isLabelName n = true := by
  intro b hb n hn
  obtain ⟨k, hk, hn⟩ := List.mem_flatMap.1 hn
  exact Bank.names_valid (catalog_banks b hb k hk) n hn

/-- No two registers of the console have the same name. -/
theorem catalog_names_nodup : (catalog.flatMap Block.names).Nodup := by
  have hbanks : catalog.flatMap Block.names = (catalog.flatMap (·.banks)).flatMap Bank.names :=
    List.flatMap_assoc.symm
  have hshape : ∀ k ∈ catalog.flatMap (·.banks), k.IsSingle ∨ ∃ q, k.IsVoice q := by
    intro k hk
    obtain ⟨b, hb, hk⟩ := List.mem_flatMap.1 hk
    exact catalog_banks b hb k hk
  rw [hbanks, List.nodup_flatMap]
  refine ⟨fun k hk => Bank.names_nodup (hshape k hk), ?_⟩
  have hnames := List.pairwise_map.1 catalog_banks_nodup
  exact hnames.imp_of_mem fun hk hk' hne => Bank.names_disjoint (hshape _ hk) (hshape _ hk') hne

end Hardware

end PsxExe
