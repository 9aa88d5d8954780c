import PsxExe.Proofs.Label.History

/-!
# The spelling of label names

The names that labels should have are the words of a small grammar of ASCII characters. A name is tested as a line,
though: the word has to go up to the end of the line, and a line may end in front of a line break that is the last
character of the text. So the names that are accepted are the words of the grammar, and these words with one line
break behind them. Nothing else gets into a table, and a line break nowhere but at the very end of a name.
-/

namespace PsxExe

/-! ### The grammar -/

/-- A letter or a digit counts only if it is one of ASCII. -/
def IsLetter (c : Char) : Prop := 'A' ≤ c ∧ c ≤ 'Z' ∨ 'a' ≤ c ∧ c ≤ 'z'

def IsDigit (c : Char) : Prop := '0' ≤ c ∧ c ≤ '9'

def OpensWord (c : Char) : Prop := IsLetter c ∨ c = '_' ∨ c = '.' ∨ c = '$'

def GoesOnWord (c : Char) : Prop := OpensWord c ∨ IsDigit c ∨ c = '@'

def IsWord : List Char → Prop
  | [] => False
  | c :: rest => OpensWord c ∧ ∀ d ∈ rest, GoesOnWord d

/-- What can stand behind the end of a line: nothing, or the line break with which the text ends. -/
def EndsLine (behind : List Char) : Prop := behind = [] ∨ behind = ['\n']

def IsWordLine (cs : List Char) : Prop := ∃ word behind, cs = word ++ behind ∧ IsWord word ∧ EndsLine behind

variable {cs : List Char} {c : Char} {name : String}

theorem isNameStart_iff : isNameStart c = true ↔ OpensWord c := by
  have hupper : c.isUpper = true ↔ 'A' ≤ c ∧ c ≤ 'Z' := decide_eq_true_iff
  have hlower : c.isLower = true ↔ 'a' ≤ c ∧ c ≤ 'z' :=
    Bool.and_eq_true_iff.trans (and_congr decide_eq_true_iff decide_eq_true_iff)
  have hletter : c.isAlpha = true ↔ IsLetter c := Bool.or_eq_true_iff.trans (or_congr hupper hlower)
  simp only [isNameStart, Bool.or_eq_true, hletter, beq_iff_eq, OpensWord, or_assoc]

theorem isNameChar_iff : isNameChar c = true ↔ GoesOnWord c := by
  have hdigit : c.isDigit = true ↔ IsDigit c := by
    simp only [Char.isDigit, Bool.and_eq_true, decide_eq_true_eq, IsDigit, Char.le_def, ge_iff_le]
  simp only [isNameChar, Bool.or_eq_true, isNameStart_iff, hdigit, beq_iff_eq, GoesOnWord, or_assoc]

instance (c : Char) : Decidable (OpensWord c) := decidable_of_iff _ isNameStart_iff

instance (c : Char) : Decidable (GoesOnWord c) := decidable_of_iff _ isNameChar_iff

theorem IsWord.goesOn (h : IsWord cs) (hc : c ∈ cs) : GoesOnWord c := by
  cases cs with
  | nil => exact h.elim
  | cons d rest =>
    rcases List.mem_cons.1 hc with rfl | hc
    · exact .inl h.1
    · exact h.2 c hc

theorem not_goesOnWord_break : ¬ GoesOnWord '\n' := by decide

theorem IsWord.break_notMem (h : IsWord cs) : '\n' ∉ cs := fun hmem => not_goesOnWord_break (h.goesOn hmem)

theorem IsWordLine.goesOn (h : IsWordLine cs) {i : Nat} (hi : cs[i]? = some c) :
    GoesOnWord c ∨ c = '\n' ∧ 0 < i ∧ i + 1 = cs.length := by
  obtain ⟨word, behind, rfl, hword, hbehind⟩ := h
  by_cases hin : i < word.length
  · rw [List.getElem?_append_left hin] at hi
    exact .inl (hword.goesOn (List.mem_of_getElem? hi))
  · have hpos : 0 < word.length := by
      cases word with
      | nil => exact hword.elim
      | cons d rest => exact Nat.zero_lt_succ _
    rw [List.getElem?_append_right (Nat.not_lt.1 hin)] at hi
    rcases hbehind with rfl | rfl
    · cases hi
    · obtain ⟨hlast, hbreak⟩ := List.getElem?_eq_some_iff.1 hi
      rw [List.length_singleton] at hlast
      rw [List.getElem_singleton] at hbreak
      refine .inr ⟨hbreak.symm, by omega, ?_⟩
      rw [List.length_append, List.length_singleton]
      omega

/-! ### Names -/

theorem isLabelName_iff_isWord : isLabelName name = true ↔ IsWord (Text.withoutFinalBreak name.toList) := by
  rw [isLabelName]
  cases Text.withoutFinalBreak name.toList with
  | nil => simp [IsWord]
  | cons c rest => simp only [Bool.and_eq_true, List.all_eq_true, isNameStart_iff, isNameChar_iff, IsWord]

theorem isWord_withoutFinalBreak_iff : IsWord (Text.withoutFinalBreak cs) ↔ IsWordLine cs := by
  constructor
  · intro hword
    by_cases hlast : cs.getLast? = some '\n'
    · obtain ⟨front, rfl⟩ := List.getLast?_eq_some_iff.1 hlast
      rw [Text.withoutFinalBreak_append_break] at hword
      exact ⟨front, _, rfl, hword, .inr rfl⟩
    · rw [Text.withoutFinalBreak, if_neg hlast] at hword
      exact ⟨cs, [], (List.append_nil cs).symm, hword, .inl rfl⟩
  · rintro ⟨word, behind, rfl, hword, rfl | rfl⟩
    · rw [List.append_nil, Text.withoutFinalBreak_of_notMem hword.break_notMem]
      exact hword
    · rw [Text.withoutFinalBreak_append_break]
      exact hword

theorem isLabelName_iff_isWordLine : isLabelName name = true ↔ IsWordLine name.toList :=
  isLabelName_iff_isWord.trans isWord_withoutFinalBreak_iff

/-! ### Tables -/

namespace LabelTable

theorem add_empty_isOk_iff (l : Label) : (∃ t, (∅ : LabelTable).add l = .ok t) ↔ IsWordLine l.name.toList := by
  rw [add_isOk_iff, isLabelName_iff_isWordLine]
  -- The empty table has no label that could be in the way.
  exact and_iff_left fun k hk => by cases hk

theorem add_of_not_isWordLine {l : Label} (h : ¬ IsWordLine l.name.toList) (t : LabelTable) :
    t.add l = .error (.invalidName l.name) := by
  rw [← isLabelName_iff_isWordLine, Bool.not_eq_true] at h
  exact add_of_invalid h

theorem Named.isWordLine {t : LabelTable} (h : t.Named) {l : Label} (hl : l ∈ t.listing) :
    IsWordLine l.name.toList :=
  isLabelName_iff_isWordLine.1 (h l.name l (mem_listing.1 hl))

end LabelTable

namespace AddressSpace

variable {s : AddressSpace}

/-- A label can be added to an empty table exactly if its name is a word up to the end of its line; another name is
refused by every table. So all names in tables that labels build up from nothing, and in the spaces that histories
build, are word lines: they consist of the characters of words, but for a line break at the very end. -/
theorem Built.names_spelled (h : Built s) (offered : List Label) :
    (∀ l, (∃ t, (∅ : LabelTable).add l = .ok t) ↔ IsWordLine l.name.toList) ∧
      (∀ l, ¬ IsWordLine l.name.toList → ∀ t : LabelTable, t.add l = .error (.invalidName l.name)) ∧
      ∀ k ∈ ((∅ : LabelTable).offerAll offered).listing ++ s.labels.listing,
        IsWordLine k.name.toList ∧ ∀ (i : Nat) (c : Char), k.name.toList[i]? = some c →
          GoesOnWord c ∨ c = '\n' ∧ 0 < i ∧ i + 1 = k.name.toList.length := by
  refine ⟨LabelTable.add_empty_isOk_iff, fun l hl t => LabelTable.add_of_not_isWordLine hl t, fun k hk => ?_⟩
  have hline : IsWordLine k.name.toList := by
    rcases List.mem_append.1 hk with hk | hk
    · exact (LabelTable.named_empty.offerAll offered).isWordLine hk
    · exact h.named.isWordLine hk
  exact ⟨hline, fun i c hi => hline.goesOn hi⟩

/-- A label whose name ends in a line break, and three that are refused: for a line break inside the name, for one
in front of it, and for a letter outside ASCII. -/
def brokenNames : AddressSpace := Operation.runAll defaultHost ∅ [
  .createLabel 0x100 "main\n" .data,
  .createLabel 0x104 "two\nlines" .data,
  .createLabel 0x108 "\nmain" .data,
  .createLabel 0x10C "é" .data]

theorem built_brokenNames : Built brokenNames := Built.empty.runAll ..

theorem brokenNames_listing : brokenNames.labels.listing = [⟨0x100, "main\n", .data, ""⟩] := by decide

theorem not_isWord_mainBreak : ¬ IsWord "main\n".toList := fun h => h.break_notMem (by decide)

theorem brokenNames_spelled :
    Built brokenNames ∧ (∃ t, (∅ : LabelTable).add ⟨0x100, "v0@1", .data, ""⟩ = .ok t) ∧
      brokenNames.labels.add ⟨0x104, "main\n\n", .data, ""⟩ = .error (.invalidName "main\n\n") ∧
      brokenNames.labels.listing = [⟨0x100, "main\n", .data, ""⟩] ∧ IsWordLine "main\n".toList ∧
      ((∅ : LabelTable).offerAll [⟨7, "_x", .data, ""⟩]).listing = [⟨7, "_x", .data, ""⟩] ∧
      IsWordLine "_x".toList := by
  obtain ⟨hadded, hrefused, hlisted⟩ := Built.names_spelled built_brokenNames [⟨7, "_x", .data, ""⟩]
  have hoffered : ((∅ : LabelTable).offerAll [⟨7, "_x", .data, ""⟩]).listing = [⟨7, "_x", .data, ""⟩] := by decide
  rw [hoffered, brokenNames_listing] at hlisted
  have hword : IsWordLine "v0@1".toList := isLabelName_iff_isWordLine.1 (by decide)
  have hlines : ¬ IsWordLine "main\n\n".toList := by
    rw [← isLabelName_iff_isWordLine]
    decide
  exact ⟨built_brokenNames, (hadded _).2 hword, hrefused _ hlines _, brokenNames_listing,
    (hlisted _ (List.mem_cons_of_mem _ List.mem_cons_self)).1, hoffered, (hlisted _ List.mem_cons_self).1⟩

/-- The line break behind a word is accepted and kept, so that names are not the words of the grammar. -/
theorem mainBreak_accepted :
    (¬ ∀ l : Label, (∃ t, (∅ : LabelTable).add l = .ok t) ↔ IsWord l.name.toList) ∧
      ¬ ∀ s, Built s → ∀ k ∈ s.labels.listing, ∀ c ∈ k.name.toList, GoesOnWord c := by
  refine ⟨fun hwords => ?_, fun hchars => ?_⟩
  · have hadded : ∃ t, (∅ : LabelTable).add ⟨0x100, "main\n", .data, ""⟩ = .ok t := ⟨_, rfl⟩
    exact not_isWord_mainBreak ((hwords _).1 hadded)
  · have hlisted : ⟨0x100, "main\n", .data, ""⟩ ∈ brokenNames.labels.listing := by
      rw [brokenNames_listing]
      exact List.mem_cons_self
    exact not_goesOnWord_break (hchars _ built_brokenNames _ hlisted '\n' (by decide))

end AddressSpace

end PsxExe
