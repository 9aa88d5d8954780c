import PsxExe.Proofs.Text.Hex
import PsxExe.Text.Template

/-!
# Names from templates

A name with one place for the index, in two hexadecimal digits or as many as it takes, is what stands
around the place with the digits in between. The digits show the index, so the names of a bank are all
different.
-/

namespace PsxExe

namespace Text

def BraceFree (cs : List Char) : Prop := '\x7b' ∉ cs ∧ '\x7d' ∉ cs

instance (cs : List Char) : Decidable (BraceFree cs) :=
  inferInstanceAs (Decidable ('\x7b' ∉ cs ∧ '\x7d' ∉ cs))

def indexPlace : List Char := ['\x7b', ':', '0', '2', 'x', '\x7d']

variable {p q : List Char} {index : Nat}

namespace Template

theorem pieces_braceFree (hp : BraceFree p) (rest : List Char) :
    pieces .text (p ++ rest) = (p.map .char ++ (pieces .text rest).1, (pieces .text rest).2) := by
  induction p with
  | nil => rfl
  | cons c cs ih =>
    obtain ⟨hopen, hclose⟩ := hp
    simp only [List.mem_cons, not_or] at hopen hclose
    have hcs : BraceFree cs := ⟨hopen.2, hclose.2⟩
    rw [List.cons_append, pieces, ih hcs]
    · rfl
    · exact fun _ hc _ => hopen.1 hc.symm
    · exact fun _ hc _ => hclose.1 hc.symm
    · exact fun hc _ => hopen.1 hc.symm
    · exact fun hc => hopen.1 hc.symm
    · exact fun hc => hclose.1 hc.symm

theorem pieces_indexPlace (rest : List Char) :
    pieces .text (indexPlace ++ rest) =
      (.place [] ['0', '2', 'x'] :: (pieces .text rest).1, (pieces .text rest).2) := by
  rfl

theorem fillPieces_chars (expand : Numbering → List Char → Filling) (n : Numbering) (cs : List Char)
    (rest : List Piece) :
    fillPieces index expand n (cs.map .char ++ rest) =
      (fillPieces index expand n rest).map fun filled => (String.ofList cs ++ filled.1, filled.2) := by
  induction cs with
  | nil =>
    cases h : fillPieces index expand n rest <;> simp [h, Except.map]
  | cons c cs ih =>
    rw [List.map_cons, List.cons_append, fillPieces, ih]
    cases fillPieces index expand n rest with
    | error e => rfl
    | ok filled =>
      have hfirst : String.ofList (c :: cs) = String.singleton c ++ String.ofList cs := by
        rw [String.singleton_eq_ofList, ← String.ofList_append]
        rfl
      simp only [Except.map, hfirst, String.append_assoc]
      rfl

end Template

/-- The name of a register in a bank whose template has a place for its index in two digits. -/
theorem fillTemplate_indexPlace {template : String} (htemplate : template.toList = p ++ indexPlace ++ q)
    (hp : BraceFree p) (hq : BraceFree q) (index : Nat) :
    fillTemplate template index =
      .ok (String.ofList (p ++ Hex.zeroPadded 2 (Hex.digits .lower index) ++ q)) := by
  have hpieces : Template.pieces .text template.toList =
      (p.map .char ++ .place [] ['0', '2', 'x'] :: q.map .char, none) := by
    have hend := Template.pieces_braceFree hq []
    rw [List.append_nil] at hend
    rw [htemplate, List.append_assoc, Template.pieces_braceFree hp, Template.pieces_indexPlace, hend]
    simp [Template.pieces]
  have hformat : formatIndex (String.ofList ['0', '2', 'x']).toList index =
      .ok (String.ofList (Hex.zeroPadded 2 (Hex.digits .lower index))) := by
    rw [String.toList_ofList]
    rfl
  have htail : ∀ expand n, Template.fillPieces index expand n (q.map .char) = .ok (String.ofList q, n) := by
    intro expand n
    have hchars := @Template.fillPieces_chars index expand n q []
    rw [List.append_nil] at hchars
    rw [hchars, Template.fillPieces]
    simp [Except.map]
  rw [fillTemplate, Template.fill, hpieces]
  dsimp only
  rw [Template.fillPieces_chars, Template.fillPieces]
  have hnext : Template.Numbering.undecided.next [] = .ok .automatic := rfl
  have hplain : '\x7b' ∉ ['0', '2', 'x'] := by decide
  simp only [hnext, hplain, if_false, bind, Except.bind, hformat, htail, Except.map, pure, Except.pure,
    String.ofList_append, String.append_assoc]

end Text

end PsxExe
