/-!
# Texts as lines

Some texts are tested as lines: one line break at the very end is then not looked at, and every other
one counts as a character like any other.
-/

namespace PsxExe.Text

def withoutFinalBreak (cs : List Char) : List Char :=
  if cs.getLast? = some '\n' then cs.dropLast else cs

theorem withoutFinalBreak_append_break (cs : List Char) :
    withoutFinalBreak (cs ++ ['\n']) = cs := by
  simp [withoutFinalBreak]

theorem withoutFinalBreak_of_notMem {cs : List Char} (h : '\n' ∉ cs) : withoutFinalBreak cs = cs :=
  if_neg fun last => h (List.mem_of_getLast? last)

end PsxExe.Text
