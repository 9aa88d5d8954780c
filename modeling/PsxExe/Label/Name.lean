import PsxExe.Text.Line

/-!
# Label names

A name is an ASCII letter or one of `_`, `.` and `$`, followed by any number of these, digits and `@`.
One line break at the very end is not looked at, and stays part of the name.
-/

namespace PsxExe

def isNameStart (c : Char) : Bool := c.isAlpha || c == '_' || c == '.' || c == '$'

def isNameChar (c : Char) : Bool := isNameStart c || c.isDigit || c == '@'

def isLabelName (name : String) : Bool :=
  match Text.withoutFinalBreak name.toList with
  | [] => false
  | c :: rest => isNameStart c && rest.all isNameChar

end PsxExe
