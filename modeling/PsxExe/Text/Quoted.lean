import PsxExe.Text.Hex
import PsxExe.Text.Printable

/-!
# Quoted text

A message that names a text or a byte string shows it between quotation marks. The mark is an
apostrophe, unless the text holds an apostrophe and no double quote. The mark in use, the backslash
and everything that cannot be printed are written as escapes, so the quoted form is one printable line.
-/

namespace PsxExe.Text.Quoted

def mark (cs : List Char) : Char :=
  if '\'' ∈ cs ∧ '"' ∉ cs then '"' else '\''

/-- An escape by number: `\x` and two digits, `\u` and four, or `\U` and eight. -/
def numbered (code : Nat) : List Char :=
  if code < 0x100 then ['\\', 'x'] ++ Hex.zeroPadded 2 (Hex.digits .lower code)
  else if code < 0x10000 then ['\\', 'u'] ++ Hex.zeroPadded 4 (Hex.digits .lower code)
  else ['\\', 'U'] ++ Hex.zeroPadded 8 (Hex.digits .lower code)

/-- One character between quotation marks of the given kind; `plain` tells which characters that
need no escape stand for themselves. -/
def character (plain : Char → Bool) (mark c : Char) : List Char :=
  if c = mark ∨ c = '\\' then ['\\', c]
  else if c = '\t' then ['\\', 't']
  else if c = '\n' then ['\\', 'n']
  else if c = '\r' then ['\\', 'r']
  else if plain c then [c]
  else numbered c.toNat

def characters (plain : Char → Bool) (cs : List Char) : List Char :=
  let m := mark cs
  m :: cs.flatMap (character plain m) ++ [m]

def text (s : String) : String :=
  String.ofList (characters isPrintable s.toList)

def isPlainByte (c : Char) : Bool := 32 ≤ c.toNat && c.toNat < 127

def bytes (bs : List UInt8) : String :=
  String.ofList ('b' :: characters isPlainByte (bs.map fun b => Char.ofNat b.toNat))

end PsxExe.Text.Quoted
