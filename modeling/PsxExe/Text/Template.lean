import PsxExe.Text.Figures
import PsxExe.Text.Hex
import PsxExe.Text.Quoted

/-!
# Name templates

The registers of a bank share one name with a place for the element's index. The place is written in
braces: the number of the value, which is `0` or left out, and a format behind a colon, such as `02x`
for at least two hexadecimal digits. A doubled brace stands for itself. Places are numbered all by
hand or all by themselves, and the index is the only value. A format can hold places of its own, which
are filled in first. Faults are found from left to right.

This is as much of the template language as the names of the console's registers need, and some more.
Alignment, signs, grouping, conversions, attributes and other kinds of digits are taken for faults; what is
proved of layouts holds for every `Format`, and so for one that knows them.
-/

namespace PsxExe.Text

inductive TemplateError where
  | strayClosing
  | strayOpening
  | unclosed
  /-- A place that is never closed behind its colon. -/
  | unclosedFormat
  | nestedOpening
  /-- A place in a format in a format. -/
  | nestedTooDeep
  /-- A place with a number behind one without. -/
  | numberedBehindAutomatic
  | automaticBehindNumbered
  | noValue (number : Nat)
  | unknownName (name : String)
  | unknownDigits (kind : Char)
  | invalidFormat (format : String)
deriving DecidableEq, Repr

def visible (c : Char) : String :=
  if 32 < c.toNat ∧ c.toNat < 127 then String.singleton c
  else "\\x" ++ Hex.padded .lower 0 c.toNat

def TemplateError.message : TemplateError → String
  | strayClosing => "Single '\x7d' encountered in format string"
  | strayOpening => "Single '\x7b' encountered in format string"
  | unclosed => "expected '\x7d' before end of string"
  | unclosedFormat => "unmatched '\x7b' in format spec"
  | nestedOpening => "unexpected '\x7b' in field name"
  | nestedTooDeep => "Max string recursion exceeded"
  | numberedBehindAutomatic =>
    "cannot switch from automatic field numbering to manual field specification"
  | automaticBehindNumbered =>
    "cannot switch from manual field specification to automatic field numbering"
  | noValue number => s!"Replacement index {number} out of range for positional args tuple"
  | unknownName name => Quoted.text name
  | unknownDigits kind => s!"Unknown format code '{visible kind}' for object of type 'int'"
  | invalidFormat format => s!"Invalid format specifier '{format}' for object of type 'int'"

def decimalValue (digits : List Char) : Nat :=
  digits.foldl (fun n c => 10 * n + (c.toNat - '0'.toNat)) 0

/-! ### Formats of an index -/

/-- A format is a zero if zeros fill up the width and not blanks, then the width, then a letter for
the digits; each of the three can be left out. -/
def formatIndex (format : List Char) (index : Nat) : Except TemplateError String :=
  let zeros := format.head? == some '0'
  let rest := if zeros then format.drop 1 else format
  let width := decimalValue (rest.takeWhile Char.isDigit)
  let fill (digits : List Char) : String :=
    if zeros then String.ofList (Hex.zeroPadded width digits)
    else Figures.right width (String.ofList digits)
  match rest.dropWhile Char.isDigit with
  | [] | ['d'] => .ok (fill (Nat.repr index).toList)
  | ['x'] => .ok (fill (Hex.digits .lower index))
  | ['X'] => .ok (fill (Hex.digits .upper index))
  | [kind] => .error (.unknownDigits kind)
  | _ => .error (.invalidFormat (String.ofList format))

namespace Template

/-! ### The pieces of a template -/

/-- A piece of a template: a character that stands for itself, or a place. -/
inductive Piece where
  | char (c : Char)
  | place (name format : List Char)
deriving DecidableEq, Repr

/-- Where in a template a reader stands. What it has read of a place is kept in reverse; `inner` counts
the braces that are open in a format. -/
inductive Position where
  | text
  | name (read : List Char)
  | format (name read : List Char) (inner : Nat)

/-- The pieces from a position on, up to the first fault, and that fault if there is one. -/
def pieces : Position → List Char → List Piece × Option TemplateError
  | .text, [] => ([], none)
  | .name _, [] => ([], some .unclosed)
  | .format .., [] => ([], some .unclosedFormat)
  | .text, '\x7b' :: '\x7b' :: rest =>
    let (others, fault) := pieces .text rest
    (.char '\x7b' :: others, fault)
  | .text, '\x7d' :: '\x7d' :: rest =>
    let (others, fault) := pieces .text rest
    (.char '\x7d' :: others, fault)
  | .text, ['\x7b'] => ([], some .strayOpening)
  | .text, '\x7b' :: rest => pieces (.name []) rest
  | .text, '\x7d' :: _ => ([], some .strayClosing)
  | .text, c :: rest =>
    let (others, fault) := pieces .text rest
    (.char c :: others, fault)
  | .name _, '\x7b' :: _ => ([], some .nestedOpening)
  | .name read, ':' :: rest => pieces (.format read.reverse [] 0) rest
  | .name read, '\x7d' :: rest =>
    let (others, fault) := pieces .text rest
    (.place read.reverse [] :: others, fault)
  | .name read, c :: rest => pieces (.name (c :: read)) rest
  | .format name read inner, '\x7b' :: rest => pieces (.format name ('\x7b' :: read) (inner + 1)) rest
  | .format name read 0, '\x7d' :: rest =>
    let (others, fault) := pieces .text rest
    (.place name read.reverse :: others, fault)
  | .format name read (inner + 1), '\x7d' :: rest => pieces (.format name ('\x7d' :: read) inner) rest
  | .format name read inner, c :: rest => pieces (.format name (c :: read) inner) rest

/-! ### Filling in -/

inductive Numbering where
  | undecided
  /-- One place without a number has taken the value. -/
  | automatic
  | numbered
deriving DecidableEq, Repr

def Numbering.next (n : Numbering) (name : List Char) : Except TemplateError Numbering :=
  if name = [] then
    match n with
    | undecided => .ok automatic
    | automatic => .error (.noValue 1)
    | numbered => .error .automaticBehindNumbered
  else if name.all Char.isDigit then
    if n = automatic then .error .numberedBehindAutomatic
    else if decimalValue name = 0 then .ok numbered
    else .error (.noValue (decimalValue name))
  else .error (.unknownName (String.ofList name))

abbrev Filling := Except TemplateError (String × Numbering)

/-- Fills in pieces. `expand` fills in a format that has places of its own. -/
def fillPieces (index : Nat) (expand : Numbering → List Char → Filling) (n : Numbering) :
    List Piece → Filling
  | [] => .ok ("", n)
  | .char c :: rest => do
    let (others, n) ← fillPieces index expand n rest
    return (String.singleton c ++ others, n)
  | .place name format :: rest => do
    let n ← n.next name
    let (format, n) ←
      if '\x7b' ∈ format then expand n format else .ok (String.ofList format, n)
    let text ← formatIndex format.toList index
    let (others, n) ← fillPieces index expand n rest
    return (text ++ others, n)

/-- Fills in a template in which formats can be nested `depth` deep, itself counted. -/
def fill (index : Nat) : (depth : Nat) → Numbering → List Char → Filling
  | 0, _, _ => .error .nestedTooDeep
  | depth + 1, n, template => do
    let (found, fault) := pieces .text template
    let filled ← fillPieces index (fill index depth) n found
    match fault with
    | some e => throw e
    | none => return filled

end Template

/-- A way to fill an index into a template. -/
abbrev Format := String → Nat → Except TemplateError String

def fillTemplate : Format := fun template index =>
  (Template.fill index 2 .undecided template.toList).map (·.1)

end PsxExe.Text
