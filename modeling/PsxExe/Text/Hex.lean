/-!
# Hexadecimal numbers

Addresses and byte counts are written in base sixteen. Numbers are arbitrary integers: a minus sign
stands in front and counts towards the width of the zero-padded form, and a number that is wider than
the width is never cut.
-/

namespace PsxExe.Hex

/-- Which letters stand for the digits from ten to fifteen. -/
inductive Letters where
  | lower
  | upper
deriving DecidableEq, Repr

def Letters.ten : Letters → Nat
  | .lower => 97
  | .upper => 65

def digit (letters : Letters) (d : Nat) : Char :=
  if d < 10 then Char.ofNat (48 + d) else Char.ofNat (letters.ten + (d - 10))

def digits (letters : Letters) (n : Nat) : List Char :=
  if n < 16 then [digit letters n] else digits letters (n / 16) ++ [digit letters (n % 16)]

/-- Zeros in front of `cs` up to the given width. -/
def zeroPadded (width : Nat) (cs : List Char) : List Char :=
  List.replicate (width - cs.length) '0' ++ cs

def padded (letters : Letters) (width n : Nat) : String :=
  String.ofList (zeroPadded width (digits letters n))

/-- The digits of an integer, zero-padded to a width that includes the minus sign. -/
def signed (letters : Letters) (width : Nat) (v : Int) : String :=
  if v < 0 then "-" ++ padded letters (width - 1) v.natAbs else padded letters width v.natAbs

/-- An address: eight upper-case digits behind `0x`. -/
def address (v : Int) : String := "0x" ++ signed .upper 8 v

/-- A byte count: upper-case digits behind `0x`, without padding. -/
def amount (v : Int) : String := "0x" ++ signed .upper 0 v

def byte (b : UInt8) : List Char :=
  [digit .lower (b.toNat / 16), digit .lower (b.toNat % 16)]

def ofBytes (bytes : List UInt8) : String :=
  String.ofList (bytes.flatMap byte)

end PsxExe.Hex
