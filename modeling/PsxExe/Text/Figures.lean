/-!
# Figures in columns

The statistics are printed in columns: counts with a comma before every group of three digits, sizes
with one decimal place, and texts filled up with blanks. Widths count characters, and nothing that is
too wide is cut.
-/

namespace PsxExe.Text.Figures

def groupThrees : List Char → List Char
  | a :: b :: c :: d :: rest => a :: b :: c :: ',' :: groupThrees (d :: rest)
  | cs => cs

def thousands (n : Nat) : String :=
  String.ofList (groupThrees (Nat.repr n).toList.reverse).reverse

def left (width : Nat) (s : String) : String :=
  s ++ String.ofList (List.replicate (width - s.length) ' ')

def right (width : Nat) (s : String) : String :=
  String.ofList (List.replicate (width - s.length) ' ') ++ s

/-- The natural number nearest to `num / den`; of two that are equally near, the even one. -/
def nearestEven (num den : Nat) : Nat :=
  let q := num / den
  let r := num % den
  if 2 * r < den then q else if den < 2 * r then q + 1 else q + q % 2

def oneDecimal (num : Int) (den : Nat) : String :=
  let tenths := nearestEven (num.natAbs * 10) den
  (if num < 0 then "-" else "") ++ Nat.repr (tenths / 10) ++ "." ++ Nat.repr (tenths % 10)

end PsxExe.Text.Figures
