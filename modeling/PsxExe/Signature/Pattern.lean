import PsxExe.Bytes

/-!
# Masked byte patterns

A pattern says of every byte which of its bits are looked at and what they have to be. A signature is a
pattern with a name and the distance from a match to the instruction that it leads to.
-/

namespace PsxExe

/-- A byte of which only the bits in the mask are looked at. -/
structure MaskedByte where
  value : UInt8
  mask : UInt8
deriving DecidableEq, Repr

namespace MaskedByte

/-- Whether a byte agrees with the pattern in every bit of the mask. -/
def accepts (m : MaskedByte) (b : UInt8) : Bool := b &&& m.mask == m.value &&& m.mask

def isExact (m : MaskedByte) : Bool := m.mask == 0xFF

end MaskedByte

abbrev Pattern := List MaskedByte

/-- A list of values and a list of masks that differ in length. -/
structure LengthMismatch where
  values : Nat
  masks : Nat
deriving DecidableEq, Repr

def LengthMismatch.figures (e : LengthMismatch) : String :=
  s!"({e.values} != {e.masks})"

def LengthMismatch.message (e : LengthMismatch) : String :=
  s!"Pattern and mask lengths differ {e.figures}"

def LengthMismatch.messageFor (e : LengthMismatch) (name : String) : String :=
  s!"Signature {name}: pattern and mask lengths differ {e.figures}"

namespace Pattern

def ofBytes (values masks : Bytes) : Except LengthMismatch Pattern :=
  if values.length = masks.length then .ok (List.zipWith MaskedByte.mk values masks)
  else .error ⟨values.length, masks.length⟩

def acceptsFrom (data : Array UInt8) : Nat → Pattern → Bool
  | _, [] => true
  | i, m :: rest => m.accepts (data.getD i 0) && acceptsFrom data (i + 1) rest

/-- Whether the pattern lies inside the data at an offset and is matched there. -/
def matchesAt (p : Pattern) (data : Array UInt8) (offset : Int) : Bool :=
  decide (0 ≤ offset) && decide (offset + p.length ≤ data.size) && acceptsFrom data offset.toNat p

end Pattern

/-- A named pattern; `skip` bytes lie between a match and the instruction of interest. -/
structure Signature where
  name : String
  pattern : Pattern
  skip : Int := 0
deriving DecidableEq, Repr

def Signature.ofBytes (name : String) (values masks : Bytes) (skip : Int) :
    Except LengthMismatch Signature :=
  (Pattern.ofBytes values masks).map fun pattern => ⟨name, pattern, skip⟩

end PsxExe
