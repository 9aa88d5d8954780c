import PsxExe.Header.Basic

/-!
# Reading a header

Only the tag and the presence of the fixed fields are checked; every other field is taken as it is. The
marker is a text of ASCII characters that ends at the first zero byte, at the end of the header or at
the end of the file, whichever comes first.
-/

namespace PsxExe

inductive HeaderError where
  | badMagic (found : Bytes)
  | truncated (length : Nat)
deriving DecidableEq, Repr

namespace Header

/-- The character that stands for a byte of the marker; one outside ASCII is replaced. -/
def markerChar (b : UInt8) : Char :=
  if b < 0x80 then Char.ofNat b.toNat else '\uFFFD'

def markerBytes (file : Bytes) : Bytes :=
  ((file.take size).drop markerOffset).takeWhile (· != 0)

def markerOf (file : Bytes) : String :=
  String.ofList ((markerBytes file).map markerChar)

def parse (file : Bytes) : Except HeaderError Header :=
  let magic := file.take expectedMagic.length
  if magic ≠ expectedMagic then .error (.badMagic magic)
  else if file.length < fieldsEnd then .error (.truncated file.length)
  else .ok {
    magic
    initialPc := Bytes.wordAt file 0x10
    initialGp := Bytes.wordAt file 0x14
    code := ⟨Bytes.wordAt file 0x18, Bytes.wordAt file 0x1C⟩
    data := ⟨Bytes.wordAt file 0x20, Bytes.wordAt file 0x24⟩
    bss := ⟨Bytes.wordAt file 0x28, Bytes.wordAt file 0x2C⟩
    stackBase := Bytes.wordAt file 0x30
    stackOffset := Bytes.wordAt file 0x34
    marker := markerOf file }

theorem parse_nonneg {file : Bytes} {h : Header} (hparse : parse file = .ok h) :
    (0 ≤ h.code.address ∧ 0 ≤ h.code.size) ∧ 0 ≤ h.data.address ∧ 0 ≤ h.bss.address := by
  rw [parse] at hparse
  split at hparse
  next => cases hparse
  next =>
    split at hparse
    next => cases hparse
    next =>
      obtain rfl := Except.ok.inj hparse
      exact ⟨⟨Int.natCast_nonneg _, Int.natCast_nonneg _⟩, Int.natCast_nonneg _, Int.natCast_nonneg _⟩

/-- The header of a file, of which only the first `size` bytes are read. -/
def parseFront (file : Bytes) : Except HeaderError Header := parse (file.take size)

end Header

end PsxExe
