import PsxExe.Header.Basic

/-!
# Images

How an executable is laid out in a file: the tag, ten words, the marker, and the code behind the header.
The bytes of the header that mean nothing can be anything.
-/

namespace PsxExe.Header

def words (h : Header) : List Int :=
  [h.initialPc, h.initialGp, h.code.address, h.code.size, h.data.address, h.data.size,
    h.bss.address, h.bss.size, h.stackBase, h.stackOffset]

/-- A word as it stands in a header, the least significant byte first. -/
def wordBytes (v : Int) : Bytes := Bytes.ofNat 4 (word32 v).toNat

def fieldBytes (h : Header) : Bytes := h.words.flatMap wordBytes

@[simp] theorem length_wordBytes (v : Int) : (wordBytes v).length = 4 := by simp [wordBytes]

@[simp] theorem length_fieldBytes (h : Header) : h.fieldBytes.length = 40 := by
  simp [fieldBytes, words]

def tagGap : Nat := 8

def markerGap : Nat := markerOffset - fieldsEnd

/-- The number of bytes that the marker has room for. -/
def markerRoom : Nat := size - markerOffset

/-- A marker in its room: a zero byte ends it unless it fills the room, and what follows means
nothing. -/
def markerField (marker filling : Bytes) : Bytes := (marker ++ 0 :: filling).take markerRoom

def markerText (marker : String) : Bytes := marker.toList.map fun c => UInt8.ofNat c.toNat

/-- The image of an executable with this header. `reserved` stands between the tag and the words,
`unused` between the words and the marker, and `filling` behind the marker. -/
def image (h : Header) (reserved unused filling code : Bytes) : Bytes :=
  expectedMagic ++ reserved ++ h.fieldBytes ++ unused ++ markerField (markerText h.marker) filling ++ code

end PsxExe.Header
