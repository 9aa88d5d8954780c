import PsxExe.Bytes

/-!
# Storage

The bytes behind a region. A storage has a size and gives a byte for every index; it starts as zeros,
and a write lays bytes over what was there. Regions that mirror each other share one storage.
-/

namespace PsxExe

structure Storage where
  size : Nat
  byteAt : Nat → UInt8

namespace Storage

def zeros (size : Nat) : Storage := ⟨size, fun _ => 0⟩

instance : Inhabited Storage := ⟨zeros 0⟩

/-- The byte at an index when `layer` lies over `under` from `offset` on. -/
def overlay (layer : Array UInt8) (offset : Nat) (under : Nat → UInt8) (i : Nat) : UInt8 :=
  if offset ≤ i ∧ i < offset + layer.size then layer.getD (i - offset) 0 else under i

def write (s : Storage) (offset : Nat) (bytes : Bytes) : Storage :=
  ⟨s.size, overlay bytes.toArray offset s.byteAt⟩

/-- The bytes from one position up to another, as `Bytes.slice` takes them. -/
def slice (s : Storage) (start stop : Int) : Bytes :=
  let first := Bytes.position s.size start
  (List.range' first (Bytes.position s.size stop - first)).map s.byteAt

def window (s : Storage) (offset length : Nat) : Array UInt8 :=
  Array.ofFn fun i : Fin length => s.byteAt (offset + i)

@[simp] theorem size_write (s : Storage) (offset : Nat) (bytes : Bytes) :
    (s.write offset bytes).size = s.size := rfl

theorem byteAt_write (s : Storage) (offset : Nat) (bytes : Bytes) (i : Nat) :
    (s.write offset bytes).byteAt i =
      if offset ≤ i ∧ i < offset + bytes.length then bytes.getD (i - offset) 0 else s.byteAt i := by
  simp [write, overlay]

end Storage

end PsxExe
