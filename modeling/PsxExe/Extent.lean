/-!
# Ranges of addresses

An extent is a start address and a size, both arbitrary integers; it covers the addresses from its
start up to, and without, its stop.
-/

namespace PsxExe

def addressLimit : Int := 0x100000000

/-- A number as a 32-bit register holds it. -/
def word32 (v : Int) : Int := v % 0x100000000

structure Extent where
  address : Int
  size : Int
deriving DecidableEq, Repr, Inhabited

namespace Extent

def stop (e : Extent) : Int := e.address + e.size

theorem stop_eq (e : Extent) : e.stop = e.address + e.size := rfl

instance : Membership Int Extent := ⟨fun e a => e.address ≤ a ∧ a < e.stop⟩

theorem mem_iff {e : Extent} {a : Int} : a ∈ e ↔ e.address ≤ a ∧ a < e.stop := Iff.rfl

instance (e : Extent) (a : Int) : Decidable (a ∈ e) :=
  inferInstanceAs (Decidable (e.address ≤ a ∧ a < e.stop))

/-- Two ranges that reach into each other. -/
def Overlaps (e f : Extent) : Prop := e.address < f.stop ∧ f.address < e.stop

instance (e f : Extent) : Decidable (e.Overlaps f) :=
  inferInstanceAs (Decidable (e.address < f.stop ∧ f.address < e.stop))

theorem Overlaps.symm {e f : Extent} (h : e.Overlaps f) : f.Overlaps e := And.symm h

def InAddressSpace (e : Extent) : Prop := 0 ≤ e.address ∧ e.stop ≤ addressLimit

instance (e : Extent) : Decidable e.InAddressSpace :=
  inferInstanceAs (Decidable (0 ≤ e.address ∧ e.stop ≤ addressLimit))

end Extent

end PsxExe
