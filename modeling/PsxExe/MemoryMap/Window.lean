import PsxExe.Extent

/-!
# The windows on the RAM

The console has 2 MiB of RAM, and programs see it through three windows: low, cached and uncached. A RAM
address is carried from one window to another by its low 24 bits.
-/

namespace PsxExe

inductive Window where
  | kuseg
  /-- The cached window, in which programs run. -/
  | kseg0
  | kseg1
deriving DecidableEq, Repr

namespace Window

def base : Window → Int
  | kuseg => 0x00000000
  | kseg0 => 0x80000000
  | kseg1 => 0xA0000000

def suffix : Window → String
  | kuseg => "_A"
  | kseg0 => "_B"
  | kseg1 => "_C"

/-- The windows that repeat what the cached one shows, in the order in which they are mapped. -/
def mirrors : List Window := [kuseg, kseg1]

end Window

def ramSize : Int := 0x200000

/-- An address seen through the window that starts at `base`. -/
def mirrorAddress (address base : Int) : Int := base + address % 0x1000000

end PsxExe
