import PsxExe.Extent

/-!
# Targets of jumps and branches

A jump keeps the 256 MiB segment of the instruction behind it and takes the rest of the target from the
low 26 bits of its word. A branch adds a signed count of words, the low 16 bits, to the address of
the instruction behind it. Both are answered for arbitrary integers; targets are 32-bit addresses. The
way back, from a target to a word, is `jumpWord` and `branchWord`.
-/

namespace PsxExe

/-- The number of addresses in a segment that a jump cannot leave. -/
def segmentSize : Int := 0x10000000

/-- The target of a jump word at an address. -/
def jumpTarget (word address : Int) : Int :=
  word32 (address + 4) / segmentSize * segmentSize + word % 0x4000000 * 4

/-- The signed number in the low sixteen bits of a word. -/
def signedHalf (word : Int) : Int := Int.bmod word 0x10000

def branchTarget (word address : Int) : Int :=
  word32 (address + 4 + signedHalf word * 4)

/-- The word of a jump to a target, with the operation in its top six bits. -/
def jumpWord (operation target : Int) : Int := operation * 0x4000000 + target / 4 % 0x4000000

/-- The word of a branch over a number of words, with `upper` in its other sixteen bits. -/
def branchWord (upper distance : Int) : Int := upper * 0x10000 + distance % 0x10000

end PsxExe
