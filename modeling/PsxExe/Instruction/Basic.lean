import PsxExe.Bytes
import PsxExe.Text.Hex

/-!
# Instructions

A decoded instruction: where it stands, how it reads, and the addresses that its operands refer to.
-/

namespace PsxExe

/-- A decoded instruction. `references` gives the address that an operand refers to, by the position
of the operand, in ascending order. -/
structure Instruction where
  address : Int
  size : Nat
  mnemonic : String
  operandText : String
  bytes : Bytes
  references : List (Nat × Int)
deriving DecidableEq, Repr

def jumpMnemonics : List String := ["j", "jal"]

def branchMnemonics : List String :=
  ["b", "bal", "beq", "bne", "blez", "bgtz", "bltz", "bgez", "bltzal", "bgezal", "beqz", "bnez"]

namespace Instruction

def isJump (i : Instruction) : Bool := jumpMnemonics.contains i.mnemonic

def isBranch (i : Instruction) : Bool := branchMnemonics.contains i.mnemonic

def reference (i : Instruction) (position : Nat) : Option Int := i.references.lookup position

end Instruction

/-- What turns the bytes at an address into an instruction, if they are one. -/
abbrev Decoder := Bytes → Int → Option Instruction

end PsxExe
