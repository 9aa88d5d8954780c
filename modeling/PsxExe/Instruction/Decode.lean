import PsxExe.Instruction.Basic
import PsxExe.Instruction.Target

/-!
# Decoding instructions

A disassembler says how the word at an address reads. What it does not say is which addresses the
operands refer to; that is found out from the mnemonic and the word. Jumps and branches each have one
such operand: the first one of a jump, and the first number among those of a branch.
-/

namespace PsxExe.Mips

/-- What an operand is, as far as a disassembler tells. -/
inductive OperandKind where
  | register
  | immediate
  | memory
deriving DecidableEq, Repr

/-- An instruction as a disassembler gives it. Some instructions come without the kinds of their
operands. -/
structure Disassembly where
  address : Int
  size : Nat
  mnemonic : String
  operandText : String
  bytes : Bytes
  operands : Option (List OperandKind)
deriving DecidableEq, Repr

/-- What reads the bytes at an address as an instruction, if they are one. -/
abbrev Disassembler := Bytes → Int → Option Disassembly

/-- The operations, in the top six bits of a word, of jumps with a target in the word. -/
def jumpOperations : List Nat := [2, 3]

/-- The addresses that the operands of an instruction with the given word refer to. -/
def Disassembly.references (d : Disassembly) (word : Nat) : List (Nat × Int) :=
  if jumpMnemonics.contains d.mnemonic ∧ jumpOperations.contains (word >>> 26) then
    [(0, jumpTarget word d.address)]
  else if branchMnemonics.contains d.mnemonic then
    match (d.operands.getD []).findIdx? (· == .immediate) with
    | some position => [(position, branchTarget word d.address)]
    | none => []
  else []

def instructionSize : Nat := 4

/-- Decodes the instruction in the first four of the given bytes. -/
def decoder (disassemble : Disassembler) : Decoder := fun code address =>
  if code.length < instructionSize then none
  else
    let bytes := code.take instructionSize
    (disassemble bytes address).map fun d =>
      ⟨d.address, d.size, d.mnemonic, d.operandText, d.bytes, d.references (Bytes.littleEndian bytes)⟩

end PsxExe.Mips
