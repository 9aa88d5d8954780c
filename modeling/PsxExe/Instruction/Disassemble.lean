import PsxExe.Instruction.Decode

/-!
# Reading MIPS words

A disassembler for a little-endian 32-bit MIPS processor, as far as PlayStation programs use it. A word
is cut into fields: the operation in the top six bits, three register numbers, a shift count and a
function, or a register pair and a sixteen-bit number. Some words have a shorter spelling, such as
`move` for an addition of zero. Words that mean nothing have no reading.
-/

namespace PsxExe.Mips

/-! ### Operands -/

def registerNames : List String :=
  ["$zero", "$at", "$v0", "$v1", "$a0", "$a1", "$a2", "$a3",
    "$t0", "$t1", "$t2", "$t3", "$t4", "$t5", "$t6", "$t7",
    "$s0", "$s1", "$s2", "$s3", "$s4", "$s5", "$s6", "$s7",
    "$t8", "$t9", "$k0", "$k1", "$gp", "$sp", "$fp", "$ra"]

def registerName (n : Nat) : String := registerNames.getD n ""

inductive Operand where
  | register (number : Nat)
  | numbered (number : Nat)
  | immediate (value : Int)
  | memory (base : Nat) (distance : Int)
deriving DecidableEq, Repr

namespace Operand

/-- A number in an operand: one digit in decimal, all else in hexadecimal, behind its sign. -/
def number (v : Int) : String :=
  let size := v.natAbs
  (if v < 0 then "-" else "") ++
    if size ≤ 9 then Nat.repr size else "0x" ++ Hex.padded .lower 0 size

def text : Operand → String
  | register n => registerName n
  | numbered n => "$" ++ Nat.repr n
  | immediate v => number v
  | memory base distance =>
    (if distance = 0 then "" else number distance) ++ "(" ++ registerName base ++ ")"

def kind : Operand → OperandKind
  | register _ | numbered _ => .register
  | immediate _ => .immediate
  | memory .. => .memory

end Operand

/-! ### Words -/

/-- The `length` bits of a word from bit `low` on. -/
def bits (word low length : Nat) : Nat := word / Nat.pow 2 low % Nat.pow 2 length

/-- The number of addresses that the decoder tells apart. -/
def addressSpan : Nat := 0x10000000000000000

/-- An address as the decoder holds it, in 64 bits. -/
def heldAddress (a : Int) : Int := a % addressSpan

/-- The place that a jump or branch leads to, as it is printed: a signed number of 64 bits. -/
def printedPlace (v : Int) : Operand := .immediate (Int.bmod v addressSpan)

/-- The fields of an instruction word and the address at which it stands. -/
structure Word where
  value : Nat
  address : Int
deriving DecidableEq, Repr

namespace Word

def op (w : Word) : Nat := bits w.value 26 6
def rs (w : Word) : Nat := bits w.value 21 5
def rt (w : Word) : Nat := bits w.value 16 5
def rd (w : Word) : Nat := bits w.value 11 5
def sa (w : Word) : Nat := bits w.value 6 5
def function (w : Word) : Nat := bits w.value 0 6
/-- The sixteen-bit number, unsigned. -/
def imm (w : Word) : Nat := bits w.value 0 16
/-- The sixteen-bit number, signed. -/
def simm (w : Word) : Int := signedHalf w.value

/-- The place that a branch leads to; it is not cut to 32 bits. -/
def branchPlace (w : Word) : Operand := printedPlace (w.address + 4 + w.simm * 4)

/-- The place that a jump leads to; it is not cut to 32 bits. -/
def jumpPlace (w : Word) : Operand :=
  printedPlace ((w.address + 4) / segmentSize * segmentSize + bits w.value 0 26 * 4)

end Word

abbrev Reading := String × List Operand

/-- A reading that stands only under a condition. -/
def provided (condition : Prop) [Decidable condition] (reading : Reading) : Option Reading :=
  if condition then some reading else none

/-- A number that is left out when it is zero. -/
def unlessZero (n : Nat) : List Operand := if n = 0 then [] else [.immediate n]

def arithmetic (w : Word) (name : String) : Option Reading :=
  let rd := Operand.register w.rd
  provided (w.sa = 0) <|
    if w.rt = 0 ∧ (name = "addu" ∨ name = "or") then ("move", [rd, .register w.rs])
    else if w.rt = 0 ∧ name = "nor" then ("not", [rd, .register w.rs])
    else if w.rs = 0 ∧ name = "sub" then ("neg", [rd, .register w.rt])
    else if w.rs = 0 ∧ name = "subu" then ("negu", [rd, .register w.rt])
    else (name, [rd, .register w.rs, .register w.rt])

def variableShift (w : Word) (name : String) : Option Reading :=
  provided (w.sa = 0) (name, [.register w.rd, .register w.rt, .register w.rs])

/-- The words of operation zero, by their function. -/
def special (w : Word) : Option Reading :=
  let shift : List Operand := [.register w.rd, .register w.rt, .immediate w.sa]
  match w.function with
  | 0x00 => provided (w.rs = 0) ("sll", shift)
  | 0x02 => if w.rs = 0 then some ("srl", shift) else provided (w.rs = 1) ("rotr", shift)
  | 0x03 => provided (w.rs = 0) ("sra", shift)
  | 0x04 => variableShift w "sllv"
  | 0x06 => variableShift w "srlv"
  | 0x07 => variableShift w "srav"
  | 0x08 => provided (w.rt = 0 ∧ w.rd = 0 ∧ w.sa = 0) ("jr", [.register w.rs])
  | 0x09 =>
    provided (w.rt = 0 ∧ w.sa = 0) <|
      if w.rd = 0 then ("jr", [.register w.rs])
      else if w.rd = 31 then ("jalr", [.register w.rs])
      else ("jalr", [.register w.rd, .register w.rs])
  | 0x0C => some ("syscall", unlessZero (bits w.value 6 20))
  | 0x0D =>
    let code := bits w.value 16 10
    let detail := bits w.value 6 10
    some ("break", if detail = 0 then unlessZero code else [.immediate code, .immediate detail])
  | 0x10 => provided (w.rt = 0 ∧ w.sa = 0 ∧ w.rs ≤ 3) ("mfhi", [.register w.rd])
  | 0x11 => provided (w.rt = 0 ∧ w.sa = 0 ∧ w.rd ≤ 3) ("mthi", [.register w.rs])
  | 0x12 => provided (w.rt = 0 ∧ w.sa = 0 ∧ w.rs ≤ 3) ("mflo", [.register w.rd])
  | 0x13 => provided (w.rt = 0 ∧ w.sa = 0 ∧ w.rd ≤ 3) ("mtlo", [.register w.rs])
  | 0x18 => provided (w.sa = 0) ("mult", [.register w.rs, .register w.rt])
  | 0x19 => provided (w.sa = 0) ("multu", [.register w.rs, .register w.rt])
  | 0x1A => provided (w.sa = 0 ∧ w.rd = 0) ("div", [.register 0, .register w.rs, .register w.rt])
  | 0x1B => provided (w.sa = 0 ∧ w.rd = 0) ("divu", [.register 0, .register w.rs, .register w.rt])
  | 0x20 => arithmetic w "add"
  | 0x21 => arithmetic w "addu"
  | 0x22 => arithmetic w "sub"
  | 0x23 => arithmetic w "subu"
  | 0x24 => arithmetic w "and"
  | 0x25 => arithmetic w "or"
  | 0x26 => arithmetic w "xor"
  | 0x27 => arithmetic w "nor"
  | 0x2A => arithmetic w "slt"
  | 0x2B => arithmetic w "sltu"
  | _ => none

def signBranch (w : Word) : Option Reading :=
  let plain (name : String) : Option Reading := some (name, [.register w.rs, w.branchPlace])
  match w.rt with
  | 0x00 => plain "bltz"
  | 0x01 => plain "bgez"
  | 0x02 => plain "bltzl"
  | 0x03 => plain "bgezl"
  | 0x10 => plain "bltzal"
  | 0x11 => if w.rs = 0 then some ("bal", [w.branchPlace]) else plain "bgezal"
  | 0x12 => plain "bltzall"
  | 0x13 => plain "bgezall"
  | _ => none

def compareBranch (w : Word) (name : String) : Reading :=
  (name, [.register w.rs, .register w.rt, w.branchPlace])

def zeroBranch (w : Word) (name : String) : Option Reading :=
  provided (w.rt = 0) (name, [.register w.rs, w.branchPlace])

def signedImmediate (w : Word) (name : String) : Option Reading :=
  some (name, [.register w.rt, .register w.rs, .immediate w.simm])

def unsignedImmediate (w : Word) (name : String) : Option Reading :=
  some (name, [.register w.rt, .register w.rs, .immediate w.imm])

def coprocessorMove (w : Word) (coprocessor : String) : Option Reading :=
  let operands : List Operand := [.register w.rt, .register w.rd, .immediate (bits w.value 0 3)]
  if bits w.value 3 8 ≠ 0 then none
  else if w.rs = 0 then some ("mfc" ++ coprocessor, operands)
  else provided (w.rs = 4) ("mtc" ++ coprocessor, operands)

def access (w : Word) (name : String) : Option Reading :=
  some (name, [.register w.rt, .memory w.rs w.simm])

def coprocessorAccess (w : Word) (name : String) : Option Reading :=
  some (name, [.numbered w.rt, .memory w.rs w.simm])

def read (w : Word) : Option Reading :=
  if w.value = 0 then some ("nop", [])
  else if w.value = 0x40 then some ("ssnop", [])
  else if w.value = 0xC0 then some ("ehb", [])
  else if w.value = 0x140 then some ("pause", [])
  else match w.op with
  | 0x00 => special w
  | 0x01 => signBranch w
  | 0x02 => some ("j", [w.jumpPlace])
  | 0x03 => some ("jal", [w.jumpPlace])
  | 0x04 =>
    some <| if w.rs = 0 ∧ w.rt = 0 then ("b", [w.branchPlace])
      else if w.rt = 0 then ("beqz", [.register w.rs, w.branchPlace])
      else compareBranch w "beq"
  | 0x05 =>
    some <| if w.rt = 0 then ("bnez", [.register w.rs, w.branchPlace]) else compareBranch w "bne"
  | 0x06 => zeroBranch w "blez"
  | 0x07 => zeroBranch w "bgtz"
  | 0x08 => signedImmediate w "addi"
  | 0x09 => signedImmediate w "addiu"
  | 0x0A => signedImmediate w "slti"
  | 0x0B => signedImmediate w "sltiu"
  | 0x0C => unsignedImmediate w "andi"
  | 0x0D => unsignedImmediate w "ori"
  | 0x0E => unsignedImmediate w "xori"
  | 0x0F => provided (w.rs = 0) ("lui", [.register w.rt, .immediate w.imm])
  | 0x10 => coprocessorMove w "0"
  | 0x12 => coprocessorMove w "2"
  | 0x14 => some (compareBranch w "beql")
  | 0x15 => some (compareBranch w "bnel")
  | 0x16 => zeroBranch w "blezl"
  | 0x17 => zeroBranch w "bgtzl"
  | 0x1D => some ("jalx", [w.jumpPlace])
  | 0x20 => access w "lb"
  | 0x21 => access w "lh"
  | 0x22 => access w "lwl"
  | 0x23 => access w "lw"
  | 0x24 => access w "lbu"
  | 0x25 => access w "lhu"
  | 0x26 => access w "lwr"
  | 0x28 => access w "sb"
  | 0x29 => access w "sh"
  | 0x2A => access w "swl"
  | 0x2B => access w "sw"
  | 0x2E => access w "swr"
  | 0x32 => coprocessorAccess w "lwc2"
  | 0x3A => coprocessorAccess w "swc2"
  | _ => none

def disassemble : Disassembler := fun code address =>
  let w : Word := ⟨Bytes.littleEndian code, heldAddress address⟩
  (read w).map fun reading =>
    ⟨w.address, instructionSize, reading.1, String.intercalate ", " (reading.2.map Operand.text), code,
      some (reading.2.map Operand.kind)⟩

/-- The decoder that reads words so. -/
def decode : Decoder := decoder disassemble

end PsxExe.Mips
