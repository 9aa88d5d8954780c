import PsxExe.Instruction.Disassemble
import PsxExe.Proofs.Instruction.Target

/-!
# Calls

A call is a jump that links, and its word has the number three in its top six bits. Of a disassembler it is asked
that it reads every such word as a `jal` of four bytes at its address. What the decoder makes of that is an
instruction whose first operand refers to the target that the other bits give.
-/

namespace PsxExe.Mips

variable {reader : Disassembler} {code : Bytes} {address : Int}

/-- The disassembler reads every call in the address space of the processor as one. -/
def Disassembler.ReadsCalls (reader : Disassembler) : Prop :=
  ∀ code address, code.length = instructionSize → 0 ≤ address → address < addressLimit →
    Bytes.littleEndian code >>> 26 = 3 →
    ∃ d, reader code address = some d ∧ d.address = address ∧ d.size = instructionSize ∧
      d.mnemonic = "jal" ∧ d.bytes = code

/-- The call in the bytes at an address. -/
structure IsCall (i : Instruction) (place : Int) (code : Bytes) : Prop where
  address : i.address = place
  size : i.size = instructionSize
  mnemonic : i.mnemonic = "jal"
  bytes : i.bytes = code
  reference : i.reference 0 = some (jumpTarget (Bytes.littleEndian code) place)

theorem Disassembly.references_jal {d : Disassembly} {word : Nat} (hname : d.mnemonic = "jal")
    (hcall : word >>> 26 = 3) : d.references word = [(0, jumpTarget word d.address)] := by
  rw [references, if_pos ⟨by rw [hname]; rfl, by rw [hcall]; rfl⟩]

theorem decoder_call (h : reader.ReadsCalls) (hlength : code.length = instructionSize) (hfrom : 0 ≤ address)
    (hto : address < addressLimit) (hcall : Bytes.littleEndian code >>> 26 = 3) :
    ∃ i, decoder reader code address = some i ∧ IsCall i address code := by
  obtain ⟨d, hd, rfl, hsize, hname, hbytes⟩ := h code address hlength hfrom hto hcall
  have htake : code.take instructionSize = code := by rw [← hlength, List.take_length]
  have hreferences := Disassembly.references_jal hname hcall
  refine ⟨⟨d.address, d.size, d.mnemonic, d.operandText, d.bytes, d.references (Bytes.littleEndian code)⟩, ?_,
    rfl, hsize, hname, hbytes, ?_⟩
  · rw [decoder, if_neg (by omega), htake]
    dsimp only
    rw [hd]
    rfl
  · rw [Instruction.reference, hreferences]
    rfl

theorem disassemble_readsCalls : Disassembler.ReadsCalls disassemble := by
  intro code address _ hfrom hto hcall
  have hheld : heldAddress address = address := by
    rw [addressLimit] at hto
    exact Int.emod_eq_of_lt hfrom (by rw [addressSpan]; omega)
  rw [Nat.shiftRight_eq_div_pow] at hcall
  have hop : Word.op ⟨Bytes.littleEndian code, address⟩ = 3 := by
    change Bytes.littleEndian code / 2 ^ 26 % 2 ^ 6 = 3
    omega
  have hread : read ⟨Bytes.littleEndian code, address⟩ =
      some ("jal", [Word.jumpPlace ⟨Bytes.littleEndian code, address⟩]) := by
    rw [read, if_neg (by dsimp only; omega), if_neg (by dsimp only; omega), if_neg (by dsimp only; omega),
      if_neg (by dsimp only; omega), hop]
    rfl
  rw [disassemble, hheld]
  simp only [hread, Option.map_some]
  exact ⟨_, rfl, rfl, rfl, rfl, rfl⟩

end PsxExe.Mips
