import PsxExe.Signature.Pattern

/-!
# Signatures of startup code

The startup code of the PsyQ tools calls the main function by a fixed sequence: `nop`, `jal main`,
`nop`, `break 1`. The operand of the call may be anything.
-/

namespace PsxExe

/-- The call of the main function by PsyQ startup code; the call is the second instruction. -/
def psyqMainCall : Signature where
  name := "psyq_main_call"
  pattern :=
    List.replicate 4 ⟨0, 0xFF⟩ ++ List.replicate 4 ⟨0, 0⟩ ++ List.replicate 4 ⟨0, 0xFF⟩ ++
      [⟨0x4D, 0xFF⟩, ⟨0, 0xFF⟩, ⟨0, 0xFF⟩, ⟨0, 0xFF⟩]
  skip := 4

def entrySignatures : List Signature := [psyqMainCall]

end PsxExe
