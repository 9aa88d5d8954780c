import PsxExe.Proofs.Load.Phases
import PsxExe.Proofs.Space.Aliasing

/-!
# What a load refuses

A file without a header is the only thing that a load refuses, and it is refused before the address space
is touched. Much else can go wrong on the way: requests may be rejected, labels may be taken, and calls may
not decode. Each refusal is of a kind for which the step has a handler, so it is recorded and the load goes
on. `OnlyCancels` is what is left to end a step, and it is found by following the load.
-/

namespace PsxExe

open AddressSpace LoadM

variable {host : Host} {file : Bytes} {p : Progress}

namespace LoadM

variable {α β : Type} {action : LoadM α} {next : α → LoadM β}

/-- Nothing but its monitor ends the step early. -/
def OnlyCancels (action : LoadM α) : Prop := ∀ p e, (action.exec p).1 = .error e → e = .cancelled

namespace OnlyCancels

theorem of_ok (h : ∀ p, ∃ a, (action.exec p).1 = .ok a) : OnlyCancels action := by
  intro p e he
  obtain ⟨a, ha⟩ := h p
  rw [ha] at he
  cases he

theorem bind (h : OnlyCancels action) (hnext : ∀ a, OnlyCancels (next a)) : OnlyCancels (action >>= next) := by
  intro p e he
  rw [exec_bind] at he
  rcases hrun : action.exec p with ⟨cause | a, q⟩
  · rw [hrun] at he
    obtain rfl : cause = e := Except.error.inj he
    exact h p cause (congrArg Prod.fst hrun)
  · rw [hrun] at he
    exact hnext a q e he

theorem pure (a : α) : OnlyCancels (Pure.pure a : LoadM α) := of_ok fun _ => ⟨a, rfl⟩

theorem say (message : String) : OnlyCancels (LoadM.say message) := of_ok fun _ => ⟨(), rfl⟩

theorem note (events : List Event) : OnlyCancels (LoadM.note events) := of_ok fun _ => ⟨(), rfl⟩

theorem check : OnlyCancels LoadM.check := by
  intro p e he
  rw [exec_check] at he
  split at he
  · exact (Except.error.inj he).symm
  · cases he

end OnlyCancels

end LoadM

/-- The shortest file that has a header; all its words are zero. -/
def blankImage : Bytes := Header.expectedMagic ++ List.replicate 48 0

def blankHeader : Header := ⟨Header.expectedMagic, 0, 0, ⟨0, 0⟩, ⟨0, 0⟩, ⟨0, 0⟩, 0, 0, ""⟩

theorem parse_blankImage : Header.parse blankImage = .ok blankHeader := by
  decide +kernel

end PsxExe
