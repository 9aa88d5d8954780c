import PsxExe.Load.Scan
import PsxExe.Signature.Entry
import PsxExe.Space.Listing

/-!
# The entry point and the main function

The program starts at the initial program counter, which becomes the function `start`. The startup code
in front of the main function is known by its signatures; the target of the call in it becomes
`main`. Other startup code is no error, and leaves the main function unknown.
-/

namespace PsxExe

def entryName : String := "start"

def mainName : String := "main"

/-- Declares the entry point. What it has done before something is refused stays done. -/
def declareEntry (pc : Int) : LoadM Unit := do
  -- The label comes first: declaring a function keeps the kind of a label that exists.
  LoadM.alter fun s => (s.createLabel pc entryName .entryPoint).map (·.2)
  LoadM.alter fun s => s.createFunction pc entryName
  LoadM.modifySpace fun s => s.addEntryPoint pc

/-- Declares the entry point, and sets the registers that the program starts with even if a name is
refused. -/
def applyEntryPoint (h : Header) : LoadM Unit := do
  LoadM.handling [.label] (declareEntry h.initialPc) fun e => LoadM.note [.entryRefused h.initialPc e]
  LoadM.modifySpace fun s => s.setRegister "gp" h.initialGp
  LoadM.modifySpace fun s => s.setRegister "sp" h.stackPointer

/-- Labels the main function, and says whether its name was free for it. -/
def labelMain (target : Int) : LoadM Bool :=
  LoadM.handling [.label]
    (do
      LoadM.alter fun s => (s.createLabel target mainName .function).map (·.2)
      return true)
    fun e => do
      LoadM.note [.mainRefused target e]
      return false

/-- Looks for the main function by one signature after the other, and labels it. -/
def locateMain (host : Host) (h : Header) : List Signature → LoadM (Option Int)
  | [] => return none
  | signature :: rest => do
    match ← findSignature h.initialPc signature with
    | none =>
      LoadM.note [.signatureMissing signature.name h.initialPc]
      locateMain host h rest
    | some found =>
      let call := found + signature.skip
      match ← LoadM.perform fun s => s.disassemble host call with
      | none =>
        LoadM.note [.callUndecodable call]
        locateMain host h rest
      | some i =>
        match i.reference 0 with
        | none =>
          LoadM.note [.noReference i]
          locateMain host h rest
        | some target =>
          if ← labelMain target then
            LoadM.note [.mainFound target call]
            return some target
          else return none

end PsxExe
