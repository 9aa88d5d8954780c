import PsxExe.Space.Access

/-!
# Annotating an address space

Typed data must lie in mapped memory; labels, functions and entry points can be anywhere. A label
remembers the region of its address. Register values are 32-bit.
-/

namespace PsxExe.AddressSpace

/-- Types `count` items of `width` bits at an address. -/
def createData (s : AddressSpace) (a width count : Int) : Except SpaceError AddressSpace := do
  if width ∉ [8, 16, 32] then throw (.unsupportedWidth width)
  let _ ← s.locate a (width / 8 * count)
  return { s with data := s.data.insert a ⟨width, count⟩ }

def regionNameAt (s : AddressSpace) (a : Int) : String :=
  ((s.regionAt a).map (·.name)).getD ""

/-- Binds a name to an address, and gives the label that has the name then. -/
def createLabel (s : AddressSpace) (a : Int) (name : String) (kind : LabelKind) :
    Except SpaceError (Label × AddressSpace) := do
  let (label, labels) ← (s.labels.add ⟨a, name, kind, s.regionNameAt a⟩).mapError .label
  return (label, { s with labels })

/-- Declares a function, and a label for it unless its name is a label there already. -/
def createFunction (s : AddressSpace) (a : Int) (name : String) :
    Except SpaceError AddressSpace := do
  let (_, s) ← s.createLabel a name .function
  return { s with functions := s.functions.insert a name }

def addEntryPoint (s : AddressSpace) (a : Int) : AddressSpace :=
  if a ∈ s.entryPoints then s else { s with entryPoints := s.entryPoints ++ [a] }

def setRegister (s : AddressSpace) (register : String) (value : Int) : AddressSpace :=
  { s with registers := s.registers.insert register (word32 value) }

/-- Decodes the instruction at an address and notes it down. Bytes of the region behind it are not
looked at. -/
def disassemble (s : AddressSpace) (host : Host) (a : Int) :
    Except SpaceError (Option Instruction × AddressSpace) :=
  match s.regionAt a with
  | none => return (none, s)
  | some r => do
    let code ← s.read a (min (r.stop - a) 4)
    match host.decoder code a with
    | none => return (none, s)
    | some i => return (some i, { s with instructions := s.instructions.insert a i })

end PsxExe.AddressSpace
