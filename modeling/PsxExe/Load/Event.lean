import PsxExe.Header.Parser
import PsxExe.Instruction.Basic
import PsxExe.MemoryMap.Build
import PsxExe.Space.Error

/-!
# The log of a load

What the loader notes down while it works. Every event has a level, the part of the program that it
comes from, and a wording.
-/

namespace PsxExe

inductive Level where
  | debug
  | info
  | warning
  | error
deriving DecidableEq, Repr

def Level.word : Level → String
  | debug => "DEBUG"
  | info => "INFO"
  | warning => "WARNING"
  | error => "ERROR"

def Level.rank : Level → Nat
  | debug => 0
  | info => 1
  | warning => 2
  | error => 3

/-- Something that the loader noted down. -/
inductive Event where
  | noHeader (cause : HeaderError)
  | pieceSkipped (piece : RamPiece)
  | fileTooShort (name : String) (held : Nat) (size offset : Int)
  | requestRefused (request : Request) (cause : SpaceError)
  | labelRefused (name : String) (cause : SpaceError)
  | entryRefused (pc : Int) (cause : SpaceError)
  | signatureMissing (name : String) (start : Int)
  | callUndecodable (address : Int)
  | noReference (instruction : Instruction)
  | mainRefused (target : Int) (cause : SpaceError)
  | mainFound (target call : Int)
  | loading (header : Header)
deriving DecidableEq, Repr

namespace Event

def level : Event → Level
  | noHeader _ => .debug
  | signatureMissing .. | mainFound .. | loading _ => .info
  | pieceSkipped _ | fileTooShort .. | callUndecodable _ | noReference _ => .warning
  | requestRefused .. | labelRefused .. | entryRefused .. | mainRefused .. => .error

def channel : Event → String
  | noHeader _ => "tools.psx_loader.header"
  | pieceSkipped _ | fileTooShort .. | requestRefused .. | labelRefused .. =>
    "tools.psx_loader.memmap"
  | entryRefused .. | signatureMissing .. | callUndecodable _ | noReference _ | mainRefused ..
  | mainFound .. => "tools.psx_loader.entry"
  | loading _ => "tools.psx_loader.loader"

/-- What a refused request was to create. -/
def subject (r : Request) : String :=
  if r.name = "" then "data at " ++ Hex.address r.address else r.name

def message : Event → String
  | noHeader (.badMagic found) => "Not a PS-X EXE: magic " ++ Text.Quoted.bytes found
  | noHeader (.truncated length) => s!"Truncated PS-X EXE header: {length} bytes"
  | pieceSkipped p =>
    s!"Skipping {p.nameIn .kseg0} at {Hex.address p.extent.address}: " ++
      s!"size {p.extent.size} is not positive"
  | fileTooShort name held size offset =>
    s!"{name}: file holds {Hex.amount held} of {Hex.amount size} bytes at offset " ++
      s!"{Hex.amount offset}, zero-filling the rest (truncated file?)"
  | requestRefused request cause => s!"Error creating {subject request}: {cause.message}"
  | labelRefused name cause => s!"Error creating label {name}: {cause.message}"
  | entryRefused pc cause => s!"Error setting entry point at {Hex.address pc}: {cause.message}"
  | signatureMissing name start => s!"Signature {name} not found after {Hex.address start}"
  | callUndecodable address => s!"Cannot disassemble call to main at {Hex.address address}"
  | noReference i =>
    s!"Instruction at {Hex.address i.address} ({i.mnemonic} {i.operandText}) " ++
      "has no operand reference"
  | mainRefused target cause => s!"Error setting main() at {Hex.address target}: {cause.message}"
  | mainFound target call =>
    s!"main() at {Hex.address target} (called from {Hex.address call})"
  | loading h =>
    s!"PC {Hex.address h.initialPc}  GP {Hex.address h.initialGp}  " ++
      s!"code {Hex.address h.code.address} (+{Hex.amount h.code.size})  " ++
      s!"SP {Hex.address h.stackPointer}"

def line (e : Event) : String := s!"{e.level.word} {e.channel}: {e.message}"

end Event

end PsxExe
