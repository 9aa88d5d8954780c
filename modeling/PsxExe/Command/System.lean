import PsxExe.Bytes
import PsxExe.Command.Path
import PsxExe.Text.Quoted

/-!
# What the command asks of its surroundings

Files, directories, two streams of text, and a clock. The command is written for any monad that provides
them, so that it runs on a disk and on a value that stands for one.
-/

namespace PsxExe

inductive FileProblem where
  | missing
  | alreadyThere
  | notDirectory
  | isDirectory
  | nameTooLong
  /-- The path holds a zero character, so that the system is not even asked. -/
  | zeroCharacter
  | other (code : Nat) (text : String)
deriving DecidableEq, Repr

def FileProblem.code? : FileProblem → Option Nat
  | missing => some 2
  | alreadyThere => some 17
  | notDirectory => some 20
  | isDirectory => some 21
  | nameTooLong => some 36
  | zeroCharacter => none
  | other code _ => some code

def FileProblem.text : FileProblem → String
  | missing => "No such file or directory"
  | alreadyThere => "File exists"
  | notDirectory => "Not a directory"
  | isDirectory => "Is a directory"
  | nameTooLong => "File name too long"
  | zeroCharacter => "embedded null byte"
  | other _ text => text

def pathLimit : Nat := 4095

def nameLimit : Nat := 255

/-- The problem with a path that can be seen without looking it up. -/
def Path.problem? (p : Path) : Option FileProblem :=
  if '\x00' ∈ p.toString.toList then some .zeroCharacter
  else if pathLimit < p.toString.utf8ByteSize then some .nameTooLong
  else none

structure FileError where
  problem : FileProblem
  path : Path
deriving DecidableEq, Repr

def FileError.message (e : FileError) : String :=
  match e.problem.code? with
  | none => e.problem.text
  | some code => s!"[Errno {code}] {e.problem.text}: {Text.Quoted.text e.path.toString}"

/-- What the command needs to run. -/
class Surroundings (m : Type → Type) where
  readFile : Path → m (Except FileProblem Bytes)
  isDirectory : Path → m Bool
  makeDirectory : Path → m (Except FileProblem Unit)
  writeFile : Path → String → m (Except FileProblem Unit)
  print : String → m Unit
  printError : String → m Unit
  clock : m Nat

variable {m : Type → Type} [Monad m] [Surroundings m]

def ensureDirectory (p : Path) : m (Except FileError Unit) := do
  match ← Surroundings.makeDirectory p with
  | .ok () => return .ok ()
  | .error problem =>
    return if ← Surroundings.isDirectory p then .ok () else .error ⟨problem, p⟩

/-- Makes a directory and the directories above it, down to `depth` names from the end of the path,
where they are missing. -/
def ensureDirectories (p : Path) : (depth : Nat) → m (Except FileError Unit)
  | 0 => ensureDirectory p
  | depth + 1 => do
    match ← Surroundings.makeDirectory p with
    | .ok () => return .ok ()
    | .error .missing =>
      match ← ensureDirectories p.parent depth with
      | .ok () => ensureDirectory p
      | .error e => return .error e
    | .error problem =>
      return if ← Surroundings.isDirectory p then .ok () else .error ⟨problem, p⟩

/-- Writes files into a directory, in order, up to the first that cannot be written. -/
def writeFiles (directory : Path) : List (String × String) → m (Except FileError Unit)
  | [] => return .ok ()
  | (name, text) :: rest => do
    match ← Surroundings.writeFile (directory.child name) text with
    | .ok () => writeFiles directory rest
    | .error problem => return .error ⟨problem, directory.child name⟩

end PsxExe
