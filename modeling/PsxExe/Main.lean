import PsxExe.Command.Run

/-!
# The program

Runs the command on the real file system.
-/

namespace PsxExe

def FileProblem.ofCode (code : Nat) (text : String) : FileProblem :=
  ([.notDirectory, .isDirectory, .nameTooLong].find? (·.code? == some code)).getD (.other code text)

def FileProblem.ofError : IO.Error → FileProblem
  | .noFileOrDirectory .. => .missing
  | .alreadyExists .. => .alreadyThere
  | .inappropriateType _ code text => .ofCode code.toNat text
  | .illegalOperation code text => .ofCode code.toNat text
  | .permissionDenied _ code text => .other code.toNat text
  | .invalidArgument _ code text => .ofCode code.toNat text
  | .otherError code text => .ofCode code.toNat text
  | e => .other 0 e.toString

def attempt {α : Type} (p : Path) (action : IO α) : IO (Except FileProblem α) := do
  if let some problem := p.problem? then return .error problem
  match ← action.toBaseIO with
  | .ok value => return .ok value
  | .error e => return .error (.ofError e)

def readRealFile (p : Path) : IO (Except FileProblem Bytes) :=
  attempt p do return (← IO.FS.readBinFile p.toString).toList

instance : Surroundings IO where
  readFile := readRealFile
  isDirectory p := return match ← readRealFile p with
    | .error .isDirectory => true
    | _ => false
  makeDirectory p := attempt p (IO.FS.createDir p.toString)
  writeFile p text := attempt p (IO.FS.writeFile p.toString text)
  print text := do
    (← IO.getStdout).putStr text
    (← IO.getStdout).flush
  printError text := IO.eprint text
  clock := IO.monoMsNow

end PsxExe

def main (arguments : List String) : IO UInt32 := do
  return UInt32.ofNat (← PsxExe.Command.run PsxExe.defaultHost arguments)
