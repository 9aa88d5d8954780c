import PsxExe.Command.System
import PsxExe.Header.Parser

/-!
# The file of an executable

Reads the file that the command is given. A path that leads nowhere, or through a file, is told apart
from every other problem.
-/

namespace PsxExe.Command

inductive SourceError where
  | missing (path : String)
  | unreadable (cause : FileError)
deriving DecidableEq, Repr

def SourceError.message : SourceError → String
  | missing path => s!"PS-X EXE file not found: {path}"
  | unreadable cause => cause.message

/-- The problem with the file at a path. -/
def SourceError.ofProblem (path : String) : FileProblem → SourceError
  | .missing | .notDirectory | .zeroCharacter => missing path
  | problem => unreadable ⟨problem, Path.ofString path⟩

variable {m : Type → Type} [Monad m] [Surroundings m]

def readExecutable (path : String) : m (Except SourceError Bytes) :=
  return (← Surroundings.readFile (Path.ofString path)).mapError (.ofProblem path)

/-- The header of an executable, or why the file has none. Only the front of the file is looked at. -/
def readHeader (path : String) : m (Except SourceError (Except HeaderError Header)) :=
  return (← readExecutable path).map Header.parseFront

end PsxExe.Command
