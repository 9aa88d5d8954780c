import PsxExe.Command.Arguments
import PsxExe.Command.Source
import PsxExe.Report.Document
import PsxExe.Report.Statistics

/-!
# The command

Loads one executable, prints statistics if asked to, and writes the databases unless asked not to. Each way
to end has its exit code: 0 for success and help, 1 for a file that is missing or no executable, 2 for
arguments that make no sense and for trouble with files, 130 for a load that was stopped.
-/

namespace PsxExe.Command

def name : String := "tools.psx_loader"

def defaultDirectory : String := "psx_loader_output"

def helpText : String := printed [
  s!"usage: {name} [-h] [-o OUTPUT_DIR] [--stats-only] [-v] exe_path",
  "",
  "PS-X EXE Loader - Reconstructs the PlayStation address space of an executable",
  "",
  "positional arguments:",
  "  exe_path              Path to the PS-X EXE file",
  "",
  "options:",
  "  -h, --help            show this help message and exit",
  "  -o OUTPUT_DIR, --output OUTPUT_DIR",
  s!"                        Output directory for JSON databases (default: {defaultDirectory}/)",
  "  --stats-only          Print statistics only, don't write output files",
  "  -v, --verbose         Verbose output with progress information"]

def secondsText (milliseconds : Nat) : String :=
  let hundredths := Text.Figures.nearestEven milliseconds 10
  let fraction := hundredths % 100
  Nat.repr (hundredths / 100) ++ "." ++ Nat.repr (fraction / 10) ++ Nat.repr (fraction % 10)

def shownEvents (verbose : Bool) (log : List Event) : List Event :=
  let least := if verbose then Level.info else .warning
  log.filter fun e => least.rank ≤ e.level.rank

variable {m : Type → Type} [Monad m] [Surroundings m]

/-- Writes the databases of a load into a directory, which is made if need be. -/
def writeDatabases (directory : Path) (verbose : Bool) (file : String) (s : AddressSpace)
    (r : LoadResult) : m (Except FileError Unit) := do
  match ← ensureDirectories directory directory.names.length with
  | .error e => return .error e
  | .ok () =>
    if verbose then
      Surroundings.print s!"  Writing JSON databases to {directory.toString}/\n"
    writeFiles directory ((databases file s r).map fun d => (d.1, d.2.render))

def reportFileError (e : FileError) : m Nat := do
  if e.problem = .missing then
    Surroundings.printError s!"Error: {e.message}\n"
    return 1
  else
    Surroundings.printError s!"Unexpected error: {e.message}\n"
    return 2

def reportLoadError : LoadError → m Nat
  | .unsupportedFormat => do
    Surroundings.printError s!"Error: {LoadError.unsupportedFormat.message}\n"
    return 1
  | .cancelled => do
    Surroundings.printError "\nInterrupted.\n"
    return 130
  | e => do
    Surroundings.printError s!"Unexpected error: {e.message}\n"
    return 2

def present (a : Arguments) (s : AddressSpace) (r : LoadResult) (elapsed : Nat) : m Nat := do
  if a.statsOnly || a.verbose then
    Surroundings.print (printed (statisticsLines a.path s r))
  let written ←
    if a.statsOnly then pure (.ok ())
    else do
      let directory := (a.output.filter (· != "")).getD defaultDirectory
      let written ← writeDatabases (Path.ofString directory) a.verbose a.path s r
      if a.verbose && written.isOk then
        Surroundings.print s!"\n  Output written to {directory}/\n"
      pure written
  match written with
  | .error e => reportFileError e
  | .ok () =>
    Surroundings.print s!"Done in {secondsText elapsed}s\n"
    return 0

def loadBytes (host : Host) (a : Arguments) (file : Bytes) (started : Nat) : m Nat := do
  let (outcome, progress) := (load host file).run.run ⟨∅, {}, []⟩
  if a.verbose then Surroundings.print (printed progress.monitor.heard)
  Surroundings.printError (printed ((shownEvents a.verbose progress.log).map Event.line))
  match outcome with
  | .error e => reportLoadError e
  | .ok result =>
    let elapsed := (← Surroundings.clock) - started
    present a progress.space result elapsed

def loadFile (host : Host) (a : Arguments) : m Nat := do
  let started ← Surroundings.clock
  match ← readExecutable a.path with
  | .ok file => loadBytes host a file started
  | .error (.missing path) =>
    Surroundings.printError s!"Error: {(SourceError.missing path).message}\n"
    return 1
  | .error (.unreadable cause) => reportFileError cause

/-- Runs the command with the given arguments, and gives the exit code. -/
def run (host : Host) (arguments : List String) : m Nat := do
  match parseArguments arguments with
  | .error e =>
    Surroundings.printError s!"{name}: error: {e.message}\n"
    return 2
  | .ok .showHelp =>
    Surroundings.print helpText
    return 0
  | .ok (.load a) => loadFile host a

end PsxExe.Command
