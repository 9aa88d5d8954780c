import PsxExe.Command.System

/-!
# A disk as a value

A disk holds directories and files under their places, which are lists of names from the root, and what
has been printed. It answers the command as a file system does: every name on the way to a place
must be a directory.
-/

namespace PsxExe

abbrev Place := List String

/-- Directories, files and printed text. The root is always a directory. -/
structure Disk where
  workingDirectory : Place
  directories : List Place
  files : List (Place × Bytes)
  printed : String
  errors : String
deriving Inhabited

namespace Disk

inductive Entry where
  | directory
  | file (contents : Bytes)

def entry? (d : Disk) (place : Place) : Option Entry :=
  if place = [] ∨ place ∈ d.directories then some .directory
  else (d.files.lookup place).map .file

/-- Follows names from a place. What the last name leads to need not be there. -/
def follow (d : Disk) (place : Place) : List String → Except FileProblem Place
  | [] => .ok place
  | name :: rest =>
    match d.entry? place with
    | none => .error .missing
    | some (.file _) => .error .notDirectory
    | some .directory =>
      if nameLimit < name.utf8ByteSize then .error .nameTooLong
      else follow d (if name = ".." then place.dropLast else place ++ [name]) rest

def locate (d : Disk) (p : Path) : Except FileProblem Place :=
  match p.problem? with
  | some problem => .error problem
  | none => d.follow (if p.root = "" then d.workingDirectory else []) p.names

def find (d : Disk) (p : Path) : Except FileProblem Entry := do
  match d.entry? (← d.locate p) with
  | some entry => return entry
  | none => throw .missing

def contents (d : Disk) (p : Path) : Except FileProblem Bytes := do
  match ← d.find p with
  | .file contents => return contents
  | .directory => throw .isDirectory

def makeDirectory (d : Disk) (p : Path) : Except FileProblem Disk := do
  let place ← d.locate p
  match d.entry? place with
  | some _ => throw .alreadyThere
  | none => return { d with directories := d.directories ++ [place] }

def putFile (d : Disk) (place : Place) (contents : Bytes) : Disk :=
  { d with files := d.files.filter (·.1 != place) ++ [(place, contents)] }

def writeFile (d : Disk) (p : Path) (text : String) : Except FileProblem Disk := do
  let place ← d.locate p
  match d.entry? place with
  | some .directory => throw .isDirectory
  | _ => return d.putFile place text.toUTF8.toList

def wayTo (place : Place) : List Place :=
  (List.range (place.length + 1)).map place.take

def addDirectory (d : Disk) (place : Place) : Disk :=
  { d with directories := d.directories ++ (wayTo place).filter (· ∉ d.directories) }

def addFile (d : Disk) (place : Place) (contents : Bytes) : Disk :=
  (d.addDirectory place.dropLast).putFile place contents

/-- The working directory of a new disk. No path leads to it from above, because a name that is a dot
means nothing in a path. -/
def home : Place := ["."]

/-- A disk with directories and files in its working directory, given by their paths from there. -/
def ofContents (directories : List Path) (files : List (Path × Bytes)) : Disk :=
  let d : Disk := ⟨home, [home], [], "", ""⟩
  let d := directories.foldl (fun d p => d.addDirectory (home ++ p.names)) d
  files.foldl (fun d f => d.addFile (home ++ f.1.names) f.2) d

def listing (d : Disk) : List (String × Bytes) :=
  d.files.filterMap fun f =>
    if d.workingDirectory.isPrefixOf f.1 then
      some (String.intercalate "/" (f.1.drop d.workingDirectory.length), f.2)
    else none

/-- Keeps the disk that an operation gives, or the old one with the reason of a failure. -/
def commit (operation : Disk → Except FileProblem Disk) : StateM Disk (Except FileProblem Unit) := do
  match operation (← get) with
  | .ok d =>
    set d
    return .ok ()
  | .error problem => return .error problem

instance : Surroundings (StateM Disk) where
  readFile p := return (← get).contents p
  isDirectory p := return match (← get).find p with
    | .ok .directory => true
    | _ => false
  makeDirectory p := commit (·.makeDirectory p)
  writeFile p text := commit (·.writeFile p text)
  print text := modify fun d => { d with printed := d.printed ++ text }
  printError text := modify fun d => { d with errors := d.errors ++ text }
  clock := return 0

end Disk

end PsxExe
