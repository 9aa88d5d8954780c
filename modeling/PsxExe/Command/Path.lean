/-!
# Paths

A path is a list of names, from the root if it starts with a slash. Repeated slashes, a slash at the end
and names that are a single dot mean nothing and are dropped; a double dot is kept. Exactly two
slashes in front are a root of their own.
-/

namespace PsxExe

/-- A path in a file system. `root` is empty for a path from the working directory. -/
structure Path where
  root : String
  names : List String
deriving DecidableEq, Repr, Inhabited

namespace Path

def splitNames (s : String) : List String :=
  (s.splitOn "/").filter fun name => name != "" && name != "."

def ofString (s : String) : Path :=
  let slashes := s.toList.takeWhile (· == '/')
  ⟨if slashes.isEmpty then "" else if slashes.length = 2 then "//" else "/", splitNames s⟩

/-- The text of a path; the working directory is a dot. -/
def toString (p : Path) : String :=
  if p.root = "" ∧ p.names = [] then "." else p.root ++ String.intercalate "/" p.names

/-- The directory that holds what a path leads to; a path without names is its own. -/
def parent (p : Path) : Path := { p with names := p.names.dropLast }

def child (p : Path) (name : String) : Path := { p with names := p.names ++ [name] }

end Path

end PsxExe
