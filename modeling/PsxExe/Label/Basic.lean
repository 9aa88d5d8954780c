import PsxExe.Text.Hex
import PsxExe.Text.Quoted

/-!
# Labels

A label gives a name to an address. It is of one of four kinds and remembers the name of the region
that its address lay in when it was made.
-/

namespace PsxExe

inductive LabelKind where
  | entryPoint
  | function
  | register
  | data
deriving DecidableEq, Repr, Inhabited

structure UnknownKind where
  word : String
deriving DecidableEq, Repr

def UnknownKind.message (e : UnknownKind) : String :=
  Text.Quoted.text e.word ++ " is not a valid LabelType"

namespace LabelKind

def all : List LabelKind := [entryPoint, function, register, data]

def word : LabelKind → String
  | entryPoint => "entry_point"
  | function => "function"
  | register => "register"
  | data => "data"

def ofWord (word : String) : Except UnknownKind LabelKind :=
  match all.find? (·.word == word) with
  | some kind => .ok kind
  | none => .error ⟨word⟩

end LabelKind

/-- A named address. `region` is empty where nothing was mapped. -/
structure Label where
  address : Int
  name : String
  kind : LabelKind
  region : String
deriving DecidableEq, Repr, Inhabited

inductive LabelError where
  | invalidName (name : String)
  | alreadyDefined (name : String) (address : Int)
deriving DecidableEq, Repr

def LabelError.message : LabelError → String
  | invalidName name => "Invalid label name: " ++ Text.Quoted.text name
  | alreadyDefined name address => s!"Label {name} already defined at {Hex.address address}"

end PsxExe
