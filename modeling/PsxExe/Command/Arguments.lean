import PsxExe.Text.Digit
import PsxExe.Text.Line
import PsxExe.Text.Quoted

/-!
# Command line arguments

The command takes one path and a few options, in any order. A long option can be cut short as long as it
stays the only one that starts so, and its value can follow behind an equals sign. Short options can
be joined, and a value can be joined behind the last of them; an equals sign right behind the first of
them is dropped, and any other one is taken as it stands. Behind two dashes everything is an operand;
a single dash, a negative number and an unknown word with a blank in it are operands as well.
-/

namespace PsxExe.Command

inductive Flag where
  | help
  | output
  | statsOnly
  | verbose
deriving DecidableEq, Repr

namespace Flag

def names : List (String × Flag) := [
  ("-h", help), ("--help", help), ("-o", output), ("--output", output),
  ("--stats-only", statsOnly), ("-v", verbose), ("--verbose", verbose)]

def ofName? (name : String) : Option Flag := names.lookup name

def title (f : Flag) : String :=
  String.intercalate "/" ((names.filter (·.2 == f)).map (·.1))

def takesValue (f : Flag) : Bool := f == output

end Flag

inductive UsageError where
  | missingPath
  | unrecognized (arguments : List String)
  | expectedValue (flag : Flag)
  | unexpectedValue (flag : Flag) (value : String)
  | ambiguous (argument : String) (candidates : List String)
deriving DecidableEq, Repr

def UsageError.message : UsageError → String
  | missingPath => "the following arguments are required: exe_path"
  | unrecognized arguments => "unrecognized arguments: " ++ String.intercalate " " arguments
  | expectedValue flag => s!"argument {flag.title}: expected one argument"
  | unexpectedValue flag value =>
    s!"argument {flag.title}: ignored explicit argument {Text.Quoted.text value}"
  | ambiguous argument candidates =>
    let list := String.intercalate ", " candidates
    s!"ambiguous option: {argument} could match {list}"

inductive Token where
  | operand (text : String)
  /-- The two dashes behind which everything is an operand. -/
  | separator
  | long (flag : Flag) (value : Option String)
  | short (flag : Flag) (joined : Option (List Char))
  | unknown (text : String)
deriving DecidableEq, Repr

namespace Token

/-- Whether characters are a negative number, with a decimal point or without. The digits can be those
of any script, and a line break at the very end is not looked at. -/
def isNegativeNumber (cs : List Char) : Bool :=
  match Text.withoutFinalBreak cs with
  | '-' :: rest =>
    let digits := rest.takeWhile Text.isDecimalDigit
    match rest.dropWhile Text.isDecimalDigit with
    | [] => !digits.isEmpty
    | '.' :: fraction => !fraction.isEmpty && fraction.all Text.isDecimalDigit
    | _ => false
  | _ => false

/-- The characters in front of the first equals sign, and those behind it if there is one. -/
def splitValue (cs : List Char) : List Char × Option (List Char) :=
  let front := cs.takeWhile (· != '=')
  match cs.dropWhile (· != '=') with
  | [] => (front, none)
  | _ :: value => (front, some value)

def ofFlag (name : List Char) (flag : Flag) (value : Option (List Char)) : Token :=
  match name with
  | '-' :: '-' :: _ => long flag (value.map String.ofList)
  | _ => short flag value

def ofOther (cs : List Char) : Token :=
  if isNegativeNumber cs ∨ ' ' ∈ cs then operand (String.ofList cs) else unknown (String.ofList cs)

/-- The token for a long option that may be cut short. -/
def ofPrefix (cs name : List Char) (value : Option (List Char)) : Except UsageError Token :=
  match Flag.names.filter fun candidate => (name.isPrefixOf candidate.1.toList) with
  | [] => .ok (ofOther cs)
  | [(_, flag)] => .ok (long flag (value.map String.ofList))
  | candidates => .error (.ambiguous (String.ofList cs) (candidates.map (·.1)))

def ofArgument (argument : String) : Except UsageError Token :=
  match argument.toList with
  | '-' :: c :: rest =>
    let cs := '-' :: c :: rest
    let (name, value) := splitValue cs
    match Flag.ofName? argument, Flag.ofName? (String.ofList name) with
    | some flag, _ => .ok (ofFlag cs flag none)
    | none, some flag => .ok (ofFlag name flag value)
    | none, none =>
      if c = '-' then ofPrefix cs name value
      else match Flag.ofName? (String.ofList ['-', c]) with
        | some flag => .ok (short flag (some rest))
        | none => .ok (ofOther cs)
  | _ => .ok (operand argument)

def ofArguments : List String → Except UsageError (List Token)
  | [] => .ok []
  | "--" :: rest => .ok (separator :: rest.map operand)
  | argument :: rest => do
    let token ← ofArgument argument
    return token :: (← ofArguments rest)

end Token

structure Arguments where
  path : String
  output : Option String
  statsOnly : Bool
  verbose : Bool
deriving DecidableEq, Repr

inductive Job where
  | showHelp
  | load (arguments : Arguments)
deriving DecidableEq, Repr

/-- What has been read of the arguments. -/
structure Reading where
  path : Option String := none
  output : Option String := none
  statsOnly : Bool := false
  verbose : Bool := false
  help : Bool := false
  extras : List String := []
deriving DecidableEq, Repr

namespace Reading

def switch (r : Reading) : Flag → Reading
  | .help => { r with help := true }
  | .statsOnly => { r with statsOnly := true }
  | .verbose => { r with verbose := true }
  | .output => r

/-- Takes in the directory for the output. Two dashes are never a value: they take back what was
given before. -/
def give (r : Reading) (value : String) : Reading :=
  { r with output := if value = "--" then none else some value }

def extra (r : Reading) (argument : String) : Reading := { r with extras := r.extras ++ [argument] }

/-- Takes in a short option and the characters joined to it: its value if it takes one, and other short
options if not. The answer tells too which option is still waiting for its value. -/
def cluster (r : Reading) (flag : Flag) : List Char → Except UsageError (Reading × Option Flag)
  | [] =>
    if flag.takesValue then .ok (r.give "", none)
    else .error (.unexpectedValue flag "")
  | c :: rest =>
    if flag.takesValue then .ok (r.give (String.ofList (c :: rest)), none)
    else
      let r := r.switch flag
      match Flag.ofName? (String.ofList ['-', c]), rest with
      | none, _ => .error (.unexpectedValue flag (String.ofList (c :: rest)))
      | some next, [] => .ok (if next.takesValue then (r, some next) else (r.switch next, none))
      | some next, d :: others => cluster r next (d :: others)

def short (r : Reading) (flag : Flag) :
    Option (List Char) → Except UsageError (Reading × Option Flag)
  | some joined => r.cluster flag joined
  | none => .ok (if flag.takesValue then (r, some flag) else (r.switch flag, none))

/-- Takes in one token in front of the given ones. The answer tells too which option is waiting for
its value. -/
def token (r : Reading) (rest : List Token) : Token → Except UsageError (Reading × Option Flag)
  | .operand text => .ok (if r.path.isNone then { r with path := some text } else r.extra text, none)
  | .separator => .ok (if r.path.isNone && !rest.isEmpty then r else r.extra "--", none)
  | .unknown text => .ok (r.extra text, none)
  | .long flag none => .ok (if flag.takesValue then (r, some flag) else (r.switch flag, none))
  | .long flag (some value) =>
    if flag.takesValue then .ok (r.give value, none)
    else .error (.unexpectedValue flag value)
  | .short flag joined => r.short flag joined

/-- Two dashes that follow the path at once are taken with it. -/
def skipSeparator (path : Option String) : Token → List Token → List Token
  | .operand _, .separator :: rest => if path.isNone then rest else .separator :: rest
  | _, rest => rest

theorem length_skipSeparator_le (path : Option String) (t : Token) (rest : List Token) :
    (skipSeparator path t rest).length ≤ rest.length := by
  unfold skipSeparator
  split
  · split <;> simp
  · simp

/-- Reads the tokens that are left. `waiting` is an option whose value must be the next token. Nothing
behind a request for help is looked at. -/
def tokens (r : Reading) (waiting : Option Flag) : List Token → Except UsageError Reading
  | [] =>
    match waiting with
    | some flag => .error (.expectedValue flag)
    | none => .ok r
  | t :: rest =>
    match waiting, t with
    | some _, .operand value => tokens (r.give value) none rest
    | some flag, _ => .error (.expectedValue flag)
    | none, t =>
      if r.help then .ok r
      else do
        let (next, waiting) ← r.token rest t
        tokens next waiting (skipSeparator r.path t rest)
termination_by ts => ts.length
decreasing_by
  · simp
  · have := length_skipSeparator_le r.path t rest
    simp only [List.length_cons]
    omega

def finish (r : Reading) : Except UsageError Job :=
  if r.help then .ok .showHelp
  else match r.path, r.extras with
    | none, _ => .error .missingPath
    | some path, [] => .ok (.load ⟨path, r.output, r.statsOnly, r.verbose⟩)
    | some _, extras => .error (.unrecognized extras)

end Reading

def parseArguments (arguments : List String) : Except UsageError Job := do
  let tokens ← Token.ofArguments arguments
  let reading ← Reading.tokens {} none tokens
  reading.finish

end PsxExe.Command
