import PsxExe.Load.Event
import PsxExe.Load.Monitor
import PsxExe.Space.Basic

/-!
# Loads in progress

A load changes an address space step by step, notes events down, and asks its monitor before each step
whether to go on. When it stops, what it has done stays done: an error comes with the progress made. A
handler for an error goes on from there.
-/

namespace PsxExe

inductive LoadError where
  | cancelled
  | unsupportedFormat
  /-- The address space refused something, and there was no handler for it. -/
  | space (cause : SpaceError)
  | layout (cause : Hardware.LayoutError)
deriving DecidableEq, Repr

def LoadError.message : LoadError → String
  | cancelled => "Load cancelled"
  | unsupportedFormat => "Not a PS-X EXE: bad header magic"
  | space cause => cause.message
  | layout cause => cause.message

/-- How far a load has come. -/
structure Progress where
  space : AddressSpace
  monitor : Monitor
  log : List Event
deriving Inhabited

/-- A step of a load: it changes the progress and may end the load. -/
abbrev LoadM := ExceptT LoadError (StateM Progress)

namespace LoadM

/-- Stops if the monitor is cancelled. -/
def check : LoadM Unit := do
  modify fun p => { p with monitor := p.monitor.check }
  if (← get).monitor.cancelled then throw .cancelled

def say (message : String) : LoadM Unit :=
  modify fun p => { p with monitor := p.monitor.say message }

def note (events : List Event) : LoadM Unit :=
  modify fun p => { p with log := p.log ++ events }

def space : LoadM AddressSpace := return (← get).space

def modifySpace (f : AddressSpace → AddressSpace) : LoadM Unit :=
  modify fun p => { p with space := f p.space }

/-- Does something to the address space, and gives what comes of it. -/
def perform {α : Type} (operation : AddressSpace → Except SpaceError (α × AddressSpace)) : LoadM α := do
  match operation (← space) with
  | .ok (a, s) =>
    modifySpace fun _ => s
    return a
  | .error e => throw (.space e)

/-- Does something to the address space of which nothing else comes. -/
def alter (operation : AddressSpace → Except SpaceError AddressSpace) : LoadM Unit :=
  perform fun s => (operation s).map ((), ·)

/-- Runs a step, with a handler for refusals of the given kinds. It takes over where the step has
stopped; all other errors end the load. -/
def handling {α : Type} (kinds : List SpaceError.Kind) (step : LoadM α) (handler : SpaceError → LoadM α) :
    LoadM α :=
  tryCatch step fun
    | .space e => if e.isOf kinds then handler e else throw (.space e)
    | e => throw e

end LoadM

end PsxExe
