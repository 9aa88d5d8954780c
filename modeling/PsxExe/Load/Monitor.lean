/-!
# Monitors

A monitor carries messages from a load to its host and cancellation the other way. The loader asks it
before every step whether to go on. A monitor can also be set to cancel itself when it is asked for
the n-th time.
-/

namespace PsxExe

/-- A monitor: whether it is cancelled, the message that was last set, the messages that its listener
has heard, if it has one, how often it was asked, and at which asking it cancels itself. -/
structure Monitor where
  cancelled : Bool := false
  message : String := ""
  hasListener : Bool := true
  heard : List String := []
  checks : Nat := 0
  cancelAt : Option Nat := none
deriving DecidableEq, Repr, Inhabited

namespace Monitor

def cancel (m : Monitor) : Monitor := { m with cancelled := true }

/-- The monitor after it has been asked whether to go on; it says no if it is cancelled then. -/
def check (m : Monitor) : Monitor :=
  { m with
    cancelled := m.cancelled || m.cancelAt == some m.checks
    checks := m.checks + 1 }

def say (m : Monitor) (message : String) : Monitor :=
  { m with
    message
    heard := if m.hasListener then m.heard ++ [message] else m.heard }

end Monitor

end PsxExe
