import PsxExe.Extent
import PsxExe.Label.Basic
import PsxExe.Text.Hex

/-!
# Refusals of an address space

Every way in which an address space refuses a request, and its wording. A handler does not look at the
single refusal but at its kind, and a handler for a kind is one for the narrower kinds too.
-/

namespace PsxExe

inductive SpaceError where
  | sizeNotPositive (region : String) (size : Int)
  | outsideAddressSpace (region : String) (extent : Extent)
  | overlap (region : String) (extent : Extent) (other : String) (otherExtent : Extent)
  | outOfStorage
  | cannotAllocate (region : String) (size : Int) (reason : String)
  | noMirrorBase (mirror : String) (base : Int)
  | mirrorRunsPast (mirror : String) (size base : Int) (region : String)
  | notMapped (address : Int)
  | crossesEnd (address size : Int) (region : String)
  | unsupportedWidth (width : Int)
  | label (cause : LabelError)
deriving DecidableEq, Repr

def rangeText (e : Extent) : String := Hex.address e.address ++ "-" ++ Hex.address e.stop

def SpaceError.message : SpaceError → String
  | sizeNotPositive region size => s!"Region {region}: size must be positive, got {size}"
  | outsideAddressSpace region e =>
    s!"Region {region}: {Hex.amount e.address}+{Hex.amount e.size} " ++
      "is outside the 32-bit address space"
  | overlap region e other f =>
    s!"Region {region} at {rangeText e} overlaps {other} at {rangeText f}"
  | outOfStorage => ""
  | cannotAllocate region size reason =>
    s!"Region {region}: cannot allocate {Hex.amount size} bytes: {reason}"
  | noMirrorBase mirror base => s!"Mirror {mirror}: no region at base {Hex.address base}"
  | mirrorRunsPast mirror size base region =>
    s!"Mirror {mirror}: {Hex.amount size} bytes from {Hex.address base} run past {region}"
  | notMapped address => s!"Address {Hex.address address} is not mapped"
  | crossesEnd address size region =>
    s!"Access {Hex.address address}+{size} crosses the end of {region}"
  | unsupportedWidth width => s!"Unsupported data width: {width}"
  | label cause => cause.message

namespace SpaceError

/-- The kinds of refusals that a handler can tell apart. -/
inductive Kind where
  /-- The numbers of the request are out of order, whatever is mapped. -/
  | value
  | label
  /-- Memory that the request needs is not there. -/
  | memory
  | conflict
  | storage
deriving DecidableEq, Repr

/-- The kind of which another one is a special case. -/
def Kind.wider : Kind → Option Kind
  | label => some value
  | conflict => some memory
  | value | memory | storage => none

def kind : SpaceError → Kind
  | sizeNotPositive .. | outsideAddressSpace .. | unsupportedWidth _ => .value
  | overlap .. => .conflict
  | cannotAllocate .. | noMirrorBase .. | mirrorRunsPast .. | notMapped _ | crossesEnd .. => .memory
  | outOfStorage => .storage
  | label _ => .label

/-- Whether a handler for the given kinds takes the refusal. -/
def isOf (e : SpaceError) (kinds : List Kind) : Bool :=
  kinds.any fun k => e.kind == k || e.kind.wider == some k

end SpaceError

end PsxExe
