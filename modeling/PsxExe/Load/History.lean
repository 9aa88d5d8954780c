import PsxExe.Load.Basic

/-!
# Histories of an address space

An address space is built by operations, each of which can fail; what a failed one has done stays done.
A space is reachable on a machine if some history of operations on that machine leads to it from the
empty one. Labels, entries and loads may come in any order and any number of times.
-/

namespace PsxExe

/-- The address space that a step of a load leaves behind, however the step ends. -/
def LoadM.spaceAfter {α : Type} (action : LoadM α) (s : AddressSpace) (m : Monitor) : AddressSpace :=
  (action.run.run ⟨s, m, []⟩).2.space

inductive Operation where
  | createRegion (name : String) (extent : Extent) (permissions : Permissions) (bytes : Option Bytes)
  | createMirror (name : String) (base : Int) (extent : Extent)
  | write (address : Int) (bytes : Bytes)
  | createData (address width count : Int)
  | createLabel (address : Int) (name : String) (kind : LabelKind)
  | createFunction (address : Int) (name : String)
  | addEntryPoint (address : Int)
  | setRegister (register : String) (value : Int)
  | disassemble (address : Int)
  | realize (file : Bytes) (requests : List Request) (monitor : Monitor)
  | applyEntryPoint (header : Header) (monitor : Monitor)
  | locateMain (header : Header) (signatures : List Signature) (monitor : Monitor)
  | load (file : Bytes) (monitor : Monitor)

/-- The address space after an operation. One that is refused as a whole leaves it as it was. -/
def Operation.run (host : Host) (s : AddressSpace) : Operation → AddressSpace
  | createRegion name extent permissions bytes =>
    ((s.createRegion host name extent permissions bytes).map (·.2)).toOption.getD s
  | createMirror name base extent => ((s.createMirror name base extent).map (·.2)).toOption.getD s
  | write address bytes => (s.write address bytes).toOption.getD s
  | createData address width count => (s.createData address width count).toOption.getD s
  | createLabel address name kind => ((s.createLabel address name kind).map (·.2)).toOption.getD s
  | createFunction address name => (s.createFunction address name).toOption.getD s
  | addEntryPoint address => s.addEntryPoint address
  | setRegister register value => s.setRegister register value
  | disassemble address => ((s.disassemble host address).map (·.2)).toOption.getD s
  | realize file requests monitor => (PsxExe.realize host file requests).spaceAfter s monitor
  | applyEntryPoint header monitor => (PsxExe.applyEntryPoint header).spaceAfter s monitor
  | locateMain header signatures monitor =>
    (PsxExe.locateMain host header signatures).spaceAfter s monitor
  | load file monitor => (PsxExe.load host file).spaceAfter s monitor

def Operation.runAll (host : Host) (s : AddressSpace) (operations : List Operation) : AddressSpace :=
  operations.foldl (fun s o => o.run host s) s

/-- The address spaces to which a history of operations leads. -/
inductive AddressSpace.Reachable (host : Host) : AddressSpace → Prop
  | empty : Reachable host ∅
  | step {s : AddressSpace} (h : Reachable host s) (o : Operation) : Reachable host (o.run host s)

/-- The address spaces to which a history of operations leads when each of them may find a machine of its
own, with another allocation limit or decoder. -/
inductive AddressSpace.Built : AddressSpace → Prop
  | empty : Built ∅
  | step {s : AddressSpace} (h : Built s) (host : Host) (o : Operation) : Built (o.run host s)

/-- The address spaces to which a history of operations leads when the decoder is always the same, and
only the allocation limit may change between operations. -/
inductive AddressSpace.BuiltWith (decoder : Decoder) : AddressSpace → Prop
  | empty : BuiltWith decoder ∅
  | step {s : AddressSpace} (h : BuiltWith decoder s) (limit : Int) (o : Operation) :
      BuiltWith decoder (o.run ⟨limit, decoder⟩ s)

end PsxExe
