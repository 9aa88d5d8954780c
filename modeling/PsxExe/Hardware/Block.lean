import PsxExe.Hardware.Register
import PsxExe.Sorting

/-!
# Blocks of hardware registers

A block is a range of addresses with registers in it. Its layout tiles the range: every register has an
entry of its own, and the bytes that belong to no register are covered by fillers.
-/

namespace PsxExe.Hardware

/-- A named range of addresses with the registers in it. -/
structure Block where
  name : String
  extent : Extent
  banks : List Bank
deriving DecidableEq, Repr

inductive LayoutEntry where
  | register (element : Element)
  /-- Bytes that belong to no register. -/
  | filler (extent : Extent)
deriving DecidableEq, Repr

inductive LayoutError where
  | template (cause : Text.TemplateError)
  /-- A register starts before the one in front of it, or the block, allows. -/
  | overlap (element : Element) (block : String)
  | runsPast (block : String) (stop : Int)
deriving DecidableEq, Repr

def LayoutError.message : LayoutError → String
  | .template cause => cause.message
  | .overlap element block =>
    s!"Register {element.name} at {Hex.address element.address} overlaps previous register in {block}"
  | .runsPast block stop => s!"Registers of {block} run past {Hex.address stop}"

/-- A filler between two addresses, where there is room for one. -/
def gap (start stop : Int) : List LayoutEntry :=
  if start < stop then [.filler ⟨start, stop - start⟩] else []

namespace Block

def bankElements (b : Block) (format : Text.Format := Text.fillTemplate) :
    Except Text.TemplateError (List Element) :=
  List.flatten <$> b.banks.mapM fun k => k.elements format

/-- The elements of all banks by address; elements at one address keep the order of the banks. -/
def elements (b : Block) (format : Text.Format := Text.fillTemplate) :
    Except Text.TemplateError (List Element) :=
  sortBy (fun e f => decide (e.address ≤ f.address)) <$> b.bankElements format

/-- The layout from an address on, given the elements that are still to come. -/
def tileFrom (b : Block) (cursor : Int) : List Element → Except LayoutError (List LayoutEntry)
  | [] => if b.extent.stop < cursor then .error (.runsPast b.name b.extent.stop)
      else .ok (gap cursor b.extent.stop)
  | e :: rest =>
    if e.address < cursor then .error (.overlap e b.name)
    else do
      let entries ← tileFrom b e.extent.stop rest
      return gap cursor e.address ++ .register e :: entries

def layout (b : Block) (format : Text.Format := Text.fillTemplate) :
    Except LayoutError (List LayoutEntry) :=
  match b.elements format with
  | .error cause => .error (.template cause)
  | .ok elements => b.tileFrom b.extent.address elements

end Block

end PsxExe.Hardware
