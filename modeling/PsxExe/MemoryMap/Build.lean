import PsxExe.Hardware.Catalog
import PsxExe.Header.Basic
import PsxExe.MemoryMap.Request
import PsxExe.MemoryMap.Window

/-!
# The memory map of an executable

The map depends on the header alone. The code splits the cached RAM window into three pieces, the RAM
below it, the code itself and the RAM above it, and each piece is repeated in the other two windows.
The data and bss sections, the scratchpad and the hardware registers follow.
-/

namespace PsxExe

/-- A piece of the cached RAM window. -/
structure RamPiece where
  name : String
  extent : Extent
  permissions : Permissions
  fileOffset : Option Int
deriving DecidableEq, Repr

namespace RamPiece

def nameIn (p : RamPiece) (w : Window) : String := p.name ++ w.suffix

/-- A piece without bytes is left out of the map. -/
def IsEmpty (p : RamPiece) : Prop := p.extent.size ≤ 0

instance (p : RamPiece) : Decidable p.IsEmpty := inferInstanceAs (Decidable (p.extent.size ≤ 0))

def mirrorIn (p : RamPiece) (w : Window) : Request :=
  .mirror ⟨p.nameIn w, p.extent.address, ⟨mirrorAddress p.extent.address w.base, p.extent.size⟩⟩

def requests (p : RamPiece) : List Request :=
  if p.IsEmpty then []
  else .region ⟨p.nameIn .kseg0, p.extent, p.permissions, p.fileOffset⟩ ::
    Window.mirrors.map p.mirrorIn

end RamPiece

namespace Header

/-- The pieces into which the code splits the RAM. The RAM pieces stay inside the cached window, even
if the code lies elsewhere. -/
def ramPieces (h : Header) : List RamPiece :=
  let ramStart := Window.kseg0.base
  let ramStop := ramStart + ramSize
  let above := max h.code.stop ramStart
  [⟨"RAM", ⟨ramStart, min h.code.address ramStop - ramStart⟩, .all, none⟩,
    ⟨"CODE", h.code, .readExecute, some Header.size⟩,
    ⟨"RAM", ⟨above, ramStop - above⟩, .all, none⟩]

def skippedPieces (h : Header) : List RamPiece := h.ramPieces.filter fun p => decide p.IsEmpty

/-- A section of the header that is present. -/
def sectionRequest (present : Bool) (name : String) (e : Extent) : List Request :=
  if present then [.region ⟨name, e, .all, none⟩] else []

end Header

def scratchpad : Extent := ⟨0x1F800000, 0x400⟩

/-- The area behind the scratchpad, of unknown use. -/
def behindScratchpad : Extent := ⟨0x1F800400, 0xC00⟩

namespace Hardware

def LayoutEntry.request : LayoutEntry → Request
  | .register e => .data ⟨e.address, e.width, 1, some e.name⟩
  | .filler e => .data ⟨e.address, 8, e.size, none⟩

/-- The requests for a block: its region, and the data in it. -/
def Block.requests (b : Block) (format : Text.Format := Text.fillTemplate) :
    Except LayoutError (List Request) :=
  (b.layout format).map fun entries =>
    .region ⟨b.name, b.extent, .readWrite, none⟩ :: entries.map LayoutEntry.request

end Hardware

/-- The requests for the console's registers, if every block has a layout. -/
def hardwareRequests? : Except Hardware.LayoutError (List Request) :=
  List.flatten <$> Hardware.catalog.mapM fun b => b.requests

def hardwareRequests : List Request := hardwareRequests?.toOption.getD []

/-- The requests for what the header describes, and for the memory on the processor's chip. -/
def Header.programRequests (h : Header) : List Request :=
  h.ramPieces.flatMap RamPiece.requests ++
    Header.sectionRequest h.hasData "DATA" h.data ++
    Header.sectionRequest h.hasBss "BSS" h.bss ++
    [.region ⟨"CACHE", scratchpad, .readWrite, none⟩,
      .region ⟨"UNK1", behindScratchpad, .readWrite, none⟩]

def Header.memoryMap (h : Header) : List Request := h.programRequests ++ hardwareRequests

end PsxExe
