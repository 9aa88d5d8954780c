import PsxExe.Bytes
import PsxExe.Space.Region

/-!
# Requests to an address space

What a memory map is made of: regions, mirrors of mapped memory, and typed data.
-/

namespace PsxExe

/-- A region to map. With a file offset it is filled from the file, without one it is zero. -/
structure RegionRequest where
  name : String
  extent : Extent
  permissions : Permissions
  fileOffset : Option Int
deriving DecidableEq, Repr

/-- A range that repeats the memory from `base` on. -/
structure MirrorRequest where
  name : String
  base : Int
  extent : Extent
deriving DecidableEq, Repr

/-- Typed data, with a label if it has a name that is not empty. -/
structure DataRequest where
  address : Int
  width : Int
  count : Int
  name : Option String
deriving DecidableEq, Repr

inductive Request where
  | region (r : RegionRequest)
  | mirror (m : MirrorRequest)
  | data (d : DataRequest)
deriving DecidableEq, Repr

def DataRequest.label? (d : DataRequest) : Option String := d.name.filter (· != "")

namespace Request

def kindWord : Request → String
  | region _ => "RegionRequest"
  | mirror _ => "MirrorRequest"
  | data _ => "DataRequest"

/-- The name that a request carries, or nothing. -/
def name : Request → String
  | region r => r.name
  | mirror m => m.name
  | data d => d.name.getD ""

def address : Request → Int
  | region r => r.extent.address
  | mirror m => m.extent.address
  | data d => d.address

end Request

/-- The bytes of the file that a region asks for; none when it asks for zeros. -/
def RegionRequest.fileBytes (r : RegionRequest) (file : Bytes) : Option Bytes :=
  r.fileOffset.map fun offset => file.slice offset (offset + r.extent.size)

end PsxExe
