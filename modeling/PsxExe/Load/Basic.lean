import PsxExe.Header.Parser
import PsxExe.Instruction.Disassemble
import PsxExe.Load.Entry
import PsxExe.MemoryMap.Realize

/-!
# Loading an executable

A load reads the header, builds and realizes the memory map, declares the entry point and looks for the
main function. Only a file without a header, or the monitor, ends it early.
-/

namespace PsxExe

structure LoadResult where
  header : Header
  requests : List Request
  failures : List Failure
  mainAddress : Option Int
deriving DecidableEq, Repr

def LoadResult.entryPoint (r : LoadResult) : Int := r.header.initialPc

/-- A way in which a file can be loaded. -/
structure LoadSpec where
  loader : String
  language : String
  compiler : String
  imageBase : Int
  preferred : Bool
deriving DecidableEq, Repr

def loaderName : String := "PSX executables loader"

def loadSpec : LoadSpec := ⟨loaderName, "MIPS:LE:32:default", "default", 0, true⟩

/-- Reads a header, and notes down why there is none. -/
def noteHeader (parsed : Except HeaderError Header) : LoadM (Option Header) := do
  match parsed with
  | .ok h => return some h
  | .error e =>
    LoadM.note [.noHeader e]
    return none

/-- The ways in which a file can be loaded: none if it has no header. -/
def findLoadSpecs (file : Bytes) : LoadM (List LoadSpec) := do
  return if (← noteHeader (Header.parse file)).isSome then [loadSpec] else []

/-- The memory map of a header, with a note on every piece that is left out. A block of registers
without a layout ends the load. -/
def buildMemoryMap (h : Header) : LoadM (List Request) := do
  LoadM.note (h.skippedPieces.map .pieceSkipped)
  match hardwareRequests? with
  | .ok hardware => return h.programRequests ++ hardware
  | .error e => throw (.layout e)

def load (host : Host) (file : Bytes) : LoadM LoadResult := do
  match ← noteHeader (Header.parse file) with
  | none =>
    LoadM.say (loaderName ++ " : Cannot load")
    throw .unsupportedFormat
  | some h =>
    LoadM.say (loaderName ++ " : Start loading")
    LoadM.note [.loading h]
    let requests ← buildMemoryMap h
    let failures ← realize host file requests
    applyEntryPoint h
    LoadM.check
    let mainAddress ← locateMain host h entrySignatures
    LoadM.say (loaderName ++ " : Loading done")
    return ⟨h, requests, failures, mainAddress⟩

def defaultAllocationLimit : Int := 0x4000000

def defaultHost : Host := ⟨defaultAllocationLimit, Mips.decode⟩

end PsxExe
