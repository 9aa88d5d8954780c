import PsxExe.Json
import PsxExe.Load.Basic

/-!
# The databases

The JSON documents that describe a load: the memory map, the labels, and a summary of both with the
header and the requests that failed. Addresses are hexadecimal texts, sizes and counts are numbers.
-/

namespace PsxExe

def addressDocument (a : Int) : Json := .text (Hex.address a)

def Header.fields (h : Header) : List (String × Json) := [
  ("initial_pc", addressDocument h.initialPc),
  ("initial_gp", addressDocument h.initialGp),
  ("load_address", addressDocument h.code.address),
  ("code_size", .integer h.code.size),
  ("data_address", addressDocument h.data.address),
  ("data_size", .integer h.data.size),
  ("bss_address", addressDocument h.bss.address),
  ("bss_size", .integer h.bss.size),
  ("stack_base", addressDocument h.stackBase),
  ("stack_offset", .integer h.stackOffset),
  ("marker", .text h.marker)]

/-- The fields of a region; only a mirror tells what it repeats. -/
def Region.fields (r : Region) : List (String × Json) :=
  [("name", .text r.name),
    ("start", addressDocument r.address),
    ("end", addressDocument r.stop),
    ("size", .integer r.size),
    ("permissions", .text r.permissions.text),
    ("initialized", .boolean r.initialized)] ++
  match r.mirrorOf with
  | none => []
  | some base => [("mirror_of", addressDocument base)]

def Label.fields (l : Label) : List (String × Json) := [
  ("address", addressDocument l.address),
  ("name", .text l.name),
  ("type", .text l.kind.word),
  ("section", .text l.region)]

/-- The fields of an instruction; only one with references tells them. -/
def Instruction.fields (i : Instruction) : List (String × Json) :=
  [("address", addressDocument i.address),
    ("size", .integer i.size),
    ("mnemonic", .text i.mnemonic),
    ("op_str", .text i.operandText),
    ("bytes", .text (Hex.ofBytes i.bytes))] ++
  if i.references.isEmpty then []
  else [("refs", .object (i.references.map fun r => (Nat.repr r.1, addressDocument r.2)))]

def Failure.fields (f : Failure) : List (String × Json) := [
  ("kind", .text f.request.kindWord),
  ("name", .text f.request.name),
  ("address", addressDocument f.request.address),
  ("error", .text f.cause.message)]

def LoadResult.fields (r : LoadResult) : List (String × Json) := [
  ("header", .object r.header.fields),
  ("entry_point", addressDocument r.entryPoint),
  ("main", (r.mainAddress.map addressDocument).getD .null),
  ("requests", .integer r.requests.length),
  ("failures", .list (r.failures.map fun f => .object f.fields))]

def summaryDocument (file : String) (s : AddressSpace) (r : LoadResult) : Json :=
  .object <|
    [("binary", .text file)] ++ r.fields ++
    [("regions", .integer s.regions.length),
      ("labels", .integer s.labels.size),
      ("register_defaults",
        .object (s.registers.entries.map fun e => (e.1, addressDocument e.2))),
      ("entry_points", .list (s.entryPoints.map addressDocument))]

def memoryMapDocument (s : AddressSpace) : Json :=
  .list (s.regions.map fun r => .object r.fields)

def labelsDocument (s : AddressSpace) : Json :=
  .list (s.labels.listing.map fun l => .object l.fields)

/-- The databases with the names of their files, in the order in which they are written. -/
def databases (file : String) (s : AddressSpace) (r : LoadResult) : List (String × Json) := [
  ("summary.json", summaryDocument file s r),
  ("memory_map.json", memoryMapDocument s),
  ("labels.json", labelsDocument s)]

end PsxExe
