import PsxExe.Command.Disk
import PsxExe.Header.Image
import PsxExe.Main
import PsxExe.Proofs.Load.Again
import PsxExe.Proofs.Load.Alike
import PsxExe.Proofs.Load.Interruption
import PsxExe.Proofs.Load.Placement
import PsxExe.Proofs.MemoryMap.Refusals
import PsxExe.Proofs.MemoryMap.RamWindows
import PsxExe.Proofs.Space.Mirrors
import PsxExe.Proofs.Space.Listings
import PsxExe.Proofs.MemoryMap.Accepted
import PsxExe.Proofs.MemoryMap.Labels
import PsxExe.Proofs.MemoryMap.TypedBlocks
import PsxExe.Proofs.Load.Symbols
import PsxExe.Proofs.Signature.Masked
import PsxExe.Proofs.Hardware.Exact
import PsxExe.Proofs.MemoryMap.Partition
import PsxExe.Proofs.Load.MirrorMatches
import PsxExe.Proofs.Header.RoundTrip
import PsxExe.Proofs.MemoryMap.Sizes
import PsxExe.Proofs.Instruction.Call
import PsxExe.Proofs.Load.MainCall
import PsxExe.Proofs.Label.History
import PsxExe.Proofs.Load.EntryPoint
import PsxExe.Proofs.Load.MainSearch
import PsxExe.Proofs.Space.Reads
import PsxExe.Proofs.Label.Spelling
import PsxExe.Proofs.Instruction.Target
import PsxExe.Proofs.MemoryMap.AnyOrder
import PsxExe.Proofs.Command.Source
import PsxExe.Proofs.Hardware.Expansion
import PsxExe.Proofs.Report.Document
