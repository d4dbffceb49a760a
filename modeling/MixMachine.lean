import MixMachine.CommandLine
import MixMachine.Device
import MixMachine.Field
import MixMachine.Image.Basic
import MixMachine.Image.Document
import MixMachine.Image.Text
import MixMachine.Instruction.Basic
import MixMachine.Instruction.Code
import MixMachine.Instruction.Text
import MixMachine.Json.Codec
import MixMachine.Json.Machine
import MixMachine.Json.Reader
import MixMachine.Json.Token
import MixMachine.Json.Value
import MixMachine.Json.Writer
import MixMachine.Listing
import MixMachine.Machine.Basic
import MixMachine.Machine.Counts
import MixMachine.Machine.Execute
import MixMachine.Machine.Run
import MixMachine.Main
import MixMachine.Memory
import MixMachine.Register
import MixMachine.Registers
import MixMachine.Sign
import MixMachine.Text.Blank
import MixMachine.Text.Decimal
import MixMachine.Text.Printable
import MixMachine.Text.Quoted
import MixMachine.Variants
import MixMachine.Word.Arithmetic
import MixMachine.Word.Basic
import MixMachine.Word.Text
import MixMachine.Proofs.MemoryAccess
import MixMachine.Proofs.Actions
import MixMachine.Proofs.Rules
import MixMachine.Proofs.Runs
import MixMachine.Proofs.Atomicity
import MixMachine.Proofs.Buffers
import MixMachine.Proofs.Opcodes
import MixMachine.Proofs.RegisterFile
import MixMachine.Proofs.EffectiveAddress
import MixMachine.Proofs.FailureConditions
import MixMachine.Proofs.Canonical
import MixMachine.Proofs.CanonicalRuns
import MixMachine.Proofs.Budgets
import MixMachine.Proofs.Encoding
import MixMachine.Proofs.Numerals
import MixMachine.Proofs.WordText
import MixMachine.Proofs.ImageText
import MixMachine.Proofs.Disassembly
import MixMachine.Proofs.Listings
import MixMachine.Proofs.ImageLoading
import MixMachine.Proofs.Flags
import MixMachine.Proofs.HeldBlocks
import MixMachine.Proofs.Linkage
import MixMachine.Proofs.ImageLines
import MixMachine.Proofs.Messages
import MixMachine.Proofs.CommandOutput
import MixMachine.Proofs.CommandRuns
import MixMachine.Proofs.WriteSets
import MixMachine.Proofs.CheckedWords
import MixMachine.Proofs.CheckedState
import MixMachine.Proofs.CheckedMachine
import MixMachine.Proofs.Moves
import MixMachine.Proofs.Advances
import MixMachine.Proofs.NegatedLoads
import MixMachine.Proofs.Sums
import MixMachine.Proofs.Products
import MixMachine.Proofs.FieldLenses
import MixMachine.Proofs.Shifts
import MixMachine.Proofs.Jumps
import MixMachine.Proofs.Comparisons
import MixMachine.Proofs.Indexing
import MixMachine.Proofs.WordNotations
import MixMachine.Proofs.DocumentText
import MixMachine.Proofs.ImageDocuments
