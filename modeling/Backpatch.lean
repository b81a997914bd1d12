import Backpatch.Assemble
import Backpatch.Assembly
import Backpatch.CommandLine.Directory
import Backpatch.CommandLine.Options
import Backpatch.CommandLine.Path
import Backpatch.CommandLine.Run
import Backpatch.CommandLine.Shell
import Backpatch.Config
import Backpatch.ConfigFile
import Backpatch.Draft
import Backpatch.Image
import Backpatch.Isa.Disassembly
import Backpatch.Isa.Encoding
import Backpatch.Isa.Opcode
import Backpatch.Isa.Register
import Backpatch.Main
import Backpatch.Patch.Field
import Backpatch.Patch.Plan
import Backpatch.PatchError
import Backpatch.Proofs.CommandLine.Arguments
import Backpatch.Proofs.CommandLine.Files
import Backpatch.Proofs.CommandLine.Order
import Backpatch.Proofs.CommandLine.Run
import Backpatch.Proofs.Draft
import Backpatch.Proofs.Image
import Backpatch.Proofs.Image.History
import Backpatch.Proofs.Isa.Encoding
import Backpatch.Proofs.Isa.Fields
import Backpatch.Proofs.Isa.Register
import Backpatch.Proofs.Patch.Atomic
import Backpatch.Proofs.Patch.Consistency
import Backpatch.Proofs.Patch.Diagnosis
import Backpatch.Proofs.Patch.Faults
import Backpatch.Proofs.Patch.Field
import Backpatch.Proofs.Patch.Order
import Backpatch.Proofs.Patch.Outcome
import Backpatch.Proofs.Patch.Plan
import Backpatch.Proofs.Patch.Range
import Backpatch.Proofs.Patch.Repeat
import Backpatch.Proofs.Reachable
import Backpatch.Proofs.Run.Coherence
import Backpatch.Proofs.Run.Failure
import Backpatch.Proofs.Run.Log
import Backpatch.Proofs.Run.Phases
import Backpatch.Proofs.Run.Rephrase
import Backpatch.Proofs.Run.Step
import Backpatch.Proofs.Run.Words
import Backpatch.Proofs.Source.Disassembly
import Backpatch.Proofs.Source.Errors
import Backpatch.Proofs.Source.Grammar
import Backpatch.Proofs.Source.Labels
import Backpatch.Proofs.Source.Layout
import Backpatch.Proofs.Source.Listing
import Backpatch.Proofs.Source.Meaning
import Backpatch.Proofs.Source.Operand
import Backpatch.Proofs.Source.Program
import Backpatch.Proofs.Source.Quotation
import Backpatch.Proofs.Source.Recording
import Backpatch.Proofs.Source.Relayout
import Backpatch.Proofs.Source.Relocation
import Backpatch.Proofs.Source.Report
import Backpatch.Proofs.Source.Reread
import Backpatch.Proofs.Source.Resolution
import Backpatch.Proofs.Source.Restyle
import Backpatch.Proofs.Source.Statement
import Backpatch.Proofs.Source.Target
import Backpatch.Proofs.Source.Transfer
import Backpatch.Proofs.SymbolTable
import Backpatch.Proofs.SymbolTable.History
import Backpatch.Proofs.SymbolTable.Record
import Backpatch.Proofs.Text.Blank
import Backpatch.Proofs.Text.Literal
import Backpatch.Proofs.Text.Numeral
import Backpatch.Proofs.Text.Positional
import Backpatch.Proofs.Text.Split
import Backpatch.Source.Line
import Backpatch.Source.LineError
import Backpatch.Source.Operand
import Backpatch.Source.Statement
import Backpatch.SymbolTable
import Backpatch.Text.Blank
import Backpatch.Text.Numeral
import Backpatch.Text.Split
import Backpatch.Toml.Document
import Backpatch.Toml.Reader
import Backpatch.Toml.Scalar
import Backpatch.Toml.Value
import Backpatch.Word
