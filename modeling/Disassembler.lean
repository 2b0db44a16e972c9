import Disassembler.Binary.Cursor
import Disassembler.Binary.Fetch
import Disassembler.Binary.Packed
import Disassembler.Binary.Word
import Disassembler.Command.Launch
import Disassembler.Command.Options
import Disassembler.Command.Output
import Disassembler.Command.Session
import Disassembler.Command.Tools
import Disassembler.CommandLine
import Disassembler.Decimal.Binary
import Disassembler.Decimal.Parser
import Disassembler.Decimal.Printer
import Disassembler.Dictionary
import Disassembler.Display.Branch
import Disassembler.Display.Columns
import Disassembler.Display.Gutter
import Disassembler.Dsp56k.Analysis
import Disassembler.Dsp56k.Condition
import Disassembler.Dsp56k.Decode
import Disassembler.Dsp56k.Decode.Control
import Disassembler.Dsp56k.Decode.Operand
import Disassembler.Dsp56k.Decode.Parallel
import Disassembler.Dsp56k.Instruction
import Disassembler.Dsp56k.Opcode
import Disassembler.Dsp56k.Print
import Disassembler.Dsp56k.Register
import Disassembler.File.Path
import Disassembler.File.Resource
import Disassembler.File.Tree
import Disassembler.Flag.Basic
import Disassembler.Flag.Usage
import Disassembler.Listing.Block
import Disassembler.Listing.Branches
import Disassembler.Listing.Iterator
import Disassembler.Listing.Line
import Disassembler.Listing.Preferences
import Disassembler.Listing.Render
import Disassembler.Listing.Step
import Disassembler.Log
import Disassembler.Log.Request
import Disassembler.M68k.Analysis
import Disassembler.M68k.Condition
import Disassembler.M68k.Cpu
import Disassembler.M68k.Decode
import Disassembler.M68k.Decode.Address
import Disassembler.M68k.Decode.Arithmetic
import Disassembler.M68k.Decode.Control
import Disassembler.M68k.Decode.Flow
import Disassembler.M68k.Decode.Immediate
import Disassembler.M68k.Decode.Move
import Disassembler.M68k.Decode.Shift
import Disassembler.M68k.EffectiveAddress
import Disassembler.M68k.Instruction
import Disassembler.M68k.Mode
import Disassembler.M68k.Opcode
import Disassembler.M68k.Print
import Disassembler.M68k.Register
import Disassembler.Main
import Disassembler.Message.Argument
import Disassembler.Message.Directive
import Disassembler.Message.Fault
import Disassembler.Message.Template
import Disassembler.Proofs.Binary.Fetch
import Disassembler.Preference.Basic
import Disassembler.Preference.File
import Disassembler.Preference.Kind
import Disassembler.Preference.Override
import Disassembler.Preference.Store
import Disassembler.Script
import Disassembler.Search
import Disassembler.Sink.Capped
import Disassembler.Sink.Capture
import Disassembler.Sink.Ring
import Disassembler.Symbol.Hardware
import Disassembler.Symbol.Reader
import Disassembler.Symbol.Table
import Disassembler.Terminal.Color
import Disassembler.Terminal.Pager
import Disassembler.Text.Case
import Disassembler.Text.Column
import Disassembler.Text.Encoding
import Disassembler.Text.Lines
import Disassembler.Text.Literal
import Disassembler.Text.Number
import Disassembler.Text.Printable
import Disassembler.Text.Quote
import Disassembler.Text.Space
import Disassembler.Text.Split
import Disassembler.Version
import Disassembler.Proofs.M68k.Addressing
import Disassembler.Proofs.M68k.Repertoire
import Disassembler.Proofs.Binary.Cursor
import Disassembler.Proofs.M68k.Decode
import Disassembler.Proofs.M68k.Extent
import Disassembler.Proofs.Dsp56k.Extent
import Disassembler.Proofs.Listing.Tiling
import Disassembler.Proofs.M68k.Compatibility
import Disassembler.Proofs.M68k.RegisterList
import Disassembler.Proofs.M68k.OperandReader
import Disassembler.Proofs.M68k.InstructionReader
import Disassembler.Proofs.M68k.Operand
import Disassembler.Proofs.M68k.Size
import Disassembler.Proofs.M68k.Ambiguity
import Disassembler.Proofs.Dsp56k.Decode
import Disassembler.Proofs.Dsp56k.Target
import Disassembler.Proofs.Listing.Iteration
import Disassembler.Proofs.Dsp56k.Repertoire
import Disassembler.Proofs.Listing.Growth
import Disassembler.Proofs.Display.Gutter
import Disassembler.Proofs.Listing.Branches
import Disassembler.Proofs.Listing.Rows
import Disassembler.Proofs.Dictionary
import Disassembler.Proofs.Flag
import Disassembler.Proofs.CommandLine
import Disassembler.Proofs.Text.Glyph
import Disassembler.Proofs.Text.Space
import Disassembler.Proofs.Text.SingleLine
import Disassembler.Proofs.Text.Digits
import Disassembler.Proofs.Symbol.Name
import Disassembler.Proofs.Symbol.Table
import Disassembler.Proofs.Symbol.Reader
import Disassembler.Proofs.Text.Lines
import Disassembler.Proofs.File.Tree
import Disassembler.Proofs.Preference.File
import Disassembler.Proofs.Preference.Store
import Disassembler.Proofs.Text.Literal
import Disassembler.Proofs.Preference.Kind
import Disassembler.Proofs.Preference.Override
import Disassembler.Proofs.Preference.Set
import Disassembler.Proofs.Preference.Load
import Disassembler.Proofs.Listing.Preferences
import Disassembler.Proofs.Listing.PreferenceSession
import Disassembler.Proofs.Listing.PreferenceEvents
import Disassembler.Proofs.Log
import Disassembler.Proofs.M68k.Gating
import Disassembler.Proofs.M68k.Destination
import Disassembler.Proofs.M68k.WellFormed
import Disassembler.Proofs.M68k.Legible
import Disassembler.Proofs.M68k.Relative
import Disassembler.Proofs.M68k.Placement
import Disassembler.Proofs.Text.Character
import Disassembler.Proofs.M68k.Bracket
import Disassembler.Proofs.M68k.Reference
import Disassembler.Proofs.Binary.Alike
import Disassembler.Proofs.M68k.FirstWord
import Disassembler.Proofs.Dsp56k.FirstWord
import Disassembler.Proofs.FirstWord
import Disassembler.Proofs.Dsp56k.WellFormed
import Disassembler.Proofs.Dsp56k.Legible
import Disassembler.Proofs.Listing.Targets
import Disassembler.Proofs.Listing.Failure
import Disassembler.Proofs.Display.Terse
import Disassembler.Proofs.Dsp56k.OperandReader
import Disassembler.Proofs.Dsp56k.InstructionReader
import Disassembler.Proofs.Dsp56k.Ambiguity
import Disassembler.Proofs.Symbol.Lookup
import Disassembler.Proofs.Listing.Comments
import Disassembler.Proofs.Listing.Snapshots
import Disassembler.Proofs.Display.Columns
import Disassembler.Proofs.Listing.LineBreaks
import Disassembler.Proofs.Listing.Alignment
import Disassembler.Proofs.Text.Separator
import Disassembler.Proofs.Preference.OverrideText
import Disassembler.Proofs.Message.Template
import Disassembler.Proofs.Message.Fault
import Disassembler.Proofs.Text.Grouped
import Disassembler.Proofs.Flag.Address
import Disassembler.Proofs.File.Folder
import Disassembler.Proofs.Listing.PreferenceOpening
import Disassembler.Proofs.Command.Session
import Disassembler.Proofs.Command.Script
import Disassembler.Proofs.Command.Disassembly
import Disassembler.Proofs.Command.Launch
import Disassembler.Proofs.Binary.Packing
import Disassembler.Proofs.Binary.Packed
import Disassembler.Proofs.Binary.Repacking
import Disassembler.Proofs.M68k.RegisterRange
import Disassembler.Proofs.M68k.Transfer
import Disassembler.Proofs.Sink.Ring
import Disassembler.Proofs.Dsp56k.Register
