import Sm83Codegen.Catalog
import Sm83Codegen.Catalog.Arithmetic
import Sm83Codegen.Catalog.Bits
import Sm83Codegen.Catalog.Control
import Sm83Codegen.Catalog.Loads
import Sm83Codegen.Catalog.Terms
import Sm83Codegen.CommandLine
import Sm83Codegen.Convention
import Sm83Codegen.Descriptor
import Sm83Codegen.Emit.Decode
import Sm83Codegen.Emit.Routine
import Sm83Codegen.Emit.TestCase
import Sm83Codegen.Family
import Sm83Codegen.FilePath
import Sm83Codegen.Files
import Sm83Codegen.Flag
import Sm83Codegen.FlagNotation
import Sm83Codegen.Fragment.Print
import Sm83Codegen.Fragment.Syntax
import Sm83Codegen.Generate
import Sm83Codegen.GenerationError
import Sm83Codegen.InstructionSet
import Sm83Codegen.InstructionSet.FirstPage
import Sm83Codegen.InstructionSet.Row
import Sm83Codegen.InstructionSet.SecondPage
import Sm83Codegen.Json.Number
import Sm83Codegen.Json.Parse
import Sm83Codegen.Json.Token
import Sm83Codegen.Json.Value
import Sm83Codegen.LogFilter
import Sm83Codegen.Logged
import Sm83Codegen.Machine.Core
import Sm83Codegen.Machine.Evaluate
import Sm83Codegen.Machine.State
import Sm83Codegen.Main
import Sm83Codegen.OpcodeKey
import Sm83Codegen.Operand
import Sm83Codegen.Output
import Sm83Codegen.Proofs.Abbreviations
import Sm83Codegen.Proofs.Aliasing
import Sm83Codegen.Proofs.Bindings
import Sm83Codegen.Proofs.BitFields
import Sm83Codegen.Proofs.Borrowing
import Sm83Codegen.Proofs.Branching
import Sm83Codegen.Proofs.CallingConvention
import Sm83Codegen.Proofs.Carries
import Sm83Codegen.Proofs.CarryTests
import Sm83Codegen.Proofs.CaseNames
import Sm83Codegen.Proofs.Claims
import Sm83Codegen.Proofs.Comments
import Sm83Codegen.Proofs.Committing
import Sm83Codegen.Proofs.Completion
import Sm83Codegen.Proofs.Coverage
import Sm83Codegen.Proofs.CycleCounts
import Sm83Codegen.Proofs.DeclaredEffects
import Sm83Codegen.Proofs.Digits
import Sm83Codegen.Proofs.Dispatch
import Sm83Codegen.Proofs.Encodings
import Sm83Codegen.Proofs.Entries
import Sm83Codegen.Proofs.Evaluation
import Sm83Codegen.Proofs.Exclusion
import Sm83Codegen.Proofs.Expectations
import Sm83Codegen.Proofs.FixedFlags
import Sm83Codegen.Proofs.Fixtures
import Sm83Codegen.Proofs.FlagSpecifications
import Sm83Codegen.Proofs.Generation
import Sm83Codegen.Proofs.Identifiers
import Sm83Codegen.Proofs.Independence
import Sm83Codegen.Proofs.Instruction
import Sm83Codegen.Proofs.IntegerArithmetic
import Sm83Codegen.Proofs.JsonText
import Sm83Codegen.Proofs.KeyLists
import Sm83Codegen.Proofs.KeySpellings
import Sm83Codegen.Proofs.Linkage
import Sm83Codegen.Proofs.Literals
import Sm83Codegen.Proofs.Loading
import Sm83Codegen.Proofs.Merging
import Sm83Codegen.Proofs.PackedDecimal
import Sm83Codegen.Proofs.Records
import Sm83Codegen.Proofs.Refinement.Arithmetic
import Sm83Codegen.Proofs.Refinement.Bits
import Sm83Codegen.Proofs.Refinement.Control
import Sm83Codegen.Proofs.Refinement.Loads
import Sm83Codegen.Proofs.Regeneration
import Sm83Codegen.Proofs.Regions
import Sm83Codegen.Proofs.RegionsApart
import Sm83Codegen.Proofs.Reindentation
import Sm83Codegen.Proofs.RowGeneration
import Sm83Codegen.Proofs.Rows
import Sm83Codegen.Proofs.Selection
import Sm83Codegen.Proofs.Semantics
import Sm83Codegen.Proofs.Splicing
import Sm83Codegen.Proofs.StackDiscipline
import Sm83Codegen.Proofs.StagingPaths
import Sm83Codegen.Proofs.TableText
import Sm83Codegen.Proofs.Trimming
import Sm83Codegen.Proofs.Uniformity
import Sm83Codegen.Record
import Sm83Codegen.Regex.CharSet
import Sm83Codegen.Regex.Reading
import Sm83Codegen.Regex.Syntax
import Sm83Codegen.Register
import Sm83Codegen.Scenario
import Sm83Codegen.Settings
import Sm83Codegen.SettingsFile
import Sm83Codegen.Splice
import Sm83Codegen.Table
import Sm83Codegen.Table.Document
import Sm83Codegen.Table.Print
import Sm83Codegen.Table.Reading
import Sm83Codegen.Text.Blank
import Sm83Codegen.Text.Hex
import Sm83Codegen.Text.Layout
import Sm83Codegen.Text.Plain
import Sm83Codegen.Text.Position
import Sm83Codegen.Text.Quoted
import Sm83Codegen.Text.Shortest
import Sm83Codegen.Text.Visible
import Sm83Codegen.Text.Word
import Sm83Codegen.Text.WordCharacter
import Sm83Codegen.Toml.Document
import Sm83Codegen.Toml.Quoted
import Sm83Codegen.Toml.Spacing
import Sm83Codegen.Toml.Value
import Sm83Codegen.Toml.Word
