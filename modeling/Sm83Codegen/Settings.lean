import Sm83Codegen.Text.Blank
import Sm83Codegen.Text.Word

/-!
# Settings

What a run is told: by a settings file, and by command line arguments, which win.

* `GeneratorSettings`, `Settings` -- the settings with their defaults;
* `Arguments` -- what the command line may set;
* `Settings.overlay` -- settings with arguments laid over them.
-/

namespace Sm83Codegen

/-- What to generate from, where to put it, and whether to write it. -/
structure GeneratorSettings where
  tablePath : String := "opcodes.json"
  cpuFile : String := "src/cpu.rs"
  testsFile : String := "src/cpu/tests.rs"
  opcodes : Option (List String) := none
  dryRun : Bool := false
  deriving DecidableEq, Repr

/-- All settings. -/
structure Settings where
  generator : GeneratorSettings := {}
  level : String := "info"
  deriving DecidableEq, Repr

/-- The arguments of the command line. -/
structure Arguments where
  configFile : Option String := none
  table : Option String := none
  cpuFile : Option String := none
  testsFile : Option String := none
  opcodes : Option String := none
  logLevel : Option String := none
  dryRun : Bool := false
  deriving DecidableEq, Repr

/-- The opcodes of a list with commas, without the white space around each and without empty
    ones. -/
def opcodeList (s : String) : List String :=
  let parts := (Text.pieces (fun c => c == ',') s.toList).map Text.trim
  (parts.filter (fun p => !p.isEmpty)).map String.ofList

/-- Settings with the arguments that are there laid over them. A dry run stays one. -/
def Settings.overlay (s : Settings) (a : Arguments) : Settings where
  generator := {
    tablePath := a.table.getD s.generator.tablePath
    cpuFile := a.cpuFile.getD s.generator.cpuFile
    testsFile := a.testsFile.getD s.generator.testsFile
    opcodes := match a.opcodes with
      | some list => some (opcodeList list)
      | none => s.generator.opcodes
    dryRun := s.generator.dryRun || a.dryRun }
  level := a.logLevel.getD s.level

end Sm83Codegen
