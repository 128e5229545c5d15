import Sm83Codegen.Settings
import Sm83Codegen.Toml.Document

/-!
# The settings file

Settings are written as a TOML document with two sections. Names that are not known are left alone,
and settings that are missing have their defaults.

* `GeneratorSettings.ofToml?`, `levelOf?` -- the sections, by name or by position;
* `Settings.ofText?` -- the settings of a document.
-/

namespace Sm83Codegen

/-! ## 1. Single settings -/

/-- A text. -/
def textOf? : Toml → Option String
  | .string s => some s
  | _ => none

/-- A truth value. -/
def truthOf? : Toml → Option Bool
  | .truth b => some b
  | _ => none

/-- An array of texts. -/
def textsOf? : Toml → Option (List String)
  | .array items => items.mapM textOf?
  | _ => none

/-- A setting, or its default if it is missing. -/
def settingOr {α : Type} (default : α) (read : Toml → Option α) : Option Toml → Option α
  | none => some default
  | some v => read v

/-! ## 2. Sections -/

/-- What to generate, by name. -/
def GeneratorSettings.ofMembers? (ms : Toml.Members) : Option GeneratorSettings := do
  let d : GeneratorSettings := {}
  let tablePath ← settingOr d.tablePath textOf? (Toml.find? ms "table_path")
  let cpuFile ← settingOr d.cpuFile textOf? (Toml.find? ms "cpu_file")
  let testsFile ← settingOr d.testsFile textOf? (Toml.find? ms "tests_file")
  let opcodes ← settingOr d.opcodes (fun v => (textsOf? v).map some) (Toml.find? ms "opcodes")
  let dryRun ← settingOr d.dryRun truthOf? (Toml.find? ms "dry_run")
  some ⟨tablePath, cpuFile, testsFile, opcodes, dryRun⟩

/-- What to generate, by position. The opcodes have no default there. -/
def GeneratorSettings.ofItems? (items : List Toml) : Option GeneratorSettings := do
  let d : GeneratorSettings := {}
  let tablePath ← settingOr d.tablePath textOf? items[0]?
  let cpuFile ← settingOr d.cpuFile textOf? items[1]?
  let testsFile ← settingOr d.testsFile textOf? items[2]?
  let opcodes ← items[3]?.bind textsOf?
  let dryRun ← settingOr d.dryRun truthOf? items[4]?
  some ⟨tablePath, cpuFile, testsFile, some opcodes, dryRun⟩

/-- The section on what to generate. A date in its place says nothing. -/
def GeneratorSettings.ofToml? : Toml → Option GeneratorSettings
  | .table _ ms => ofMembers? ms
  | .array items => ofItems? items
  | .dateTime _ => some {}
  | _ => none

/-- The section on reports: their level. -/
def levelOf? (default : String) : Toml → Option String
  | .table _ ms => settingOr default textOf? (Toml.find? ms "level")
  | .array items => settingOr default textOf? items[0]?
  | .dateTime _ => some default
  | _ => none

/-! ## 3. The document -/

/-- The settings of the members of a document. -/
def Settings.ofMembers? (ms : Toml.Members) : Option Settings := do
  let d : Settings := {}
  let generator ← settingOr d.generator GeneratorSettings.ofToml? (Toml.find? ms "generator")
  let level ← settingOr d.level (levelOf? d.level) (Toml.find? ms "logging")
  some ⟨generator, level⟩

/-- The settings that a text writes, if it writes any. -/
def Settings.ofText? (text : String) : Option Settings :=
  (Toml.ofText? text).bind Settings.ofMembers?

end Sm83Codegen
