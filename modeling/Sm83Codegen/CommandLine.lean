import Sm83Codegen.LogFilter
import Sm83Codegen.Output
import Sm83Codegen.SettingsFile

/-!
# The command line

A run of the program: arguments, the settings file, then generating and writing.

* `Arguments.ofWords?` -- the arguments that words write;
* `Message`, `Terminal` -- what a run tells, and where it runs;
* `CommandLine.run` -- the run; it ends with an exit code.
-/

namespace Sm83Codegen

/-! ## 1. Arguments -/

/-- An option. All but the last take a value. -/
inductive CliOption where
  | configFile
  | table
  | cpuFile
  | testsFile
  | opcodes
  | logLevel
  | dryRun
  deriving DecidableEq, Repr

namespace CliOption

/-- The option of a name. -/
def ofName? (name : String) : Option CliOption :=
  if name == "config_file" || name == "configfile" then some configFile
  else if name == "table" then some table
  else if name == "cpu_file" || name == "cpufile" then some cpuFile
  else if name == "tests_file" || name == "testsfile" then some testsFile
  else if name == "opcodes" then some opcodes
  else if name == "log_level" || name == "loglevel" then some logLevel
  else if name == "dry_run" || name == "dryrun" then some dryRun
  else none

end CliOption

/-- What a word of the command line is: an option by name, with the value that an equals sign
    attaches to it; a value; the end of the options; or something else. -/
inductive CliWord where
  | option (name : String) (attached : Option String)
  | value (text : String)
  | endOfOptions
  | other
  deriving DecidableEq, Repr

/-- What a word is. A single hyphen is a value. The letter behind a single hyphen is one of ASCII if
    an equals sign attaches a value to it; with another letter the word is a value. -/
def CliWord.ofText (s : String) : CliWord :=
  match s.toList with
  | ['-', '-'] => .endOfOptions
  | '-' :: '-' :: cs =>
    match cs.dropWhile (fun c => c != '=') with
    | [] => .option (String.ofList cs) none
    | _ :: text =>
      .option (String.ofList (cs.takeWhile (fun c => c != '='))) (some (String.ofList text))
  | '-' :: c :: cs => if c.toNat ≥ 0x80 && cs.contains '=' then .value s else .other
  | _ => .value s

namespace Arguments

/-- Sets an option that is not set yet. -/
def once (old : Option String) (text : String) : Option (Option String) :=
  match old with
  | none => some (some text)
  | some _ => none

/-- Gives an option its value. -/
def set? (a : Arguments) (text : String) : CliOption → Option Arguments
  | .configFile => (once a.configFile text).map (fun v => { a with configFile := v })
  | .table => (once a.table text).map (fun v => { a with table := v })
  | .cpuFile => (once a.cpuFile text).map (fun v => { a with cpuFile := v })
  | .testsFile => (once a.testsFile text).map (fun v => { a with testsFile := v })
  | .opcodes => (once a.opcodes text).map (fun v => { a with opcodes := v })
  | .logLevel => (once a.logLevel text).map (fun v => { a with logLevel := v })
  | .dryRun => none

/-- Turns the dry run on. -/
def switch? (a : Arguments) : Option Arguments :=
  if a.dryRun then none else some { a with dryRun := true }

/-- Reads words. Every option may be given once, and nothing but options may be given. -/
def read? (a : Arguments) : List CliWord → Option Arguments
  | [] => some a
  | [.endOfOptions] => some a
  | .option name none :: .value text :: rest =>
    match CliOption.ofName? name with
    | some .dryRun => none
    | some o =>
      match a.set? text o with
      | some a => read? a rest
      | none => none
    | none => none
  | .option name none :: rest =>
    match CliOption.ofName? name with
    | some .dryRun =>
      match a.switch? with
      | some a => read? a rest
      | none => none
    | _ => none
  | .option name (some text) :: rest =>
    match (CliOption.ofName? name).bind (a.set? text) with
    | some a => read? a rest
    | none => none
  | _ => none

/-- The arguments that words write. -/
def ofWords? (words : List String) : Option Arguments := read? {} (words.map CliWord.ofText)

end Arguments

/-! ## 2. Messages -/

/-- What a run tells: a report; that the settings file cannot be read, or is malformed; or that the
    words of the command line are no arguments. -/
inductive Message where
  | report (r : LogRecord)
  | unreadableSettings (fault : FileFault)
  | malformedSettings
  | usage
  deriving DecidableEq, Repr

/-- The lines of a message. -/
def Message.lines : Message → List String
  | report r => r.lines
  | unreadableSettings fault => ["Error reading configuration file:", fault.message]
  | malformedSettings =>
    ["Failed to parse configuration file. There may be a typo or otherwise invalid toml:"]
  | usage =>
    ["Usage: [--config_file=ARG] [--table=ARG] [--cpu_file=ARG] [--tests_file=ARG] " ++
      "[--opcodes=ARG] [--log_level=ARG] [--dry_run]"]

/-- The files of a run, and the place where its messages go. -/
structure Terminal (m : Type → Type) where
  files : Files m
  tell : Message → m Unit

/-- The report on a failed run. -/
def OutputError.report (e : OutputError) : LogRecord :=
  match e with
  | .generation fault =>
    ⟨.error, .output, "Generation failed (" ++ fault.faultClass.name ++ "): " ++ fault.message⟩
  | _ => ⟨.error, .output, "Generation failed: " ++ e.message⟩

/-! ## 3. A run -/

/-- How a run ends. -/
inductive ExitCode where
  | success
  | failure
  deriving DecidableEq, Repr

/-- The number of an exit code. -/
def ExitCode.toNat : ExitCode → Nat
  | success => 0
  | failure => 1

/-- The file that settings are read from unless another is named. -/
def defaultSettingsPath : String := "./opgen.toml"

namespace CommandLine

variable {m : Type → Type} [Monad m]

/-- The files of a terminal, with the reports that pass a filter told. -/
def reporting (t : Terminal m) (f : LogFilter) : Files m :=
  { t.files with report := fun r => if f.shows r then t.tell (.report r) else pure () }

/-- The text of the settings: of the file that is named, else of the default file if it is there,
    else nothing. -/
def settingsText (t : Terminal m) (a : Arguments) : m (Except FileFault String) := do
  match a.configFile with
  | some path => t.files.readText path
  | none =>
    if ← t.files.present defaultSettingsPath then t.files.readText defaultSettingsPath
    else pure (.ok "")

/-- Generates and writes with settings. -/
def runWith (t : Terminal m) (s : Settings) : m ExitCode := do
  let files := reporting t (LogFilter.ofText s.level)
  match ← execute files s.generator with
  | .ok _ => pure .success
  | .error e =>
    files.report e.report
    pure .failure

/-- A run with arguments. -/
def runArguments (t : Terminal m) (a : Arguments) : m ExitCode := do
  match ← settingsText t a with
  | .error fault =>
    t.tell (.unreadableSettings fault)
    pure .failure
  | .ok text =>
    match Settings.ofText? text with
    | none =>
      t.tell .malformedSettings
      pure .failure
    | some s => runWith t (s.overlay a)

/-- A run with the words of a command line. -/
def run (t : Terminal m) (words : List String) : m ExitCode := do
  match Arguments.ofWords? words with
  | some a => runArguments t a
  | none =>
    t.tell .usage
    pure .failure

end CommandLine

end Sm83Codegen
