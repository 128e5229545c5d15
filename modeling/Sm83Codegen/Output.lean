import Sm83Codegen.Catalog
import Sm83Codegen.Files
import Sm83Codegen.Generate
import Sm83Codegen.Settings
import Sm83Codegen.Splice

/-!
# Writing the output

A run reads the opcode table, generates, splices the texts into the target files and writes them,
all or none.

* `prepare` -- the target files with the texts spliced in, nothing written;
* `commit` -- writes files: each is staged beside its target, and targets are replaced only after
  every staged file was written;
* `execute` -- both, or a report of what would be written.
-/

namespace Sm83Codegen

/-! ## 1. Faults -/

/-- Why a run fails: in the generation, in a file without markers, or in a file operation. The
    context says what was being done. -/
inductive OutputError where
  | generation (e : GenerationError)
  | splice (context : String) (markers : MarkerPair)
  | file (context : String) (fault : FileFault)
  deriving DecidableEq, Repr

/-- The report on a failed run. -/
def OutputError.message : OutputError → String
  | generation e => e.message
  | splice context markers => context ++ ": " ++ markers.notFound
  | file context fault => context ++ ": " ++ fault.message

/-- A target file with its new text. -/
structure PendingWrite where
  path : String
  text : String
  deriving DecidableEq, Repr

/-! ## 2. Preparing -/

/-- The opcodes that texts name. -/
def selectionOf (opcodes : List String) : Except GenerationError (List OpcodeKey) :=
  opcodes.mapM (fun text =>
    match OpcodeKey.parse? text with
    | some key => .ok key
    | none => .error (.invalidOpcodeKey text))

section

variable {m : Type → Type} [Monad m]

/-- Runs a computation that keeps a log, and passes its reports on. -/
def reported {α : Type} (files : Files m) (c : Logged α) : m (Except OutputError α) := do
  c.log.forM files.report
  pure (c.result.mapError OutputError.generation)

/-- The text of a target file so far. -/
def pendingText? (pending : List PendingWrite) (path : String) : Option String :=
  (pending.find? (fun w => FilePath.same w.path path)).map (·.text)

/-- The target files with a new text for one of them; a new one comes last. -/
def putText (path text : String) : List PendingWrite → List PendingWrite
  | [] => [⟨path, text⟩]
  | w :: rest =>
    if FilePath.same w.path path then { w with text := text } :: rest
    else w :: putText path text rest

/-- The text of a target file: the one pending, or the one on file. -/
def targetText (files : Files m) (pending : List PendingWrite) (path : String) :
    m (Except OutputError String) := do
  match pendingText? pending path with
  | some text => pure (.ok text)
  | none => return (← files.readText path).mapError (OutputError.file ("reading " ++ path))

/-- Splices a content into a target file. -/
def spliceInto (files : Files m) (pending : List PendingWrite) (path : String)
    (markers : MarkerPair) (content : String) : m (Except OutputError (List PendingWrite)) := do
  match ← targetText files pending path with
  | .error e => pure (.error e)
  | .ok text =>
    match splice? text markers content with
    | some new => pure (.ok (putText path new pending))
    | none => pure (.error (.splice ("splicing " ++ path) markers))

/-- Splices branches and routines into the one target file and the tests into the other, which may
    be the same. -/
def spliceArtifacts (files : Files m) (g : GeneratorSettings) (a : Artifacts) :
    m (Except OutputError (List PendingWrite)) := do
  match ← spliceInto files [] g.cpuFile .decoding a.decode with
  | .error e => pure (.error e)
  | .ok pending =>
    match ← spliceInto files pending g.cpuFile .execution a.execution with
    | .error e => pure (.error e)
    | .ok pending => spliceInto files pending g.testsFile .tests a.tests

/-- The opcodes that settings ask for. -/
def settingsSelection (g : GeneratorSettings) : Except GenerationError Selection :=
  match g.opcodes with
  | some opcodes => (selectionOf opcodes).map Selection.ofKeys
  | none => .ok {}

/-- Generates and splices. Nothing is written. -/
def prepare (files : Files m) (g : GeneratorSettings) :
    m (Except OutputError (List PendingWrite)) := do
  match ← files.readText g.tablePath with
  | .error fault => pure (.error (.file ("reading opcode table " ++ g.tablePath) fault))
  | .ok text =>
    match settingsSelection g with
    | .error e => pure (.error (.generation e))
    | .ok selection =>
      match ← reported files (generate text catalog selection) with
      | .error e => pure (.error e)
      | .ok artifacts => spliceArtifacts files g artifacts

/-! ## 3. Committing -/

/-- Removes staged files. One that cannot be removed is reported. -/
def discard (files : Files m) : List String → m Unit
  | [] => pure ()
  | path :: rest => do
    match ← files.remove path with
    | .ok _ => pure ()
    | .error fault =>
      files.report ⟨.warn, .output,
        "Could not remove staged file " ++ path ++ ": " ++ fault.message⟩
    discard files rest

/-- Stages files in order, after those staged already. If one cannot be written, all that was
    staged is removed again. -/
def stageAll (files : Files m) (staged : List String) :
    List PendingWrite → m (Except OutputError Unit)
  | [] => pure (.ok ())
  | w :: rest => do
    let staging := FilePath.staging w.path
    match ← files.writeText staging w.text with
    | .ok _ => stageAll files (staged ++ [staging]) rest
    | .error fault =>
      let leftover ← files.present staging
      discard files (if leftover then staged ++ [staging] else staged)
      pure (.error (.file ("writing " ++ w.path) fault))

/-- Replaces targets in order. If one cannot be replaced, its staged file and the later ones are
    removed. -/
def replaceAll (files : Files m) : List PendingWrite → m (Except OutputError Unit)
  | [] => pure (.ok ())
  | w :: rest => do
    match ← files.rename (FilePath.staging w.path) w.path with
    | .ok _ =>
      files.report ⟨.info, .output, "Wrote " ++ w.path⟩
      replaceAll files rest
    | .error fault =>
      discard files ((w :: rest).map (fun x => FilePath.staging x.path))
      pure (.error (.file ("replacing " ++ w.path) fault))

/-- Writes files. -/
def commit (files : Files m) (pending : List PendingWrite) : m (Except OutputError Unit) := do
  match ← stageAll files [] pending with
  | .error e => pure (.error e)
  | .ok _ => replaceAll files pending

/-! ## 4. A run -/

/-- Reports what would be written. -/
def reportDryRun (files : Files m) : List PendingWrite → m Unit
  | [] => pure ()
  | w :: rest => do
    files.report ⟨.info, .output,
      "Dry run: " ++ w.path ++ " not written (" ++ toString w.text.utf8ByteSize ++ " bytes)"⟩
    reportDryRun files rest

/-- Generates and, unless it is a dry run, writes. -/
def execute (files : Files m) (g : GeneratorSettings) : m (Except OutputError Unit) := do
  match ← prepare files g with
  | .error e => pure (.error e)
  | .ok pending =>
    if g.dryRun then
      reportDryRun files pending
      pure (.ok ())
    else commit files pending

end

end Sm83Codegen
