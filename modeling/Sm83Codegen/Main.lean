import Sm83Codegen.CommandLine

/-!
# The program

The command line on the files of the system. Messages go to standard error.
-/

namespace Sm83Codegen.Host

/-- The fault that an error of the system is. -/
def faultOf : IO.Error → FileFault
  | .noFileOrDirectory .. | .noSuchThing .. => .notFound
  | .inappropriateType .. => .isDirectory
  | e => .other (toString e)

/-- Runs an operation that may fail. -/
def attempt {α : Type} (operation : IO α) : IO (Except FileFault α) := do
  try
    let a ← operation
    pure (.ok a)
  catch e => pure (.error (faultOf e))

/-- The text of a file. -/
def readText (path : String) : IO (Except FileFault String) := do
  match ← attempt (IO.FS.readBinFile path) with
  | .error fault => pure (.error fault)
  | .ok content =>
    match String.fromUTF8? content with
    | some text => pure (.ok text)
    | none => pure (.error .notText)

/-- Whether a path leads anywhere. -/
def present (path : String) : IO Bool := do
  match ← attempt (IO.FS.readBinFile path) with
  | .error .notFound => pure false
  | _ => pure true

/-- Prints lines in order. -/
def printLines : List String → IO Unit
  | [] => pure ()
  | l :: rest => do
    IO.eprintln l
    printLines rest

/-- The files of the system. -/
def files : Files IO where
  readText := readText
  writeText path text := attempt (IO.FS.writeFile path text)
  rename source target := attempt (IO.FS.rename source target)
  remove path := attempt (IO.FS.removeFile path)
  present := present
  report record := printLines record.lines

/-- The files of the system, and standard error. -/
def terminal : Terminal IO := ⟨files, fun message => printLines message.lines⟩

end Sm83Codegen.Host

/-- Runs the program. -/
def main (words : List String) : IO UInt32 := do
  let code ← Sm83Codegen.CommandLine.run Sm83Codegen.Host.terminal words
  pure (UInt32.ofNat code.toNat)
