import Sm83Codegen.FilePath
import Sm83Codegen.Logged

/-!
# Files

What a run needs of a file system, and a file system that is a value.

* `FileFault` -- why an operation fails;
* `Files` -- the operations, in any monad;
* `FileStore` -- files and directories below a working directory, and the operations on them.
-/

namespace Sm83Codegen

/-! ## 1. Operations -/

/-- Why an operation on a file fails. -/
inductive FileFault where
  | notFound
  | notDirectory
  | isDirectory
  | notText
  | other (text : String)
  deriving DecidableEq, Repr

/-- The report on a fault. -/
def FileFault.message : FileFault → String
  | notFound => "No such file or directory (os error 2)"
  | notDirectory => "Not a directory (os error 20)"
  | isDirectory => "Is a directory (os error 21)"
  | notText => "stream did not contain valid UTF-8"
  | other text => text

/-- The operations of a file system, and the place where reports go. -/
structure Files (m : Type → Type) where
  readText : String → m (Except FileFault String)
  writeText : String → String → m (Except FileFault Unit)
  rename : String → String → m (Except FileFault Unit)
  remove : String → m (Except FileFault Unit)
  present : String → m Bool
  report : LogRecord → m Unit

/-- Operations carried over to another monad. -/
def Files.lift {m n : Type → Type} (files : Files m) (f : {α : Type} → m α → n α) : Files n where
  readText path := f (files.readText path)
  writeText path text := f (files.writeText path text)
  rename source target := f (files.rename source target)
  remove path := f (files.remove path)
  present path := f (files.present path)
  report record := f (files.report record)

/-! ## 2. A store of files -/

/-- What a path leads to. -/
inductive Node where
  | file (content : ByteArray)
  | directory

/-- The files and directories below the working directory, each under its steps. -/
structure FileStore where
  nodes : List (List String × Node)

namespace FileStore

/-- The node at steps from the working directory. -/
def nodeAt (store : FileStore) : List String → Option Node
  | [] => some .directory
  | steps => (store.nodes.find? (fun n => n.1 == steps)).map (·.2)

/-- Follows steps from a directory. All but the last one lead to directories, and none leads out of
    the working directory. -/
def follow (store : FileStore) (above : List String) :
    List String → Except FileFault (List String)
  | [] => .ok above
  | [s] =>
    if s == "." then .ok above
    else if s == ".." then (if above.isEmpty then .error .notFound else .ok above.dropLast)
    else .ok (above ++ [s])
  | s :: rest =>
    if s == "." then follow store above rest
    else if s == ".." then
      (if above.isEmpty then .error .notFound else follow store above.dropLast rest)
    else
      match store.nodeAt (above ++ [s]) with
      | some .directory => follow store (above ++ [s]) rest
      | some (.file _) => .error .notDirectory
      | none => .error .notFound

/-- The steps that a path leads along. -/
def locate (store : FileStore) (path : String) : Except FileFault (List String) :=
  if path.isEmpty || FilePath.isAbsolute path then .error .notFound
  else follow store [] (FilePath.parts path)

/-- Whether a path can lead to a directory only. -/
def wantsDirectory (path : String) : Bool :=
  match path.toList.reverse with
  | '/' :: _ => true
  | '.' :: '/' :: _ => true
  | _ => false

/-- The store with a node put at steps. -/
def put (store : FileStore) (steps : List String) (n : Node) : FileStore :=
  ⟨store.nodes.filter (fun x => x.1 != steps) ++ [(steps, n)]⟩

/-- The store without the node at steps. -/
def drop (store : FileStore) (steps : List String) : FileStore :=
  ⟨store.nodes.filter (fun x => x.1 != steps)⟩

/-- The content of the file at a path. -/
def read (store : FileStore) (path : String) : Except FileFault ByteArray := do
  let steps ← store.locate path
  match store.nodeAt steps with
  | some (.file content) => if wantsDirectory path then .error .notDirectory else .ok content
  | some .directory => .error .isDirectory
  | none => .error .notFound

/-- The text of the file at a path. -/
def readText (store : FileStore) (path : String) : Except FileFault String := do
  let content ← store.read path
  match String.fromUTF8? content with
  | some text => .ok text
  | none => .error .notText

/-- The store with a text written to a path. -/
def writeText (store : FileStore) (path text : String) : Except FileFault FileStore := do
  let steps ← store.locate path
  match store.nodeAt steps with
  | some .directory => .error .isDirectory
  | some (.file _) =>
    if wantsDirectory path then .error .notDirectory else .ok (store.put steps (.file text.toUTF8))
  | none =>
    if wantsDirectory path then .error .isDirectory else .ok (store.put steps (.file text.toUTF8))

/-- The store without the file at a path. -/
def remove (store : FileStore) (path : String) : Except FileFault FileStore := do
  let steps ← store.locate path
  match store.nodeAt steps with
  | some (.file _) =>
    if wantsDirectory path then .error .notDirectory else .ok (store.drop steps)
  | some .directory => .error .isDirectory
  | none => .error .notFound

/-- The store with the file at a path moved to another, over a file that is there. -/
def rename (store : FileStore) (source target : String) : Except FileFault FileStore := do
  let steps ← store.locate source
  let goal ← store.locate target
  match store.nodeAt steps with
  | none => .error .notFound
  | some n =>
    if wantsDirectory target then .error .notDirectory
    else
      match store.nodeAt goal with
      | some .directory => .error .isDirectory
      | _ => .ok ((store.drop steps).put goal n)

/-- Whether a path leads anywhere. -/
def contains (store : FileStore) (path : String) : Bool :=
  match store.locate path with
  | .ok steps => (store.nodeAt steps).isSome
  | .error _ => false

/-- The store with a directory and those above it. -/
def addDirectory (store : FileStore) (path : String) : FileStore :=
  let steps := (FilePath.parts path).filter FilePath.isStep
  (List.range steps.length).foldl
    (fun store i =>
      let above := steps.take (i + 1)
      if (store.nodeAt above).isSome then store else store.put above .directory)
    store

/-- The store with a file and the directories above it. -/
def addFile (store : FileStore) (path : String) (content : ByteArray) : FileStore :=
  (store.addDirectory (FilePath.parent path)).put
    ((FilePath.parts path).filter FilePath.isStep) (.file content)

end FileStore

/-! ## 3. Operations on a store -/

/-- A store and the reports made while it was used. -/
structure Session where
  store : FileStore
  log : List LogRecord

/-- A computation over a store. -/
abbrev Sandbox := StateM Session

/-- An operation that changes the store if it succeeds. -/
def Sandbox.change (f : FileStore → Except FileFault FileStore) :
    Sandbox (Except FileFault Unit) := do
  let s ← get
  match f s.store with
  | .ok store =>
    set { s with store := store }
    pure (.ok ())
  | .error e => pure (.error e)

/-- The operations on a store. -/
def Sandbox.files : Files Sandbox where
  readText path := do return (← get).store.readText path
  writeText path text := Sandbox.change (fun store => store.writeText path text)
  rename source target := Sandbox.change (fun store => store.rename source target)
  remove path := Sandbox.change (fun store => store.remove path)
  present path := do return (← get).store.contains path
  report record := modify (fun s => { s with log := s.log ++ [record] })

end Sm83Codegen
