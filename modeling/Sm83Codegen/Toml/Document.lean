import Sm83Codegen.Toml.Quoted
import Sm83Codegen.Toml.Word

/-!
# TOML documents

A document is a list of lines: headers that open a table, and keys with values that are added to
the table that is open.

* `within` -- changes the table that a path leads to, and makes the tables on the way;
* `addValue`, `openTable`, `openElement` -- what the lines of a document do;
* `value` -- a value of any kind;
* `Toml.ofText?` -- the members of a document.

Arrays and braces nest less than 80 deep, and keys have less than 80 parts.
-/

namespace Sm83Codegen.Toml

/-! ## 1. Tables -/

/-- Changes the table that a path leads to. Tables that are missing on the way are made. A dotted
    key cannot lead through a table with a header of its own, and nothing leads through a table in
    braces or a value that is no table. Through an array of tables the way goes by its last one. -/
def within (dotted : Bool) (f : TableOrigin → Members → Option Members) :
    List String → TableOrigin → Members → Option Members
  | [], origin, ms => f origin ms
  | name :: path, _, ms =>
    match find? ms name with
    | none =>
      let origin := if dotted then .dotted else .implied
      (within dotted f path origin []).map (fun inner => replace ms name (.table origin inner))
    | some (.table origin inner) =>
      if origin == .braces || (dotted && origin == .header) then none
      else
        (within dotted f path origin inner).map
          (fun inner => replace ms name (.table origin inner))
    | some (.tables earlier last) =>
      (within dotted f path .header last).map (fun last => replace ms name (.tables earlier last))
    | some _ => none

/-- The limit below which the parts of a key stay, and the depth of arrays and braces. -/
def nestingLimit : Nat := 80

/-- The path to a name, and the name. -/
def splitKey : List String → Option (List String × String)
  | [] => none
  | [name] => some ([], name)
  | name :: rest => (splitKey rest).map (fun p => (name :: p.1, p.2))

/-- Adds a value under a key to a table. A dotted key ends in a table that dotted keys made, any
    other in one that they did not. -/
def addValue (key : List String) (v : Toml) (origin : TableOrigin) (ms : Members) :
    Option Members :=
  match splitKey key with
  | none => none
  | some (path, name) =>
    within true (fun origin ms =>
      if (origin == .dotted) == path.isEmpty then none
      else
        match find? ms name with
        | some _ => none
        | none => some (replace ms name v)) path origin ms

/-- Opens a table under a key. Only a table that longer headers made can be there already. -/
def openTable (key : List String) (root : Members) : Option Members :=
  match splitKey key with
  | none => none
  | some (path, name) =>
    within false (fun _ ms =>
      match find? ms name with
      | none => some (replace ms name (.table .header []))
      | some (.table .implied inner) => some (replace ms name (.table .header inner))
      | some _ => none) path .header root

/-- Opens one more table of an array of tables under a key. -/
def openElement (key : List String) (root : Members) : Option Members :=
  match splitKey key with
  | none => none
  | some (path, name) =>
    within false (fun _ ms =>
      match find? ms name with
      | none => some (replace ms name (.tables [] []))
      | some (.tables earlier last) => some (replace ms name (.tables (earlier ++ [last]) []))
      | some _ => none) path .header root

/-! ## 2. Keys -/

/-- The characters of a key without quotation marks. -/
def isKeyChar (c : Char) : Bool := Text.isWordChar c || c == '_' || c == '-'

/-- One part of a key. -/
def keyPart : Reader String := fun cs =>
  match cs with
  | '\"' :: _ | '\'' :: _ => quotedLine cs
  | _ =>
    match cs.takeWhile isKeyChar with
    | [] => none
    | name => some (String.ofList name, cs.dropWhile isKeyChar)

/-- The parts of a key, with dots and blanks between them; at most `fuel` parts. -/
def keyParts : Nat → Reader (List String)
  | 0, _ => none
  | fuel + 1, cs => do
    let (name, rest) ← keyPart (skipBlanks cs)
    match skipBlanks rest with
    | '.' :: rest =>
      let (names, rest) ← keyParts fuel rest
      some (name :: names, rest)
    | rest => some ([name], rest)

/-- A key. -/
def key : Reader (List String) := keyParts (nestingLimit - 1)

/-- What follows a character at the front of a text. -/
def after? (c : Char) : List Char → Option (List Char)
  | [] => none
  | d :: cs => if d == c then some cs else none

/-- A key, an equals sign and a value. -/
def keyValue (value : Reader Toml) : Reader (List String × Toml) := fun cs => do
  let (path, rest) ← key cs
  let rest ← after? '=' rest
  let (v, rest) ← value (skipBlanks rest)
  some ((path, v), rest)

/-! ## 3. Values -/

/-- The items of an array from behind an opening bracket or a comma; at most `fuel` of them. A
    comma may stand after the last one. -/
def items (value : Reader Toml) : Nat → Reader (List Toml)
  | 0, _ => none
  | fuel + 1, cs => do
    match ← skipLines cs with
    | ']' :: rest => some ([], rest)
    | rest =>
      let (v, rest) ← value rest
      match ← skipLines rest with
      | ',' :: rest =>
        let (vs, rest) ← items value fuel rest
        some (v :: vs, rest)
      | ']' :: rest => some ([v], rest)
      | _ => none

/-- The members of a table in braces from behind the opening brace or a comma, after those read
    already; at most `fuel` of them. No comma stands after the last one. -/
def braced (value : Reader Toml) : Nat → Members → Reader Members
  | 0, _, _ => none
  | fuel + 1, ms, cs => do
    let ((path, v), rest) ← keyValue value cs
    let ms ← addValue path v .braces ms
    match skipBlanks rest with
    | ',' :: rest => braced value fuel ms rest
    | '\x7d' :: rest => some (ms, rest)
    | _ => none

/-- A value. Arrays and braces may nest as deep as stated. -/
def value : Nat → Reader Toml
  | depth, cs =>
    match cs with
    | '\"' :: _ | '\'' :: _ => (quoted cs).map (fun p => (.string p.1, p.2))
    | '[' :: rest =>
      match depth with
      | 0 => none
      | depth + 1 =>
        (items (value depth) (rest.length + 1) rest).map (fun p => (.array p.1, p.2))
    | '\x7b' :: rest =>
      match depth with
      | 0 => none
      | depth + 1 =>
        match skipBlanks rest with
        | '\x7d' :: rest => some (.table .braces [], rest)
        | _ =>
          (braced (value depth) (rest.length + 1) [] rest).map (fun p => (.table .braces p.1, p.2))
    | _ => word cs

/-! ## 4. Lines -/

/-- A document that is being read: what it holds so far, and the path to the table that is open. -/
structure Draft where
  root : Members
  opened : List String

/-- Adds a value to the table that is open. -/
def Draft.add (d : Draft) (path : List String) (v : Toml) : Option Draft := do
  let root ← within false (addValue path v) d.opened .header d.root
  some { d with root := root }

/-- Reads a header from behind its opening bracket. -/
def header (d : Draft) : List Char → Option (Draft × List Char)
  | '[' :: cs => do
    let (path, rest) ← key cs
    let rest ← after? ']' rest
    let rest ← after? ']' rest
    let rest ← lineEnd? rest
    let root ← openElement path d.root
    some (⟨root, path⟩, rest)
  | cs => do
    let (path, rest) ← key cs
    let rest ← after? ']' rest
    let rest ← lineEnd? rest
    let root ← openTable path d.root
    some (⟨root, path⟩, rest)

/-- Reads a line that is neither blank nor a comment. -/
def line (d : Draft) : List Char → Option (Draft × List Char)
  | '[' :: cs => header d cs
  | cs => do
    let ((path, v), rest) ← keyValue (value (nestingLimit - 1)) cs
    let rest ← lineEnd? rest
    let d ← d.add path v
    some (d, rest)

/-- Reads lines to the end of a text; at most `fuel` of them. -/
def lines (d : Draft) : Nat → List Char → Option Draft
  | 0, _ => none
  | fuel + 1, cs =>
    match skipBlanks cs with
    | [] => some d
    | '#' :: rest => (lineEnd? ('#' :: rest)).bind (lines d fuel)
    | c :: rest =>
      match afterNewline? (c :: rest) with
      | some rest => lines d fuel rest
      | none =>
        match line d (c :: rest) with
        | some (d, rest) => lines d fuel rest
        | none => none

/-- A text without the mark of its encoding. -/
def withoutMark : List Char → List Char
  | c :: cs => if c.toNat == 0xFEFF then cs else c :: cs
  | [] => []

/-- The members of the document that a text writes, if it writes one. -/
def ofText? (s : String) : Option Members :=
  let cs := withoutMark s.toList
  (lines ⟨[], []⟩ (cs.length + 1) cs).map (·.root)

end Sm83Codegen.Toml
