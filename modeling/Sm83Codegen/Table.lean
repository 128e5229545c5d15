import Sm83Codegen.Record

/-!
# The opcode table

The records of a document, in table order and with one record a key.

* `Table.ofDocument` -- the records of a document, or its first fault in document order;
* `Table.find?` -- the record of a key.
-/

namespace Sm83Codegen

/-- A loaded opcode table: records in strictly ascending table order. -/
structure Table where
  records : List Record
  deriving DecidableEq, Repr

namespace Table

/-! ## 1. Keys of a page -/

/-- The key that a text names on a page. A text without a page names an opcode of the page it
    stands on. -/
def keyOn (page : Option UInt8) (text : String) : Except GenerationError OpcodeKey :=
  match OpcodeKey.parse? text with
  | none => .error (.invalidOpcodeKey text)
  | some key =>
    let key := if key.page.isNone then { key with page := page } else key
    if key.page == page then .ok key else .error (.invalidOpcodeKey text)

/-! ## 2. Collecting records -/

/-- Puts a record into records in descending order, unless its key is there. -/
def insert? (r : Record) : List Record → Option (List Record)
  | [] => some [r]
  | s :: rest =>
    if s.key.before r.key then some (r :: s :: rest)
    else if r.key.same s.key then none
    else (insert? r rest).map (s :: ·)

/-- Adds the entries of a page, in order, to records in descending order. -/
def addPartition (page : Option UInt8) :
    List Record → Partition → Except GenerationError (List Record)
  | acc, [] => .ok acc
  | acc, (text, e) :: rest => do
    let key ← keyOn page text
    let r ← Record.ofEntry key e
    match insert? r acc with
    | some acc => addPartition page acc rest
    | none => .error (.invalidOpcodeKey text)

/-- The table of a document: the first page, then the second. -/
def ofDocument (d : TableDocument) : Except GenerationError Table := do
  let acc ← addPartition none [] d.plain
  let acc ← addPartition (some secondPage) acc d.paged
  .ok ⟨acc.reverse⟩

/-! ## 3. Look-up -/

/-- The record of a key. -/
def find? (t : Table) (key : OpcodeKey) : Option Record := t.records.find? (fun r => r.key.same key)

/-- The number of records. -/
def size (t : Table) : Nat := t.records.length

end Table

end Sm83Codegen
