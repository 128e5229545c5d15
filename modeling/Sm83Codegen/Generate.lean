import Sm83Codegen.Emit.Decode
import Sm83Codegen.Emit.Routine
import Sm83Codegen.Emit.TestCase
import Sm83Codegen.Table
import Sm83Codegen.Table.Reading

/-!
# Generation

From the text of an opcode table and a catalog to the three generated texts.

* `Table.ofText` -- the table a text writes;
* `ClaimedTable` -- a table whose records know the family that claims them;
* `descriptorsOf` -- all families merged;
* `Generated`, `assemble` -- what is generated, as data;
* `generate` -- what is generated, as text.

Every family is merged and its flags are checked whatever is selected, so that a run for a few
opcodes still rejects an inconsistent catalog.
-/

namespace Sm83Codegen

/-! ## 1. Loading the table -/

/-- The table that a text writes. The number of its records is reported. -/
def Table.ofText (text : String) : Logged Table :=
  match TableDocument.ofText text with
  | .error fault => Logged.fail (.tableParse fault)
  | .ok document => do
    let t ← Logged.lift (Table.ofDocument document)
    Logged.note .debug .table ("Loaded " ++ toString t.size ++ " opcodes from table")
    pure t

/-! ## 2. Claims -/

/-- A record and the place in the catalog of the family that claims it. -/
structure Slot where
  record : Record
  owner : Option Nat := none
  deriving DecidableEq, Repr

/-- A table whose records know their families. -/
structure ClaimedTable where
  slots : List Slot
  deriving DecidableEq, Repr

namespace ClaimedTable

/-- The table before any claim. -/
def ofTable (t : Table) : ClaimedTable := ⟨t.records.map (fun r => ⟨r, none⟩)⟩

/-- The slot of a key. -/
def find? (t : ClaimedTable) (key : OpcodeKey) : Option Slot :=
  t.slots.find? (fun s => s.record.key.same key)

/-- The records that a family claims, in table order. -/
def members (t : ClaimedTable) (index : Nat) : List Record :=
  (t.slots.filter (fun s => s.owner == some index)).map (·.record)

/-- The records that no family claims, in table order. -/
def unclaimed (t : ClaimedTable) : List Record :=
  (t.slots.filter (fun s => s.owner.isNone)).map (·.record)

/-- What a claim meets: no slot of its key; a slot that a family has; or a free one, which gives
    the slots after the claim. -/
inductive Claim where
  | missing
  | taken (owner : Nat)
  | made (slots : List Slot)
  deriving DecidableEq, Repr

/-- Claims the slot of a key for the family at a place. -/
def claimSlot (key : OpcodeKey) (index : Nat) : List Slot → Claim
  | [] => .missing
  | s :: rest =>
    if s.record.key.same key then
      match s.owner with
      | some owner => .taken owner
      | none => .made ({ s with owner := some index } :: rest)
    else
      match claimSlot key index rest with
      | .made rest => .made (s :: rest)
      | c => c

/-- Claims a key for the family at a place. A key belongs to one family, and is in the table. -/
def claim (catalog : List Family) (index : Nat) (name : String) (t : ClaimedTable)
    (key : OpcodeKey) : Except GenerationError ClaimedTable :=
  match claimSlot key index t.slots with
  | .missing => .error (.missingOpcode name key)
  | .taken owner =>
    let first := match catalog[owner]? with
      | some f => f.name
      | none => ""
    .error (.duplicateOpcode key first name)
  | .made slots => .ok ⟨slots⟩

/-- Claims keys in order. -/
def claimAll (catalog : List Family) (index : Nat) (name : String) :
    ClaimedTable → List OpcodeKey → Except GenerationError ClaimedTable
  | t, [] => .ok t
  | t, key :: rest => do
    let t ← t.claim catalog index name key
    claimAll catalog index name t rest

/-- Claims the keys of families in order, the first one standing at a place. -/
def assignFrom (catalog : List Family) :
    Nat → ClaimedTable → List Family → Except GenerationError ClaimedTable
  | _, t, [] => .ok t
  | index, t, f :: rest => do
    let t ← claimAll catalog index f.name t f.keys
    assignFrom catalog (index + 1) t rest

/-- Claims the keys of all families of a catalog. -/
def assign (catalog : List Family) (t : Table) : Except GenerationError ClaimedTable :=
  assignFrom catalog 0 (ofTable t) catalog

/-- The table that a text writes, claimed by a catalog. -/
def load (text : String) (catalog : List Family) : Logged ClaimedTable := do
  let t ← Table.ofText text
  Logged.lift (assign catalog t)

end ClaimedTable

/-! ## 3. Checks before merging -/

/-- Which opcodes are asked for: all of them, or some, in table order. -/
structure Selection where
  keys : Option (List OpcodeKey) := none
  deriving DecidableEq, Repr

namespace Selection

/-- Puts a key into keys in table order, once. -/
def insertKey (k : OpcodeKey) : List OpcodeKey → List OpcodeKey
  | [] => [k]
  | l :: rest =>
    if k.before l then k :: l :: rest
    else if k == l then l :: rest
    else l :: insertKey k rest

/-- The selection of some opcodes, in any order. -/
def ofKeys (ks : List OpcodeKey) : Selection := ⟨some (ks.foldl (fun l k => insertKey k l) [])⟩

/-- Whether an opcode is asked for. -/
def selects (s : Selection) (k : OpcodeKey) : Bool :=
  match s.keys with
  | some ks => ks.contains k
  | none => true

end Selection

/-- Checks families in order: names and the identifiers made from them are unique, and every
    family has an opcode. -/
def checkFamilies :
    List String → List String → List Family → Except GenerationError Unit
  | _, _, [] => .ok ()
  | names, encoded, f :: rest =>
    if names.contains f.name || encoded.contains f.encodedName then
      .error (.duplicateFamily f.name)
    else if f.opcodes.isEmpty then .error (.emptyFamily f.name)
    else checkFamilies (f.name :: names) (f.encodedName :: encoded) rest

/-- Checks a catalog. -/
def checkCatalog (catalog : List Family) : Except GenerationError Unit :=
  checkFamilies [] [] catalog

/-- Checks that selected opcodes are claimed, in order. -/
def checkSelected (t : ClaimedTable) : List OpcodeKey → Except GenerationError Unit
  | [] => .ok ()
  | key :: rest =>
    match t.find? key with
    | some s =>
      if s.owner.isSome then checkSelected t rest
      else .error (.authoringGap s.record.assembly key.display)
    | none => .error (.authoringGap "opcode not in table" key.display)

/-- The unclaimed opcodes of a mnemonic. -/
abbrev Gap := String × List OpcodeKey

/-- Adds an opcode to the gaps, which stand in the order of their mnemonics. -/
def addGap (mnemonic : String) (key : OpcodeKey) : List Gap → List Gap
  | [] => [(mnemonic, [key])]
  | (m, ks) :: rest =>
    if m == mnemonic then (m, ks ++ [key]) :: rest
    else if mnemonic < m then (mnemonic, [key]) :: (m, ks) :: rest
    else (m, ks) :: addGap mnemonic key rest

/-- The gaps of a table. -/
def gapsOf (t : ClaimedTable) : List Gap :=
  t.unclaimed.foldl (fun gs r => addGap r.mnemonic r.key gs) []

/-- Reports gaps in order. -/
def reportGaps : List Gap → Logged Unit
  | [] => pure ()
  | (mnemonic, keys) :: rest => do
    Logged.note .warn .generation
      ("No authored semantics for " ++ mnemonic ++ " (" ++ keyList keys ++ "), skipping")
    reportGaps rest

/-- An opcode without semantics is a fault if it was asked for, and a report if all were. -/
def checkGaps (t : ClaimedTable) (s : Selection) : Logged Unit :=
  match s.keys with
  | some ks => Logged.lift (checkSelected t ks)
  | none => reportGaps (gapsOf t)

/-! ## 4. Merging -/

/-- Merges a family and reports what its members share. -/
def mergeReported (f : Family) (rs : List Record) : Logged Descriptor := do
  let d ← Descriptor.merge f rs
  Logged.note .debug .generation ("Family '" ++ f.name ++ "': " ++ toString d.members.length ++
    " opcodes, flags " ++ d.flags.display ++ ", length " ++ toString d.length.toNat)
  pure d

/-- Merges families in order, the first one standing at a place. -/
def descriptorsFrom (t : ClaimedTable) : Nat → List Family → Logged (List Descriptor)
  | _, [] => pure []
  | index, f :: rest => do
    let d ← mergeReported f (t.members index)
    let ds ← descriptorsFrom t (index + 1) rest
    pure (d :: ds)

/-- Merges all families of a catalog. -/
def descriptorsOf (t : ClaimedTable) (catalog : List Family) : Logged (List Descriptor) :=
  descriptorsFrom t 0 catalog

/-! ## 5. Assembling -/

/-- What is generated, as data. -/
structure Generated where
  branches : List Branch
  routines : List Routine
  tests : List TestBlock
  deriving DecidableEq, Repr

/-- Nothing generated yet. -/
def Generated.empty : Generated := ⟨[], [], []⟩

/-- What is generated first, then the rest. -/
def Generated.append (g h : Generated) : Generated :=
  ⟨g.branches ++ h.branches, g.routines ++ h.routines, g.tests ++ h.tests⟩

/-- What is generated for a family. A family without selected members is only checked. -/
def generateFamily (s : Selection) (d : Descriptor) : Logged Generated := do
  Logged.lift d.checkFlags
  let selected := d.members.filter (fun m => s.selects m.key)
  if selected.isEmpty then pure .empty
  else do
    let tests ← Logged.collect d.testBlock selected
    pure ⟨selected.map d.branch, [d.routine], tests⟩

/-- What is generated for families, in order. -/
def generateFamilies (s : Selection) : List Descriptor → Logged Generated
  | [] => pure .empty
  | d :: rest => do
    let g ← generateFamily s d
    let h ← generateFamilies s rest
    pure (g.append h)

/-- What is generated for a table, a catalog and a selection. -/
def assemble (text : String) (catalog : List Family) (s : Selection) : Logged Generated := do
  Logged.lift (checkCatalog catalog)
  let t ← ClaimedTable.load text catalog
  checkGaps t s
  let ds ← descriptorsOf t catalog
  let g ← generateFamilies s ds
  Logged.note .info .generation ("Generated " ++ toString g.branches.length ++ " opcodes in " ++
    toString g.routines.length ++ " routines (" ++ toString t.slots.length ++ " opcodes in table)")
  pure g

/-! ## 6. Texts -/

/-- The generated texts. -/
structure Artifacts where
  decode : String
  execution : String
  tests : String
  deriving DecidableEq, Repr

/-- What is generated, as text: the branches one after the other, the routines and the test blocks
    with an empty line between two. -/
def Generated.artifacts (g : Generated) : Artifacts where
  decode := String.join (g.branches.map Branch.text)
  execution := String.intercalate "\n" (g.routines.map Routine.text)
  tests := String.intercalate "\n" (g.tests.map TestBlock.text)

/-- Generates the texts for a table, a catalog and a selection. -/
def generate (text : String) (catalog : List Family) (s : Selection) : Logged Artifacts := do
  let g ← assemble text catalog s
  pure g.artifacts

end Sm83Codegen
