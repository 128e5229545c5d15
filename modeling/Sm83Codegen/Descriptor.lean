import Sm83Codegen.Family
import Sm83Codegen.Text.Layout

/-!
# Merged families

The members of a family share one routine, so their records must agree in everything the routine
depends on.

* `Member` -- a record with its operands classified after the family's adjustment;
* `Signature` -- what has to agree: flags, length, operand shapes;
* `Descriptor.merge` -- the family with its members, or the first reason why they do not merge.
-/

namespace Sm83Codegen

/-! ## 1. Members -/

/-- A record and its classified operands. -/
structure Member where
  record : Record
  operands : List Operand
  deriving DecidableEq, Repr

/-- What the members of a family share. -/
structure Signature where
  flags : FlagEffects
  length : UInt8
  shapes : List OperandShape
  deriving DecidableEq, Repr

/-- The key of a member. -/
def Member.key (m : Member) : OpcodeKey := m.record.key

/-- What a member asks of its family. -/
def Member.signature (m : Member) : Signature :=
  ⟨m.record.flags, m.record.length, m.operands.map Operand.shape⟩

/-- Whether a member names overlapping registers as its operands. -/
def Member.aliased (m : Member) : Bool := Operand.aliased m.operands

/-! ## 2. The layout of one member -/

namespace Layout

/-- A layout that no routine can have. -/
def fault {α : Type} (f : Family) (r : Record) (reason : String) : Except GenerationError α :=
  .error (.unsupportedLayout f.name r.key reason)

/-- The operands of a conditional member, the first one read as its condition. -/
def claimCondition (f : Family) (r : Record) (os : List Operand) :
    Except GenerationError (List Operand) :=
  match os with
  | [] => fault f r "first operand is not a branch condition"
  | o :: rest =>
    match o.asCondition? with
    | some c => .ok (c :: rest)
    | none => fault f r "first operand is not a branch condition"

/-- The conditions among operands. -/
def conditionsOf (os : List Operand) : List (Flag × Bool) := os.filterMap Operand.condition?

/-- A conditional member has one condition, on a flag it does not write, and two cycle counts. Any
    other member has no condition. -/
def checkConditions (f : Family) (r : Record) (os : List Operand) : Except GenerationError Unit :=
  match f.conditional, conditionsOf os with
  | false, [] => .ok ()
  | false, _ => fault f r "branch condition outside a conditional family"
  | true, [(flag, _)] =>
    if r.flags.get flag != .unaffected then
      fault f r ("condition flag " ++ flag.name ++ " is also written")
    else if r.cycles.alternate.isNone then
      fault f r "no cycle count for the untaken branch"
    else .ok ()
  | true, conditions => fault f r (toString conditions.length ++ " branch conditions")

/-- The number of bytes after the opcode that operands take. -/
def immediateBytes (os : List Operand) : Nat :=
  os.foldr (fun o n => o.kind.immediateBytes + n) 0

/-- A routine takes a destination and a source at most, with one immediate and one literal among
    them, and an instruction is as long as its page byte, its opcode and its immediates. -/
def check (f : Family) (r : Record) (os : List Operand) : Except GenerationError Unit :=
  if os.length > 2 then fault f r (toString os.length ++ " operands after rewrite")
  else if (os.filter (fun o => o.kind.isImmediate)).length > 1 then
    fault f r "more than one immediate operand"
  else if (os.filter (fun o => o.kind == .literal)).length > 1 then
    fault f r "more than one literal operand"
  else do
    checkConditions f r os
    if r.length.toNat != 1 + r.key.pageLength + immediateBytes os then
      .error (.invalidLength r.key r.length)
    else .ok ()

end Layout

/-- A record as a member of a family. -/
def Member.ofRecord (f : Family) (r : Record) : Logged Member := do
  let os ← Operand.classifyAll r.key (f.adjustment.apply r.operands)
  let os ← Logged.lift (if f.conditional then Layout.claimCondition f r os else .ok os)
  Logged.lift (Layout.check f r os)
  pure ⟨r, os⟩

/-! ## 3. Groups of members -/

/-- A signature and the keys of the members that have it. -/
abbrev SignatureGroup := Signature × List OpcodeKey

/-- Adds a key to the group of its signature, or a new group at the end. -/
def addToGroup (s : Signature) (k : OpcodeKey) : List SignatureGroup → List SignatureGroup
  | [] => [(s, [k])]
  | (t, ks) :: rest => if t = s then (t, ks ++ [k]) :: rest else (t, ks) :: addToGroup s k rest

/-- The groups of members, in the order in which their signatures first occur. -/
def groupsOf (ms : List Member) : List SignatureGroup :=
  ms.foldl (fun gs m => addToGroup m.signature m.key gs) []

/-- Keys in a report. -/
def keyList (ks : List OpcodeKey) : String := Text.commaSeparated (ks.map OpcodeKey.display)

/-- A group in a report. -/
def groupText (g : SignatureGroup) : String :=
  "[" ++ keyList g.2 ++ "] flags " ++ g.1.flags.display ++ " length " ++
    toString g.1.length.toNat ++ " operands [" ++
    Text.commaSeparated (g.1.shapes.map OperandShape.display) ++ "]"

/-! ## 4. Descriptors -/

/-- A family with its members and what they share; carry widths are part of the flag effects. -/
structure Descriptor where
  family : Family
  shapes : List OperandShape
  flags : FlagEffects
  length : UInt8
  aliased : Bool
  members : List Member

namespace Descriptor

/-- Flag effects with carry widths, where a flag is computed and has none yet. -/
def withWidths (widths : List (Flag × CarryWidth)) (e : FlagEffects) : FlagEffects :=
  widths.foldl
    (fun e w => if e.get w.1 = .computed none then e.set w.1 (.computed (some w.2)) else e) e

/-- The descriptor of members that agree. -/
def ofMembers (f : Family) (ms : List Member) (s : Signature) : Descriptor :=
  ⟨f, s.shapes, withWidths f.carryWidths s.flags, s.length, ms.any Member.aliased, ms⟩

/-- Members as a descriptor, if they agree. -/
def unite (f : Family) (ms : List Member) : Except GenerationError Descriptor :=
  match groupsOf ms with
  | [] => .error (.emptyFamily f.name)
  | [(s, _)] => .ok (ofMembers f ms s)
  | groups => .error (.divergentFamily f.name (String.intercalate "; " (groups.map groupText)))

/-- The keys of the members that name overlapping registers. -/
def aliasedKeys (d : Descriptor) : List OpcodeKey :=
  (d.members.filter Member.aliased).map Member.key

/-- Merges records into their family. Overlapping operands are reported. -/
def merge (f : Family) (rs : List Record) : Logged Descriptor := do
  let ms ← Logged.collect (Member.ofRecord f) rs
  let d ← Logged.lift (unite f ms)
  if d.aliased then
    Logged.note .debug .families
      ("Family '" ++ f.name ++ "': aliased operands in " ++ keyList d.aliasedKeys)
  pure d

/-! ## 5. What a routine needs -/

/-- The name of the family's routine. -/
def routineName (d : Descriptor) : String := "execute_" ++ d.family.encodedName

/-- Whether the routine uses the register file. -/
def usesRegisters (d : Descriptor) : Bool :=
  d.family.implicit.registers || d.shapes.any (fun s => s.kind.isRegister)

/-- The access to memory that the operands need. A first operand in memory is written. -/
def operandAccess (d : Descriptor) : MemoryAccess :=
  match d.shapes with
  | [] => .none
  | first :: rest =>
    if first.indirect then .write
    else if rest.any (fun s => s.indirect) then .read
    else .none

/-- The access to memory that the routine needs. -/
def memoryAccess (d : Descriptor) : MemoryAccess :=
  d.operandAccess.join d.family.implicit.memory

/-- The number of bytes after the opcode. -/
def immediateBytes (d : Descriptor) : Nat :=
  d.shapes.foldr (fun s n => s.kind.immediateBytes + n) 0

/-- How a routine gets a flag: borrowed, or by value. -/
inductive FlagUse where
  | borrowed (f : Flag)
  | byValue (f : Flag)
  deriving DecidableEq, Repr

/-- The flags of the routine in order. A flag that is written is borrowed, and one that is left
    alone comes by value if the fragment reads it. -/
def flagUses (d : Descriptor) : List FlagUse :=
  Flag.all.filterMap (fun f =>
    match d.flags.get f with
    | .unaffected => if d.family.implicit.readsFlags.contains f then some (.byValue f) else none
    | _ => some (.borrowed f))

end Descriptor

end Sm83Codegen
