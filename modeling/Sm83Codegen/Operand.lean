import Sm83Codegen.Logged
import Sm83Codegen.Text.Quoted

/-!
# Operands

The operands the opcode table lists, and what they are once classified.

* `OperandEntry` -- an operand exactly as the table describes it;
* `Operand` -- a classified operand: a register, an immediate, a literal or a condition, direct or
  used as an address, with the step an address register takes;
* `Operand.classify` -- from the one to the other;
* `Operand.aliased` -- whether operands name overlapping registers.
-/

namespace Sm83Codegen

/-! ## 1. Entries of the table -/

/-- An operand as the table describes it. `immediate` marks a direct operand; any other is an
    address. -/
structure OperandEntry where
  name : String
  immediate : Bool := true
  increment : Bool := false
  decrement : Bool := false
  deriving DecidableEq, Repr

/-- The table's own assembly form, such as `n8`, `[HL]` or `[HL+]`. -/
def OperandEntry.assembly (e : OperandEntry) : String :=
  let name := if e.increment then e.name ++ "+" else if e.decrement then e.name ++ "-" else e.name
  if e.immediate then name else "[" ++ name ++ "]"

/-! ## 2. Classified operands -/

/-- What an operand is. -/
inductive OperandKind where
  | reg8
  | reg16
  | regSP
  | imm8
  | imm16
  | literal
  | condition
  deriving DecidableEq, Repr

namespace OperandKind

/-- The name of a kind in reports. -/
def name : OperandKind → String
  | reg8 => "Reg8"
  | reg16 => "Reg16"
  | regSP => "RegSP"
  | imm8 => "Imm8"
  | imm16 => "Imm16"
  | literal => "Literal"
  | condition => "Condition"

/-- Whether a kind is held in the register file. -/
def isRegister : OperandKind → Bool
  | reg8 | reg16 | regSP => true
  | _ => false

/-- Whether a kind is held in the bytes after the opcode. -/
def isImmediate : OperandKind → Bool
  | imm8 | imm16 => true
  | _ => false

/-- The number of bytes after the opcode that hold an operand. -/
def immediateBytes : OperandKind → Nat
  | imm8 => 1
  | imm16 => 2
  | _ => 0

end OperandKind

/-- How a register used as an address changes after the access, as in `(HL+)`. -/
inductive PostStep where
  | stay
  | increment
  | decrement
  deriving DecidableEq, Repr

/-- The name of a step in reports. -/
def PostStep.name : PostStep → String
  | stay => "None"
  | increment => "Increment"
  | decrement => "Decrement"

/-- The part of an operand that the members of a family share. -/
structure OperandShape where
  kind : OperandKind
  indirect : Bool
  step : PostStep
  deriving DecidableEq, Repr

/-- A shape in reports. -/
def OperandShape.display (s : OperandShape) : String :=
  "OperandShape \x7b kind: " ++ s.kind.name ++ ", indirect: " ++ Text.truthText s.indirect ++
    ", step: " ++ s.step.name ++ " \x7d"

/-- A classified operand. -/
structure Operand where
  name : String
  kind : OperandKind
  indirect : Bool
  step : PostStep
  deriving DecidableEq, Repr

/-! ## 3. Names -/

/-- The names of the 8-bit registers. -/
def reg8Names : List String := ["A", "F", "B", "C", "D", "E", "H", "L"]

/-- The names of the register pairs. -/
def pairNames : List String := ["AF", "BC", "DE", "HL"]

/-- Whether a name is an 8-bit register's. -/
def isReg8Name (name : String) : Bool := reg8Names.contains name

/-- Whether a name is a 16-bit register's: a pair's or the stack pointer's. -/
def isReg16Name (name : String) : Bool := pairNames.contains name || name == "SP"

/-- The flag a condition tests and the value it asks for: `NZ` asks for Z clear. -/
def conditionOf (name : String) : Option (Flag × Bool) :=
  if name == "Z" then some (.Z, true)
  else if name == "NZ" then some (.Z, false)
  else if name == "C" then some (.C, true)
  else if name == "NC" then some (.C, false)
  else none

/-- The byte a literal operand writes: `$` and hexadecimal digits, hexadecimal digits and `H`,
    or decimal digits. -/
def literalOf (name : String) : Option UInt8 :=
  match name.toList with
  | '$' :: digits => Text.byteOfHex? digits
  | cs =>
    match cs.reverse with
    | 'H' :: d :: ds => Text.byteOfHex? (d :: ds).reverse
    | _ => Text.byteOfDecimal? cs

/-- What a name stands for; `C` alone is a register. -/
def kindOf (name : String) : Option OperandKind :=
  if ["d8", "n8", "a8", "r8", "e8"].contains name then some .imm8
  else if ["Z", "NZ", "NC"].contains name then some .condition
  else if ["d16", "n16", "a16"].contains name then some .imm16
  else if name == "SP" then some .regSP
  else if isReg8Name name then some .reg8
  else if pairNames.contains name then some .reg16
  else if (literalOf name).isSome then some .literal
  else none

namespace Operand

/-! ## 4. Views -/

/-- What the members of a family share of an operand. -/
def shape (o : Operand) : OperandShape := ⟨o.kind, o.indirect, o.step⟩

/-- The byte a literal operand writes. -/
def literal? (o : Operand) : Option UInt8 :=
  match o.kind with
  | .literal => literalOf o.name
  | _ => none

/-- The flag a condition operand tests and the value for which the branch is taken. -/
def condition? (o : Operand) : Option (Flag × Bool) :=
  match o.kind with
  | .condition => conditionOf o.name
  | _ => none

/-- The operand read as a branch condition, if it is direct and names one. `C` is a register
    until a conditional family claims it. -/
def asCondition? (o : Operand) : Option Operand :=
  if (conditionOf o.name).isSome && !o.indirect then some { o with kind := .condition } else none

/-! ## 5. Classification -/

/-- Whether an operand of a kind can be an address under its name. -/
def namesAddress (kind : OperandKind) (name : String) : Bool :=
  match kind with
  | .imm8 => name == "a8"
  | .imm16 => name == "a16"
  | .reg8 => name == "C"
  | .reg16 => name != "AF"
  | .regSP | .literal | .condition => false

/-- The step of an entry; an entry cannot step both ways. -/
def stepOf? (e : OperandEntry) : Option PostStep :=
  match e.increment, e.decrement with
  | true, false => some .increment
  | false, true => some .decrement
  | false, false => some .stay
  | true, true => none

/-- Classifies one operand. An operand marked as an address that does not name one is reported. -/
def classify (key : OpcodeKey) (e : OperandEntry) : Logged Operand :=
  match kindOf e.name with
  | none => Logged.fail (.unsupportedOperand key e.name)
  | some kind => do
    if !e.immediate && !namesAddress kind e.name then
      Logged.note .warn .operands ("Opcode " ++ key.display ++ ": operand '" ++ e.name ++
        "' is marked indirect but does not name an address")
    match stepOf? e with
    | some step => pure ⟨e.name, kind, !e.immediate, step⟩
    | none => Logged.fail (.unsupportedOperand key (e.name ++ "+-"))

/-- Classifies the operands of an opcode, in order. -/
def classifyAll (key : OpcodeKey) (es : List OperandEntry) : Logged (List Operand) :=
  Logged.collect (classify key) es

/-! ## 6. Aliasing -/

/-- Whether some element occurs twice. -/
def hasRepeat : List String → Bool
  | [] => false
  | n :: ns => ns.contains n || hasRepeat ns

/-- The names of the 8-bit register operands. -/
def byteNames (os : List Operand) : List String :=
  (os.filter (fun o => o.kind == .reg8)).map (·.name)

/-- The names of the 16-bit register operands. -/
def wordNames (os : List Operand) : List String :=
  (os.filter (fun o => o.kind == .reg16 || o.kind == .regSP)).map (·.name)

/-- Whether a text occurs in another. -/
def occursIn (piece : List Char) : List Char → Bool
  | [] => piece.isEmpty
  | c :: cs => piece.isPrefixOf (c :: cs) || occursIn piece cs

/-- Whether two operands name overlapping registers: a register twice, or a pair and its half. -/
def aliased (os : List Operand) : Bool :=
  hasRepeat (byteNames os) || hasRepeat (wordNames os) ||
    (byteNames os).any (fun r => (wordNames os).any (fun p => occursIn r.toList p.toList))

end Operand

end Sm83Codegen
