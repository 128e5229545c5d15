import Sm83Codegen.Json.Number
import Sm83Codegen.Json.Parse
import Sm83Codegen.Table.Document
import Sm83Codegen.Text.Quoted
import Sm83Codegen.Text.Shortest

/-!
# Reading a table document

The text of an opcode table is JSON of a fixed shape. It is read strictly and in the order of the
text: the first fault met is the one reported. Members that no part of the shape names are skipped.
Each part may also be written as an array of its fields in order.

* `TableDocument.ofText` -- the document a text writes, or its fault.
-/

namespace Sm83Codegen

open Json (Number Placed Members)

/-- Why a part of a document cannot be read. A part of the wrong shape comes with the text that is
    left where reading stops. -/
inductive ReadFault where
  | illFormed
  | misshapen (reason : String) (left : List Char)

/-- The fault of a table with a text. -/
def ReadFault.inText (text : List Char) : ReadFault → TableFault
  | illFormed => .illFormed
  | misshapen reason left =>
    .misshapen reason (Text.Position.behind (text.take (text.length - left.length)))

/-- What reading a part of a document gives. -/
abbrev Read (α : Type) := Except ReadFault α

namespace Read

/-! ## 1. Faults -/

/-- A fault of shape. -/
def misshapen {α : Type} (reason : String) (left : List Char) : Read α :=
  .error (.misshapen reason left)

/-- A name in a report. -/
def marked (s : String) : String := "`" ++ s ++ "`"

/-- In a report, numbers from `0.00001` on and below `10^16` are written without an exponent. -/
def reportedFloat : Text.FloatLayout := ⟨-5, 15⟩

/-- What a number is, in a report. -/
def describeNumber (n : Number) : Read String :=
  match n.read with
  | .natural v => .ok ("integer " ++ marked (toString v))
  | .negative v => .ok ("integer " ++ marked ("-" ++ toString v))
  | .float x => .ok ("floating point " ++ marked (Text.floatText reportedFloat x))
  | .tooLarge => .error .illFormed

/-- What a value is, in a report. -/
def describe : Json → Read String
  | .null => .ok "null"
  | .bool b => .ok ("boolean " ++ marked (Text.truthText b))
  | .number n => describeNumber n
  | .string (some s) => .ok ("string " ++ Text.quoted s)
  | .string none => .error .illFormed
  | .array _ => .ok "sequence"
  | .object _ => .ok "map"

/-- What is left of the text when the type of a value is known: an array and an object show theirs
    by their first character. -/
def leftByType (v : Placed Json) : List Char :=
  match v.value with
  | .array _ | .object _ => v.start
  | _ => v.stop

/-- A value of another type than the one asked for. -/
def mismatch {α : Type} (v : Placed Json) (expected : String) : Read α := do
  let what ← describe v.value
  misshapen ("invalid type: " ++ what ++ ", expected " ++ expected) (leftByType v)

/-- A name that occurs twice, which shows before the colon. -/
def duplicate {α : Type} (name : String) (rest : List Char) : Read α :=
  misshapen ("duplicate field " ++ marked name) (rest.dropWhile Json.isGap)

/-- The field of a name, which has to be there when its object ends. -/
def required {α : Type} (name : String) (afterObject : List Char) : Option α → Read α
  | some a => .ok a
  | none => misshapen ("missing field " ++ marked name) afterObject

/-- The value of a field that occurs once more. -/
def once {α : Type} (name : String) (rest : List Char) (old : Option α) (value : Read α) :
    Read (Option α) :=
  if old.isSome then duplicate name rest else value.map some

/-- An array that ends before a field it needs. -/
def tooShort {α : Type} (index : Nat) (part : String) (size : Nat) (afterArray : List Char) :
    Read α :=
  misshapen ("invalid length " ++ toString index ++ ", expected struct " ++ part ++ " with " ++
    toString size ++ " elements") afterArray

/-! ## 2. Plain values -/

/-- A text. -/
def text (v : Placed Json) : Read String :=
  match v.value with
  | .string (some s) => .ok s
  | .string none => .error .illFormed
  | _ => mismatch v "a string"

/-- A truth value. -/
def truth (v : Placed Json) : Read Bool :=
  match v.value with
  | .bool b => .ok b
  | _ => mismatch v "a boolean"

/-- A number that is no byte. -/
def noByte (shown : String) (afterNumber : List Char) : Read UInt8 :=
  misshapen ("invalid value: integer " ++ marked shown ++ ", expected u8") afterNumber

/-- A byte. -/
def byte (v : Placed Json) : Read UInt8 :=
  match v.value with
  | .number n =>
    match n.read with
    | .natural k => if k < 256 then .ok (UInt8.ofNat k) else noByte (toString k) v.stop
    | .negative k => noByte ("-" ++ toString k) v.stop
    | _ => mismatch v "u8"
  | _ => mismatch v "u8"

/-- The elements of a list, each read the same way. -/
def all {α : Type} (f : Placed Json → Read α) : List (Placed Json) → Read (List α)
  | [] => .ok []
  | v :: vs => do
    let a ← f v
    let as ← all f vs
    .ok (a :: as)

/-- A list. -/
def list {α : Type} (f : Placed Json → Read α) (v : Placed Json) : Read (List α) :=
  match v.value with
  | .array vs => all f vs
  | _ => mismatch v "a sequence"

/-! ## 3. Parts with fields -/

/-- Reads members in order into a part that is filled field by field. The name of every member is
    looked at, and what follows it is passed on. -/
def members {α : Type} (step : α → String → List Char → Placed Json → Read α) :
    α → Members → Read α
  | a, [] => .ok a
  | _, (⟨none, _, _⟩, _) :: _ => .error .illFormed
  | a, (⟨some name, _, rest⟩, v) :: ms => do
    let a ← step a name rest v
    members step a ms

/-- An array that goes on after the last field. -/
def ended {α : Type} (a : α) : List (Placed Json) → Read α
  | [] => .ok a
  | _ :: _ => .error .illFormed

/-- A field of an array that may be left out at the end. -/
def optional {α : Type} (f : Placed Json → Read α) (absent : α) :
    List (Placed Json) → Read (α × List (Placed Json))
  | [] => .ok (absent, [])
  | v :: vs => do
    let a ← f v
    .ok (a, vs)

/-- A field of an array that has to be there when the array ends. -/
def needed {α : Type} (f : Placed Json → Read α) (index : Nat) (part : String) (size : Nat)
    (afterArray : List Char) : List (Placed Json) → Read (α × List (Placed Json))
  | [] => tooShort index part size afterArray
  | v :: vs => do
    let a ← f v
    .ok (a, vs)

/-! ## 4. Operands -/

/-- An operand with the fields met so far. -/
structure OperandFields where
  name : Option String := none
  immediate : Option Bool := none
  increment : Option Bool := none
  decrement : Option Bool := none

/-- One more member of an operand. -/
def operandField (o : OperandFields) (name : String) (rest : List Char) (v : Placed Json) :
    Read OperandFields :=
  match name with
  | "name" => (once name rest o.name (text v)).map (fun x => { o with name := x })
  | "immediate" => (once name rest o.immediate (truth v)).map (fun x => { o with immediate := x })
  | "increment" => (once name rest o.increment (truth v)).map (fun x => { o with increment := x })
  | "decrement" => (once name rest o.decrement (truth v)).map (fun x => { o with decrement := x })
  | _ => .ok o

/-- An operand. -/
def operand (v : Placed Json) : Read OperandEntry :=
  match v.value with
  | .object ms => do
    let o ← members operandField {} ms
    let name ← required "name" v.stop o.name
    .ok ⟨name, o.immediate.getD true, o.increment.getD false, o.decrement.getD false⟩
  | .array vs => do
    let (name, vs) ← needed text 0 "RawOperand" 4 v.stop vs
    let (immediate, vs) ← optional truth true vs
    let (increment, vs) ← optional truth false vs
    let (decrement, vs) ← optional truth false vs
    ended ⟨name, immediate, increment, decrement⟩ vs
  | _ => mismatch v "struct RawOperand"

/-! ## 5. Flag states -/

/-- Flag states with the fields met so far. -/
structure FlagFields where
  z : Option String := none
  n : Option String := none
  h : Option String := none
  c : Option String := none

/-- One more member of the flag states. -/
def flagField (s : FlagFields) (name : String) (rest : List Char) (v : Placed Json) :
    Read FlagFields :=
  match name with
  | "Z" => (once name rest s.z (text v)).map (fun x => { s with z := x })
  | "N" => (once name rest s.n (text v)).map (fun x => { s with n := x })
  | "H" => (once name rest s.h (text v)).map (fun x => { s with h := x })
  | "C" => (once name rest s.c (text v)).map (fun x => { s with c := x })
  | _ => .ok s

/-- Flag states. -/
def flagStates (v : Placed Json) : Read FlagStates :=
  match v.value with
  | .object ms => do
    let s ← members flagField {} ms
    let z ← required "Z" v.stop s.z
    let n ← required "N" v.stop s.n
    let h ← required "H" v.stop s.h
    let c ← required "C" v.stop s.c
    .ok ⟨z, n, h, c⟩
  | .array vs => do
    let (z, vs) ← needed text 0 "RawFlags" 4 v.stop vs
    let (n, vs) ← needed text 1 "RawFlags" 4 v.stop vs
    let (h, vs) ← needed text 2 "RawFlags" 4 v.stop vs
    let (c, vs) ← needed text 3 "RawFlags" 4 v.stop vs
    ended ⟨z, n, h, c⟩ vs
  | _ => mismatch v "struct RawFlags"

/-! ## 6. Entries -/

/-- An entry with the fields met so far. -/
structure EntryFields where
  mnemonic : Option String := none
  bytes : Option UInt8 := none
  cycles : Option (List UInt8) := none
  operands : Option (List OperandEntry) := none
  flags : Option FlagStates := none

/-- One more member of an entry. -/
def entryField (e : EntryFields) (name : String) (rest : List Char) (v : Placed Json) :
    Read EntryFields :=
  match name with
  | "mnemonic" => (once name rest e.mnemonic (text v)).map (fun x => { e with mnemonic := x })
  | "bytes" => (once name rest e.bytes (byte v)).map (fun x => { e with bytes := x })
  | "cycles" => (once name rest e.cycles (list byte v)).map (fun x => { e with cycles := x })
  | "operands" =>
    (once name rest e.operands (list operand v)).map (fun x => { e with operands := x })
  | "flags" => (once name rest e.flags (flagStates v)).map (fun x => { e with flags := x })
  | _ => .ok e

/-- An entry. -/
def entry (v : Placed Json) : Read Entry :=
  match v.value with
  | .object ms => do
    let e ← members entryField {} ms
    let mnemonic ← required "mnemonic" v.stop e.mnemonic
    let bytes ← required "bytes" v.stop e.bytes
    let cycles ← required "cycles" v.stop e.cycles
    let flags ← required "flags" v.stop e.flags
    .ok ⟨mnemonic, bytes, cycles, e.operands.getD [], flags⟩
  | .array vs => do
    let (mnemonic, vs) ← needed text 0 "RawEntry" 5 v.stop vs
    let (bytes, vs) ← needed byte 1 "RawEntry" 5 v.stop vs
    let (cycles, vs) ← needed (list byte) 2 "RawEntry" 5 v.stop vs
    let (operands, vs) ← optional (list operand) [] vs
    let (flags, vs) ← needed flagStates 4 "RawEntry" 5 v.stop vs
    ended ⟨mnemonic, bytes, cycles, operands, flags⟩ vs
  | _ => mismatch v "struct RawEntry"

/-! ## 7. The document -/

/-- One more entry of a page. -/
def partitionMember (p : Partition) (name : String) (_ : List Char) (v : Placed Json) :
    Read Partition :=
  (entry v).map (fun e => Partition.put name e p)

/-- A page. -/
def partition (v : Placed Json) : Read Partition :=
  match v.value with
  | .object ms => members partitionMember [] ms
  | _ => mismatch v "a map"

/-- A document with the pages met so far. -/
structure DocumentFields where
  plain : Option Partition := none
  paged : Option Partition := none

/-- One more member of a document. The second page has two names. -/
def documentField (d : DocumentFields) (name : String) (rest : List Char) (v : Placed Json) :
    Read DocumentFields :=
  match name with
  | "unprefixed" => (once name rest d.plain (partition v)).map (fun x => { d with plain := x })
  | "prefixed" => (once "prefixed" rest d.paged (partition v)).map (fun x => { d with paged := x })
  | "cbprefixed" =>
    (once "prefixed" rest d.paged (partition v)).map (fun x => { d with paged := x })
  | _ => .ok d

/-- A document. -/
def document (v : Placed Json) : Read TableDocument :=
  match v.value with
  | .object ms => do
    let d ← members documentField {} ms
    .ok ⟨d.plain.getD [], d.paged.getD []⟩
  | .array vs => do
    let (plain, vs) ← optional partition [] vs
    let (paged, vs) ← optional partition [] vs
    ended ⟨plain, paged⟩ vs
  | _ => mismatch v "struct RawTable"

end Read

/-- The document a text writes. -/
def TableDocument.ofText (s : String) : Except TableFault TableDocument :=
  match Json.parse? s with
  | some v => (Read.document v).mapError (ReadFault.inText s.toList)
  | none => .error .illFormed

end Sm83Codegen
