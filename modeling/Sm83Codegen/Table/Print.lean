import Sm83Codegen.Operand
import Sm83Codegen.Table.Document
import Sm83Codegen.Text.Layout

/-!
# Writing a table document

The text of an opcode table: JSON with a line an opcode. Beside what is read back, an operand says
how many bytes it takes and an opcode whether all its operands are direct.

* `TableDocument.text` -- the text of a document.
-/

namespace Sm83Codegen

namespace TablePrint

/-! ## 1. Values -/

/-- A character inside a quoted text. -/
def escapedChar (c : Char) : String :=
  if c == '\"' || c == '\\' then "\\" ++ String.singleton c
  else if c.toNat < 0x20 then "\\u00" ++ Text.hexByteLower (UInt8.ofNat c.toNat)
  else String.singleton c

/-- A quoted text. -/
def string (s : String) : String := "\"" ++ String.join (s.toList.map escapedChar) ++ "\""

/-- A named value. -/
def named (name value : String) : String := string name ++ ": " ++ value

/-- Values between square brackets. -/
def array (values : List String) : String := "[" ++ Text.commaSeparated values ++ "]"

/-- Named values between braces. -/
def object (members : List String) : String := "\x7b" ++ Text.commaSeparated members ++ "\x7d"

/-! ## 2. Entries -/

/-- The number of bytes an operand takes, if it is an immediate. -/
def bytesMember (e : OperandEntry) : List String :=
  match kindOf e.name with
  | some .imm8 => [named "bytes" "1"]
  | some .imm16 => [named "bytes" "2"]
  | _ => []

/-- A member that is written only if it holds. -/
def member (name : String) (b : Bool) : List String := if b then [named name "true"] else []

/-- An operand. -/
def operand (e : OperandEntry) : String :=
  object (named "name" (string e.name) :: (bytesMember e ++
    [named "immediate" (Text.truthText e.immediate)] ++ member "increment" e.increment ++
      member "decrement" e.decrement))

/-- Flag states. -/
def flags (s : FlagStates) : String :=
  object (Flag.all.map (fun f => named f.name (string (s.get f))))

/-- An entry. -/
def entry (e : Entry) : String :=
  object [named "mnemonic" (string e.mnemonic), named "bytes" (toString e.bytes.toNat),
    named "cycles" (array (e.cycles.map (fun n => toString n.toNat))),
    named "operands" (array (e.operands.map operand)),
    named "immediate" (Text.truthText (e.operands.all (fun o => o.immediate))),
    named "flags" (flags e.flags)]

/-! ## 3. Pages -/

/-- A page: a line an opcode. -/
def partition (name : String) (p : Partition) : String :=
  "  " ++ named name ("\x7b\n" ++
    String.intercalate ",\n" (p.map (fun e => "    " ++ named e.1 (entry e.2))) ++ "\n  \x7d")

end TablePrint

/-- The text of a document. -/
def TableDocument.text (d : TableDocument) : String :=
  "\x7b\n" ++ String.intercalate ",\n"
    [TablePrint.partition "unprefixed" d.plain, TablePrint.partition "cbprefixed" d.paged] ++
    "\n\x7d\n"

end Sm83Codegen
