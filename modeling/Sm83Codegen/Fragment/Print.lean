import Sm83Codegen.Fragment.Syntax
import Sm83Codegen.Text.Hex
import Sm83Codegen.Text.Layout
import Sm83Codegen.Text.Quoted

/-!
# The written form of a fragment

Every expression and statement of the fragment language as it stands in a routine.

* `Expr.text`, `Statement.text` -- on one line;
* `Program.lines` -- a line a statement, what is chosen indented by four;
* `Fragment.text` -- the lines in the fragment's layout.
-/

namespace Sm83Codegen

/-! ## 1. Numbers and registers -/

/-- A number in at least so many capital hexadecimal digits. -/
def hexDigits (n : Nat) : Nat → List Char
  | 0 => []
  | digits + 1 => hexDigits (n / 16) digits ++ [Text.hexDigit (n % 16)]

/-- A number as it is spelled. -/
def Spelling.text (t : IntType) (n : Nat) : Spelling → String
  | decimal => toString n
  | typed => toString n ++ t.text
  | hex digits => "0x" ++ String.ofList (hexDigits n digits)

/-- The written form of a register. -/
def RegisterTerm.text : RegisterTerm → String
  | given b => b.text
  | byte r => "Reg8::" ++ r.name
  | word r => "Reg16::" ++ r.name

/-! ## 2. Expressions -/

/-- The written form of an expression. -/
def Expr.text : Expr → String
  | get b => b.text
  | through b => b.text
  | deref b => "*" ++ b.text
  | number t n s => s.text t n
  | truth b => Text.truthText b
  | register r => "registers[" ++ r.text ++ "]"
  | pair r => "registers.get16(" ++ r.text ++ ")"
  | byteAt a => "memory[" ++ a.text ++ "]"
  | cast e t => e.text ++ " as " ++ t.text
  | group e => "(" ++ e.text ++ ")"
  | complement e => "!" ++ e.text
  | binary op l r => l.text ++ " " ++ op.text ++ " " ++ r.text
  | wrappingAdd l r => l.text ++ ".wrapping_add(" ++ r.text ++ ")"
  | wrappingSub l r => l.text ++ ".wrapping_sub(" ++ r.text ++ ")"
  | rotateLeft e n => e.text ++ ".rotate_left(" ++ toString n ++ ")"
  | rotateRight e n => e.text ++ ".rotate_right(" ++ toString n ++ ")"
  | ofBytes l h => "u16::from_le_bytes([" ++ l.text ++ ", " ++ h.text ++ "])"

/-! ## 3. Statements -/

/-- The written form of a place. -/
def Place.text : Place → String
  | named b => b.text
  | deref b => "*" ++ b.text
  | register r => "registers[" ++ r.text ++ "]"
  | byteAt a => "memory[" ++ a.text ++ "]"

/-- The written form of a byte's name. -/
def byteName : Option Binding → String
  | some b => b.text
  | none => "_"

/-- The written form of a statement. -/
def Statement.text : Statement → String
  | bind b e => "let " ++ b.text ++ " = " ++ e.text ++ ";"
  | bindMutable b e => "let mut " ++ b.text ++ " = " ++ e.text ++ ";"
  | drop e => "let _ = " ++ e.text ++ ";"
  | bindBytes l h e =>
    "let [" ++ byteName l ++ ", " ++ byteName h ++ "] = " ++ e.text ++ ".to_le_bytes();"
  | assign p e => p.text ++ " = " ++ e.text ++ ";"
  | update op p e => p.text ++ " " ++ op.text ++ "= " ++ e.text ++ ";"
  | setPair r e => "registers.set16(" ++ r.text ++ ", " ++ e.text ++ ");"

/-- The lines of a program. -/
def Program.lines : Program → List String
  | done => []
  | blank rest => "" :: rest.lines
  | step s rest => s.text :: rest.lines
  | choose c yes done rest =>
    ("if " ++ c.text ++ " \x7b") :: (yes.lines.map (Text.indented 4) ++ "\x7d" :: rest.lines)
  | choose c yes no rest =>
    ("if " ++ c.text ++ " \x7b") :: (yes.lines.map (Text.indented 4) ++
      "\x7d" :: "else \x7b" :: (no.lines.map (Text.indented 4) ++ "\x7d" :: rest.lines))

/-! ## 4. Fragments -/

/-- The text of a fragment. -/
def Fragment.text : Fragment → String
  | program .joined p => String.intercalate "\n" p.lines
  | program .ended p => Text.textOf p.lines
  | program .framed p => "\n" ++ Text.textOf p.lines
  | verbatim text => text

end Sm83Codegen
