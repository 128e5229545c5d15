import Sm83Codegen.Text.Visible

/-!
# Values shown in reports

* `truthText` -- a truth value;
* `quoted` -- a text between quotation marks, with the characters escaped that would not show.
-/

namespace Sm83Codegen.Text

/-- A truth value in reports and in generated text. -/
def truthText (b : Bool) : String := if b then "true" else "false"

/-- The digits of a code point in small hexadecimal, as few as possible. -/
def codePointDigits (n : Nat) : String :=
  String.ofList (Nat.toDigits 16 n)

/-- The form of a character in a report. -/
def shown (c : Char) : String :=
  match c with
  | '\"' => "\\\""
  | '\\' => "\\\\"
  | '\n' => "\\n"
  | '\r' => "\\r"
  | '\t' => "\\t"
  | _ =>
    if c.toNat = 0 then "\\0"
    else if isVisible c then String.singleton c
    else "\\u\x7b" ++ codePointDigits c.toNat ++ "\x7d"

/-- A text between quotation marks. -/
def quoted (s : String) : String := "\"" ++ String.join (s.toList.map shown) ++ "\""

end Sm83Codegen.Text
