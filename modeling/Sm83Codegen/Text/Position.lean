import Sm83Codegen.Text.Layout

/-!
# Positions in a text

* `Position` -- a line, counted from one, and how many bytes of it come before;
* `Position.behind` -- the position right behind a text.
-/

namespace Sm83Codegen.Text

/-- A line and the number of bytes before the position in that line. -/
structure Position where
  line : Nat
  column : Nat
  deriving DecidableEq, Repr

namespace Position

/-- The position behind a text. -/
def behind (cs : List Char) : Position :=
  ⟨1 + cs.count '\n', byteLength (cs.reverse.takeWhile (fun c => c != '\n'))⟩

/-- A position in a report. -/
def text (p : Position) : String :=
  "line " ++ toString p.line ++ " column " ++ toString p.column

end Position

end Sm83Codegen.Text
