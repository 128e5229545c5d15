import Sm83Codegen.Convention

/-!
# Decode branches

The branch of the decoder that selects a member, calls its routine and yields the cycle count.

* `Branch` -- a branch as data;
* `Descriptor.branch` -- the branch of a member;
* `Branch.lines` -- its written form; `Branch.lines_eq` -- which lines these are.
-/

namespace Sm83Codegen

/-- The indentation of a branch. -/
def branchIndent : Nat := 12

/-- A branch: what it matches, what it calls, and the cycles it yields. `untaken` is there if the
    routine reports whether it branched. -/
structure Branch where
  pattern : List PatternItem
  routine : String
  arguments : List Argument
  base : UInt8
  untaken : Option UInt8
  deriving DecidableEq, Repr

/-- The branch of a member. -/
def Descriptor.branch (d : Descriptor) (m : Member) : Branch where
  pattern := m.pattern
  routine := d.routineName
  arguments := d.arguments m
  base := m.record.cycles.base
  untaken := if d.family.conditional then m.record.cycles.alternate else none

namespace Branch

/-- The cycles of a branch, by whether the routine branched. -/
def cycles (b : Branch) (taken : Bool) : UInt8 :=
  match b.untaken with
  | some untaken => if taken then b.base else untaken
  | none => b.base

/-- A cycle count on a line. -/
def cycleLine (indent : Nat) (n : UInt8) : String := Text.indented indent (toString n.toNat)

/-- The lines inside a branch. -/
def bodyLines (b : Branch) : List String :=
  let body := branchIndent + 4
  let arguments := b.arguments.map Argument.text
  match b.untaken with
  | some untaken =>
    Text.listed body ("if Self::" ++ b.routine ++ "(") arguments ") \x7b" ++
      [cycleLine (body + 4) b.base, Text.indented body "\x7d", Text.indented body "else \x7b",
        cycleLine (body + 4) untaken, Text.indented body "\x7d"]
  | none =>
    Text.listed body ("Self::" ++ b.routine ++ "(") arguments ");" ++ [cycleLine body b.base]

/-- The lines of a branch. -/
def lines (b : Branch) : List String :=
  Text.indented branchIndent (patternText b.pattern ++ " => \x7b") ::
    (b.bodyLines ++ [Text.indented branchIndent "\x7d"])

/-- The text of a branch. -/
def text (b : Branch) : String := Text.textOf b.lines

/-- **A branch is written as its pattern, its call and its cycles.** If the routine tells whether it
    branched, the call is the condition that chooses between the two counts. -/
theorem lines_eq (b : Branch) : b.lines =
    ["            [" ++ String.intercalate ", " (b.pattern.map PatternItem.text) ++ "]" ++
      " => \x7b"] ++
    (match b.untaken with
      | none =>
        Text.listed 16 ("Self::" ++ b.routine ++ "(") (b.arguments.map Argument.text) ");" ++
          ["                " ++ toString b.base.toNat]
      | some untaken =>
        Text.listed 16 ("if Self::" ++ b.routine ++ "(") (b.arguments.map Argument.text)
            ") \x7b" ++
          ["                    " ++ toString b.base.toNat, "                \x7d",
            "                else \x7b", "                    " ++ toString untaken.toNat,
            "                \x7d"]) ++
    ["            \x7d"] := by
  have h12 : Text.spaces 12 = "            " := by rfl
  have h16 : Text.spaces 16 = "                " := by rfl
  have h20 : Text.spaces 20 = "                    " := by rfl
  unfold lines bodyLines
  cases b.untaken with
  | none =>
    simp [branchIndent, cycleLine, patternText, Text.commaSeparated, Text.indented_of_ne_empty,
      h12, h16, ← String.append_assoc]
  | some untaken =>
    simp [branchIndent, cycleLine, patternText, Text.commaSeparated, Text.indented_of_ne_empty,
      h12, h16, h20, ← String.append_assoc]

end Branch

end Sm83Codegen
