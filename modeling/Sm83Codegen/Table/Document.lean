import Sm83Codegen.Operand

/-!
# The opcode table as a document

What the text of an opcode table says, before anything is checked: two partitions of entries, each
under the key it is written with.

* `FlagStates`, `Entry`, `TableDocument` -- the parts of a document;
* `Partition.put` -- an entry under a key that was there already takes the place of the first.
-/

namespace Sm83Codegen

/-- The written states of the four flags. -/
structure FlagStates where
  z : String
  n : String
  h : String
  c : String
  deriving DecidableEq, Repr

namespace FlagStates

/-- The written state of a flag. -/
def get (s : FlagStates) : Flag → String
  | .Z => s.z
  | .N => s.n
  | .H => s.h
  | .C => s.c

end FlagStates

/-- An opcode as the table describes it. -/
structure Entry where
  mnemonic : String
  bytes : UInt8
  cycles : List UInt8
  operands : List OperandEntry
  flags : FlagStates
  deriving DecidableEq, Repr

/-- The entries of one page, each under the key it is written with, in order. -/
abbrev Partition := List (String × Entry)

/-- Puts an entry under a key: over the one that is there, or at the end. -/
def Partition.put (key : String) (e : Entry) : Partition → Partition
  | [] => [(key, e)]
  | (k, d) :: rest => if k == key then (k, e) :: rest else (k, d) :: Partition.put key e rest

/-- The two pages of a table. -/
structure TableDocument where
  plain : Partition := []
  paged : Partition := []
  deriving DecidableEq, Repr

end Sm83Codegen
