import Sm83Codegen.Flag
import Sm83Codegen.Text.Blank

/-!
# The table's notation for flags

A flag's state in the opcode table is `0`, `1`, `-` or the flag's own letter, with any white
space around it. `FlagEffect.parse?` reads it.
-/

namespace Sm83Codegen.FlagEffect

/-- Reads the state of a flag. Another flag's letter is no state of this one. -/
def parse? (f : Flag) (state : String) : Option FlagEffect :=
  match Text.trim state.toList with
  | ['0'] => some fixedFalse
  | ['1'] => some fixedTrue
  | ['-'] => some unaffected
  | [c] => if c == f.letter then some (computed none) else none
  | _ => none

end Sm83Codegen.FlagEffect
