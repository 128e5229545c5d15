/-!
# TOML values

The value of a settings document. A table remembers how it came about, because that decides what
may still be added to it.

* `TableOrigin` -- what made a table;
* `Toml` -- a value;
* `find?`, `replace` -- members by name.
-/

namespace Sm83Codegen

/-- What made a table: a header of its own; a longer header that leads through it; a dotted key
    that leads through it; or braces. -/
inductive TableOrigin where
  | header
  | implied
  | dotted
  | braces
  deriving DecidableEq, Repr

/-- A value. Numbers with a fraction or an exponent, and dates, are kept as they are written. An
    array of tables is never empty: its last table stands apart. -/
inductive Toml where
  | string (text : String)
  | integer (n : Int)
  | float (written : String)
  | truth (b : Bool)
  | dateTime (written : String)
  | array (items : List Toml)
  | table (origin : TableOrigin) (members : List (String × Toml))
  | tables (earlier : List (List (String × Toml))) (last : List (String × Toml))

namespace Toml

/-- The members of a table, in the order in which they were added. -/
abbrev Members := List (String × Toml)

/-- The member of a name. -/
def find? (ms : Members) (name : String) : Option Toml :=
  match ms with
  | [] => none
  | (n, v) :: rest => if n == name then some v else find? rest name

/-- Members with the one of a name replaced, or put last if there is none. -/
def replace (ms : Members) (name : String) (v : Toml) : Members :=
  match ms with
  | [] => [(name, v)]
  | (n, w) :: rest => if n == name then (n, v) :: rest else (n, w) :: replace rest name v

end Toml

end Sm83Codegen
