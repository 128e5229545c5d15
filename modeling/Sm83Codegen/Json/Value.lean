/-!
# JSON values

A JSON value as a document writes it: members in the order of the document, repeated names
included, and numbers as the digits they are written with.

* `Number` -- a written number;
* `Placed` -- something read, with the text from where it starts and the text behind it, which
  tell where it stands;
* `Json` -- a value. A text that escapes half of a surrogate pair stands for no string; it is kept
  as `none`, so that a reader can skip it and only a look at it fails.
-/

namespace Sm83Codegen

namespace Json

/-- A written number: its sign, the digits before the point, the digits after it, and the
    exponent with its sign, the last two if there are any. -/
structure Number where
  negative : Bool
  whole : List Char
  fraction : Option (List Char)
  exponent : Option (Bool × List Char)
  deriving DecidableEq, Repr

/-- Something read from a text: what the text is from its first character on, and behind it. -/
structure Placed (α : Type) where
  value : α
  start : List Char
  stop : List Char

end Json

/-- A JSON value, in the order and with the spelling of its document. -/
inductive Json where
  | null
  | bool (b : Bool)
  | number (n : Json.Number)
  | string (text : Option String)
  | array (items : List (Json.Placed Json))
  | object (members : List (Json.Placed (Option String) × Json.Placed Json))

end Sm83Codegen
