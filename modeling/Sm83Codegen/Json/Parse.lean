import Sm83Codegen.Json.Token

/-!
# From words to a value

The words of a JSON text are read from left to right with a stack of the arrays and objects that
are open, so that a value may be nested as deep as its text is long.

* `Frame` -- an open array or object with what it holds so far;
* `Expecting` -- what the next word has to be;
* `parse?` -- the value of a text, if it is one well-formed value.
-/

namespace Sm83Codegen.Json

/-- The members of an object. -/
abbrev Members := List (Placed (Option String) × Placed Json)

/-- An open array, an open object, or an open object with a name that waits for its value, each
    with the text it starts. What is held is listed last first. -/
inductive Frame where
  | array (start : List Char) (items : List (Placed Json))
  | object (start : List Char) (members : Members)
  | member (start : List Char) (members : Members) (name : Placed (Option String))

/-- What has to come next: a value; a value or the end of an empty array; a name or the end of an
    empty object; a name; the colon after a name; or what follows a complete value. -/
inductive Expecting where
  | value
  | firstItem
  | firstName
  | name
  | colon (name : Placed (Option String))
  | after (value : Placed Json)

/-- Reads words until they end; they have to end after a value that nothing encloses. -/
def build : Expecting → List Frame → List (Placed Token) → Option (Placed Json)
  | .after v, [], [] => some v
  | _, _, [] => none
  | .after v, .array start items :: stack, ⟨.comma, _, _⟩ :: ts =>
    build .value (.array start (v :: items) :: stack) ts
  | .after v, .array start items :: stack, ⟨.endArray, _, stop⟩ :: ts =>
    build (.after ⟨.array (v :: items).reverse, start, stop⟩) stack ts
  | .after v, .member start members name :: stack, ⟨.comma, _, _⟩ :: ts =>
    build .name (.object start ((name, v) :: members) :: stack) ts
  | .after v, .member start members name :: stack, ⟨.endObject, _, stop⟩ :: ts =>
    build (.after ⟨.object ((name, v) :: members).reverse, start, stop⟩) stack ts
  | .after _, _, _ :: _ => none
  | .firstItem, .array start [] :: stack, ⟨.endArray, _, stop⟩ :: ts =>
    build (.after ⟨.array [], start, stop⟩) stack ts
  | .firstName, .object start [] :: stack, ⟨.endObject, _, stop⟩ :: ts =>
    build (.after ⟨.object [], start, stop⟩) stack ts
  | .firstName, stack, ⟨.scalar (.string name), start, stop⟩ :: ts =>
    build (.colon ⟨name, start, stop⟩) stack ts
  | .firstName, _, _ :: _ => none
  | .name, stack, ⟨.scalar (.string name), start, stop⟩ :: ts =>
    build (.colon ⟨name, start, stop⟩) stack ts
  | .name, _, _ :: _ => none
  | .colon name, .object start members :: stack, ⟨.colon, _, _⟩ :: ts =>
    build .value (.member start members name :: stack) ts
  | .colon _, _, _ :: _ => none
  | _, stack, ⟨.scalar v, start, stop⟩ :: ts => build (.after ⟨v, start, stop⟩) stack ts
  | _, stack, ⟨.beginArray, start, _⟩ :: ts => build .firstItem (.array start [] :: stack) ts
  | _, stack, ⟨.beginObject, start, _⟩ :: ts => build .firstName (.object start [] :: stack) ts
  | _, _, _ :: _ => none

/-- The value a text writes, if the text is one well-formed value. -/
def parse? (s : String) : Option (Placed Json) := (tokens? s.toList).bind (build .value [])

end Sm83Codegen.Json
