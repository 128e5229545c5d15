/-!
# Splicing between markers

Generated text replaces what stands between two marker lines of a file. A marker line starts, after
spaces and tabs, with its marker; the region starts on the line after the opening one and ends
before the first closing one that follows.

* `MarkerPair` -- the two markers, and the pairs that are in use;
* `splice?` -- a text with the region replaced, or nothing if there is no such region.
-/

namespace Sm83Codegen

/-- The texts that open and close a region. -/
structure MarkerPair where
  opening : String
  closing : String
  deriving DecidableEq, Repr

namespace MarkerPair

/-- The region of the decode branches. -/
def decoding : MarkerPair :=
  ⟨"// __OPCODES_DECODING_REPLACEMENT_START__", "// __OPCODES_DECODING_REPLACEMENT_END__"⟩

/-- The region of the routines. -/
def execution : MarkerPair :=
  ⟨"// __OPCODES_EXECUTION_REPLACEMENT_START__", "// __OPCODES_EXECUTION_REPLACEMENT_END__"⟩

/-- The region of the tests. -/
def tests : MarkerPair := ⟨"// __TESTS_REPLACEMENT_START__", "// __TESTS_REPLACEMENT_END__"⟩

/-- The report on markers that a text does not have. -/
def notFound (m : MarkerPair) : String :=
  "Marker pair '" ++ m.opening ++ "' / '" ++ m.closing ++ "' not found"

end MarkerPair

namespace Splice

/-! ## 1. Marker lines -/

/-- The blanks that may stand before a marker. -/
def isIndent (c : Char) : Bool := c == ' ' || c == '\t'

/-- What follows a marker at the start of a text. -/
def after? : List Char → List Char → Option (List Char)
  | [], cs => some cs
  | _ :: _, [] => none
  | m :: ms, c :: cs => if m == c then after? ms cs else none

/-- What follows a marker at the start of a text, after blanks: as many as leave the marker
    whole. -/
def afterIndented? (marker : List Char) : List Char → Option (List Char)
  | [] => after? marker []
  | c :: cs =>
    if isIndent c then
      match afterIndented? marker cs with
      | some rest => some rest
      | none => after? marker (c :: cs)
    else after? marker (c :: cs)

/-- What follows the first line feed. -/
def afterLine? : List Char → Option (List Char)
  | [] => none
  | c :: cs => if c == '\n' then some cs else afterLine? cs

/-- A text from the first line on that starts with a marker after blanks. `atStart` tells that the
    text itself starts a line. -/
def fromMarker? (marker : List Char) (atStart : Bool) : List Char → Option (List Char)
  | [] => if atStart && (afterIndented? marker []).isSome then some [] else none
  | c :: cs =>
    if atStart && (afterIndented? marker (c :: cs)).isSome then some (c :: cs)
    else fromMarker? marker (c == '\n') cs

/-! ## 2. The region -/

/-- A text from behind the first opening line on. -/
def regionOn? (opening text : List Char) : Option (List Char) :=
  match fromMarker? opening true text with
  | none => none
  | some line =>
    match afterIndented? opening line with
    | none => none
    | some rest => afterLine? rest

/-- New content with a line feed at its end, unless it is empty. -/
def closed (content : List Char) : List Char :=
  match content.getLast? with
  | none => []
  | some c => if c == '\n' then content else content ++ ['\n']

/-- A text with the region between two markers replaced. -/
def replace? (opening closing content text : List Char) : Option (List Char) :=
  match regionOn? opening text with
  | none => none
  | some region =>
    match fromMarker? closing true region with
    | none => none
    | some rest => some (text.take (text.length - region.length) ++ closed content ++ rest)

end Splice

/-- A text with the region of a marker pair replaced, if it has one. -/
def splice? (text : String) (m : MarkerPair) (content : String) : Option String :=
  (Splice.replace? m.opening.toList m.closing.toList content.toList text.toList).map String.ofList

end Sm83Codegen
