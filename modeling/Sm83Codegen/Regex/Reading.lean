import Sm83Codegen.Regex.Syntax
import Sm83Codegen.Text.Hex

/-!
# Written regular expressions

A pattern is read from left to right with a stack of the groups that are open.

* `RegexFlags` -- how the rest of a group is read;
* `RegexReader.escape` -- what a backslash starts;
* `RegexReader.charClass` -- a set in brackets;
* `Regex.ofText?` -- the pattern a text writes, if it is one.

Sets of characters with a property's name are not read.
-/

namespace Sm83Codegen

/-- How a pattern is read: whether letters stand for both cases; whether the conditions on the
    start and the end mean those of lines; whether a point stands for line feeds too; whether white
    space and comments are skipped; whether sets are those of all scripts; whether carriage returns
    end lines. -/
structure RegexFlags where
  caseless : Bool := false
  lines : Bool := false
  anyChar : Bool := false
  spaced : Bool := false
  allScripts : Bool := true
  returns : Bool := false
  deriving DecidableEq, Repr

namespace RegexReader

/-! ## 1. Skipping -/

/-- A text without the blanks and comments at its start. -/
def skipFrom (inComment : Bool) : List Char → List Char
  | [] => []
  | c :: cs =>
    if inComment then skipFrom (c != '\n') cs
    else if Text.isBlank c then skipFrom false cs
    else if c == '#' then skipFrom true cs
    else c :: cs

/-- A text without the blanks and comments at its start, where they are skipped. -/
def skip (f : RegexFlags) (cs : List Char) : List Char :=
  if f.spaced then skipFrom false cs else cs

/-! ## 2. Sets -/

/-- A set as the flags have it. -/
def folded (f : RegexFlags) (s : CharSet) : CharSet := if f.caseless then s.caseless else s

/-- A set, or the characters outside of it. Outside of a set of ASCII only there are no characters
    that could be matched one by one. -/
def signed? (f : RegexFlags) (negated : Bool) (s : CharSet) : Option CharSet :=
  if !negated then some s else if f.allScripts then some s.outside else none

/-- The characters of words. -/
def wordSet (f : RegexFlags) : CharSet := if f.allScripts then .anyWord else .asciiWords

/-- The set a letter behind a backslash stands for. -/
def letterClass? (f : RegexFlags) (c : Char) : Option (Option CharSet) :=
  let digits : CharSet := if f.allScripts then .anyDigit else .asciiDigits
  let blanks : CharSet := if f.allScripts then .anyBlank else .asciiBlanks
  match c with
  | 'd' => some (signed? f false digits)
  | 'D' => some (signed? f true digits)
  | 's' => some (signed? f false blanks)
  | 'S' => some (signed? f true blanks)
  | 'w' => some (signed? f false (wordSet f))
  | 'W' => some (signed? f true (wordSet f))
  | _ => none

/-! ## 3. Escapes -/

/-- What a backslash starts: a character, a set or a condition. -/
inductive Escaped where
  | char (c : Char)
  | set (s : CharSet)
  | anchor (a : Anchor)

/-- The character of a code point. -/
def charOf? (n : Nat) : Option Char :=
  if n < 0xD800 || (0xE000 ≤ n && n < 0x110000) then some (Char.ofNat n) else none

/-- The character that hexadecimal digits name. -/
def hexChar? (digits : List Char) : Option Char :=
  if digits.isEmpty then none else (Text.hexNumber? 0 digits).bind charOf?

/-- A character by its code point: so many digits, or any number of them in braces. Two digits
    above 7F write a byte that is no character where sets are those of ASCII. -/
def hexEscape (f : RegexFlags) (digits : Nat) (cs : List Char) : Option (Escaped × List Char) :=
  match cs with
  | '{' :: rest =>
    match rest.dropWhile (fun c => c != '}') with
    | [] => none
    | _ :: after => (hexChar? (rest.takeWhile (fun c => c != '}'))).map (fun c => (.char c, after))
  | _ =>
    if cs.length < digits then none
    else
      match hexChar? (cs.take digits) with
      | some c =>
        if digits == 2 && !f.allScripts && c.toNat > 127 then none
        else some (.char c, cs.drop digits)
      | none => none

/-- The characters of the names of conditions on words. -/
def isNameChar (c : Char) : Bool :=
  (65 ≤ c.toNat && c.toNat ≤ 90) || (97 ≤ c.toNat && c.toNat ≤ 122) || c == '-'

/-- The condition on words of a name. -/
def wordAnchor? (words : CharSet) (name : String) : Option Anchor :=
  match name with
  | "start" => some (.wordStart words)
  | "end" => some (.wordEnd words)
  | "start-half" => some (.wordStartHalf words)
  | "end-half" => some (.wordEndHalf words)
  | _ => none

/-- A condition on words: a boundary, or the one that a name in braces tells. What stands in braces
    and is no name is a number of repetitions. -/
def boundary (f : RegexFlags) (cs : List Char) : Option (Escaped × List Char) :=
  let words := wordSet f
  match cs with
  | '{' :: rest =>
    match skip f rest with
    | [] => none
    | c :: _ =>
      if isNameChar c then
        let inner := skip f rest
        match skip f (inner.dropWhile isNameChar) with
        | '}' :: after =>
          (wordAnchor? words (String.ofList (inner.takeWhile isNameChar))).map
            (fun a => (.anchor a, after))
        | _ => none
      else some (.anchor (.wordBoundary words), cs)
  | _ => some (.anchor (.wordBoundary words), cs)

/-- The character a letter behind a backslash stands for. -/
def letterChar? (c : Char) : Option Char :=
  match c with
  | 'a' => some (Char.ofNat 7)
  | 'f' => some (Char.ofNat 12)
  | 't' => some '\t'
  | 'n' => some '\n'
  | 'r' => some '\r'
  | 'v' => some (Char.ofNat 11)
  | _ => none

/-- Whether a character stands for itself behind a backslash: those of ASCII that are neither
    letters nor digits nor angle brackets. -/
def isPlainEscape (c : Char) : Bool :=
  c.toNat < 128 && !CharSet.contains (.ofRanges [(48, 57), (65, 90), (97, 122)]) c &&
    c != '<' && c != '>'

/-- What a backslash starts, from behind it. -/
def escape (f : RegexFlags) : List Char → Option (Escaped × List Char)
  | [] => none
  | 'x' :: cs => hexEscape f 2 cs
  | 'u' :: cs => hexEscape f 4 cs
  | 'U' :: cs => hexEscape f 8 cs
  | 'A' :: cs => some (.anchor .textStart, cs)
  | 'z' :: cs => some (.anchor .textEnd, cs)
  | 'b' :: cs => boundary f cs
  | 'B' :: cs => some (.anchor (.noWordBoundary (wordSet f)), cs)
  | '<' :: cs => some (.anchor (.wordStart (wordSet f)), cs)
  | '>' :: cs => some (.anchor (.wordEnd (wordSet f)), cs)
  | c :: cs =>
    match letterClass? f c, letterChar? c with
    | some s, _ => s.map (fun s => (.set s, cs))
    | none, some d => some (.char d, cs)
    | none, none => if isPlainEscape c then some (.char c, cs) else none

/-! ## 4. Sets in brackets -/

/-- How two sets are combined. -/
inductive SetOperation where
  | intersection
  | difference
  | symmetricDifference

/-- Two sets combined. -/
def SetOperation.apply (s t : CharSet) : SetOperation → CharSet
  | intersection => s.intersection t
  | difference => s.difference t
  | symmetricDifference => s.symmetricDifference t

/-- What is read of a set: the operation that waits for its second set, with its first; and the
    union of the items since. -/
structure OpenSet where
  waiting : Option (CharSet × SetOperation) := none
  items : CharSet := .none

namespace OpenSet

/-- One more item. -/
def add (o : OpenSet) (s : CharSet) : OpenSet := { o with items := o.items.union s }

/-- The set as it stands. Operations are applied from left to right. -/
def value (o : OpenSet) : CharSet :=
  match o.waiting with
  | some (s, operation) => operation.apply s o.items
  | none => o.items

/-- The set as the first of an operation. -/
def start (o : OpenSet) (operation : SetOperation) : OpenSet :=
  ⟨some (o.value, operation), .none⟩

end OpenSet

/-- An item of a set: a character or a set behind a backslash, or a character. -/
def setItem (f : RegexFlags) : List Char → Option (Escaped × List Char)
  | [] => none
  | '\\' :: cs => escape f cs
  | c :: cs => some (.char c, cs)

/-- A range or a single item. A hyphen is no range if a bracket or a second hyphen follows. -/
def setRange (f : RegexFlags) (cs : List Char) : Option (CharSet × List Char) :=
  match setItem f cs with
  | none | some (.anchor _, _) => none
  | some (.set s, rest) =>
    match skip f rest with
    | [] => none
    | '-' :: after =>
      match skip f after with
      | ']' :: _ | '-' :: _ => some (s, '-' :: after)
      | _ => none
    | rest => some (s, rest)
  | some (.char lo, rest) =>
    let alone := folded f (.single lo)
    match skip f rest with
    | [] => none
    | '-' :: after =>
      match skip f after with
      | ']' :: _ | '-' :: _ => some (alone, '-' :: after)
      | more =>
        match setItem f more with
        | some (.char hi, rest) =>
          if lo ≤ hi then some (folded f (.range lo.toNat hi.toNat), rest) else none
        | _ => none
    | rest => some (alone, rest)

/-- A set with a name between colons, from behind its bracket. -/
def namedSet? (f : RegexFlags) : List Char → Option (Option CharSet × List Char)
  | ':' :: cs =>
    let negated := cs.head? == some '^'
    let cs := if negated then cs.drop 1 else cs
    match cs.dropWhile (fun c => c != ':') with
    | ':' :: ']' :: rest =>
      (CharSet.asciiClass? (String.ofList (cs.takeWhile (fun c => c != ':')))).map
        (fun s => (signed? f negated (folded f s), rest))
    | _ => none
  | _ => none

/-- A text without the hyphens at its start. -/
def skipHyphens (f : RegexFlags) : List Char → List Char
  | [] => []
  | c :: cs =>
    if c == '-' || (f.spaced && Text.isBlank c) then skipHyphens f cs else skip f (c :: cs)

/-- The hyphens, or the bracket, that stand for themselves at the start of a set. -/
def leading (f : RegexFlags) (o : OpenSet) : List Char → OpenSet × List Char
  | '-' :: cs => (o.add (.single '-'), skipHyphens f cs)
  | ']' :: cs => (o.add (.single ']'), skip f cs)
  | cs => (o, cs)

mutual

/-- A set in brackets, from behind its bracket. -/
def charClass (fuel : Nat) (f : RegexFlags) (cs : List Char) : Option (CharSet × List Char) :=
  match fuel with
  | 0 => none
  | fuel + 1 =>
    let cs := skip f cs
    let negated := cs.head? == some '^'
    let cs := if negated then skip f (cs.drop 1) else cs
    let (o, cs) := leading f {} cs
    match setRest fuel f o cs with
    | some (s, rest) => (signed? f negated s).map (fun s => (s, rest))
    | none => none

/-- The rest of a set in brackets. -/
def setRest (fuel : Nat) (f : RegexFlags) (o : OpenSet) (cs : List Char) :
    Option (CharSet × List Char) :=
  match fuel with
  | 0 => none
  | fuel + 1 =>
    match skip f cs with
    | [] => none
    | ']' :: rest => some (o.value, rest)
    | '[' :: rest =>
      match namedSet? f rest with
      | some (some s, rest) => setRest fuel f (o.add s) rest
      | some (none, _) => none
      | none =>
        match charClass fuel f rest with
        | some (s, rest) => setRest fuel f (o.add s) rest
        | none => none
    | '&' :: '&' :: rest => setRest fuel f (o.start .intersection) rest
    | '-' :: '-' :: rest => setRest fuel f (o.start .difference) rest
    | '~' :: '~' :: rest => setRest fuel f (o.start .symmetricDifference) rest
    | cs =>
      match setRange f cs with
      | some (s, rest) => setRest fuel f (o.add s) rest
      | none => none

end

/-! ## 5. Repetitions -/

/-- A decimal number with blanks around it, which fits 32 bits. -/
def count? (cs : List Char) : Option (Nat × List Char) :=
  let cs := Text.trimStart cs
  let digits := cs.takeWhile Text.isDecimalDigit
  let n := digits.foldl (fun n c => 10 * n + (c.toNat - 48)) 0
  if digits.isEmpty || n ≥ UInt32.size then none
  else some (n, Text.trimStart (cs.dropWhile Text.isDecimalDigit))

/-- The least and the greatest number of repetitions in braces, from behind the opening one. -/
def bounds? (f : RegexFlags) (cs : List Char) : Option ((Nat × Option Nat) × List Char) :=
  match count? (skip f cs) with
  | some (least, '}' :: rest) => some ((least, some least), rest)
  | some (least, ',' :: rest) =>
    match skip f rest with
    | '}' :: rest => some ((least, none), rest)
    | rest =>
      match count? rest with
      | some (most, '}' :: rest) => if least ≤ most then some ((least, some most), rest) else none
      | _ => none
  | _ => none

/-- A text without the mark that asks for as few repetitions as possible, which does not matter
    for whether there is a match. -/
def withoutLazyMark : List Char → List Char
  | '?' :: cs => cs
  | cs => cs

/-! ## 6. Groups -/

/-- The flags with a letter's set. -/
def setFlag? (on : Bool) (f : RegexFlags) (c : Char) : Option RegexFlags :=
  match c with
  | 'i' => some { f with caseless := on }
  | 'm' => some { f with lines := on }
  | 's' => some { f with anyChar := on }
  | 'x' => some { f with spaced := on }
  | 'u' => some { f with allScripts := on }
  | 'R' => some { f with returns := on }
  | 'U' => some f
  | _ => none

/-- What is read of the flags of a group: the flags, the letters so far, whether they are turned
    on, and whether the last character was the hyphen. -/
structure OpenFlags where
  flags : RegexFlags
  letters : List Char := []
  on : Bool := true
  dangling : Bool := false

/-- Reads the flags of a group up to what ends them: a colon, or a bracket. No letter stands twice,
    and one at least follows the hyphen. -/
def groupFlags (o : OpenFlags) : List Char → Option (OpenFlags × Char × List Char)
  | [] => none
  | c :: cs =>
    if c == ':' || c == ')' then if o.dangling then none else some (o, c, cs)
    else if c == '-' then
      if o.on then groupFlags { o with on := false, dangling := true } cs else none
    else
      match setFlag? o.on o.flags c with
      | some f =>
        if o.letters.contains c then none
        else groupFlags { o with flags := f, letters := c :: o.letters, dangling := false } cs
      | none => none

/-- Whether a name can name a group: a letter or an underscore, and word characters, points and
    brackets. -/
def isGroupName : List Char → Bool
  | [] => false
  | c :: cs =>
    (c == '_' || (Text.isWordCharacter c && !Text.isDigitCharacter c)) &&
      cs.all (fun c => Text.isWordCharacter c || c == '.' || c == '[' || c == ']')

/-- An open group: the branches that have ended, the items of the last one, last first, and the
    flags to go back to at its end. The setting of flags is an item that cannot be repeated. -/
structure OpenGroup where
  branches : Option Regex := none
  items : List (Option Regex) := []
  outer : RegexFlags := {}

namespace OpenGroup

/-- One more item. -/
def push (g : OpenGroup) (item : Option Regex) : OpenGroup := { g with items := item :: g.items }

/-- The items in a row. -/
def row (g : OpenGroup) : Regex :=
  g.items.foldl
    (fun r item =>
      match item with
      | some s => .sequence s r
      | none => r)
    .empty

/-- The pattern of a group. -/
def value (g : OpenGroup) : Regex :=
  match g.branches with
  | some r => .choice r g.row
  | none => g.row

/-- The group with the next branch begun. -/
def branch (g : OpenGroup) : OpenGroup := { g with branches := some g.value, items := [] }

/-- The group with its last item repeated. -/
def repeated? (g : OpenGroup) (least : Nat) (most : Option Nat) : Option OpenGroup :=
  match g.items with
  | some r :: items => some { g with items := some (.repeated r least most) :: items }
  | _ => none

end OpenGroup

/-- A reader of a pattern: the flags, the names of groups met, the group that is open and those
    around it. -/
structure Draft where
  flags : RegexFlags := {}
  names : List (List Char) := []
  group : OpenGroup := {}
  around : List OpenGroup := []

namespace Draft

/-- One more item. -/
def push (d : Draft) (r : Regex) : Draft := { d with group := d.group.push (some r) }

/-- One more character of a set. -/
def one (d : Draft) (s : CharSet) : Draft := d.push (.one s)

/-- A group begins, whose flags are given. -/
def enter (d : Draft) (f : RegexFlags) : Draft :=
  { d with flags := f, group := { outer := d.flags }, around := d.group :: d.around }

/-- The open group ends. -/
def leave? (d : Draft) : Option Draft :=
  match d.around with
  | [] => none
  | g :: around =>
    some { d with flags := d.group.outer, group := g.push (some d.group.value), around := around }

/-- The last item is repeated. -/
def repeated? (d : Draft) (least : Nat) (most : Option Nat) : Option Draft :=
  (d.group.repeated? least most).map (fun g => { d with group := g })

/-- A group with a name begins. -/
def named? (d : Draft) (cs : List Char) : Option (Draft × List Char) :=
  let name := cs.takeWhile (fun c => c != '>')
  match cs.dropWhile (fun c => c != '>') with
  | [] => none
  | _ :: rest =>
    if isGroupName name && !d.names.contains name then
      some ({ d.enter d.flags with names := name :: d.names }, rest)
    else none

/-- A group begins, or flags are set. -/
def open? (d : Draft) (cs : List Char) : Option (Draft × List Char) :=
  match skip d.flags cs with
  | '?' :: '=' :: _ | '?' :: '!' :: _ | '?' :: '<' :: '=' :: _ | '?' :: '<' :: '!' :: _ => none
  | '?' :: 'P' :: '<' :: rest | '?' :: '<' :: rest => d.named? rest
  | '?' :: rest =>
    match groupFlags { flags := d.flags } rest with
    | some (o, ':', rest) => some (d.enter o.flags, rest)
    | some (o, _, rest) =>
      if o.letters.isEmpty then none
      else some ({ d with flags := o.flags, group := d.group.push none }, rest)
    | none => none
  | rest => some (d.enter d.flags, rest)

/-- What a point stands for. -/
def point? (d : Draft) : Option CharSet :=
  if !d.flags.allScripts then none
  else if d.flags.anyChar then some .all
  else if d.flags.returns then some (CharSet.outside (.ofRanges [(10, 10), (13, 13)]))
  else some (CharSet.single '\n').outside

/-- What a backslash starts is added. -/
def escaped? (d : Draft) (cs : List Char) : Option (Draft × List Char) :=
  (escape d.flags cs).map (fun (e, rest) =>
    match e with
    | .char c => (d.one (folded d.flags (.single c)), rest)
    | .set s => (d.one s, rest)
    | .anchor a => (d.push (.anchor a), rest))

/-- One more part of a pattern, which starts with a character. -/
def step? (d : Draft) (c : Char) (cs : List Char) : Option (Draft × List Char) :=
  let f := d.flags
  match c with
  | '(' => d.open? cs
  | ')' => d.leave?.map (fun d => (d, cs))
  | '|' => some ({ d with group := d.group.branch }, cs)
  | '[' => (charClass (2 * cs.length + 2) f cs).map (fun (s, rest) => (d.one s, rest))
  | '?' => (d.repeated? 0 (some 1)).map (fun d => (d, withoutLazyMark cs))
  | '*' => (d.repeated? 0 none).map (fun d => (d, withoutLazyMark cs))
  | '+' => (d.repeated? 1 none).map (fun d => (d, withoutLazyMark cs))
  | '{' =>
    (bounds? f cs).bind (fun (b, rest) =>
      (d.repeated? b.1 b.2).map (fun d => (d, withoutLazyMark (skip f rest))))
  | '\\' => d.escaped? cs
  | '.' => d.point?.map (fun s => (d.one s, cs))
  | '^' => some (d.push (.anchor (if f.lines then .lineStart f.returns else .textStart)), cs)
  | '$' => some (d.push (.anchor (if f.lines then .lineEnd f.returns else .textEnd)), cs)
  | c => some (d.one (folded f (.single c)), cs)

/-- Reads a pattern part by part. Each takes a character at least, so `fuel` of the text's length
    is enough. -/
def finish? (fuel : Nat) (d : Draft) (cs : List Char) : Option Regex :=
  match skip d.flags cs with
  | [] => if d.around.isEmpty then some d.group.value else none
  | c :: cs =>
    match fuel with
    | 0 => none
    | fuel + 1 =>
      match d.step? c cs with
      | some (d, rest) => finish? fuel d rest
      | none => none

end Draft

end RegexReader

/-- The largest size of a pattern: ten megabytes, at 32 bytes a state. -/
def Regex.sizeLimit : Nat := 10 * (1 <<< 20) / 32

/-- The pattern a text writes, if it is one and not too large. -/
def Regex.ofText? (cs : List Char) : Option Regex :=
  (RegexReader.Draft.finish? cs.length {} cs).filter (fun r => r.size ≤ Regex.sizeLimit)

end Sm83Codegen
