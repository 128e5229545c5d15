import Sm83Codegen.Regex.CharSet

/-!
# Regular expressions

* `Anchor`, `Anchor.holds` -- conditions on a place between two characters;
* `Regex`, `Regex.size` -- patterns, and about how much room they take;
* `Regex.reach` -- the places where a pattern can end, from the places where it may start;
* `Regex.occursIn` -- whether a text has a part that a pattern matches.

The places of a text are its start and those behind each character. A set of them is a list of
truth values, one for each place in order.
-/

namespace Sm83Codegen

/-! ## 1. Places -/

/-- A place of a text: the characters before and behind it. -/
structure Spot where
  before : Option Char
  behind : Option Char
  deriving DecidableEq, Repr

/-- The places of a text, of which the first comes behind a character or at the start. -/
def spotsAfter (before : Option Char) : List Char → List Spot
  | [] => [⟨before, none⟩]
  | c :: cs => ⟨before, some c⟩ :: spotsAfter (some c) cs

/-- The places of a text. -/
def spotsOf (cs : List Char) : List Spot := spotsAfter none cs

/-! ## 2. Conditions on a place -/

/-- A condition on a place. The conditions on words come with the set of word characters; those on
    lines tell whether a carriage return ends a line too. -/
inductive Anchor where
  | textStart
  | textEnd
  | lineStart (returns : Bool)
  | lineEnd (returns : Bool)
  | wordBoundary (words : CharSet)
  | noWordBoundary (words : CharSet)
  | wordStart (words : CharSet)
  | wordEnd (words : CharSet)
  | wordStartHalf (words : CharSet)
  | wordEndHalf (words : CharSet)
  deriving DecidableEq, Repr

/-- Whether a condition holds at a place. A line feed right behind a carriage return ends the same
    line. -/
def Anchor.holds (a : Anchor) (p : Spot) : Bool :=
  let wordBefore (words : CharSet) : Bool := p.before.any words.contains
  let wordBehind (words : CharSet) : Bool := p.behind.any words.contains
  match a with
  | textStart => p.before.isNone
  | textEnd => p.behind.isNone
  | lineStart returns =>
    p.before.isNone || p.before == some '\n' ||
      (returns && p.before == some '\r' && p.behind != some '\n')
  | lineEnd returns =>
    p.behind.isNone || (returns && p.behind == some '\r') ||
      (p.behind == some '\n' && !(returns && p.before == some '\r'))
  | wordBoundary words => wordBefore words != wordBehind words
  | noWordBoundary words => wordBefore words == wordBehind words
  | wordStart words => !wordBefore words && wordBehind words
  | wordEnd words => wordBefore words && !wordBehind words
  | wordStartHalf words => !wordBefore words
  | wordEndHalf words => !wordBehind words

/-! ## 3. Patterns -/

/-- A pattern. A repetition has a least number and may have a greatest. -/
inductive Regex where
  | empty
  | one (s : CharSet)
  | anchor (a : Anchor)
  | sequence (r s : Regex)
  | choice (r s : Regex)
  | repeated (r : Regex) (least : Nat) (most : Option Nat)
  deriving DecidableEq, Repr

/-- About how many states an automaton needs for a pattern in which repetitions are written out. -/
def Regex.size : Regex → Nat
  | empty => 0
  | one s => s.size
  | anchor _ => 1
  | sequence r s => r.size + s.size
  | choice r s => r.size + s.size + 1
  | repeated r least none => max least 1 * r.size + 1
  | repeated r least (some most) => least * r.size + (most - least) * (r.size + 1)

/-! ## 4. Matching -/

/-- A set of places. -/
abbrev Places := List Bool

namespace Places

/-- The places of either set. -/
def union (m n : Places) : Places := List.zipWith (· || ·) m n

/-- The places of a set at which a condition holds. -/
def keep (spots : List Spot) (f : Spot → Bool) (m : Places) : Places :=
  List.zipWith (fun marked spot => marked && f spot) m spots

/-- The places one further. -/
def shifted (m : Places) : Places := false :: m.dropLast

/-- A step taken so often. -/
def iterate (f : Places → Places) : Nat → Places → Places
  | 0, m => m
  | n + 1, m => iterate f n (f m)

/-- A step taken at most so often. Once it leads nowhere new, it never will. -/
def closure (f : Places → Places) : Nat → Places → Places
  | 0, m => m
  | n + 1, m =>
    let next := m.union (f m)
    if next == m then m else closure f n next

end Places

namespace Regex

/-- The places where a pattern can end, from the places where it may start. A repetition that goes
    on longer than the text stands still somewhere, so more rounds than places change nothing. -/
def reach (spots : List Spot) : Regex → Places → Places
  | empty, m => m
  | one s, m => (m.keep spots (fun p => p.behind.any s.contains)).shifted
  | anchor a, m => m.keep spots a.holds
  | sequence r s, m => reach spots s (reach spots r m)
  | choice r s, m => (reach spots r m).union (reach spots s m)
  | repeated r least most, m =>
    let rounds := match most with
      | some n => min (n - least) spots.length
      | none => spots.length
    Places.closure (fun m => reach spots r m) rounds
      (Places.iterate (fun m => reach spots r m) (min least spots.length) m)

/-- Whether a text has a part that a pattern matches. -/
def occursIn (r : Regex) (text : List Char) : Bool :=
  let spots := spotsOf text
  (r.reach spots (spots.map (fun _ => true))).any id

end Regex

end Sm83Codegen
