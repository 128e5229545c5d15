/-!
# Identifiers made from names

Two ways to turn arbitrary text into the small letters, digits and underscores of an identifier.

* `slug` -- the runs of ASCII letters and digits, in small letters, joined by underscores;
* `encodedName` -- the same, except that an opening parenthesis starts its word with an `i`, so
  that `LD A, (HL)` and `LD A, HL` get different identifiers.
-/

namespace Sm83Codegen.Text

/-! ## 1. Characters of an identifier -/

/-- The ASCII letters and digits. -/
def isWordChar (c : Char) : Bool :=
  let n := c.toNat
  (48 ≤ n && n ≤ 57) || (65 ≤ n && n ≤ 90) || (97 ≤ n && n ≤ 122)

/-- An ASCII capital in its small form; any other character as it is. -/
def lowered (c : Char) : Char :=
  if 65 ≤ c.toNat && c.toNat ≤ 90 then Char.ofNat (c.toNat + 32) else c

/-- Words joined by single underscores. -/
def underscored : List (List Char) → List Char
  | [] => []
  | [w] => w
  | w :: ws => w ++ '_' :: underscored ws

/-! ## 2. Slugs -/

/-- The pieces of a text between the characters that satisfy `sep`, empty ones included. -/
def pieces (sep : Char → Bool) : List Char → List (List Char)
  | [] => [[]]
  | c :: cs =>
    if sep c then [] :: pieces sep cs
    else
      match pieces sep cs with
      | [] => [[c]]
      | p :: ps => (c :: p) :: ps

section Pieces

variable {sep : Char → Bool}

theorem pieces_separator {c : Char} (hc : sep c = true) (cs : List Char) :
    pieces sep (c :: cs) = [] :: pieces sep cs := by
  rw [pieces, if_pos hc]

theorem exists_pieces (sep : Char → Bool) (cs : List Char) : ∃ p ps, pieces sep cs = p :: ps := by
  cases cs with
  | nil => exact ⟨[], [], rfl⟩
  | cons c cs =>
    by_cases hc : sep c = true
    · exact ⟨[], _, pieces_separator hc cs⟩
    · rw [pieces, if_neg hc]
      cases pieces sep cs with
      | nil => exact ⟨_, _, rfl⟩
      | cons p ps => exact ⟨_, _, rfl⟩

theorem pieces_letter {c : Char} (hc : ¬sep c = true) {cs p : List Char} {ps : List (List Char)}
    (hp : pieces sep cs = p :: ps) : pieces sep (c :: cs) = (c :: p) :: ps := by
  rw [pieces, if_neg hc, hp]

/-- A separator cuts a text into the pieces before it and the pieces behind it. -/
theorem pieces_append_cons {c : Char} (hc : sep c = true) (bs cs : List Char) :
    pieces sep (bs ++ c :: cs) = pieces sep bs ++ pieces sep cs := by
  induction bs with
  | nil => exact pieces_separator hc cs
  | cons b bs ih =>
    by_cases hb : sep b = true
    · rw [List.cons_append, pieces_separator hb, pieces_separator hb, ih, List.cons_append]
    · obtain ⟨p, ps, hp⟩ := exists_pieces sep bs
      rw [hp] at ih
      rw [List.cons_append, pieces_letter hb ih, pieces_letter hb hp]
      rfl

theorem pieces_of_none {cs : List Char} (h : ∀ c ∈ cs, sep c = false) : pieces sep cs = [cs] := by
  induction cs with
  | nil => rfl
  | cons c cs ih =>
    have hc : ¬sep c = true := by
      rw [h c List.mem_cons_self]
      exact Bool.false_ne_true
    exact pieces_letter hc (ih fun d hd => h d (List.mem_cons_of_mem c hd))

end Pieces

/-- The runs of ASCII letters and digits in small letters, joined by underscores. -/
def slugChars (cs : List Char) : List Char :=
  underscored (((pieces (fun c => !isWordChar c) cs).filter (fun w => !w.isEmpty)).map
    (fun w => w.map lowered))

/-- An identifier fragment for arbitrary text, such as `negative_immediate`. -/
def slug (s : String) : String := String.ofList (slugChars s.toList)

/-! ## 3. Encoded names -/

/-- The words of a name. `word` is the word being read, last character first. -/
def nameWords (word : List Char) : List Char → List (List Char)
  | [] => if word.isEmpty then [] else [word.reverse]
  | c :: cs =>
    if isWordChar c then nameWords (lowered c :: word) cs
    else
      let next := if c == '(' then ['i'] else []
      if word.isEmpty then nameWords next cs else word.reverse :: nameWords next cs

/-- The identifier fragment of a name, such as `ld_r1_irr2` for `LD r1, (rr2)`. -/
def encodedChars (cs : List Char) : List Char := underscored (nameWords [] cs)

/-- The identifier fragment of a name, as text. -/
def encodedName (s : String) : String := String.ofList (encodedChars s.toList)

end Sm83Codegen.Text
