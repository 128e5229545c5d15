import Mathlib.Data.List.Basic
import Sm83Codegen.Proofs.Digits

/-!
# Identifiers made from any text

A slug and an encoded name are words of small letters and digits with single underscores between
them, whatever the text was. The two are read off a text in different ways, one piece by piece and
one character by character, and differ at opening parentheses alone: an encoded name is the slug of
the text with an `i` behind each of them.

* `underscored_eq_intercalate`, `mem_slugWords`, `flatten_slugWords` -- the words of a slug: none is
  empty, and together they are the letters and digits of the text;
* `nameWords_eq`, `encodedName_eq_slug` -- the words of a name are those of a slug;
* `IsIdentifier` -- what the language of the routines takes for a name;
* `encodedName_wellFormed` -- the words of an encoded name, and the routine that is called by it.
-/

namespace Sm83Codegen.Text

/-! ## 1. Characters -/

theorem isAlphanum_iff {c : Char} : c.isAlphanum = true ↔
    (65 ≤ c.toNat ∧ c.toNat ≤ 90 ∨ 97 ≤ c.toNat ∧ c.toNat ≤ 122) ∨
      48 ≤ c.toNat ∧ c.toNat ≤ 57 := by
  show (decide (65 ≤ c.val ∧ c.val ≤ 90) || decide (97 ≤ c.val) && decide (c.val ≤ 122) ||
    decide (48 ≤ c.val) && decide (c.val ≤ 57)) = true ↔ _
  simp only [Bool.or_eq_true, Bool.and_eq_true, decide_eq_true_eq, UInt32.le_iff_toNat_le]
  rfl

theorem isWordChar_eq_isAlphanum (c : Char) : isWordChar c = c.isAlphanum := by
  rw [Bool.eq_iff_iff, isAlphanum_iff]
  simp only [isWordChar, Bool.or_eq_true, Bool.and_eq_true, decide_eq_true_eq]
  omega

theorem lowered_eq_toLower (c : Char) : lowered c = c.toLower := by
  by_cases hc : c.toNat < 91
  · exact forall_char (P := fun c => lowered c = c.toLower) (by decide) hc
  · rw [lowered_eq_self hc]
    have hcapital : ¬(c.val ≥ 'A'.val ∧ c.val ≤ 'Z'.val) := fun h => hc (Nat.lt_succ_of_le h.2)
    exact (dif_neg (e := fun _ => c) hcapital).symm

/-- The small ASCII letters and the digits. -/
def isSmallWordChar (c : Char) : Bool := c.isLower || c.isDigit

theorem isAlphanum_of_small {c : Char} (h : isSmallWordChar c = true) : c.isAlphanum = true := by
  show ((c.isUpper || c.isLower) || c.isDigit) = true
  rw [Bool.or_assoc, show (c.isLower || c.isDigit) = true from h, Bool.or_true]

theorem isSmallWordChar_lowered {c : Char} (h : isWordChar c = true) :
    isSmallWordChar (lowered c) = true := by
  have hbound : c.toNat < 123 := by
    simp only [isWordChar, Bool.or_eq_true, Bool.and_eq_true, decide_eq_true_eq] at h
    omega
  exact forall_char (P := fun c => isWordChar c = true → isSmallWordChar (lowered c) = true)
    (by decide) hbound h

/-! ## 2. Slugs -/

theorem underscored_eq_intercalate (ws : List (List Char)) :
    underscored ws = List.intercalate ['_'] ws := by
  induction ws with
  | nil => rfl
  | cons w ws ih =>
    cases ws with
    | nil => exact (List.intercalate_singleton).symm
    | cons v ws =>
      rw [List.intercalate_cons_cons, ← ih, List.append_assoc]
      rfl

/-- The pieces of a text hold all of it but the separators. -/
theorem flatten_pieces (sep : Char → Bool) (cs : List Char) :
    (pieces sep cs).flatten = cs.filter (fun c => !sep c) := by
  induction cs with
  | nil => rfl
  | cons c cs ih =>
    by_cases hc : sep c = true
    · rw [pieces_separator hc, List.flatten_cons, ih, List.filter_cons_of_neg (by simp [hc])]
      rfl
    · obtain ⟨p, ps, hp⟩ := exists_pieces sep cs
      rw [hp, List.flatten_cons] at ih
      rw [pieces_letter hc hp, List.flatten_cons, List.cons_append, ih,
        List.filter_cons_of_pos (by simp [hc])]

/-- The pieces of a text between all that is no letter or digit. -/
def runs (cs : List Char) : List (List Char) := pieces (fun c => !isWordChar c) cs

/-- Words without the empty ones. -/
def nonempty (ws : List (List Char)) : List (List Char) := ws.filter (fun w => !w.isEmpty)

/-- The words of a slug. -/
def slugWords (cs : List Char) : List (List Char) :=
  nonempty ((runs cs).map (fun p => p.map lowered))

theorem slugChars_eq (cs : List Char) : slugChars cs = underscored (slugWords cs) := by
  have hempty : (fun p : List Char => !p.isEmpty) =
      (fun w : List Char => !w.isEmpty) ∘ (fun p => p.map lowered) := by
    funext p
    simp
  rw [slugChars, slugWords, nonempty, runs, List.filter_map, ← hempty]

/-- Together the words of a slug are the letters and digits of the text. -/
theorem flatten_slugWords (cs : List Char) :
    (slugWords cs).flatten = (cs.filter isWordChar).map lowered := by
  rw [slugWords, nonempty, List.flatten_filter_not_isEmpty, ← List.map_flatten, runs,
    flatten_pieces]
  simp only [Bool.not_not]

theorem mem_slugWords {cs w : List Char} (h : w ∈ slugWords cs) :
    w ≠ [] ∧ ∀ c ∈ w, isSmallWordChar c = true := by
  constructor
  · have hne := (List.mem_filter.mp h).2
    simpa using hne
  · intro c hc
    have hflat : c ∈ (slugWords cs).flatten := List.mem_flatten_of_mem h hc
    rw [flatten_slugWords] at hflat
    obtain ⟨d, hd, rfl⟩ := List.mem_map.mp hflat
    exact isSmallWordChar_lowered (List.mem_filter.mp hd).2

theorem mem_underscored {ws : List (List Char)} {c : Char} (h : c ∈ underscored ws) :
    c = '_' ∨ ∃ w ∈ ws, c ∈ w := by
  induction ws with
  | nil => exact absurd h List.not_mem_nil
  | cons w ws ih =>
    cases ws with
    | nil => exact .inr ⟨w, List.mem_cons_self, h⟩
    | cons v ws =>
      rcases List.mem_append.mp h with hw | hrest
      · exact .inr ⟨w, List.mem_cons_self, hw⟩
      · rcases List.mem_cons.mp hrest with rfl | hrest
        · exact .inl rfl
        · exact (ih hrest).imp_right fun ⟨u, hu, hc⟩ => ⟨u, List.mem_cons_of_mem w hu, hc⟩

/-- A slug has nothing but small letters, digits and underscores. -/
theorem mem_slug {s : String} {c : Char} (h : c ∈ (slug s).toList) :
    c = '_' ∨ isSmallWordChar c = true := by
  rw [slug, String.toList_ofList, slugChars_eq] at h
  exact (mem_underscored h).imp_right fun ⟨_, hw, hc⟩ => (mem_slugWords hw).2 c hc

/-! ## 3. Encoded names -/

/-- What a character puts before the word that follows it. -/
def begun (c : Char) : List Char := if c == '(' then ['i'] else []

/-- A character with what it puts before the next word. -/
def opened (c : Char) : List Char := c :: begun c

theorem begun_cases (c : Char) : begun c = [] ∨ begun c = ['i'] := by
  unfold begun
  split
  · exact .inr rfl
  · exact .inl rfl

theorem begun_letter {c : Char} (hc : isWordChar c = true) : begun c = [] := by
  refine if_neg fun hparen => ?_
  rw [eq_of_beq hparen] at hc
  exact absurd hc (by decide)

theorem nameWords_letter {c : Char} (hc : isWordChar c = true) (word cs : List Char) :
    nameWords word (c :: cs) = nameWords (lowered c :: word) cs := by
  rw [nameWords, if_pos hc]

theorem nameWords_separator {c : Char} (hc : ¬isWordChar c = true) (word cs : List Char) :
    nameWords word (c :: cs) = if word.isEmpty then nameWords (begun c) cs
      else word.reverse :: nameWords (begun c) cs := by
  rw [nameWords, if_neg hc]
  rfl

theorem nonempty_reverse_cons (word : List Char) (ws : List (List Char)) :
    nonempty (word.reverse :: ws) =
      if word.isEmpty then nonempty ws else word.reverse :: nonempty ws := by
  cases word with
  | nil => rfl
  | cons c word => exact List.filter_cons_of_pos (by simp)

/-- The words of a name, character by character. What is there already of a word goes before the
    first run of the rest. -/
theorem nameWords_eq (cs : List Char) {word p : List Char} {ps : List (List Char)}
    (hp : runs (cs.flatMap opened) = p :: ps) : nameWords word cs =
      nonempty ((word.reverse ++ p.map lowered) :: ps.map (fun p => p.map lowered)) := by
  induction cs generalizing word p ps with
  | nil =>
    obtain ⟨rfl, rfl⟩ := List.cons.inj (show [] :: [] = p :: ps from hp)
    rw [List.map_nil, List.append_nil, nonempty_reverse_cons]
    rfl
  | cons c cs ih =>
    obtain ⟨q, qs, hq⟩ := exists_pieces (fun c => !isWordChar c) (cs.flatMap opened)
    rw [List.flatMap_cons, opened, List.cons_append, runs] at hp
    by_cases hc : isWordChar c = true
    · rw [begun_letter hc, List.nil_append, pieces_letter (by simp [hc]) hq] at hp
      obtain ⟨rfl, rfl⟩ := List.cons.inj hp
      rw [nameWords_letter hc, ih hq, List.reverse_cons, List.map_cons, List.append_assoc,
        List.singleton_append]
    · rw [pieces_separator (by simp [hc])] at hp
      obtain ⟨rfl, rfl⟩ := List.cons.inj hp
      -- what begins the next word belongs to its run
      have hnext : ∃ r, pieces (fun c => !isWordChar c) (begun c ++ cs.flatMap opened) = r :: qs ∧
          (begun c).reverse ++ q.map lowered = r.map lowered := by
        rcases begun_cases c with hnone | hsome
        · exact ⟨q, by rw [hnone]; exact hq, by rw [hnone]; rfl⟩
        · exact ⟨'i' :: q, by rw [hsome]; exact pieces_letter (by decide) hq, by rw [hsome]; rfl⟩
      obtain ⟨r, hr, hrun⟩ := hnext
      rw [nameWords_separator hc, ih hq, hr, hrun, List.map_nil, List.append_nil,
        nonempty_reverse_cons]
      rfl

theorem encodedChars_eq (cs : List Char) : encodedChars cs = slugChars (cs.flatMap opened) := by
  obtain ⟨p, ps, hp⟩ := exists_pieces (fun c => !isWordChar c) (cs.flatMap opened)
  have hruns : runs (cs.flatMap opened) = p :: ps := hp
  rw [encodedChars, nameWords_eq cs hruns, slugChars_eq, slugWords, hruns]
  rfl

/-- **An encoded name is a slug**, of the name with an `i` behind every opening parenthesis. -/
theorem encodedName_eq_slug (name : String) :
    encodedName name = slug (String.ofList (name.toList.flatMap opened)) := by
  rw [encodedName, encodedChars_eq, slug, String.toList_ofList]

theorem flatMap_opened {cs : List Char} (h : '(' ∉ cs) : cs.flatMap opened = cs := by
  have hself : ∀ c ∈ cs, opened c = [c] := by
    intro c hc
    have hparen : (c == '(') = false := beq_eq_false_iff_ne.mpr fun heq => h (heq ▸ hc)
    simp [opened, begun, hparen]
  rw [List.flatMap_congr hself]
  exact List.flatMap_singleton' cs

/-- What a character adds to the words of a name. -/
def spelled (c : Char) : List Char :=
  if c.isAlphanum then [c.toLower] else if c = '(' then ['i'] else []

theorem map_filter_opened (c : Char) :
    ((opened c).filter isWordChar).map lowered = spelled c := by
  rw [opened, spelled, ← isWordChar_eq_isAlphanum, ← lowered_eq_toLower]
  by_cases hc : isWordChar c = true
  · rw [List.filter_cons_of_pos hc, begun_letter hc, if_pos hc]
    rfl
  · rw [List.filter_cons_of_neg hc, if_neg hc, begun]
    by_cases hparen : c = '('
    · rw [if_pos hparen, if_pos (beq_iff_eq.mpr hparen)]
      rfl
    · rw [if_neg hparen, if_neg (mt eq_of_beq hparen)]
      rfl

/-- Together the words of a name are its letters and digits, and an `i` for each parenthesis that
    opens. -/
theorem flatten_slugWords_opened (cs : List Char) :
    (slugWords (cs.flatMap opened)).flatten = cs.flatMap spelled := by
  rw [flatten_slugWords, List.filter_flatMap, List.map_flatMap]
  exact List.flatMap_congr fun c _ => map_filter_opened c

/-! ## 4. Identifiers -/

/-- The words that the language of the routines keeps for itself. -/
def reservedWords : List String :=
  ["as", "break", "const", "continue", "crate", "else", "enum", "extern", "false", "fn", "for",
   "if", "impl", "in", "let", "loop", "match", "mod", "move", "mut", "pub", "ref", "return",
   "self", "Self", "static", "struct", "super", "trait", "true", "type", "unsafe", "use", "where",
   "while", "async", "await", "dyn", "abstract", "become", "box", "do", "final", "gen", "macro",
   "override", "priv", "try", "typeof", "unsized", "virtual", "yield"]

/-- What can name a routine: a letter or an underscore, then letters, digits and underscores; but
    no reserved word, and no underscore alone. -/
structure IsIdentifier (s : String) : Prop where
  chars : ∃ c cs, s.toList = c :: cs ∧ (c.isAlpha ∨ c = '_') ∧ ∀ d ∈ cs, d.isAlphanum ∨ d = '_'
  named : s ≠ "_"
  free : s ∉ reservedWords

theorem underscore_not_mem_reservedWords : ∀ w ∈ reservedWords, '_' ∉ w.toList := by decide

/-- A slug behind `execute_` makes an identifier, also the empty slug. -/
theorem isIdentifier_execute {e : String}
    (h : ∀ c ∈ e.toList, c = '_' ∨ isSmallWordChar c = true) : IsIdentifier ("execute_" ++ e) := by
  have hchars : ("execute_" ++ e).toList = 'e' :: ("xecute_".toList ++ e.toList) := by
    rw [String.toList_append]
    rfl
  have hunderscore : '_' ∈ ("execute_" ++ e).toList := by simp [hchars]
  refine ⟨⟨'e', _, hchars, .inl rfl, fun d hd => ?_⟩, fun heq => ?_, fun hreserved => ?_⟩
  · rcases List.mem_append.mp hd with hd | hd
    · have hword : "xecute_".toList.all (fun d => d.isAlphanum || d == '_') = true := by decide
      have hletter := List.all_eq_true.mp hword d hd
      rwa [Bool.or_eq_true, beq_iff_eq] at hletter
    · exact (h d hd).symm.imp_left isAlphanum_of_small
  · have hlength := congrArg (fun s => s.toList.length) heq
    simp [hchars] at hlength
  · exact underscore_not_mem_reservedWords _ hreserved hunderscore

/-- **Encoded names are well formed.** Whatever the name, its encoding is empty or words of small
    letters and digits with one underscore between two of them. In order, the words hold the letters
    and digits of the name in small form, an `i` for each parenthesis that opens, and nothing else.
    So the routine of a family always has a proper name; and where nothing opens, the encoding is
    the slug. -/
theorem encodedName_wellFormed (name : String) :
    (∃ words : List (List Char),
      (encodedName name).toList = List.intercalate ['_'] words ∧
      (∀ w ∈ words, w ≠ [] ∧ ∀ c ∈ w, c.isLower = true ∨ c.isDigit = true) ∧
      words.flatten = name.toList.flatMap spelled) ∧
    IsIdentifier ("execute_" ++ encodedName name) ∧
    ('(' ∉ name.toList → encodedName name = slug name) := by
  refine ⟨⟨slugWords (name.toList.flatMap opened), ?_, ?_, flatten_slugWords_opened name.toList⟩,
    ?_, ?_⟩
  · rw [encodedName, String.toList_ofList, encodedChars_eq, slugChars_eq,
      underscored_eq_intercalate]
  · intro w hw
    obtain ⟨hne, hsmall⟩ := mem_slugWords hw
    exact ⟨hne, fun c hc => Bool.or_eq_true_iff.mp (hsmall c hc)⟩
  · rw [encodedName_eq_slug]
    exact isIdentifier_execute fun c hc => mem_slug hc
  · intro hparen
    rw [encodedName_eq_slug, flatMap_opened hparen, String.ofList_toList]

-- a parenthesis ends a word as any mark does, and its letter can be a word of its own
example : encodedName "LD ((HL)+), A" = "ld_i_ihl_a" := by decide

end Sm83Codegen.Text
