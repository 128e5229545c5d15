import Sm83Codegen.Splice
import Sm83Codegen.Text.Layout

/-!
# Splicing by lines

A splice searches characters, but what it does is said by lines: it replaces those between the first
line with the opening marker and the first one below with the closing marker.

* `splitLines_append`, `lines_induction`, `splitLines_injective` -- the lines of a text;
* `Marked` -- a line that starts with a marker; `fromMarker?_eq_some` -- the first one;
* `Cut` -- the lines around a region; `splice?_eq_some` -- a splice fills a cut with other lines;
* `splice?_self`, `splice?_again` -- a content that is there already; `Encloses`, `splice?_keeps` --
  one that a splice elsewhere leaves there;
* `MarkerPair.all`, `Unmarked` -- the markers in use, and texts without them.
-/

namespace Sm83Codegen

/-! ## 1. The lines of a text -/

namespace Text

/-- Pieces have no separators. -/
theorem of_mem_pieces {sep : Char → Bool} {c : Char} {cs p : List Char} (hp : p ∈ pieces sep cs)
    (hc : c ∈ p) : c ∈ cs ∧ sep c = false := by
  induction cs generalizing p with
  | nil =>
    rw [List.mem_singleton.mp hp] at hc
    exact absurd hc List.not_mem_nil
  | cons d cs ih =>
    have hbelow {p : List Char} (hp : p ∈ pieces sep cs) (hc : c ∈ p) :
        c ∈ d :: cs ∧ sep c = false :=
      ⟨List.mem_cons_of_mem d (ih hp hc).1, (ih hp hc).2⟩
    by_cases hd : sep d = true
    · rw [pieces_separator hd] at hp
      rcases List.mem_cons.mp hp with rfl | hp
      · exact absurd hc List.not_mem_nil
      · exact hbelow hp hc
    · obtain ⟨q, qs, hq⟩ := exists_pieces sep cs
      rw [pieces_letter hd hq] at hp
      rw [hq] at hbelow
      rcases List.mem_cons.mp hp with rfl | hp
      · rcases List.mem_cons.mp hc with rfl | hc
        · exact ⟨List.mem_cons_self, Bool.eq_false_iff.mpr hd⟩
        · exact hbelow List.mem_cons_self hc
      · exact hbelow (List.mem_cons_of_mem q hp) hc

theorem splitLines_append (bs cs : List Char) :
    splitLines (bs ++ '\n' :: cs) = splitLines bs ++ splitLines cs :=
  pieces_append_cons rfl bs cs

theorem splitLines_of_line {line : List Char} (h : '\n' ∉ line) : splitLines line = [line] :=
  pieces_of_none fun _ hc => beq_eq_false_iff_ne.mpr fun heq => h (heq ▸ hc)

theorem splitLines_cons {line : List Char} (h : '\n' ∉ line) (cs : List Char) :
    splitLines (line ++ '\n' :: cs) = line :: splitLines cs := by
  rw [splitLines_append, splitLines_of_line h]
  rfl

theorem splitLines_ne_nil (text : List Char) : splitLines text ≠ [] := by
  obtain ⟨line, lines, h⟩ := exists_pieces (fun c => c == '\n') text
  unfold splitLines
  rw [h]
  exact List.cons_ne_nil _ _

theorem splitLines_textOf {lines : List String} (h : ∀ l ∈ lines, '\n' ∉ l.toList) :
    splitLines (textOf lines).toList = lines.map String.toList ++ [[]] := by
  induction lines with
  | nil => rfl
  | cons line lines ih =>
    obtain ⟨hline, hlines⟩ := List.forall_mem_cons.mp h
    have htext : (textOf (line :: lines)).toList = line.toList ++ '\n' :: (textOf lines).toList := by
      simp [textOf]
    rw [htext, splitLines_cons hline, ih hlines]
    rfl

/-- A text is one line, or a line and the text below it. -/
theorem lines_induction {P : List Char → Prop} (last : ∀ line, '\n' ∉ line → P line)
    (more : ∀ line rest, '\n' ∉ line → P rest → P (line ++ '\n' :: rest)) (text : List Char) :
    P text := by
  suffices h : ∀ before, '\n' ∉ before → P (before ++ text) from h [] List.not_mem_nil
  induction text with
  | nil =>
    intro before hbefore
    rw [List.append_nil]
    exact last before hbefore
  | cons c cs ih =>
    intro before hbefore
    by_cases hc : c = '\n'
    · rw [hc]
      exact more before cs hbefore (ih [] List.not_mem_nil)
    · have hlonger : '\n' ∉ before ++ [c] := by
        rw [List.mem_append, List.mem_singleton]
        exact not_or.mpr ⟨hbefore, Ne.symm hc⟩
      have h := ih (before ++ [c]) hlonger
      rw [List.append_assoc] at h
      exact h

theorem splitLines_eq_cons {text line : List Char} {lines : List (List Char)}
    (h : splitLines text = line :: lines) :
    '\n' ∉ line ∧ (lines = [] ∧ text = line ∨
      ∃ rest, text = line ++ '\n' :: rest ∧ splitLines rest = lines) := by
  induction text using lines_induction with
  | last first hfirst =>
    rw [splitLines_of_line hfirst] at h
    obtain ⟨rfl, rfl⟩ := List.cons.inj h
    exact ⟨hfirst, .inl ⟨rfl, rfl⟩⟩
  | more first rest hfirst _ =>
    rw [splitLines_cons hfirst] at h
    obtain ⟨rfl, hlines⟩ := List.cons.inj h
    exact ⟨hfirst, .inr ⟨rest, rfl, hlines⟩⟩

theorem not_mem_line {text line : List Char} (h : line ∈ splitLines text) : '\n' ∉ line := by
  induction text using lines_induction with
  | last first hfirst =>
    rw [splitLines_of_line hfirst, List.mem_singleton] at h
    rw [h]
    exact hfirst
  | more first rest hfirst ih =>
    rw [splitLines_cons hfirst] at h
    rcases List.mem_cons.mp h with rfl | h
    · exact hfirst
    · exact ih h

/-- A text has the lines of another if it is that text. -/
theorem splitLines_injective {s t : List Char} (h : splitLines s = splitLines t) : s = t := by
  induction s using lines_induction generalizing t with
  | last line hline =>
    rw [splitLines_of_line hline] at h
    rcases (splitLines_eq_cons h.symm).2 with ⟨_, ht⟩ | ⟨rest, _, hrest⟩
    · exact ht.symm
    · exact absurd hrest (splitLines_ne_nil rest)
  | more line rest hline ih =>
    rw [splitLines_cons hline] at h
    rcases (splitLines_eq_cons h.symm).2 with ⟨hnil, _⟩ | ⟨rest', ht, hrest⟩
    · exact absurd hnil (splitLines_ne_nil rest)
    · rw [ht, ih hrest.symm]

/-- Lines, each ended by a line feed. -/
def terminated (lines : List (List Char)) : List Char := lines.flatMap (fun l => l ++ ['\n'])

theorem exists_below {text : List Char} {lines below : List (List Char)}
    (h : splitLines text = lines ++ below) (hbelow : below ≠ []) :
    ∃ rest, splitLines rest = below := by
  induction lines generalizing text with
  | nil => exact ⟨text, h⟩
  | cons line lines ih =>
    rcases (splitLines_eq_cons h).2 with ⟨hnil, _⟩ | ⟨rest, _, hrest⟩
    · exact absurd (List.append_eq_nil_iff.mp hnil).2 hbelow
    · exact ih hrest

/-- The text above some of its lines. -/
theorem eq_terminated {text rest : List Char} {lines : List (List Char)}
    (h : splitLines text = lines ++ splitLines rest) :
    text = terminated lines ++ rest ∧
      ∀ cs, splitLines (terminated lines ++ cs) = lines ++ splitLines cs := by
  induction lines generalizing text with
  | nil => exact ⟨splitLines_injective h, fun _ => rfl⟩
  | cons line lines ih =>
    obtain ⟨hline, hcases⟩ := splitLines_eq_cons h
    rcases hcases with ⟨hnil, _⟩ | ⟨below, rfl, hbelow⟩
    · exact absurd (List.append_eq_nil_iff.mp hnil).2 (splitLines_ne_nil rest)
    · obtain ⟨htext, hlines⟩ := ih hbelow
      have hcons : terminated (line :: lines) = line ++ '\n' :: terminated lines := by
        unfold terminated
        rw [List.flatMap_cons, List.append_assoc]
        rfl
      refine ⟨?_, fun cs => ?_⟩
      · rw [hcons, htext, List.append_assoc]
        rfl
      · rw [hcons, List.append_assoc, List.cons_append, splitLines_cons hline, hlines]
        rfl

end Text

open Text

/-- The markers stand on one line. -/
structure MarkerPair.Proper (m : MarkerPair) : Prop where
  opening : '\n' ∉ m.opening.toList
  closing : '\n' ∉ m.closing.toList

namespace Splice

/-! ## 2. Marked lines -/

/-- A line starts, after spaces and tabs, with a marker. -/
def Marked (marker line : List Char) : Prop :=
  ∃ indent rest, (∀ c ∈ indent, isIndent c = true) ∧ line = indent ++ marker ++ rest

theorem after?_eq_some {marker cs rest : List Char} :
    after? marker cs = some rest ↔ cs = marker ++ rest := by
  induction marker generalizing cs with
  | nil => exact Option.some_inj
  | cons m marker ih =>
    cases cs with
    | nil => exact ⟨(fun h => nomatch h), (fun h => nomatch h)⟩
    | cons c cs =>
      rw [after?, List.cons_append, List.cons.injEq]
      by_cases hc : m = c
      · rw [if_pos (beq_iff_eq.mpr hc), ih]
        exact ⟨fun h => ⟨hc.symm, h⟩, fun h => h.2⟩
      · rw [if_neg fun h => hc (beq_iff_eq.mp h)]
        exact ⟨(fun h => nomatch h), (fun h => absurd h.1.symm hc)⟩

theorem afterIndented?_eq_some {marker cs rest : List Char}
    (h : afterIndented? marker cs = some rest) :
    ∃ indent, (∀ c ∈ indent, isIndent c = true) ∧ cs = indent ++ marker ++ rest := by
  induction cs with
  | nil =>
    exact ⟨[], fun _ hc => absurd hc List.not_mem_nil, after?_eq_some.mp h⟩
  | cons c cs ih =>
    have hhere (h : after? marker (c :: cs) = some rest) :
        ∃ indent, (∀ c ∈ indent, isIndent c = true) ∧ c :: cs = indent ++ marker ++ rest :=
      ⟨[], fun _ hc => absurd hc List.not_mem_nil, after?_eq_some.mp h⟩
    rw [afterIndented?] at h
    by_cases hc : isIndent c = true
    · rw [if_pos hc] at h
      split at h
      · next later hlater =>
        obtain ⟨indent, hindent, hcs⟩ := ih (hlater.trans h)
        exact ⟨c :: indent, List.forall_mem_cons.mpr ⟨hc, hindent⟩, congrArg (c :: ·) hcs⟩
      · exact hhere h
    · rw [if_neg hc] at h
      exact hhere h

theorem afterIndented?_isSome {marker cs : List Char} :
    (afterIndented? marker cs).isSome = true ↔ Marked marker cs := by
  constructor
  · intro h
    obtain ⟨rest, hrest⟩ := Option.isSome_iff_exists.mp h
    obtain ⟨indent, hindent, hcs⟩ := afterIndented?_eq_some hrest
    exact ⟨indent, rest, hindent, hcs⟩
  · intro h
    obtain ⟨indent, rest, hindent, rfl⟩ := h
    induction indent with
    | nil =>
      have hafter : after? marker (marker ++ rest) = some rest := after?_eq_some.mpr rfl
      rw [List.nil_append]
      cases htext : marker ++ rest with
      | nil =>
        rw [htext] at hafter
        rw [afterIndented?, hafter]
        rfl
      | cons c cs =>
        rw [htext] at hafter
        rw [afterIndented?, hafter]
        by_cases hc : isIndent c = true
        · rw [if_pos hc]
          cases afterIndented? marker cs <;> rfl
        · rw [if_neg hc]
          rfl
    | cons c indent ih =>
      have hrest := ih fun d hd => hindent d (List.mem_cons_of_mem c hd)
      obtain ⟨later, hlater⟩ := Option.isSome_iff_exists.mp hrest
      rw [List.cons_append, List.cons_append, afterIndented?, if_pos (hindent c List.mem_cons_self),
        hlater]
      rfl

instance (marker line : List Char) : Decidable (Marked marker line) :=
  decidable_of_iff _ afterIndented?_isSome

theorem not_mem_indented {marker indent : List Char} (hmarker : '\n' ∉ marker)
    (hindent : ∀ c ∈ indent, isIndent c = true) : '\n' ∉ indent ++ marker := by
  rw [List.mem_append]
  exact not_or.mpr ⟨fun hc => Bool.false_ne_true (hindent '\n' hc), hmarker⟩

/-- Whether a line is marked does not depend on what is below it. -/
theorem marked_append {marker line : List Char} (hmarker : '\n' ∉ marker) (hline : '\n' ∉ line)
    (cs : List Char) : Marked marker (line ++ '\n' :: cs) ↔ Marked marker line := by
  constructor
  · intro h
    obtain ⟨indent, rest, hindent, heq⟩ := h
    have hfree := not_mem_indented hmarker hindent
    rcases List.append_eq_append_iff.mp heq with ⟨more, hmore, hcs⟩ | ⟨more, hmore, _⟩
    · cases more with
      | nil =>
        rw [List.append_nil] at hmore
        exact ⟨indent, [], hindent, by rw [hmore, List.append_nil]⟩
      | cons c more =>
        obtain ⟨rfl, _⟩ := List.cons.inj hcs
        exact absurd (hmore ▸ List.mem_append_right line List.mem_cons_self) hfree
    · exact ⟨indent, more, hindent, hmore⟩
  · intro h
    obtain ⟨indent, rest, hindent, rfl⟩ := h
    exact ⟨indent, rest ++ '\n' :: cs, hindent, List.append_assoc _ _ _⟩

theorem afterLine?_append {line : List Char} (hline : '\n' ∉ line) (cs : List Char) :
    afterLine? (line ++ '\n' :: cs) = some cs := by
  induction line with
  | nil => rfl
  | cons c line ih =>
    rw [List.mem_cons, not_or] at hline
    rw [List.cons_append, afterLine?, if_neg fun h => hline.1 (beq_iff_eq.mp h).symm, ih hline.2]

theorem afterLine?_eq_none {line : List Char} (hline : '\n' ∉ line) : afterLine? line = none := by
  induction line with
  | nil => rfl
  | cons c line ih =>
    rw [List.mem_cons, not_or] at hline
    rw [afterLine?, if_neg fun h => hline.1 (beq_iff_eq.mp h).symm, ih hline.2]

theorem afterLine?_indented {marker cs rest : List Char} (hmarker : '\n' ∉ marker)
    (h : afterIndented? marker cs = some rest) : afterLine? rest = afterLine? cs := by
  obtain ⟨indent, hindent, rfl⟩ := afterIndented?_eq_some h
  have hfree := not_mem_indented hmarker hindent
  generalize indent ++ marker = before at hfree
  induction before with
  | nil => rfl
  | cons c before ih =>
    rw [List.mem_cons, not_or] at hfree
    rw [List.cons_append, afterLine?, if_neg fun h => hfree.1 (beq_iff_eq.mp h).symm, ih hfree.2]

/-! ## 3. The first marked line -/

variable {marker : List Char}

theorem fromMarker?_line {line : List Char} (hline : '\n' ∉ line) (cs : List Char) :
    fromMarker? marker false (line ++ '\n' :: cs) = fromMarker? marker true cs := by
  induction line with
  | nil => rfl
  | cons c line ih =>
    rw [List.mem_cons, not_or] at hline
    have hc : (c == '\n') = false := beq_eq_false_iff_ne.mpr (Ne.symm hline.1)
    rw [List.cons_append, fromMarker?, Bool.false_and, if_neg Bool.false_ne_true, hc, ih hline.2]

theorem fromMarker?_last {line : List Char} (hline : '\n' ∉ line) :
    fromMarker? marker false line = none := by
  induction line with
  | nil => rfl
  | cons c line ih =>
    rw [List.mem_cons, not_or] at hline
    have hc : (c == '\n') = false := beq_eq_false_iff_ne.mpr (Ne.symm hline.1)
    rw [fromMarker?, Bool.false_and, if_neg Bool.false_ne_true, hc, ih hline.2]

theorem fromMarker?_marked {cs : List Char} (h : Marked marker cs) :
    fromMarker? marker true cs = some cs := by
  have hsome := afterIndented?_isSome.mpr h
  cases cs with
  | nil => rw [fromMarker?, Bool.true_and, if_pos hsome]
  | cons c cs => rw [fromMarker?, Bool.true_and, if_pos hsome]

theorem fromMarker?_unmarked {cs : List Char} (h : ¬Marked marker cs) :
    fromMarker? marker true cs = fromMarker? marker false cs := by
  have hnone : ¬(afterIndented? marker cs).isSome = true := fun hc => h (afterIndented?_isSome.mp hc)
  cases cs with
  | nil =>
    rw [fromMarker?, Bool.true_and, if_neg hnone]
    rfl
  | cons c cs =>
    rw [fromMarker?, Bool.true_and, if_neg hnone]
    rfl

/-- Lines from the first marked one on. -/
def fromMarked (marker : List Char) (lines : List (List Char)) : List (List Char) :=
  lines.dropWhile (fun l => !decide (Marked marker l))

theorem fromMarked_eq_cons {lines below : List (List Char)} {line : List Char} :
    fromMarked marker lines = line :: below ↔
      ∃ above, lines = above ++ line :: below ∧ (∀ l ∈ above, ¬Marked marker l) ∧
        Marked marker line := by
  induction lines with
  | nil =>
    constructor
    · intro h
      cases h
    · intro h
      obtain ⟨above, hlines, _⟩ := h
      exact absurd hlines.symm (List.append_ne_nil_of_right_ne_nil _ (List.cons_ne_nil _ _))
  | cons first lines ih =>
    unfold fromMarked
    by_cases hfirst : Marked marker first
    · rw [List.dropWhile_cons_of_neg (by simpa using hfirst)]
      constructor
      · intro h
        obtain ⟨rfl, rfl⟩ := List.cons.inj h
        exact ⟨[], rfl, fun _ hl => absurd hl List.not_mem_nil, hfirst⟩
      · intro h
        obtain ⟨above, hlines, habove, _⟩ := h
        cases above with
        | nil => exact hlines
        | cons l above =>
          obtain ⟨rfl, _⟩ := List.cons.inj hlines
          exact absurd hfirst (habove first List.mem_cons_self)
    · rw [List.dropWhile_cons_of_pos (by simpa using hfirst)]
      refine ih.trans ⟨fun h => ?_, fun h => ?_⟩
      · obtain ⟨above, rfl, habove, hline⟩ := h
        exact ⟨first :: above, rfl, List.forall_mem_cons.mpr ⟨hfirst, habove⟩, hline⟩
      · obtain ⟨above, hlines, habove, hline⟩ := h
        cases above with
        | nil =>
          obtain ⟨rfl, _⟩ := List.cons.inj hlines
          exact absurd hline hfirst
        | cons l above =>
          exact ⟨above, (List.cons.inj hlines).2, (List.forall_mem_cons.mp habove).2, hline⟩

/-- A text from its first marked line on has the lines from there on. -/
theorem fromMarker?_eq_some (hmarker : '\n' ∉ marker) {text rest : List Char} :
    fromMarker? marker true text = some rest ↔
      splitLines rest = fromMarked marker (splitLines text) := by
  have hhere {text : List Char} (h : fromMarked marker (splitLines text) = splitLines text) :
      some text = some rest ↔ splitLines rest = fromMarked marker (splitLines text) := by
    rw [h, Option.some_inj]
    exact ⟨fun he => congrArg _ he.symm, fun he => (splitLines_injective he).symm⟩
  induction text using lines_induction with
  | last line hline =>
    by_cases hmarked : Marked marker line
    · rw [fromMarker?_marked hmarked]
      refine hhere ?_
      rw [splitLines_of_line hline]
      exact fromMarked_eq_cons.mpr ⟨[], rfl, fun _ hl => absurd hl List.not_mem_nil, hmarked⟩
    · have hnone : fromMarked marker [line] = [] :=
        List.dropWhile_cons_of_pos (by simpa using hmarked)
      rw [fromMarker?_unmarked hmarked, fromMarker?_last hline, splitLines_of_line hline, hnone]
      exact ⟨(fun h => nomatch h), (fun h => absurd h (splitLines_ne_nil rest))⟩
  | more line cs hline ih =>
    by_cases hmarked : Marked marker line
    · rw [fromMarker?_marked ((marked_append hmarker hline cs).mpr hmarked)]
      refine hhere ?_
      rw [splitLines_cons hline]
      exact fromMarked_eq_cons.mpr ⟨[], rfl, fun _ hl => absurd hl List.not_mem_nil, hmarked⟩
    · have hskip : fromMarked marker (line :: splitLines cs) = fromMarked marker (splitLines cs) :=
        List.dropWhile_cons_of_pos (by simpa using hmarked)
      rw [fromMarker?_unmarked (fun h => hmarked ((marked_append hmarker hline cs).mp h)),
        fromMarker?_line hline, splitLines_cons hline, hskip]
      exact ih

theorem regionOn?_eq_some {opening : List Char} (hopening : '\n' ∉ opening)
    {text region : List Char} :
    regionOn? opening text = some region ↔
      ∃ line, fromMarked opening (splitLines text) = line :: splitLines region := by
  constructor
  · intro h
    unfold regionOn? at h
    split at h
    · cases h
    · next rest hrest =>
      split at h
      · cases h
      · next behind hbehind =>
        rw [afterLine?_indented hopening hbehind] at h
        rw [fromMarker?_eq_some hopening] at hrest
        rw [← hrest]
        induction rest using lines_induction with
        | last line hline =>
          rw [afterLine?_eq_none hline] at h
          cases h
        | more line cs hline _ =>
          rw [afterLine?_append hline] at h
          obtain rfl := Option.some.inj h
          exact ⟨line, splitLines_cons hline cs⟩
  · intro h
    obtain ⟨line, hline⟩ := h
    obtain ⟨above, hlines, _, hmarked⟩ := fromMarked_eq_cons.mp hline
    have hmem : line ∈ splitLines text := by
      rw [hlines]
      exact List.mem_append_right above List.mem_cons_self
    have hfree : '\n' ∉ line := not_mem_line hmem
    have hrest : fromMarker? opening true text = some (line ++ '\n' :: region) :=
      (fromMarker?_eq_some hopening).mpr ((splitLines_cons hfree region).trans hline.symm)
    obtain ⟨behind, hbehind⟩ := Option.isSome_iff_exists.mp
      (afterIndented?_isSome.mpr ((marked_append hopening hfree region).mpr hmarked))
    have hregion := afterLine?_indented hopening hbehind
    rw [afterLine?_append hfree] at hregion
    simp only [regionOn?, hrest, hbehind]
    exact hregion

/-! ## 4. Cuts -/

/-- The lines of a new content, without the empty one below its last line feed. -/
def contentLines (content : List Char) : List (List Char) := (splitLines (closed content)).dropLast

theorem closed_cases (content : List Char) :
    (content = [] ∧ closed content = []) ∨
      ∃ init, closed content = init ++ ['\n'] ∧ (content = init ++ ['\n'] ∨ content = init) := by
  cases hlast : content.getLast? with
  | none => exact .inl ⟨List.getLast?_eq_none_iff.mp hlast, by simp only [closed, hlast]⟩
  | some c =>
    refine .inr ?_
    by_cases hc : c = '\n'
    · obtain ⟨init, hinit⟩ := List.getLast?_eq_some_iff.mp hlast
      rw [hc] at hinit
      refine ⟨init, ?_, .inl hinit⟩
      simp only [closed, hlast, if_pos (beq_iff_eq.mpr hc)]
      exact hinit
    · refine ⟨content, ?_, .inr rfl⟩
      simp only [closed, hlast, if_neg fun h => hc (beq_iff_eq.mp h)]

theorem contentLines_of_closed {content init : List Char} (h : closed content = init ++ ['\n']) :
    contentLines content = splitLines init := by
  unfold contentLines
  rw [h, splitLines_append]
  exact List.dropLast_concat

theorem splitLines_closed_append (content rest : List Char) :
    splitLines (closed content ++ rest) = contentLines content ++ splitLines rest := by
  rcases closed_cases content with ⟨_, hclosed⟩ | ⟨init, hclosed, _⟩
  · unfold contentLines
    rw [hclosed]
    rfl
  · rw [contentLines_of_closed hclosed, hclosed, List.append_assoc]
    exact splitLines_append init rest

theorem mem_contentLines {content line : List Char} (h : line ∈ contentLines content) :
    line ∈ splitLines content := by
  rcases closed_cases content with ⟨_, hclosed⟩ | ⟨init, hclosed, hcontent⟩
  · unfold contentLines at h
    rw [hclosed] at h
    exact absurd h List.not_mem_nil
  · rw [contentLines_of_closed hclosed] at h
    rcases hcontent with rfl | rfl
    · rw [splitLines_append]
      exact List.mem_append_left _ h
    · exact h

/-- The lines of a text around the region of two markers. -/
structure Cut where
  above : List (List Char)
  opening : List Char
  inside : List (List Char)
  closing : List Char
  below : List (List Char)

namespace Cut

/-- All lines of a cut. -/
def lines (k : Cut) : List (List Char) := k.above ++ k.opening :: (k.inside ++ k.closing :: k.below)

/-- A cut with other lines inside. -/
def fill (k : Cut) (inside : List (List Char)) : Cut := { k with inside := inside }

/-- A cut is between the first line that opens a region and the first one that closes it. -/
structure IsOf (m : MarkerPair) (k : Cut) : Prop where
  above : ∀ l ∈ k.above, ¬Marked m.opening.toList l
  opening : Marked m.opening.toList k.opening
  inside : ∀ l ∈ k.inside, ¬Marked m.closing.toList l
  closing : Marked m.closing.toList k.closing

end Cut

theorem exists_cut {m : MarkerPair} (hm : m.Proper) {content text new : List Char}
    (h : replace? m.opening.toList m.closing.toList content text = some new) :
    ∃ k : Cut, k.IsOf m ∧ splitLines text = k.lines := by
  unfold replace? at h
  split at h
  · cases h
  · next region hregion =>
    split at h
    · cases h
    · next rest hrest =>
      obtain ⟨line, hline⟩ := (regionOn?_eq_some hm.opening).mp hregion
      obtain ⟨above, hlines, habove, hopening⟩ := fromMarked_eq_cons.mp hline
      obtain ⟨close, below, hclose⟩ := List.exists_cons_of_ne_nil (splitLines_ne_nil rest)
      rw [fromMarker?_eq_some hm.closing, hclose] at hrest
      obtain ⟨inside, hregionLines, hinside, hclosing⟩ := fromMarked_eq_cons.mp hrest.symm
      refine ⟨⟨above, line, inside, close, below⟩, ⟨habove, hopening, hinside, hclosing⟩, ?_⟩
      rw [hlines, hregionLines]
      rfl

/-- Where the searches of a splice stop in a text that is cut: at the line that opens the region,
    behind it, and at the line that closes the region. -/
theorem exists_found {m : MarkerPair} (hm : m.Proper) {text : List Char} {k : Cut} (hk : k.IsOf m)
    (hlines : splitLines text = k.lines) :
    ∃ line region close,
      fromMarker? m.opening.toList true text = some line ∧
      splitLines line = k.opening :: (k.inside ++ k.closing :: k.below) ∧
      regionOn? m.opening.toList text = some region ∧
      splitLines region = k.inside ++ k.closing :: k.below ∧
      fromMarker? m.closing.toList true region = some close ∧
      splitLines close = k.closing :: k.below := by
  obtain ⟨line, hline⟩ := exists_below (show splitLines text = k.above ++ k.opening ::
    (k.inside ++ k.closing :: k.below) from hlines) (List.cons_ne_nil _ _)
  obtain ⟨region, hregion⟩ := exists_below (show splitLines line = [k.opening] ++
    (k.inside ++ k.closing :: k.below) from hline)
    (List.append_ne_nil_of_right_ne_nil _ (List.cons_ne_nil _ _))
  obtain ⟨close, hclose⟩ := exists_below hregion (List.cons_ne_nil _ _)
  have hfirst : fromMarked m.opening.toList (splitLines text) =
      k.opening :: (k.inside ++ k.closing :: k.below) :=
    fromMarked_eq_cons.mpr ⟨k.above, hlines, hk.above, hk.opening⟩
  refine ⟨line, region, close, ?_, hline, ?_, hregion, ?_, hclose⟩
  · rw [fromMarker?_eq_some hm.opening, hline, hfirst]
  · exact (regionOn?_eq_some hm.opening).mpr ⟨k.opening, by rw [hfirst, hregion]⟩
  · rw [fromMarker?_eq_some hm.closing, hclose]
    exact (fromMarked_eq_cons.mpr ⟨k.inside, hregion, hk.inside, hk.closing⟩).symm

theorem replace?_cut {m : MarkerPair} (hm : m.Proper) (content : List Char) {text : List Char}
    {k : Cut} (hk : k.IsOf m) (hlines : splitLines text = k.lines) :
    ∃ new, replace? m.opening.toList m.closing.toList content text = some new ∧
      splitLines new = (k.fill (contentLines content)).lines := by
  obtain ⟨_, region, rest, _, _, hregionOn, hregion, hrestOn, hrest⟩ := exists_found hm hk hlines
  have hsplit : splitLines text = (k.above ++ [k.opening]) ++ splitLines region := by
    rw [hlines, hregion, List.append_assoc]
    rfl
  obtain ⟨htext, hterminated⟩ := eq_terminated hsplit
  have hnew : replace? m.opening.toList m.closing.toList content text =
      some (text.take (text.length - region.length) ++ closed content ++ rest) := by
    simp only [replace?, hregionOn, hrestOn]
  refine ⟨_, hnew, ?_⟩
  rw [htext, List.length_append, Nat.add_sub_cancel, List.take_left, List.append_assoc,
    hterminated, splitLines_closed_append, hrest, List.append_assoc]
  rfl

end Splice

open Splice

/-- **A splice replaces the lines inside the cut of its markers**, and there is one if there is such
    a cut. -/
theorem splice?_eq_some {m : MarkerPair} (hm : m.Proper) {text content new : String} :
    splice? text m content = some new ↔
      ∃ k : Cut, k.IsOf m ∧ splitLines text.toList = k.lines ∧
        splitLines new.toList = (k.fill (contentLines content.toList)).lines := by
  unfold splice?
  rw [Option.map_eq_some_iff]
  constructor
  · intro h
    obtain ⟨cs, hcs, rfl⟩ := h
    obtain ⟨k, hk, hlines⟩ := exists_cut hm hcs
    obtain ⟨new, hnew, hnewLines⟩ := replace?_cut hm content.toList hk hlines
    obtain rfl := Option.some.inj (hcs.symm.trans hnew)
    exact ⟨k, hk, hlines, by rw [String.toList_ofList, hnewLines]⟩
  · intro h
    obtain ⟨k, hk, hlines, hnew⟩ := h
    obtain ⟨cs, hcs, hcsLines⟩ := replace?_cut hm content.toList hk hlines
    refine ⟨cs, hcs, ?_⟩
    rw [splitLines_injective (hcsLines.trans hnew.symm), String.ofList_toList]

/-! ## 5. Splicing again -/

/-- A text has a content between two markers if splicing the content leaves the text as it is. -/
theorem splice?_self {m : MarkerPair} (hm : m.Proper) {text content : String} :
    splice? text m content = some text ↔
      ∃ k : Cut, k.IsOf m ∧ splitLines text.toList = k.lines ∧
        k.inside = contentLines content.toList := by
  rw [splice?_eq_some hm]
  constructor
  · intro h
    obtain ⟨k, hk, hlines, hfill⟩ := h
    refine ⟨k, hk, hlines, ?_⟩
    have heq := List.cons.inj (List.append_cancel_left (hlines.symm.trans hfill))
    exact List.append_cancel_right heq.2
  · intro h
    obtain ⟨k, hk, hlines, hinside⟩ := h
    refine ⟨k, hk, hlines, ?_⟩
    rw [hlines, ← hinside]
    rfl

theorem splice?_again {m : MarkerPair} (hm : m.Proper) {text content new : String}
    (hcontent : ∀ l ∈ contentLines content.toList, ¬Marked m.closing.toList l)
    (h : splice? text m content = some new) : splice? new m content = some new := by
  obtain ⟨k, hk, _, hfill⟩ := (splice?_eq_some hm).mp h
  have hfilled : (k.fill (contentLines content.toList)).IsOf m :=
    ⟨hk.above, hk.opening, hcontent, hk.closing⟩
  exact (splice?_self hm).mpr ⟨_, hfilled, hfill, rfl⟩

/-- The region of the markers `m` has the first line in it that opens a region of `p`. -/
def Encloses (m p : MarkerPair) (text : String) : Prop :=
  ∃ k : Cut, k.IsOf m ∧ splitLines text.toList = k.lines ∧
    (∀ l ∈ k.above, ¬Marked p.opening.toList l) ∧ ∃ l ∈ k.inside, Marked p.opening.toList l

theorem exists_between {xs ys zs ws : List (List Char)} {l : List Char}
    (h : xs ++ ys = zs ++ l :: ws) (hl : l ∉ xs) :
    ∃ between, zs = xs ++ between ∧ ys = between ++ l :: ws := by
  rcases List.append_eq_append_iff.mp h with ⟨between, hzs, hys⟩ | ⟨between, hxs, hws⟩
  · exact ⟨between, hzs, hys⟩
  · cases between with
    | nil =>
      rw [List.append_nil] at hxs
      exact ⟨[], by rw [hxs, List.append_nil], hws.symm⟩
    | cons first between =>
      obtain ⟨rfl, _⟩ := List.cons.inj hws
      exact absurd (hxs ▸ List.mem_append_right zs List.mem_cons_self) hl

namespace Splice.Cut

variable {p : MarkerPair} {k q : Cut} {more : List (List Char)}

/-- Other lines inside a cut leave the region of a cut that opens below it. -/
theorem IsOf.below_fill (hq : q.IsOf p) (habove : q.above = k.above ++ k.opening :: more)
    (htail : k.inside ++ k.closing :: k.below =
      more ++ q.opening :: (q.inside ++ q.closing :: q.below))
    (hout : q.opening ∉ k.inside) {inside : List (List Char)}
    (hinside : ∀ l ∈ inside, ¬Marked p.opening.toList l) :
    ∃ q' : Cut, q'.IsOf p ∧ (k.fill inside).lines = q'.lines ∧ q'.inside = q.inside := by
  obtain ⟨between, rfl, hbelow⟩ := exists_between htail hout
  have hfree := hq.above
  rw [habove, List.forall_mem_append, List.forall_mem_cons, List.forall_mem_append] at hfree
  obtain ⟨hfirst, hopening, _, hbetween⟩ := hfree
  refine ⟨⟨k.above ++ k.opening :: (inside ++ between), q.opening, q.inside, q.closing, q.below⟩,
    ⟨?_, hq.opening, hq.inside, hq.closing⟩, ?_, rfl⟩
  · exact List.forall_mem_append.mpr ⟨hfirst, List.forall_mem_cons.mpr
      ⟨hopening, List.forall_mem_append.mpr ⟨hinside, hbetween⟩⟩⟩
  · show k.above ++ k.opening :: (inside ++ k.closing :: k.below) = _
    rw [hbelow]
    simp only [lines, List.append_assoc, List.cons_append]

/-- So they do where the region opens above, up to the line that closes it. -/
theorem IsOf.above_fill (hq : q.IsOf p) (habove : k.above = q.above ++ q.opening :: more)
    (htail : q.inside ++ q.closing :: q.below =
      more ++ k.opening :: (k.inside ++ k.closing :: k.below))
    (hout : k.opening ∉ q.inside) (inside : List (List Char)) :
    ∃ q' : Cut, q'.IsOf p ∧ (k.fill inside).lines = q'.lines ∧ q'.inside = q.inside := by
  obtain ⟨between, rfl, hbelow⟩ := exists_between htail hout
  -- the line that closes the region stands above the filled cut, or opens it
  have hclosing : ∃ below, between ++ k.opening :: (inside ++ k.closing :: k.below) =
      q.closing :: below := by
    cases between with
    | nil => exact ⟨_, by rw [(List.cons.inj hbelow).1]; rfl⟩
    | cons first between => exact ⟨_, by rw [(List.cons.inj hbelow).1]; rfl⟩
  obtain ⟨below, hbelow⟩ := hclosing
  refine ⟨⟨q.above, q.opening, q.inside, q.closing, below⟩,
    ⟨hq.above, hq.opening, hq.inside, hq.closing⟩, ?_, rfl⟩
  show k.above ++ k.opening :: (inside ++ k.closing :: k.below) = _
  rw [habove, lines, ← hbelow]
  simp only [List.append_assoc, List.cons_append]

end Splice.Cut

/-- A splice elsewhere leaves a content between its markers, unless its region encloses them. -/
theorem splice?_keeps {m p : MarkerPair} (hm : m.Proper) (hp : p.Proper)
    {text content kept new : String}
    (hopenings : ∀ l, Marked m.opening.toList l → ¬Marked p.opening.toList l)
    (hcontent : ∀ l ∈ contentLines content.toList, ¬Marked p.opening.toList l)
    (hkept : ∀ l ∈ contentLines kept.toList, ¬Marked m.opening.toList l)
    (hencloses : ¬Encloses m p text) (h : splice? text m content = some new)
    (hself : splice? text p kept = some text) : splice? new p kept = some new := by
  obtain ⟨k, hk, hlines, hnew⟩ := (splice?_eq_some hm).mp h
  obtain ⟨q, hq, hqlines, hinside⟩ := (splice?_self hp).mp hself
  rw [← hinside] at hkept
  refine (splice?_self hp).mpr ?_
  rw [hnew, ← hinside]
  rcases List.append_eq_append_iff.mp (hlines.symm.trans hqlines) with
    ⟨more, habove, hrest⟩ | ⟨more, habove, hrest⟩
  · -- the region of `p` opens below the line that opens the one of `m`
    cases more with
    | nil =>
      obtain ⟨heq, _⟩ := List.cons.inj hrest
      exact absurd (heq ▸ hq.opening) (hopenings _ hk.opening)
    | cons l more =>
      rw [List.cons_append] at hrest
      obtain ⟨rfl, htail⟩ := List.cons.inj hrest
      refine hq.below_fill habove htail (fun hmem => hencloses ?_) hcontent
      have hfree : ∀ x ∈ k.above, ¬Marked p.opening.toList x := fun x hx =>
        hq.above x (habove ▸ List.mem_append_left _ hx)
      exact ⟨k, hk, hlines, hfree, _, hmem, hq.opening⟩
  · -- the region of `p` opens above that line
    cases more with
    | nil =>
      obtain ⟨heq, _⟩ := List.cons.inj hrest
      exact absurd (heq ▸ hq.opening) (hopenings _ hk.opening)
    | cons l more =>
      rw [List.cons_append] at hrest
      obtain ⟨rfl, htail⟩ := List.cons.inj hrest
      exact hq.above_fill habove htail (fun hmem => hkept _ hmem hk.opening) _

/-! ## 6. The markers in use -/

namespace MarkerPair

/-- The pairs of markers in use. -/
def all : List MarkerPair := [decoding, execution, tests]

theorem slashes_of_mem : ∀ m ∈ all,
    ['/', '/', ' '] <+: m.opening.toList ∧ ['/', '/', ' '] <+: m.closing.toList := by decide

theorem proper_of_mem {m : MarkerPair} (h : m ∈ all) : m.Proper := by
  have hall : ∀ m ∈ all, '\n' ∉ m.opening.toList ∧ '\n' ∉ m.closing.toList := by decide
  exact ⟨(hall m h).1, (hall m h).2⟩

end MarkerPair

namespace Splice

/-- A marker that starts with no blank starts what is left of a line without its indentation. -/
theorem marked_iff {m : Char} {ms line : List Char} (hm : isIndent m = false) :
    Marked (m :: ms) line ↔ m :: ms <+: line.dropWhile isIndent := by
  constructor
  · intro h
    obtain ⟨indent, rest, hindent, rfl⟩ := h
    have hm' : ¬isIndent m = true := by
      rw [hm]
      exact Bool.false_ne_true
    rw [List.append_assoc, List.dropWhile_append_of_pos hindent, List.cons_append,
      List.dropWhile_cons_of_neg hm']
    exact List.prefix_append (m :: ms) rest
  · intro h
    obtain ⟨rest, hrest⟩ := h
    refine ⟨line.takeWhile isIndent, rest, List.all_eq_true.mp List.all_takeWhile, ?_⟩
    rw [List.append_assoc, hrest, List.takeWhile_append_dropWhile]

theorem marked_iff_of_slashes {marker line : List Char} (hmarker : ['/', '/', ' '] <+: marker) :
    Marked marker line ↔ marker <+: line.dropWhile isIndent := by
  obtain ⟨rest, rfl⟩ := hmarker
  exact marked_iff rfl

/-- A line opens one region at most. -/
theorem opening_unique {m p : MarkerPair} (hm : m ∈ MarkerPair.all) (hp : p ∈ MarkerPair.all)
    (hne : m ≠ p) {line : List Char} (h : Marked m.opening.toList line) :
    ¬Marked p.opening.toList line := by
  have happart : ∀ m ∈ MarkerPair.all, ∀ p ∈ MarkerPair.all,
      m.opening.toList <+: p.opening.toList → m = p := by decide
  rw [marked_iff_of_slashes (MarkerPair.slashes_of_mem m hm).1] at h
  rw [marked_iff_of_slashes (MarkerPair.slashes_of_mem p hp).1]
  intro h'
  rcases List.prefix_or_prefix_of_prefix h h' with hle | hle
  · exact hne (happart m hm p hp hle)
  · exact hne (happart p hp m hm hle).symm

/-- No line of a text is marked with a marker in use. -/
def Unmarked (text : List Char) : Prop :=
  ∀ l ∈ splitLines text, ∀ m ∈ MarkerPair.all,
    ¬Marked m.opening.toList l ∧ ¬Marked m.closing.toList l

theorem unmarked_of_line {line : List Char} (hline : '\n' ∉ line)
    (h : ¬['/', '/', ' '] <+: line.dropWhile isIndent) : Unmarked line := by
  have hmarker {marker : List Char} (hmarker : ['/', '/', ' '] <+: marker) :
      ¬Marked marker line := by
    rw [marked_iff_of_slashes hmarker]
    exact fun hc => h (hmarker.trans hc)
  intro l hl m hm
  rw [splitLines_of_line hline, List.mem_singleton] at hl
  rw [hl]
  exact ⟨hmarker (MarkerPair.slashes_of_mem m hm).1, hmarker (MarkerPair.slashes_of_mem m hm).2⟩

theorem unmarked_append (bs cs : List Char) :
    Unmarked (bs ++ '\n' :: cs) ↔ Unmarked bs ∧ Unmarked cs := by
  unfold Unmarked
  rw [splitLines_append, List.forall_mem_append]

/-- A text without slashes has no marked line. -/
theorem unmarked_of_slash {text : List Char} (h : '/' ∉ text) : Unmarked text := by
  induction text using lines_induction with
  | last line hline =>
    refine unmarked_of_line hline fun hc => h ?_
    exact List.dropWhile_subset _ (hc.subset List.mem_cons_self)
  | more line rest hline ih =>
    rw [List.mem_append, List.mem_cons, not_or, not_or] at h
    refine (unmarked_append line rest).mpr ⟨unmarked_of_line hline fun hc => h.1 ?_, ih h.2.2⟩
    exact List.dropWhile_subset _ (hc.subset List.mem_cons_self)

end Splice

end Sm83Codegen
