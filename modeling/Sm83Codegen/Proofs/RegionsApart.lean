import Sm83Codegen.Proofs.Regions

/-!
# Regions that lie apart

A splice moves what is below its region, and drops the lines in it, which the markers of another
pair may mark as well. Still two splices can change places if their regions lie apart and neither
content has a marked line: the second search stops at the lines at which it stops without the first.

* `span?` -- from where to where the markers of a pair match in a text; `Apart` -- two such spans do
  not overlap;
* `Cut.Above` -- a region ends above the line that opens another; `above_of_apart` -- of regions that
  lie apart one is above the other;
* `Holds` -- a text has a content between its markers;
* `splice?_above` -- what two splices make of a text, one region being above the other;
* `splice?_comm` -- the order of two splices does not matter.
-/

namespace Sm83Codegen

open Text Splice

namespace Splice

/-! ## 1. Spans -/

/-- From where to where the markers of a pair match in a text: from the start of the line that opens
    the region to the end of the marker that closes it, in characters. -/
def span? (m : MarkerPair) (text : String) : Option (Nat × Nat) := do
  let line ← fromMarker? m.opening.toList true text.toList
  let region ← regionOn? m.opening.toList text.toList
  let close ← fromMarker? m.closing.toList true region
  let rest ← afterIndented? m.closing.toList close
  some (text.toList.length - line.length, text.toList.length - rest.length)

/-- The spans of two pairs do not overlap in a text. -/
def Apart (m p : MarkerPair) (text : String) : Prop :=
  ∀ x ∈ span? m text, ∀ y ∈ span? p text, x.2 ≤ y.1 ∨ y.2 ≤ x.1

instance (m p : MarkerPair) (text : String) : Decidable (Apart m p text) :=
  inferInstanceAs (Decidable (∀ x ∈ span? m text, ∀ y ∈ span? p text, x.2 ≤ y.1 ∨ y.2 ≤ x.1))

theorem marked_iff_first {marker cs line : List Char} {lines : List (List Char)}
    (hmarker : '\n' ∉ marker) (h : splitLines cs = line :: lines) :
    Marked marker cs ↔ Marked marker line := by
  obtain ⟨hline, ⟨_, rfl⟩ | ⟨rest, rfl, _⟩⟩ := splitLines_eq_cons h
  · rfl
  · exact marked_append hmarker hline rest

theorem terminated_append (ls ms : List (List Char)) :
    terminated (ls ++ ms) = terminated ls ++ terminated ms := by
  unfold terminated
  exact List.flatMap_append

variable {m p : MarkerPair} {text : String} {k q : Cut}

/-- A span starts below the lines above the region, and ends in the line that closes it. -/
theorem span?_of_cut (hm : m.Proper) (hk : k.IsOf m) (hlines : splitLines text.toList = k.lines) :
    ∃ stop, span? m text = some ((terminated k.above).length, stop) ∧
      (terminated (k.above ++ k.opening :: k.inside)).length + m.closing.toList.length ≤ stop := by
  obtain ⟨line, region, close, hline, hlineLines, hregion, _, hclose, hcloseLines⟩ :=
    exists_found hm hk hlines
  have htop : text.toList = terminated k.above ++ line := by
    refine (eq_terminated ?_).1
    rw [hlines, hlineLines]
    rfl
  have hbottom : text.toList = terminated (k.above ++ k.opening :: k.inside) ++ close := by
    refine (eq_terminated ?_).1
    rw [hlines, hcloseLines, List.append_assoc]
    rfl
  have hmarked : Marked m.closing.toList close :=
    (marked_iff_first hm.closing hcloseLines).mpr hk.closing
  obtain ⟨rest, hrest⟩ := Option.isSome_iff_exists.mp (afterIndented?_isSome.mpr hmarked)
  obtain ⟨indent, _, hindent⟩ := afterIndented?_eq_some hrest
  refine ⟨text.toList.length - rest.length, ?_, ?_⟩
  · simp only [span?, hline, hregion, hclose, hrest, Option.bind_eq_bind, Option.bind_some]
    rw [htop, List.length_append, Nat.add_sub_cancel]
  · rw [hbottom, hindent]
    simp only [List.length_append]
    omega

/-! ## 2. Regions above each other -/

/-- A region ends above the line that opens another one. -/
def Cut.Above (k q : Cut) : Prop :=
  ∃ between, q.above = k.above ++ k.opening :: (k.inside ++ k.closing :: between)

/-- A region that ends before another one opens is above it. -/
theorem above_of_lt (h : k.lines = q.lines)
    (hlt : (terminated (k.above ++ k.opening :: k.inside)).length < (terminated q.above).length) :
    k.Above q := by
  have hlines : (k.above ++ k.opening :: k.inside) ++ k.closing :: k.below =
      q.above ++ q.opening :: (q.inside ++ q.closing :: q.below) := by
    rw [List.append_assoc]
    exact h
  rcases List.append_eq_append_iff.mp hlines with ⟨more, habove, hrest⟩ | ⟨more, hinside, _⟩
  · cases more with
    | nil =>
      rw [habove, List.append_nil] at hlt
      exact absurd hlt (Nat.lt_irrefl _)
    | cons line between =>
      obtain ⟨rfl, _⟩ := List.cons.inj hrest
      exact ⟨between, by rw [habove, List.append_assoc]; rfl⟩
  · rw [hinside, terminated_append, List.length_append] at hlt
    omega

/-- **Of two regions that lie apart one is above the other.** -/
theorem above_of_apart (hm : m.Proper) (hp : p.Proper) (hmc : m.closing.toList ≠ [])
    (hpc : p.closing.toList ≠ []) (hk : k.IsOf m) (hq : q.IsOf p)
    (hklines : splitLines text.toList = k.lines) (hqlines : splitLines text.toList = q.lines)
    (h : Apart m p text) : k.Above q ∨ q.Above k := by
  obtain ⟨kstop, hkspan, hkstop⟩ := span?_of_cut hm hk hklines
  obtain ⟨qstop, hqspan, hqstop⟩ := span?_of_cut hp hq hqlines
  have hmlen := List.length_pos_iff.mpr hmc
  have hplen := List.length_pos_iff.mpr hpc
  rcases h _ hkspan _ hqspan with hle | hle
  · exact .inl (above_of_lt (hklines.symm.trans hqlines) (by omega))
  · exact .inr (above_of_lt (hqlines.symm.trans hklines) (by omega))

/-! ## 3. Two splices -/

/-- A text has a content between its markers, up to the line feed at its end. -/
def Holds (m : MarkerPair) (content text : String) : Prop :=
  ∃ before after, IsRegion m text before (content ++ missingEnd content) after

theorem holds_of_cut (hm : m.Proper) {content : String} (hk : k.IsOf m)
    (hlines : splitLines text.toList = k.lines) (hinside : k.inside = contentLines content.toList) :
    Holds m content text := by
  have hself := (splice?_self hm).mpr ⟨k, hk, hlines, hinside⟩
  obtain ⟨before, region, after, hregion, htext⟩ := (splice?_eq_some_iff hm).mp hself
  have hwhole : before ++ region ++ after = before ++ (content ++ missingEnd content) ++ after := by
    rw [← hregion.whole, htext]
    simp only [String.append_assoc]
  rw [String.append_left_inj, String.append_right_inj] at hwhole
  exact ⟨before, after, hwhole ▸ hregion⟩

/-- Two splices, one region being above the other: whichever comes first, each finds its lines where
    they are without the other. -/
theorem splice?_above (hm : m.Proper) (hp : p.Proper) {first second once other : String}
    (hk : k.IsOf m) (hq : q.IsOf p) (hklines : splitLines text.toList = k.lines)
    (hqlines : splitLines text.toList = q.lines) (habove : k.Above q)
    (honce : splitLines once.toList = (k.fill (contentLines first.toList)).lines)
    (hother : splitLines other.toList = (q.fill (contentLines second.toList)).lines)
    (hfirst : ∀ l ∈ contentLines first.toList,
      ¬Marked p.opening.toList l ∧ ¬Marked m.closing.toList l)
    (hsecond : ∀ l ∈ contentLines second.toList, ¬Marked p.closing.toList l) :
    ∃ new, splice? once p second = some new ∧ splice? other m first = some new ∧
      Holds m first new ∧ Holds p second new := by
  obtain ⟨between, hbetween⟩ := habove
  -- the lines below the upper region, up to the end of the text
  have hbelow : k.below = between ++ q.opening :: (q.inside ++ q.closing :: q.below) := by
    have hlines : k.lines = q.lines := hklines.symm.trans hqlines
    unfold Cut.lines at hlines
    rw [hbetween, List.append_assoc, List.append_cancel_left_eq, List.cons_append, List.cons.injEq,
      List.append_assoc, List.append_cancel_left_eq, List.cons_append, List.cons.injEq] at hlines
    exact hlines.2.2
  -- the two regions, each after a splice of the other
  let lower : Cut :=
    { q with above := k.above ++ k.opening :: (contentLines first.toList ++ k.closing :: between) }
  let upper : Cut :=
    { k with below := between ++ q.opening :: (contentLines second.toList ++ q.closing :: q.below) }
  have hlower : lower.IsOf p := by
    refine ⟨fun l hl => ?_, hq.opening, hq.inside, hq.closing⟩
    have hfree : ∀ x ∈ k.above ++ k.opening :: (k.inside ++ k.closing :: between),
        ¬Marked p.opening.toList x := hbetween ▸ hq.above
    simp only [List.forall_mem_append, List.forall_mem_cons] at hfree
    obtain ⟨habove, hopening, _, hclosing, hrest⟩ := hfree
    have hall : ∀ x ∈ k.above ++ k.opening :: (contentLines first.toList ++ k.closing :: between),
        ¬Marked p.opening.toList x := by
      simp only [List.forall_mem_append, List.forall_mem_cons]
      exact ⟨habove, hopening, fun x hx => (hfirst x hx).1, hclosing, hrest⟩
    exact hall l hl
  have hupper : upper.IsOf m := ⟨hk.above, hk.opening, hk.inside, hk.closing⟩
  have honceLower : splitLines once.toList = lower.lines := by
    rw [honce]
    simp only [Cut.lines, Cut.fill, lower, hbelow, List.append_assoc, List.cons_append]
  have hotherUpper : splitLines other.toList = upper.lines := by
    rw [hother]
    simp only [Cut.lines, Cut.fill, upper, hbetween, List.append_assoc, List.cons_append]
  obtain ⟨new, hnew, hnewLines⟩ := splice?_of_cut hp hlower honceLower second
  obtain ⟨new', hnew', hnewLines'⟩ := splice?_of_cut hm hupper hotherUpper first
  have hsame : new = new' := by
    refine String.toList_injective (splitLines_injective ?_)
    rw [hnewLines, hnewLines']
    simp only [Cut.lines, Cut.fill, lower, upper, List.append_assoc, List.cons_append]
  rw [← hsame] at hnew' hnewLines'
  refine ⟨new, hnew, hnew', holds_of_cut hm ?_ hnewLines' rfl, holds_of_cut hp ?_ hnewLines rfl⟩
  · exact ⟨hupper.above, hupper.opening, fun l hl => (hfirst l hl).2, hupper.closing⟩
  · exact ⟨hlower.above, hlower.opening, hsecond, hlower.closing⟩

/-- No line of a content is marked with one of the markers of two pairs. -/
def FreeOf (m p : MarkerPair) (content : String) : Prop :=
  ∀ l ∈ splitLines content.toList, ∀ marker ∈ [m.opening, m.closing, p.opening, p.closing],
    ¬Marked marker.toList l

instance (m p : MarkerPair) (content : String) : Decidable (FreeOf m p content) :=
  inferInstanceAs (Decidable (∀ l ∈ splitLines content.toList,
    ∀ marker ∈ [m.opening, m.closing, p.opening, p.closing], ¬Marked marker.toList l))

/-- An empty marker marks every line, and every text has a line. -/
theorem FreeOf.ne_nil {content marker : String} (h : FreeOf m p content)
    (hmarker : marker ∈ [m.opening, m.closing, p.opening, p.closing]) : marker.toList ≠ [] := by
  obtain ⟨line, hline⟩ := List.exists_mem_of_ne_nil _ (splitLines_ne_nil content.toList)
  intro hnil
  refine h line hline marker hmarker ⟨[], line, fun _ hc => absurd hc List.not_mem_nil, ?_⟩
  rw [hnil]
  rfl

theorem FreeOf.not_marked {content marker : String} (h : FreeOf m p content)
    (hmarker : marker ∈ [m.opening, m.closing, p.opening, p.closing]) :
    ∀ l ∈ contentLines content.toList, ¬Marked marker.toList l :=
  fun l hl => h l (mem_contentLines hl) marker hmarker

end Splice

/-- **Splices of regions that lie apart can change places.** If two pairs of markers match in a text
    without an overlap, and no line of either content is marked with one of the four markers, then
    the text takes both contents in either order, and becomes the same text, in which each region
    has its own content. -/
theorem splice?_comm {m p : MarkerPair} (hm : m.Proper) (hp : p.Proper)
    {text first second once other : String} (honce : splice? text m first = some once)
    (hother : splice? text p second = some other) (hapart : Apart m p text)
    (hfirst : FreeOf m p first) (hsecond : FreeOf m p second) :
    ∃ new, splice? once p second = some new ∧ splice? other m first = some new ∧
      Holds m first new ∧ Holds p second new := by
  obtain ⟨k, hk, hklines, hkfill⟩ := (splice?_eq_some hm).mp honce
  obtain ⟨q, hq, hqlines, hqfill⟩ := (splice?_eq_some hp).mp hother
  have hmc : m.closing ∈ [m.opening, m.closing, p.opening, p.closing] := by simp
  have hpc : p.closing ∈ [m.opening, m.closing, p.opening, p.closing] := by simp
  have hmo : m.opening ∈ [m.opening, m.closing, p.opening, p.closing] := by simp
  have hpo : p.opening ∈ [m.opening, m.closing, p.opening, p.closing] := by simp
  rcases above_of_apart hm hp (hfirst.ne_nil hmc) (hfirst.ne_nil hpc) hk hq hklines hqlines hapart
    with habove | habove
  · exact splice?_above hm hp hk hq hklines hqlines habove hkfill hqfill
      (fun l hl => ⟨hfirst.not_marked hpo l hl, hfirst.not_marked hmc l hl⟩)
      (hsecond.not_marked hpc)
  · obtain ⟨new, hnew, hnew', hheld, hheld'⟩ := splice?_above hp hm hq hk hqlines hklines habove
      hqfill hkfill (fun l hl => ⟨hsecond.not_marked hmo l hl, hsecond.not_marked hpc l hl⟩)
      (hfirst.not_marked hmc)
    exact ⟨new, hnew', hnew, hheld', hheld⟩

/-- The old content of each region has a line of the other pair: behind the first splice, the lines
    that mark the other region are not the ones they were. -/
theorem splice?_comm_crossed :
    MarkerPair.Proper ⟨"<", ">"⟩ ∧ MarkerPair.Proper ⟨"(", ")"⟩ ∧
    splice? "<\n)\n>\n\t(\n< old\n)\n" ⟨"<", ">"⟩ "a\nb" =
      some "<\na\nb\n>\n\t(\n< old\n)\n" ∧
    splice? "<\n)\n>\n\t(\n< old\n)\n" ⟨"(", ")"⟩ "" = some "<\n)\n>\n\t(\n)\n" ∧
    Apart ⟨"<", ">"⟩ ⟨"(", ")"⟩ "<\n)\n>\n\t(\n< old\n)\n" ∧
    FreeOf ⟨"<", ">"⟩ ⟨"(", ")"⟩ "a\nb" ∧ FreeOf ⟨"<", ">"⟩ ⟨"(", ")"⟩ "" ∧
    ∃ new, splice? "<\na\nb\n>\n\t(\n< old\n)\n" ⟨"(", ")"⟩ "" = some new ∧
      splice? "<\n)\n>\n\t(\n)\n" ⟨"<", ">"⟩ "a\nb" = some new ∧
      new = "<\na\nb\n>\n\t(\n)\n" := by
  have hm : MarkerPair.Proper ⟨"<", ">"⟩ := ⟨by decide, by decide⟩
  have hp : MarkerPair.Proper ⟨"(", ")"⟩ := ⟨by decide, by decide⟩
  have honce : splice? "<\n)\n>\n\t(\n< old\n)\n" ⟨"<", ">"⟩ "a\nb" =
      some "<\na\nb\n>\n\t(\n< old\n)\n" := by decide
  have hother : splice? "<\n)\n>\n\t(\n< old\n)\n" ⟨"(", ")"⟩ "" =
      some "<\n)\n>\n\t(\n)\n" := by decide
  have hapart : Apart ⟨"<", ">"⟩ ⟨"(", ")"⟩ "<\n)\n>\n\t(\n< old\n)\n" := by decide
  have hfirst : FreeOf ⟨"<", ">"⟩ ⟨"(", ")"⟩ "a\nb" := by decide
  have hsecond : FreeOf ⟨"<", ">"⟩ ⟨"(", ")"⟩ "" := by decide
  obtain ⟨new, hnew, hnew', _⟩ := splice?_comm hm hp honce hother hapart hfirst hsecond
  refine ⟨hm, hp, honce, hother, hapart, hfirst, hsecond, new, hnew, hnew', ?_⟩
  have heval : splice? "<\n)\n>\n\t(\n)\n" ⟨"<", ">"⟩ "a\nb" =
      some "<\na\nb\n>\n\t(\n)\n" := by decide
  exact Option.some.inj (hnew'.symm.trans heval)

end Sm83Codegen
