import Sm83Codegen.Proofs.Splicing

/-!
# The region that a splice replaces

A splice cuts a text behind its first line with the opening marker and before the first line below
that has the closing one. What stands between is replaced, the rest stays to the letter, and the new
text is cut at the same two places.

* `IsRegion` -- a text in three parts, the middle one being its region;
* `IsRegion.exists_cut`, `Cut.exists_region` -- the same by lines;
* `Opens` -- a line that opens a region has one below it that closes one; `exists_cut_iff` -- that
  is all that a region needs;
* `splice?_region` -- what a splice makes of a text, what a second one makes of that, and when there
  is none.
-/

namespace Sm83Codegen

open Text Splice

namespace Splice

/-! ## 1. A text in three parts -/

/-- A text in three parts. The first one ends with the first line that opens a region; the second
    one has no line that closes one; and the third one starts with a line that does. -/
structure IsRegion (m : MarkerPair) (text before region after : String) : Prop where
  whole : text = before ++ region ++ after
  before : ∃ above line, splitLines before.toList = above ++ [line, []] ∧
    (∀ l ∈ above, ¬Marked m.opening.toList l) ∧ Marked m.opening.toList line
  region : ∃ inside, splitLines region.toList = inside ++ [[]] ∧
    ∀ l ∈ inside, ¬Marked m.closing.toList l
  after : ∃ line below, splitLines after.toList = line :: below ∧ Marked m.closing.toList line

/-- The line feed that a content lacks at its end. -/
def missingEnd (content : String) : String :=
  if content.toList.getLast?.all (· == '\n') then "" else "\n"

theorem closed_toList (content : String) :
    closed content.toList = (content ++ missingEnd content).toList := by
  unfold closed missingEnd
  cases hlast : content.toList.getLast? with
  | none => simp [List.getLast?_eq_none_iff.mp hlast]
  | some c => by_cases hc : c = '\n' <;> simp [hc]

/-- Lines that all end with a line feed stay what they are above another text. -/
theorem splitLines_append_of_ended {cs : List Char} {lines : List (List Char)}
    (h : splitLines cs = lines ++ [[]]) (rest : List Char) :
    splitLines (cs ++ rest) = lines ++ splitLines rest := by
  have hnil : splitLines cs = lines ++ splitLines [] := h
  obtain ⟨hcs, hlines⟩ := eq_terminated hnil
  rw [List.append_nil] at hcs
  rw [hcs, hlines]

/-- A text above some of its lines, and what it is below them. -/
theorem exists_ended {text : String} {lines below : List (List Char)}
    (h : splitLines text.toList = lines ++ below) (hbelow : below ≠ []) :
    ∃ top rest : String, text = top ++ rest ∧ splitLines top.toList = lines ++ [[]] ∧
      splitLines rest.toList = below := by
  obtain ⟨rest, hrest⟩ := exists_below h hbelow
  rw [← hrest] at h
  obtain ⟨htext, hlines⟩ := eq_terminated h
  refine ⟨String.ofList (terminated lines), String.ofList rest, ?_, ?_, ?_⟩
  · rw [← String.ofList_append, ← htext, String.ofList_toList]
  · have hnil := hlines []
    rw [List.append_nil] at hnil
    rw [String.toList_ofList, hnil]
    rfl
  · rw [String.toList_ofList, hrest]

variable {m : MarkerPair} {text before region after : String}

/-- A text in three parts is cut between them. -/
theorem IsRegion.exists_cut (h : IsRegion m text before region after) :
    ∃ k : Cut, k.IsOf m ∧ splitLines before.toList = k.above ++ [k.opening, []] ∧
      splitLines after.toList = k.closing :: k.below ∧ splitLines text.toList = k.lines := by
  obtain ⟨above, opening, hbefore, habove, hopening⟩ := h.before
  obtain ⟨inside, hregion, hinside⟩ := h.region
  obtain ⟨closing, below, hafter, hclosing⟩ := h.after
  refine ⟨⟨above, opening, inside, closing, below⟩, ⟨habove, hopening, hinside, hclosing⟩,
    hbefore, hafter, ?_⟩
  have hended : splitLines before.toList = (above ++ [opening]) ++ [[]] := by
    rw [hbefore, List.append_assoc]
    rfl
  rw [h.whole, String.append_assoc, String.toList_append, String.toList_append,
    splitLines_append_of_ended hended, splitLines_append_of_ended hregion, hafter,
    List.append_assoc]
  rfl

/-- A text that is cut has the three parts. -/
theorem Cut.exists_region {k : Cut} (hk : k.IsOf m) (h : splitLines text.toList = k.lines) :
    ∃ before region after, IsRegion m text before region after ∧
      splitLines before.toList = k.above ++ [k.opening, []] ∧
      splitLines after.toList = k.closing :: k.below := by
  have hsplit : splitLines text.toList =
      (k.above ++ [k.opening]) ++ (k.inside ++ k.closing :: k.below) := by
    rw [h, List.append_assoc]
    rfl
  obtain ⟨before, rest, htext, hbefore, hrest⟩ := exists_ended hsplit
    (List.append_ne_nil_of_right_ne_nil _ (List.cons_ne_nil _ _))
  obtain ⟨region, after, hcut, hregion, hafter⟩ := exists_ended hrest (List.cons_ne_nil _ _)
  rw [List.append_assoc] at hbefore
  refine ⟨before, region, after, ⟨?_, ⟨_, _, hbefore, hk.above, hk.opening⟩,
    ⟨_, hregion, hk.inside⟩, ⟨_, _, hafter, hk.closing⟩⟩, hbefore, hafter⟩
  rw [htext, hcut, String.append_assoc]

/-! ## 2. Texts that have a region -/

/-- A line that ends with a line feed opens a region, and one below it closes one. -/
def Opens (m : MarkerPair) (text : String) : Prop :=
  ∃ above opening inside closing below,
    splitLines text.toList = above ++ opening :: (inside ++ closing :: below) ∧
      Marked m.opening.toList opening ∧ Marked m.closing.toList closing

theorem exists_fromMarked {marker : List Char} {lines : List (List Char)} {line : List Char}
    (hline : line ∈ lines) (h : Marked marker line) :
    ∃ first below, fromMarked marker lines = first :: below := by
  refine List.exists_cons_of_ne_nil fun hnil => ?_
  have hwhole := List.takeWhile_append_dropWhile (p := fun l => !decide (Marked marker l)) (l := lines)
  rw [show List.dropWhile _ lines = [] from hnil, List.append_nil] at hwhole
  rw [← hwhole] at hline
  have hall := List.all_eq_true.mp List.all_takeWhile line hline
  simp [h] at hall

/-- Below the first marked line stands what is below any marked line. -/
theorem mem_below_first {marker line first : List Char} {above below rest : List (List Char)}
    (h : Marked marker line)
    (hfirst : fromMarked marker (above ++ line :: below) = first :: rest) :
    ∀ l ∈ below, l ∈ rest := by
  induction above with
  | nil =>
    have hhere : fromMarked marker (line :: below) = line :: below :=
      fromMarked_eq_cons.mpr ⟨[], rfl, fun _ hl => absurd hl List.not_mem_nil, h⟩
    obtain ⟨_, rfl⟩ := List.cons.inj (hhere.symm.trans hfirst)
    exact fun l hl => hl
  | cons l above ih =>
    unfold fromMarked at hfirst
    rw [List.cons_append, List.dropWhile_cons] at hfirst
    split at hfirst
    · exact ih hfirst
    · obtain ⟨_, rfl⟩ := List.cons.inj hfirst
      exact fun l hl => List.mem_append_right above (List.mem_cons_of_mem line hl)

/-- **A text has a region if a line opens one and a line below it closes one.** -/
theorem exists_cut_iff : (∃ k : Cut, k.IsOf m ∧ splitLines text.toList = k.lines) ↔ Opens m text := by
  constructor
  · intro h
    obtain ⟨k, hk, hlines⟩ := h
    exact ⟨k.above, k.opening, k.inside, k.closing, k.below, hlines, hk.opening, hk.closing⟩
  · intro h
    obtain ⟨above, opening, inside, closing, below, hlines, hopening, hclosing⟩ := h
    have hmem : opening ∈ above ++ opening :: (inside ++ closing :: below) :=
      List.mem_append_right above List.mem_cons_self
    obtain ⟨first, rest, hfirst⟩ := exists_fromMarked hmem hopening
    have hrest : closing ∈ rest := mem_below_first hopening hfirst closing
      (List.mem_append_right inside List.mem_cons_self)
    obtain ⟨last, under, hlast⟩ := exists_fromMarked hrest hclosing
    obtain ⟨top, htop, hunmarked, hmarked⟩ := fromMarked_eq_cons.mp hfirst
    obtain ⟨between, hbetween, hunclosed, hclosed⟩ := fromMarked_eq_cons.mp hlast
    refine ⟨⟨top, first, between, last, under⟩, ⟨hunmarked, hmarked, hunclosed, hclosed⟩, ?_⟩
    rw [hlines, htop, hbetween]
    rfl

/-! ## 3. What a splice replaces -/

/-- A splice replaces the region, and nothing else. -/
theorem splice?_eq_some_iff (hm : m.Proper) {content new : String} :
    splice? text m content = some new ↔ ∃ before region after,
      IsRegion m text before region after ∧
        new = before ++ content ++ missingEnd content ++ after := by
  have hnew {before after : String} {k : Cut}
      (hbefore : splitLines before.toList = k.above ++ [k.opening, []])
      (hafter : splitLines after.toList = k.closing :: k.below) :
      splitLines (before ++ content ++ missingEnd content ++ after).toList =
        (k.fill (contentLines content.toList)).lines := by
    have hended : splitLines before.toList = (k.above ++ [k.opening]) ++ [[]] := by
      rw [hbefore, List.append_assoc]
      rfl
    rw [String.toList_append, String.append_assoc, String.toList_append, ← closed_toList,
      List.append_assoc, splitLines_append_of_ended hended, splitLines_closed_append, hafter,
      List.append_assoc]
    rfl
  rw [splice?_eq_some hm]
  constructor
  · intro h
    obtain ⟨k, hk, hlines, hfill⟩ := h
    obtain ⟨before, region, after, hregion, hbefore, hafter⟩ := Cut.exists_region hk hlines
    refine ⟨before, region, after, hregion, String.toList_injective ?_⟩
    exact splitLines_injective (hfill.trans (hnew hbefore hafter).symm)
  · intro h
    obtain ⟨before, region, after, hregion, rfl⟩ := h
    obtain ⟨k, hk, hbefore, hafter, hlines⟩ := hregion.exists_cut
    exact ⟨k, hk, hlines, hnew hbefore hafter⟩

/-- A text that is cut takes any content. -/
theorem splice?_of_cut (hm : m.Proper) {k : Cut} (hk : k.IsOf m)
    (hlines : splitLines text.toList = k.lines) (content : String) :
    ∃ new, splice? text m content = some new ∧
      splitLines new.toList = (k.fill (contentLines content.toList)).lines := by
  obtain ⟨cs, hcs, hfill⟩ := replace?_cut hm content.toList hk hlines
  refine ⟨String.ofList cs, ?_, ?_⟩
  · rw [splice?, hcs]
    rfl
  · rw [String.toList_ofList, hfill]

/-- There is no splice where there is no region. -/
theorem splice?_eq_none (hm : m.Proper) {content : String} :
    splice? text m content = none ↔ ¬Opens m text := by
  rw [← exists_cut_iff]
  constructor
  · intro h hcut
    obtain ⟨k, hk, hlines⟩ := hcut
    obtain ⟨new, hnew, _⟩ := splice?_of_cut hm hk hlines content
    cases h.symm.trans hnew
  · intro h
    refine Option.eq_none_iff_forall_ne_some.mpr fun new hnew => h ?_
    obtain ⟨k, hk, hlines, _⟩ := (splice?_eq_some hm).mp hnew
    exact ⟨k, hk, hlines⟩

/-- A content that closes no region leaves the cut where it was. -/
theorem splice?_over (hm : m.Proper) {first new : String}
    (hfirst : ∀ l ∈ splitLines first.toList, ¬Marked m.closing.toList l)
    (h : splice? text m first = some new) (second : String) :
    splice? new m second = splice? text m second := by
  obtain ⟨k, hk, hlines, hfill⟩ := (splice?_eq_some hm).mp h
  have hkept : (k.fill (contentLines first.toList)).IsOf m :=
    ⟨hk.above, hk.opening, fun l hl => hfirst l (mem_contentLines hl), hk.closing⟩
  obtain ⟨above, habove, haboveLines⟩ := splice?_of_cut hm hkept hfill second
  obtain ⟨direct, hdirect, hdirectLines⟩ := splice?_of_cut hm hk hlines second
  -- both fill the same cut with the second content
  have hsame : above = direct :=
    String.toList_injective (splitLines_injective (haboveLines.trans hdirectLines.symm))
  rw [habove, hdirect, hsame]

end Splice

/-- **A splice replaces the region of its markers, and the last one counts.** It leaves what is
    before and behind the region to the letter. After a content that closes no region, a second
    content makes of the text what it makes without the first. There is no splice just where no line
    with the closing marker stands below a line with the opening one. -/
theorem splice?_region {m : MarkerPair} (hm : m.Proper) (text first : String) :
    (∀ new, splice? text m first = some new ↔ ∃ before region after,
      IsRegion m text before region after ∧
        new = before ++ first ++ missingEnd first ++ after) ∧
    ((∀ l ∈ splitLines first.toList, ¬Marked m.closing.toList l) → ∀ second,
      (splice? text m first).bind (fun new => splice? new m second) = splice? text m second) ∧
    (splice? text m first = none ↔ ¬Opens m text) := by
  refine ⟨fun new => splice?_eq_some_iff hm, fun hfirst second => ?_, splice?_eq_none hm⟩
  cases h : splice? text m first with
  | none => exact ((splice?_eq_none hm).mpr ((splice?_eq_none hm).mp h)).symm
  | some new => exact splice?_over hm hfirst h second

/-- A text with two closing lines, and a content that opens a region but closes none. -/
theorem splice?_region_twoClosings :
    MarkerPair.Proper ⟨"<", ">"⟩ ∧
    (∀ l ∈ splitLines "< a".toList, ¬Marked ">".toList l) ∧
    splice? "x\n\t< one\nold\n  > end\n>\n" ⟨"<", ">"⟩ "< a" =
      some "x\n\t< one\n< a\n  > end\n>\n" ∧
    (splice? "x\n\t< one\nold\n  > end\n>\n" ⟨"<", ">"⟩ "< a").bind
        (fun new => splice? new ⟨"<", ">"⟩ "") =
      some "x\n\t< one\n  > end\n>\n" := by
  have hm : MarkerPair.Proper ⟨"<", ">"⟩ := ⟨by decide, by decide⟩
  have hfirst : ∀ l ∈ splitLines "< a".toList, ¬Marked ">".toList l := by decide
  obtain ⟨_, hlast, _⟩ := splice?_region hm "x\n\t< one\nold\n  > end\n>\n" "< a"
  refine ⟨hm, hfirst, by decide, ?_⟩
  rw [hlast hfirst ""]
  decide

end Sm83Codegen
