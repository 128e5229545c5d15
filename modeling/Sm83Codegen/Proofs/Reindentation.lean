import Mathlib.Data.List.Forall2
import Sm83Codegen.Proofs.Splicing
import Sm83Codegen.Proofs.Trimming

/-!
# Re-indenting a block

A block is moved by cutting the margin that its lines share, measured in bytes, from each of them.
If the cut falls between two characters the line keeps all but the margin; if it falls inside one,
the whole line is lost.

* `dropBytes_append`, `dropBytes_inside` -- a cut between two characters, and one inside one;
* `Splits` -- a line as its margin, its text and white space behind; `Moved` -- what becomes of it;
* `BlockBody` -- the lines of a block from the first to the last that is not blank, and the least of
  their margins; `exists_outdented` -- what is left of these lines;
* `outdentedLines_textOf` -- a block that has been moved, moved again;
* `reindented_moves` -- what becomes of a block, once and twice; `reindented_loses` -- a line that
  is lost.
-/

namespace Sm83Codegen.Text

/-! ## 1. Cutting bytes -/

theorem byteLength_cons (c : Char) (cs : List Char) :
    byteLength (c :: cs) = c.utf8Size + byteLength cs := rfl

theorem byteLength_append (bs cs : List Char) :
    byteLength (bs ++ cs) = byteLength bs + byteLength cs := by
  induction bs with
  | nil => exact (Nat.zero_add _).symm
  | cons b bs ih =>
    rw [List.cons_append, byteLength_cons, byteLength_cons, ih, Nat.add_assoc]

theorem byteLength_eq_zero {cs : List Char} : byteLength cs = 0 ↔ cs = [] := by
  cases cs with
  | nil => simp [byteLength]
  | cons c cs =>
    have hpos := c.utf8Size_pos
    rw [byteLength_cons]
    exact iff_of_false (by omega) (List.cons_ne_nil c cs)

theorem byteLength_spaces (n : Nat) : byteLength (List.replicate n ' ') = n := by
  induction n with
  | zero => rfl
  | succ n ih =>
    rw [List.replicate_succ, byteLength_cons, ih]
    exact Nat.add_comm 1 n

theorem dropBytes_zero (cs : List Char) : dropBytes 0 cs = cs := by
  cases cs <;> rfl

/-- The cut falls behind some characters. -/
theorem dropBytes_append (cut rest : List Char) :
    dropBytes (byteLength cut) (cut ++ rest) = rest := by
  induction cut with
  | nil => exact dropBytes_zero rest
  | cons c cut ih =>
    have hpos := c.utf8Size_pos
    rw [byteLength_cons, List.cons_append, dropBytes, if_neg (by omega), if_pos (by omega),
      Nat.add_sub_cancel_left, ih]

/-- The cut falls inside a character. -/
theorem dropBytes_inside {w : Nat} {margin : List Char}
    (h : ∀ cut rest, margin = cut ++ rest → byteLength cut ≠ w) (hw : w ≤ byteLength margin)
    (text : List Char) : dropBytes w (margin ++ text) = [] := by
  induction margin generalizing w with
  | nil => exact absurd (Nat.le_zero.mp hw).symm (h [] [] rfl)
  | cons c margin ih =>
    have hzero : w ≠ 0 := (h [] (c :: margin) rfl).symm
    rw [List.cons_append, dropBytes, if_neg hzero]
    by_cases hsize : c.utf8Size ≤ w
    · rw [byteLength_cons] at hw
      rw [if_pos hsize]
      refine ih (fun cut rest hmargin hcut => ?_) (by omega)
      refine h (c :: cut) rest (by rw [hmargin]; rfl) ?_
      rw [byteLength_cons]
      omega
    · exact if_neg hsize

/-! ## 2. Lines -/

/-- A line that is not blank: its margin, its text, and white space behind it. -/
structure Splits (line margin text : List Char) : Prop where
  whole : ∃ es, line = margin ++ text ++ es ∧ Blanks es
  blanks : Blanks margin
  nonempty : text ≠ []
  head : ∀ c ∈ text.head?, isBlank c = false
  last : ∀ c ∈ text.getLast?, isBlank c = false

/-- What becomes of a line when the block is moved to an indentation and `w` bytes are cut. -/
inductive Moved (indent w : Nat) : List Char → String → Prop
  /-- A blank line becomes an empty one. -/
  | blank {line : List Char} : Blanks line → Moved indent w line ""
  /-- The rest of the margin stays, and the text. -/
  | kept {line cut rest text : List Char} : Splits line (cut ++ rest) text → byteLength cut = w →
      Moved indent w line (spaces indent ++ String.ofList (rest ++ text))
  /-- A line whose margin cannot be cut there is lost. -/
  | lost {line margin text : List Char} : Splits line margin text →
      (∀ cut rest, margin = cut ++ rest → byteLength cut ≠ w) → Moved indent w line ""

theorem exists_splits {line : List Char} (h : ¬Blanks line) :
    ∃ margin text, Splits line margin text := by
  obtain ⟨bs, es, hline, hbs, hes⟩ := exists_stripped isBlank line
  refine ⟨bs, stripped isBlank line, ⟨es, hline, hes⟩, hbs, fun hnil => h ?_,
    eq_false_of_head?_stripped, eq_false_of_getLast?_stripped⟩
  rw [hline, hnil, List.append_nil]
  exact fun c hc => (List.mem_append.mp hc).elim (hbs c) (hes c)

theorem takeWhile_of_head {text : List Char} (h : ∀ c ∈ text.head?, isBlank c = false) :
    text.takeWhile isBlank = [] := by
  cases text with
  | nil => rfl
  | cons c text => exact List.takeWhile_cons_of_neg (by simp [h c rfl])

theorem marginOf_of_head {text : List Char} (h : ∀ c ∈ text.head?, isBlank c = false) :
    marginOf text = 0 := by
  rw [marginOf, takeWhile_of_head h]
  rfl

namespace Splits

variable {line margin text : List Char}

theorem last_of_both (h : Splits line margin text) :
    ∀ c ∈ (margin ++ text).getLast?, isBlank c = false := by
  rw [List.getLast?_append_of_ne_nil _ h.nonempty]
  exact h.last

theorem trimEnd (h : Splits line margin text) : trimEnd line = margin ++ text := by
  obtain ⟨es, rfl, hes⟩ := h.whole
  exact trimEnd_append hes h.last_of_both

theorem not_blanks (h : Splits line margin text) : ¬Blanks line := by
  rw [← trimEnd_eq_nil, h.trimEnd, List.append_eq_nil_iff]
  exact fun hnil => h.nonempty hnil.2

/-- The margin is what the bytes are counted of. -/
theorem marginOf (h : Splits line margin text) : marginOf (margin ++ text) = byteLength margin := by
  unfold Text.marginOf
  rw [List.takeWhile_append_of_pos h.blanks, takeWhile_of_head h.head, List.append_nil]

/-- The length of the margin is that of the line. -/
theorem byteLength_eq {margin' text' : List Char} (h : Splits line margin text)
    (h' : Splits line margin' text') : byteLength margin = byteLength margin' := by
  rw [← h.marginOf, ← h'.marginOf, ← h.trimEnd, h'.trimEnd]

end Splits

/-- What is left of a line once its margin is cut. -/
inductive Outdents (w : Nat) : List Char → List Char → Prop
  | blank {line : List Char} : Blanks line → Outdents w line []
  | kept {line cut rest text : List Char} : Splits line (cut ++ rest) text → byteLength cut = w →
      Outdents w line (rest ++ text)
  | lost {line margin text : List Char} : Splits line margin text →
      (∀ cut rest, margin = cut ++ rest → byteLength cut ≠ w) → Outdents w line []

/-- A cut that leaves every margin its start. -/
theorem outdents_dropBytes {w : Nat} {line : List Char}
    (hw : ∀ margin text, Splits line margin text → w ≤ byteLength margin) :
    Outdents w line (dropBytes w (trimEnd line)) := by
  by_cases hblanks : Blanks line
  · rw [trimEnd_eq_nil.mpr hblanks]
    exact .blank hblanks
  · obtain ⟨margin, text, hsplits⟩ := exists_splits hblanks
    rw [hsplits.trimEnd]
    by_cases hcut : ∃ cut rest, margin = cut ++ rest ∧ byteLength cut = w
    · obtain ⟨cut, rest, rfl, rfl⟩ := hcut
      rw [List.append_assoc, dropBytes_append]
      exact .kept hsplits rfl
    · have hinside : ∀ cut rest, margin = cut ++ rest → byteLength cut ≠ w :=
        fun cut rest hmargin hlength => hcut ⟨cut, rest, hmargin, hlength⟩
      rw [dropBytes_inside hinside (hw margin text hsplits)]
      exact .lost hsplits hinside

theorem indented_of_ne_nil {l : List Char} (h : l ≠ []) (n : Nat) :
    indented n (String.ofList l) = spaces n ++ String.ofList l := by
  refine indented_of_ne_empty (fun hempty => h ?_) n
  rw [← String.toList_ofList (l := l), hempty, String.toList_empty]

theorem Outdents.moved {w : Nat} {line l : List Char} (h : Outdents w line l) (n : Nat) :
    Moved n w line (indented n (String.ofList l)) := by
  cases h with
  | blank hblanks => exact .blank hblanks
  | kept hsplits hw =>
    rw [indented_of_ne_nil fun hnil => hsplits.nonempty (List.append_eq_nil_iff.mp hnil).2]
    exact .kept hsplits hw
  | lost hsplits hinside => exact .lost hsplits hinside

/-! ## 3. The lines of a block -/

/-- The lines of a block from the first to the last that is not blank, and the least of their
    margins. -/
structure BlockBody (block : List Char) (body : List (List Char)) (w : Nat) : Prop where
  whole : ∃ before after, splitLines block = before ++ body ++ after ∧
    (∀ line ∈ before, Blanks line) ∧ ∀ line ∈ after, Blanks line
  head : ∀ line ∈ body.head?, ¬Blanks line
  last : ∀ line ∈ body.getLast?, ¬Blanks line
  least : ∀ line ∈ body, ∀ margin text, Splits line margin text → w ≤ byteLength margin
  attained : body ≠ [] → ∃ line ∈ body, ∃ margin text, Splits line margin text ∧
    byteLength margin = w

theorem BlockBody.mem_splitLines {block line : List Char} {body : List (List Char)} {w : Nat}
    (h : BlockBody block body w) (hline : line ∈ body) : line ∈ splitLines block := by
  obtain ⟨before, after, hwhole, _, _⟩ := h.whole
  rw [hwhole]
  exact List.mem_append_left _ (List.mem_append_right _ hline)

theorem least_le {ns : List Nat} : ∀ n ∈ ns, least ns ≤ n := by
  induction ns using least.induct with
  | case1 => exact fun n hn => absurd hn List.not_mem_nil
  | case2 n => exact fun m hm => List.mem_singleton.mp hm ▸ Nat.le_refl m
  | case3 n m ns ih =>
    unfold least
    refine List.forall_mem_cons.mpr ⟨Nat.min_le_left _ _, fun k hk => ?_⟩
    exact Nat.le_trans (Nat.min_le_right _ _) (ih k hk)

theorem least_mem {ns : List Nat} (h : ns ≠ []) : least ns ∈ ns := by
  induction ns using least.induct with
  | case1 => exact absurd rfl h
  | case2 n => exact List.mem_singleton_self n
  | case3 n m ns ih =>
    unfold least
    rcases Nat.le_total n (least (m :: ns)) with hle | hle
    · rw [Nat.min_eq_left hle]
      exact List.mem_cons_self
    · rw [Nat.min_eq_right hle]
      exact List.mem_cons_of_mem n (ih (List.cons_ne_nil _ _))

theorem isEmpty_trimEnd {line : List Char} : (trimEnd line).isEmpty = true ↔ Blanks line := by
  rw [List.isEmpty_iff, trimEnd_eq_nil]

/-- The margins of lines that are not blank, when all lines have been trimmed. -/
theorem mem_margins {body : List (List Char)} {n : Nat} :
    n ∈ ((body.map trimEnd).filter (fun l => !l.isEmpty)).map marginOf ↔
      ∃ line ∈ body, ∃ margin text, Splits line margin text ∧ byteLength margin = n := by
  constructor
  · intro h
    obtain ⟨l, hl, rfl⟩ := List.mem_map.mp h
    obtain ⟨hl, hne⟩ := List.mem_filter.mp hl
    obtain ⟨line, hline, rfl⟩ := List.mem_map.mp hl
    have hblanks : ¬Blanks line := by
      rw [← isEmpty_trimEnd]
      simpa using hne
    obtain ⟨margin, text, hsplits⟩ := exists_splits hblanks
    exact ⟨line, hline, margin, text, hsplits, by rw [hsplits.trimEnd, hsplits.marginOf]⟩
  · intro h
    obtain ⟨line, hline, margin, text, hsplits, rfl⟩ := h
    refine List.mem_map.mpr ⟨trimEnd line, List.mem_filter.mpr ⟨List.mem_map_of_mem hline, ?_⟩, ?_⟩
    · have hne := hsplits.not_blanks
      rw [← isEmpty_trimEnd] at hne
      simpa using hne
    · rw [hsplits.trimEnd, hsplits.marginOf]

/-- The trimmed lines of a block are those of its body. -/
theorem exists_body (block : List Char) :
    ∃ body, BlockBody block body (sharedMargin (blockLines block)) ∧
      blockLines block = body.map trimEnd := by
  obtain ⟨bs, es, hlines, hbs, hes⟩ := exists_stripped List.isEmpty ((splitLines block).map trimEnd)
  obtain ⟨front, after, hsplit, hfront, hafter⟩ := List.map_eq_append_iff.mp hlines
  obtain ⟨before, body, rfl, hbefore, hbody⟩ := List.map_eq_append_iff.mp hfront
  have hblock : blockLines block = body.map trimEnd := hbody.symm
  have hends {l : List Char} {o : Option (List Char)} (ho : l ∈ o)
      (h : ∀ c ∈ o.map trimEnd, c.isEmpty = false) : ¬Blanks l := by
    rw [← isEmpty_trimEnd, h _ (Option.mem_map_of_mem trimEnd ho)]
    exact Bool.false_ne_true
  have hhead : ∀ l ∈ body.head?, ¬Blanks l := fun l hl => by
    refine hends hl ?_
    rw [← List.head?_map, hbody]
    exact eq_false_of_head?_stripped
  have hlast : ∀ l ∈ body.getLast?, ¬Blanks l := fun l hl => by
    refine hends hl ?_
    rw [← List.getLast?_map, hbody]
    exact eq_false_of_getLast?_stripped
  refine ⟨body, ⟨⟨before, after, hsplit, fun l hl => ?_, fun l hl => ?_⟩, hhead, hlast,
    fun l hl margin text h => ?_, fun hne => ?_⟩, hblock⟩
  · exact isEmpty_trimEnd.mp (hbs _ (hbefore ▸ List.mem_map_of_mem hl))
  · exact isEmpty_trimEnd.mp (hes _ (hafter ▸ List.mem_map_of_mem hl))
  · rw [hblock]
    exact least_le _ (mem_margins.mpr ⟨l, hl, margin, text, h, rfl⟩)
  · obtain ⟨first, rest, rfl⟩ := List.exists_cons_of_ne_nil hne
    obtain ⟨margin, text, hsplits⟩ := exists_splits (hhead first rfl)
    have hfirst : first ∈ first :: rest := List.mem_cons_self
    have hmargin := mem_margins.mpr ⟨first, hfirst, margin, text, hsplits, rfl⟩
    rw [hblock]
    exact mem_margins.mp (least_mem (List.ne_nil_of_mem hmargin))

/-! ## 4. Moving a block twice -/

/-- A line at an indentation, as characters. -/
def indentedChars (n : Nat) (l : List Char) : List Char :=
  if l.isEmpty then [] else List.replicate n ' ' ++ l

theorem indentedChars_of_ne_nil {l : List Char} (h : l ≠ []) (n : Nat) :
    indentedChars n l = List.replicate n ' ' ++ l :=
  if_neg fun hempty => h (List.isEmpty_iff.mp hempty)

theorem isEmpty_indentedChars (n : Nat) (l : List Char) :
    (indentedChars n l).isEmpty = l.isEmpty := by
  cases l with
  | nil => rfl
  | cons c l => simp [indentedChars]

theorem toList_indented (n : Nat) (l : List Char) :
    (indented n (String.ofList l)).toList = indentedChars n l := by
  cases l with
  | nil => rfl
  | cons c l =>
    have hne := List.cons_ne_nil c l
    rw [indented_of_ne_nil hne, indentedChars_of_ne_nil hne, String.toList_append, spaces,
      String.toList_ofList, String.toList_ofList]

theorem blanks_spaces (n : Nat) : Blanks (List.replicate n ' ') := fun _ hc =>
  List.eq_of_mem_replicate hc ▸ rfl

theorem trimEnd_eq_self {l : List Char} (h : ∀ c ∈ l.getLast?, isBlank c = false) :
    trimEnd l = l := by
  have hnone : Blanks [] := nofun
  have happend := trimEnd_append hnone h
  rwa [List.append_nil] at happend

/-- The second move finds no white space behind a line. -/
theorem trimEnd_indentedChars {n : Nat} {l : List Char} (h : ∀ c ∈ l.getLast?, isBlank c = false) :
    trimEnd (indentedChars n l) = indentedChars n l := by
  cases l with
  | nil => rfl
  | cons c l =>
    refine trimEnd_eq_self ?_
    rw [indentedChars_of_ne_nil (List.cons_ne_nil c l),
      List.getLast?_append_of_ne_nil _ (List.cons_ne_nil c l)]
    exact h

/-- It cuts what the first one put there. -/
theorem dropBytes_indentedChars (n : Nat) (l : List Char) :
    dropBytes n (indentedChars n l) = l := by
  cases l with
  | nil => rfl
  | cons c l =>
    have hdrop := dropBytes_append (List.replicate n ' ') (c :: l)
    rw [byteLength_spaces] at hdrop
    rw [indentedChars_of_ne_nil (List.cons_ne_nil c l), hdrop]

theorem marginOf_indentedChars {l : List Char} (h : l ≠ []) (n : Nat) :
    marginOf (indentedChars n l) = n + marginOf l := by
  unfold marginOf
  rw [indentedChars_of_ne_nil h, List.takeWhile_append_of_pos (blanks_spaces n), byteLength_append,
    byteLength_spaces]

theorem least_eq {ns : List Nat} {n : Nat} (hmem : n ∈ ns) (hle : ∀ m ∈ ns, n ≤ m) :
    least ns = n :=
  Nat.le_antisymm (least_le n hmem) (hle _ (least_mem (List.ne_nil_of_mem hmem)))

/-- Indented lines share that indentation if one of them has no other margin. -/
theorem sharedMargin_indented {ls : List (List Char)} (n : Nat)
    (h : ∃ l ∈ ls, l ≠ [] ∧ marginOf l = 0) : sharedMargin (ls.map (indentedChars n)) = n := by
  have hmem {m : Nat} : m ∈ ((ls.map (indentedChars n)).filter (fun l => !l.isEmpty)).map marginOf ↔
      ∃ l ∈ ls, l ≠ [] ∧ n + marginOf l = m := by
    constructor
    · intro hm
      obtain ⟨l', hl', rfl⟩ := List.mem_map.mp hm
      obtain ⟨hl', hne⟩ := List.mem_filter.mp hl'
      obtain ⟨l, hl, rfl⟩ := List.mem_map.mp hl'
      rw [isEmpty_indentedChars] at hne
      have hnil : l ≠ [] := by simpa using hne
      exact ⟨l, hl, hnil, (marginOf_indentedChars hnil n).symm⟩
    · intro hm
      obtain ⟨l, hl, hnil, rfl⟩ := hm
      refine List.mem_map.mpr ⟨indentedChars n l, List.mem_filter.mpr
        ⟨List.mem_map_of_mem hl, ?_⟩, marginOf_indentedChars hnil n⟩
      rw [isEmpty_indentedChars]
      simpa using hnil
  obtain ⟨l, hl, hnil, hmargin⟩ := h
  refine least_eq (hmem.mpr ⟨l, hl, hnil, by rw [hmargin, Nat.add_zero]⟩) fun m hm => ?_
  obtain ⟨l', _, _, rfl⟩ := hmem.mp hm
  exact Nat.le_add_right n _

section Twice

variable {w : Nat} {line l : List Char}

/-- What is left of a line does not end in white space. -/
theorem Outdents.last (h : Outdents w line l) : ∀ c ∈ l.getLast?, isBlank c = false := by
  cases h with
  | blank _ => exact nofun
  | kept hsplits _ =>
    rw [List.getLast?_append_of_ne_nil _ hsplits.nonempty]
    exact hsplits.last
  | lost _ _ => exact nofun

theorem Outdents.subset (h : Outdents w line l) : ∀ c ∈ l, c ∈ line := by
  cases h with
  | blank _ => exact nofun
  | kept hsplits _ =>
    obtain ⟨es, rfl, _⟩ := hsplits.whole
    intro c hc
    simp only [List.mem_append] at hc ⊢
    tauto
  | lost _ _ => exact nofun

end Twice

/-- What is left of the lines of a block, one by one. -/
theorem exists_outdented (block : List Char) : ∃ body w left, BlockBody block body w ∧
    outdentedLines block = body.map left ∧ ∀ line ∈ body, Outdents w line (left line) := by
  obtain ⟨body, hbody, hblock⟩ := exists_body block
  refine ⟨body, sharedMargin (blockLines block),
    fun line => dropBytes (sharedMargin (blockLines block)) (trimEnd line), hbody, ?_,
    fun line hline => outdents_dropBytes (hbody.least line hline)⟩
  show (blockLines block).map (dropBytes (sharedMargin (blockLines block))) = _
  generalize sharedMargin (blockLines block) = w
  rw [hblock, List.map_map]
  rfl

theorem newline_not_mem_indentedChars {n : Nat} {l : List Char} (h : '\n' ∉ l) :
    '\n' ∉ indentedChars n l := by
  cases l with
  | nil => exact h
  | cons c l =>
    rw [indentedChars_of_ne_nil (List.cons_ne_nil c l), List.mem_append, not_or]
    exact ⟨fun hspace => absurd (List.eq_of_mem_replicate hspace) (by decide), h⟩

/-- The lines of a block that has been moved. -/
theorem splitLines_reindented (n : Nat) (block : String) :
    splitLines (textOf (reindented n block)).toList =
      (outdentedLines block.toList).map (indentedChars n) ++ [[]] := by
  obtain ⟨body, w, left, hbody, houtdented, houtdents⟩ := exists_outdented block.toList
  have hfree : ∀ l ∈ reindented n block, '\n' ∉ l.toList := by
    intro l hl
    obtain ⟨o, ho, rfl⟩ := List.mem_map.mp hl
    rw [houtdented] at ho
    obtain ⟨line, hline, rfl⟩ := List.mem_map.mp ho
    rw [toList_indented]
    exact newline_not_mem_indentedChars fun hmem =>
      not_mem_line (hbody.mem_splitLines hline) ((houtdents line hline).subset _ hmem)
  rw [splitLines_textOf hfree, reindented, List.map_map]
  exact congrArg (· ++ [[]]) (List.map_congr_left fun l _ => toList_indented n l)

/-- Some line has lost all of its margin. -/
theorem exists_flush {block l : List Char} (hl : l ∈ outdentedLines block) :
    ∃ l ∈ outdentedLines block, l ≠ [] ∧ marginOf l = 0 := by
  obtain ⟨body, w, left, hbody, houtdented, houtdents⟩ := exists_outdented block
  rw [houtdented] at hl ⊢
  obtain ⟨_, hmem, _⟩ := List.mem_map.mp hl
  obtain ⟨line, hline, margin, text, hsplits, hmargin⟩ := hbody.attained (List.ne_nil_of_mem hmem)
  have hline' := houtdents line hline
  refine ⟨left line, List.mem_map_of_mem hline, ?_⟩
  generalize left line = o at hline'
  cases hline' with
  | blank hblanks => exact absurd hblanks hsplits.not_blanks
  | @kept cut rest text' hsplits' hcut =>
    have hlength := hsplits'.byteLength_eq hsplits
    rw [byteLength_append, hcut, hmargin] at hlength
    have hrest : rest = [] := byteLength_eq_zero.mp (by omega)
    rw [hrest, List.nil_append]
    exact ⟨hsplits'.nonempty, marginOf_of_head hsplits'.head⟩
  | @lost margin' text' hsplits' hinside =>
    refine absurd ?_ (hinside margin' [] (List.append_nil margin').symm)
    rw [hsplits'.byteLength_eq hsplits, hmargin]

/-- A block that is moved twice: the empty lines at the ends of what the first move gives go. -/
theorem outdentedLines_textOf (n : Nat) (block : String) :
    outdentedLines (textOf (reindented n block)).toList =
      withoutBlankEnds (outdentedLines block.toList) := by
  have hlast : ∀ l ∈ outdentedLines block.toList, ∀ c ∈ l.getLast?, isBlank c = false := by
    obtain ⟨body, w, left, _, houtdented, houtdents⟩ := exists_outdented block.toList
    rw [houtdented]
    intro l hl
    obtain ⟨line, hline, rfl⟩ := List.mem_map.mp hl
    exact (houtdents line hline).last
  have htrimmed : ((outdentedLines block.toList).map (indentedChars n) ++ [[]]).map trimEnd =
      (outdentedLines block.toList).map (indentedChars n) ++ [[]] := by
    rw [List.map_append, List.map_map]
    exact congrArg (· ++ [[]]) (List.map_congr_left fun l hl => trimEnd_indentedChars (hlast l hl))
  have hempty : ∀ l ∈ [([] : List Char)], l.isEmpty = true := by simp
  have hblock : blockLines (textOf (reindented n block)).toList =
      (withoutBlankEnds (outdentedLines block.toList)).map (indentedChars n) := by
    unfold blockLines
    rw [splitLines_reindented, htrimmed]
    exact (stripped_append hempty).trans (stripped_map (isEmpty_indentedChars n) _)
  show (blockLines _).map (dropBytes (sharedMargin (blockLines _))) = _
  rw [hblock]
  by_cases hnone : withoutBlankEnds (outdentedLines block.toList) = []
  · rw [hnone]
    rfl
  · obtain ⟨l, hl⟩ := List.exists_mem_of_ne_nil _ hnone
    obtain ⟨o, ho, hne, hflush⟩ := exists_flush (mem_of_mem_stripped hl)
    have ho' : o ∈ withoutBlankEnds (outdentedLines block.toList) :=
      mem_stripped ho (by simpa using hne)
    rw [sharedMargin_indented n ⟨o, ho', hne, hflush⟩, List.map_map]
    exact (List.map_congr_left fun l _ => dropBytes_indentedChars n l).trans (List.map_id _)

/-! ## 5. What becomes of a block -/

/-- A line whose margin can be cut behind `w` bytes, if it has a text. -/
def Keeps (w : Nat) (line : List Char) : Prop :=
  ∀ margin text, Splits line margin text → ∃ cut rest, margin = cut ++ rest ∧ byteLength cut = w

/-- Such a line is not lost. -/
theorem Outdents.ne_nil {w : Nat} {line l : List Char} (h : Outdents w line l)
    (hblanks : ¬Blanks line) (hkeeps : Keeps w line) : l ≠ [] := by
  cases h with
  | blank h => exact absurd h hblanks
  | kept hsplits _ => exact fun hnil => hsplits.nonempty (List.append_eq_nil_iff.mp hnil).2
  | lost hsplits hinside =>
    obtain ⟨cut, rest, hmargin, hcut⟩ := hkeeps _ _ hsplits
    exact absurd hcut (hinside cut rest hmargin)

theorem byteLength_narrow {cs : List Char} (h : ∀ c ∈ cs, c.utf8Size = 1) :
    byteLength cs = cs.length := by
  induction cs with
  | nil => rfl
  | cons c cs ih =>
    rw [List.forall_mem_cons] at h
    rw [byteLength_cons, h.1, ih h.2, List.length_cons, Nat.add_comm]

/-- A margin of characters of one byte can be cut anywhere. -/
theorem keeps_of_narrow {w : Nat} {line : List Char}
    (hw : ∀ margin text, Splits line margin text → w ≤ byteLength margin)
    (h : ∀ c ∈ line, isBlank c = true → c.utf8Size = 1) : Keeps w line := by
  intro margin text hsplits
  obtain ⟨es, hline, _⟩ := hsplits.whole
  have hnarrow : ∀ c ∈ margin, c.utf8Size = 1 := by
    refine fun c hc => h c ?_ (hsplits.blanks c hc)
    rw [hline, List.append_assoc]
    exact List.mem_append_left _ hc
  have hlength := hw margin text hsplits
  rw [byteLength_narrow hnarrow] at hlength
  refine ⟨margin.take w, margin.drop w, (List.take_append_drop w margin).symm, ?_⟩
  rw [byteLength_narrow fun c hc => hnarrow c (List.mem_of_mem_take hc), List.length_take]
  omega

theorem map_indented_empty {bs : List (List Char)} (hbs : ∀ b ∈ bs, b.isEmpty = true) (m : Nat) :
    bs.map (fun l => indented m (String.ofList l)) = List.replicate bs.length "" := by
  refine List.eq_replicate_iff.mpr ⟨List.length_map _, fun s hs => ?_⟩
  obtain ⟨b, hb, rfl⟩ := List.mem_map.mp hs
  rw [List.isEmpty_iff.mp (hbs b hb)]
  rfl

/-- **What becomes of a block at an indentation.** Its lines are moved one by one, from the first to
    the last that is not blank. Moving the result gives what moving the block gives, without the
    empty lines at its ends; there are none if the first and the last line can be cut. All lines can
    be cut if the white space of the block is of characters of one byte. -/
theorem reindented_moves (block : String) : ∃ body w, BlockBody block.toList body w ∧
    (∀ n, List.Forall₂ (Moved n w) body (reindented n block) ∧
      ∀ m, ∃ i j, reindented m block = List.replicate i "" ++
          reindented m (textOf (reindented n block)) ++ List.replicate j "" ∧
        ((∀ line ∈ body.head?, Keeps w line) → i = 0) ∧
        ((∀ line ∈ body.getLast?, Keeps w line) → j = 0)) ∧
      ((∀ c ∈ block.toList, isBlank c = true → c.utf8Size = 1) →
        ∀ line ∈ body, Keeps w line) := by
  obtain ⟨body, w, left, hbody, houtdented, houtdents⟩ := exists_outdented block.toList
  obtain ⟨bs, es, hends, hbs, hes⟩ := exists_stripped List.isEmpty (outdentedLines block.toList)
  -- an end of the block that can be cut is not empty
  have hkept {o : Option (List Char)} {line : List Char} (hline : line ∈ body) (ho : line ∈ o)
      (hblanks : ∀ l ∈ o, ¬Blanks l) (hkeeps : ∀ l ∈ o, Keeps w l) :
      (left line).isEmpty = false := by
    have hne := (houtdents line hline).ne_nil (hblanks line ho) (hkeeps line ho)
    simpa using hne
  refine ⟨body, w, hbody, fun n => ⟨?_, fun m => ⟨bs.length, es.length, ?_, fun hkeeps => ?_,
    fun hkeeps => ?_⟩⟩, fun hnarrow line hline => ?_⟩
  · unfold reindented
    rw [houtdented, List.map_map, List.forall₂_map_right_iff, List.forall₂_same]
    exact fun line hline => (houtdents line hline).moved n
  · have htwice : reindented m (textOf (reindented n block)) =
        (withoutBlankEnds (outdentedLines block.toList)).map
          (fun l => indented m (String.ofList l)) := by
      rw [← outdentedLines_textOf n block]
      rfl
    rw [htwice, ← map_indented_empty hbs, ← map_indented_empty hes, ← List.map_append,
      ← List.map_append]
    exact congrArg _ hends
  · cases bs with
    | nil => rfl
    | cons b bs =>
      rw [houtdented] at hends
      obtain ⟨line, rest, rfl, hline, _⟩ := List.map_eq_cons_iff.mp hends
      have hfalse := hkept List.mem_cons_self rfl hbody.head hkeeps
      rw [hline, hbs b List.mem_cons_self] at hfalse
      cases hfalse
  · rcases List.eq_nil_or_concat es with rfl | ⟨es, e, rfl⟩
    · rfl
    · rw [houtdented, List.concat_eq_append, ← List.append_assoc] at hends
      obtain ⟨front, last, rfl, _, hlast⟩ := List.map_eq_append_iff.mp hends
      obtain ⟨line, rfl, hline⟩ := List.map_eq_singleton_iff.mp hlast
      have hmem : line ∈ front ++ [line] := List.mem_append_right _ (List.mem_singleton_self line)
      have hfalse := hkept hmem List.getLast?_concat hbody.last hkeeps
      rw [hline, hes e (by simp)] at hfalse
      cases hfalse
  · refine keeps_of_narrow (hbody.least line hline) fun c hc => hnarrow c ?_
    exact (of_mem_pieces (hbody.mem_splitLines hline) hc).1

/-- A block with a blank line and a line behind it that is indented further. -/
def steppedBlock : String := "\n  let a = 1;\n\n    let b = a;\n"

/-- It loses nothing, and it is moved twice as it is moved once. -/
theorem reindented_moves_stepped : ∃ body w, BlockBody steppedBlock.toList body w ∧
    List.Forall₂ (Moved 8 w) body ["        let a = 1;", "", "          let b = a;"] ∧
    reindented 4 (textOf (reindented 8 steppedBlock)) = reindented 4 steppedBlock := by
  obtain ⟨body, w, hbody, hmoves, hkeeps⟩ := reindented_moves steppedBlock
  have hmoved : reindented 8 steppedBlock = ["        let a = 1;", "", "          let b = a;"] := by
    decide
  have hnarrow : ∀ c ∈ steppedBlock.toList, isBlank c = true → c.utf8Size = 1 := by
    have hall : steppedBlock.toList.all (fun c => c.utf8Size == 1) = true := by decide
    exact fun c hc _ => beq_iff_eq.mp (List.all_eq_true.mp hall c hc)
  have hkept := hkeeps hnarrow
  obtain ⟨i, j, htwice, hfirst, hlast⟩ := (hmoves 8).2 4
  cases hfirst fun line hline => hkept line (List.mem_of_mem_head? hline)
  cases hlast fun line hline => hkept line (List.mem_of_mem_getLast? hline)
  rw [List.replicate_zero, List.nil_append, List.append_nil] at htwice
  exact ⟨body, w, hbody, hmoved ▸ (hmoves 8).1, htwice.symm⟩

/-- A block with lines of the same margin in characters, but not in bytes. -/
def wideBlock : String := " let a = 1;\n\u3000let b = 2;"

/-- Its second line is lost, and with it the second line of what is moved twice. -/
theorem reindented_loses :
    splitLines wideBlock.toList = [" let a = 1;".toList, "\u3000let b = 2;".toList] ∧
      Splits "\u3000let b = 2;".toList ['\u3000'] "let b = 2;".toList ∧
      reindented 8 wideBlock = ["        let a = 1;", ""] ∧
      reindented 4 (textOf (reindented 8 wideBlock)) ≠ reindented 4 wideBlock := by
  have hsplits : Splits "\u3000let b = 2;".toList ['\u3000'] "let b = 2;".toList := {
    whole := ⟨[], by decide, nofun⟩
    blanks := List.forall_mem_singleton.mpr rfl
    nonempty := by decide
    head := fun c hc => Option.some.inj hc ▸ rfl
    last := fun c hc => Option.some.inj hc ▸ rfl
  }
  exact ⟨by decide, hsplits, by decide, by decide⟩

end Sm83Codegen.Text
