import Mathlib.Data.List.TakeWhile
import Sm83Codegen.Text.Blank

/-!
# White space around a text

Trimming takes the longest runs of white space from the ends of a text, and nothing else. The same
is done with the empty lines of a block, so the lemmas are about any property of any elements.

* `stripped` -- a list without the runs at its ends; `exists_stripped`, `stripped_around`;
* `Blanks` -- white space and nothing else; `exists_trimEnd`, `trimEnd_eq_nil`;
* `trim_around` -- a text with white space around it.
-/

namespace Sm83Codegen.Text

/-! ## 1. The ends of a list -/

section Ends

variable {α : Type} {p : α → Bool}

theorem eq_false_of_head?_dropWhile {cs : List α} : ∀ c ∈ (cs.dropWhile p).head?, p c = false := by
  intro c hc
  rw [← List.find?_not_eq_head?_dropWhile] at hc
  simpa using List.find?_some hc

theorem dropWhile_eq_self {cs : List α} (h : ∀ c ∈ cs.head?, p c = false) :
    cs.dropWhile p = cs := by
  cases cs with
  | nil => rfl
  | cons c cs => exact List.dropWhile_cons_of_neg (by simp [h c rfl])

/-- A list without the longest runs of elements with a property at its ends. -/
def stripped (p : α → Bool) (cs : List α) : List α :=
  ((cs.dropWhile p).reverse.dropWhile p).reverse

/-- What is taken away are such runs. -/
theorem exists_stripped (p : α → Bool) (cs : List α) : ∃ bs es, cs = bs ++ stripped p cs ++ es ∧
    (∀ b ∈ bs, p b = true) ∧ ∀ e ∈ es, p e = true := by
  refine ⟨cs.takeWhile p, ((cs.dropWhile p).reverse.takeWhile p).reverse, ?_, fun b hb => ?_,
    fun e he => ?_⟩
  · rw [stripped, List.append_assoc, ← List.reverse_append, List.takeWhile_append_dropWhile,
      List.reverse_reverse, List.takeWhile_append_dropWhile]
  · exact List.mem_takeWhile_imp hb
  · exact List.mem_takeWhile_imp (List.mem_reverse.mp he)

theorem eq_false_of_getLast?_stripped {cs : List α} :
    ∀ c ∈ (stripped p cs).getLast?, p c = false := by
  intro c hc
  rw [stripped, List.getLast?_reverse] at hc
  exact eq_false_of_head?_dropWhile c hc

theorem eq_false_of_head?_stripped {cs : List α} : ∀ c ∈ (stripped p cs).head?, p c = false := by
  intro c hc
  have hsplit : (cs.dropWhile p) =
      stripped p cs ++ ((cs.dropWhile p).reverse.takeWhile p).reverse := by
    rw [stripped, ← List.reverse_append, List.takeWhile_append_dropWhile, List.reverse_reverse]
  have hdropped : c ∈ (cs.dropWhile p).head? := by
    rw [hsplit, List.head?_append, hc]
    rfl
  exact eq_false_of_head?_dropWhile c hdropped

/-- A list whose ends do not have the property, with runs around it. -/
theorem stripped_around {bs cs es : List α} (hbs : ∀ b ∈ bs, p b = true)
    (hes : ∀ e ∈ es, p e = true) (hhead : ∀ c ∈ cs.head?, p c = false)
    (hlast : ∀ c ∈ cs.getLast?, p c = false) : stripped p (bs ++ cs ++ es) = cs := by
  have hes' : ∀ e ∈ es.reverse, p e = true := fun e he => hes e (List.mem_reverse.mp he)
  unfold stripped
  rw [List.append_assoc, List.dropWhile_append_of_pos hbs]
  cases cs with
  | nil =>
    rw [List.nil_append, List.dropWhile_eq_nil_iff.mpr hes]
    rfl
  | cons c cs =>
    have hstays : (c :: cs ++ es).dropWhile p = c :: cs ++ es := dropWhile_eq_self hhead
    have hreverse : ∀ d ∈ (c :: cs).reverse.head?, p d = false := by
      rwa [List.head?_reverse]
    rw [hstays, List.reverse_append, List.dropWhile_append_of_pos hes', dropWhile_eq_self hreverse,
      List.reverse_reverse]

theorem mem_of_mem_stripped {c : α} {cs : List α} (h : c ∈ stripped p cs) : c ∈ cs :=
  List.dropWhile_subset _ (List.mem_reverse.mp (List.dropWhile_subset _ (List.mem_reverse.mp h)))

/-- What does not have the property stays. -/
theorem mem_stripped {c : α} {cs : List α} (hc : c ∈ cs) (h : p c = false) : c ∈ stripped p cs := by
  obtain ⟨bs, es, hcs, hbs, hes⟩ := exists_stripped p cs
  rw [hcs, List.mem_append, List.mem_append] at hc
  rcases hc with (hc | hc) | hc
  · exact absurd (hbs c hc) (by rw [h]; exact Bool.false_ne_true)
  · exact hc
  · exact absurd (hes c hc) (by rw [h]; exact Bool.false_ne_true)

/-- Nothing is changed by more of what is taken away. -/
theorem stripped_append {cs es : List α} (hes : ∀ e ∈ es, p e = true) :
    stripped p (cs ++ es) = stripped p cs := by
  obtain ⟨bs, es', hcs, hbs, hes'⟩ := exists_stripped p cs
  have hmore : ∀ e ∈ es' ++ es, p e = true := fun e he =>
    (List.mem_append.mp he).elim (hes' e) (hes e)
  have haround : stripped p (bs ++ stripped p cs ++ (es' ++ es)) = stripped p cs :=
    stripped_around hbs hmore eq_false_of_head?_stripped eq_false_of_getLast?_stripped
  rwa [← List.append_assoc, ← hcs] at haround

theorem stripped_map {β : Type} {q : β → Bool} {f : α → β} (h : ∀ c, q (f c) = p c) (cs : List α) :
    stripped q (cs.map f) = (stripped p cs).map f := by
  have hq : q ∘ f = p := funext h
  unfold stripped
  rw [List.dropWhile_map, ← List.map_reverse, List.dropWhile_map, ← List.map_reverse, hq]

end Ends

/-! ## 2. White space -/

/-- White space and nothing else. -/
def Blanks (cs : List Char) : Prop := ∀ c ∈ cs, isBlank c = true

theorem mem_of_mem_trimEnd {c : Char} {cs : List Char} (h : c ∈ trimEnd cs) : c ∈ cs :=
  List.mem_reverse.mp (List.dropWhile_subset _ (List.mem_reverse.mp h))

theorem mem_of_mem_trim {c : Char} {cs : List Char} (h : c ∈ trim cs) : c ∈ cs :=
  mem_of_mem_stripped h

theorem trimEnd_eq_nil {cs : List Char} : trimEnd cs = [] ↔ Blanks cs := by
  unfold trimEnd Blanks
  rw [List.reverse_eq_nil_iff, List.dropWhile_eq_nil_iff]
  simp only [List.mem_reverse]

/-- A text that does not end in white space, with white space behind it. -/
theorem trimEnd_append {cs es : List Char} (hes : Blanks es)
    (hlast : ∀ c ∈ cs.getLast?, isBlank c = false) : trimEnd (cs ++ es) = cs := by
  have hes' : Blanks es.reverse := fun e he => hes e (List.mem_reverse.mp he)
  have hreverse : ∀ c ∈ cs.reverse.head?, isBlank c = false := by
    rwa [List.head?_reverse]
  unfold trimEnd
  rw [List.reverse_append, List.dropWhile_append_of_pos hes', dropWhile_eq_self hreverse,
    List.reverse_reverse]

theorem trim_blanks {bs : List Char} (h : Blanks bs) : trim bs = [] :=
  trimEnd_eq_nil.mpr fun c hc => h c (List.dropWhile_subset _ hc)

/-- A text without white space at its ends, with white space around it. -/
theorem trim_around {bs cs es : List Char} (hbs : Blanks bs) (hes : Blanks es)
    (hhead : ∀ c ∈ cs.head?, isBlank c = false) (hlast : ∀ c ∈ cs.getLast?, isBlank c = false) :
    trim (bs ++ cs ++ es) = cs :=
  stripped_around hbs hes hhead hlast

theorem trim_eq_self {cs : List Char} (hhead : ∀ c ∈ cs.head?, isBlank c = false)
    (hlast : ∀ c ∈ cs.getLast?, isBlank c = false) : trim cs = cs := by
  have hnone : Blanks [] := nofun
  have haround := trim_around hnone hnone hhead hlast
  rwa [List.append_nil, List.nil_append] at haround

end Sm83Codegen.Text
