import Sm83Codegen.Proofs.Comments
import Sm83Codegen.Proofs.Committing
import Sm83Codegen.Proofs.Regions

/-!
# Generating again

A run leaves its artifacts between their markers, and a second run looks for the markers again. It
finds the same regions if no artifact has a line like a marker and no region had another one in it.

* `Insertion`, `spliceAll?` -- contents that are spliced one after the other;
* `Insertion.Undisturbed` -- none of them replaces the region of one before; `spliceAll?_again` --
  then they can be spliced again;
* `spliceArtifacts_eq_ok` -- what the artifacts make of the target files;
* `instructionSet_commentsUnmarked` -- no comment of the instruction set is a marker;
  `generate_repeatable` -- which generations can be repeated, those from it among them;
* `closingNamed` -- a table that calls an opcode like a marker, `nestedFile` -- a file with a region
  inside another; `generate_unrepeatable` -- what becomes of these.
-/

namespace Sm83Codegen

open Logged (bind_eq_ok)
open Text Splice

/-! ## 1. Contents spliced one after the other -/

/-- A content, and the markers of its region. -/
structure Insertion where
  markers : MarkerPair
  content : String
  deriving DecidableEq, Repr

/-- Splices contents into a text, one after the other. -/
def spliceAll? (text : String) : List Insertion → Option String
  | [] => some text
  | x :: rest => (splice? text x.markers x.content).bind (fun new => spliceAll? new rest)

/-- No region encloses, when its content is spliced, the line that opens a region spliced before. -/
def Insertion.Undisturbed (text : String) (before : List Insertion) : List Insertion → Prop
  | [] => True
  | x :: rest => (∀ y ∈ before, ¬Encloses x.markers y.markers text) ∧
      ∀ new, splice? text x.markers x.content = some new →
        Insertion.Undisturbed new (x :: before) rest

/-- Contents for different regions in use, without marked lines. -/
structure Insertable (xs : List Insertion) : Prop where
  distinct : (xs.map Insertion.markers).Nodup
  inUse : ∀ x ∈ xs, x.markers ∈ MarkerPair.all
  unmarked : ∀ x ∈ xs, Unmarked x.content.toList

theorem unmarked_contentLines {content : String} (h : Unmarked content.toList) {m : MarkerPair}
    (hm : m ∈ MarkerPair.all) : ∀ l ∈ contentLines content.toList,
      ¬Marked m.opening.toList l ∧ ¬Marked m.closing.toList l :=
  fun l hl => h l (mem_contentLines hl) m hm

/-- A splice leaves its content between its markers, and those spliced before where they are. -/
theorem splice?_holds {x : Insertion} {before : List Insertion} (h : Insertable (x :: before))
    {text new : String} (hnew : splice? text x.markers x.content = some new)
    (hencloses : ∀ y ∈ before, ¬Encloses x.markers y.markers text)
    (hbefore : ∀ y ∈ before, splice? text y.markers y.content = some text) :
    ∀ y ∈ x :: before, splice? new y.markers y.content = some new := by
  have hx := h.inUse x List.mem_cons_self
  have hmarkers := MarkerPair.proper_of_mem hx
  have hcontent {m : MarkerPair} (hm : m ∈ MarkerPair.all) :=
    unmarked_contentLines (h.unmarked x List.mem_cons_self) hm
  refine List.forall_mem_cons.mpr ⟨?_, fun y hy => ?_⟩
  · exact splice?_again hmarkers (fun l hl => (hcontent hx l hl).2) hnew
  · have hmem := List.mem_cons_of_mem x hy
    have hy' := h.inUse y hmem
    have hne : x.markers ≠ y.markers := fun heq =>
      (List.nodup_cons.mp h.distinct).1 (heq ▸ List.mem_map_of_mem hy)
    exact splice?_keeps hmarkers (MarkerPair.proper_of_mem hy')
      (fun l hl => opening_unique hx hy' hne hl) (fun l hl => (hcontent hy' l hl).1)
      (fun l hl => (unmarked_contentLines (h.unmarked y hmem) hx l hl).1) (hencloses y hy) hnew
      (hbefore y hy)

theorem spliceAll?_holds {xs before : List Insertion} (h : Insertable (xs.reverse ++ before))
    {text new : String} (hnew : spliceAll? text xs = some new)
    (hundisturbed : Insertion.Undisturbed text before xs)
    (hbefore : ∀ y ∈ before, splice? text y.markers y.content = some text) :
    ∀ y ∈ xs.reverse ++ before, splice? new y.markers y.content = some new := by
  induction xs generalizing before text with
  | nil =>
    obtain rfl := Option.some.inj hnew
    exact hbefore
  | cons x xs ih =>
    obtain ⟨next, hnext, hnew⟩ := Option.bind_eq_some_iff.mp hnew
    obtain ⟨hencloses, hrest⟩ := hundisturbed
    rw [List.reverse_cons, List.append_assoc] at h ⊢
    have hsub : ∀ y ∈ x :: before, y ∈ xs.reverse ++ ([x] ++ before) := fun y hy =>
      List.mem_append_right _ hy
    have hfirst : Insertable (x :: before) := by
      refine ⟨?_, fun y hy => h.inUse y (hsub y hy), fun y hy => h.unmarked y (hsub y hy)⟩
      have hdistinct := h.distinct
      rw [List.map_append] at hdistinct
      exact (List.nodup_append.mp hdistinct).2.1
    exact ih h hnew (hrest next hnext) (splice?_holds hfirst hnext hencloses hbefore)

theorem spliceAll?_append (text : String) (xs ys : List Insertion) :
    spliceAll? text (xs ++ ys) = (spliceAll? text xs).bind (fun new => spliceAll? new ys) := by
  induction xs generalizing text with
  | nil => rfl
  | cons x xs ih =>
    rw [List.cons_append, spliceAll?, spliceAll?, Option.bind_assoc]
    exact Option.bind_congr fun new _ => ih new

theorem spliceAll?_self {xs : List Insertion} {text : String}
    (h : ∀ x ∈ xs, splice? text x.markers x.content = some text) :
    spliceAll? text xs = some text := by
  induction xs with
  | nil => rfl
  | cons x xs ih =>
    rw [List.forall_mem_cons] at h
    rw [spliceAll?, h.1]
    exact ih h.2

theorem marked_self (marker : List Char) : Marked marker marker :=
  ⟨[], [], fun _ hc => absurd hc List.not_mem_nil, (List.append_nil _).symm⟩

/-- A line that is not empty stays one when its text is spliced. -/
theorem mem_contentLines_of_ne_nil {content line : List Char} (h : line ∈ splitLines content)
    (hne : line ≠ []) : line ∈ contentLines content := by
  rcases closed_cases content with ⟨rfl, _⟩ | ⟨init, hclosed, hcontent⟩
  · exact absurd (List.mem_singleton.mp h) hne
  · rw [contentLines_of_closed hclosed]
    rcases hcontent with rfl | rfl
    · rw [splitLines_append] at h
      exact (List.mem_append.mp h).resolve_right fun hmem => hne (List.mem_singleton.mp hmem)
    · exact h

/-- A content that closes its own region is not left as it is by a second splice. -/
theorem splice?_ne_self {m : MarkerPair} (hm : m.Proper) (hne : m.closing.toList ≠ [])
    {content : String} {line : List Char} (hline : line ∈ splitLines content.toList)
    (hclosing : Marked m.closing.toList line) (text : String) :
    splice? text m content ≠ some text := by
  intro hself
  obtain ⟨k, hk, _, hinside⟩ := (splice?_self hm).mp hself
  have hfull : line ≠ [] := by
    rintro rfl
    obtain ⟨indent, rest, _, hnil⟩ := hclosing
    have hparts := List.append_eq_nil_iff.mp hnil.symm
    exact hne (List.append_eq_nil_iff.mp hparts.1).2
  refine hk.inside line ?_ hclosing
  rw [hinside]
  exact mem_contentLines_of_ne_nil hline hfull

/-- **Contents that were spliced can be spliced again**, and change nothing. -/
theorem spliceAll?_again {xs : List Insertion} (h : Insertable xs) {text new : String}
    (hundisturbed : Insertion.Undisturbed text [] xs) (hnew : spliceAll? text xs = some new) :
    spliceAll? new xs = some new := by
  have hreverse : Insertable (xs.reverse ++ []) := by
    rw [List.append_nil]
    refine ⟨?_, fun x hx => h.inUse x (List.mem_reverse.mp hx),
      fun x hx => h.unmarked x (List.mem_reverse.mp hx)⟩
    rw [List.map_reverse]
    exact List.nodup_reverse.mpr h.distinct
  have hholds := spliceAll?_holds hreverse hnew hundisturbed fun y hy => absurd hy List.not_mem_nil
  refine spliceAll?_self fun x hx => hholds x ?_
  exact List.mem_append_left _ (List.mem_reverse.mpr hx)

/-! ## 2. The target files -/

/-- What is spliced into which file, in order. The two files may be the same. -/
def GeneratorSettings.targets (g : GeneratorSettings) (a : Artifacts) :
    List (String × List Insertion) :=
  let routines := [⟨.decoding, a.decode⟩, ⟨.execution, a.execution⟩]
  if FilePath.same g.cpuFile g.testsFile then [(g.cpuFile, routines ++ [⟨.tests, a.tests⟩])]
  else [(g.cpuFile, routines), (g.testsFile, [⟨.tests, a.tests⟩])]

/-- A file is there, and this is what the contents make of it. -/
def Disk.Gives (d : Disk) (target : String × List Insertion) (w : PendingWrite) : Prop :=
  w.path = target.1 ∧ ∃ text, d.content (FilePath.parts target.1) = some text ∧
    spliceAll? text target.2 = some w.text

/-- No content disturbs one that was spliced before. -/
def Disk.Undisturbed (d : Disk) (targets : List (String × List Insertion)) : Prop :=
  ∀ target ∈ targets, ∀ text, d.content (FilePath.parts target.1) = some text →
    Insertion.Undisturbed text [] target.2

section

variable {f : Failures} {d d' : Disk} {pending ws : List PendingWrite} {path : String}

/-- The text of a target file: the one pending, or the one on the disk. -/
def Disk.text? (d : Disk) (pending : List PendingWrite) (path : String) : Option String :=
  (pendingText? pending path).or (d.content (FilePath.parts path))

theorem run_targetText_some {text : String} (h : d.text? pending path = some text) :
    (targetText f.files pending path).run d = (.ok text, d) := by
  unfold Disk.text? at h
  unfold targetText
  cases hpending : pendingText? pending path with
  | some pendingText =>
    rw [hpending] at h
    obtain rfl := Option.some.inj h
    rfl
  | none =>
    rw [hpending, Option.none_or] at h
    unfold Failures.files
    simp only [StateT.run_bind, StateT.run_get, pure_bind, h]
    rfl

theorem run_targetText_none (h : d.text? pending path = none) :
    (targetText f.files pending path).run d =
      (.error (.file ("reading " ++ path) .notFound), d) := by
  unfold Disk.text? at h
  obtain ⟨hpending, hcontent⟩ := Option.or_eq_none_iff.mp h
  unfold targetText Failures.files
  simp only [hpending, StateT.run_bind, StateT.run_get, pure_bind, hcontent]
  rfl

/-- A content is spliced if the file is there and has the region. -/
theorem spliceInto_eq_ok {m : MarkerPair} {content : String} :
    (spliceInto f.files pending path m content).run d = (.ok ws, d') ↔
      d' = d ∧ ∃ text new, d.text? pending path = some text ∧ splice? text m content = some new ∧
        ws = putText path new pending := by
  cases htext : d.text? pending path with
  | none =>
    have hrun : (spliceInto f.files pending path m content).run d =
        (.error (.file ("reading " ++ path) .notFound), d) := by
      rw [spliceInto, StateT.run_bind, run_targetText_none htext]
      rfl
    constructor
    · intro h
      cases hrun.symm.trans h
    · intro h
      obtain ⟨_, _, _, hnone, _⟩ := h
      cases hnone
  | some text =>
    cases hnew : splice? text m content with
    | none =>
      have hrun : (spliceInto f.files pending path m content).run d =
          (.error (.splice ("splicing " ++ path) m), d) := by
        rw [spliceInto, StateT.run_bind, run_targetText_some htext]
        dsimp only [Bind.bind, pure]
        rw [hnew]
        rfl
      constructor
      · intro h
        cases hrun.symm.trans h
      · intro h
        obtain ⟨_, _, _, htext', hnew', _⟩ := h
        obtain rfl := Option.some.inj htext'
        cases hnew.symm.trans hnew'
    | some new =>
      have hrun : (spliceInto f.files pending path m content).run d =
          (.ok (putText path new pending), d) := by
        rw [spliceInto, StateT.run_bind, run_targetText_some htext]
        dsimp only [Bind.bind, pure]
        rw [hnew]
        rfl
      constructor
      · intro h
        cases hrun.symm.trans h
        exact ⟨rfl, text, new, rfl, hnew, rfl⟩
      · intro h
        obtain ⟨rfl, _, _, htext', hnew', rfl⟩ := h
        obtain rfl := Option.some.inj htext'
        obtain rfl := Option.some.inj (hnew.symm.trans hnew')
        exact hrun

/-- What follows a splice runs if the splice succeeds. -/
theorem spliceInto_then_eq_ok {m : MarkerPair} {content : String}
    {k : List PendingWrite → StateM Disk (Except OutputError (List PendingWrite))} :
    (spliceInto f.files pending path m content >>= fun r =>
        match r with
        | .error e => pure (.error e)
        | .ok pending => k pending).run d = (.ok ws, d') ↔
      ∃ text new, d.text? pending path = some text ∧ splice? text m content = some new ∧
        (k (putText path new pending)).run d = (.ok ws, d') := by
  rw [StateT.run_bind]
  cases hrun : (spliceInto f.files pending path m content).run d with
  | mk r d₁ =>
    cases r with
    | error e =>
      constructor
      · intro h
        cases h
      · intro h
        obtain ⟨text, new, htext, hnew, _⟩ := h
        cases hrun.symm.trans (spliceInto_eq_ok.mpr ⟨rfl, text, new, htext, hnew, rfl⟩)
    | ok spliced =>
      obtain ⟨rfl, text, new, htext, hnew, rfl⟩ := spliceInto_eq_ok.mp hrun
      constructor
      · intro h
        exact ⟨text, new, htext, hnew, h⟩
      · intro h
        obtain ⟨text', new', htext', hnew', h⟩ := h
        obtain rfl := Option.some.inj (htext.symm.trans htext')
        obtain rfl := Option.some.inj (hnew.symm.trans hnew')
        exact h

theorem text?_pending (w : PendingWrite) (path : String) :
    d.text? [w] path =
      if FilePath.same w.path path then some w.text else d.content (FilePath.parts path) := by
  unfold Disk.text? pendingText?
  rw [List.find?_cons]
  cases FilePath.same w.path path <;> rfl

theorem same_self (path : String) : FilePath.same path path = true := beq_self_eq_true _

theorem run_spliceArtifacts {g : GeneratorSettings} {a : Artifacts} :
    (spliceArtifacts f.files g a).run d = (.ok ws, d') ↔
      d' = d ∧ ∃ cpu, d.Gives (g.cpuFile, [⟨.decoding, a.decode⟩, ⟨.execution, a.execution⟩]) cpu ∧
        ∃ text new, d.text? [cpu] g.testsFile = some text ∧ splice? text .tests a.tests = some new ∧
          ws = putText g.testsFile new [cpu] := by
  have hpending (text : String) : d.text? [⟨g.cpuFile, text⟩] g.cpuFile = some text := by
    rw [text?_pending, if_pos (same_self _)]
  have hput (old new : String) :
      putText g.cpuFile new [⟨g.cpuFile, old⟩] = [⟨g.cpuFile, new⟩] := by
    rw [putText, if_pos (same_self _)]
  constructor
  · intro h
    obtain ⟨text₀, text₁, htext₀, htext₁, h⟩ := spliceInto_then_eq_ok.mp h
    obtain ⟨text, text₂, htext, htext₂, h⟩ := spliceInto_then_eq_ok.mp h
    obtain ⟨rfl, htests⟩ := spliceInto_eq_ok.mp h
    obtain rfl := Option.some.inj ((hpending text₁).symm.trans htext)
    refine ⟨rfl, ⟨g.cpuFile, text₂⟩, ⟨rfl, text₀, htext₀, ?_⟩, ?_⟩
    · simp only [spliceAll?, htext₁, Option.bind_some, htext₂]
    · rw [putText, hput] at htests
      exact htests
  · intro h
    obtain ⟨rfl, ⟨path, text₂⟩, ⟨hpath, text₀, htext₀, hall⟩, htests⟩ := h
    obtain ⟨text₁, htext₁, hall⟩ := Option.bind_eq_some_iff.mp hall
    obtain ⟨_, htext₂, hall⟩ := Option.bind_eq_some_iff.mp hall
    obtain rfl := Option.some.inj hall
    dsimp only at hpath
    rw [hpath, ← hput text₁] at htests
    exact spliceInto_then_eq_ok.mpr ⟨text₀, text₁, htext₀, htext₁, spliceInto_then_eq_ok.mpr
      ⟨text₁, _, hpending text₁, htext₂, spliceInto_eq_ok.mpr ⟨rfl, htests⟩⟩⟩

/-- **The artifacts are spliced if each file is there and takes its contents.** -/
theorem spliceArtifacts_eq_ok {g : GeneratorSettings} {a : Artifacts} :
    (spliceArtifacts f.files g a).run d = (.ok ws, d') ↔
      d' = d ∧ List.Forall₂ d.Gives (g.targets a) ws := by
  rw [run_spliceArtifacts]
  refine and_congr_right fun _ => ?_
  unfold GeneratorSettings.targets
  by_cases hsame : FilePath.same g.cpuFile g.testsFile = true
  · rw [if_pos hsame]
    constructor
    · intro h
      obtain ⟨⟨path, cpu⟩, ⟨rfl, text, htext, hcpu⟩, tests, new, htests, hnew, rfl⟩ := h
      rw [text?_pending, if_pos hsame] at htests
      obtain rfl := Option.some.inj htests
      rw [putText, if_pos hsame]
      refine .cons ⟨rfl, text, htext, ?_⟩ .nil
      rw [spliceAll?_append, hcpu, Option.bind_some, spliceAll?, hnew]
      rfl
    · intro h
      obtain ⟨⟨path, new⟩, _, ⟨rfl, text, htext, hall⟩, hnil, rfl⟩ := List.forall₂_cons_left_iff.mp h
      obtain rfl := List.forall₂_nil_left_iff.mp hnil
      rw [spliceAll?_append] at hall
      obtain ⟨cpu, hcpu, hall⟩ := Option.bind_eq_some_iff.mp hall
      obtain ⟨_, hnew, hall⟩ := Option.bind_eq_some_iff.mp hall
      obtain rfl := Option.some.inj hall
      refine ⟨⟨g.cpuFile, cpu⟩, ⟨rfl, text, htext, hcpu⟩, cpu, _, ?_, hnew, ?_⟩
      · rw [text?_pending, if_pos hsame]
      · rw [putText, if_pos hsame]
  · rw [if_neg hsame]
    constructor
    · intro h
      obtain ⟨⟨path, cpu⟩, ⟨rfl, text, htext, hcpu⟩, tests, new, htests, hnew, rfl⟩ := h
      rw [text?_pending, if_neg hsame] at htests
      rw [putText, if_neg hsame]
      refine .cons ⟨rfl, text, htext, hcpu⟩ (.cons ⟨rfl, tests, htests, ?_⟩ .nil)
      rw [spliceAll?, hnew]
      rfl
    · intro h
      obtain ⟨⟨path, cpu⟩, _, ⟨rfl, hcpu⟩, hrest, rfl⟩ := List.forall₂_cons_left_iff.mp h
      obtain ⟨⟨path, new⟩, _, ⟨rfl, tests, htests, hall⟩, hnil, rfl⟩ :=
        List.forall₂_cons_left_iff.mp hrest
      obtain rfl := List.forall₂_nil_left_iff.mp hnil
      obtain ⟨_, hnew, hall⟩ := Option.bind_eq_some_iff.mp hall
      obtain rfl := Option.some.inj hall
      refine ⟨⟨g.cpuFile, cpu⟩, ⟨rfl, hcpu⟩, tests, _, ?_, hnew, ?_⟩
      · rw [text?_pending, if_neg hsame]
        exact htests
      · rw [putText, if_neg hsame]
        rfl

/-- Artifacts without marked lines, that disturb none of each other, are spliced again into what
    they were spliced into, and change nothing. -/
theorem spliceArtifacts_again {g : GeneratorSettings} {a : Artifacts}
    (hdecode : Unmarked a.decode.toList) (hexecution : Unmarked a.execution.toList)
    (htests : Unmarked a.tests.toList) (hundisturbed : d.Undisturbed (g.targets a))
    (h : (spliceArtifacts f.files g a).run d = (.ok ws, d')) {f' : Failures} {e : Disk}
    (he : ∀ w ∈ ws, e.content (FilePath.parts w.path) = some w.text) :
    (spliceArtifacts f'.files g a).run e = (.ok ws, e) := by
  have hroutines : ∀ x ∈ ([⟨.decoding, a.decode⟩, ⟨.execution, a.execution⟩] : List Insertion),
      x.markers ∈ MarkerPair.all ∧ Unmarked x.content.toList :=
    List.forall_mem_cons.mpr ⟨⟨List.mem_of_elem_eq_true rfl, hdecode⟩,
      List.forall_mem_singleton.mpr ⟨List.mem_of_elem_eq_true rfl, hexecution⟩⟩
  have htesting : ∀ x ∈ ([⟨.tests, a.tests⟩] : List Insertion),
      x.markers ∈ MarkerPair.all ∧ Unmarked x.content.toList :=
    List.forall_mem_singleton.mpr ⟨List.mem_of_elem_eq_true rfl, htests⟩
  have hinsertable : ∀ target ∈ g.targets a, Insertable target.2 := by
    have hdistinct : MarkerPair.all.Nodup := by decide
    unfold GeneratorSettings.targets
    split
    · have hall := List.forall_mem_append.mpr ⟨hroutines, htesting⟩
      exact List.forall_mem_singleton.mpr
        ⟨hdistinct, fun x hx => (hall x hx).1, fun x hx => (hall x hx).2⟩
    · exact List.forall_mem_cons.mpr
        ⟨⟨hdistinct.sublist (List.take_sublist 2 MarkerPair.all),
          fun x hx => (hroutines x hx).1, fun x hx => (hroutines x hx).2⟩,
        List.forall_mem_singleton.mpr
          ⟨List.nodup_singleton _, fun x hx => (htesting x hx).1, fun x hx => (htesting x hx).2⟩⟩
  obtain ⟨_, hgives⟩ := spliceArtifacts_eq_ok.mp h
  refine spliceArtifacts_eq_ok.mpr ⟨rfl, ?_⟩
  rw [List.forall₂_iff_zip] at hgives ⊢
  refine ⟨hgives.1, fun {target w} hzip => ?_⟩
  obtain ⟨htarget, hw⟩ := List.of_mem_zip hzip
  obtain ⟨hpath, text, htext, hsplice⟩ := hgives.2 hzip
  have hfile := he w hw
  rw [hpath] at hfile
  exact ⟨hpath, w.text, hfile,
    spliceAll?_again (hinsertable target htarget) (hundisturbed target htarget text htext) hsplice⟩

end

/-! ## 3. Generating again -/

theorem plain_assemblies : (match firstRows.rows.records? none,
      secondRows.rows.records? (some secondPage) with
    | some rs, some rs' => (rs ++ rs').all fun r =>
        !r.assembly.toList.contains '\n' && r.assembly.toList.head? != some '_'
    | _, _ => false) = true := by decide +kernel

/-- No comment of the instruction set is a marker. -/
theorem instructionSet_commentsUnmarked {t : Table} (ht : Table.ofDocument instructionSet = .ok t)
    (s : Selection) : t.CommentsUnmarked catalog s := by
  have h := plain_assemblies
  split at h
  · next rs rs' hrs hrs' =>
    rw [instructionSet_rows, Table.ofDocument_rows hrs hrs'] at ht
    obtain rfl := Except.ok.inj ht
    intro k _ _ r hr
    have hplain := List.all_eq_true.mp h r (List.mem_of_find?_eq_some hr)
    obtain ⟨hline, hname⟩ := Bool.and_eq_true_iff.mp hplain
    exact r.unmarked_comment (by simpa using hline) (bne_iff_ne.mp hname)
  · cases h

/-- **A generation can be repeated.** The branches and the routines have no marked line, and the
    tests have one just if the comment above the tests of an opcode is one; in the instruction set
    none is. If none is, and no content disturbs one that was spliced before, the artifacts change
    nothing when they are spliced into the files that they were spliced into. -/
theorem generate_repeatable {text : String} {s : Selection} {a : Artifacts}
    (h : (generate text catalog s).result = .ok a) :
    Unmarked a.decode.toList ∧ Unmarked a.execution.toList ∧
      ∃ t, (Table.ofText text).result = .ok t ∧
        (Unmarked a.tests.toList ↔ t.CommentsUnmarked catalog s) ∧
        (Table.ofDocument instructionSet = .ok t → t.CommentsUnmarked catalog s) ∧
        (t.CommentsUnmarked catalog s →
          ∀ (f : Failures) (g : GeneratorSettings) (d d' : Disk) (ws : List PendingWrite),
            (spliceArtifacts f.files g a).run d = (.ok ws, d') → d.Undisturbed (g.targets a) →
            ∀ (f' : Failures) (e : Disk),
              (∀ w ∈ ws, e.content (FilePath.parts w.path) = some w.text) →
              (spliceArtifacts f'.files g a).run e = (.ok ws, e)) := by
  obtain ⟨hdecode, hexecution, t, ht, htests⟩ := generate_unmarked h
  refine ⟨hdecode, hexecution, t, ht, htests, fun ht => instructionSet_commentsUnmarked ht s,
    fun hcomments f g d d' ws hws hundisturbed f' e he => ?_⟩
  exact spliceArtifacts_again hdecode hexecution (htests.mpr hcomments) hundisturbed hws he

/-! ## 4. A table that calls an opcode by a marker -/

/-- The instruction set, but that the mnemonic of `0x00` starts like a line that closes the
    tests. -/
def closingNamedRows : OrderedRows where
  rows := firstRows.rows.put 0x00 ⟨"__TESTS_REPLACEMENT_END__", 1, [4], [], ⟨"-", "-", "-", "-"⟩⟩
  inOrder := by decide +kernel

/-- Its text. -/
def closingNamed : String :=
  TableDocument.text ⟨closingNamedRows.rows.partition, secondRows.rows.partition⟩

/-- The comments above the tests of selected opcodes. -/
def commentsOf (ds : List Descriptor) (s : Selection) : List String :=
  ((ds.flatMap Descriptor.members).filter (fun m => s.selects m.key)).map (·.record.comment)

/-- The comments of two opcodes in this table. -/
def closingNamedComments : List (OpcodeKey × String) :=
  [(.plain 0x00, "    // __TESTS_REPLACEMENT_END__ [0x00]"), (.plain 0x37, "    // SCF [0x37]")]

theorem closingNamed_generates : (match closingNamedRows.descriptors? secondRows catalog with
    | some ds => closingNamedComments.all fun c =>
        (generateFamilies (.ofKeys [c.1]) ds).result.isOk &&
          commentsOf ds (.ofKeys [c.1]) == [c.2]
    | none => false) = true := by decide +kernel

/-- Each of the two is generated, and its comment stands in the tests. -/
theorem exists_generated_closingNamed {c : OpcodeKey × String} (hc : c ∈ closingNamedComments) :
    ∃ a, (generate closingNamed catalog (.ofKeys [c.1])).result = .ok a ∧
      (∀ l ∈ splitLines c.2.toList, l ∈ splitLines a.tests.toList) ∧
      ∀ t, (Table.ofText closingNamed).result = .ok t → Unmarked c.2.toList →
        t.CommentsUnmarked catalog (.ofKeys [c.1]) := by
  have hclaimed : ∀ c ∈ closingNamedComments, ∀ k ∈ [c.1], ∃ f ∈ catalog, k ∈ f.keys := by decide
  have h := closingNamed_generates
  split at h
  · next ds hds =>
    obtain ⟨hok, hcomments⟩ := Bool.and_eq_true_iff.mp (List.all_eq_true.mp h c hc)
    obtain ⟨g, hg⟩ := exists_of_isOk hok
    have hassemble := OrderedRows.assembled hds (Selection.ofClaimed_ofKeys (hclaimed c hc)) hg
    obtain ⟨_, hprepared⟩ := OrderedRows.prepared hds
    obtain ⟨t, ht, _, _, hplaced⟩ := hprepared.placed
    obtain ⟨hready, rfl⟩ := generateFamilies_eq_ok.mp hg
    have hcomment {d : Descriptor} {m : Member} (hd : d ∈ ds) (hm : m ∈ d.members)
        (hs : (Selection.ofKeys [c.1]).selects m.key = true) : m.record.comment = c.2 := by
      have hmem : m.record.comment ∈ commentsOf ds (.ofKeys [c.1]) :=
        List.mem_map_of_mem (List.mem_filter.mpr ⟨List.mem_flatMap.mpr ⟨d, hd, hm⟩, hs⟩)
      rw [beq_iff_eq.mp hcomments] at hmem
      exact List.mem_singleton.mp hmem
    have hmember : ∃ d ∈ ds, ∃ m ∈ d.members, (Selection.ofKeys [c.1]).selects m.key = true := by
      have hne : commentsOf ds (.ofKeys [c.1]) ≠ [] := by
        rw [beq_iff_eq.mp hcomments]
        exact List.cons_ne_nil _ _
      obtain ⟨_, hmem⟩ := List.exists_mem_of_ne_nil _ hne
      obtain ⟨m, hm, _⟩ := List.mem_map.mp hmem
      obtain ⟨hm, hs⟩ := List.mem_filter.mp hm
      obtain ⟨d, hd, hm⟩ := List.mem_flatMap.mp hm
      exact ⟨d, hd, m, hm, hs⟩
    refine ⟨_, generate_eq_ok.mpr ⟨_, hassemble, rfl⟩, ?_, fun t' ht' hunmarked => ?_⟩
    · obtain ⟨d, hd, m, hm, hs⟩ := hmember
      rw [← hcomment hd hm hs]
      exact mem_lines_comment hready hd hm hs
    · obtain rfl := Except.ok.inj (ht.symm.trans ht')
      refine hplaced.assembly.forall_record.mpr fun d hd m hm hs => ?_
      rw [hcomment hd hm hs]
      exact hunmarked
  · cases h

/-! ## 5. Files with regions -/

/-- A file with the regions of branches and routines, one after the other. -/
def routingFile : String := textOf
  [MarkerPair.decoding.opening, MarkerPair.decoding.closing, MarkerPair.execution.opening,
    MarkerPair.execution.closing]

/-- A file in which the region of the routines has that of the branches in it. -/
def nestedFile : String := textOf
  [MarkerPair.execution.opening, MarkerPair.decoding.opening, MarkerPair.decoding.closing,
    MarkerPair.execution.closing]

/-- A file with the region of the tests. -/
def testingFile : String := textOf [MarkerPair.tests.opening, MarkerPair.tests.closing]

/-- The disk with the two target files of the default settings. -/
def Disk.ofTargets (cpu tests : String) : Disk where
  content steps :=
    if steps = ["src", "cpu.rs"] then some cpu
    else if steps = ["src", "cpu", "tests.rs"] then some tests
    else none
  writes := 0
  renames := 0
  removes := 0

/-- No call fails. -/
def Failures.never : Failures := ⟨fun _ => none, fun _ => none, fun _ => none⟩

theorem defaultTargets (a : Artifacts) : GeneratorSettings.targets {} a =
    [("src/cpu.rs", [⟨.decoding, a.decode⟩, ⟨.execution, a.execution⟩]),
      ("src/cpu/tests.rs", [⟨.tests, a.tests⟩])] := by
  have hsame : FilePath.same "src/cpu.rs" "src/cpu/tests.rs" = false := by decide
  unfold GeneratorSettings.targets
  rw [if_neg (by simp [hsame])]

theorem run_ofTargets {a : Artifacts} {cpu tests cpu' tests' : String}
    (hcpu : spliceAll? cpu [⟨.decoding, a.decode⟩, ⟨.execution, a.execution⟩] = some cpu')
    (htests : splice? tests .tests a.tests = some tests') :
    (spliceArtifacts Failures.never.files {} a).run (.ofTargets cpu tests) =
      (.ok [⟨"src/cpu.rs", cpu'⟩, ⟨"src/cpu/tests.rs", tests'⟩], .ofTargets cpu tests) := by
  have hcpuParts : FilePath.parts "src/cpu.rs" = ["src", "cpu.rs"] := by decide
  have htestsParts : FilePath.parts "src/cpu/tests.rs" = ["src", "cpu", "tests.rs"] := by decide
  refine spliceArtifacts_eq_ok.mpr ⟨rfl, ?_⟩
  rw [defaultTargets]
  refine .cons ⟨rfl, cpu, ?_, hcpu⟩ (.cons ⟨rfl, tests, ?_, ?_⟩ .nil)
  · rw [hcpuParts]
    rfl
  · rw [htestsParts]
    rfl
  · rw [spliceAll?, htests]
    rfl

/-- The cut of the branches in a file with both regions. -/
def routingCut : Cut where
  above := []
  opening := MarkerPair.decoding.opening.toList
  inside := []
  closing := MarkerPair.decoding.closing.toList
  below := [MarkerPair.execution.opening.toList, MarkerPair.execution.closing.toList, []]

theorem splice?_routingFile (decode : String) :
    ∃ new, splice? routingFile .decoding decode = some new ∧
      splitLines new.toList = (routingCut.fill (contentLines decode.toList)).lines := by
  have hcut : routingCut.IsOf .decoding :=
    ⟨fun _ hl => absurd hl List.not_mem_nil, marked_self _, fun _ hl => absurd hl List.not_mem_nil,
      marked_self _⟩
  exact splice?_of_cut (MarkerPair.proper_of_mem (by decide)) hcut (splitLines_textOf (by decide)) decode

/-- The file takes any branches and routines. -/
theorem exists_spliced_routingFile (decode execution : String) :
    ∃ new, spliceAll? routingFile [⟨.decoding, decode⟩, ⟨.execution, execution⟩] = some new := by
  obtain ⟨first, hfirst, hlines⟩ := splice?_routingFile decode
  have hopens : Opens .execution first := by
    refine ⟨MarkerPair.decoding.opening.toList ::
      (contentLines decode.toList ++ [MarkerPair.decoding.closing.toList]),
      _, [], _, [[]], ?_, marked_self _, marked_self _⟩
    rw [hlines]
    simp [Cut.lines, Cut.fill, routingCut]
  have hproper : MarkerPair.execution.Proper := MarkerPair.proper_of_mem (by decide)
  have hsome : splice? first .execution execution ≠ none := fun hnone =>
    (splice?_eq_none hproper).mp hnone hopens
  obtain ⟨new, hnew⟩ := Option.ne_none_iff_exists'.mp hsome
  exact ⟨new, by simp only [spliceAll?, hfirst, Option.bind_some, hnew]⟩

/-- In it, the routines do not disturb the branches. -/
theorem undisturbed_routingFile (decode execution : String) :
    Insertion.Undisturbed routingFile [] [⟨.decoding, decode⟩, ⟨.execution, execution⟩] := by
  refine ⟨fun _ hy => absurd hy List.not_mem_nil, fun first hfirst => ⟨?_, fun _ _ => trivial⟩⟩
  obtain ⟨new, hnew, hlines⟩ := splice?_routingFile decode
  obtain rfl := Option.some.inj (hfirst.symm.trans hnew)
  refine List.forall_mem_singleton.mpr fun hencloses => ?_
  obtain ⟨k, hk, hcut, habove, _⟩ := hencloses
  rw [hlines] at hcut
  -- the line that opens the branches is the first one, so it stands above the routines
  have hfirstLine : ∃ rest, (routingCut.fill (contentLines decode.toList)).lines =
      MarkerPair.decoding.opening.toList :: rest := ⟨_, rfl⟩
  obtain ⟨rest, hrest⟩ := hfirstLine
  rw [hrest, Cut.lines] at hcut
  cases hkabove : k.above with
  | nil =>
    rw [hkabove, List.nil_append] at hcut
    have hopening := hk.opening
    rw [← (List.cons.inj hcut).1] at hopening
    have hother : ¬Marked MarkerPair.execution.opening.toList
        MarkerPair.decoding.opening.toList := by decide
    exact hother hopening
  | cons line above =>
    rw [hkabove, List.cons_append] at hcut
    rw [hkabove] at habove
    refine habove line List.mem_cons_self ?_
    rw [← (List.cons.inj hcut).1]
    exact marked_self _

/-- The file of the tests takes any content. -/
theorem exists_spliced_testingFile (tests : String) :
    ∃ new, splice? testingFile .tests tests = some new := by
  have hcut : Cut.IsOf .tests ⟨[], MarkerPair.tests.opening.toList, [],
      MarkerPair.tests.closing.toList, [[]]⟩ :=
    ⟨fun _ hl => absurd hl List.not_mem_nil, marked_self _, fun _ hl => absurd hl List.not_mem_nil,
      marked_self _⟩
  have hfree : ∀ l ∈ [MarkerPair.tests.opening, MarkerPair.tests.closing], '\n' ∉ l.toList := by
    decide
  obtain ⟨new, hnew, _⟩ := splice?_of_cut (MarkerPair.proper_of_mem (by decide)) hcut
    (splitLines_textOf hfree) tests
  exact ⟨new, hnew⟩

/-- The cut of the branches inside the region of the routines. -/
def nestedCut : Cut where
  above := [MarkerPair.execution.opening.toList]
  opening := MarkerPair.decoding.opening.toList
  inside := []
  closing := MarkerPair.decoding.closing.toList
  below := [MarkerPair.execution.closing.toList, []]

/-- The cut of the routines around the region of the branches. -/
def enclosingCut (decode : List (List Char)) : Cut where
  above := []
  opening := MarkerPair.execution.opening.toList
  inside := MarkerPair.decoding.opening.toList :: (decode ++ [MarkerPair.decoding.closing.toList])
  closing := MarkerPair.execution.closing.toList
  below := [[]]

theorem nestedCut_isOf : nestedCut.IsOf .decoding where
  above := by decide
  opening := marked_self _
  inside _ hl := absurd hl List.not_mem_nil
  closing := marked_self _

theorem enclosingCut_isOf {decode : String} (h : Unmarked decode.toList) :
    (enclosingCut (contentLines decode.toList)).IsOf .execution where
  above _ hl := absurd hl List.not_mem_nil
  opening := marked_self _
  inside := by
    refine List.forall_mem_cons.mpr ⟨by decide, List.forall_mem_append.mpr
      ⟨fun l hl => ?_, List.forall_mem_singleton.mpr (by decide)⟩⟩
    exact (unmarked_contentLines h (m := .execution) (by decide) l hl).2
  closing := marked_self _

/-- After both of the nested regions were filled, that of the branches is gone. -/
theorem exists_spliced_nestedFile {decode execution : String} (hdecode : Unmarked decode.toList)
    (hexecution : Unmarked execution.toList) :
    ∃ new, spliceAll? nestedFile [⟨.decoding, decode⟩, ⟨.execution, execution⟩] = some new ∧
      ∀ again, splice? new .decoding again = none := by
  have hdecoding : MarkerPair.decoding.Proper := MarkerPair.proper_of_mem (by decide)
  have hroutines : MarkerPair.execution.Proper := MarkerPair.proper_of_mem (by decide)
  have hnested : splitLines nestedFile.toList = nestedCut.lines := splitLines_textOf (by decide)
  obtain ⟨first, hfirst, hinner⟩ := splice?_of_cut hdecoding nestedCut_isOf hnested decode
  have houter : splitLines first.toList = (enclosingCut (contentLines decode.toList)).lines := by
    rw [hinner]
    simp [Cut.lines, Cut.fill, nestedCut, enclosingCut]
  obtain ⟨new, hnew, hlines⟩ := splice?_of_cut hroutines (enclosingCut_isOf hdecode) houter execution
  refine ⟨new, ?_, fun again => (splice?_eq_none hdecoding).mpr fun hopens => ?_⟩
  · rw [spliceAll?, hfirst, Option.bind_some, spliceAll?, hnew]
    rfl
  · obtain ⟨above, opening, inside, closing, below, hsplit, hopening, _⟩ := hopens
    have hends : ∀ l ∈ [MarkerPair.execution.opening.toList, MarkerPair.execution.closing.toList, []],
        ¬Marked MarkerPair.decoding.opening.toList l := by decide
    have hmem : opening ∈ MarkerPair.execution.opening.toList :: (contentLines execution.toList ++
        [MarkerPair.execution.closing.toList, []]) := by
      have hall : opening ∈ splitLines new.toList := by
        rw [hsplit]
        exact List.mem_append_right above List.mem_cons_self
      rw [hlines] at hall
      exact hall
    rcases List.mem_cons.mp hmem with rfl | hmem
    · exact hends _ List.mem_cons_self hopening
    · rcases List.mem_append.mp hmem with hmem | hmem
      · exact (unmarked_contentLines hexecution (m := .decoding) (by decide) _ hmem).1 hopening
      · exact hends _ (List.mem_cons_of_mem _ hmem) hopening

/-! ## 6. Generations that can and that cannot be repeated -/

/-- With a plain comment and the regions apart, the artifacts are spliced again. -/
theorem generate_repeatable_closingNamed : ∃ a ws,
    (generate closingNamed catalog (.ofKeys [.plain 0x37])).result = .ok a ∧
      (spliceArtifacts Failures.never.files {} a).run (.ofTargets routingFile testingFile) =
        (.ok ws, .ofTargets routingFile testingFile) ∧
      (Disk.ofTargets routingFile testingFile).Undisturbed (GeneratorSettings.targets {} a) ∧
      ∀ e : Disk, (∀ w ∈ ws, e.content (FilePath.parts w.path) = some w.text) →
        (spliceArtifacts Failures.never.files {} a).run e = (.ok ws, e) := by
  have hc : (.plain 0x37, "    // SCF [0x37]") ∈ closingNamedComments := by decide
  obtain ⟨a, ha, _, hcomments⟩ := exists_generated_closingNamed hc
  obtain ⟨cpu, hcpu⟩ := exists_spliced_routingFile a.decode a.execution
  obtain ⟨tests, htests⟩ := exists_spliced_testingFile a.tests
  have hrun := run_ofTargets hcpu htests
  have hundisturbed : (Disk.ofTargets routingFile testingFile).Undisturbed
      (GeneratorSettings.targets {} a) := by
    have hcpuParts : FilePath.parts "src/cpu.rs" = ["src", "cpu.rs"] := by decide
    rw [defaultTargets]
    refine List.forall_mem_cons.mpr ⟨fun text htext => ?_, List.forall_mem_singleton.mpr ?_⟩
    · rw [hcpuParts] at htext
      obtain rfl := Option.some.inj htext
      exact undisturbed_routingFile a.decode a.execution
    · exact fun _ _ => ⟨fun _ hy => absurd hy List.not_mem_nil, fun _ _ => trivial⟩
  obtain ⟨_, _, t, ht, _, _, hrepeats⟩ := generate_repeatable ha
  have hplain : Unmarked "    // SCF [0x37]".toList := by
    unfold Unmarked
    decide
  exact ⟨a, _, ha, hrun, hundisturbed,
    hrepeats (hcomments t ht hplain) _ _ _ _ _ hrun hundisturbed _⟩

/-- A mnemonic that names a marker closes the tests before their end, and nested regions lose the
    branches. Neither is met before the second run. -/
theorem generate_unrepeatable :
    (∃ a ws, (generate closingNamed catalog (.ofKeys [.plain 0x00])).result = .ok a ∧
      (∃ l ∈ splitLines a.tests.toList, Marked MarkerPair.tests.closing.toList l) ∧
      (spliceArtifacts Failures.never.files {} a).run (.ofTargets routingFile testingFile) =
        (.ok ws, .ofTargets routingFile testingFile) ∧
      ∀ e : Disk, (∀ w ∈ ws, e.content (FilePath.parts w.path) = some w.text) →
        (spliceArtifacts Failures.never.files {} a).run e ≠ (.ok ws, e)) ∧
    ∃ a ws, (generate closingNamed catalog (.ofKeys [.plain 0x37])).result = .ok a ∧
      Unmarked a.decode.toList ∧ Unmarked a.execution.toList ∧ Unmarked a.tests.toList ∧
      (spliceArtifacts Failures.never.files {} a).run (.ofTargets nestedFile testingFile) =
        (.ok ws, .ofTargets nestedFile testingFile) ∧
      ∀ e : Disk, (∀ w ∈ ws, e.content (FilePath.parts w.path) = some w.text) →
        (spliceArtifacts Failures.never.files {} a).run e ≠ (.ok ws, e) := by
  constructor
  · have hc : (.plain 0x00, "    // __TESTS_REPLACEMENT_END__ [0x00]") ∈ closingNamedComments := by
      decide
    obtain ⟨a, ha, hlines, _⟩ := exists_generated_closingNamed hc
    obtain ⟨cpu, hcpu⟩ := exists_spliced_routingFile a.decode a.execution
    obtain ⟨tests, htests⟩ := exists_spliced_testingFile a.tests
    have hline : ∃ l ∈ splitLines "    // __TESTS_REPLACEMENT_END__ [0x00]".toList,
        Marked MarkerPair.tests.closing.toList l := by decide
    obtain ⟨l, hl, hmarked⟩ := hline
    have hl := hlines l hl
    refine ⟨a, _, ha, ⟨l, hl, hmarked⟩, run_ofTargets hcpu htests, fun e he hrun => ?_⟩
    obtain ⟨_, hgives⟩ := spliceArtifacts_eq_ok.mp hrun
    rw [defaultTargets] at hgives
    obtain ⟨_, hgives⟩ := List.forall₂_cons.mp hgives
    obtain ⟨⟨_, text, htext, hall⟩, _⟩ := List.forall₂_cons.mp hgives
    have hfile := he ⟨"src/cpu/tests.rs", tests⟩ (List.mem_cons_of_mem _ List.mem_cons_self)
    obtain rfl := Option.some.inj (htext.symm.trans hfile)
    obtain ⟨new, hnew, hnil⟩ := Option.bind_eq_some_iff.mp hall
    obtain rfl := Option.some.inj hnil
    exact splice?_ne_self (MarkerPair.proper_of_mem (by decide)) (by decide) hl hmarked _ hnew
  · have hc : (.plain 0x37, "    // SCF [0x37]") ∈ closingNamedComments := by decide
    obtain ⟨a, ha, _, hcomments⟩ := exists_generated_closingNamed hc
    obtain ⟨hdecode, hexecution, t, ht, hunmarked⟩ := generate_unmarked ha
    have hplain : Unmarked "    // SCF [0x37]".toList := by
      unfold Unmarked
      decide
    obtain ⟨cpu, hcpu, hgone⟩ := exists_spliced_nestedFile hdecode hexecution
    obtain ⟨tests, htests⟩ := exists_spliced_testingFile a.tests
    refine ⟨a, _, ha, hdecode, hexecution, hunmarked.mpr (hcomments t ht hplain),
      run_ofTargets hcpu htests, fun e he hrun => ?_⟩
    obtain ⟨_, hgives⟩ := spliceArtifacts_eq_ok.mp hrun
    rw [defaultTargets] at hgives
    obtain ⟨⟨_, text, htext, hall⟩, _⟩ := List.forall₂_cons.mp hgives
    have hfile := he ⟨"src/cpu.rs", cpu⟩ List.mem_cons_self
    obtain rfl := Option.some.inj (htext.symm.trans hfile)
    obtain ⟨_, hnew, _⟩ := Option.bind_eq_some_iff.mp hall
    cases (hgone a.decode).symm.trans hnew

end Sm83Codegen
