import Sm83Codegen.Proofs.Generation

/-!
# Generating some opcodes

A generation for some opcodes is the generation for all of them with the other opcodes left out:
the same pieces, in the same order, or the same fault.

* `ofKeys_keys` -- a selection holds its keys in ascending order, each once;
* `ClaimedTable.Unowned`, `checkSelected_unowned` -- the first key that cannot be generated is
  reported;
* `testBlock_error` -- tests fail for their fixtures only: for what is missing or what is wrong;
* `sectionOf_ofKeys`, `generateFamilies_error` -- what a selection changes of a family, and of a
  fault;
* `assemble_ofClaimed` -- what does not depend on the selection comes first;
* `Artifacts.MadeOf`, `artifacts_restrict` -- the texts of some opcodes;
* `generate_filtered` -- the generation for some opcodes, from that for all.
-/

namespace Sm83Codegen

open Logged (bind_eq_ok bind_eq_error)

/-! ## 1. Selections -/

namespace Selection

theorem mem_insertKey {k l : OpcodeKey} {ks : List OpcodeKey} :
    l ∈ insertKey k ks ↔ l = k ∨ l ∈ ks := by
  induction ks with
  | nil => simp [insertKey]
  | cons x ks ih =>
    unfold insertKey
    split
    · exact List.mem_cons
    · split
      · next hx =>
        rw [beq_iff_eq.mp hx, List.mem_cons]
        tauto
      · rw [List.mem_cons, ih, List.mem_cons]
        tauto

theorem insertKey_ascending {k : OpcodeKey} {ks : List OpcodeKey}
    (h : Ascending ks) : Ascending (insertKey k ks) := by
  induction ks with
  | nil => exact List.pairwise_singleton _ _
  | cons x ks ih =>
    obtain ⟨hx, hks⟩ := List.pairwise_cons.mp h
    unfold insertKey
    split
    · next hb =>
      have hlt : k.rank < x.rank := of_decide_eq_true hb
      refine List.pairwise_cons.mpr ⟨fun l hl => ?_, h⟩
      rcases List.mem_cons.mp hl with rfl | hl
      · exact hlt
      · exact Nat.lt_trans hlt (hx l hl)
    · next hb =>
      split
      · exact h
      · next hne =>
        have hle : ¬k.rank < x.rank := fun hlt => hb (decide_eq_true hlt)
        have hrank : k.rank ≠ x.rank := fun he => hne (beq_iff_eq.mpr (OpcodeKey.rank_inj he))
        refine List.pairwise_cons.mpr ⟨fun l hl => ?_, ih hks⟩
        rcases mem_insertKey.mp hl with rfl | hl
        · omega
        · exact hx l hl

theorem foldl_insertKey (F : List OpcodeKey) {ks : List OpcodeKey}
    (h : Ascending ks) :
    Ascending (F.foldl (fun l k => insertKey k l) ks) ∧
      ∀ k, k ∈ F.foldl (fun l k => insertKey k l) ks ↔ k ∈ ks ∨ k ∈ F := by
  induction F generalizing ks with
  | nil => exact ⟨h, fun k => by simp⟩
  | cons x F ih =>
    obtain ⟨hasc, hmem⟩ := ih (insertKey_ascending (k := x) h)
    refine ⟨hasc, fun k => ?_⟩
    rw [List.foldl_cons, hmem, mem_insertKey, List.mem_cons]
    tauto

/-- A selection holds its keys in ascending order. -/
theorem ofKeys_keys (F : List OpcodeKey) :
    ∃ ks, (ofKeys F).keys = some ks ∧ Ascending ks ∧ ∀ k, k ∈ ks ↔ k ∈ F := by
  obtain ⟨hasc, hmem⟩ := foldl_insertKey F List.Pairwise.nil
  exact ⟨_, rfl, hasc, fun k => by rw [hmem]; simp⟩

theorem selects_ofKeys (F : List OpcodeKey) (k : OpcodeKey) :
    (ofKeys F).selects k = F.contains k := by
  obtain ⟨ks, hks, _, hmem⟩ := ofKeys_keys F
  unfold selects
  rw [hks]
  have hiff : ks.contains k = true ↔ F.contains k = true := by
    rw [List.contains_iff_mem, List.contains_iff_mem, hmem]
  exact Bool.eq_iff_iff.mpr hiff

end Selection

/-! ## 2. Gaps -/

namespace ClaimedTable

/-- No family has a key: it is in no slot, or in one that is free. -/
def Unowned (c : ClaimedTable) (k : OpcodeKey) : Prop := ∀ s, c.find? k = some s → s.owner = none

/-- What is reported of a key that no family has: its record, or that there is none. -/
def gapText (c : ClaimedTable) (k : OpcodeKey) : String :=
  match c.find? k with
  | some s => s.record.assembly
  | none => "opcode not in table"

/-- A key that some family has is passed over. -/
theorem checkSelected_cons {c : ClaimedTable} {k : OpcodeKey} (h : ¬c.Unowned k)
    (ks : List OpcodeKey) : checkSelected c (k :: ks) = checkSelected c ks := by
  unfold Unowned at h
  push Not at h
  obtain ⟨s, hs, ho⟩ := h
  rw [checkSelected, hs]
  exact if_pos (Option.isSome_iff_ne_none.mpr ho)

theorem checkSelected_eq_ok {c : ClaimedTable} {ks : List OpcodeKey}
    (h : ∀ k ∈ ks, ¬c.Unowned k) : checkSelected c ks = .ok () := by
  induction ks with
  | nil => rfl
  | cons k ks ih =>
    rw [checkSelected_cons (h k List.mem_cons_self)]
    exact ih fun l hl => h l (List.mem_cons_of_mem _ hl)

/-- **The least key that no family has is reported.** -/
theorem checkSelected_unowned {c : ClaimedTable} {ks : List OpcodeKey}
    (hks : Ascending ks) (h : ∃ k ∈ ks, c.Unowned k) :
    ∃ k ∈ ks, c.Unowned k ∧ (∀ l ∈ ks, c.Unowned l → k.rank ≤ l.rank) ∧
      checkSelected c ks = .error (.authoringGap (c.gapText k) k.display) := by
  induction ks with
  | nil =>
    obtain ⟨k, hk, _⟩ := h
    exact absurd hk List.not_mem_nil
  | cons k ks ih =>
    obtain ⟨hfirst, hrest⟩ := List.pairwise_cons.mp hks
    by_cases hk : c.Unowned k
    · refine ⟨k, List.mem_cons_self, hk, fun l hl _ => ?_, ?_⟩
      · rcases List.mem_cons.mp hl with rfl | hl
        · exact Nat.le_refl _
        · exact Nat.le_of_lt (hfirst l hl)
      · unfold checkSelected gapText
        cases hs : c.find? k with
        | none => rfl
        | some s =>
          show (if s.owner.isSome then _ else _) = _
          rw [hk s hs]
          rfl
    · have hother : ∀ l ∈ k :: ks, c.Unowned l → l ∈ ks := fun l hl hgap => by
        rcases List.mem_cons.mp hl with rfl | hl
        · exact absurd hgap hk
        · exact hl
      obtain ⟨l, hl, hgap⟩ := h
      obtain ⟨least, hmem, hunowned, hleast, hcheck⟩ := ih hrest ⟨l, hother l hl hgap, hgap⟩
      rw [checkSelected_cons hk]
      exact ⟨least, List.mem_cons_of_mem _ hmem, hunowned,
        fun x hx hgap => hleast x (hother x hx hgap) hgap, hcheck⟩

end ClaimedTable

/-- A family of a catalog has a key. -/
def Claimed (catalog : List Family) (k : OpcodeKey) : Prop := ∃ f ∈ catalog, k ∈ f.keys

/-- After loading, the keys that no family of the catalog has are the gaps. -/
theorem unowned_iff {text : String} {catalog : List Family} {c : ClaimedTable}
    (h : (ClaimedTable.load text catalog).result = .ok c) (k : OpcodeKey) :
    c.Unowned k ↔ ¬Claimed catalog k := by
  obtain ⟨t, _, _, _, hclaims, _⟩ := claims_of_load h
  have hkey : ∀ s, c.find? k = some s → s ∈ c.slots ∧ s.record.key = k := by
    intro s hs
    unfold ClaimedTable.find? at hs
    have hsame := List.find?_some hs
    exact ⟨List.mem_of_find?_eq_some hs, OpcodeKey.same_iff.mp hsame⟩
  constructor
  · rintro hgap ⟨f, hf, hk⟩
    obtain ⟨i, hi⟩ := List.mem_iff_getElem?.mp hf
    obtain ⟨s, hs, hsk⟩ := hclaims.found i k ⟨f, hi, hk⟩
    cases hfind : c.find? k with
    | none =>
      exact List.find?_eq_none.mp hfind s hs (OpcodeKey.same_iff.mpr hsk)
    | some s' =>
      obtain ⟨hs', rfl⟩ := hkey s' hfind
      have hown := (hclaims.owner s' hs' i).mpr ⟨f, hi, hk⟩
      rw [hgap s' hfind] at hown
      cases hown
  · intro hnot s hs
    obtain ⟨hs', rfl⟩ := hkey s hs
    cases ho : s.owner with
    | none => rfl
    | some i =>
      obtain ⟨f, hf, hk⟩ := (hclaims.owner s hs' i).mp ho
      exact absurd ⟨f, List.mem_of_getElem? hf, hk⟩ hnot

theorem reportGaps_result (gs : List Gap) : (reportGaps gs).result = .ok () := by
  induction gs with
  | nil => rfl
  | cons g gs ih =>
    unfold reportGaps
    rw [Logged.result_bind, Logged.result_note]
    exact ih

/-- A selection of all opcodes, or of some that are claimed. -/
def Selection.OfClaimed (catalog : List Family) (s : Selection) : Prop :=
  ∀ ks, s.keys = some ks → ∀ k ∈ ks, Claimed catalog k

theorem Selection.ofClaimed_all (catalog : List Family) : Selection.OfClaimed catalog {} :=
  fun _ h => by cases h

theorem Selection.ofClaimed_ofKeys {catalog : List Family} {F : List OpcodeKey}
    (hF : ∀ k ∈ F, Claimed catalog k) : Selection.OfClaimed catalog (.ofKeys F) := by
  obtain ⟨ks, hks, _, hmem⟩ := Selection.ofKeys_keys F
  intro ks' hks' k hk
  cases hks.symm.trans hks'
  exact hF k ((hmem k).mp hk)

/-- If all opcodes are selected, gaps are only reported; claimed ones have none. -/
theorem checkGaps_eq_ok {text : String} {catalog : List Family} {c : ClaimedTable}
    (h : (ClaimedTable.load text catalog).result = .ok c) {s : Selection}
    (hs : s.OfClaimed catalog) : (checkGaps c s).result = .ok () := by
  unfold checkGaps
  cases hks : s.keys with
  | none => exact reportGaps_result (gapsOf c)
  | some ks =>
    exact ClaimedTable.checkSelected_eq_ok fun k hk hgap =>
      (unowned_iff h k).mp hgap (hs ks hks k hk)

/-! ## 3. Faults of fixtures -/

section Faults

variable {α β : Type} {d : Descriptor} {m : Member}

/-- A computation fails for these reasons only. -/
def FailsWith (P : GenerationError → Prop) (r : Except GenerationError α) : Prop :=
  ∀ e, r = .error e → P e

/-- A fixture of a member is reported as wrong. -/
def Descriptor.ReportsWrong (d : Descriptor) (m : Member) (e : GenerationError) : Prop :=
  ∃ reason, e = .invalidFixture d.family.name m.key reason

/-- A fixture of a member is reported as missing. -/
def Descriptor.ReportsMissing (d : Descriptor) (m : Member) (e : GenerationError) : Prop :=
  ∃ reason, e = .testFixtureMissing d.family.name m.key reason

theorem failsWith_ok {P : GenerationError → Prop} (a : α) :
    FailsWith P (.ok a : Except GenerationError α) :=
  fun e h => by cases h

theorem failsWith_wrongFixture (reason : String) :
    FailsWith (d.ReportsWrong m) (d.wrongFixture m reason : Except GenerationError α) :=
  fun _ h => ⟨reason, (Except.error.inj h).symm⟩

theorem failsWith_missingFixture (reason : String) :
    FailsWith (d.ReportsMissing m) (d.missingFixture m reason : Except GenerationError α) :=
  fun _ h => ⟨reason, (Except.error.inj h).symm⟩

theorem FailsWith.bind {P : GenerationError → Prop} {r : Except GenerationError α}
    {f : α → Except GenerationError β} (hr : FailsWith P r) (hf : ∀ a, FailsWith P (f a)) :
    FailsWith P (r >>= f) := by
  intro e h
  rcases bind_eq_error.mp h with h | ⟨a, _, h⟩
  · exact hr e h
  · exact hf a e h

theorem checkRegisters_wrong (uses : List (String × Bool)) :
    FailsWith (d.ReportsWrong m) (d.checkRegisters m uses) := by
  induction uses with
  | nil => exact failsWith_ok ()
  | cons u uses ih =>
    obtain ⟨r, isWide⟩ := u
    unfold Descriptor.checkRegisters
    split
    all_goals
      split
      · exact ih
      · exact failsWith_wrongFixture _

theorem caseCycles_wrong (k : ScenarioKind) (s : Scenario) :
    FailsWith (d.ReportsWrong m) (d.caseCycles m k s) := by
  unfold Descriptor.caseCycles
  split
  · exact failsWith_ok _
  · split
    · exact failsWith_ok _
    · split
      · exact failsWith_ok _
      · exact failsWith_wrongFixture _
    · exact failsWith_wrongFixture _

theorem addFixed_wrong (k : ScenarioKind) (s : Scenario) (c : Descriptor.CaseState)
    (fs : List (Flag × Bool)) : FailsWith (d.ReportsWrong m) (d.addFixed m k s c fs) := by
  induction fs generalizing c with
  | nil => exact failsWith_ok c
  | cons f fs ih =>
    obtain ⟨f, v⟩ := f
    unfold Descriptor.addFixed
    dsimp only
    split
    · split
      · exact failsWith_wrongFixture _
      · exact ih _
    · exact ih _

theorem testCase_wrong (k : ScenarioKind) (s : Scenario) :
    FailsWith (d.ReportsWrong m) (d.testCase m k s) := by
  unfold Descriptor.testCase
  split
  · exact failsWith_wrongFixture _
  · exact (checkRegisters_wrong _).bind fun _ => (caseCycles_wrong k s).bind fun _ =>
      (addFixed_wrong k s _ _).bind fun _ => failsWith_ok _

/-- The cases of scenarios fail for what is wrong with one of them. -/
theorem testCases_wrong (seen : List (ScenarioKind × Option String))
    (ss : List (ScenarioKind × Scenario)) :
    FailsWith (d.ReportsWrong m) (d.testCases m seen ss).result := by
  induction ss generalizing seen with
  | nil => exact failsWith_ok []
  | cons s ss ih =>
    obtain ⟨k, s⟩ := s
    unfold Descriptor.testCases
    split
    · exact failsWith_wrongFixture _
    · dsimp only
      split
      · rw [Logged.result_bind]
        exact ih _
      · rw [Logged.result_bind]
        refine (testCase_wrong k s).bind fun c => ?_
        rw [Logged.result_bind]
        exact (ih _).bind fun _ => failsWith_ok _

theorem checkFlagCases_missing (fx : Fixtures) (fs : List Flag) :
    FailsWith (d.ReportsMissing m) (d.checkFlagCases m fx fs) := by
  induction fs with
  | nil => exact failsWith_ok ()
  | cons f fs ih =>
    unfold Descriptor.checkFlagCases
    split
    · exact ih
    · exact failsWith_missingFixture _

/-- The coverage check fails for what is missing. -/
theorem checkCoverage_missing (fx : Fixtures) :
    FailsWith (d.ReportsMissing m) (d.checkCoverage m fx) := by
  unfold Descriptor.checkCoverage
  split
  · exact failsWith_missingFixture _
  · refine (checkFlagCases_missing fx _).bind fun _ => ?_
    split
    · dsimp only
      split
      · exact failsWith_missingFixture _
      · split
        · exact failsWith_missingFixture _
        · exact failsWith_ok _
    · exact failsWith_ok _

/-- **The tests of a member fail for their coverage, or for a scenario that is wrong.** -/
theorem testBlock_error {e : GenerationError} (h : (d.testBlock m).result = .error e) :
    d.ReportsMissing m e ∧ d.checkCoverage m (d.family.fixtures m.operands) = .error e ∨
      d.ReportsWrong m e := by
  unfold Descriptor.testBlock at h
  dsimp only at h
  split at h
  · exact .inr (failsWith_wrongFixture _ e h)
  · simp only [Logged.result_bind, Logged.result_lift, bind_eq_error] at h
    obtain hcoverage | ⟨_, _, hcases | ⟨_, _, h⟩⟩ := h
    · exact .inl ⟨checkCoverage_missing _ e hcoverage, hcoverage⟩
    · exact .inr (testCases_wrong _ _ e hcases)
    · cases h

/-- A computation fails for its fixtures only. -/
def FixtureFault (r : Except GenerationError α) : Prop :=
  ∀ e, r = .error e → e.faultClass = .testFixtureMissing

theorem testBlock_fixtureFault (d : Descriptor) (m : Member) :
    FixtureFault (d.testBlock m).result := by
  intro e h
  obtain ⟨⟨_, rfl⟩, _⟩ | ⟨_, rfl⟩ := testBlock_error h
  · rfl
  · rfl

theorem collect_fixtureFault {f : α → Logged β} (h : ∀ a, FixtureFault (f a).result)
    (as : List α) : FixtureFault (Logged.collect f as).result := by
  induction as with
  | nil => exact failsWith_ok []
  | cons a as ih =>
    rw [Logged.collect_cons, Logged.result_bind]
    refine FailsWith.bind (h a) fun b => ?_
    rw [Logged.result_bind]
    exact FailsWith.bind ih fun _ => failsWith_ok _

end Faults

/-! ## 4. What a selection changes -/

/-- The descriptors of a catalog, without a look at what is selected. -/
def descriptorsOfText (text : String) (catalog : List Family) :
    Except GenerationError (List Descriptor) := do
  checkCatalog catalog
  let c ← (ClaimedTable.load text catalog).result
  (descriptorsOf c catalog).result

/-- If no gap can be a fault, a selection matters only once the descriptors are there. -/
theorem assemble_ofClaimed {text : String} {catalog : List Family} {s : Selection}
    (hs : s.OfClaimed catalog) : (assemble text catalog s).result =
      descriptorsOfText text catalog >>= fun ds => (generateFamilies s ds).result := by
  rw [assemble_result]
  unfold descriptorsOfText
  cases checkCatalog catalog with
  | error e => rfl
  | ok u =>
    cases hl : (ClaimedTable.load text catalog).result with
    | error e => rfl
    | ok c =>
      show ((checkGaps c s).result >>= fun _ => _) = _
      rw [checkGaps_eq_ok hl hs]
      rfl

/-- A family that is ready for all opcodes is ready for some. -/
theorem Descriptor.Ready.of_all {d : Descriptor} (h : d.Ready {}) (s : Selection) : d.Ready s :=
  ⟨h.flags, fun m hm _ => h.tests m hm rfl⟩

/-- What is generated for some members of a family whose flags can be computed. -/
def generateMembers (d : Descriptor) (ms : List Member) : Logged Generated :=
  if ms.isEmpty then pure .empty
  else do
    let tests ← Logged.collect d.testBlock ms
    pure ⟨ms.map d.branch, [d.routine], tests⟩

theorem generateFamily_result (s : Selection) (d : Descriptor) :
    (generateFamily s d).result = d.checkFlags >>= fun _ =>
      (generateMembers d (d.members.filter (fun m => s.selects m.key))).result := by
  unfold generateFamily
  rw [Logged.result_bind, Logged.result_lift]
  rfl

theorem generateMembers_fixtureFault (d : Descriptor) (ms : List Member) :
    FixtureFault (generateMembers d ms).result := by
  unfold generateMembers
  split
  · exact failsWith_ok _
  · rw [Logged.result_bind]
    exact FailsWith.bind (collect_fixtureFault (testBlock_fixtureFault d) ms) fun _ =>
      failsWith_ok _

/-- A family that fails for another reason than its fixtures fails whatever is selected. -/
theorem generateFamily_error {d : Descriptor} {e : GenerationError}
    (h : (generateFamily {} d).result = .error e) (he : e.faultClass ≠ .testFixtureMissing)
    (s : Selection) : (generateFamily s d).result = .error e := by
  rw [generateFamily_result] at h ⊢
  rcases bind_eq_error.mp h with hflags | ⟨_, _, htests⟩
  · exact bind_eq_error.mpr (.inl hflags)
  · exact absurd (generateMembers_fixtureFault d _ e htests) he

theorem generateFamilies_error {ds : List Descriptor} {e : GenerationError}
    (h : (generateFamilies {} ds).result = .error e) (he : e.faultClass ≠ .testFixtureMissing)
    (s : Selection) : (generateFamilies s ds).result = .error e := by
  induction ds with
  | nil => cases h
  | cons d ds ih =>
    unfold generateFamilies at h ⊢
    rw [Logged.result_bind] at h ⊢
    rcases bind_eq_error.mp h with hd | ⟨g, hd, hrest⟩
    · exact bind_eq_error.mpr (.inl (generateFamily_error hd he s))
    · have hready := (generateFamily_eq_ok.mp hd).1.of_all s
      rw [Logged.result_bind] at hrest
      refine bind_eq_error.mpr (.inr ⟨_, generateFamily_eq_ok.mpr ⟨hready, rfl⟩, ?_⟩)
      rw [Logged.result_bind]
      rcases bind_eq_error.mp hrest with hds | ⟨_, _, hdone⟩
      · exact bind_eq_error.mpr (.inl (ih hds))
      · cases hdone

/-- The section of some opcodes has the pieces of these opcodes. -/
theorem sectionOf_ofKeys (F : List OpcodeKey) (d : Descriptor) :
    d.sectionOf (.ofKeys F) = (d.sectionOf {}).restrict F.contains := by
  unfold Descriptor.sectionOf Section.restrict
  have hall : d.members.filter (fun m => ({} : Selection).selects m.key) = d.members :=
    List.filter_eq_self.mpr fun m _ => rfl
  rw [hall]
  dsimp only
  rw [List.filter_map]
  simp only [Selection.selects_ofKeys]
  rfl

/-! ## 5. The texts of some opcodes -/

/-- Texts are those of some opcodes of sections: their branches one after the other, their test
    blocks with an empty line between two, and so the routines of the sections that have one of
    these opcodes. -/
structure Artifacts.MadeOf (a : Artifacts) (selects : OpcodeKey → Bool) (xs : List Section) :
    Prop where
  decode : a.decode = String.join
    (xs.flatMap fun x => (x.pieces.filter fun p => selects p.key).map fun p => p.branch.text)
  execution : a.execution = String.intercalate "\n"
    ((xs.filter fun x => x.pieces.any fun p => selects p.key).map fun x => x.routine.text)
  tests : a.tests = String.intercalate "\n"
    (xs.flatMap fun x => (x.pieces.filter fun p => selects p.key).map fun p => p.tests.text)

theorem Section.restrict_isEmpty (selects : OpcodeKey → Bool) (x : Section) :
    (!(x.restrict selects).pieces.isEmpty) = x.pieces.any fun p => selects p.key := by
  rw [Bool.eq_iff_iff, Bool.not_eq_true', List.isEmpty_eq_false_iff_exists_mem, List.any_eq_true]
  exact exists_congr fun p => List.mem_filter

/-- The texts of sections with the pieces of some opcodes. -/
theorem artifacts_restrict (selects : OpcodeKey → Bool) (xs : List Section) :
    (Generated.ofSections (xs.map (Section.restrict selects))).artifacts.MadeOf selects xs where
  decode := by
    unfold Generated.artifacts Generated.ofSections
    simp only [List.flatMap_map, List.map_flatMap, List.map_map]
    rfl
  execution := by
    unfold Generated.artifacts Generated.ofSections
    simp only [List.filter_map, List.map_map, Function.comp_def, Section.restrict_isEmpty]
    rfl
  tests := by
    unfold Generated.artifacts Generated.ofSections
    simp only [List.flatMap_map, List.map_flatMap, List.map_map]
    rfl

/-- The texts of sections are those of all their opcodes. -/
theorem artifacts_ofSections (xs : List Section) :
    (Generated.ofSections xs).artifacts.MadeOf (fun _ => true) xs := by
  have hall : xs.map (Section.restrict fun _ => true) = xs := by
    refine List.map_id'' (fun x => ?_) xs
    unfold Section.restrict
    rw [List.filter_true]
  have hmade := artifacts_restrict (fun _ => true) xs
  rwa [hall] at hmade

/-! ## 6. Some opcodes, from all of them -/

section Filtered

variable {text : String} {catalog : List Family} {F : List OpcodeKey}

theorem generate_eq_error {s : Selection} {e : GenerationError} :
    (generate text catalog s).result = .error e ↔ (assemble text catalog s).result = .error e := by
  rw [generate_result, bind_eq_error]
  constructor
  · rintro (h | ⟨g, _, h⟩)
    · exact h
    · cases h
  · exact .inl

/-- Claimed opcodes are generated as they are with all the others. -/
theorem generate_claimed (hF : ∀ k ∈ F, Claimed catalog k) {a : Artifacts}
    (h : (generate text catalog {}).result = .ok a) :
    ∃ xs, List.Forall₂ (Section.IsOf {}) catalog xs ∧
      (assemble text catalog {}).result = .ok (Generated.ofSections xs) ∧
      a = (Generated.ofSections xs).artifacts ∧ a.MadeOf (fun _ => true) xs ∧
      ∃ b, (generate text catalog (.ofKeys F)).result = .ok b ∧
        b = (Generated.ofSections (xs.map (Section.restrict F.contains))).artifacts ∧
        b.MadeOf F.contains xs := by
  obtain ⟨g, hg, rfl⟩ := generate_eq_ok.mp h
  obtain ⟨c, ds, hp, _, hready, rfl⟩ := assemble_eq_ok.mp hg
  refine ⟨_, hp.forall₂_isOf hready, hg, rfl, artifacts_ofSections _, _,
    generate_eq_ok.mpr ⟨_, ?_, rfl⟩, rfl, artifacts_restrict _ _⟩
  have hgaps := checkGaps_eq_ok hp.loaded (Selection.ofClaimed_ofKeys hF)
  have hready' : ∀ d ∈ ds, d.Ready (.ofKeys F) := fun d hd => (hready d hd).of_all _
  refine assemble_eq_ok.mpr ⟨c, ds, hp, hgaps, hready', congrArg _ ?_⟩
  rw [List.map_map]
  exact List.map_congr_left fun d _ => (sectionOf_ofKeys F d).symm

/-- A fault that is not one of fixtures is met whatever is selected. -/
theorem generate_fault (hF : ∀ k ∈ F, Claimed catalog k) {e : GenerationError}
    (h : (generate text catalog {}).result = .error e)
    (he : e.faultClass ≠ .testFixtureMissing) :
    (generate text catalog (.ofKeys F)).result = .error e := by
  rw [generate_eq_error, assemble_ofClaimed (Selection.ofClaimed_all catalog)] at h
  rw [generate_eq_error, assemble_ofClaimed (Selection.ofClaimed_ofKeys hF)]
  rcases bind_eq_error.mp h with hds | ⟨ds, hds, hg⟩
  · exact bind_eq_error.mpr (.inl hds)
  · exact bind_eq_error.mpr (.inr ⟨ds, hds, generateFamilies_error hg he _⟩)

/-- Every family is merged and its flags are checked, whatever is selected. -/
theorem generate_merges {s : Selection} {a : Artifacts}
    (h : (generate text catalog s).result = .ok a) :
    ∃ c, (ClaimedTable.load text catalog).result = .ok c ∧ ∀ i f, catalog[i]? = some f →
      ∃ d, (Descriptor.merge f (c.members i)).result = .ok d ∧ d.checkFlags = .ok () := by
  obtain ⟨g, hg, rfl⟩ := generate_eq_ok.mp h
  obtain ⟨c, ds, hp, _, hready, _⟩ := assemble_eq_ok.mp hg
  refine ⟨c, hp.loaded, fun i f hf => ?_⟩
  obtain ⟨d, hd, hmerge⟩ := descriptorsFrom_merges hp.merged hf
  rw [Nat.zero_add] at hmerge
  exact ⟨d, hmerge, (hready d hd).flags⟩

/-- The least key that no family has ends the generation. -/
theorem generate_unowned {c : ClaimedTable} (hc : checkCatalog catalog = .ok ())
    (hl : (ClaimedTable.load text catalog).result = .ok c) (h : ∃ k ∈ F, c.Unowned k) :
    ∃ k ∈ F, c.Unowned k ∧ (∀ l ∈ F, c.Unowned l → k.rank ≤ l.rank) ∧
      (generate text catalog (.ofKeys F)).result =
        .error (.authoringGap (c.gapText k) k.display) := by
  obtain ⟨ks, hks, hasc, hmem⟩ := Selection.ofKeys_keys F
  simp only [← hmem] at h ⊢
  obtain ⟨k, hk, hunowned, hleast, hcheck⟩ := ClaimedTable.checkSelected_unowned hasc h
  refine ⟨k, hk, hunowned, hleast, ?_⟩
  have hgaps : (checkGaps c (.ofKeys F)).result =
      .error (.authoringGap (c.gapText k) k.display) := by
    unfold checkGaps
    rw [hks]
    exact hcheck
  rw [generate_eq_error, assemble_result]
  refine bind_eq_error.mpr (.inr ⟨(), hc, bind_eq_error.mpr (.inr ⟨c, hl, ?_⟩)⟩)
  exact bind_eq_error.mpr (.inl hgaps)

end Filtered

/-- The faults of fixtures are these two. -/
theorem faultClass_eq_testFixtureMissing {e : GenerationError}
    (h : e.faultClass = .testFixtureMissing) :
    ∃ f k r, e = .invalidFixture f k r ∨ e = .testFixtureMissing f k r := by
  cases e with
  | testFixtureMissing f k r => exact ⟨f, k, r, .inr rfl⟩
  | invalidFixture f k r => exact ⟨f, k, r, .inl rfl⟩
  | _ => cases h

/-- **The generation for some opcodes is that for all, with the others left out.** If they all are
    claimed, the texts are made of what is generated for them with all others, unchanged and in the
    same order, and of the routines of their families; and the same fault is met, unless it is one of fixtures. Whatever is selected,
    every family merges and its flags are checked. If some are not in the table or not claimed, the
    least of them is the fault. -/
theorem generate_filtered (text : String) (catalog : List Family) (F : List OpcodeKey) :
    ((∀ k ∈ F, Claimed catalog k) → ∀ a, (generate text catalog {}).result = .ok a →
      ∃ xs, List.Forall₂ (Section.IsOf {}) catalog xs ∧
        (assemble text catalog {}).result = .ok (Generated.ofSections xs) ∧
        a = (Generated.ofSections xs).artifacts ∧ a.MadeOf (fun _ => true) xs ∧
        ∃ b, (generate text catalog (.ofKeys F)).result = .ok b ∧
          b = (Generated.ofSections (xs.map (Section.restrict F.contains))).artifacts ∧
          b.MadeOf F.contains xs) ∧
    ((∀ k ∈ F, Claimed catalog k) → ∀ e, (generate text catalog {}).result = .error e →
      (∀ f k r, e ≠ .invalidFixture f k r) → (∀ f k r, e ≠ .testFixtureMissing f k r) →
        (generate text catalog (.ofKeys F)).result = .error e) ∧
    (∀ a, (generate text catalog (.ofKeys F)).result = .ok a →
      ∃ c, (ClaimedTable.load text catalog).result = .ok c ∧ ∀ i f, catalog[i]? = some f →
        ∃ d, (Descriptor.merge f (c.members i)).result = .ok d ∧ d.checkFlags = .ok ()) ∧
    ∀ c, checkCatalog catalog = .ok () → (ClaimedTable.load text catalog).result = .ok c →
      (∃ k ∈ F, c.find? k = none ∨ ¬Claimed catalog k) →
      ∃ k ∈ F, (c.find? k = none ∨ ¬Claimed catalog k) ∧
        (∀ l ∈ F, c.find? l = none ∨ ¬Claimed catalog l → k.rank ≤ l.rank) ∧
        (generate text catalog (.ofKeys F)).result =
          .error (.authoringGap (c.gapText k) k.display) := by
  refine ⟨fun hF a h => generate_claimed hF h, fun hF e h hinvalid hmissing => ?_,
    fun a h => generate_merges h, fun c hc hl h => ?_⟩
  · refine generate_fault hF h fun hclass => ?_
    obtain ⟨f, k, r, he | he⟩ := faultClass_eq_testFixtureMissing hclass
    · exact hinvalid f k r he
    · exact hmissing f k r he
  · have hunowned : ∀ k, (c.find? k = none ∨ ¬Claimed catalog k) ↔ c.Unowned k := by
      intro k
      rw [unowned_iff hl, or_iff_right_of_imp]
      intro hnone
      rw [← unowned_iff hl]
      intro s hs
      rw [hnone] at hs
      cases hs
    simp only [hunowned] at h ⊢
    exact generate_unowned hc hl h

/-- SCF alone is generated as it is with NOP. If NOP computes a flag that nothing can compute, that
    is a fault for SCF alone as well. HALT is the first of two opcodes that cannot be generated. -/
theorem generate_filtered_threeRows :
    (∃ a b xs, (generate (threeRows "-") twoFamilies {}).result = .ok a ∧
      List.Forall₂ (Section.IsOf {}) twoFamilies xs ∧ a = (Generated.ofSections xs).artifacts ∧
      a.MadeOf (fun _ => true) xs ∧
      (generate (threeRows "-") twoFamilies (.ofKeys [.plain 0x37])).result = .ok b ∧
      b = (Generated.ofSections
        (xs.map (Section.restrict [OpcodeKey.plain 0x37].contains))).artifacts ∧
      b.MadeOf [OpcodeKey.plain 0x37].contains xs) ∧
    (generate (threeRows "H") twoFamilies (.ofKeys [.plain 0x37])).result =
      .error (.flagSpecViolation "NOP" .H
        "computed, with neither a carry width nor self-management") ∧
    ∃ c, (ClaimedTable.load (threeRows "-") twoFamilies).result = .ok c ∧
      (generate (threeRows "-") twoFamilies (.ofKeys [.paged 0x37, .plain 0x76])).result =
        .error (.authoringGap (c.gapText (.plain 0x76)) "0x76") := by
  have hF : ∀ k ∈ [OpcodeKey.plain 0x37], Claimed twoFamilies k := by
    show ∀ k ∈ [OpcodeKey.plain 0x37], ∃ f ∈ twoFamilies, k ∈ f.keys
    decide
  refine ⟨?_, ?_, ?_⟩
  · obtain ⟨a, ha⟩ := exists_generated
    obtain ⟨xs, hxs, _, hax, hmade, b, hb⟩ := (generate_filtered _ _ [.plain 0x37]).1 hF a ha
    exact ⟨a, b, xs, ha, hxs, hax, hmade, hb⟩
  · refine (generate_filtered _ _ [.plain 0x37]).2.1 hF _ ?_
      (fun _ _ _ h => by cases h) (fun _ _ _ h => by cases h)
    rw [generate_result, assemble_ofTable ofText_threeRows.2]
    decide
  · obtain ⟨c, hc⟩ : ∃ c, (ClaimedTable.load (threeRows "-") twoFamilies).result = .ok c := by
      rw [load_result ofText_threeRows.1]
      exact exists_of_isOk (by decide)
    have hhalt : ¬Claimed twoFamilies (.plain 0x76) := by
      show ¬∃ f ∈ twoFamilies, OpcodeKey.plain 0x76 ∈ f.keys
      decide
    obtain ⟨k, hk, _, hleast, h⟩ := (generate_filtered (threeRows "-") twoFamilies
      [.paged 0x37, .plain 0x76]).2.2.2 c (by decide) hc
      ⟨.plain 0x76, by decide, .inr hhalt⟩
    have hrank : k.rank ≤ 0x76 := hleast (.plain 0x76) (by decide) (.inr hhalt)
    rcases List.mem_cons.mp hk with rfl | hk
    · exact absurd hrank (by decide)
    · cases List.mem_singleton.mp hk
      exact ⟨c, hc, h⟩

end Sm83Codegen
