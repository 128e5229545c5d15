import Sm83Codegen.Proofs.Completion
import Sm83Codegen.Proofs.Selection

/-!
# What tests expect of fixed flags

The table may fix a flag. A case then expects the fixed value of it; but of what a scenario itself
expects of the flag only the first is compared with that value. What else it expects goes into the
case unseen, also if it is the other value and the test cannot pass.

* `expectationsOf` -- what expectations say of a flag;
* `TestCase.Completes.fixedFlag` -- what a complete case says of a flag that is fixed;
* `testBlock_fixedFlags` -- which scenarios are accepted, and when the cases expect only the fixed
  value;
* `fixedFlag_contradicted` -- a test that cannot pass.
-/

namespace Sm83Codegen

/-! ## 1. What is expected of a flag -/

/-- What expectations say of a flag, in their order. -/
def expectationsOf (F : Flag) (es : List Expectation) : List Expectation :=
  es.filter (fun e => e.subject == .flag F)

theorem expectationsOf_append (F : Flag) (es fs : List Expectation) :
    expectationsOf F (es ++ fs) = expectationsOf F es ++ expectationsOf F fs :=
  List.filter_append ..

theorem flag_mem_expectationsOf {F : Flag} {v : Bool} (es : List Expectation) :
    .flag F v ∈ expectationsOf F es ↔ .flag F v ∈ es := by
  unfold expectationsOf
  rw [List.mem_filter]
  exact and_iff_left (beq_self_eq_true _)

/-- Expectations subject by subject say of each subject what they said before. -/
theorem filter_grouped {ps : List Subject} (hps : ps.Nodup) {p : Subject} (hp : p ∈ ps)
    (es : List Expectation) :
    (grouped ps es).filter (fun e => e.subject == p) = es.filter (fun e => e.subject == p) := by
  induction ps with
  | nil => exact absurd hp List.not_mem_nil
  | cons q ps ih =>
    obtain ⟨hq, hps⟩ := List.nodup_cons.mp hps
    show (es.filter (fun e => e.subject == q) ++ grouped ps es).filter _ = _
    rw [List.filter_append, List.filter_filter]
    by_cases hpq : p = q
    · subst hpq
      have hlater : (grouped ps es).filter (fun e => e.subject == p) = [] := by
        refine List.filter_eq_nil_iff.mpr fun e he heq => hq ?_
        obtain ⟨r, hr, he⟩ := List.mem_flatMap.mp he
        rw [← beq_iff_eq.mp heq, beq_iff_eq.mp (List.mem_filter.mp he).2]
        exact hr
      simp only [hlater, Bool.and_self, List.append_nil]
    · have hhere : es.filter (fun e => e.subject == p && e.subject == q) = [] := by
        refine List.filter_eq_nil_iff.mpr fun e _ heq => hpq ?_
        rw [Bool.and_eq_true, beq_iff_eq, beq_iff_eq] at heq
        exact heq.1.symm.trans heq.2
      rw [hhere, List.nil_append]
      exact ih hps ((List.mem_cons.mp hp).resolve_left hpq)

namespace Scenario

variable {s : Scenario} {F : Flag}

/-- What a scenario expects of a flag first. -/
theorem expectedOf_eq_some {w : Bool} :
    s.expectedOf F = some w ↔ (expectationsOf F s.expectations).head? = some (.flag F w) := by
  unfold expectedOf expectationsOf
  induction s.expectations with
  | nil => simp
  | cons e es ih =>
    cases e with
    | flag G v =>
      by_cases hG : G = F
      · subst hG
        simp [Expectation.subject]
      · simpa [Expectation.subject, hG] using ih
    | _ => simpa [Expectation.subject] using ih

theorem assertsFlag_eq_false : s.assertsFlag F = false ↔ expectationsOf F s.expectations = [] := by
  unfold assertsFlag expectationsOf
  rw [List.any_eq_false, List.filter_eq_nil_iff]

/-- A complete scenario expects of a fixed flag what it did before, or else its value. -/
theorem expectationsOf_completed {r : Record} {v : Bool}
    (hF : (r.flags.get F).fixedValue = some v) : expectationsOf F (s.completed r) =
      if s.assertsFlag F then expectationsOf F s.expectations else [.flag F v] := by
  have hpc : expectationsOf F (if s.assertsPc then [] else
      [.pc (UInt16.ofNat (0x21 + r.length.toNat))]) = [] := by
    split <;> rfl
  have hadded : expectationsOf F ((r.flags.fixed.filter (fun x => !s.assertsFlag x.1)).map
      (fun x => .flag x.1 x.2)) = if s.assertsFlag F then [] else [.flag F v] := by
    have hcommute : (r.flags.fixed.filter (fun x => !s.assertsFlag x.1)).filter
        (fun x => Subject.flag x.1 == Subject.flag F) =
        [(F, v)].filter (fun x => !s.assertsFlag x.1) := by
      rw [← fixed_filter hF, List.filter_filter, List.filter_filter]
      refine List.filter_congr fun x _ => ?_
      rw [Bool.and_comm]
      congr 1
      exact Bool.eq_iff_iff.mpr (by simp)
    unfold expectationsOf
    rw [List.filter_map]
    show (List.filter (fun x : Flag × Bool => Subject.flag x.1 == Subject.flag F) _).map _ = _
    rw [hcommute]
    cases hs : s.assertsFlag F <;> simp [hs]
  unfold completed
  rw [expectationsOf_append, expectationsOf_append, hpc, hadded, List.append_nil]
  split
  · rw [List.append_nil]
  · next hnone =>
    rw [assertsFlag_eq_false.mp (Bool.eq_false_iff.mpr hnone)]
    rfl

end Scenario

/-! ## 2. What cases expect -/

section Cases

variable {f : Family} {rs : List Record} {d : Descriptor} {m : Member} {F : Flag} {v : Bool}

/-- A complete case expects of a fixed flag what its scenario does, or else its value. -/
theorem TestCase.Completes.fixedFlag {k : ScenarioKind} {s : Scenario} {c : TestCase}
    (h : c.Completes d m k s) (hF : (m.record.flags.get F).fixedValue = some v) :
    expectationsOf F c.expectations =
      if s.assertsFlag F then expectationsOf F s.expectations else [.flag F v] := by
  have hplace : Subject.flag F ∈ Subject.inOrder := Subject.mem_inOrder fun r hr => by cases hr
  rw [← s.expectationsOf_completed hF, h.arranged]
  exact filter_grouped Subject.inOrder_nodup hplace _

/-- A scenario that has a case expects of a fixed flag its value first, if anything. -/
theorem testCase_first (hd : d.Merged f rs) (hm : m ∈ d.members)
    (hF : (m.record.flags.get F).fixedValue = some v) {k : ScenarioKind} {s : Scenario}
    {c : TestCase} (h : d.testCase m k s = .ok c) {w : Bool} (hw : s.expectedOf F = some w) :
    w = v := by
  refine testCase_expected h ?_ hw
  rw [hd.fixed_eq (hd.record_mem hm)]
  exact mem_fixed.mpr hF

/-- The case of a scenario expects the value of a fixed flag first. -/
theorem testCase_head (hd : d.Merged f rs) (hm : m ∈ d.members)
    (hF : (m.record.flags.get F).fixedValue = some v) {k : ScenarioKind} {s : Scenario}
    {c : TestCase} (h : d.testCase m k s = .ok c) :
    (expectationsOf F c.expectations).head? = some (.flag F v) := by
  rw [(testCase_completes hd hm h).fixedFlag hF]
  cases hw : s.expectedOf F with
  | none =>
    rw [Scenario.expectedOf_eq_none.mp hw]
    rfl
  | some w =>
    obtain rfl := testCase_first hd hm hF h hw
    rw [if_pos (Scenario.assertsFlag_of_expectedOf hw)]
    exact Scenario.expectedOf_eq_some.mp hw

/-- It expects the other value just if the scenario does. -/
theorem testCase_contrary (hd : d.Merged f rs) (hm : m ∈ d.members)
    (hF : (m.record.flags.get F).fixedValue = some v) {k : ScenarioKind} {s : Scenario}
    {c : TestCase} (h : d.testCase m k s = .ok c) :
    .flag F (!v) ∈ c.expectations ↔ .flag F (!v) ∈ s.expectations := by
  rw [← flag_mem_expectationsOf c.expectations, ← flag_mem_expectationsOf s.expectations,
    (testCase_completes hd hm h).fixedFlag hF]
  split
  · rfl
  · next hnone =>
    rw [Scenario.assertsFlag_eq_false.mp (Bool.eq_false_iff.mpr hnone)]
    cases v <;> simp

end Cases

theorem forall_iff_of_forall₂ {α β : Type} {R : α → β → Prop} {P : α → Prop} {Q : β → Prop}
    (hR : ∀ a b, R a b → (P a ↔ Q b)) {as : List α} {bs : List β} (h : List.Forall₂ R as bs) :
    (∀ a ∈ as, P a) ↔ ∀ b ∈ bs, Q b := by
  induction h with
  | nil => simp
  | cons hab _ ih => rw [List.forall_mem_cons, List.forall_mem_cons, ih, hR _ _ hab]

/-- **Of a fixed flag only the first expectation is compared with its value.** For every family that
    merges, every member and every flag that the table fixes: if the tests of the member are there,
    each of their cases expects the fixed value of the flag first, and behind it only what the
    scenario expects of the flag; so the cases expect nothing else just if no scenario that is not
    left out does. And there are no tests if some such scenario expects the other value first: if
    the scenarios cover what they have to, the fixture is reported as wrong. -/
theorem testBlock_fixedFlags {f : Family} {rs : List Record} {d : Descriptor} {m : Member}
    (h : (Descriptor.merge f rs).result = .ok d) (hm : m ∈ d.members) {F : Flag} {v : Bool}
    (hF : (m.record.flags.get F).fixedValue = some v) :
    (∀ b, (d.testBlock m).result = .ok b →
      List.Forall₂ (fun x c =>
        (expectationsOf F (TestCase.expectations c)).head? = some (.flag F v) ∧
        expectationsOf F c.expectations = if Scenario.assertsFlag x.2 F
          then expectationsOf F x.2.expectations else [.flag F v])
        (f.fixtures m.operands).emitted b.cases ∧
      ((∀ c ∈ b.cases, .flag F (!v) ∉ c.expectations) ↔
        ∀ x ∈ (f.fixtures m.operands).cases, x.2.skip = false →
          .flag F (!v) ∉ x.2.expectations)) ∧
    ((∃ x ∈ (f.fixtures m.operands).cases, x.2.skip = false ∧ x.2.expectedOf F = some (!v)) →
      ∃ e, (d.testBlock m).result = .error e ∧
        (d.checkCoverage m (f.fixtures m.operands) = .ok () →
          ∃ reason, e = .invalidFixture f.name m.key reason)) := by
  have hd := merge_eq_ok h
  constructor
  · intro b hb
    have hpairs := testBlock_pairs hb
    rw [hd.family] at hpairs
    refine ⟨hpairs.imp fun x c hc =>
      ⟨testCase_head hd hm hF hc, (testCase_completes hd hm hc).fixedFlag hF⟩, ?_⟩
    have hsame : (∀ x ∈ (f.fixtures m.operands).emitted, .flag F (!v) ∉ x.2.expectations) ↔
        ∀ c ∈ b.cases, .flag F (!v) ∉ c.expectations := by
      refine forall_iff_of_forall₂ (fun x c hc => ?_) hpairs
      exact not_congr (testCase_contrary hd hm hF hc).symm
    rw [← hsame]
    refine forall_congr' fun x => ?_
    rw [(emitted_perm _).mem_iff, List.mem_filter, and_imp, Bool.not_eq_true']
  · intro hcontrary
    obtain ⟨⟨k, s⟩, hx, hskip, hw⟩ := hcontrary
    cases hresult : (d.testBlock m).result with
    | ok b =>
      rw [← hd.family] at hx
      obtain ⟨c, _, hc⟩ := (testBlock_runs hresult).2 k s hx hskip
      have hv := testCase_first hd hm hF hc hw
      cases v <;> cases hv
    | error e =>
      refine ⟨e, rfl, fun hcoverage => ?_⟩
      obtain ⟨_, hmissing⟩ | hwrong := testBlock_error hresult
      · rw [hd.family, hcoverage] at hmissing
        cases hmissing
      · rwa [Descriptor.ReportsWrong, hd.family] at hwrong

/-- SCF, with a baseline case that expects two values of a flag. -/
def twofold (first second : Bool) : Family where
  name := "SCF"
  opcodes := [0x37]
  fragment := .verbatim ""
  fixtures _ := Fixtures.empty.baseline
    ((Scenario.blank.expectFlag .C first).expectFlag .C second)

/-- The record of SCF, which sets that flag. -/
def carrySetting : Record :=
  ⟨.plain 0x37, "SCF", [], { n := .fixedFalse, h := .fixedFalse, c := .fixedTrue }, 1, ⟨4, none⟩⟩

/-- The member of this record. -/
def carrySetter : Member := ⟨carrySetting, []⟩

/-- The family, merged. -/
def twofoldFamily (first second : Bool) : Descriptor :=
  .ofMembers (twofold first second) [carrySetter] carrySetter.signature

/-- With the fixed value first there are tests, and the other value is in them; with the other value
    first there are none. -/
theorem testBlock_fixedFlags_twofold :
    (∃ d m b, (Descriptor.merge (twofold true false) [carrySetting]).result = .ok d ∧
      m ∈ d.members ∧ (d.testBlock m).result = .ok b ∧
      ¬∀ c ∈ b.cases, .flag .C false ∉ c.expectations) ∧
    ∃ d m reason, (Descriptor.merge (twofold false true) [carrySetting]).result = .ok d ∧
      m ∈ d.members ∧
      (d.testBlock m).result = .error (.invalidFixture "SCF" (.plain 0x37) reason) := by
  have hmerged : ∀ first second, (Descriptor.merge (twofold first second) [carrySetting]).result =
      .ok (twofoldFamily first second) := fun _ _ => rfl
  have hm : ∀ first second, carrySetter ∈ (twofoldFamily first second).members :=
    fun _ _ => List.mem_cons_self
  have hfixed : (carrySetter.record.flags.get .C).fixedValue = some true := rfl
  constructor
  · obtain ⟨b, hb⟩ : ∃ b, ((twofoldFamily true false).testBlock carrySetter).result = .ok b :=
      exists_of_isOk (by decide)
    refine ⟨_, _, b, hmerged true false, hm true false, hb, fun hall => ?_⟩
    have hscenarios :=
      ((testBlock_fixedFlags (hmerged true false) (hm true false) hfixed).1 b hb).2.mp hall
    exact hscenarios _ List.mem_cons_self rfl (by decide)
  · obtain ⟨e, he, hwrong⟩ :=
      (testBlock_fixedFlags (hmerged false true) (hm false true) hfixed).2
        ⟨_, List.mem_cons_self, rfl, rfl⟩
    obtain ⟨reason, rfl⟩ := hwrong (by decide)
    exact ⟨_, _, reason, hmerged false true, hm false true, he⟩

/-- A scenario that expects the other value of a fixed flag behind the fixed one is not reported,
    and there is a test that cannot pass. -/
theorem fixedFlag_contradicted :
    (∃ d m b c, (Descriptor.merge (twofold true false) [carrySetting]).result = .ok d ∧
      m ∈ d.members ∧ (m.record.flags.get .C).fixedValue = some true ∧
      (d.testBlock m).result = .ok b ∧ c ∈ b.cases ∧
      .flag .C true ∈ c.expectations ∧ .flag .C false ∈ c.expectations) ∧
    ∃ g : Generated, (generate (threeRows "-") [twofold true false] {}).result = .ok g.artifacts ∧
      (assemble (threeRows "-") [twofold true false] {}).result = .ok g ∧
      g.tests.map (fun b => b.cases.map TestCase.expectations) =
        [[[.pc 0x22, .flag .N false, .flag .H false, .flag .C true, .flag .C false]]] := by
  constructor
  · let c : TestCase := ⟨"scf_37_base", [0x37], [.flag .N true, .flag .H true, .flag .C false],
      [.pc 0x22, .flag .N false, .flag .H false, .flag .C true, .flag .C false], 4⟩
    have hb : ((twofoldFamily true false).testBlock carrySetter).result.map TestBlock.cases =
        .ok [c] := by decide
    cases hresult : ((twofoldFamily true false).testBlock carrySetter).result with
    | error e =>
      rw [hresult] at hb
      cases hb
    | ok b =>
      rw [hresult] at hb
      have hcases : b.cases = [c] := Except.ok.inj hb
      exact ⟨_, _, b, c, rfl, List.mem_cons_self, rfl, hresult, hcases ▸ List.mem_cons_self,
        by decide, by decide⟩
  · have htests : (assembleTable (threeRecords .unaffected) [twofold true false] {}).map
        (fun g => g.tests.map (fun b => b.cases.map TestCase.expectations)) =
        .ok [[[.pc 0x22, .flag .N false, .flag .H false, .flag .C true, .flag .C false]]] := by
      decide
    cases hg : assembleTable (threeRecords .unaffected) [twofold true false] {} with
    | error e =>
      rw [hg] at htests
      cases htests
    | ok g =>
      rw [hg] at htests
      rw [← assemble_ofTable ofText_threeRows.1] at hg
      exact ⟨g, generate_eq_ok.mpr ⟨g, hg, rfl⟩, hg, Except.ok.inj htests⟩

end Sm83Codegen
