import Sm83Codegen.Proofs.Bindings
import Sm83Codegen.Proofs.Completion
import Sm83Codegen.Proofs.CycleCounts

/-!
# What the tests of the catalog cover

The coverage check counts scenarios by their kind: whether one is left out, or expects anything of
the flag it is for, it does not see. The fixtures of the catalog leave none out and expect something
of that flag in each, whatever operands the table gives them; so what is counted is tested.

* `Scenario.Shows`, `Fixtures.Genuine` -- scenarios that are run and that expect something of their
  flag;
* `catalog_genuine` -- those of the catalog, for all operands;
* `checkCoverage_eq_ok` -- what was counted;
* `Descriptor.Covers`, `testBlock_covers` -- the tests of an opcode show each computed flag, and a
  conditional opcode both ways;
* `generate_coverage` -- so do the tests of all opcodes that are generated.
-/

namespace Sm83Codegen

open Logged (check_bind_eq_ok guard_eq_ok)

/-! ## 1. Scenarios that show their flag -/

/-- A scenario is run, and expects something of the flag that it is for. -/
def Scenario.Shows (k : ScenarioKind) (s : Scenario) : Prop :=
  s.skip = false ∧ ∀ F, k = .flagCase F → s.assertsFlag F = true

/-- All scenarios of fixtures do. -/
def Fixtures.Genuine (fx : Fixtures) : Prop := ∀ x ∈ fx.cases, x.2.Shows x.1

namespace Scenario

variable {F : Flag}

@[simp] theorem shows_baseline (s : Scenario) : s.Shows .baseline ↔ s.skip = false :=
  and_iff_left fun _ h => nomatch h

@[simp] theorem shows_flagCase (s : Scenario) :
    s.Shows (.flagCase F) ↔ s.skip = false ∧ s.assertsFlag F = true := by
  unfold Shows
  simp

@[simp] theorem assertsFlag_expect (s : Scenario) (e : Expectation) :
    (s.expect e).assertsFlag F = (s.assertsFlag F || e.subject == .flag F) := by
  unfold assertsFlag expect
  simp

end Scenario

namespace Fixtures

@[simp] theorem genuine_empty : empty.Genuine := fun _ hx => absurd hx List.not_mem_nil

@[simp] theorem genuine_invalid (reason : String) : (invalid reason).Genuine :=
  fun _ hx => absurd hx List.not_mem_nil

@[simp] theorem genuine_add (fx : Fixtures) (k : ScenarioKind) (s : Scenario) :
    (fx.add k s).Genuine ↔ fx.Genuine ∧ s.Shows k := by
  unfold Genuine add
  simp [or_imp, forall_and]

theorem genuine_foldl_baseline {ss : List Scenario} (h : ∀ s ∈ ss, s.skip = false) {fx : Fixtures}
    (hfx : fx.Genuine) : (ss.foldl baseline fx).Genuine := by
  induction ss generalizing fx with
  | nil => exact hfx
  | cons s ss ih =>
    rw [List.forall_mem_cons] at h
    exact ih h.2 (by simp [hfx, h.1])

end Fixtures

/-! ## 2. The fixtures of the catalog -/

open Catalog

attribute [simp] Expectation.subject

theorem loadFamilies_genuine : ∀ f ∈ loadFamilies, ∀ os, (f.fixtures os).Genuine := by
  simp [loadFamilies, family, Family.adjusted, Family.carry,
    Family.writesMemory, Family.readsMemory, Family.readsFlags, Family.manages,
    loadImmediateCases, loadRegisterCases, loadPointedCases, storePointedCases,
    storeImmediateCases, loadAbsoluteCases, storeAbsoluteCases, loadHighImmediateCases,
    storeHighImmediateCases, loadHighRegisterCases, storeHighRegisterCases, storeUpCases,
    storeDownCases, storeStep, loadUpCases, loadDownCases, loadStep, loadWordCases,
    loadStackPointerCases, storeWordCases, addressSumCases, signedSum, pushCases, pushAt,
    popCases, popAt, pushAccumulatorCases, pushFlags, popAccumulatorCases, popped, poppedFlag,
    Flag.all]

theorem skip_additionBase (os : List Operand) : (additionBase os).skip = false :=
  (additionBase_uses os).1

theorem andCases_genuine (os : List Operand) : (andCases os).Genuine := by
  unfold andCases
  split <;> simp [gives, givesWith, binaryCase, skip_load]

theorem orCases_genuine (os : List Operand) : (orCases os).Genuine := by
  unfold orCases
  split <;> simp [gives, givesWith, binaryCase, skip_load]

theorem addPairsCases_genuine (os : List Operand) : (addPairsCases os).Genuine := by
  unfold addPairsCases
  split <;> simp [pairCase, pairSum]

theorem arithmeticFamilies_genuine : ∀ f ∈ arithmeticFamilies, ∀ os, (f.fixtures os).Genuine := by
  simp [arithmeticFamilies, byteCarries, wordCarries, family, Family.carry,
    Family.readsFlags, addCases, additionFlags, skip_additionBase, addWithCarryCases,
    subtractCases, subtractionFlags, subtractWithCarryCases, selfCancelCases, borrowItselfCases,
    andCases_genuine, orCases_genuine, xorCases, compareCases, compareItselfCases, incrementCases,
    decrementCases, operandCase, incrementPairCases, decrementPairCases, addPairsCases_genuine,
    addSignedCases, gives, givesWith, binaryCase, skip_load, pairCase]

/-- The fixtures of a bit are those of its value, or none. -/
theorem withBit_genuine {os : List Operand} {cases : UInt8 → String → Fixtures}
    (h : ∀ bit target, (cases bit target).Genuine) : (withBit os cases).Genuine := by
  unfold withBit
  split
  · split
    · exact h _ _
    · exact Fixtures.genuine_invalid _
  · exact Fixtures.genuine_invalid _

theorem testCases_genuine (os : List Operand) : (testCases os).Genuine :=
  withBit_genuine fun _ _ => by simp

theorem setCases_genuine (os : List Operand) : (setCases os).Genuine :=
  withBit_genuine fun _ _ => by simp

theorem clearCases_genuine (os : List Operand) : (clearCases os).Genuine :=
  withBit_genuine fun _ _ => by simp

theorem bitFamilies_genuine : ∀ f ∈ bitFamilies, ∀ os, (f.fixtures os).Genuine := by
  simp [bitFamilies, secondPageFamily, Family.onSecondPage, family, Family.manages,
    Family.usesRegisters, Family.readsFlags, Family.writesMemory, nothingCases, rotateLeftCases,
    rotateRightCases, rotateLeftCarryCases, rotateRightCarryCases, decimalAdjustCases,
    complementAccumulatorCases, complementCarryCases, accumulatorCase, accumulatorCarry,
    accumulatorCarryIn, rlcCases, rrcCases, rlCases, rrCases, slaCases, sraCases, srlCases,
    swapCases, operandCase, zeroCase, carryCase, lastBitCase, carryInCase, testCases_genuine,
    setCases_genuine, clearCases_genuine]

/-- The fixtures of a condition preset it in each of their scenarios, or there are none. -/
theorem conditionalCases_genuine {os : List Operand} {taken untaken : List Scenario}
    (h : ∀ s ∈ taken ++ untaken, s.skip = false) :
    (conditionalCases os taken untaken).Genuine := by
  unfold conditionalCases
  split
  · exact Fixtures.genuine_invalid _
  · next f v _ =>
    refine Fixtures.genuine_foldl_baseline (fun s hs => ?_) Fixtures.genuine_empty
    rcases List.mem_append.mp hs with hs | hs <;> obtain ⟨s', hs', rfl⟩ := List.mem_map.mp hs
    · exact h s' (List.mem_append_left _ hs')
    · exact h s' (List.mem_append_right _ hs')

theorem restartCases_genuine (os : List Operand) : (restartCases os).Genuine := by
  unfold restartCases
  split
  · exact Fixtures.genuine_invalid _
  · simp

theorem controlFamilies_genuine : ∀ f ∈ controlFamilies, ∀ os, (f.fixtures os).Genuine := by
  simp [controlFamilies, family, Family.whenTaken, Family.usesRegisters, Family.writesMemory,
    Family.readsMemory, jumpCases, jumpIfCases, jumpRegisterCases, relativeCase, jumpRelativeCases,
    jumpRelativeIfCases, calling, callCases, callIfCases, stacked, retCases, retIfCases,
    conditionalCases_genuine, restartCases_genuine]

/-- **No fixture of the catalog leaves a scenario out, and each scenario for a flag expects something
    of it**, whatever the operands are. -/
theorem catalog_genuine : ∀ f ∈ catalog, ∀ os, (f.fixtures os).Genuine := by
  intro f hf
  unfold catalog at hf
  simp only [List.mem_append] at hf
  rcases hf with ((hf | hf) | hf) | hf
  · exact loadFamilies_genuine f hf
  · exact arithmeticFamilies_genuine f hf
  · exact bitFamilies_genuine f hf
  · exact controlFamilies_genuine f hf

/-! ## 3. What the check counts -/

section Tests

variable {f : Family} {rs : List Record} {d : Descriptor} {m : Member} {b : TestBlock}

theorem contains_iff {fx : Fixtures} {k : ScenarioKind} :
    fx.contains k = true ↔ ∃ s, (k, s) ∈ fx.cases := by
  unfold Fixtures.contains Fixtures.get
  rw [Bool.not_eq_true', ← Bool.not_eq_true, List.isEmpty_iff, List.map_eq_nil_iff,
    List.filter_eq_nil_iff]
  constructor
  · intro h
    push Not at h
    obtain ⟨⟨l, s⟩, hs, hl⟩ := h
    exact ⟨s, beq_iff_eq.mp hl ▸ hs⟩
  · intro h hnone
    obtain ⟨s, hs⟩ := h
    exact hnone _ hs (beq_self_eq_true k)

theorem checkFlagCases_eq_ok {fx : Fixtures} {fs : List Flag} :
    d.checkFlagCases m fx fs = .ok () ↔ ∀ F ∈ fs, ∃ s, (.flagCase F, s) ∈ fx.cases := by
  induction fs with
  | nil => exact iff_of_true rfl fun _ h => absurd h List.not_mem_nil
  | cons F fs ih =>
    rw [List.forall_mem_cons, ← contains_iff]
    unfold Descriptor.checkFlagCases Descriptor.missingFixture
    rw [← ite_not, guard_eq_ok, not_not, ih]

/-- **Fixtures pass the check** if they have a scenario for the baseline, one for each computed flag
    and, under a condition, one that branches and one that does not. -/
theorem checkCoverage_eq_ok {fx : Fixtures} : d.checkCoverage m fx = .ok () ↔
    (∃ s, (.baseline, s) ∈ fx.cases) ∧ (∀ F ∈ d.flags.computed, ∃ s, (.flagCase F, s) ∈ fx.cases) ∧
      ((d.condition m).isSome = true → ∀ taken, ∃ k s, (k, s) ∈ fx.cases ∧
        d.branchTaken m s = some taken) := by
  have houtcome : ∀ taken, (fx.ordered.map (fun c => d.branchTaken m c.2)).contains (some taken) =
      true ↔ ∃ k s, (k, s) ∈ fx.cases ∧ d.branchTaken m s = some taken := by
    intro taken
    rw [List.contains_iff_mem, List.mem_map]
    simp only [Prod.exists, mem_ordered]
  unfold Descriptor.checkCoverage Descriptor.missingFixture
  rw [guard_eq_ok, Bool.not_eq_true', Bool.not_eq_false, contains_iff, check_bind_eq_ok,
    checkFlagCases_eq_ok]
  refine and_congr_right fun _ => and_congr_right fun _ => ?_
  dsimp only
  by_cases hcondition : (d.condition m).isSome = true
  · rw [if_pos hcondition, guard_eq_ok, guard_eq_ok, Bool.not_eq_true', Bool.not_eq_false,
      Bool.not_eq_true', Bool.not_eq_false, houtcome, houtcome, and_iff_left rfl,
      imp_iff_right hcondition, Bool.forall_bool]
    exact and_comm
  · rw [if_neg hcondition]
    exact iff_of_true rfl fun h => absurd h hcondition

/-! ## 4. What the tests show -/

/-- The tests of an opcode show every flag that the table says is computed, in a case for that flag
    that expects something of it; and under a condition there is a case that starts from the value
    for which the branch is taken, and one that starts from the other. -/
structure Descriptor.Covers (d : Descriptor) (m : Member) (b : TestBlock) : Prop where
  computed : ∀ F, (m.record.flags.get F).isComputed = true →
    ∃ s, (.flagCase F, s) ∈ (d.family.fixtures m.operands).cases ∧ s.skip = false ∧
      ∃ c ∈ b.cases, c.Completes d m (.flagCase F) s ∧ ∃ v, .flag F v ∈ c.expectations
  conditional : d.family.conditional = true → ∃ F v, d.condition m = some (F, v) ∧
    (∃ c ∈ b.cases, lastPreset c.presets F = some v) ∧
    ∃ c ∈ b.cases, lastPreset c.presets F = some (!v)

/-- A scenario that expects something of a flag does so by its value. -/
theorem exists_expectation {s : Scenario} {F : Flag} (h : s.assertsFlag F = true) :
    ∃ v, .flag F v ∈ s.expectations := by
  unfold Scenario.assertsFlag at h
  obtain ⟨e, he, hsubject⟩ := List.any_eq_true.mp h
  cases e with
  | flag G v =>
    cases beq_iff_eq.mp hsubject
    exact ⟨v, he⟩
  | _ => cases beq_iff_eq.mp hsubject

/-- **With genuine fixtures, tests cover what they have to.** -/
theorem testBlock_covers (hd : d.Merged f rs) (hm : m ∈ d.members)
    (hgenuine : (f.fixtures m.operands).Genuine) (hb : (d.testBlock m).result = .ok b) :
    d.Covers m b := by
  obtain ⟨_, _, _, _, hchecked⟩ := testBlock_made hb
  obtain ⟨_, hflags, hbranches⟩ := checkCoverage_eq_ok.mp hchecked
  have hruns := (testBlock_runs hb).2
  rw [← hd.family] at hgenuine
  constructor
  · intro F hF
    rw [← hd.isComputed_get (hd.record_mem hm)] at hF
    obtain ⟨s, hs⟩ := hflags F (FlagEffects.mem_computed.mpr hF)
    obtain ⟨hskip, hshows⟩ := hgenuine _ hs
    obtain ⟨c, hc, hcase⟩ := hruns _ s hs hskip
    have hcompletes := testCase_completes hd hm hcase
    obtain ⟨v, hv⟩ := exists_expectation (hshows F rfl)
    refine ⟨s, hs, hskip, c, hc, hcompletes, v, hcompletes.perm.mem_iff.mpr ?_⟩
    exact List.mem_append_left _ (List.mem_append_left _ hv)
  · intro hconditional
    rw [hd.family] at hconditional
    obtain ⟨F, v, n, o, os, _, _, _, hcondition, hunaffected, _⟩ := hd.condition hm hconditional
    -- what is added to a scenario are presets of fixed flags, and this one is left alone
    have houtcome : ∀ taken, ∃ c ∈ b.cases, lastPreset c.presets F = some (v == taken) := by
      intro taken
      obtain ⟨k, s, hs, htaken⟩ := hbranches (by rw [hcondition]; rfl) taken
      obtain ⟨c, hc, hcase⟩ := hruns k s hs (hgenuine _ hs).1
      obtain ⟨_, _, _, added, hpresets, hadded⟩ := testCase_eq_ok hcase
      unfold Descriptor.branchTaken at htaken
      rw [hcondition] at htaken
      obtain ⟨p, hp, rfl⟩ := Option.map_eq_some_iff.mp htaken
      refine ⟨c, hc, ?_⟩
      rw [hpresets, lastPreset_added hunaffected _ hadded, ← presetOf_eq, hp]
      cases p <;> cases v <;> rfl
    exact ⟨F, v, hcondition, by simpa using houtcome true, by simpa using houtcome false⟩

end Tests

/-- The tests of a key of a family cover what they have to: they are those of the member that is
    made of the table's record. -/
def Table.Covers (t : Table) (f : Family) (k : OpcodeKey) (b : TestBlock) : Prop :=
  ∃ rs d m, (Descriptor.merge f rs).result = .ok d ∧ m ∈ d.members ∧ m.key = k ∧
    t.find? k = some m.record ∧ (d.testBlock m).result = .ok b ∧ d.Covers m b

/-! ## 5. All opcodes -/

/-- **What is generated from the catalog is covered by its tests**, whatever the table says: of each
    selected opcode of a family there are tests that cover what they have to, and there are no
    other tests. -/
theorem generate_coverage {text : String} {s : Selection} {a : Artifacts}
    (h : (generate text catalog s).result = .ok a) :
    ∃ (t : Table) (g : Generated), (Table.ofText text).result = .ok t ∧
      (assemble text catalog s).result = .ok g ∧ a = g.artifacts ∧
      (∀ f ∈ catalog, ∀ k ∈ f.keys, s.selects k = true → ∃ b ∈ g.tests, t.Covers f k b) ∧
      ∀ b ∈ g.tests, ∃ f ∈ catalog, ∃ k ∈ f.keys, s.selects k = true ∧ t.Covers f k b := by
  obtain ⟨g, hg, rfl⟩ := generate_eq_ok.mp h
  obtain ⟨c, ds, hp, _, hready, rfl⟩ := assemble_eq_ok.mp hg
  obtain ⟨t, ht, _, _, hplaced⟩ := hp.placed
  have hassembly := hplaced.assembly
  have hcovers : ∀ d ∈ ds, ∀ m ∈ d.members, s.selects m.key = true →
      d.family ∈ catalog ∧ t.Covers d.family m.key (d.block m) := by
    intro d hd m hm hselected
    obtain ⟨f, hf, rs, hmerge⟩ := mem_descriptorsFrom hp.merged hd
    obtain ⟨b, hb⟩ := (hready d hd).tests m hm hselected
    have hmerged := merge_eq_ok hmerge
    rw [block_eq hb, hmerged.family]
    exact ⟨hf, rs, d, m, hmerge, hm, rfl, hassembly.recorded d hd m hm, hb,
      testBlock_covers hmerged hm (catalog_genuine f hf _) hb⟩
  refine ⟨t, _, ht, hg, rfl, fun f hf k hk hselected => ?_, fun b hb => ?_⟩
  · obtain ⟨d, hd, rfl, m, hm, rfl⟩ := hassembly.complete f hf k hk
    exact ⟨_, mem_tests.mpr ⟨d, hd, m, hm, hselected, rfl⟩, (hcovers d hd m hm hselected).2⟩
  · obtain ⟨d, hd, m, hm, hselected, rfl⟩ := mem_tests.mp hb
    obtain ⟨hf, hcovered⟩ := hcovers d hd m hm hselected
    exact ⟨d.family, hf, m.key, hassembly.claimed d hd m hm, hselected, hcovered⟩

/-- A conditional jump and an addition. -/
def coveredOpcodes : List OpcodeKey := [.plain 0x20, .plain 0x80]

theorem covered_generates : (firstRows.generated? secondRows coveredOpcodes).isSome = true := by
  decide +kernel

/-- The cases of the jump start from both values of a flag, and the tests of the addition cover what
    they have to. -/
theorem generate_coverage_instructionSet :
    ∃ a t, ∃ g : Generated,
      (generate instructionSet.text catalog (.ofKeys coveredOpcodes)).result = .ok a ∧
      (Table.ofText instructionSet.text).result = .ok t ∧ a = g.artifacts ∧
      (∃ b ∈ g.tests, ∃ F v, (∃ c ∈ b.cases, lastPreset c.presets F = some v) ∧
        ∃ c ∈ b.cases, lastPreset c.presets F = some (!v)) ∧
      ∃ f ∈ catalog, ∃ b ∈ g.tests, t.Covers f (.plain 0x80) b := by
  obtain ⟨g, hg⟩ := Option.isSome_iff_exists.mp covered_generates
  obtain ⟨_, hgenerate⟩ := OrderedRows.generated?_eq_some (by decide) hg
  rw [← instructionSet_rows] at hgenerate
  obtain ⟨t, g', ht, hg', hartifacts, hcovers, _⟩ := generate_coverage hgenerate
  have hjump : ∃ f ∈ catalog, f.conditional = true ∧ .plain 0x20 ∈ f.keys := by decide
  have haddition : ∃ f ∈ catalog, .plain 0x80 ∈ f.keys := by decide
  obtain ⟨f, hf, hconditional, hk⟩ := hjump
  obtain ⟨f', hf', hk'⟩ := haddition
  obtain ⟨b, hb, rs, d, m, hmerge, _, _, _, _, hcovered⟩ := hcovers f hf _ hk (by decide)
  rw [← (merge_eq_ok hmerge).family] at hconditional
  obtain ⟨F, v, _, hboth⟩ := hcovered.conditional hconditional
  exact ⟨_, t, g', hgenerate, ht, hartifacts, ⟨b, hb, F, v, hboth⟩, f', hf',
    hcovers f' hf' _ hk' (by decide)⟩

end Sm83Codegen
