import Sm83Codegen.Catalog
import Sm83Codegen.Proofs.Generation

/-!
# What passing fixtures say

The fixtures of an opcode are checked before its tests are written: a register that a scenario
names is one, and a flag it expects is not fixed to the other value. So what an author writes into
fixtures is a demand on the table.

* `testBlock_runs` -- each scenario of an opcode with tests has passed its checks;
* `testCase_expected`, `testCase_registers` -- what passing says of the flags that are expected and
  of the registers that are named;
* `ofRecord_indirect`, `ofRecord_kindOf` -- the operands of a member, by the entries of its record;
* `Family.NamesRegister`, `usesRegisters_of_use` -- fixtures that name an operand as a register give
  the routine the register file;
* `catalog_registers` -- which families of the catalog have such fixtures.
-/

namespace Sm83Codegen

open Logged (guard_eq_ok)

variable {d : Descriptor} {m : Member} {k : ScenarioKind} {s : Scenario}

/-! ## 1. Every scenario is run -/

/-- The scenarios of an opcode are those of its fixtures. -/
theorem mem_ordered {fx : Fixtures} {c : ScenarioKind × Scenario} :
    c ∈ fx.ordered ↔ c ∈ fx.cases := by
  obtain ⟨k, s⟩ := c
  unfold Fixtures.ordered Fixtures.get
  simp [ScenarioKind.mem_all]

/-- **Each scenario of an opcode with tests has a case**, unless it is left out. -/
theorem testBlock_runs {b : TestBlock} (h : (d.testBlock m).result = .ok b) :
    (d.family.fixtures m.operands).error = none ∧
      ∀ k s, (k, s) ∈ (d.family.fixtures m.operands).cases → s.skip = false →
        ∃ c ∈ b.cases, d.testCase m k s = .ok c := by
  obtain ⟨hnone, _, hcases, _⟩ := testBlock_made h
  refine ⟨hnone, fun k s hs hskip => ?_⟩
  have hmem : d.testCase m k s ∈ b.cases.map .ok := by
    rw [← hcases]
    refine List.mem_map.mpr ⟨(k, s), List.mem_filter.mpr ⟨mem_ordered.mpr hs, ?_⟩, rfl⟩
    simp [hskip]
  obtain ⟨c, hmem, hc⟩ := List.mem_map.mp hmem
  exact ⟨c, hmem, hc.symm⟩

/-! ## 2. Flags that are expected -/

/-- A scenario that has a case expects of a fixed flag what it is fixed to. -/
theorem testCase_expected {c : TestCase} (h : d.testCase m k s = .ok c) {F : Flag} {v w : Bool}
    (hF : (F, v) ∈ d.flags.fixed) (hw : s.expectedOf F = some w) : w = v := by
  obtain ⟨_, _, _, _, _, hfixed, _⟩ := testCase_made h
  exact (addFixed_made hfixed).2.2 F v w hF hw

/-! ## 3. Registers that are named -/

/-- A preset names a register. -/
def Preset.Uses (r : String) : Preset → Prop
  | .reg8 q _ | .reg16 q _ => q = r
  | _ => False

/-- An expectation names a register. -/
def Expectation.Uses (r : String) : Expectation → Prop
  | .reg8 q _ | .reg16 q _ => q = r
  | _ => False

/-- A scenario names a register. -/
def Scenario.Uses (r : String) (s : Scenario) : Prop :=
  (∃ p ∈ s.presets, p.Uses r) ∨ ∃ e ∈ s.expectations, e.Uses r

theorem mem_registerUses {r : String} (h : s.Uses r) : ∃ wide, (r, wide) ∈ s.registerUses := by
  unfold Scenario.registerUses
  rcases h with ⟨p, hp, hr⟩ | ⟨e, he, hr⟩
  · cases p with
    | reg8 q v =>
      cases hr
      exact ⟨false, List.mem_append_left _ (List.mem_filterMap.mpr ⟨_, hp, rfl⟩)⟩
    | reg16 q v =>
      cases hr
      exact ⟨true, List.mem_append_left _ (List.mem_filterMap.mpr ⟨_, hp, rfl⟩)⟩
    | _ => cases hr
  · cases e with
    | reg8 q v =>
      cases hr
      exact ⟨false, List.mem_append_right _ (List.mem_filterMap.mpr ⟨_, he, rfl⟩)⟩
    | reg16 q v =>
      cases hr
      exact ⟨true, List.mem_append_right _ (List.mem_filterMap.mpr ⟨_, he, rfl⟩)⟩
    | _ => cases hr

theorem checkRegisters_eq_ok {us : List (String × Bool)} : d.checkRegisters m us = .ok () ↔
    ∀ u ∈ us, (if u.2 then isReg16Name u.1 else isReg8Name u.1) = true := by
  induction us with
  | nil => exact iff_of_true rfl fun u hu => absurd hu List.not_mem_nil
  | cons u us ih =>
    obtain ⟨q, wide⟩ := u
    rw [List.forall_mem_cons]
    unfold Descriptor.checkRegisters Descriptor.wrongFixture
    cases wide with
    | false =>
      simp only [Bool.false_eq_true, if_false]
      rw [← ite_not, guard_eq_ok, not_not, ih]
    | true =>
      simp only [if_true]
      rw [← ite_not, guard_eq_ok, not_not, ih]

/-- A register that a checked scenario names is one. -/
theorem isRegister_of_uses (h : d.checkRegisters m s.registerUses = .ok ()) {r : String}
    (hr : s.Uses r) : isReg8Name r = true ∨ isReg16Name r = true := by
  obtain ⟨wide, hwide⟩ := mem_registerUses hr
  have hname := checkRegisters_eq_ok.mp h _ hwide
  cases wide with
  | false => exact .inl hname
  | true => exact .inr hname

theorem testCase_registers {c : TestCase} (h : d.testCase m k s = .ok c) {r : String}
    (hr : s.Uses r) : isReg8Name r = true ∨ isReg16Name r = true :=
  isRegister_of_uses (testCase_made h).2.1 hr

/-- Fixtures name a register in a scenario that is run. -/
def Fixtures.Use (r : String) (fx : Fixtures) : Prop :=
  ∃ c ∈ fx.cases, c.2.skip = false ∧ c.2.Uses r

/-! ## 4. Operands that are registers -/

/-- A condition is claimed where it stands: it is no address, and was none. -/
theorem Family.Claims.indirect {f : Family} {raw os : List Operand} (h : f.Claims raw os) :
    os.map Operand.indirect = raw.map Operand.indirect := by
  unfold Family.Claims at h
  split at h
  · obtain ⟨o, c, rest, rfl, hc, rfl⟩ := h
    obtain ⟨_, _, rfl⟩ := Operand.asCondition?_eq_some.mp hc
    rfl
  · rw [h]

/-- The operands of a member are addresses where the entries say so. -/
theorem ofRecord_indirect {f : Family} {r : Record} (h : (Member.ofRecord f r).result = .ok m) :
    m.operands.map Operand.indirect =
      (f.adjustment.apply r.operands).map (fun e => !e.immediate) := by
  obtain ⟨_, ⟨raw, hraw, hclaims⟩, _⟩ := ofRecord_eq_ok.mp h
  rw [hclaims.indirect, classifyAll_indirect hraw]

/-- Without a condition, the operands of a member are what their names stand for. -/
theorem ofRecord_kindOf {f : Family} {r : Record} (h : (Member.ofRecord f r).result = .ok m)
    (hf : f.conditional = false) : ∀ o ∈ m.operands, kindOf o.name = some o.kind := by
  obtain ⟨_, ⟨raw, hraw, hclaims⟩, _⟩ := ofRecord_eq_ok.mp h
  rw [Family.Claims, if_neg (by rw [hf]; decide)] at hclaims
  rw [hclaims]
  exact classifyAll_kindOf hraw

/-- **Fixtures that name an operand as a register give the routine the register file.** -/
theorem usesRegisters_of_use {f : Family} {rs : List Record} {b : TestBlock} (hd : d.Merged f rs)
    (hm : m ∈ d.members) (hf : f.conditional = false) (hb : (d.testBlock m).result = .ok b) {i : Nat}
    (hi : (f.fixtures m.operands).error = none →
      (f.fixtures m.operands).Use (Catalog.nth m.operands i)) : d.usesRegisters = true := by
  obtain ⟨hnone, hruns⟩ := testBlock_runs hb
  rw [hd.family] at hnone hruns
  obtain ⟨⟨k, s⟩, hs, hskip, huses⟩ := hi hnone
  obtain ⟨c, _, hc⟩ := hruns k s hs hskip
  have hname := testCase_registers hc huses
  unfold Catalog.nth at hname
  split at hname
  · next o ho =>
    obtain ⟨kind, hkind, hregister⟩ := kindOf_of_register hname
    have ho := List.mem_of_getElem? ho
    have hkind' := ofRecord_kindOf (hd.members m hm) hf o ho
    rw [hkind] at hkind'
    cases hkind'
    unfold Descriptor.usesRegisters
    rw [hd.shapes m hm, Bool.or_eq_true, List.any_eq_true]
    exact .inr ⟨o.shape, List.mem_map_of_mem ho, hregister⟩
  · rcases hname with h | h <;> cases h

/-! ## 5. The fixtures of the catalog -/

namespace Scenario

variable {r : String}

@[simp] theorem skip_blank : blank.skip = false := rfl
@[simp] theorem skip_labelled (s : Scenario) (l : String) : (s.labelled l).skip = s.skip := rfl
@[simp] theorem skip_bytes (s : Scenario) (bs : List UInt8) : (s.bytes bs).skip = s.skip := rfl
@[simp] theorem skip_set (s : Scenario) (p : Preset) : (s.set p).skip = s.skip := rfl
@[simp] theorem skip_expect (s : Scenario) (e : Expectation) : (s.expect e).skip = s.skip := rfl

@[simp] theorem uses_labelled (s : Scenario) (l : String) : (s.labelled l).Uses r ↔ s.Uses r :=
  Iff.rfl

@[simp] theorem uses_bytes (s : Scenario) (bs : List UInt8) : (s.bytes bs).Uses r ↔ s.Uses r :=
  Iff.rfl

@[simp] theorem uses_set (s : Scenario) (p : Preset) :
    (s.set p).Uses r ↔ s.Uses r ∨ p.Uses r := by
  unfold Uses set
  simp only [List.mem_append, List.mem_singleton, or_and_right, exists_or, exists_eq_left]
  exact or_right_comm

@[simp] theorem uses_expect (s : Scenario) (e : Expectation) :
    (s.expect e).Uses r ↔ s.Uses r ∨ e.Uses r := by
  unfold Uses expect
  simp only [List.mem_append, List.mem_singleton, or_and_right, exists_or, exists_eq_left]
  exact or_assoc.symm

@[simp] theorem uses_setOperand8 (s : Scenario) (q : String) (v : UInt8) :
    (s.setOperand8 q v).Uses r ↔ s.Uses r ∨ q = r := by
  unfold setOperand8
  split <;> simp [setMem, setReg16, setReg8, Preset.Uses]

@[simp] theorem uses_expectOperand8 (s : Scenario) (q : String) (v : UInt8) :
    (s.expectOperand8 q v).Uses r ↔ s.Uses r ∨ isReg16Name q = false ∧ q = r := by
  unfold expectOperand8
  split
  · next h => simp [expectMem, Expectation.Uses, h]
  · next h => simp [expectReg8, Expectation.Uses, h]

@[simp] theorem skip_setOperand8 (s : Scenario) (q : String) (v : UInt8) :
    (s.setOperand8 q v).skip = s.skip := by
  unfold setOperand8
  split <;> rfl

@[simp] theorem skip_expectOperand8 (s : Scenario) (q : String) (v : UInt8) :
    (s.expectOperand8 q v).skip = s.skip := by
  unfold expectOperand8
  split <;> rfl

end Scenario

namespace Fixtures

variable {r : String}

@[simp] theorem use_add (fx : Fixtures) (k : ScenarioKind) (s : Scenario) :
    (fx.add k s).Use r ↔ fx.Use r ∨ s.skip = false ∧ s.Uses r := by
  unfold Use add
  simp only [List.mem_append, List.mem_singleton, or_and_right, exists_or, exists_eq_left]

end Fixtures

open Catalog

attribute [simp] Scenario.setReg8 Scenario.setReg16 Scenario.setFlag Scenario.setMem
  Scenario.expectReg8 Scenario.expectReg16 Scenario.expectFlag Scenario.expectMem
  Scenario.expectPc Fixtures.baseline Fixtures.flag Preset.Uses Expectation.Uses

theorem skip_load (src : Source) (s : Scenario) (v : UInt8) : (src.load s v).skip = s.skip := by
  cases src with
  | memory pair => exact Scenario.skip_setOperand8 s pair v
  | _ => rfl

/-- Fixtures name one of the first two operands as a register. -/
def Family.NamesRegister (f : Family) : Prop :=
  f.conditional = false ∧ ∀ os, (f.fixtures os).error = none →
    (f.fixtures os).Use (nth os 0) ∨ (f.fixtures os).Use (nth os 1)

theorem loadFamilies_nameRegister : ∀ f ∈ loadFamilies, f.NamesRegister := by
  simp [loadFamilies, Family.NamesRegister, family, Family.adjusted, Family.carry,
    Family.writesMemory, Family.readsMemory, Family.readsFlags, Family.manages,
    loadImmediateCases, loadRegisterCases, loadPointedCases, storePointedCases,
    storeImmediateCases, loadAbsoluteCases, storeAbsoluteCases, loadHighImmediateCases,
    storeHighImmediateCases, loadHighRegisterCases, storeHighRegisterCases, storeUpCases,
    storeDownCases, storeStep, loadUpCases, loadDownCases, loadStep, loadWordCases,
    loadStackPointerCases, storeWordCases, addressSumCases, signedSum, pushCases, pushAt,
    popCases, popAt, pushAccumulatorCases, pushFlags, popAccumulatorCases, popped, Flag.all]

theorem additionBase_uses (os : List Operand) :
    (additionBase os).skip = false ∧ (additionBase os).Uses (nth os 0) := by
  unfold additionBase
  split <;> simp [gives, binaryCase, skip_load]

theorem operandCase_uses (os : List Operand) (before after : UInt8) :
    (operandCase os before after).skip = false ∧ (operandCase os before after).Uses (nth os 0) := by
  simp [operandCase]

theorem andCases_use (os : List Operand) : (andCases os).Use (nth os 0) := by
  unfold andCases
  split <;> simp [gives, binaryCase, skip_load]

theorem orCases_use (os : List Operand) : (orCases os).Use (nth os 0) := by
  unfold orCases
  split <;> simp [gives, givesWith, binaryCase, skip_load]

theorem addPairsCases_use (os : List Operand) : (addPairsCases os).Use (nth os 0) := by
  unfold addPairsCases
  split <;> simp [pairCase, pairSum]

theorem arithmeticFamilies_nameRegister : ∀ f ∈ arithmeticFamilies, f.NamesRegister := by
  simp [arithmeticFamilies, Family.NamesRegister, byteCarries, wordCarries, family, Family.carry,
    Family.readsFlags, addCases, additionFlags, additionBase_uses, addWithCarryCases,
    subtractCases, subtractionFlags, subtractWithCarryCases, selfCancelCases, borrowItselfCases,
    andCases_use, orCases_use, xorCases, compareCases, compareItselfCases, incrementCases,
    decrementCases, operandCase_uses, incrementPairCases, decrementPairCases, addPairsCases_use,
    addSignedCases, gives, givesWith, binaryCase, skip_load, pairCase]

/-- The fixtures of a bit name the operand that holds it. -/
theorem withBit_use {os : List Operand} {cases : UInt8 → String → Fixtures}
    (h : ∀ bit, (cases bit (nth os 1)).Use (nth os 1)) (herror : (withBit os cases).error = none) :
    (withBit os cases).Use (nth os 1) := by
  unfold withBit at *
  split
  · next bit hbit =>
    rw [hbit] at herror
    dsimp only at herror
    split at herror
    · next hlt =>
      rw [if_pos hlt]
      exact h bit
    · cases herror
  · next hbit =>
    rw [hbit] at herror
    cases herror

theorem testCases_use {os : List Operand} (h : (testCases os).error = none) :
    (testCases os).Use (nth os 1) := withBit_use (fun _ => by simp) h

theorem setCases_use {os : List Operand} (h : (setCases os).error = none) :
    (setCases os).Use (nth os 1) := withBit_use (fun _ => by simp) h

theorem clearCases_use {os : List Operand} (h : (clearCases os).error = none) :
    (clearCases os).Use (nth os 1) := withBit_use (fun _ => by simp) h

theorem secondPage_nameRegister : ∀ f ∈ bitFamilies.drop 9, f.NamesRegister := by
  simp +contextual [bitFamilies, Family.NamesRegister, secondPageFamily, Family.onSecondPage,
    family, Family.manages, Family.writesMemory, rlcCases, rrcCases, rlCases, rrCases, slaCases,
    sraCases, srlCases, swapCases, operandCase_uses, testCases_use, setCases_use, clearCases_use]

/-- A fragment mentions a text. -/
def Fragment.Mentions (piece : String) (f : Fragment) : Prop := piece.toList <:+: f.text.toList

instance (piece : String) (f : Fragment) : Decidable (f.Mentions piece) :=
  inferInstanceAs (Decidable (piece.toList <:+: f.text.toList))

theorem jumpRegister_namesRegister :
    (family "JP HL" [0xE9] jumpRegister jumpRegisterCases).NamesRegister := by
  simp [Family.NamesRegister, family, jumpRegisterCases]

/-- **Every family of the catalog that uses the register file asks for it**: its routine is given
    the register file, or an operand that its fixtures name as a register. -/
theorem catalog_registers : ∀ f ∈ catalog, f.implicit.registers = true ∨
    ¬f.fragment.Mentions "registers" ∨ f.NamesRegister := by
  have hflags : ∀ f ∈ bitFamilies.take 9, f.implicit.registers = true ∨
      ¬f.fragment.Mentions "registers" := by decide +kernel
  have hcontrol : ∀ f ∈ controlFamilies.take 2 ++ controlFamilies.drop 3,
      f.implicit.registers = true ∨ ¬f.fragment.Mentions "registers" := by decide +kernel
  have hsplit : controlFamilies = controlFamilies.take 2 ++
      family "JP HL" [0xE9] jumpRegister jumpRegisterCases :: controlFamilies.drop 3 := rfl
  intro f hf
  unfold catalog at hf
  simp only [List.mem_append] at hf
  rcases hf with ((hf | hf) | hf) | hf
  · exact .inr (.inr (loadFamilies_nameRegister f hf))
  · exact .inr (.inr (arithmeticFamilies_nameRegister f hf))
  · rw [← List.take_append_drop 9 bitFamilies, List.mem_append] at hf
    rcases hf with hf | hf
    · exact (hflags f hf).imp_right .inl
    · exact .inr (.inr (secondPage_nameRegister f hf))
  · rw [hsplit, List.mem_append, List.mem_cons] at hf
    rcases hf with hf | rfl | hf
    · exact (hcontrol f (List.mem_append_left _ hf)).imp_right .inl
    · exact .inr (.inr jumpRegister_namesRegister)
    · exact (hcontrol f (List.mem_append_right _ hf)).imp_right .inl

end Sm83Codegen
