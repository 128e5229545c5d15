import Sm83Codegen.Proofs.Dispatch
import Sm83Codegen.Proofs.Fixtures

/-!
# What a test case holds

A scenario says what its author wants to see. The case that is made of it is complete: the
expectations also name where the program counter ends and every flag that the table fixes, subject
by subject, and a baseline case starts from the other value of every such flag.

* `TestCase.Completes`, `testCase_completes` -- a case is a complete scenario;
* `Fixtures.emitted` -- the scenarios that are not left out, kind by kind;
* `testBlock_completes` -- the cases of an opcode are those scenarios, each one once.
-/

namespace Sm83Codegen

open Logged (bind_eq_ok)

section Cases

variable {f : Family} {rs : List Record} {d : Descriptor} {m : Member} {k : ScenarioKind}
  {s : Scenario}

/-! ## 1. Complete cases -/

/-- A case is the complete scenario: it runs the member with the bytes that the scenario supplies,
    from the presets of the scenario and those that fixed flags add, and expects what the scenario
    expects and leaves open, subject by subject. -/
structure TestCase.Completes (d : Descriptor) (m : Member) (k : ScenarioKind) (s : Scenario)
    (c : TestCase) : Prop where
  name : c.name = d.caseName m k s
  bytes : c.bytes = m.key.bytes ++ s.extraBytes
  length : c.bytes.length = m.record.length.toNat
  matched : ∃ captures, matchPattern {} (d.branch m).pattern c.bytes = some captures
  presets : c.presets = s.prepared k m.record
  perm : c.expectations.Perm (s.completed m.record)
  arranged : c.expectations = grouped Subject.inOrder (s.completed m.record)

theorem endPc_eq (r : Record) : Descriptor.endPc r = UInt16.ofNat (0x21 + r.length.toNat) := by
  have hlength : r.length.toUInt16 = UInt16.ofNat r.length.toNat := by
    rw [← UInt16.toNat_inj, UInt8.toNat_toUInt16, UInt16.toNat_ofNat']
    have := r.length.toNat_lt
    omega
  rw [UInt16.ofNat_add, ← hlength]
  rfl

/-- The registers that a complete scenario expects anything of are registers. -/
theorem completed_subjects (hregisters : d.checkRegisters m s.registerUses = .ok ()) (r : Record) :
    ∀ e ∈ s.completed r, e.subject ∈ Subject.inOrder := by
  intro e he
  refine Subject.mem_inOrder fun q hq => ?_
  unfold Scenario.completed at he
  rw [List.mem_append, List.mem_append] at he
  rcases he with (he | he) | he
  · have huse : s.Uses q := by
      refine .inr ⟨e, he, ?_⟩
      cases e <;> cases hq <;> rfl
    exact isRegister_of_uses hregisters huse
  · split at he
    · exact absurd he List.not_mem_nil
    · rw [List.mem_singleton.mp he] at hq
      cases hq
  · obtain ⟨x, _, rfl⟩ := List.mem_map.mp he
    cases hq

/-- **The case of a scenario completes it.** -/
theorem testCase_completes (h : d.Merged f rs) (hm : m ∈ d.members) {c : TestCase}
    (hc : d.testCase m k s = .ok c) : c.Completes d m k s := by
  obtain ⟨hlength, hregisters, cycles, state, _, hstate, rfl⟩ := testCase_made hc
  have hsound := h.sound hm
  rw [h.fixed_eq (h.record_mem hm), addFixed_eq_ok (fixed_nodup _)] at hstate
  obtain ⟨_, rfl⟩ := hstate
  have hcompleted : (if s.assertsPc then s.expectations
      else s.expectations ++ [.pc (Descriptor.endPc m.record)]) ++
      (m.record.flags.fixed.filter (fun x => !s.assertsFlag x.1)).map (fun x => .flag x.1 x.2) =
      s.completed m.record := by
    unfold Scenario.completed
    rw [endPc_eq]
    split
    · rw [List.append_nil]
    · rfl
  have harranged : rankedExpectations (s.completed m.record) =
      grouped Subject.inOrder (s.completed m.record) :=
    rankedExpectations_eq (completed_subjects hregisters _)
  refine ⟨rfl, rfl, ?_, ?_, rfl, ?_, ?_⟩
  · show (m.key.bytes ++ s.extraBytes).length = _
    rw [List.length_append, m.key.bytes_length, hlength, hsound.trailing]
    exact hsound.layout.length.symm
  · exact ⟨_, hsound.pattern_matches.mpr ⟨_, rfl, hlength.trans hsound.trailing, rfl⟩⟩
  · show (rankedExpectations _).Perm _
    rw [hcompleted, harranged]
    exact grouped_perm Subject.inOrder_nodup (completed_subjects hregisters _)
  · show rankedExpectations _ = _
    rw [hcompleted, harranged]

/-! ## 2. All cases of an opcode -/

/-- The scenarios that are not left out: the baseline ones, then those for the flags in order, each
    kind as its scenarios were added. -/
def Fixtures.emitted (fx : Fixtures) : List (ScenarioKind × Scenario) :=
  [.baseline, .flagCase .Z, .flagCase .N, .flagCase .H, .flagCase .C].flatMap
    (fun k => (fx.cases.filter (fun x => !x.2.skip)).filter (fun x => x.1 == k))

theorem emitted_perm (fx : Fixtures) :
    fx.emitted.Perm (fx.cases.filter (fun x => !x.2.skip)) :=
  flatMap_filter_perm (by decide) fun x _ => x.1.mem_all

theorem ordered_filter (fx : Fixtures) :
    fx.ordered.filter (fun x => !x.2.skip) = fx.emitted := by
  unfold Fixtures.ordered Fixtures.emitted
  rw [List.filter_flatMap]
  refine List.flatMap_congr fun k _ => ?_
  have hget : (fx.get k).map (fun s => (k, s)) = fx.cases.filter (fun x => x.1 == k) := by
    unfold Fixtures.get
    rw [List.map_map]
    refine (List.map_congr_left fun x hx => ?_).trans (List.map_id _)
    rw [← beq_iff_eq.mp (List.mem_filter.mp hx).2]
    rfl
  rw [hget, List.filter_filter, List.filter_filter]
  exact List.filter_congr fun x _ => Bool.and_comm _ _

/-- The cases of an opcode are those of the scenarios that are not left out, one for one. -/
theorem testBlock_pairs {b : TestBlock} (hb : (d.testBlock m).result = .ok b) :
    List.Forall₂ (fun x c => d.testCase m x.1 x.2 = .ok c) (d.family.fixtures m.operands).emitted
      b.cases := by
  obtain ⟨_, _, hcases, _⟩ := testBlock_made hb
  rwa [ordered_filter, ← List.forall₂_eq_eq_eq, List.forall₂_map_left_iff,
    List.forall₂_map_right_iff] at hcases

end Cases

/-- **Every scenario becomes one complete case of its own opcode.** For every family that merges and
    every member whose tests are there, the cases are the scenarios that are not left out, one for
    one and each scenario once, the baseline ones first and then those of the flags in order; and
    each case completes its scenario. -/
theorem testBlock_completes {f : Family} {rs : List Record} {d : Descriptor} {m : Member}
    {b : TestBlock} (h : (Descriptor.merge f rs).result = .ok d) (hm : m ∈ d.members)
    (hb : (d.testBlock m).result = .ok b) :
    (f.fixtures m.operands).emitted.Perm
        ((f.fixtures m.operands).cases.filter (fun x => !x.2.skip)) ∧
      List.Forall₂ (fun x c => TestCase.Completes d m x.1 x.2 c) (f.fixtures m.operands).emitted
        b.cases := by
  have hd := merge_eq_ok h
  have hpairs := testBlock_pairs hb
  rw [hd.family] at hpairs
  exact ⟨emitted_perm _, hpairs.imp fun _ _ hc => testCase_completes hd hm hc⟩

/-- A comparison, its flag case before its baseline ones, and one of these left out. -/
def unorderedFamily : Family where
  name := "CP A, n8"
  opcodes := [0xFE]
  fragment := .verbatim ""
  fixtures := fun _ => ((Fixtures.empty.flag .Z
    (((Scenario.blank.bytes [5]).setReg8 "A" 5).expectFlag .Z true)).baseline
    (((Scenario.blank.labelled "unready").bytes [5]).skipIf true)).baseline
    ((((Scenario.blank.bytes [5]).setFlag .C true).expectFlag .Z false).expectReg8 "A" 6)

/-- The record of a comparison that sets a flag and resets another. -/
def comparison : Record :=
  ⟨.plain 0xFE, "CP", [⟨"A", true, false, false⟩, ⟨"n8", true, false, false⟩],
    { z := .computed none, n := .fixedTrue, c := .fixedFalse }, 2, ⟨8, none⟩⟩

/-- Its two cases, the baseline first. It expects the register, the program counter and then the
    flags, and starts from the other value of the flag that its scenario does not preset. -/
theorem testBlock_completes_unordered :
    ∃ d m b, (Descriptor.merge unorderedFamily [comparison]).result = .ok d ∧ m ∈ d.members ∧
      (d.testBlock m).result = .ok b ∧
      b.cases.map TestCase.presets =
        [[.flag .C true, .flag .N false], [.reg8 "A" 5]] ∧
      b.cases.map TestCase.expectations =
        [[.reg8 "A" 6, .pc 0x23, .flag .Z false, .flag .N true, .flag .C false],
          [.pc 0x23, .flag .Z true, .flag .N true, .flag .C false]] ∧
      List.Forall₂ (fun x c => TestCase.Completes d m x.1 x.2 c)
        (unorderedFamily.fixtures m.operands).emitted b.cases := by
  let m : Member :=
    ⟨comparison, [⟨"A", .reg8, false, .stay⟩, ⟨"n8", .imm8, false, .stay⟩]⟩
  let d : Descriptor := .ofMembers unorderedFamily [m] m.signature
  have hd : (Descriptor.merge unorderedFamily [comparison]).result = .ok d := by rfl
  have hm : m ∈ d.members := List.mem_cons_self
  obtain ⟨b, hb⟩ : ∃ b, (d.testBlock m).result = .ok b := exists_of_isOk (by decide)
  have hpresets : (d.testBlock m).result.map (fun b => b.cases.map TestCase.presets) =
      .ok [[.flag .C true, .flag .N false], [.reg8 "A" 5]] := by decide
  have hexpectations : (d.testBlock m).result.map (fun b => b.cases.map TestCase.expectations) =
      .ok [[.reg8 "A" 6, .pc 0x23, .flag .Z false, .flag .N true, .flag .C false],
        [.pc 0x23, .flag .Z true, .flag .N true, .flag .C false]] := by decide
  rw [hb] at hpresets hexpectations
  exact ⟨d, m, b, hd, hm, hb, Except.ok.inj hpresets, Except.ok.inj hexpectations,
    (testBlock_completes hd hm hb).2⟩

end Sm83Codegen
