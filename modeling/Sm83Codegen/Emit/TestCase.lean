import Sm83Codegen.Descriptor

/-!
# Generated tests

Each scenario of an opcode becomes a test case: the state is completed by what the table fixes, and
the expectations are put in order.

* `TestCase` -- a completed scenario;
* `Descriptor.checkCoverage` -- whether the scenarios cover what has to be tested;
* `Descriptor.testBlock` -- the cases of one opcode;
* `TestBlock.lines` -- their written form; `TestCase.lines_eq` -- which lines a case has.
-/

namespace Sm83Codegen

/-! ## 1. Cases and their order -/

/-- The program counter every case starts from. -/
def startPc : UInt16 := 0x21

/-- The order of registers among expectations; the program counter follows. -/
def registerOrder : List String :=
  ["A", "F", "B", "C", "D", "E", "H", "L", "AF", "BC", "DE", "HL", "SP"]

/-- The place of an expectation: registers, the program counter, flags, memory by address. -/
def Expectation.rank : Expectation → Nat
  | reg8 r _ => registerOrder.idxOf r
  | reg16 r _ => registerOrder.idxOf r
  | pc _ => registerOrder.length
  | flag f _ => 0x10000 + f.index
  | memory a _ => 0x20000 + a.toNat

/-- Puts an expectation before the first one that does not come before it. -/
def insertRanked (e : Expectation) : List Expectation → List Expectation
  | [] => [e]
  | x :: xs => if e.rank ≤ x.rank then e :: x :: xs else x :: insertRanked e xs

/-- Expectations by their place; those of one place stay in order. -/
def rankedExpectations (es : List Expectation) : List Expectation := es.foldr insertRanked []

/-- A completed scenario. -/
structure TestCase where
  name : String
  bytes : List UInt8
  presets : List Preset
  expectations : List Expectation
  cycles : UInt8
  deriving DecidableEq, Repr

/-- The cases of one opcode, under its assembly form. -/
structure TestBlock where
  title : String
  cases : List TestCase
  deriving DecidableEq, Repr

namespace Scenario

/-! ## 2. Parts of a scenario -/

/-- The registers a scenario names, with whether it takes them for 16-bit ones: those it presets,
    then those it expects. -/
def registerUses (s : Scenario) : List (String × Bool) :=
  s.presets.filterMap (fun p => match p with
    | .reg8 r _ => some (r, false)
    | .reg16 r _ => some (r, true)
    | _ => none) ++
  s.expectations.filterMap (fun e => match e with
    | .reg8 r _ => some (r, false)
    | .reg16 r _ => some (r, true)
    | _ => none)

/-- The value a scenario presets a flag to, if it does; the last preset counts. -/
def presetOf (s : Scenario) (f : Flag) : Option Bool :=
  s.presets.reverse.findSome? (fun p => match p with
    | .flag g v => if g = f then some v else none
    | _ => none)

/-- The value a scenario expects of a flag first. -/
def expectedOf (s : Scenario) (f : Flag) : Option Bool :=
  s.expectations.findSome? (fun e => match e with
    | .flag g v => if g = f then some v else none
    | _ => none)

end Scenario

namespace Descriptor

/-! ## 3. Faults -/

/-- A wrong fixture of a member. -/
def wrongFixture {α : Type} (d : Descriptor) (m : Member) (reason : String) :
    Except GenerationError α :=
  .error (.invalidFixture d.family.name m.key reason)

/-- A missing fixture of a member. -/
def missingFixture {α : Type} (d : Descriptor) (m : Member) (reason : String) :
    Except GenerationError α :=
  .error (.testFixtureMissing d.family.name m.key reason)

/-! ## 4. Branches -/

/-- The flag that a conditional member tests, and the value for which it branches. -/
def condition (d : Descriptor) (m : Member) : Option (Flag × Bool) :=
  if d.family.conditional then m.operands.head?.bind Operand.condition? else none

/-- Whether a scenario branches, by its preset of the tested flag. -/
def branchTaken (d : Descriptor) (m : Member) (s : Scenario) : Option Bool :=
  match d.condition m with
  | some (f, v) => (s.presetOf f).map (fun p => p == v)
  | none => none

/-- The cycles of a scenario. -/
def caseCycles (d : Descriptor) (m : Member) (k : ScenarioKind) (s : Scenario) :
    Except GenerationError UInt8 :=
  match d.condition m with
  | none => .ok m.record.cycles.base
  | some (f, _) =>
    match d.branchTaken m s with
    | some true => .ok m.record.cycles.base
    | some false =>
      match m.record.cycles.alternate with
      | some n => .ok n
      | none => d.wrongFixture m "no cycle count for the untaken branch"
    | none =>
      d.wrongFixture m
        (k.display ++ " case does not preset the " ++ f.name ++ " flag the branch tests")

/-! ## 5. Completing a scenario -/

/-- Checks the names of registers in order. -/
def checkRegisters (d : Descriptor) (m : Member) :
    List (String × Bool) → Except GenerationError Unit
  | [] => .ok ()
  | (r, isWide) :: rest =>
    if isWide then
      if isReg16Name r then d.checkRegisters m rest
      else d.wrongFixture m ("'" ++ r ++ "' is not a 16-bit register")
    else
      if isReg8Name r then d.checkRegisters m rest
      else d.wrongFixture m ("'" ++ r ++ "' is not a 8-bit register")

/-- The state of a case while fixed flags are added to it. -/
structure CaseState where
  presets : List Preset
  expectations : List Expectation

/-- Whether some preset is of a flag. -/
def presetsFlag (ps : List Preset) (f : Flag) : Bool :=
  ps.any (fun p => match p with
    | .flag g _ => g == f
    | _ => false)

/-- Adds fixed flags in order. A flag the scenario expects nothing of is expected to have its fixed
    value. A baseline case starts from the opposite value, so that the assignment shows. -/
def addFixed (d : Descriptor) (m : Member) (k : ScenarioKind) (s : Scenario) :
    CaseState → List (Flag × Bool) → Except GenerationError CaseState
  | c, [] => .ok c
  | c, (f, v) :: rest =>
    let presets := if k == .baseline && !presetsFlag c.presets f then c.presets ++ [.flag f (!v)]
      else c.presets
    match s.expectedOf f with
    | some w =>
      if w != v then
        d.wrongFixture m (k.display ++ " case expects " ++ f.name ++ " flag " ++
          Text.truthText w ++ ", which is fixed")
      else d.addFixed m k s ⟨presets, c.expectations⟩ rest
    | none => d.addFixed m k s ⟨presets, c.expectations ++ [.flag f v]⟩ rest

/-- The name of a case. -/
def caseName (d : Descriptor) (m : Member) (k : ScenarioKind) (s : Scenario) : String :=
  let name := d.family.encodedName ++ "_" ++ m.key.slug ++ "_" ++ k.slug
  match s.label with
  | some label => name ++ "_" ++ Text.slug label
  | none => name

/-- The program counter after an instruction that does not branch. -/
def endPc (r : Record) : UInt16 := startPc + r.length.toUInt16

/-- The case of a scenario. -/
def testCase (d : Descriptor) (m : Member) (k : ScenarioKind) (s : Scenario) :
    Except GenerationError TestCase :=
  if s.extraBytes.length ≠ m.record.trailing then
    d.wrongFixture m (k.display ++ " case supplies " ++ toString s.extraBytes.length ++
      " trailing bytes, instruction needs " ++ toString m.record.trailing)
  else do
    d.checkRegisters m s.registerUses
    let cycles ← d.caseCycles m k s
    let expectations :=
      if s.assertsPc then s.expectations else s.expectations ++ [.pc (endPc m.record)]
    let c ← d.addFixed m k s ⟨s.presets, expectations⟩ d.flags.fixed
    .ok ⟨d.caseName m k s, m.key.bytes ++ s.extraBytes, c.presets,
      rankedExpectations c.expectations, cycles⟩

/-! ## 6. Coverage -/

/-- Checks that each of some flags has a case. -/
def checkFlagCases (d : Descriptor) (m : Member) (fx : Fixtures) :
    List Flag → Except GenerationError Unit
  | [] => .ok ()
  | f :: rest =>
    if fx.contains (.flagCase f) then d.checkFlagCases m fx rest
    else d.missingFixture m ("no case for computed " ++ f.name ++ " flag")

/-- Every opcode needs a baseline, every computed flag a case of its own, and a conditional opcode
    a case that branches and one that does not. -/
def checkCoverage (d : Descriptor) (m : Member) (fx : Fixtures) : Except GenerationError Unit :=
  if !fx.contains .baseline then d.missingFixture m "no baseline case"
  else do
    d.checkFlagCases m fx d.flags.computed
    if (d.condition m).isSome then
      let outcomes := fx.ordered.map (fun c => d.branchTaken m c.2)
      if !outcomes.contains (some true) then
        d.missingFixture m "no case where the branch is taken"
      else if !outcomes.contains (some false) then
        d.missingFixture m "no case where the branch falls through"
      else .ok ()
    else .ok ()

/-! ## 7. The cases of an opcode -/

/-- A label in a report. -/
def labelText : Option String → String
  | some label => "Some(" ++ Text.quoted label ++ ")"
  | none => "None"

/-- The cases of scenarios in order. `seen` holds the kinds and labels met before; no two
    scenarios of a kind have one label. A scenario that is left out is reported. -/
def testCases (d : Descriptor) (m : Member) (seen : List (ScenarioKind × Option String)) :
    List (ScenarioKind × Scenario) → Logged (List TestCase)
  | [] => pure []
  | (k, s) :: rest =>
    if seen.contains (k, s.label) then
      Logged.lift (d.wrongFixture m
        ("duplicate " ++ k.display ++ " case '" ++ s.label.getD "unlabeled" ++ "'"))
    else
      let seen := (k, s.label) :: seen
      if s.skip then do
        Logged.note .debug .testCases
          (m.key.display ++ ": skipping " ++ k.display ++ " case " ++ labelText s.label)
        d.testCases m seen rest
      else do
        let c ← Logged.lift (d.testCase m k s)
        let cs ← d.testCases m seen rest
        pure (c :: cs)

/-- The comment above the cases of a member. -/
def blockTitle (m : Member) : String := m.record.assembly ++ " [" ++ m.key.display ++ "]"

/-- The cases of a member. -/
def testBlock (d : Descriptor) (m : Member) : Logged TestBlock := do
  let fx := d.family.fixtures m.operands
  match fx.error with
  | some reason => Logged.lift (d.wrongFixture m reason)
  | none => do
    Logged.lift (d.checkCoverage m fx)
    let cases ← d.testCases m [] fx.ordered
    pure ⟨blockTitle m, cases⟩

end Descriptor

/-! ## 8. The written form -/

/-- The written form of a preset. -/
def Preset.text : Preset → String
  | reg8 r v => "cpu.registers[Reg8::" ++ r ++ "] = " ++ Text.hex8 v ++ ";"
  | reg16 r v => "cpu.registers.set16(Reg16::" ++ r ++ ", " ++ Text.hex16 v ++ ");"
  | flag f v => "cpu." ++ f.field ++ " = " ++ Text.truthText v ++ ";"
  | memory a v => "cpu.internal_ram[" ++ Text.hex16 a ++ "] = " ++ Text.hex8 v ++ ";"

theorem Preset.text_ne_empty (p : Preset) : p.text ≠ "" := by
  cases p <;> exact fun h => absurd (String.append_eq_empty_iff.mp h).2 (by decide)

/-- The written form of an expectation. -/
def Expectation.text : Expectation → String
  | reg8 r v => r ++ " => " ++ Text.hex8 v
  | reg16 r v => r ++ " => " ++ Text.hex16 v
  | pc v => "PC => " ++ Text.hex16 v
  | flag f v => f.field ++ " => " ++ Text.truthText v
  | memory a vs =>
    "mem[" ++ Text.hex16 a ++ "] => [" ++ Text.commaSeparated (vs.map Text.hex8) ++ "]"

/-- The indentation of a test. -/
def testIndent : Nat := 4

/-- A line of a test. -/
def testLine (text : String) : String := Text.indented testIndent text

/-- A line inside a test. -/
def testBodyLine (text : String) : String := Text.indented (testIndent + 4) text

/-- A line of the assertion inside a test. -/
def assertionLine (text : String) : String := Text.indented (testIndent + 8) text

/-- The lines of a case. -/
def TestCase.lines (c : TestCase) : List String :=
  [testLine "#[test]", testLine ("fn " ++ c.name ++ "() \x7b"),
    testBodyLine "let mut cpu = Cpu::new();",
    testBodyLine ("let instruction_bytes = [" ++ Text.commaSeparated (c.bytes.map Text.hex8) ++
      "];"),
    "", testBodyLine ("cpu.pc = " ++ Text.hex16 startPc ++ ";")] ++
  c.presets.map (fun p => testBodyLine p.text) ++
  ["", testBodyLine "assert_cpu_execute!(", assertionLine "cpu,",
    assertionLine "instruction_bytes,"] ++
  c.expectations.map (fun e => assertionLine (e.text ++ ",")) ++
  [assertionLine ("cycles: " ++ toString c.cycles.toNat), testBodyLine ");", testLine "\x7d"]

/-- **A case is written as a function that presets the state, executes the bytes and asserts what is
    expected**, the presets and the expectations in order and the cycles last. -/
theorem TestCase.lines_eq (c : TestCase) : c.lines =
    ["    #[test]", "    fn " ++ c.name ++ "() \x7b", "        let mut cpu = Cpu::new();",
      "        let instruction_bytes = [" ++ String.intercalate ", " (c.bytes.map Text.hex8) ++ "];",
      "", "        cpu.pc = 0x0021;"] ++
    c.presets.map (fun p => "        " ++ p.text) ++
    ["", "        assert_cpu_execute!(", "            cpu,", "            instruction_bytes,"] ++
    c.expectations.map (fun e => "            " ++ e.text ++ ",") ++
    ["            cycles: " ++ toString c.cycles.toNat, "        );", "    \x7d"] := by
  have h4 : Text.spaces 4 = "    " := by rfl
  have h8 : Text.spaces 8 = "        " := by rfl
  have h12 : Text.spaces 12 = "            " := by rfl
  have hpc : Text.hex16 startPc = "0x0021" := by decide +kernel
  unfold TestCase.lines
  simp [testLine, testBodyLine, assertionLine, testIndent, Text.commaSeparated,
    Text.indented_of_ne_empty, Preset.text_ne_empty, h4, h8, h12, hpc, ← String.append_assoc]

/-- The lines of a block: its title, and an empty line before each case. -/
def TestBlock.lines (b : TestBlock) : List String :=
  testLine ("// " ++ b.title) :: b.cases.flatMap (fun c => "" :: c.lines)

/-- The text of a block. -/
def TestBlock.text (b : TestBlock) : String := Text.textOf b.lines

end Sm83Codegen
