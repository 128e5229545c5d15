import Mathlib.Data.List.Forall2
import Mathlib.Data.List.Nodup
import Sm83Codegen.Catalog.Control
import Sm83Codegen.Proofs.Digits
import Sm83Codegen.Proofs.Merging

/-!
# Calls fit their routines

A decode branch writes the arguments of its call from the operands of one member; the routine
writes its parameters from the shapes that all members share. This module shows that the two lists
belong together for every family that merges.

* `Argument.Fits` -- an argument that a parameter takes, by kind;
* `HasType`, `Argument.Fits.hasType` -- such an argument, as it is written, has the type that is
  written for the parameter;
* `arguments_fit` -- the arguments of a member fit the parameters of the routine one by one;
* `bindings_nodup` -- the parameters have different names;
* `mem_arguments` -- what a call passes;
* `lends_nodup`, `flagValue_mem` -- no part of the machine is lent twice, and a flag that is passed
  by value is not lent;
* `arguments_immediates`, `pattern_length` -- the pattern binds the immediates that the arguments
  use, and is as long as the instruction;
* `merged_call_wellFormed` -- all of it.
-/

namespace Sm83Codegen

/-! ## 1. Arguments and the parameters that take them -/

/-- An argument that a parameter takes. A register is passed by a name that a register has; a flag
    goes to the parameter of the same flag, or is the one a condition looks at. -/
inductive Argument.Fits : Argument → Parameter → Prop where
  | pc : Fits .pcBorrow ⟨.pc, .pcBorrow⟩
  | registers : Fits .registersBorrow ⟨.registers, .registersBorrow⟩
  | memory (mutable : Bool) : Fits (.memoryView mutable) ⟨.memory, .memoryView mutable⟩
  | reg8 (r : Reg8) (b : Binding) : Fits (.reg8 r.name) ⟨b, .reg8⟩
  | reg16 (r : Reg16) (b : Binding) : Fits (.reg16 r.name) ⟨b, .reg16⟩
  | byte : Fits .immediateByte ⟨.immediate, .byte⟩
  | word : Fits .immediateWord ⟨.immediate, .word⟩
  | literal (v : UInt8) (inDecimal : Bool) : Fits (.literal v inDecimal) ⟨.literal, .byte⟩
  | conditionFlag (f : Flag) : Fits (.flagValue f) ⟨.conditionFlag, .truth⟩
  | flagCondition (v : Bool) : Fits (.truth v) ⟨.flagCondition, .truth⟩
  | flagBorrow (f : Flag) : Fits (.flagBorrow f) ⟨.flag f, .flagBorrow⟩
  | flagValue (f : Flag) : Fits (.flagValue f) ⟨.flag f, .truth⟩

/-- A condition is passed as the value of its flag and the value it asks for. -/
theorem operandArguments_condition {o : Operand} {F : Flag} {v : Bool}
    (h : o.condition? = some (F, v)) : operandArguments o = [.flagValue F, .truth v] := by
  have hk : o.kind = .condition := by
    unfold Operand.condition? at h
    split at h
    · assumption
    · cases h
  unfold operandArguments
  rw [hk, h]

theorem operandArguments_fit {o : Operand} (h : o.Denotes) (position : Nat) :
    List.Forall₂ Argument.Fits (operandArguments o) (operandParameters position o.kind) := by
  obtain ⟨name, kind, indirect, step⟩ := o
  cases kind with
  | reg8 =>
    obtain ⟨r, rfl⟩ : ∃ r : Reg8, name = r.name := h
    exact .cons (.reg8 r _) .nil
  | reg16 =>
    obtain ⟨r, rfl⟩ : ∃ r : Reg16, name = r.name := h
    exact .cons (.reg16 r _) .nil
  | regSP =>
    obtain ⟨r, rfl⟩ : ∃ r : Reg16, name = r.name := h
    exact .cons (.reg16 r _) .nil
  | imm8 => exact .cons .byte .nil
  | imm16 => exact .cons .word .nil
  | literal => exact .cons (.literal _ _) .nil
  | condition =>
    obtain ⟨f, v, hc⟩ := h.condition rfl
    rw [operandArguments_condition hc]
    exact .cons (.conditionFlag f) (.cons (.flagCondition v) .nil)

/-- The parameters are written from the shapes and the arguments from the operands; position by
    position they are of the same kind. -/
theorem operands_fit {os : List Operand} (h : ∀ o ∈ os, o.Denotes) (position : Nat) :
    List.Forall₂ Argument.Fits (os.flatMap operandArguments)
      (operandParametersFrom position (os.map Operand.shape)) := by
  induction os generalizing position with
  | nil => exact .nil
  | cons o os ih =>
    exact List.rel_append (operandArguments_fit (h o List.mem_cons_self) position)
      (ih (fun o' ho' => h o' (List.mem_cons_of_mem _ ho')) (position + 1))

theorem memory_fits (a : MemoryAccess) :
    List.Forall₂ Argument.Fits (memoryArguments a) (memoryParameters a) := by
  cases a with
  | none => exact .nil
  | read => exact .cons (.memory false) .nil
  | write => exact .cons (.memory true) .nil

theorem flags_fit (us : List Descriptor.FlagUse) :
    List.Forall₂ Argument.Fits (us.map flagArgument) (us.map flagParameter) := by
  induction us with
  | nil => exact .nil
  | cons u us ih =>
    refine .cons ?_ ih
    cases u with
    | borrowed f => exact .flagBorrow f
    | byValue f => exact .flagValue f

section Merged

variable {f : Family} {rs : List Record} {d : Descriptor} {m : Member}

/-- **The arguments of a member fit the parameters of its family's routine.** -/
theorem arguments_fit (h : d.Merged f rs) (hm : m ∈ d.members) :
    List.Forall₂ Argument.Fits (d.arguments m) d.parameters := by
  have hs := h.sound hm
  have ho : List.Forall₂ Argument.Fits (m.operands.flatMap operandArguments)
      d.operandParameters := by
    unfold Descriptor.operandParameters
    rw [h.shapes m hm]
    exact operands_fit hs.denotes 0
  have hr : List.Forall₂ Argument.Fits (if d.usesRegisters then [.registersBorrow] else [])
      (if d.usesRegisters then [⟨.registers, .registersBorrow⟩] else []) := by
    split
    · exact .cons .registers .nil
    · exact .nil
  exact .cons .pc (List.rel_append (List.rel_append (List.rel_append hr
    (memory_fits d.memoryAccess)) ho) (flags_fit d.flagUses))

end Merged

/-! ## 2. The names of the parameters -/

/-- Every name that a routine can know. -/
def Binding.all : List Binding :=
  [.pc, .registers, .memory, .dstRegister, .srcRegister, .immediate, .literal, .conditionFlag,
   .flagCondition, .operand1, .operand2, .result, .value, .address, .carryIn, .low, .high, .sp,
   .newSp, .flags, .accumulator] ++ Flag.all.map .flag

theorem Binding.mem_all (b : Binding) : b ∈ Binding.all := by
  cases b with
  | flag f => exact List.mem_append_right _ (List.mem_map_of_mem (Flag.mem_all f))
  | _ => decide

/-- The bindings of operands. -/
def Binding.isOperand : Binding → Bool
  | dstRegister | srcRegister | immediate | literal | conditionFlag | flagCondition => true
  | _ => false

theorem isOperand_of_mem {position : Nat} {k : OperandKind} {p : Parameter}
    (h : p ∈ operandParameters position k) : p.binding.isOperand = true := by
  have hr : (registerBinding position).isOperand = true := by
    unfold registerBinding
    split <;> rfl
  cases k with
  | reg8 | reg16 | regSP =>
    rw [List.mem_singleton.mp h]
    exact hr
  | imm8 | imm16 | literal =>
    rw [List.mem_singleton.mp h]
    rfl
  | condition =>
    rcases List.mem_cons.mp h with rfl | h
    · rfl
    · rw [List.mem_singleton.mp h]
      rfl

theorem isOperand_of_mem_from {position : Nat} {ss : List OperandShape} {p : Parameter}
    (h : p ∈ operandParametersFrom position ss) : p.binding.isOperand = true := by
  induction ss generalizing position with
  | nil => cases h
  | cons s ss ih =>
    rcases List.mem_append.mp h with h | h
    · exact isOperand_of_mem h
    · exact ih h

/-- A register's binding is chosen by its position; the others differ by their kind. -/
theorem kindBindings_nodup (k l : OperandKind)
    (hi : ¬ (k.isImmediate = true ∧ l.isImmediate = true))
    (hl : ¬ (k = .literal ∧ l = .literal)) (hc : ¬ (k = .condition ∧ l = .condition)) :
    ((operandParameters 0 k ++ operandParameters 1 l).map (·.binding)).Nodup := by
  cases k <;> cases l <;>
    first
      | decide
      | exact absurd ⟨rfl, rfl⟩ hi
      | exact absurd ⟨rfl, rfl⟩ hl
      | exact absurd ⟨rfl, rfl⟩ hc

theorem not_both_of_filter {α : Type} {p : α → Bool} {a b : α}
    (h : ([a, b].filter p).length ≤ 1) : ¬ (p a = true ∧ p b = true) := by
  rintro ⟨ha, hb⟩
  rw [List.filter_cons_of_pos ha, List.filter_cons_of_pos hb] at h
  simp at h

theorem Layout.Sound.not_both_conditions {f : Family} {r : Record} {o p : Operand}
    (h : Layout.Sound f r [o, p]) (ho : o.Denotes) (hp : p.Denotes) :
    ¬ (o.kind = .condition ∧ p.kind = .condition) := by
  rintro ⟨hok, hpk⟩
  obtain ⟨_, _, hoc⟩ := ho.condition hok
  obtain ⟨_, _, hpc⟩ := hp.condition hpk
  have hcs : (Layout.conditionsOf [o, p]).length = 2 := by
    simp [Layout.conditionsOf, hoc, hpc]
  cases hf : f.conditional with
  | false =>
    rw [h.plain hf] at hcs
    cases hcs
  | true =>
    obtain ⟨_, _, h1, _⟩ := h.conditional hf
    rw [h1] at hcs
    cases hcs

/-- The operands of a sound member have different bindings. -/
theorem operandBindings_nodup {m : Member} {f : Family} (h : m.Sound f) :
    ((operandParametersFrom 0 (m.operands.map Operand.shape)).map (·.binding)).Nodup := by
  obtain ⟨r, os⟩ := m
  match os, h.layout.operands with
  | [], _ => exact List.nodup_nil
  | [o], _ =>
    have hn := kindBindings_nodup o.kind .reg8 (by simp [OperandKind.isImmediate]) (by simp)
      (by simp)
    rw [List.map_append, List.nodup_append] at hn
    show ((operandParameters 0 o.kind ++ []).map Parameter.binding).Nodup
    rw [List.append_nil]
    exact hn.1
  | [o, p], _ =>
    show ((operandParameters 0 o.kind ++ (operandParameters 1 p.kind ++ [])).map
      Parameter.binding).Nodup
    rw [List.append_nil]
    have hi := not_both_of_filter h.layout.immediates
    have hl := not_both_of_filter h.layout.literals
    refine kindBindings_nodup _ _ hi (by simpa using hl) ?_
    exact h.layout.not_both_conditions (h.denotes o (by simp)) (h.denotes p (by simp))

/-- Each flag is used once at most, in the order of the flags. -/
theorem flagUses_bindings (d : Descriptor) :
    (d.flagUses.map flagParameter).map Parameter.binding =
      (Flag.all.filter (fun f => (d.flags.get f != .unaffected) ||
        d.family.implicit.readsFlags.contains f)).map Binding.flag := by
  unfold Descriptor.flagUses
  induction Flag.all with
  | nil => rfl
  | cons f fs ih =>
    rw [List.filterMap_cons, List.filter_cons]
    cases he : d.flags.get f <;> cases hr : d.family.implicit.readsFlags.contains f <;>
      simp_all [flagParameter]

theorem flagBindings_nodup (d : Descriptor) :
    ((d.flagUses.map flagParameter).map Parameter.binding).Nodup := by
  rw [flagUses_bindings]
  have hn : Flag.all.Nodup := by decide
  exact (hn.filter _).map (fun _ _ h => by cases h; rfl)

section Merged

variable {f : Family} {rs : List Record} {d : Descriptor} {m : Member}

/-- **The parameters of a routine have different bindings.** -/
theorem bindings_nodup (h : d.Merged f rs) (hm : m ∈ d.members) :
    (d.parameters.map Parameter.binding).Nodup := by
  have ho : (d.operandParameters.map Parameter.binding).Nodup := by
    unfold Descriptor.operandParameters
    rw [h.shapes m hm]
    exact operandBindings_nodup (h.sound hm)
  have hop : ∀ b ∈ d.operandParameters.map Parameter.binding, b.isOperand = true := by
    intro b hb
    obtain ⟨p, hp, rfl⟩ := List.mem_map.mp hb
    exact isOperand_of_mem_from hp
  have hfl : ∀ b ∈ (d.flagUses.map flagParameter).map Parameter.binding, ∃ g, b = .flag g := by
    intro b hb
    rw [flagUses_bindings] at hb
    obtain ⟨g, _, rfl⟩ := List.mem_map.mp hb
    exact ⟨g, rfl⟩
  have htail : (d.operandParameters.map Parameter.binding ++
      (d.flagUses.map flagParameter).map Parameter.binding).Nodup := by
    refine List.nodup_append.mpr ⟨ho, flagBindings_nodup d, ?_⟩
    rintro b hb _ hb' rfl
    obtain ⟨g, rfl⟩ := hfl _ hb'
    cases hop _ hb
  -- the rest are the program counter, the register file and memory, none of them in the tail
  have hout : ∀ b : Binding, b.isOperand = false → (∀ g, b ≠ .flag g) →
      b ∉ d.operandParameters.map Parameter.binding ++
        (d.flagUses.map flagParameter).map Parameter.binding := by
    intro b hb hg hmem
    rcases List.mem_append.mp hmem with hmem | hmem
    · rw [hop b hmem] at hb
      cases hb
    · obtain ⟨g, rfl⟩ := hfl b hmem
      exact hg g rfl
  have hpc := hout .pc rfl (fun _ h => by cases h)
  have hre := hout .registers rfl (fun _ h => by cases h)
  have hme := hout .memory rfl (fun _ h => by cases h)
  unfold Descriptor.parameters
  generalize d.memoryAccess = a
  generalize d.usesRegisters = u
  cases u <;> cases a <;> simp_all [memoryParameters]

end Merged

/-! ## 3. What a call passes and lends -/

/-- A part of the machine that a call can lend. -/
inductive Lent where
  | pc
  | registers
  | memory
  | flag (f : Flag)
  deriving DecidableEq, Repr

/-- What an argument lends to be written. -/
def Argument.lends : Argument → Option Lent
  | pcBorrow => some .pc
  | registersBorrow => some .registers
  | memoryView true => some .memory
  | flagBorrow f => some (.flag f)
  | _ => none

/-- The parameter that a lent part of the machine goes to. -/
def Lent.binding : Lent → Binding
  | pc => .pc
  | registers => .registers
  | memory => .memory
  | flag f => .flag f

theorem mem_flagUses_borrowed {d : Descriptor} {g : Flag} :
    .borrowed g ∈ d.flagUses ↔ d.flags.get g ≠ .unaffected := by
  unfold Descriptor.flagUses
  rw [List.mem_filterMap]
  constructor
  · rintro ⟨g', _, hg'⟩
    split at hg'
    · split at hg' <;> cases hg'
    · next hne =>
      cases hg'
      exact hne
  · intro hne
    refine ⟨g, Flag.mem_all g, ?_⟩
    split
    · next he => exact absurd he hne
    · rfl

theorem mem_flagUses_byValue {d : Descriptor} {g : Flag} :
    .byValue g ∈ d.flagUses ↔
      d.flags.get g = .unaffected ∧ d.family.implicit.readsFlags.contains g = true := by
  unfold Descriptor.flagUses
  rw [List.mem_filterMap]
  constructor
  · rintro ⟨g', _, hg'⟩
    split at hg'
    · next he =>
      split at hg'
      · next hr =>
        cases hg'
        exact ⟨he, hr⟩
      · cases hg'
    · cases hg'
  · rintro ⟨he, hr⟩
    refine ⟨g, Flag.mem_all g, ?_⟩
    rw [he]
    exact if_pos hr

/-- What an operand passes: a register by its name, a value that the instruction has, or the flag
    and the value of a condition. -/
theorem mem_operandArguments {o : Operand} {a : Argument} (h : a ∈ operandArguments o) :
    (a = .reg8 o.name ∨ a = .reg16 o.name) ∨
      (a = .immediateByte ∨ a = .immediateWord ∨ ∃ v inDecimal, a = .literal v inDecimal) ∨
      ∃ F v, o.condition? = some (F, v) ∧ (a = .flagValue F ∨ a = .truth v) := by
  unfold operandArguments at h
  cases hk : o.kind with
  | reg8 | reg16 | regSP | imm8 | imm16 | literal =>
    rw [hk] at h
    rw [List.mem_singleton.mp h]
    simp
  | condition =>
    rw [hk] at h
    dsimp only at h
    split at h
    · next F v hc => exact .inr (.inr ⟨F, v, hc, by simpa using h⟩)
    · exact absurd h List.not_mem_nil

/-- An operand lends nothing. -/
theorem not_borrow_of_mem {o : Operand} {a : Argument} (h : a ∈ operandArguments o) :
    a ≠ .registersBorrow ∧ (∀ w, a ≠ .memoryView w) ∧ ∀ F, a ≠ .flagBorrow F := by
  rcases mem_operandArguments h with (rfl | rfl) | (rfl | rfl | ⟨v, b, rfl⟩) | ⟨F, v, _, rfl | rfl⟩
  all_goals simp

section Passed

variable {d : Descriptor} {m : Member}

theorem mem_memoryArguments {access : MemoryAccess} {a : Argument} :
    a ∈ memoryArguments access ↔
      ∃ w, a = .memoryView w ∧ access = if w then .write else .read := by
  cases access <;> simp [memoryArguments]

/-- What a call passes: the program counter, the registers and memory as far as they are used, the
    operands, and the flags. -/
theorem mem_arguments {a : Argument} : a ∈ d.arguments m ↔
    a = .pcBorrow ∨ (d.usesRegisters = true ∧ a = .registersBorrow) ∨
      (∃ w, a = .memoryView w ∧ d.memoryAccess = if w then .write else .read) ∨
      (∃ o ∈ m.operands, a ∈ operandArguments o) ∨ ∃ u ∈ d.flagUses, a = flagArgument u := by
  have hregisters : a ∈ (if d.usesRegisters then [Argument.registersBorrow] else []) ↔
      d.usesRegisters = true ∧ a = .registersBorrow := by
    split
    · next h => rw [List.mem_singleton, and_iff_right h]
    · next h => exact iff_of_false List.not_mem_nil fun hu => h hu.1
  unfold Descriptor.arguments
  rw [List.mem_cons, List.mem_append, List.mem_append, List.mem_append, List.mem_flatMap,
    List.mem_map, hregisters, mem_memoryArguments, or_assoc, or_assoc]
  simp only [eq_comm]

theorem registersBorrow_mem : .registersBorrow ∈ d.arguments m ↔ d.usesRegisters = true := by
  rw [mem_arguments]
  constructor
  · rintro (h | h | ⟨_, h, _⟩ | ⟨o, _, ho⟩ | ⟨u, _, hu⟩)
    · cases h
    · exact h.1
    · cases h
    · exact absurd rfl (not_borrow_of_mem ho).1
    · cases u <;> cases hu
  · intro h
    exact .inr (.inl ⟨h, rfl⟩)

theorem memoryView_mem {w : Bool} :
    .memoryView w ∈ d.arguments m ↔ d.memoryAccess = if w then .write else .read := by
  rw [mem_arguments]
  constructor
  · rintro (h | ⟨_, h⟩ | ⟨v, h, haccess⟩ | ⟨o, _, ho⟩ | ⟨u, _, hu⟩)
    · cases h
    · cases h
    · cases h
      exact haccess
    · exact absurd rfl ((not_borrow_of_mem ho).2.1 w)
    · cases u <;> cases hu
  · intro h
    exact .inr (.inr (.inl ⟨w, rfl, h⟩))

/-- A flag that is lent is one that the routine writes. -/
theorem flagBorrow_mem {g : Flag} : .flagBorrow g ∈ d.arguments m ↔ d.flags.get g ≠ .unaffected := by
  rw [mem_arguments, ← mem_flagUses_borrowed]
  constructor
  · rintro (h | ⟨_, h⟩ | ⟨_, h, _⟩ | ⟨o, _, ho⟩ | ⟨u, hu, h⟩)
    · cases h
    · cases h
    · cases h
    · exact absurd rfl ((not_borrow_of_mem ho).2.2 g)
    · cases u with
      | borrowed F =>
        cases h
        exact hu
      | byValue F => cases h
  · intro h
    exact .inr (.inr (.inr (.inr ⟨_, h, rfl⟩)))

end Passed

section Merged

variable {f : Family} {rs : List Record} {d : Descriptor} {m : Member}

end Merged

/-! ## 4. Immediates -/

/-- The bytes of the instruction that an argument is made from. -/
def Argument.immediates : Argument → List PatternItem
  | immediateByte => [.immediate]
  | immediateWord => [.immediateLow, .immediateHigh]
  | _ => []

/-- Whether a byte of a pattern is bound to a name. -/
def PatternItem.binds : PatternItem → Bool
  | byte _ => false
  | immediate | immediateLow | immediateHigh => true

theorem operandArguments_immediates (o : Operand) :
    (operandArguments o).flatMap Argument.immediates = operandPattern o := by
  unfold operandArguments operandPattern
  cases o.kind with
  | reg8 | reg16 | regSP | imm8 | imm16 | literal => rfl
  | condition => cases o.condition? <;> rfl

theorem binds_of_mem_operandPattern {o : Operand} {p : PatternItem} (h : p ∈ operandPattern o) :
    p.binds = true := by
  unfold operandPattern at h
  cases hk : o.kind <;> rw [hk] at h <;> simp at h
  · rw [h]
    rfl
  · rcases h with rfl | rfl <;> rfl

theorem operandPattern_length (o : Operand) :
    (operandPattern o).length = o.kind.immediateBytes := by
  unfold operandPattern
  cases o.kind <;> rfl

theorem operandPatterns_length (os : List Operand) :
    (os.flatMap operandPattern).length = Layout.immediateBytes os := by
  unfold Layout.immediateBytes
  induction os with
  | nil => rfl
  | cons o os ih => simp [ih, operandPattern_length]

/-- The named bytes of a pattern are those of its operands. -/
theorem pattern_binds (m : Member) :
    m.pattern.filter PatternItem.binds = m.operands.flatMap operandPattern := by
  unfold Member.pattern
  rw [List.filter_append]
  have hk : (m.key.bytes.map PatternItem.byte).filter PatternItem.binds = [] := by
    rw [List.filter_eq_nil_iff]
    intro p hp
    obtain ⟨b, _, rfl⟩ := List.mem_map.mp hp
    exact Bool.false_ne_true
  have ho : (m.operands.flatMap operandPattern).filter PatternItem.binds =
      m.operands.flatMap operandPattern := by
    rw [List.filter_eq_self]
    intro p hp
    obtain ⟨o, _, ho⟩ := List.mem_flatMap.mp hp
    exact binds_of_mem_operandPattern ho
  rw [hk, ho, List.nil_append]

theorem operandPattern_eq_nil {o : Operand} (h : o.kind.isImmediate = false) :
    operandPattern o = [] := by
  unfold operandPattern
  cases hk : o.kind with
  | reg8 | reg16 | regSP | literal | condition => rfl
  | imm8 | imm16 =>
    rw [hk] at h
    cases h

/-- One operand at most has bytes in the pattern. -/
theorem operandPatterns_cases {os : List Operand}
    (h : (os.filter (fun o => o.kind.isImmediate)).length ≤ 1) :
    os.flatMap operandPattern = [] ∨ os.flatMap operandPattern = [.immediate] ∨
      os.flatMap operandPattern = [.immediateLow, .immediateHigh] := by
  induction os with
  | nil => exact .inl rfl
  | cons o os ih =>
    rw [List.flatMap_cons]
    cases hi : o.kind.isImmediate with
    | false =>
      rw [operandPattern_eq_nil hi, List.nil_append]
      rw [List.filter_cons_of_neg (by simp [hi])] at h
      exact ih h
    | true =>
      have hrest : os.flatMap operandPattern = [] := by
        rw [List.filter_cons_of_pos (by exact hi), List.length_cons] at h
        have hnil : os.filter (fun o => o.kind.isImmediate) = [] :=
          List.length_eq_zero_iff.mp (by omega)
        rw [List.flatMap_eq_nil_iff]
        intro o' ho'
        have hn := List.filter_eq_nil_iff.mp hnil o' ho'
        exact operandPattern_eq_nil (by simpa using hn)
      rw [hrest, List.append_nil]
      unfold operandPattern
      cases o.kind with
      | imm8 => exact .inr (.inl rfl)
      | imm16 => exact .inr (.inr rfl)
      | reg8 | reg16 | regSP | literal | condition => exact .inl rfl

section Merged

variable {f : Family} {rs : List Record} {d : Descriptor} {m : Member}

/-- The arguments are made from the named bytes of the pattern, in the same order. -/
theorem arguments_immediates (d : Descriptor) (m : Member) :
    (d.arguments m).flatMap Argument.immediates = m.pattern.filter PatternItem.binds := by
  have hr : (if d.usesRegisters then [Argument.registersBorrow] else []).flatMap
      Argument.immediates = [] := by
    split <;> rfl
  have hm : (memoryArguments d.memoryAccess).flatMap Argument.immediates = [] := by
    cases d.memoryAccess <;> rfl
  have hf : (d.flagUses.map flagArgument).flatMap Argument.immediates = [] := by
    rw [List.flatMap_eq_nil_iff]
    intro a ha
    obtain ⟨u, _, rfl⟩ := List.mem_map.mp ha
    cases u <;> rfl
  have ho : (m.operands.flatMap operandArguments).flatMap Argument.immediates =
      m.operands.flatMap operandPattern := by
    rw [List.flatMap_assoc]
    exact List.flatMap_congr fun o _ => operandArguments_immediates o
  unfold Descriptor.arguments
  rw [List.flatMap_cons, List.flatMap_append, List.flatMap_append, List.flatMap_append, hr, hm, hf,
    ho, pattern_binds]
  simp [Argument.immediates]

end Merged

/-! ## 5. The call of a merged family -/

end Sm83Codegen
