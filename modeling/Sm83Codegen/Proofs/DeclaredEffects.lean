import Sm83Codegen.Proofs.Borrowing
import Sm83Codegen.Proofs.Encodings

/-!
# Declared effects

What the table and a family declare about an instruction bounds what the instruction does: its
flags, its accesses to registers and memory, its length and its cycles.

* `effect_fixed`, `step_writes`, `step_pc` -- fixed flags, bytes of memory and the program counter,
  instruction by instruction;
* `flagBorrow_not_passed` and the like -- what a member is not passed, from what is declared;
* `Declared`, `decodeExecute_declared` -- the bounds, for every opcode that the catalog claims.
-/

namespace Sm83Codegen

/-! ## 1. Fixed flags -/

/-- A flag that an update fixes has its value. -/
def FlagUpdate.Holds (s : Cpu) : FlagUpdate → Prop
  | fixed F v => s.flag F = v
  | _ => True

namespace Instruction

theorem aluUpdates_hold (op : AluOp) (s : Cpu) (a b : UInt8) (c : Bool) :
    (aluUpdates op).Forall (FlagUpdate.Holds (s.setResult .A (op.result a b c))) := by
  cases op with
  | add | adc | sub | sbc | cp => exact ⟨trivial, rfl, trivial, trivial⟩
  | and | xor | or => exact ⟨trivial, rfl, rfl, rfl⟩

theorem aluItself_hold {op : AluOp} {o : Operation} (ho : aluItself op = some o) (s : Cpu)
    (a : UInt8) (c : Bool) :
    o.updates.Forall (FlagUpdate.Holds (s.setResult .A (op.result a a c))) := by
  cases op with
  | add | adc | and | or => cases ho
  | sbc =>
    cases ho
    exact ⟨trivial, rfl, trivial⟩
  | sub | cp =>
    cases ho
    rw [AluOp.result, difference_self]
    exact ⟨rfl, rfl, rfl, rfl⟩
  | xor =>
    cases ho
    rw [AluOp.result, UInt8.xor_self]
    exact ⟨rfl, rfl, rfl, rfl⟩

theorem alu_fixed (op : AluOp) (t : AluSource) (tail : List UInt8) (s : Cpu) :
    (alu op t).operation.updates.Forall (FlagUpdate.Holds ((alu op t).effect tail s)) := by
  match t with
  | .cell (.register .A) =>
    show ((aluItself op).getD (aluOperation op (.cell (.register .A)))).updates.Forall _
    cases hi : aluItself op with
    | none => exact aluUpdates_hold op s _ _ _
    | some o => exact aluItself_hold hi s _ _
  | .cell (.register .F) | .cell (.register .B) | .cell (.register .C) | .cell (.register .D)
  | .cell (.register .E) | .cell (.register .H) | .cell (.register .L) | .cell .pointed
  | .immediate => exact aluUpdates_hold op s _ _ _

/-- **A flag that is fixed after an instruction ends with its value.** -/
theorem effect_fixed (i : Instruction) (tail : List UInt8) (s : Cpu) :
    i.operation.updates.Forall (FlagUpdate.Holds (i.effect tail s)) := by
  cases i with
  | nop | load _ _ | loadFrom _ _ | storeTo _ _ | loadAbsolute | storeAbsolute | loadHighImmediate
  | storeHighImmediate | loadHighRegister | storeHighRegister | storeStepping _ | loadStepping _
  | loadWord _ | loadStackPointer | storeStackPointer | push _ | pop _ | pushAccumulator
  | popAccumulator | stepPair _ _ | jump _ | jumpRegister | jumpRelative _ | call _ | ret _
  | restart _ => trivial
  | loadImmediate t => cases t <;> trivial
  | loadSum | addSigned => exact ⟨rfl, rfl, trivial, trivial⟩
  | alu op t => exact alu_fixed op t tail s
  | stepByte up t => cases t <;> cases up <;> exact ⟨trivial, rfl, trivial⟩
  | addPairs p => exact ⟨rfl, trivial, trivial⟩
  | rotateAccumulator r => exact ⟨rfl, rfl, rfl⟩
  | decimalAdjust => exact ⟨trivial, rfl⟩
  | complement | complementCarry => exact ⟨rfl, rfl⟩
  | setCarry => exact ⟨rfl, rfl, rfl⟩
  | shift op t =>
    have hu : (shiftOpUpdates op).Forall
        (FlagUpdate.Holds ((shift op t).effect tail s)) := by
      rcases shiftParts_cases op with rfl | ⟨hop, _⟩
      · exact ⟨trivial, rfl, rfl, rfl⟩
      · rw [shiftOpUpdates, if_neg hop]
        exact ⟨trivial, rfl, rfl⟩
    cases t <;> exact hu
  | bit op n t =>
    cases op with
    | test => cases t <;> exact ⟨trivial, rfl, rfl⟩
    | clear | set => cases t <;> trivial

end Instruction

/-! ## 2. Memory and the program counter -/

theorem Cpu.put_at16_self (s : Cpu) (a : UInt16) (v : UInt8) : (s.put a v).at16 a = v :=
  Vector.getElem_set_self a.toNat_lt

/-- Memory with a byte written has its other bytes as before. -/
theorem Cpu.put_at16_of_ne (s : Cpu) (v : UInt8) {a x : UInt16} (h : x ≠ a) :
    (s.put a v).at16 x = s.at16 x :=
  Vector.getElem_set_ne a.toNat_lt x.toNat_lt fun he => h (UInt16.toNat_inj.mp he).symm

/-- Two states that differ in two bytes of memory at most. -/
def Cpu.WritesTwo (s t : Cpu) : Prop := ∃ a b, ∀ x, x ≠ a → x ≠ b → t.at16 x = s.at16 x

theorem Cpu.writesTwo_of_memory {s t : Cpu} (h : t.memory = s.memory) : s.WritesTwo t :=
  ⟨0, 0, fun x _ _ => congrArg (fun m => m.at16 x) h⟩

theorem Cpu.writesTwo_of_put {s t : Cpu} {a : UInt16} {v : UInt8}
    (h : t.memory = (s.put a v).memory) : s.WritesTwo t :=
  ⟨a, a, fun x hx _ => (congrArg (fun m => m.at16 x) h).trans (s.put_at16_of_ne v hx)⟩

theorem Cpu.writesTwo_of_puts {s t : Cpu} {a b : UInt16} {u v : UInt8}
    (h : t.memory = ((s.put a u).put b v).memory) : s.WritesTwo t :=
  ⟨a, b, fun x ha hb => (congrArg (fun m => m.at16 x) h).trans
    (((s.put a u).put_at16_of_ne v hb).trans (s.put_at16_of_ne u ha))⟩

namespace Instruction

/-- **An instruction writes two bytes of memory at most.** -/
theorem effect_writes (i : Instruction) (tail : List UInt8) (s : Cpu) :
    s.WritesTwo (i.effect tail s) := by
  cases i with
  | nop | load _ _ | loadFrom _ _ | loadAbsolute | loadHighImmediate | loadHighRegister
  | loadStepping _ | loadWord _ | loadStackPointer | loadSum | pop _ | popAccumulator | alu _ _
  | stepPair _ _ | addPairs _ | addSigned | rotateAccumulator _ | decimalAdjust | complement
  | setCarry | complementCarry | jump _ | jumpRegister | jumpRelative _ | ret _ =>
    exact Cpu.writesTwo_of_memory rfl
  | storeTo _ _ | storeAbsolute | storeHighImmediate | storeHighRegister | storeStepping _ =>
    exact Cpu.writesTwo_of_put rfl
  | storeStackPointer | push _ | pushAccumulator | call _ | restart _ =>
    exact Cpu.writesTwo_of_puts rfl
  | loadImmediate t | stepByte _ t | shift _ t =>
    cases t with
    | register r => exact Cpu.writesTwo_of_memory rfl
    | pointed => exact Cpu.writesTwo_of_put rfl
  | bit op n t =>
    cases op with
    | test => exact Cpu.writesTwo_of_memory rfl
    | clear | set =>
      cases t with
      | register r => exact Cpu.writesTwo_of_memory rfl
      | pointed => exact Cpu.writesTwo_of_put rfl

theorem step_writes (i : Instruction) (tail : List UInt8) (s : Cpu) :
    s.WritesTwo (i.step tail s) := by
  unfold step
  split
  · exact effect_writes i tail (s.advance i.operation.length)
  · exact Cpu.writesTwo_of_memory rfl

/-- **An instruction that is no jump goes on after itself.** -/
theorem step_pc {i : Instruction} (h : i.jumps = false) (tail : List UInt8) (s : Cpu) :
    (i.step tail s).pc = s.pc + i.operation.length.toUInt16 := by
  cases i with
  | jump _ | jumpRegister | jumpRelative _ | call _ | ret _ | restart _ => cases h
  | loadImmediate t | stepByte _ t | shift _ t => cases t <;> rfl
  | bit op n t => cases op <;> cases t <;> rfl
  | nop | load _ _ | loadFrom _ _ | storeTo _ _ | loadAbsolute | storeAbsolute | loadHighImmediate
  | storeHighImmediate | loadHighRegister | storeHighRegister | storeStepping _ | loadStepping _
  | loadWord _ | loadStackPointer | storeStackPointer | loadSum | push _ | pop _ | pushAccumulator
  | popAccumulator | alu _ _ | stepPair _ _ | addPairs _ | addSigned | rotateAccumulator _
  | decimalAdjust | complement | setCarry | complementCarry => rfl

/-! ## 3. Conditions -/

theorem conditional_eq (i : Instruction) : i.operation.conditional = i.condition?.isSome := by
  cases i with
  | jump c | jumpRelative c | call c | ret c => rfl
  | loadImmediate t | stepByte _ t | shift _ t => cases t <;> rfl
  | bit op n t => cases op <;> cases t <;> rfl
  | alu op t =>
    match t with
    | .cell (.register .A) => cases op <;> rfl
    | .cell (.register .F) | .cell (.register .B) | .cell (.register .C) | .cell (.register .D)
    | .cell (.register .E) | .cell (.register .H) | .cell (.register .L) | .cell .pointed
    | .immediate => rfl
  | nop | load _ _ | loadFrom _ _ | storeTo _ _ | loadAbsolute | storeAbsolute | loadHighImmediate
  | storeHighImmediate | loadHighRegister | storeHighRegister | storeStepping _ | loadStepping _
  | loadWord _ | loadStackPointer | storeStackPointer | loadSum | push _ | pop _ | pushAccumulator
  | popAccumulator | stepPair _ _ | addPairs _ | addSigned | rotateAccumulator _
  | decimalAdjust | complement | setCarry | complementCarry | jumpRegister | restart _ => rfl

/-- The flag that an instruction with a condition is passed is the one that it tests. -/
theorem condition_passed {i : Instruction} {F : Flag} {v : Bool} (hc : i.condition? = some (F, v)) :
    (∀ G, i.operation.Passes (.flagValue G) → G = F) ∧
      ∀ w, i.operation.Passes (.truth w) → w = v := by
  cases i with
  | jump c | jumpRelative c | call c | ret c =>
    have hc : c = some (F, v) := hc
    subst hc
    constructor
    · rintro G ⟨b, hb⟩
      have hG : b = .conditionFlag ∧ G = F := by
        simpa [operation, branching, condition, word, byte, registers, memory] using hb
      exact hG.2
    · rintro w ⟨b, hb⟩
      have hw : b = .flagCondition ∧ w = v := by
        simpa [operation, branching, condition, word, byte, registers, memory] using hb
      exact hw.2
  | _ => cases hc

end Instruction

/-! ## 4. What a member is passed -/

section Members

variable {f : Family} {rs : List Record} {d : Descriptor} {m : Member}

theorem passes_iff (h : d.Merged f rs) (hm : m ∈ d.members) {a : Argument} :
    (d.operation m).Passes a ↔ a ∈ d.arguments m := by
  have hlen : (d.arguments m).length ≤ (d.parameters.map Parameter.binding).length := by
    rw [List.length_map]
    exact (arguments_fit h hm).length_eq.le
  constructor
  · rintro ⟨b, hb⟩
    exact (List.of_mem_zip hb).2
  · intro ha
    rw [← List.map_snd_zip hlen] at ha
    obtain ⟨p, hp, rfl⟩ := List.mem_map.mp ha
    exact ⟨p.1, hp⟩

/-- A flag that the table leaves alone is not lent. -/
theorem flagBorrow_not_passed (h : d.Merged f rs) (hm : m ∈ d.members) {F : Flag}
    (hF : m.record.flags.get F = .unaffected) : ¬(d.operation m).Passes (.flagBorrow F) := by
  rw [passes_iff h hm]
  intro ha
  refine flagBorrow_mem.mp ha ?_
  rw [h.flags_get hm (by rw [hF]; rfl), hF]

/-- A family that does not use registers is not lent them. -/
theorem registersBorrow_not_passed (h : d.Merged f rs) (hm : m ∈ d.members)
    (hr : d.usesRegisters = false) : ¬(d.operation m).Passes .registersBorrow := by
  rw [passes_iff h hm, registersBorrow_mem, hr]
  exact Bool.false_ne_true

/-- A family that does not write memory is not lent it to write. -/
theorem memoryView_not_passed (h : d.Merged f rs) (hm : m ∈ d.members)
    (hw : d.memoryAccess ≠ .write) : ¬(d.operation m).Passes (.memoryView true) := by
  rw [passes_iff h hm, memoryView_mem]
  exact hw

/-- The condition of a member is passed: the value of its flag, and the value it asks for. -/
theorem condition_is_passed (h : d.Merged f rs) (hm : m ∈ d.members) {F : Flag} {v : Bool}
    (hc : Layout.conditionsOf m.operands = [(F, v)]) :
    (d.operation m).Passes (.flagValue F) ∧ (d.operation m).Passes (.truth v) := by
  have hmem : (F, v) ∈ Layout.conditionsOf m.operands := by rw [hc]; exact List.mem_singleton_self _
  obtain ⟨o, ho, hov⟩ := List.mem_filterMap.mp hmem
  have hargs := operandArguments_condition hov
  rw [passes_iff h hm, passes_iff h hm, mem_arguments, mem_arguments]
  refine ⟨?_, ?_⟩
  · exact .inr (.inr (.inr (.inl ⟨o, ho, by simp [hargs]⟩)))
  · exact .inr (.inr (.inr (.inl ⟨o, ho, by simp [hargs]⟩)))

end Members

/-! ## 5. The bounds -/

/-- What is declared about a member bounds what happened: the entry of the table, by its flags, its
    length and its cycles; the family, by its accesses. -/
structure Declared (d : Descriptor) (m : Member) (s t : Cpu) (cycles : UInt8) : Prop where
  unaffected : ∀ F, m.record.flags.get F = .unaffected → t.flag F = s.flag F
  fixed : ∀ F v, (m.record.flags.get F).fixedValue = some v → t.flag F = v
  memory : d.memoryAccess ≠ .write → t.memory = s.memory
  /-- At most two bytes of memory differ, whatever is declared. -/
  bytes : s.WritesTwo t
  registers : d.usesRegisters = false → t.registers = s.registers
  pc : m.record.mnemonic ∉ jumpMnemonics → t.pc = s.pc + m.record.length.toUInt16
  plain : d.family.conditional = false → cycles = m.record.cycles.base
  /-- A conditional member has one condition, and its cycles say whether it held. -/
  conditional : d.family.conditional = true → ∃ F v, Layout.conditionsOf m.operands = [(F, v)] ∧
    (s.flag F = v → cycles = m.record.cycles.base) ∧
    (s.flag F ≠ v → m.record.cycles.alternate = some cycles)

section Bounds

variable {f : Family} {rs : List Record} {d : Descriptor} {m : Member} {i : Instruction}

/-- A fixed flag of the table is fixed after the fragment. -/
theorem fixed_mem_updates (h : d.Merged f rs) (hm : m ∈ d.members) {F : Flag} {v : Bool}
    (hF : (m.record.flags.get F).fixedValue = some v) : .fixed F v ∈ d.flagUpdates := by
  have hcomputed : (m.record.flags.get F).isComputed = false := by
    cases he : m.record.flags.get F <;> rw [he] at hF <;> first | rfl | cases hF
  refine List.mem_filterMap.mpr ⟨F, Flag.mem_all F, ?_⟩
  unfold Descriptor.flagUpdate?
  rw [h.flags_get hm hcomputed]
  cases he : m.record.flags.get F <;> rw [he] at hF <;> cases hF <;> rfl

/-- A flag that the table fixes ends with its value. An instruction with a condition fixes none. -/
theorem step_fixed (h : d.Merged f rs) (hm : m ∈ d.members) (hi : i.Denotes d m) {F : Flag}
    {v : Bool} (hF : (m.record.flags.get F).fixedValue = some v) (tail : List UInt8) (s : Cpu) :
    (i.step tail s).flag F = v := by
  have hmem : .fixed F v ∈ i.operation.updates := by
    rw [hi.operation]
    exact fixed_mem_updates h hm hF
  have htaken : i.taken s = true := by
    cases i with
    | jump _ | jumpRelative _ | call _ | ret _ => cases hmem
    | _ => rfl
  unfold Instruction.step
  rw [htaken]
  exact List.forall_iff_forall_mem.mp (i.effect_fixed tail (s.advance i.operation.length)) _ hmem

/-- The cycles of an instruction are those of its entry. -/
theorem cycles_eq (hi : i.Denotes d m) (s : Cpu) :
    i.cycles s = (d.operation m).cycles (i.taken s) := by
  unfold Instruction.cycles
  rw [hi.operation]

theorem cycles_plain (hi : i.Denotes d m) (hc : d.family.conditional = false) (s : Cpu) :
    i.cycles s = m.record.cycles.base := by
  rw [cycles_eq hi]
  unfold Operation.cycles Descriptor.operation
  rw [hc]
  rfl

/-- The condition of an instruction is that of its member. -/
theorem cycles_conditional (h : d.Merged f rs) (hm : m ∈ d.members) (hi : i.Denotes d m)
    (hc : d.family.conditional = true) (s : Cpu) :
    ∃ F v, Layout.conditionsOf m.operands = [(F, v)] ∧
      (s.flag F = v → i.cycles s = m.record.cycles.base) ∧
      (s.flag F ≠ v → m.record.cycles.alternate = some (i.cycles s)) := by
  obtain ⟨F, v, hone, _, halt⟩ := (h.sound hm).layout.conditional (h.family ▸ hc)
  obtain ⟨n, hn⟩ := Option.isSome_iff_exists.mp halt
  obtain ⟨hpF, hpv⟩ := condition_is_passed h hm hone
  have hcond : i.condition? = some (F, v) := by
    have hsome : i.condition?.isSome = true := by
      rw [← i.conditional_eq, hi.operation]
      exact hc
    obtain ⟨⟨G, w⟩, hG⟩ := Option.isSome_iff_exists.mp hsome
    obtain ⟨hflag, htruth⟩ := Instruction.condition_passed hG
    rw [← hi.operation] at hpF hpv
    rw [hG, hflag F hpF, htruth v hpv]
  have hcycles : i.cycles s = if s.flag F == v then m.record.cycles.base else n := by
    rw [cycles_eq hi, Instruction.taken_conditional hcond]
    unfold Operation.cycles Descriptor.operation
    rw [hc, hn]
    rfl
  refine ⟨F, v, hone, fun he => ?_, fun hne => ?_⟩
  · rw [hcycles, he, beq_self_eq_true, if_pos rfl]
  · rw [hcycles, beq_eq_false_iff_ne.mpr hne, hn, if_neg (by decide)]

/-- **The bounds hold for what an instruction does.** -/
theorem declared_of_denotes (h : d.Merged f rs) (hm : m ∈ d.members) (hi : i.Denotes d m)
    {tail : List UInt8} (ht : tail.length = i.trailing) (s : Cpu) :
    Declared d m s (i.step tail s) (i.cycles s) := by
  have he := i.executes ht s
  unfold Instruction.Executes at he
  rw [hi.operation] at he
  obtain ⟨hflag, hreg, hmem⟩ := Operation.execute_keeps he
  refine ⟨fun F hF => hflag F (flagBorrow_not_passed h hm hF), fun F v hF => ?_,
    fun hw => hmem (memoryView_not_passed h hm hw), i.step_writes tail s,
    fun hr => hreg (registersBorrow_not_passed h hm hr), fun hj => ?_, fun hc => ?_, fun hc => ?_⟩
  · exact step_fixed h hm hi hF tail s
  · have hjumps : i.jumps = false := by
      rw [hi.jumps, Bool.eq_false_iff]
      exact fun hmem => hj (List.contains_iff_mem.mp hmem)
    rw [Instruction.step_pc hjumps, hi.operation, ← h.length m hm]
    rfl
  · exact cycles_plain hi hc s
  · exact cycles_conditional h hm hi hc s

end Bounds

/-- **Every opcode that the catalog claims stays within what is declared about it.** It has an entry
    in the table and a member in its family's descriptor, and whatever the state and the bytes after
    the opcode are, the core executes it within their bounds. -/
theorem decodeExecute_declared :
    ∃ t ds, Table.ofDocument instructionSet = .ok t ∧
      descriptorsOfDocument instructionSet catalog = .ok ds ∧
      ∀ f ∈ catalog, ∀ k ∈ f.keys, ∃ d ∈ ds, d.family = f ∧
        ∃ m ∈ d.members, m.key = k ∧ t.find? k = some m.record ∧
          ∀ (s : Cpu) (tail : List UInt8), tail.length = m.record.trailing →
            ∃ s' cycles, sm83.decodeExecute s (k.bytes ++ tail) = .executed s' cycles ∧
              Declared d m s s' cycles := by
  obtain ⟨t, ds, hb⟩ := exists_built
  refine ⟨t, ds, hb.table, hb.descriptors, fun f hf k hk => ?_⟩
  obtain ⟨d, hd, hfam, m, hm, rfl⟩ := hb.assembly.complete f hf k hk
  obtain ⟨rs, hmerged⟩ := hb.assembly.merged d hd
  refine ⟨d, hd, hfam, m, hm, rfl, hb.assembly.recorded d hd m hm, fun s tail ht => ?_⟩
  obtain ⟨i, _, hi, he⟩ := hb.decodeExecute_member hd hm s ht
  exact ⟨_, _, he, declared_of_denotes hmerged hm hi (ht.trans hi.trailing.symm) s⟩

end Sm83Codegen
