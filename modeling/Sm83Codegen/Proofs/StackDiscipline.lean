import Sm83Codegen.Proofs.BitFields
import Sm83Codegen.Proofs.DeclaredEffects

/-!
# Stack discipline

A run pushes words and pops them again in a well-nested order, with any instructions in between
that leave the stack alone. However deep the nesting, and wherever the stack starts, a pop finds
the word that its push has left, as long as memory has room for all words that are live.

* `Core.runAll`, `Encodes` -- instructions one after the other, and what their bytes encode;
* `PushOp`, `PopOp`, `LeavesStack`, `StackStep` -- what a run is made of;
* `WellNested`, `LiveAtMost` -- how it is put together, and how many words are live in it;
* `Pushed`, `Popped`, `Undisturbed` -- what a push, a pop and a nested run do to the stack;
* `undisturbed_of_wellNested` -- a run with `n` live words changes `2 * n` bytes below the stack
  pointer and no others, by induction on the nesting;
* `stack_discipline` -- every pop of a run has its push, and undoes it.
-/

namespace Sm83Codegen

/-! ## 1. Runs -/

/-- The state after instructions, if each of them is executed. -/
def Core.runAll (core : Core) (s : Cpu) : List (List UInt8) → Option Cpu
  | [] => some s
  | bytes :: rest =>
    match core.decodeExecute s bytes with
    | .executed t _ => core.runAll t rest
    | .faulted _ | .undecoded _ => none

theorem runAll_cons {core : Core} {s t : Cpu} {bytes : List UInt8} {cycles : UInt8}
    (h : core.decodeExecute s bytes = .executed t cycles) (rest : List (List UInt8)) :
    core.runAll s (bytes :: rest) = core.runAll t rest := by
  rw [Core.runAll, h]

theorem runAll_single {core : Core} {s t : Cpu} {bytes : List UInt8} {cycles : UInt8}
    (h : core.decodeExecute s bytes = .executed t cycles) : core.runAll s [bytes] = some t :=
  runAll_cons h []

theorem runAll_append {core : Core} {s t : Cpu} {first : List (List UInt8)}
    (h : core.runAll s first = some t) (rest : List (List UInt8)) :
    core.runAll s (first ++ rest) = core.runAll t rest := by
  induction first generalizing s with
  | nil =>
    cases h
    rfl
  | cons bytes first ih =>
    rw [Core.runAll] at h
    split at h
    · next u cycles hu =>
      rw [List.cons_append, runAll_cons hu]
      exact ih h
    · cases h
    · cases h

/-- An opcode of the first page names an instruction, with the bytes after it. -/
structure Encodes (b : UInt8) (tail : List UInt8) (i : Instruction) : Prop where
  page : b ≠ secondPage
  names : Instruction.ofFirstPage b = some i
  trailing : tail.length = i.trailing

/-- The core goes on after an instruction. -/
theorem Encodes.runAll {b : UInt8} {tail : List UInt8} {i : Instruction} (h : Encodes b tail i)
    (s : Cpu) (rest : List (List UInt8)) :
    sm83.runAll s ((b :: tail) :: rest) = sm83.runAll (i.step tail s) rest := by
  obtain ⟨_, hexec⟩ := decodeExecute_firstPage h.page h.names tail h.trailing s
  exact runAll_cons hexec rest

/-! ## 2. Pushes and pops -/

/-- An instruction that pushes a word. -/
inductive PushOp where
  | pair (i : Fin 3)
  | accumulator
  | call (low high : UInt8)
  | restart (n : Fin 8)
  deriving DecidableEq, Repr

/-- An instruction that pops a word. -/
inductive PopOp where
  | pair (i : Fin 3)
  | accumulator
  | ret
  deriving DecidableEq, Repr

namespace PushOp

/-- The opcode of a push. -/
def opcode : PushOp → UInt8
  | pair i => .ofNat (0xC5 + 16 * i)
  | accumulator => 0xF5
  | call _ _ => 0xCD
  | restart n => .ofNat (0xC7 + 8 * n)

/-- The bytes after the opcode of a push. -/
def tail : PushOp → List UInt8
  | call low high => [low, high]
  | _ => []

/-- The bytes of a push. -/
def bytes (p : PushOp) : List UInt8 := p.opcode :: p.tail

/-- The instruction of a push. -/
def instruction : PushOp → Instruction
  | pair i => .push (.ofIndex i)
  | accumulator => .pushAccumulator
  | call _ _ => .call none
  | restart n => .restart n

/-- The word that is pushed: a pair; the accumulator over the flags; or the address after a call. -/
def word (s : Cpu) : PushOp → UInt16
  | pair i => s.get16 (.ofIndex i)
  | accumulator => wordOf (s.get8 .A) s.packed
  | call _ _ => s.pc + 3
  | restart _ => s.pc + 1

end PushOp

namespace PopOp

/-- The opcode of a pop. -/
def opcode : PopOp → UInt8
  | pair i => .ofNat (0xC1 + 16 * i)
  | accumulator => 0xF1
  | ret => 0xC9

/-- The bytes of a pop. -/
def bytes (q : PopOp) : List UInt8 := [q.opcode]

/-- The instruction of a pop. -/
def instruction : PopOp → Instruction
  | pair i => .pop (.ofIndex i)
  | accumulator => .popAccumulator
  | ret => .ret none

/-- A word was popped into a state: into a pair; into the accumulator and the flags, where the low
    four bits are lost; or into the program counter. -/
def Loaded (w : UInt16) (t : Cpu) : PopOp → Prop
  | pair i => t.get16 (.ofIndex i) = w
  | accumulator =>
    let flags := (lowByte w).toNat
    t.get8 .A = highByte w ∧ t.get8 .F = lowByte w &&& 0xF0 ∧ t.zf = flags.testBit 7 ∧
      t.nf = flags.testBit 6 ∧ t.hf = flags.testBit 5 ∧ t.cf = flags.testBit 4
  | ret => t.pc = w

end PopOp

/-- The word at an address, the low byte first. -/
def Cpu.wordAt (s : Cpu) (a : UInt16) : UInt16 := wordOf (s.at16 (a + 1)) (s.at16 a)

/-- What a push does: two bytes below the stack pointer hold the word, and the stack pointer is
    there. -/
structure Pushed (w : UInt16) (s t : Cpu) : Prop where
  sp : t.registers.sp = s.registers.sp - 2
  word : t.wordAt t.registers.sp = w
  rest : ∀ x, x ≠ t.registers.sp → x ≠ t.registers.sp + 1 → t.at16 x = s.at16 x

/-- What a pop does: the word at the stack pointer is loaded, and the stack pointer is above it. -/
structure Popped (q : PopOp) (s t : Cpu) : Prop where
  sp : t.registers.sp = s.registers.sp + 2
  memory : t.memory = s.memory
  loaded : q.Loaded (s.wordAt s.registers.sp) t

theorem wordOf_highByte_lowByte (w : UInt16) : wordOf (highByte w) (lowByte w) = w := by
  apply UInt16.toNat_inj.mp
  rw [wordOf_toNat, highByte_toNat, lowByte_toNat]
  exact Nat.div_add_mod w.toNat 256

theorem lowByte_wordOf (h l : UInt8) : lowByte (wordOf h l) = l := by
  have hl := l.toNat_lt
  apply UInt8.toNat_inj.mp
  rw [lowByte_toNat, wordOf_toNat]
  omega

theorem ne_add_one (a : UInt16) : a ≠ a + 1 := by
  intro h
  have h' := congrArg UInt16.toNat h
  have ha := a.toNat_lt
  rw [UInt16.toNat_add] at h'
  have h1 : (1 : UInt16).toNat = 1 := rfl
  omega

/-- A word that is stored below the stack pointer is pushed. -/
theorem pushed_push {s t : Cpu} {high low : UInt8} (hr : t.registers = s.grow.registers)
    (hm : t.memory = (s.grow.push low high).memory) : Pushed (wordOf high low) s t := by
  let a := s.registers.sp - 2
  have hsp : t.registers.sp = a := congrArg Registers.sp hr
  have hat : ∀ x, t.at16 x = ((s.grow.put a low).put (a + 1) high).at16 x := fun x =>
    congrArg (fun m => m.at16 x) hm
  refine ⟨hsp, ?_, fun x hx hx' => ?_⟩
  · rw [hsp, Cpu.wordAt, hat, hat, Cpu.put_at16_self, Cpu.put_at16_of_ne _ _ (ne_add_one a),
      Cpu.put_at16_self]
  · rw [hsp] at hx hx'
    rw [hat, Cpu.put_at16_of_ne _ _ hx', Cpu.put_at16_of_ne _ _ hx]
    rfl

theorem PushOp.opcode_names (p : PushOp) :
    p.opcode ≠ secondPage ∧ Instruction.ofFirstPage p.opcode = some p.instruction := by
  cases p with
  | pair i => revert i; decide
  | accumulator => exact ⟨by decide, rfl⟩
  | call low high =>
    show (0xCD : UInt8) ≠ secondPage ∧ Instruction.ofFirstPage 0xCD = some (.call none)
    decide
  | restart n => revert n; decide

theorem PopOp.opcode_names (q : PopOp) :
    q.opcode ≠ secondPage ∧ Instruction.ofFirstPage q.opcode = some q.instruction := by
  cases q with
  | pair i => revert i; decide
  | accumulator | ret => exact ⟨by decide, rfl⟩

theorem grow_get16 (i : Fin 3) (s : Cpu) :
    s.grow.get16 (.ofIndex i) = s.get16 (.ofIndex i) := by
  match i with
  | 0 | 1 | 2 => rfl

theorem shrink_get16_set16 (i : Fin 3) (s : Cpu) (w : UInt16) :
    ((s.set16 (.ofIndex i) w).set16 .SP (s.get16 .SP + 2)).get16 (.ofIndex i) = w := by
  match i with
  | 0 | 1 | 2 => exact wordOf_highByte_lowByte w

theorem PushOp.step_pushed (p : PushOp) (s : Cpu) :
    Pushed (p.word s) s (p.instruction.step p.tail s) := by
  cases p with
  | pair i =>
    have h : Pushed (wordOf (highByte (s.grow.get16 (.ofIndex i)))
        (lowByte (s.grow.get16 (.ofIndex i)))) s
        ((Instruction.push (.ofIndex i)).step [] s) := pushed_push rfl rfl
    rw [wordOf_highByte_lowByte, grow_get16] at h
    exact h
  | accumulator => exact pushed_push rfl rfl
  | call low high | restart n =>
    rw [← wordOf_highByte_lowByte (PushOp.word s _)]
    exact pushed_push rfl rfl

theorem PopOp.step_popped (q : PopOp) (s : Cpu) :
    Popped q s (q.instruction.step [] s) := by
  cases q with
  | pair i => exact ⟨rfl, rfl, shrink_get16_set16 i (s.advance 1) _⟩
  | accumulator =>
    have hlow : lowByte (s.wordAt s.registers.sp) = s.topLow := lowByte_wordOf _ _
    have hhigh : highByte (s.wordAt s.registers.sp) = s.topHigh := highByte_wordOf _ _
    refine ⟨rfl, rfl, ?_⟩
    unfold Loaded
    rw [hlow, hhigh]
    exact ⟨highByte_wordOf _ _, lowByte_wordOf _ _, rfl, rfl, rfl, rfl⟩
  | ret => exact ⟨rfl, rfl, rfl⟩

/-- The core executes a push, and the word is pushed. -/
theorem PushOp.decodeExecute (p : PushOp) (s : Cpu) :
    ∃ t cycles, sm83.decodeExecute s p.bytes = .executed t cycles ∧ Pushed (p.word s) s t := by
  obtain ⟨hpage, hname⟩ := p.opcode_names
  have ht : p.tail.length = p.instruction.trailing := by cases p <;> rfl
  obtain ⟨cycles, h⟩ := decodeExecute_firstPage hpage hname _ ht s
  exact ⟨_, cycles, h, p.step_pushed s⟩

/-- The core executes a pop, and a word is popped. -/
theorem PopOp.decodeExecute (q : PopOp) (s : Cpu) :
    ∃ t cycles, sm83.decodeExecute s q.bytes = .executed t cycles ∧ Popped q s t := by
  obtain ⟨hpage, hname⟩ := q.opcode_names
  have ht : ([] : List UInt8).length = q.instruction.trailing := by cases q <;> rfl
  obtain ⟨cycles, h⟩ := decodeExecute_firstPage hpage hname _ ht s
  exact ⟨_, cycles, h, q.step_popped s⟩

/-! ## 3. Instructions that leave the stack alone -/

/-- The bytes of an instruction that the catalog claims, whose family does not write memory, and
    that never moves the stack pointer. -/
structure LeavesStack (bytes : List UInt8) : Prop where
  covered : ∃ ds, descriptorsOfDocument instructionSet catalog = .ok ds ∧
    ∃ d ∈ ds, d.memoryAccess ≠ .write ∧ ∃ m ∈ d.members, ∃ tail,
      tail.length = m.record.trailing ∧ bytes = m.key.bytes ++ tail
  sp : ∀ s t cycles, sm83.decodeExecute s bytes = .executed t cycles →
    t.registers.sp = s.registers.sp

theorem LeavesStack.decodeExecute {bytes : List UInt8} (h : LeavesStack bytes) (s : Cpu) :
    ∃ t cycles, sm83.decodeExecute s bytes = .executed t cycles ∧
      t.registers.sp = s.registers.sp ∧ t.memory = s.memory := by
  obtain ⟨ds, hds, d, hd, hw, m, hm, tail, ht, rfl⟩ := h.covered
  obtain ⟨_, ds', hb⟩ := exists_built
  cases hds.symm.trans hb.descriptors
  obtain ⟨rs, hmerged⟩ := hb.assembly.merged d hd
  obtain ⟨i, _, hi, he⟩ := hb.decodeExecute_member hd hm s ht
  have hdecl := declared_of_denotes hmerged hm hi (ht.trans hi.trailing.symm) s
  exact ⟨_, _, he, h.sp s _ _ he, hdecl.memory hw⟩

theorem passes_iff_mem_map {o : Operation} {a : Argument} :
    o.Passes a ↔ a ∈ o.arguments.map Prod.snd := by
  unfold Operation.Passes
  rw [List.mem_map]
  exact ⟨fun ⟨b, hb⟩ => ⟨(b, a), hb, rfl⟩, fun ⟨⟨b, _⟩, hb, he⟩ => ⟨b, he ▸ hb⟩⟩

/-- An instruction of the first page that is not lent memory to write, and keeps the stack
    pointer. -/
theorem leavesStack_of_names {b : UInt8} {i : Instruction} {tail : List UInt8}
    (hb : b ≠ secondPage) (hi : Instruction.ofFirstPage b = some i)
    (ht : tail.length = i.trailing) (hw : ¬i.operation.Passes (.memoryView true))
    (hsp : ∀ s, (i.step tail s).registers.sp = s.registers.sp) : LeavesStack (b :: tail) := by
  have hp : (OpcodeKey.plain b).Proper := .inl ⟨rfl, hb⟩
  refine ⟨?_, fun s t cycles he => ?_⟩
  · obtain ⟨_, ds, hbuilt⟩ := exists_built
    obtain ⟨f, hf, hk⟩ := claimed_of_names hp hi
    obtain ⟨d, hd, _, m, hm, hkey⟩ := hbuilt.assembly.complete f hf _ hk
    obtain ⟨rs, hmerged⟩ := hbuilt.assembly.merged d hd
    obtain ⟨j, hj, hden⟩ := hbuilt.denotes d hd m hm
    rw [hkey] at hj
    cases hj.symm.trans hi
    refine ⟨ds, hbuilt.descriptors, d, hd, fun hwrite => hw ?_, m, hm, tail,
      ht.trans hden.trailing, by rw [hkey]; rfl⟩
    rw [hden.operation, passes_iff hmerged hm]
    exact memoryView_mem.mpr hwrite
  · obtain ⟨n, hn⟩ := decodeExecute_firstPage hb hi tail ht s
    cases hn.symm.trans he
    exact hsp s

/-! ## 4. Nested runs -/

/-- A step of a run. -/
inductive StackStep where
  | push (p : PushOp)
  | pop (q : PopOp)
  | other (bytes : List UInt8)
  deriving DecidableEq, Repr

namespace StackStep

/-- The bytes of a step. -/
def bytes : StackStep → List UInt8
  | push p => p.bytes
  | pop q => q.bytes
  | other bytes => bytes

/-- By how many words the stack is longer after a step. -/
def change : StackStep → Int
  | push _ => 1
  | pop _ => -1
  | other _ => 0

end StackStep

/-- The pushes of a run that are not popped in it. -/
def live : List StackStep → Int
  | [] => 0
  | step :: steps => step.change + live steps

/-- Every pop comes after its push, with a nested run in between, and every push is popped. -/
inductive WellNested : List StackStep → Prop
  | nil : WellNested []
  | other (bytes : List UInt8) {rest : List StackStep} :
    WellNested rest → WellNested (.other bytes :: rest)
  | nest (p : PushOp) (q : PopOp) {inner rest : List StackStep} :
    WellNested inner → WellNested rest → WellNested (.push p :: (inner ++ .pop q :: rest))

@[simp] theorem live_nil : live [] = 0 := rfl

@[simp] theorem live_cons (step : StackStep) (steps : List StackStep) :
    live (step :: steps) = step.change + live steps := rfl

@[simp] theorem live_append (first rest : List StackStep) :
    live (first ++ rest) = live first + live rest := by
  induction first with
  | nil => rw [List.nil_append, live_nil, Int.zero_add]
  | cons step first ih => rw [List.cons_append, live_cons, live_cons, ih, Int.add_assoc]

theorem live_le_length (steps : List StackStep) : live steps ≤ steps.length := by
  induction steps with
  | nil => exact Int.le_of_eq live_nil
  | cons step steps ih =>
    have hc : step.change ≤ 1 := by cases step <;> simp [StackStep.change]
    rw [live_cons, List.length_cons]
    omega

/-- A prefix of two lists ends in the first, or in the second. -/
theorem prefix_append_cases {α : Type} {first rest l : List α} (h : l <+: first ++ rest) :
    l <+: first ∨ ∃ l', l' <+: rest ∧ l = first ++ l' := by
  rcases List.prefix_or_prefix_of_prefix h (List.prefix_append first rest) with h' | ⟨l', rfl⟩
  · exact .inl h'
  · exact .inr ⟨l', (List.prefix_append_right_inj first).mp h, rfl⟩

/-- Nothing that a nested run pushes is left after it. -/
theorem live_of_wellNested {steps : List StackStep} (h : WellNested steps) : live steps = 0 := by
  induction h with
  | nil => rfl
  | other bytes hrest ih => rw [live_cons, ih]; rfl
  | nest p q hinner hrest ihi ihr =>
    rw [live_cons, live_append, live_cons, ihi, ihr]
    rfl

/-- A nested run never pops what it has not pushed. -/
theorem zero_le_live {steps before : List StackStep} (h : WellNested steps)
    (hb : before <+: steps) : 0 ≤ live before := by
  induction h generalizing before with
  | nil =>
    rw [List.prefix_nil.mp hb]
    exact Int.le_of_eq live_nil.symm
  | other bytes hrest ih =>
    rcases List.prefix_cons_iff.mp hb with rfl | ⟨l, rfl, hl⟩
    · exact Int.le_of_eq live_nil.symm
    · rw [live_cons, StackStep.change, zero_add]
      exact ih hl
  | nest p q hinner hrest ihi ihr =>
    have hp : (StackStep.push p).change = 1 := rfl
    have hq : (StackStep.pop q).change = -1 := rfl
    rcases List.prefix_cons_iff.mp hb with rfl | ⟨l, rfl, hl⟩
    · exact Int.le_of_eq live_nil.symm
    rw [live_cons, hp]
    rcases prefix_append_cases hl with hi | ⟨l', hl', rfl⟩
    · have := ihi hi
      omega
    rw [live_append, live_of_wellNested hinner]
    rcases List.prefix_cons_iff.mp hl' with rfl | ⟨r, rfl, hr⟩
    · rw [live_nil]
      decide
    · have := ihr hr
      rw [live_cons, hq]
      omega

/-- At no time more words are live than so many. -/
def LiveAtMost (words : Nat) (steps : List StackStep) : Prop :=
  ∀ before, before <+: steps → live before ≤ words

namespace LiveAtMost

variable {words : Nat} {p : PushOp} {first rest : List StackStep}

theorem append_left (h : LiveAtMost words (first ++ rest)) : LiveAtMost words first :=
  fun before hb => h before (hb.trans (List.prefix_append first rest))

/-- What comes after a run that leaves words on the stack has not more to use. -/
theorem append_right (h : LiveAtMost words (first ++ rest)) (hf : 0 ≤ live first) :
    LiveAtMost words rest := fun before hb => by
  have := h (first ++ before) ((List.prefix_append_right_inj first).mpr hb)
  rw [live_append] at this
  omega

/-- Inside a push, a word less may be live. -/
theorem inside (h : LiveAtMost words (.push p :: rest)) :
    ∃ n, words = n + 1 ∧ LiveAtMost n rest := by
  have hp : (StackStep.push p).change = 1 := rfl
  have hall : ∀ before, before <+: rest → 1 + live before ≤ words := fun before hb => by
    have := h (.push p :: before) (List.cons_prefix_cons.mpr ⟨rfl, hb⟩)
    rwa [live_cons, hp] at this
  have hone := hall [] List.nil_prefix
  rw [live_nil] at hone
  refine ⟨words - 1, by omega, fun before hb => ?_⟩
  have := hall before hb
  omega

/-- A run of few steps has few words live. -/
theorem of_length {steps : List StackStep} (h : steps.length ≤ words) :
    LiveAtMost words steps := fun before hb => by
  have := live_le_length before
  have := hb.length_le
  omega

end LiveAtMost

/-- **Every pop of a nested run has its push**, with a nested run in between. -/
theorem exists_push {steps before after : List StackStep} {q : PopOp} (h : WellNested steps)
    (hs : steps = before ++ .pop q :: after) :
    ∃ outer p inner, before = outer ++ .push p :: inner ∧ WellNested inner := by
  induction h generalizing before after with
  | nil => cases before <;> cases hs
  | other bytes hrest ih =>
    cases before with
    | nil => cases hs
    | cons step before =>
      obtain ⟨outer, p, inner, rfl, hi⟩ := ih (List.cons.inj hs).2
      exact ⟨step :: outer, p, inner, rfl, hi⟩
  | @nest p q' inner rest hinner hrest ihi ihr =>
    cases before with
    | nil => cases hs
    | cons step before =>
      obtain ⟨rfl, hs'⟩ := List.cons.inj hs
      -- The pop is that of this push, or after it, or it is in the inner run.
      rcases List.append_eq_append_iff.mp hs' with ⟨l, rfl, hl⟩ | ⟨l, rfl, hl⟩
      · cases l with
        | nil => exact ⟨[], p, inner, by rw [List.append_nil]; rfl, hinner⟩
        | cons step l =>
          obtain ⟨outer, p', inner', rfl, hi⟩ := ihr (List.cons.inj hl).2
          exact ⟨.push p :: (inner ++ step :: outer), p', inner',
            congrArg _ (List.append_assoc inner (step :: outer) (.push p' :: inner')).symm, hi⟩
      · cases l with
        | nil => exact ⟨[], p, before, rfl, by rwa [List.append_nil] at hinner⟩
        | cons step l =>
          obtain ⟨rfl, _⟩ := List.cons.inj hl
          obtain ⟨outer, p', inner', rfl, hi⟩ := ihi rfl
          exact ⟨.push p :: outer, p', inner', rfl, hi⟩

/-! ## 5. The stack after a nested run -/

/-- What a nested run leaves of the stack: the stack pointer, and all memory but the room that so
    many words take below it. Addresses are counted from the stack pointer up, round the end of
    memory. -/
structure Undisturbed (words : Nat) (s t : Cpu) : Prop where
  sp : t.registers.sp = s.registers.sp
  memory : ∀ x, (x - s.registers.sp).toNat + 2 * words < 65536 → t.at16 x = s.at16 x

namespace Undisturbed

theorem of_memory {s t : Cpu} (hsp : t.registers.sp = s.registers.sp) (hm : t.memory = s.memory)
    (words : Nat) : Undisturbed words s t :=
  ⟨hsp, fun x _ => congrArg (fun m => m.at16 x) hm⟩

theorem trans {words : Nat} {s t u : Cpu} (h₁ : Undisturbed words s t)
    (h₂ : Undisturbed words t u) : Undisturbed words s u := by
  refine ⟨h₂.sp.trans h₁.sp, fun x hx => ?_⟩
  have hx' : (x - t.registers.sp).toNat + 2 * words < 65536 := by
    rw [h₁.sp]
    exact hx
  exact (h₂.memory x hx').trans (h₁.memory x hx)

/-- The word at the stack pointer stays, if there is room for it. -/
theorem wordAt {words : Nat} {s t : Cpu} (h : Undisturbed words s t) (hw : words < 32768) :
    t.wordAt t.registers.sp = s.wordAt s.registers.sp := by
  have h₀ : (s.registers.sp - s.registers.sp).toNat + 2 * words < 65536 := by
    rw [UInt16.sub_self]
    show 0 + 2 * words < 65536
    omega
  have h₁ : (s.registers.sp + 1 - s.registers.sp).toNat + 2 * words < 65536 := by
    rw [UInt16.add_comm, UInt16.add_sub_cancel]
    show 1 + 2 * words < 65536
    omega
  rw [h.sp, Cpu.wordAt, Cpu.wordAt, h.memory _ h₀, h.memory _ h₁]

end Undisturbed

/-- An address is two further from a stack that has grown by a word, short of the end of memory. -/
theorem toNat_sub_sub_two {x sp : UInt16} (h : (x - sp).toNat + 2 < 65536) :
    (x - (sp - 2)).toNat = (x - sp).toNat + 2 := by
  have h2 : (2 : UInt16).toNat = 2 := rfl
  have hx := x.toNat_lt
  have hs := sp.toNat_lt
  rw [UInt16.toNat_sub] at h ⊢
  rw [UInt16.toNat_sub, UInt16.toNat_sub, h2]
  omega

/-- A push, a nested run with one word less, and a pop: the pop loads the word that was pushed. -/
theorem popped_of_pushed {words : Nat} {w : UInt16} {q : PopOp} {s₁ s₂ s₃ s₄ : Cpu}
    (hpush : Pushed w s₁ s₂) (hinner : Undisturbed words s₂ s₃) (hpop : Popped q s₃ s₄)
    (hw : words < 32768) : Undisturbed (words + 1) s₁ s₄ ∧ q.Loaded w s₄ := by
  refine ⟨⟨?_, fun x hx => ?_⟩, ?_⟩
  · rw [hpop.sp, hinner.sp, hpush.sp, UInt16.sub_add_cancel]
  · have hsp : (x - s₂.registers.sp).toNat = (x - s₁.registers.sp).toNat + 2 := by
      rw [hpush.sp]
      exact toNat_sub_sub_two (by omega)
    have hx₂ : x ≠ s₂.registers.sp := by
      rintro rfl
      rw [UInt16.sub_self] at hsp
      cases hsp
    have hx₃ : x ≠ s₂.registers.sp + 1 := by
      rintro rfl
      rw [UInt16.add_comm, UInt16.add_sub_cancel] at hsp
      have h1 : (1 : UInt16).toNat = 1 := rfl
      omega
    have h₄ : s₄.at16 x = s₃.at16 x := congrArg (fun m => m.at16 x) hpop.memory
    rw [h₄, hinner.memory x (by omega), hpush.rest x hx₂ hx₃]
  · have hload := hpop.loaded
    rw [hinner.wordAt hw, hpush.word] at hload
    exact hload

/-! ## 6. Whole runs -/

/-- Every step of a run leaves the stack alone or is a push or a pop. -/
def Disciplined (steps : List StackStep) : Prop :=
  ∀ bytes, .other bytes ∈ steps → LeavesStack bytes

theorem Disciplined.of_subset {first steps : List StackStep} (h : Disciplined steps)
    (hs : first ⊆ steps) : Disciplined first := fun bytes hb => h bytes (hs hb)

/-- The core executes every step. -/
theorem exists_step {step : StackStep} (h : ∀ bytes, .other bytes = step → LeavesStack bytes)
    (s : Cpu) : ∃ t cycles, sm83.decodeExecute s step.bytes = .executed t cycles := by
  cases step with
  | push p =>
    obtain ⟨t, cycles, he, _⟩ := p.decodeExecute s
    exact ⟨t, cycles, he⟩
  | pop q =>
    obtain ⟨t, cycles, he, _⟩ := q.decodeExecute s
    exact ⟨t, cycles, he⟩
  | other bytes =>
    obtain ⟨t, cycles, he, _⟩ := (h bytes rfl).decodeExecute s
    exact ⟨t, cycles, he⟩

/-- The core executes every run, nested or not. -/
theorem exists_run {steps : List StackStep} (h : Disciplined steps) (s : Cpu) :
    ∃ t, sm83.runAll s (steps.map StackStep.bytes) = some t := by
  induction steps generalizing s with
  | nil => exact ⟨s, rfl⟩
  | cons step steps ih =>
    obtain ⟨t, cycles, he⟩ := exists_step
      (fun bytes hb => h bytes (hb ▸ List.mem_cons_self)) s
    rw [List.map_cons, runAll_cons he]
    exact ih (h.of_subset (List.subset_cons_self step steps)) t

/-- **A nested run changes only the room that its words take**, and ends with the stack pointer
    where it was. By induction on the nesting: inside a push, a word less may be live. -/
theorem undisturbed_of_wellNested {steps : List StackStep} (h : WellNested steps)
    (hd : Disciplined steps) {words : Nat} (hw : words ≤ 32768) (hlive : LiveAtMost words steps)
    (s : Cpu) :
    ∃ t, sm83.runAll s (steps.map StackStep.bytes) = some t ∧ Undisturbed words s t := by
  induction h generalizing words s with
  | nil => exact ⟨s, rfl, .of_memory rfl rfl words⟩
  | @other bytes rest hrest ih =>
    obtain ⟨t, cycles, he, hsp, hm⟩ := (hd bytes List.mem_cons_self).decodeExecute s
    have hlive' : LiveAtMost words rest :=
      LiveAtMost.append_right hlive
        (Int.le_of_eq (live_of_wellNested (.other bytes .nil)).symm)
    obtain ⟨u, hu, htu⟩ := ih (hd.of_subset (List.subset_cons_self _ rest)) hw hlive' t
    exact ⟨u, (runAll_cons he _).trans hu, (Undisturbed.of_memory hsp hm words).trans htu⟩
  | @nest p q inner rest hinner hrest ihi ihr =>
    have hsplit : StackStep.push p :: (inner ++ .pop q :: rest) =
        (.push p :: (inner ++ [.pop q])) ++ rest := by simp
    have hdi : Disciplined inner := hd.of_subset fun step hs =>
      List.mem_cons_of_mem _ (List.mem_append_left _ hs)
    have hdr : Disciplined rest := hd.of_subset fun step hs =>
      List.mem_cons_of_mem _ (List.mem_append_right _ (List.mem_cons_of_mem _ hs))
    have hliver : LiveAtMost words rest := by
      rw [hsplit] at hlive
      exact hlive.append_right (Int.le_of_eq (live_of_wellNested (.nest p q hinner .nil)).symm)
    obtain ⟨n, rfl, hlivei⟩ := hlive.inside
    obtain ⟨s₂, c₂, he₂, hpush⟩ := p.decodeExecute s
    obtain ⟨s₃, hr₃, hundisturbed⟩ := ihi hdi (by omega) hlivei.append_left s₂
    obtain ⟨s₄, c₄, he₄, hpop⟩ := q.decodeExecute s₃
    obtain ⟨t, ht, hrest'⟩ := ihr hdr hw hliver s₄
    have hrun : sm83.runAll s ((StackStep.push p :: (inner ++ .pop q :: rest)).map
        StackStep.bytes) = some t :=
      calc _ = sm83.runAll s₂ ((inner ++ .pop q :: rest).map StackStep.bytes) := runAll_cons he₂ _
        _ = sm83.runAll s₃ ((StackStep.pop q :: rest).map StackStep.bytes) := by
          rw [List.map_append]
          exact runAll_append hr₃ _
        _ = sm83.runAll s₄ (rest.map StackStep.bytes) := runAll_cons he₄ _
        _ = some t := ht
    exact ⟨t, hrun, (popped_of_pushed hpush hundisturbed hpop (by omega)).1.trans hrest'⟩

/-- **A pop undoes its push.** A run pushes and pops in a well-nested order, with instructions in
    between that leave the stack alone, and never more words than memory holds. It is executed from
    any state and ends with the stack pointer where it was. Every pop has its push; after a push the
    word is at the stack pointer; after its pop the stack pointer is where it was before the push,
    and what was pushed is loaded. -/
theorem stack_discipline (s : Cpu) (steps : List StackStep) (hnest : WellNested steps)
    (hother : ∀ bytes, .other bytes ∈ steps → LeavesStack bytes)
    (hlive : LiveAtMost 32768 steps) :
    (∃ t, sm83.runAll s (steps.map StackStep.bytes) = some t ∧
      t.registers.sp = s.registers.sp) ∧
    (∀ before q after, steps = before ++ .pop q :: after →
      ∃ outer p inner, before = outer ++ .push p :: inner ∧ WellNested inner) ∧
    ∀ outer p inner q after, steps = outer ++ .push p :: (inner ++ .pop q :: after) →
      WellNested inner → ∃ s₁ s₂ s₃ s₄,
        sm83.runAll s (outer.map StackStep.bytes) = some s₁ ∧
        sm83.runAll s₁ [p.bytes] = some s₂ ∧
        sm83.runAll s₂ (inner.map StackStep.bytes) = some s₃ ∧
        sm83.runAll s₃ [q.bytes] = some s₄ ∧
        s₂.wordAt s₂.registers.sp = p.word s₁ ∧
        s₄.registers.sp = s₁.registers.sp ∧ q.Loaded (p.word s₁) s₄ := by
  refine ⟨?_, fun before q after hs => exists_push hnest hs, ?_⟩
  · obtain ⟨t, ht, hu⟩ := undisturbed_of_wellNested hnest hother le_rfl hlive s
    exact ⟨t, ht, hu.sp⟩
  · rintro outer p inner q after rfl hinner
    have hdo : Disciplined outer :=
      Disciplined.of_subset hother (List.subset_append_left outer _)
    have hdi : Disciplined inner := Disciplined.of_subset hother fun step hs =>
      List.mem_append_right _ (List.mem_cons_of_mem _ (List.mem_append_left _ hs))
    obtain ⟨n, hn, hlivei⟩ := (hlive.append_right
      (zero_le_live hnest (List.prefix_append outer _))).inside
    obtain ⟨s₁, h₁⟩ := exists_run hdo s
    obtain ⟨s₂, c₂, he₂, hpush⟩ := p.decodeExecute s₁
    obtain ⟨s₃, h₃, hundisturbed⟩ :=
      undisturbed_of_wellNested hinner hdi (by omega) hlivei.append_left s₂
    obtain ⟨s₄, c₄, he₄, hpop⟩ := q.decodeExecute s₃
    obtain ⟨hall, hloaded⟩ := popped_of_pushed hpush hundisturbed hpop (by omega)
    exact ⟨s₁, s₂, s₃, s₄, h₁, runAll_single he₂, h₃, runAll_single he₄, hpush.word, hall.sp,
      hloaded⟩

/-- The accumulator and the flags are pushed, a routine is called and returns, and the word is
    popped into BC. -/
def nestedRun : List StackStep :=
  [.push .accumulator, .other [0x3C], .push (.call 0x34 0x12), .other [0xAF], .pop .ret,
    .pop (.pair 0)]

/-- The stack begins at the end of memory, and the accumulator is not zero. -/
def lowStack : Cpu := { Cpu.initial with registers := { a := 0x7F, sp := 0x0001 }, cf := true }

theorem stack_discipline_nestedRun :
    WellNested nestedRun ∧ (∀ bytes, .other bytes ∈ nestedRun → LeavesStack bytes) ∧
      LiveAtMost 32768 nestedRun ∧
      (∃ t, sm83.runAll lowStack (nestedRun.map StackStep.bytes) = some t ∧
        t.registers.sp = 0x0001) ∧
      ∃ s₂ s₃ s₄, sm83.runAll lowStack [[0xF5]] = some s₂ ∧
        sm83.runAll s₂ [[0x3C], [0xCD, 0x34, 0x12], [0xAF], [0xC9]] = some s₃ ∧
        sm83.runAll s₃ [[0xC1]] = some s₄ ∧ s₄.registers.sp = 0x0001 ∧
        s₄.get16 .BC = 0x7F10 := by
  have hcalled : WellNested [.other [0xAF]] := .other _ .nil
  have hinner : WellNested [.other [0x3C], .push (.call 0x34 0x12), .other [0xAF], .pop .ret] :=
    .other _ (.nest (.call 0x34 0x12) .ret hcalled .nil)
  have hnest : WellNested nestedRun := .nest .accumulator (.pair 0) hinner .nil
  have hother : ∀ bytes, .other bytes ∈ nestedRun → LeavesStack bytes := by
    intro bytes hb
    have hb' : bytes = [0x3C] ∨ bytes = [0xAF] := by simpa [nestedRun] using hb
    rcases hb' with rfl | rfl
    · exact leavesStack_of_names (i := .stepByte true (.register .A)) (by decide) (by decide) rfl
        (by rw [passes_iff_mem_map]; decide) (fun s => rfl)
    · exact leavesStack_of_names (i := .alu .xor (.cell (.register .A))) (by decide) (by decide) rfl
        (by rw [passes_iff_mem_map]; decide) (fun s => rfl)
  have hlive : LiveAtMost 32768 nestedRun := .of_length (by decide)
  obtain ⟨hrun, -, hmatched⟩ := stack_discipline lowStack nestedRun hnest hother hlive
  obtain ⟨s₁, s₂, s₃, s₄, h₁, h₂, h₃, h₄, -, hsp, hword⟩ :=
    hmatched [] .accumulator _ (.pair 0) [] rfl hinner
  cases h₁
  exact ⟨hnest, hother, hlive, hrun, s₂, s₃, s₄, h₂, h₃, h₄, hsp, hword⟩

end Sm83Codegen
