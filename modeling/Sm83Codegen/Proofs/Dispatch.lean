import Mathlib.Data.List.Nodup
import Sm83Codegen.Machine.Core
import Sm83Codegen.Proofs.CallingConvention
import Sm83Codegen.Proofs.Claims

/-!
# Dispatch

Which instruction a core executes, and with what. A branch is found by its pattern and a routine by
its name; here both are found again from the member they were made for, and the names are gone.

* `Operation` -- what an instruction does once it is selected: what it binds, and its routine;
* `pattern_matches` -- the pattern of a member matches its key and as many bytes as its immediates
  take;
* `bytes_append_inj` -- instructions with different keys have no bytes in common;
* `decodeExecute_member`, `decodeExecute_undecoded` -- a core executes the operation of a member on
  the bytes of that member, and nothing on any others.
-/

namespace Sm83Codegen

/-! ## 1. Operations -/

/-- What an instruction does once it is selected: the bindings of its call, and what its branch and
    its routine make of them. -/
structure Operation where
  arguments : List (Binding × Argument)
  conditional : Bool
  length : UInt8
  fragment : Fragment
  updates : List FlagUpdate
  base : UInt8
  untaken : Option UInt8
  deriving DecidableEq, Repr

/-- The operation of a member. -/
def Descriptor.operation (d : Descriptor) (m : Member) : Operation where
  arguments := (d.parameters.map Parameter.binding).zip (d.arguments m)
  conditional := d.family.conditional
  length := d.length
  fragment := d.family.fragment
  updates := d.flagUpdates
  base := m.record.cycles.base
  untaken := if d.family.conditional then m.record.cycles.alternate else none

namespace Operation

/-- The routine of an operation, without its names. -/
def routine (o : Operation) : Routine :=
  ⟨"", false, "", [], o.conditional, o.length, o.fragment, o.updates⟩

/-- The cycles of an operation, by whether its routine branched. -/
def cycles (o : Operation) (taken : Bool) : UInt8 :=
  (Branch.mk [] "" [] o.base o.untaken).cycles taken

/-- Binds what the arguments of a call pass. -/
def pass (s : Cpu) (c : Captures) : List (Binding × Argument) → Run (List (Binding × Access))
  | [] => .ok []
  | (b, a) :: rest => do
    let x ← a.access s c
    let xs ← pass s c rest
    .ok ((b, x) :: xs)

/-- Calls the routine of an operation. -/
def call (o : Operation) (s : Cpu) (c : Captures) : Run (Cpu × UInt8) := do
  let bindings ← pass s c o.arguments
  let (frame, taken) ← o.routine.run ⟨s, bindings⟩
  .ok (frame.cpu, o.cycles taken)

/-- How an operation ends. -/
def execute (o : Operation) (s : Cpu) (c : Captures) : Outcome :=
  match o.call s c with
  | .ok (t, cycles) => .executed t cycles
  | .error fault => .faulted fault

end Operation

/-! ## 2. Matching -/

/-- What the bytes after the opcode are bound to. -/
def Captures.ofTail : List UInt8 → Captures
  | [b] => { immediate := some b }
  | [l, h] => { low := some l, high := some h }
  | _ => {}

/-- A pattern that begins with fixed bytes matches what begins with them. -/
theorem matchPattern_bytes {c c' : Captures} {bs bytes : List UInt8} {ps : List PatternItem} :
    matchPattern c (bs.map .byte ++ ps) bytes = some c' ↔
      ∃ tail, bytes = bs ++ tail ∧ matchPattern c ps tail = some c' := by
  induction bs generalizing bytes with
  | nil => simp
  | cons b bs ih =>
    cases bytes with
    | nil => simp [matchPattern]
    | cons x bytes =>
      rw [List.map_cons, List.cons_append, matchPattern]
      by_cases hb : b = x
      · subst hb
        simp [PatternItem.match?, ih]
      · have hm : PatternItem.match? c x (.byte b) = none := if_neg hb
        simp [hm, Ne.symm hb]

/-- The pattern of the operands matches as many bytes as their immediates take. -/
theorem matchPattern_operands {os : List Operand} {tail : List UInt8} {c : Captures}
    (h : (os.filter (fun o => o.kind.isImmediate)).length ≤ 1) :
    matchPattern {} (os.flatMap operandPattern) tail = some c ↔
      tail.length = Layout.immediateBytes os ∧ c = .ofTail tail := by
  rw [← operandPatterns_length]
  rcases operandPatterns_cases h with h | h | h <;> rw [h]
  · match tail with
    | [] => exact ⟨fun h => ⟨rfl, (Option.some.inj h).symm⟩, fun ⟨_, h⟩ => congrArg some h.symm⟩
    | _ :: _ => simp [matchPattern]
  · match tail with
    | [b] => exact ⟨fun h => ⟨rfl, (Option.some.inj h).symm⟩, fun ⟨_, h⟩ => congrArg some h.symm⟩
    | [] | _ :: _ :: _ => simp [matchPattern, PatternItem.match?]
  · match tail with
    | [l, u] => exact ⟨fun h => ⟨rfl, (Option.some.inj h).symm⟩, fun ⟨_, h⟩ => congrArg some h.symm⟩
    | [] | [_] | _ :: _ :: _ :: _ => simp [matchPattern, PatternItem.match?]

/-- **The pattern of a member matches its key, followed by the bytes of its immediates.** -/
theorem Member.Sound.pattern_matches {f : Family} {m : Member} (h : m.Sound f)
    {bytes : List UInt8} {c : Captures} :
    matchPattern {} m.pattern bytes = some c ↔
      ∃ tail, bytes = m.key.bytes ++ tail ∧
        tail.length = Layout.immediateBytes m.operands ∧ c = .ofTail tail := by
  unfold Member.pattern
  rw [matchPattern_bytes]
  simp only [matchPattern_operands h.layout.immediates]

/-- The number of bytes after the opcode is the one that the table's length leaves. -/
theorem Member.Sound.trailing {f : Family} {m : Member} (h : m.Sound f) :
    m.record.trailing = Layout.immediateBytes m.operands := by
  have hl := h.layout.length
  unfold Record.trailing
  omega

/-! ## 3. Different instructions -/

/-- A key of the two pages, other than the byte that selects the second. -/
def OpcodeKey.Proper (k : OpcodeKey) : Prop :=
  (k.page = none ∧ k.opcode ≠ secondPage) ∨ k.page = some secondPage

instance (k : OpcodeKey) : Decidable k.Proper := by
  unfold OpcodeKey.Proper
  exact inferInstance

/-- **Instructions with the same bytes have the same key.** -/
theorem OpcodeKey.bytes_append_inj {k l : OpcodeKey} (hk : k.Proper) (hl : l.Proper)
    {tail tail' : List UInt8} (h : k.bytes ++ tail = l.bytes ++ tail') : k = l ∧ tail = tail' := by
  obtain ⟨p, o⟩ := k
  obtain ⟨q, u⟩ := l
  rcases hk with ⟨hp, ho⟩ | hp <;> rcases hl with ⟨hq, hu⟩ | hq <;> dsimp only at hp hq <;>
    subst hp hq
  · obtain ⟨rfl, rfl⟩ := List.cons.inj h
    exact ⟨rfl, rfl⟩
  · obtain ⟨he, _⟩ := List.cons.inj h
    exact absurd he ho
  · obtain ⟨he, _⟩ := List.cons.inj h
    exact absurd he.symm hu
  · obtain ⟨_, h⟩ := List.cons.inj h
    obtain ⟨rfl, rfl⟩ := List.cons.inj h
    exact ⟨rfl, rfl⟩

/-! ## 4. Calling -/

theorem Argument.access_reg8 (s : Cpu) (c : Captures) (r : Reg8) :
    (Argument.reg8 r.name).access s c = .ok (.value (.reg8 r)) := by cases r <;> rfl

theorem Argument.access_reg16 (s : Cpu) (c : Captures) (r : Reg16) :
    (Argument.reg16 r.name).access s c = .ok (.value (.reg16 r)) := by cases r <;> rfl

/-- A parameter takes what an argument that fits it passes. -/
theorem Argument.Fits.accepts {a : Argument} {p : Parameter} (h : a.Fits p) {s : Cpu}
    {c : Captures} {x : Access} (hx : a.access s c = .ok x) : p.type.accepts x = true := by
  cases h with
  | pc | registers | literal | conditionFlag | flagCondition | flagBorrow | flagValue =>
    cases hx
    rfl
  | memory mutable =>
    cases hx
    exact beq_self_eq_true mutable
  | reg8 r b =>
    rw [Argument.access_reg8] at hx
    cases hx
    rfl
  | reg16 r b =>
    rw [Argument.access_reg16] at hx
    cases hx
    rfl
  | byte =>
    obtain ⟨_, _, hx⟩ := Logged.bind_eq_ok.mp hx
    cases hx
    rfl
  | word =>
    obtain ⟨_, _, hx⟩ := Logged.bind_eq_ok.mp hx
    obtain ⟨_, _, hx⟩ := Logged.bind_eq_ok.mp hx
    cases hx
    rfl

/-- Arguments that fit are bound to the names of their parameters. -/
theorem bindArguments_eq_pass {as : List Argument} {ps : List Parameter}
    (h : List.Forall₂ Argument.Fits as ps) (s : Cpu) (c : Captures) (name : String) :
    bindArguments s c name ps as = Operation.pass s c ((ps.map Parameter.binding).zip as) := by
  induction h with
  | nil => rfl
  | @cons a p as ps hap _ ih =>
    rw [List.map_cons, List.zip_cons_cons]
    unfold bindArguments Operation.pass
    cases hx : a.access s c with
    | error e => rfl
    | ok x =>
      show (if p.type.accepts x then _ else _) = _
      rw [if_pos (hap.accepts hx), ih]
      rfl

/-- A routine is found by its name among routines with different names. -/
theorem find?_routine {ds : List Descriptor} (h : (ds.map Descriptor.routineName).Nodup)
    {d : Descriptor} (hd : d ∈ ds) :
    (ds.map Descriptor.routine).find? (fun r => r.name == d.routineName) = some d.routine := by
  induction ds with
  | nil => cases hd
  | cons e ds ih =>
    rw [List.map_cons, List.nodup_cons] at h
    rw [List.map_cons]
    rcases List.mem_cons.mp hd with rfl | hd
    · exact List.find?_cons_of_pos (beq_self_eq_true d.routineName)
    · have hne : e.routine.name ≠ d.routineName := fun he =>
        h.1 (List.mem_map.mpr ⟨d, hd, he.symm⟩)
      rw [List.find?_cons_of_neg (by simpa using hne)]
      exact ih h.2 hd

/-! ## 5. Executing -/

/-- The first success in a list is any success, if all of them are alike. -/
theorem findSome?_eq_of_alike {α β : Type} {l : List α} {g : α → Option β} {a : α} {b : β}
    (ha : a ∈ l) (hb : g a = some b) (halike : ∀ a' ∈ l, ∀ b', g a' = some b' → b' = b) :
    l.findSome? g = some b := by
  cases h : l.findSome? g with
  | none =>
    rw [List.findSome?_eq_none_iff.mp h a ha] at hb
    cases hb
  | some b' =>
    obtain ⟨a', ha', hb'⟩ := List.exists_of_findSome?_eq_some h
    rw [halike a' ha' b' hb']

section Assembled

variable {t : Table} {catalog : List Family} {ds : List Descriptor} {d : Descriptor} {m : Member}

theorem Assembly.sound (h : Assembly t catalog ds) (hd : d ∈ ds) (hm : m ∈ d.members) :
    m.Sound d.family := by
  obtain ⟨_, hmg⟩ := h.merged d hd
  exact hmg.sound hm

/-- The branch of a member calls the routine of its family with the member's arguments. -/
theorem Assembly.callBranch (h : Assembly t catalog ds)
    (hn : (ds.map Descriptor.routineName).Nodup) (hd : d ∈ ds) (hm : m ∈ d.members) (s : Cpu)
    (c : Captures) :
    (Core.ofDescriptors ds).callBranch s (d.branch m) c = (d.operation m).call s c := by
  obtain ⟨_, hmg⟩ := h.merged d hd
  unfold Core.callBranch
  rw [show (Core.ofDescriptors ds).routines.find? (fun r => r.name == (d.branch m).routine) =
    some d.routine from find?_routine hn hd]
  show (bindArguments s c d.routineName d.parameters (d.arguments m) >>= _) = _
  rw [bindArguments_eq_pass (arguments_fit hmg hm)]
  rfl

/-- What a member matches selects its branch. -/
theorem Assembly.select_member (h : Assembly t catalog ds)
    (hp : ∀ d ∈ ds, ∀ m ∈ d.members, m.key.Proper) (hd : d ∈ ds) (hm : m ∈ d.members)
    {tail : List UInt8} (ht : tail.length = m.record.trailing) :
    (Core.ofDescriptors ds).select (m.key.bytes ++ tail) = some (d.branch m, .ofTail tail) := by
  have hs := h.sound hd hm
  rw [hs.trailing] at ht
  have hmatch := hs.pattern_matches.mpr ⟨tail, rfl, ht, rfl⟩
  refine findSome?_eq_of_alike (a := d.branch m)
    (List.mem_flatMap.mpr ⟨d, hd, List.mem_map_of_mem hm⟩) ?_ ?_
  · rw [show (d.branch m).pattern = m.pattern from rfl, hmatch]
    rfl
  · intro b hb r hr
    obtain ⟨d', hd', hb⟩ := List.mem_flatMap.mp hb
    obtain ⟨m', hm', rfl⟩ := List.mem_map.mp hb
    obtain ⟨c, hc, rfl⟩ := Option.map_eq_some_iff.mp hr
    obtain ⟨tail', he, _, rfl⟩ := (h.sound hd' hm').pattern_matches.mp hc
    obtain ⟨hk, rfl⟩ := OpcodeKey.bytes_append_inj (hp d hd m hm) (hp d' hd' m' hm') he
    obtain ⟨rfl, rfl⟩ := h.unique d hd d' hd' m hm m' hm' hk
    rfl

/-- **A core executes the operation of a member on the bytes of that member.** -/
theorem Assembly.decodeExecute_member (h : Assembly t catalog ds)
    (hp : ∀ d ∈ ds, ∀ m ∈ d.members, m.key.Proper) (hn : (ds.map Descriptor.routineName).Nodup)
    (hd : d ∈ ds) (hm : m ∈ d.members) (s : Cpu) {tail : List UInt8}
    (ht : tail.length = m.record.trailing) :
    (Core.ofDescriptors ds).decodeExecute s (m.key.bytes ++ tail) =
      (d.operation m).execute s (.ofTail tail) := by
  unfold Core.decodeExecute
  rw [h.select_member hp hd hm ht]
  dsimp only
  rw [h.callBranch hn hd hm]
  rfl

/-- **A core decodes nothing but the bytes of its members.** -/
theorem Assembly.decodeExecute_undecoded (h : Assembly t catalog ds) (s : Cpu)
    {bytes : List UInt8} (hb : ∀ d ∈ ds, ∀ m ∈ d.members, ∀ tail,
      tail.length = m.record.trailing → bytes ≠ m.key.bytes ++ tail) :
    (Core.ofDescriptors ds).decodeExecute s bytes = .undecoded bytes := by
  have hnone : (Core.ofDescriptors ds).select bytes = none := by
    refine List.findSome?_eq_none_iff.mpr fun b hmem => ?_
    obtain ⟨d, hd, hmem⟩ := List.mem_flatMap.mp hmem
    obtain ⟨m, hm, rfl⟩ := List.mem_map.mp hmem
    rw [Option.map_eq_none_iff]
    cases hc : matchPattern {} (d.branch m).pattern bytes with
    | none => rfl
    | some c =>
      have hs := h.sound hd hm
      obtain ⟨tail, he, ht, _⟩ := hs.pattern_matches.mp hc
      exact absurd he (hb d hd m hm tail (by rw [hs.trailing, ht]))
  unfold Core.decodeExecute
  rw [hnone]

end Assembled

end Sm83Codegen
