import Mathlib.Data.List.Forall2
import Mathlib.Data.List.Nodup
import Sm83Codegen.Convention

/-!
# What a merged family guarantees

Merging a family checks its records one by one and then against each other. This module says what
is known about a descriptor that came out of it.

* `Operand.Denotes` -- an operand whose name stands for something of its kind; every classified
  operand does (`classifyAll_denotes`), and so does a claimed condition;
* `Layout.Sound` -- the layouts that the check accepts (`check_eq_ok`);
* `Family.Admits` -- what makes a record a member; `ofRecord_eq_ok` -- the steps accept just that;
* `Grouped`, `groupsOf_grouped` -- members by their signatures, added one after the other;
* `unite_eq_ok`, `merge_eq_ok` -- a merged family has the given records as its members, and every
  member has the signature of the descriptor.
-/

namespace Sm83Codegen

open Logged (bind_eq_ok check_bind_eq_ok guard_eq_ok)

/-! ## 1. Operands that mean something -/

/-- The name of an operand stands for something of the operand's kind. -/
def Operand.Denotes (o : Operand) : Prop :=
  match o.kind with
  | .reg8 => ∃ r : Reg8, o.name = r.name
  | .reg16 | .regSP => ∃ r : Reg16, o.name = r.name
  | .imm8 | .imm16 => True
  | .literal => (literalOf o.name).isSome
  | .condition => (conditionOf o.name).isSome

theorem mem_of_contains {names : List String} {name : String} (h : names.contains name = true) :
    name ∈ names := by
  simpa using h

theorem exists_reg8 {name : String} (h : isReg8Name name = true) : ∃ r : Reg8, name = r.name := by
  have hm := mem_of_contains h
  simp only [reg8Names, List.mem_cons, List.not_mem_nil, or_false] at hm
  rcases hm with h | h | h | h | h | h | h | h
  exacts [⟨.A, h⟩, ⟨.F, h⟩, ⟨.B, h⟩, ⟨.C, h⟩, ⟨.D, h⟩, ⟨.E, h⟩, ⟨.H, h⟩, ⟨.L, h⟩]

theorem exists_pair {name : String} (h : pairNames.contains name = true) :
    ∃ r : Reg16, name = r.name := by
  have hm := mem_of_contains h
  simp only [pairNames, List.mem_cons, List.not_mem_nil, or_false] at hm
  rcases hm with h | h | h | h
  exacts [⟨.AF, h⟩, ⟨.BC, h⟩, ⟨.DE, h⟩, ⟨.HL, h⟩]

theorem conditionOf_isSome {name : String} (h : ["Z", "NZ", "NC"].contains name = true) :
    (conditionOf name).isSome = true := by
  have hm := mem_of_contains h
  simp only [List.mem_cons, List.not_mem_nil, or_false] at hm
  rcases hm with rfl | rfl | rfl <;> rfl

/-- What a name stands for, it stands for in every operand of that name. -/
theorem denotes_of_kindOf {name : String} {kind : OperandKind} (h : kindOf name = some kind)
    (indirect : Bool) (step : PostStep) : (Operand.mk name kind indirect step).Denotes := by
  unfold kindOf at h
  split at h
  · cases h
    trivial
  split at h
  · next hc =>
    cases h
    exact conditionOf_isSome hc
  split at h
  · cases h
    trivial
  split at h
  · next hs =>
    cases h
    exact ⟨.SP, beq_iff_eq.mp hs⟩
  split at h
  · next hr =>
    cases h
    exact exists_reg8 hr
  split at h
  · next hp =>
    cases h
    exact exists_pair hp
  split at h
  · next hl =>
    cases h
    exact hl
  · cases h

/-- The name of a register is classified as one. -/
theorem kindOf_of_register {name : String} (h : isReg8Name name = true ∨ isReg16Name name = true) :
    ∃ kind, kindOf name = some kind ∧ kind.isRegister = true := by
  rcases h with h | h
  · obtain ⟨r, rfl⟩ := exists_reg8 h
    exact ⟨.reg8, by cases r <;> decide, rfl⟩
  · unfold isReg16Name at h
    rw [Bool.or_eq_true, beq_iff_eq] at h
    rcases h with h | rfl
    · obtain ⟨r, rfl⟩ := exists_pair h
      cases r with
      | SP => exact ⟨.regSP, by decide, rfl⟩
      | _ => exact ⟨.reg16, by decide, rfl⟩
    · exact ⟨.regSP, by decide, rfl⟩

/-- An operand is classified by its name, which it keeps. -/
theorem classify_eq_ok {key : OpcodeKey} {e : OperandEntry} {o : Operand}
    (h : (Operand.classify key e).result = .ok o) :
    ∃ kind step, kindOf e.name = some kind ∧ o = ⟨e.name, kind, !e.immediate, step⟩ := by
  unfold Operand.classify at h
  split at h
  · cases h
  · next kind hk =>
    -- reported or not, an address that names none is classified by its name
    split at h
    · split at h <;> cases h <;> exact ⟨kind, _, hk, rfl⟩
    · split at h <;> cases h

theorem classifyAll_names {key : OpcodeKey} {es : List OperandEntry} {os : List Operand}
    (h : (Operand.classifyAll key es).result = .ok os) :
    os.map Operand.name = es.map OperandEntry.name :=
  Logged.map_eq_of_collect (fun _ _ he => by obtain ⟨_, _, _, rfl⟩ := classify_eq_ok he; rfl) h

theorem classifyAll_indirect {key : OpcodeKey} {es : List OperandEntry} {os : List Operand}
    (h : (Operand.classifyAll key es).result = .ok os) :
    os.map Operand.indirect = es.map (fun e => !e.immediate) :=
  Logged.map_eq_of_collect (fun _ _ he => by obtain ⟨_, _, _, rfl⟩ := classify_eq_ok he; rfl) h

theorem classifyAll_kindOf {key : OpcodeKey} {es : List OperandEntry} {os : List Operand}
    (h : (Operand.classifyAll key es).result = .ok os) :
    ∀ o ∈ os, kindOf o.name = some o.kind := by
  intro o ho
  have hm := Logged.collect_eq_ok.mp h
  have hok : (.ok o : Except GenerationError Operand) ∈ os.map .ok := List.mem_map_of_mem ho
  rw [← hm] at hok
  obtain ⟨e, _, he⟩ := List.mem_map.mp hok
  obtain ⟨kind, step, hk, rfl⟩ := classify_eq_ok he
  exact hk

theorem classifyAll_denotes {key : OpcodeKey} {es : List OperandEntry} {os : List Operand}
    (h : (Operand.classifyAll key es).result = .ok os) : ∀ o ∈ os, o.Denotes := fun o ho =>
  denotes_of_kindOf (classifyAll_kindOf h o ho) o.indirect o.step

/-- A condition operand that means something has a flag and a value. -/
theorem Operand.Denotes.condition {o : Operand} (h : o.Denotes) (hk : o.kind = .condition) :
    ∃ f v, o.condition? = some (f, v) := by
  unfold Operand.Denotes at h
  rw [hk] at h
  obtain ⟨⟨f, v⟩, hc⟩ := Option.isSome_iff_exists.mp h
  exact ⟨f, v, by unfold Operand.condition?; rw [hk]; exact hc⟩

/-! ## 2. Members -/

/-- What the first operand of a conditional member has to be: a condition, which it becomes. -/
def Family.Claims (f : Family) (raw os : List Operand) : Prop :=
  if f.conditional then ∃ o c rest, raw = o :: rest ∧ o.asCondition? = some c ∧ os = c :: rest
  else os = raw

/-- A member that a routine can have: two operands at most, with one immediate, one literal and
    one condition at most among them, the condition on a flag that the instruction leaves alone;
    and as long as its page byte, its opcode and its immediates. -/
structure Layout.Sound (f : Family) (r : Record) (os : List Operand) : Prop where
  operands : os.length ≤ 2
  immediates : (os.filter (fun o => o.kind.isImmediate)).length ≤ 1
  literals : (os.filter (fun o => o.kind == .literal)).length ≤ 1
  plain : f.conditional = false → Layout.conditionsOf os = []
  conditional : f.conditional = true → ∃ flag v, Layout.conditionsOf os = [(flag, v)] ∧
    r.flags.get flag = .unaffected ∧ r.cycles.alternate.isSome = true
  length : r.length.toNat = 1 + r.key.pageLength + Layout.immediateBytes os

/-- A record is a member of a family with these operands: the adjusted ones are classified, the
    condition is claimed, and a routine can have the layout. -/
structure Family.Admits (f : Family) (r : Record) (os : List Operand) : Prop where
  operands : ∃ raw, (Operand.classifyAll r.key (f.adjustment.apply r.operands)).result = .ok raw ∧
    f.Claims raw os
  layout : Layout.Sound f r os

section Members

variable {f : Family} {r : Record} {raw os : List Operand} {m : Member}

/-- An operand is claimed if it is direct and names a condition, which is what it becomes. -/
theorem Operand.asCondition?_eq_some {o c : Operand} : o.asCondition? = some c ↔
    (conditionOf o.name).isSome = true ∧ o.indirect = false ∧
      c = { o with kind := .condition } := by
  unfold asCondition?
  rw [Option.ite_none_right_eq_some, Bool.and_eq_true, Bool.not_eq_true', Option.some.injEq,
    and_assoc, eq_comm (b := c)]

theorem claimCondition_eq_ok : Layout.claimCondition f r raw = .ok os ↔
    ∃ o c rest, raw = o :: rest ∧ o.asCondition? = some c ∧ os = c :: rest := by
  unfold Layout.claimCondition
  constructor
  · intro h
    split at h
    · cases h
    · next o rest =>
      split at h
      · next c hc => exact ⟨o, c, rest, rfl, hc, (Except.ok.inj h).symm⟩
      · cases h
  · intro h
    obtain ⟨o, c, rest, rfl, hc, rfl⟩ := h
    dsimp only
    rw [hc]

theorem checkConditions_eq_ok : Layout.checkConditions f r os = .ok () ↔
    (f.conditional = false → Layout.conditionsOf os = []) ∧
    (f.conditional = true → ∃ flag v, Layout.conditionsOf os = [(flag, v)] ∧
      r.flags.get flag = .unaffected ∧ r.cycles.alternate.isSome = true) := by
  unfold Layout.checkConditions Layout.fault
  cases f.conditional with
  | false => cases Layout.conditionsOf os <;> simp
  | true =>
    match Layout.conditionsOf os with
    | [] | _ :: _ :: _ => simp
    | [(flag, v)] =>
      rw [guard_eq_ok, guard_eq_ok]
      simp [Option.isSome_iff_ne_none]

/-- The layout check accepts just the layouts that a routine can have. -/
theorem check_eq_ok : Layout.check f r os = .ok () ↔ Layout.Sound f r os := by
  unfold Layout.check Layout.fault
  rw [guard_eq_ok, guard_eq_ok, guard_eq_ok, check_bind_eq_ok, checkConditions_eq_ok, guard_eq_ok,
    bne_iff_ne, not_not, Nat.not_lt, Nat.not_lt, Nat.not_lt]
  constructor
  · intro h
    obtain ⟨h2, hi, hl, ⟨hplain, hconditional⟩, hlength, _⟩ := h
    exact ⟨h2, hi, hl, hplain, hconditional, hlength⟩
  · intro h
    exact ⟨h.operands, h.immediates, h.literals, ⟨h.plain, h.conditional⟩, h.length, rfl⟩

/-- **A record becomes a member if its family admits it.** -/
theorem ofRecord_eq_ok :
    (Member.ofRecord f r).result = .ok m ↔ m.record = r ∧ f.Admits r m.operands := by
  have hclaim {raw os : List Operand} :
      (if f.conditional then Layout.claimCondition f r raw else .ok raw) = .ok os ↔
        f.Claims raw os := by
    unfold Family.Claims
    split
    · exact claimCondition_eq_ok
    · rw [Except.ok.injEq, eq_comm]
  unfold Member.ofRecord
  simp only [Logged.result_bind, bind_eq_ok, Logged.result_lift, hclaim, Logged.result_pure]
  constructor
  · intro h
    obtain ⟨raw, hraw, os, hos, _, hlayout, h⟩ := h
    cases h
    exact ⟨rfl, ⟨raw, hraw, hos⟩, check_eq_ok.mp hlayout⟩
  · intro h
    obtain ⟨rfl, ⟨raw, hraw, hos⟩, hlayout⟩ := h
    exact ⟨raw, hraw, m.operands, hos, (), check_eq_ok.mpr hlayout, rfl⟩

/-- Claiming a condition replaces the first operand by one that names a flag. -/
theorem Family.Claims.denotes (h : f.Claims raw os) (hraw : ∀ o ∈ raw, o.Denotes) :
    ∀ o ∈ os, o.Denotes := by
  unfold Family.Claims at h
  split at h
  · obtain ⟨o, c, rest, rfl, hc, rfl⟩ := h
    obtain ⟨hnames, _, rfl⟩ := Operand.asCondition?_eq_some.mp hc
    exact List.forall_mem_cons.mpr ⟨hnames, (List.forall_mem_cons.mp hraw).2⟩
  · rw [h]
    exact hraw

/-- A record that became a member: its operands mean something, and its layout is sound. -/
structure Member.Sound (f : Family) (m : Member) : Prop where
  denotes : ∀ o ∈ m.operands, o.Denotes
  layout : Layout.Sound f m.record m.operands

theorem ofRecord_sound (h : (Member.ofRecord f r).result = .ok m) : m.Sound f := by
  obtain ⟨rfl, ⟨raw, hraw, hclaims⟩, hlayout⟩ := ofRecord_eq_ok.mp h
  exact ⟨hclaims.denotes (classifyAll_denotes hraw), hlayout⟩

end Members

/-! ## 3. Groups -/

/-- Members by their signatures: a group for each, with the keys of its members in order. -/
structure Grouped (ms : List Member) (gs : List SignatureGroup) : Prop where
  distinct : (gs.map Prod.fst).Nodup
  signatures : ∀ s, s ∈ gs.map Prod.fst ↔ ∃ m ∈ ms, m.signature = s
  keys : ∀ g ∈ gs, g.2 = (ms.filter (fun m => m.signature = g.1)).map Member.key
  whole : (gs.flatMap Prod.snd).Perm (ms.map Member.key)

/-- A key goes to the group of its signature, which is put last if it is new. -/
theorem addToGroup_signatures (s : Signature) (k : OpcodeKey) (gs : List SignatureGroup) :
    ∀ t, t ∈ (addToGroup s k gs).map (·.1) ↔ t = s ∨ t ∈ gs.map (·.1) := by
  intro t
  induction gs with
  | nil => simp [addToGroup]
  | cons g gs ih =>
    obtain ⟨u, ks⟩ := g
    unfold addToGroup
    split
    · next hu =>
      subst hu
      simp
    · rw [List.map_cons, List.mem_cons, ih, List.map_cons, List.mem_cons]
      tauto

section Groups

variable {s : Signature} {k : OpcodeKey} {gs : List SignatureGroup}

theorem addToGroup_distinct (h : (gs.map Prod.fst).Nodup) :
    ((addToGroup s k gs).map Prod.fst).Nodup := by
  induction gs with
  | nil => exact List.nodup_singleton s
  | cons g gs ih =>
    obtain ⟨t, ks⟩ := g
    obtain ⟨ht, hgs⟩ := List.nodup_cons.mp h
    unfold addToGroup
    split
    · exact h
    · next hne =>
      refine List.nodup_cons.mpr ⟨fun hmem => ?_, ih hgs⟩
      rcases (addToGroup_signatures s k gs t).mp hmem with heq | hmem
      · exact hne heq
      · exact ht hmem

/-- A group has the key if it is the one of the signature, and is as it was before otherwise. -/
theorem mem_addToGroup (h : (gs.map Prod.fst).Nodup) {g : SignatureGroup}
    (hg : g ∈ addToGroup s k gs) :
    g.1 ≠ s ∧ g ∈ gs ∨ g.1 = s ∧ (g.2 = [k] ∧ s ∉ gs.map Prod.fst ∨
      ∃ ks, (s, ks) ∈ gs ∧ g.2 = ks ++ [k]) := by
  induction gs with
  | nil =>
    rw [List.mem_singleton.mp hg]
    exact .inr ⟨rfl, .inl ⟨rfl, List.not_mem_nil⟩⟩
  | cons first gs ih =>
    obtain ⟨t, ks⟩ := first
    obtain ⟨ht, hgs⟩ := List.nodup_cons.mp h
    unfold addToGroup at hg
    split at hg
    · next heq =>
      subst heq
      rcases List.mem_cons.mp hg with rfl | hg
      · exact .inr ⟨rfl, .inr ⟨ks, List.mem_cons_self, rfl⟩⟩
      · refine .inl ⟨fun heq => ht ?_, List.mem_cons_of_mem _ hg⟩
        have hmem := List.mem_map_of_mem (f := Prod.fst) hg
        rwa [heq] at hmem
    · next hne =>
      rcases List.mem_cons.mp hg with rfl | hg
      · exact .inl ⟨hne, List.mem_cons_self⟩
      · rcases ih hgs hg with ⟨hne', hmem⟩ | ⟨heq, ⟨hkeys, hnew⟩ | ⟨ks', hmem, hkeys⟩⟩
        · exact .inl ⟨hne', List.mem_cons_of_mem _ hmem⟩
        · refine .inr ⟨heq, .inl ⟨hkeys, fun hmem => ?_⟩⟩
          rcases List.mem_cons.mp hmem with hst | hmem
          · exact hne hst.symm
          · exact hnew hmem
        · exact .inr ⟨heq, .inr ⟨ks', List.mem_cons_of_mem _ hmem, hkeys⟩⟩

theorem addToGroup_perm (s : Signature) (k : OpcodeKey) (gs : List SignatureGroup) :
    ((addToGroup s k gs).flatMap Prod.snd).Perm (gs.flatMap Prod.snd ++ [k]) := by
  induction gs with
  | nil => exact List.Perm.refl _
  | cons g gs ih =>
    obtain ⟨t, ks⟩ := g
    unfold addToGroup
    split
    · rw [List.flatMap_cons, List.flatMap_cons, List.append_assoc, List.append_assoc]
      exact List.perm_append_comm.append_left ks
    · rw [List.flatMap_cons, List.flatMap_cons, List.append_assoc]
      exact ih.append_left ks

/-- One more member is grouped. -/
theorem Grouped.add {ms : List Member} (h : Grouped ms gs) (m : Member) :
    Grouped (ms ++ [m]) (addToGroup m.signature m.key gs) where
  distinct := addToGroup_distinct h.distinct
  signatures s := by
    rw [addToGroup_signatures, h.signatures]
    constructor
    · rintro (rfl | ⟨n, hn, rfl⟩)
      · exact ⟨m, List.mem_append_right ms List.mem_cons_self, rfl⟩
      · exact ⟨n, List.mem_append_left _ hn, rfl⟩
    · rintro ⟨n, hn, rfl⟩
      rcases List.mem_append.mp hn with hn | hn
      · exact .inr ⟨n, hn, rfl⟩
      · exact .inl (congrArg Member.signature (List.mem_singleton.mp hn))
  keys g hg := by
    rw [List.filter_append, List.map_append]
    rcases mem_addToGroup h.distinct hg with ⟨hne, hmem⟩ | ⟨heq, ⟨hkeys, hnew⟩ | ⟨ks, hmem, hkeys⟩⟩
    · rw [h.keys g hmem, List.filter_cons_of_neg (by simpa using Ne.symm hne), List.filter_nil,
        List.map_nil, List.append_nil]
    · have hnone : ms.filter (fun n => n.signature = g.1) = [] := by
        refine List.filter_eq_nil_iff.mpr fun n hn hsig => hnew ((h.signatures _).mpr ⟨n, hn, ?_⟩)
        rw [← heq]
        exact of_decide_eq_true hsig
      rw [hkeys, hnone, List.filter_cons_of_pos (by simpa using heq.symm)]
      rfl
    · have hks : ks = (ms.filter (fun n => n.signature = m.signature)).map Member.key :=
        h.keys _ hmem
      rw [hkeys, hks, heq, List.filter_cons_of_pos (by simp)]
      rfl
  whole := by
    rw [List.map_append]
    exact (addToGroup_perm _ _ gs).trans (h.whole.append_right _)

theorem foldl_addToGroup_grouped {ms before : List Member} (h : Grouped before gs) :
    Grouped (before ++ ms) (ms.foldl (fun gs m => addToGroup m.signature m.key gs) gs) := by
  induction ms generalizing before gs with
  | nil =>
    rw [List.append_nil]
    exact h
  | cons m ms ih =>
    have hnext := ih (h.add m)
    rw [List.append_assoc] at hnext
    exact hnext

/-- **The groups of members are the members by their signatures.** -/
theorem groupsOf_grouped (ms : List Member) : Grouped ms (groupsOf ms) := by
  have hempty : Grouped [] [] :=
    ⟨List.nodup_nil, fun s => by simp, fun g hg => absurd hg List.not_mem_nil, List.Perm.refl _⟩
  exact foldl_addToGroup_grouped hempty

end Groups

/-! ## 4. Descriptors -/

/-- Members that unite have one signature, which is what their descriptor is made from. -/
theorem unite_eq_ok {f : Family} {ms : List Member} {d : Descriptor}
    (h : Descriptor.unite f ms = .ok d) :
    ∃ s, d = Descriptor.ofMembers f ms s ∧ ∀ m ∈ ms, m.signature = s := by
  unfold Descriptor.unite at h
  split at h
  · cases h
  · next s ks hg =>
    cases h
    refine ⟨s, rfl, fun m hm => ?_⟩
    have hmem := ((groupsOf_grouped ms).signatures _).mpr ⟨m, hm, rfl⟩
    rw [hg] at hmem
    exact List.mem_singleton.mp hmem
  · cases h

/-- Members made from records, one after the other, have these records. -/
theorem map_record_of_ofRecord {f : Family} {rs : List Record} {ms : List Member}
    (h : rs.map (fun r => (Member.ofRecord f r).result) = ms.map .ok) :
    ms.map (·.record) = rs := by
  induction rs generalizing ms with
  | nil =>
    cases ms with
    | nil => rfl
    | cons m ms => cases h
  | cons r rs ih =>
    cases ms with
    | nil => cases h
    | cons m ms =>
      obtain ⟨hr, hrs⟩ := List.cons.inj h
      rw [List.map_cons, (ofRecord_eq_ok.mp hr).1, ih hrs]

/-- Merging unites the members, whatever it reports about them. -/
theorem merge_result (f : Family) (rs : List Record) :
    (Descriptor.merge f rs).result = (Logged.collect (Member.ofRecord f) rs).result >>= Descriptor.unite f := by
  unfold Descriptor.merge
  rw [Logged.result_bind]
  refine bind_congr fun ms => ?_
  rw [Logged.result_bind, Logged.result_lift]
  cases Descriptor.unite f ms with
  | error e => rfl
  | ok d =>
    show (do
      if d.aliased then
        Logged.note .debug .families
          ("Family '" ++ f.name ++ "': aliased operands in " ++ keyList d.aliasedKeys)
      pure d : Logged Descriptor).result = .ok d
    split <;> rfl

/-- What is known about a merged family. -/
structure Descriptor.Merged (f : Family) (rs : List Record) (d : Descriptor) : Prop where
  family : d.family = f
  records : d.members.map (·.record) = rs
  members : ∀ m ∈ d.members, (Member.ofRecord f m.record).result = .ok m
  flags : ∀ m ∈ d.members, d.flags = Descriptor.withWidths f.carryWidths m.record.flags
  length : ∀ m ∈ d.members, d.length = m.record.length
  shapes : ∀ m ∈ d.members, d.shapes = m.operands.map Operand.shape

/-- **A merged family has the given records as its members, and they agree with it.** -/
theorem merge_eq_ok {f : Family} {rs : List Record} {d : Descriptor}
    (h : (Descriptor.merge f rs).result = .ok d) : d.Merged f rs := by
  rw [merge_result, bind_eq_ok] at h
  obtain ⟨ms, hms, h⟩ := h
  obtain ⟨s, rfl, hs⟩ := unite_eq_ok h
  have hm := Logged.collect_eq_ok.mp hms
  have hmem : ∀ m ∈ ms, ∃ r ∈ rs, (Member.ofRecord f r).result = .ok m := by
    intro m h
    have : (.ok m : Except GenerationError Member) ∈ ms.map .ok := List.mem_map_of_mem h
    rw [← hm] at this
    exact List.mem_map.mp this
  refine ⟨rfl, map_record_of_ofRecord hm, fun m h => ?_, fun m h => ?_, fun m h => ?_,
    fun m h => ?_⟩
  · obtain ⟨r, _, hr⟩ := hmem m h
    rw [(ofRecord_eq_ok.mp hr).1]
    exact hr
  · rw [← show m.signature.flags = m.record.flags from rfl, hs m h]
    rfl
  · rw [← show m.signature.length = m.record.length from rfl, hs m h]
    rfl
  · rw [← show m.signature.shapes = m.operands.map Operand.shape from rfl, hs m h]
    rfl

variable {f : Family} {rs : List Record} {d : Descriptor} {m : Member}

theorem Descriptor.Merged.sound (h : d.Merged f rs) (hm : m ∈ d.members) : m.Sound f :=
  ofRecord_sound (h.members m hm)

/-- Carry widths refine computed flags only. -/
theorem withWidths_get_of_not_computed (ws : List (Flag × CarryWidth)) {e : FlagEffects}
    {g : Flag} (h : (e.get g).isComputed = false) :
    (Descriptor.withWidths ws e).get g = e.get g := by
  unfold Descriptor.withWidths
  induction ws generalizing e with
  | nil => rfl
  | cons w ws ih =>
    rw [List.foldl_cons]
    split
    · next hw =>
      have hne : g ≠ w.1 := by
        rintro rfl
        rw [hw] at h
        cases h
      have hg := FlagEffects.get_set_of_ne e (.computed (some w.2)) hne
      rw [ih (by rw [hg]; exact h), hg]
    · exact ih h

/-- A flag that the table leaves alone or fixes is left alone or fixed by the descriptor, and the
    other way round. -/
theorem Descriptor.Merged.flags_get (h : d.Merged f rs) (hm : m ∈ d.members) {g : Flag}
    (hg : (m.record.flags.get g).isComputed = false) : d.flags.get g = m.record.flags.get g := by
  rw [h.flags m hm, withWidths_get_of_not_computed _ hg]

/-- Carry widths make no flag computed, and none anything else. -/
theorem withWidths_isComputed (ws : List (Flag × CarryWidth)) (e : FlagEffects) (g : Flag) :
    ((Descriptor.withWidths ws e).get g).isComputed = (e.get g).isComputed := by
  unfold Descriptor.withWidths
  induction ws generalizing e with
  | nil => rfl
  | cons w ws ih =>
    rw [List.foldl_cons, ih]
    split
    · next hw =>
      by_cases hg : g = w.1
      · subst hg
        rw [FlagEffects.get_set_self, hw]
        rfl
      · rw [FlagEffects.get_set_of_ne e _ hg]
    · rfl

theorem Descriptor.Merged.record_mem (h : d.Merged f rs) (hm : m ∈ d.members) : m.record ∈ rs :=
  h.records ▸ List.mem_map_of_mem hm

/-- A merged family computes the flags that the table says are computed. -/
theorem Descriptor.Merged.isComputed_get (h : d.Merged f rs) {x : Record} (hx : x ∈ rs) (g : Flag) :
    (d.flags.get g).isComputed = (x.flags.get g).isComputed := by
  rw [← h.records] at hx
  obtain ⟨m, hm, rfl⟩ := List.mem_map.mp hx
  rw [h.flags m hm, withWidths_isComputed]

/-- It fixes the flags that the table fixes. -/
theorem Descriptor.Merged.fixedValue_get (h : d.Merged f rs) {x : Record} (hx : x ∈ rs) (g : Flag) :
    (d.flags.get g).fixedValue = (x.flags.get g).fixedValue := by
  have hcomputed := h.isComputed_get hx g
  rw [← h.records] at hx
  obtain ⟨m, hm, rfl⟩ := List.mem_map.mp hx
  cases hg : m.record.flags.get g with
  | fixedFalse | fixedTrue | unaffected => rw [h.flags_get hm (by rw [hg]; rfl), hg]
  | computed width =>
    rw [hg] at hcomputed
    cases hd : d.flags.get g with
    | computed width => rfl
    | fixedFalse | fixedTrue | unaffected =>
      rw [hd] at hcomputed
      cases hcomputed

theorem Descriptor.Merged.fixed_eq (h : d.Merged f rs) {x : Record} (hx : x ∈ rs) :
    d.flags.fixed = x.flags.fixed := by
  unfold FlagEffects.fixed
  exact List.filterMap_congr fun g _ => by rw [h.fixedValue_get hx g]

end Sm83Codegen
