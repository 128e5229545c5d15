import Sm83Codegen.Proofs.Evaluation
import Sm83Codegen.Proofs.Generation

/-!
# The cycles of a test are those of its branch

A test states the cycles of its opcode from the presets of a scenario; the branch of the opcode
yields them from the flags it finds when it is called. The two agree, for every family that merges
and every test it is given.

* `lastPreset`, `TestCase.start` -- what presets make of a new machine; `flag_start` -- its flags;
* `testCase_eq_ok` -- a case keeps the presets of its scenario and adds some of fixed flags, which
  no condition tests;
* `Branch.count` -- the count that a branch yields, before the fragment is run;
  `Branch.Yields` -- it is also the count of every call that succeeds;
* `exists_bindings`, `condition_mem_arguments` -- the call of a member binds its arguments, and a
  condition under the names of a condition;
* `count_plain`, `count_conditional` -- the count of a branch in a state;
* `testBlock_cycles` -- the cycles of a case, and the count of its branch in the state of the case.
-/

namespace Sm83Codegen

/-! ## 1. The state that a case starts from -/

/-- The value that a preset gives a flag. -/
def Preset.flag? (F : Flag) : Preset → Option Bool
  | flag g v => if g = F then some v else none
  | _ => none

/-- The value that the last preset of a flag gives it. -/
def lastPreset (ps : List Preset) (F : Flag) : Option Bool :=
  ps.reverse.findSome? (Preset.flag? F)

/-- The state with a preset made. A case presets registers only under the names they have. -/
def Preset.apply (s : Cpu) : Preset → Cpu
  | reg8 name v =>
    match Reg8.ofName? name with
    | some r => s.set8 r v
    | none => s
  | reg16 name v =>
    match Reg16.ofName? name with
    | some r => s.set16 r v
    | none => s
  | flag F v => s.setFlag F v
  | memory a v => s.put a v

/-- The state that a case starts from: a new machine with its presets made in order. -/
def TestCase.start (c : TestCase) : Cpu :=
  c.presets.foldl Preset.apply { Cpu.initial with pc := startPc }

theorem lastPreset_append (ps qs : List Preset) (F : Flag) :
    lastPreset (ps ++ qs) F = (lastPreset qs F).or (lastPreset ps F) := by
  unfold lastPreset
  rw [List.reverse_append, List.findSome?_append]

theorem lastPreset_singleton (p : Preset) (F : Flag) : lastPreset [p] F = p.flag? F := by
  show [p].findSome? (Preset.flag? F) = _
  rw [List.findSome?_singleton]

theorem presetOf_eq (s : Scenario) (F : Flag) : s.presetOf F = lastPreset s.presets F := by
  unfold Scenario.presetOf lastPreset
  congr 1

/-- A preset changes a flag only if it is of this flag. -/
theorem flag_apply (s : Cpu) (p : Preset) (F : Flag) :
    (p.apply s).flag F = (p.flag? F).getD (s.flag F) := by
  cases p with
  | reg8 name v =>
    show (match Reg8.ofName? name with | some r => s.set8 r v | none => s : Cpu).flag F = s.flag F
    cases Reg8.ofName? name <;> cases F <;> rfl
  | reg16 name v =>
    show (match Reg16.ofName? name with | some r => s.set16 r v | none => s : Cpu).flag F = s.flag F
    cases Reg16.ofName? name <;> cases F <;> rfl
  | memory a v => cases F <;> rfl
  | flag G v =>
    show (s.setFlag G v).flag F = (if G = F then some v else none).getD (s.flag F)
    by_cases hG : G = F
    · subst hG
      rw [if_pos rfl]
      exact s.flag_setFlag_self G v
    · rw [if_neg hG]
      exact s.flag_setFlag_of_ne v (Ne.symm hG)

/-- The flags after presets are those of the last preset of each. -/
theorem flag_foldl_apply (ps : List Preset) (s : Cpu) (F : Flag) :
    (ps.foldl Preset.apply s).flag F = (lastPreset ps F).getD (s.flag F) := by
  induction ps generalizing s with
  | nil => rfl
  | cons p ps ih =>
    rw [List.foldl_cons, ih, flag_apply, ← List.singleton_append, lastPreset_append,
      lastPreset_singleton]
    cases lastPreset ps F <;> rfl

/-- **A flag of the start of a case is its last preset**, or reset. -/
theorem flag_start (c : TestCase) (F : Flag) :
    c.start.flag F = (lastPreset c.presets F).getD false := by
  unfold TestCase.start
  rw [flag_foldl_apply]
  cases F <;> rfl

/-! ## 2. The presets of a case -/

section Cases

variable {f : Family} {rs : List Record} {d : Descriptor} {m : Member}

/-- **A case has the bytes, the presets and the cycles of its scenario**, and presets of fixed flags
    after those. -/
theorem testCase_eq_ok {k : ScenarioKind} {s : Scenario} {c : TestCase}
    (h : d.testCase m k s = .ok c) :
    s.extraBytes.length = m.record.trailing ∧ c.bytes = m.key.bytes ++ s.extraBytes ∧
      d.caseCycles m k s = .ok c.cycles ∧ ∃ added, c.presets = s.presets ++ added ∧
        ∀ p ∈ added, ∃ F v, (F, v) ∈ d.flags.fixed ∧ p = .flag F (!v) := by
  obtain ⟨hlength, _, cycles, state, hcycles, hstate, rfl⟩ := testCase_made h
  exact ⟨hlength, rfl, hcycles, (addFixed_made hstate).1⟩

/-- A fixed flag is not left alone. -/
theorem not_mem_fixed {e : FlagEffects} {F : Flag} (h : e.get F = .unaffected) (v : Bool) :
    (F, v) ∉ e.fixed := by
  rw [mem_fixed, h]
  exact fun hnone => nomatch hnone

/-- The presets that are added change no flag that is left alone. -/
theorem lastPreset_added {F : Flag} (h : d.flags.get F = .unaffected) (ps : List Preset)
    {added : List Preset} (ha : ∀ p ∈ added, ∃ G v, (G, v) ∈ d.flags.fixed ∧ p = .flag G (!v)) :
    lastPreset (ps ++ added) F = lastPreset ps F := by
  have hnone : lastPreset added F = none := by
    refine List.findSome?_eq_none_iff.mpr fun p hp => ?_
    obtain ⟨G, v, hmem, rfl⟩ := ha p (List.mem_reverse.mp hp)
    refine if_neg fun hG => ?_
    subst hG
    exact not_mem_fixed h v hmem
  rw [lastPreset_append, hnone, Option.none_or]

/-! ## 3. The condition of a member -/

/-- The first operand of a member of a conditional family is a condition. -/
theorem ofRecord_condition {r : Record} (h : (Member.ofRecord f r).result = .ok m)
    (hf : f.conditional = true) : ∃ o os, m.operands = o :: os ∧ o.kind = .condition := by
  obtain ⟨_, ⟨raw, _, hclaims⟩, _⟩ := ofRecord_eq_ok.mp h
  rw [Family.Claims, if_pos hf] at hclaims
  obtain ⟨o, c, rest, _, hc, hos⟩ := hclaims
  obtain ⟨_, _, rfl⟩ := Operand.asCondition?_eq_some.mp hc
  exact ⟨_, rest, hos, rfl⟩

/-- **A member of a conditional family has a condition**, on a flag that is left alone, and a second
    cycle count. -/
theorem Descriptor.Merged.condition (h : d.Merged f rs) (hm : m ∈ d.members)
    (hf : f.conditional = true) :
    ∃ F v n o os, m.operands = o :: os ∧ o.kind = .condition ∧ o.condition? = some (F, v) ∧
      d.condition m = some (F, v) ∧ d.flags.get F = .unaffected ∧
      m.record.cycles.alternate = some n := by
  obtain ⟨o, os, hos, hk⟩ := ofRecord_condition (h.members m hm) hf
  have hs := h.sound hm
  obtain ⟨F, v, hc⟩ := (hs.denotes o (by rw [hos]; exact List.mem_cons_self)).condition hk
  obtain ⟨G, w, hone, hunaffected, halt⟩ := hs.layout.conditional hf
  obtain ⟨n, hn⟩ := Option.isSome_iff_exists.mp halt
  have hFG : (F, v) = (G, w) := by
    unfold Layout.conditionsOf at hone
    rw [hos, List.filterMap_cons, hc] at hone
    exact (List.cons.inj hone).1
  cases hFG
  refine ⟨F, v, n, o, os, hos, hk, hc, ?_, ?_, hn⟩
  · unfold Descriptor.condition
    rw [h.family, if_pos hf, hos]
    exact hc
  · rw [h.flags_get hm (by rw [hunaffected]; rfl), hunaffected]

/-! ## 4. The count of a branch -/

/-- The count that a branch yields when it calls a routine: the arguments are bound, the program
    counter is moved and the condition is looked at. The fragment has no part in it. -/
def Branch.count (b : Branch) (r : Routine) (s : Cpu) (c : Captures) : Run UInt8 := do
  let bindings ← bindArguments s c r.name r.parameters b.arguments
  let frame ← advanced ⟨s, bindings⟩ r.length
  let taken ← r.branches frame
  .ok (b.cycles taken)

theorem count_eq {b : Branch} {r : Routine} {s : Cpu} {c : Captures}
    {bindings : List (Binding × Access)} {moved : Frame} {taken : Bool}
    (hb : bindArguments s c r.name r.parameters b.arguments = .ok bindings)
    (hmoved : advanced ⟨s, bindings⟩ r.length = .ok moved)
    (htaken : r.branches moved = .ok taken) : b.count r s c = .ok (b.cycles taken) := by
  unfold Branch.count
  rw [hb]
  show (advanced ⟨s, bindings⟩ r.length >>= fun frame => r.branches frame >>= fun taken =>
    .ok (b.cycles taken)) = _
  rw [hmoved]
  show (r.branches moved >>= fun taken => .ok (b.cycles taken)) = _
  rw [htaken]
  rfl

/-- A branch yields a count in a state: it is what the branch comes to, and the time that every call
    of the branch takes that succeeds. -/
structure Branch.Yields (b : Branch) (r : Routine) (s : Cpu) (c : Captures) (n : UInt8) : Prop where
  count : b.count r s c = .ok n
  call : ∀ core : Core, core.routines.find? (fun r => r.name == b.routine) = some r →
    ∀ t q, core.callBranch s b c = .ok (t, q) → q = n

/-- **A call that succeeds takes the count of its branch.** -/
theorem yields_of_count {b : Branch} {r : Routine} {s : Cpu} {c : Captures} {n : UInt8}
    (h : b.count r s c = .ok n) : b.Yields r s c n := by
  refine ⟨h, fun core hr t q hcall => ?_⟩
  unfold Core.callBranch at hcall
  rw [hr] at hcall
  obtain ⟨bindings, hb, hcall⟩ := Logged.bind_eq_ok.mp hcall
  obtain ⟨⟨g, taken⟩, hrun, hcall⟩ := Logged.bind_eq_ok.mp hcall
  cases hcall
  obtain ⟨moved, hmoved, htaken, _⟩ := Routine.run_eq_ok.mp hrun
  exact Except.ok.inj ((count_eq hb hmoved htaken).symm.trans h)

/-! ## 5. The arguments of a call -/

/-- The byte that captures have for a byte of a pattern. -/
def Captures.get? (c : Captures) : PatternItem → Option UInt8
  | .byte b => some b
  | .immediate => c.immediate
  | .immediateLow => c.low
  | .immediateHigh => c.high

/-- A match captures the bytes that its pattern names. -/
theorem captured_of_match {c c' : Captures} {ps : List PatternItem} {bytes : List UInt8}
    (h : matchPattern c ps bytes = some c') {p : PatternItem}
    (hp : p ∈ ps ∨ (c.get? p).isSome = true) : (c'.get? p).isSome = true := by
  induction ps generalizing c bytes with
  | nil =>
    cases bytes with
    | nil =>
      cases h
      exact hp.resolve_left List.not_mem_nil
    | cons b bytes => cases h
  | cons q ps ih =>
    cases bytes with
    | nil => cases h
    | cons b bytes =>
      unfold matchPattern at h
      split at h
      · next c₁ hq =>
        refine ih h ?_
        -- the first byte of the pattern keeps what was captured, and adds itself
        have hkeeps : p = q ∨ (c.get? p).isSome = true → (c₁.get? p).isSome = true := by
          intro hpq
          cases q with
          | byte x =>
            have hq : (if x = b then some c else none) = some c₁ := hq
            split at hq
            · cases hq
              rcases hpq with rfl | hpq
              · rfl
              · exact hpq
            · cases hq
          | immediate | immediateLow | immediateHigh =>
            cases hq
            rcases hpq with rfl | hpq
            · rfl
            · cases p <;> first | rfl | exact hpq
        rcases hp with hp | hp
        · rcases List.mem_cons.mp hp with hp | hp
          · exact .inr (hkeeps (.inl hp))
          · exact .inl hp
        · exact .inr (hkeeps (.inr hp))
      · cases h

/-- An argument that fits has something to pass, if the bytes it is made from are captured. -/
theorem Argument.Fits.exists_access {a : Argument} {p : Parameter} (h : a.Fits p) (s : Cpu)
    {c : Captures} (hc : ∀ q ∈ a.immediates, (c.get? q).isSome = true) :
    ∃ x, a.access s c = .ok x := by
  cases h with
  | pc | registers | memory | literal | conditionFlag | flagCondition | flagBorrow | flagValue =>
    exact ⟨_, rfl⟩
  | reg8 r b => exact ⟨_, Argument.access_reg8 s c r⟩
  | reg16 r b => exact ⟨_, Argument.access_reg16 s c r⟩
  | byte =>
    obtain ⟨b, hb⟩ := Option.isSome_iff_exists.mp (hc .immediate List.mem_cons_self)
    have hb : c.immediate = some b := hb
    refine ⟨.value (.number .u8 b.toNat), ?_⟩
    unfold Argument.access
    rw [hb]
    rfl
  | word =>
    obtain ⟨l, hl⟩ := Option.isSome_iff_exists.mp (hc .immediateLow (by decide))
    obtain ⟨u, hu⟩ := Option.isSome_iff_exists.mp (hc .immediateHigh (by decide))
    have hl : c.low = some l := hl
    have hu : c.high = some u := hu
    refine ⟨.value (.number .u16 (256 * u.toNat + l.toNat)), ?_⟩
    unfold Argument.access
    rw [hl, hu]
    rfl

theorem exists_fits {as : List Argument} {ps : List Parameter}
    (h : List.Forall₂ Argument.Fits as ps) {a : Argument} (ha : a ∈ as) : ∃ p, a.Fits p := by
  induction h with
  | nil => exact absurd ha List.not_mem_nil
  | @cons b p as ps hbp _ ih =>
    rcases List.mem_cons.mp ha with rfl | ha
    · exact ⟨p, hbp⟩
    · exact ih ha

/-- Arguments that all have something to pass are passed, each under its name. -/
theorem exists_pass {s : Cpu} {c : Captures} {as : List (Binding × Argument)}
    (h : ∀ p ∈ as, ∃ x, p.2.access s c = .ok x) :
    ∃ bs, Operation.pass s c as = .ok bs ∧ bs.map Prod.fst = as.map Prod.fst ∧
      ∀ p ∈ as, ∀ x, p.2.access s c = .ok x → (p.1, x) ∈ bs := by
  induction as with
  | nil => exact ⟨[], rfl, rfl, fun p hp => absurd hp List.not_mem_nil⟩
  | cons p as ih =>
    obtain ⟨b, a⟩ := p
    obtain ⟨x, hx⟩ := h (b, a) List.mem_cons_self
    obtain ⟨bs, hbs, hnames, hmem⟩ := ih fun q hq => h q (List.mem_cons_of_mem _ hq)
    refine ⟨(b, x) :: bs, pass_cons hx hbs, ?_, fun q hq y hy => ?_⟩
    · rw [List.map_cons, List.map_cons, hnames]
    · rcases List.mem_cons.mp hq with rfl | hq
      · rw [Except.ok.inj (hy.symm.trans hx)]
        exact List.mem_cons_self
      · exact List.mem_cons_of_mem _ (hmem q hq y hy)

/-- A binding stands for what it was made with, if bindings have different names. -/
theorem access_of_mem {s : Cpu} {bs : List (Binding × Access)} (hn : (bs.map Prod.fst).Nodup)
    {b : Binding} {x : Access} (h : (b, x) ∈ bs) : (⟨s, bs⟩ : Frame).access b = .ok x := by
  have hfind : bs.find? (fun p => p.1 == b) = some (b, x) := by
    induction bs with
    | nil => exact absurd h List.not_mem_nil
    | cons p bs ih =>
      rw [List.map_cons, List.nodup_cons] at hn
      rcases List.mem_cons.mp h with rfl | h
      · exact List.find?_cons_of_pos (beq_self_eq_true b)
      · have hne : p.1 ≠ b := fun hp => hn.1 (hp ▸ List.mem_map_of_mem h)
        rw [List.find?_cons_of_neg (by simpa using hne)]
        exact ih hn.2 h
  unfold Frame.access
  rw [hfind]

/-- The condition of a member is passed under the names of a condition. -/
theorem condition_mem_arguments (h : d.Merged f rs) (hm : m ∈ d.members) {o : Operand}
    {os : List Operand} {F : Flag} {v : Bool} (ho : m.operands = o :: os)
    (hk : o.kind = .condition) (hc : o.condition? = some (F, v)) :
    (.conditionFlag, .flagValue F) ∈ (d.operation m).arguments ∧
      (.flagCondition, .truth v) ∈ (d.operation m).arguments := by
  have hparams : d.operandParameters = ⟨.conditionFlag, .truth⟩ :: ⟨.flagCondition, .truth⟩ ::
      operandParametersFrom 1 (os.map Operand.shape) := by
    unfold Descriptor.operandParameters
    rw [h.shapes m hm, ho, List.map_cons, operandParametersFrom,
      show o.shape.kind = .condition from hk]
    rfl
  unfold Descriptor.operation Descriptor.parameters Descriptor.arguments
  rw [hparams, ho, List.flatMap_cons, operandArguments_condition hc]
  generalize d.memoryAccess = access
  generalize d.usesRegisters = registers
  cases registers <;> cases access <;> simp [memoryParameters, memoryArguments]

/-- **The call of a member binds its arguments**, the program counter first, under different names,
    and a condition under those of a condition. -/
theorem exists_bindings (h : d.Merged f rs) (hm : m ∈ d.members) {bytes : List UInt8}
    {c : Captures} (hmatch : matchPattern {} m.pattern bytes = some c) (s : Cpu) :
    ∃ bs, bindArguments s c d.routineName d.parameters (d.arguments m) = .ok ((.pc, .pc) :: bs) ∧
      (((.pc, .pc) :: bs).map Prod.fst).Nodup ∧
      ∀ b a x, (b, a) ∈ (d.operation m).arguments → a.access s c = .ok x →
        (b, x) ∈ ((.pc, .pc) :: bs : List (Binding × Access)) := by
  have hfit := arguments_fit h hm
  have hlen : (d.parameters.map Parameter.binding).length ≤ (d.arguments m).length := by
    rw [List.length_map]
    exact hfit.length_eq.ge
  have haccess : ∀ p ∈ (d.operation m).arguments, ∃ x, p.2.access s c = .ok x := by
    intro p hp
    have ha : p.2 ∈ d.arguments m := (List.of_mem_zip hp).2
    obtain ⟨q, hq⟩ := exists_fits hfit ha
    refine hq.exists_access s fun item hitem => captured_of_match hmatch (.inl ?_)
    have hmem : item ∈ (d.arguments m).flatMap Argument.immediates :=
      List.mem_flatMap.mpr ⟨p.2, ha, hitem⟩
    rw [arguments_immediates] at hmem
    exact (List.mem_filter.mp hmem).1
  obtain ⟨bs, hbs, hnames, hmem⟩ := exists_pass haccess
  have hkeys : (d.operation m).arguments.map Prod.fst = d.parameters.map Parameter.binding :=
    List.map_fst_zip hlen
  rw [hkeys] at hnames
  have hfirst : ∃ bs', bs = (.pc, .pc) :: bs' := by
    cases bs with
    | nil => cases hnames
    | cons p bs =>
      have hpc := hmem (.pc, .pcBorrow) List.mem_cons_self .pc rfl
      have hn : ((p :: bs).map Prod.fst).Nodup := hnames ▸ bindings_nodup h hm
      rcases List.mem_cons.mp hpc with rfl | hpc
      · exact ⟨bs, rfl⟩
      · have hp : p.1 = .pc := (List.cons.inj hnames).1
        exact absurd (hp ▸ List.mem_map_of_mem hpc) (List.nodup_cons.mp hn).1
  obtain ⟨bs, rfl⟩ := hfirst
  refine ⟨bs, ?_, hnames ▸ bindings_nodup h hm, fun b a x hb hx => hmem (b, a) hb x hx⟩
  rw [bindArguments_eq_pass hfit]
  exact hbs

/-! ## 6. The counts -/

/-- The branch of a member without a condition yields the base count, whatever the state. -/
theorem count_plain (h : d.Merged f rs) (hm : m ∈ d.members) (hf : f.conditional = false)
    {bytes : List UInt8} {c : Captures} (hmatch : matchPattern {} m.pattern bytes = some c)
    (s : Cpu) : (d.branch m).count d.routine s c = .ok m.record.cycles.base := by
  obtain ⟨bs, hbs, _, _⟩ := exists_bindings h hm hmatch s
  rw [← h.family] at hf
  have htaken : d.routine.branches ⟨s.advance d.length, (.pc, .pc) :: bs⟩ = .ok true :=
    if_neg (by rw [show d.routine.conditional = false from hf]; decide)
  rw [count_eq hbs (advanced_eq s bs d.length) htaken]
  unfold Branch.cycles Descriptor.branch
  rw [hf]
  rfl

/-- **The branch of a member with a condition yields the base count if its flag has the value that
    the condition asks for**, and the alternate count otherwise. -/
theorem count_conditional (h : d.Merged f rs) (hm : m ∈ d.members) (hf : f.conditional = true)
    {o : Operand} {os : List Operand} {F : Flag} {v : Bool} {n : UInt8}
    (ho : m.operands = o :: os) (hk : o.kind = .condition) (hc : o.condition? = some (F, v))
    (hn : m.record.cycles.alternate = some n) {bytes : List UInt8} {c : Captures}
    (hmatch : matchPattern {} m.pattern bytes = some c) (s : Cpu) :
    (d.branch m).count d.routine s c =
      .ok (if s.flag F = v then m.record.cycles.base else n) := by
  obtain ⟨bs, hbs, hnames, hbound⟩ := exists_bindings h hm hmatch s
  obtain ⟨hflag, hvalue⟩ := condition_mem_arguments h hm ho hk hc
  rw [← h.family] at hf
  have hbinding : ∀ b a x, (b, a) ∈ (d.operation m).arguments → a.access s c = .ok (.value x) →
      (⟨s.advance d.length, (.pc, .pc) :: bs⟩ : Frame).value b = .ok x := by
    intro b a x hb hx
    unfold Frame.value
    rw [access_of_mem hnames (hbound b a _ hb hx)]
    rfl
  have htaken : d.routine.branches ⟨s.advance d.length, (.pc, .pc) :: bs⟩ =
      .ok (s.flag F == v) := by
    have he : (Expr.binary .different (.get .conditionFlag) (.get .flagCondition)).eval
        ⟨s.advance d.length, (.pc, .pc) :: bs⟩ = .ok (.truth (s.flag F != v)) :=
      eval_binary (by decide) (hbinding _ _ (.truth (s.flag F)) hflag rfl)
        (hbinding _ _ (.truth v) hvalue rfl) rfl
    unfold Routine.branches
    rw [if_pos (show d.routine.conditional = true from hf), he]
    cases s.flag F <;> cases v <;> rfl
  rw [count_eq hbs (advanced_eq s bs d.length) htaken]
  unfold Branch.cycles Descriptor.branch
  rw [if_pos hf, hn]
  simp only [beq_iff_eq]

/-- The cycles of a scenario are decided by its last preset of the tested flag, which it has. -/
theorem caseCycles_conditional {k : ScenarioKind} {s : Scenario} {F : Flag} {v : Bool}
    {n q : UInt8} (hc : d.condition m = some (F, v)) (hn : m.record.cycles.alternate = some n)
    (h : d.caseCycles m k s = .ok q) : ∃ p, lastPreset s.presets F = some p ∧
      q = if p = v then m.record.cycles.base else n := by
  unfold Descriptor.caseCycles Descriptor.branchTaken at h
  rw [hc] at h
  dsimp only at h
  rw [presetOf_eq] at h
  cases hp : lastPreset s.presets F with
  | none =>
    rw [hp] at h
    cases h
  | some p =>
    rw [hp, hn] at h
    refine ⟨p, rfl, ?_⟩
    cases p <;> cases v <;> cases h <;> rfl

theorem caseCycles_plain {k : ScenarioKind} {s : Scenario} {q : UInt8} (h : d.Merged f rs)
    (hf : f.conditional = false) (hq : d.caseCycles m k s = .ok q) :
    q = m.record.cycles.base := by
  have hc : d.condition m = none := by
    unfold Descriptor.condition
    rw [h.family, hf]
    rfl
  unfold Descriptor.caseCycles at hq
  rw [hc] at hq
  exact (Except.ok.inj hq).symm

end Cases

/-- **A test and the decoder agree on the cycles.** For every family that merges and every member
    whose tests are there, the cycles of a case are the count that the member's branch yields for
    the bytes of the case, in every state with the flags that the case starts from. They are the
    base count in a family without a condition, and in one with a condition if the last preset of
    the tested flag is what the condition asks for; else the alternate count. What is added to the
    presets of a scenario is of fixed flags, and changes no flag that a condition tests. -/
theorem testBlock_cycles {f : Family} {rs : List Record} {d : Descriptor} {m : Member}
    {b : TestBlock} (h : (Descriptor.merge f rs).result = .ok d) (hm : m ∈ d.members)
    (hb : (d.testBlock m).result = .ok b) :
    ∀ c ∈ b.cases,
      (∃ captures, matchPattern {} (d.branch m).pattern c.bytes = some captures ∧
        ∀ s : Cpu, (∀ F, s.flag F = c.start.flag F) →
          (d.branch m).Yields d.routine s captures c.cycles) ∧
      (f.conditional = false → c.cycles = m.record.cycles.base) ∧
      (f.conditional = true → ∃ F v n, d.condition m = some (F, v) ∧
        m.record.cycles.alternate = some n ∧
        c.cycles = if lastPreset c.presets F = some v then m.record.cycles.base else n) ∧
      ∃ k s added, (k, s) ∈ (f.fixtures m.operands).ordered ∧ c.presets = s.presets ++ added ∧
        (∀ p ∈ added, ∃ F v, (F, v) ∈ d.flags.fixed ∧ p = .flag F (!v)) ∧
        ∀ F v, d.condition m = some (F, v) → lastPreset c.presets F = lastPreset s.presets F := by
  intro c hc
  have hd := merge_eq_ok h
  obtain ⟨k, s, hs, hcase⟩ := mem_testBlock hb hc
  obtain ⟨hlen, hbytes, hcycles, added, hpresets, hadded⟩ := testCase_eq_ok hcase
  rw [hd.family] at hs
  have hsound := hd.sound hm
  rw [hsound.trailing] at hlen
  have hmatch : matchPattern {} (d.branch m).pattern c.bytes = some (.ofTail s.extraBytes) :=
    hsound.pattern_matches.mpr ⟨s.extraBytes, hbytes, hlen, rfl⟩
  cases hf : f.conditional with
  | false =>
    have hbase := caseCycles_plain hd hf hcycles
    refine ⟨⟨_, hmatch, fun s' _ => yields_of_count ?_⟩, fun _ => hbase, (fun ht => by cases ht),
      k, s, added, hs, hpresets, hadded, fun F v hF => ?_⟩
    · rw [count_plain hd hm hf hmatch s', hbase]
    · unfold Descriptor.condition at hF
      rw [hd.family, hf] at hF
      cases hF
  | true =>
    obtain ⟨F, v, n, o, os, ho, hk, hoc, hcond, hunaffected, hn⟩ := hd.condition hm hf
    obtain ⟨p, hp, hq⟩ := caseCycles_conditional hcond hn hcycles
    have hkept := lastPreset_added hunaffected s.presets hadded
    rw [← hpresets] at hkept
    refine ⟨⟨_, hmatch, fun s' hs' => yields_of_count ?_⟩, (fun hfalse => by cases hfalse),
      fun _ => ⟨F, v, n, hcond, hn, ?_⟩, k, s, added, hs, hpresets, hadded, fun G w hG => ?_⟩
    · rw [count_conditional hd hm hf ho hk hoc hn hmatch s', hs' F, flag_start, hkept, hp, hq]
      rfl
    · rw [hkept, hp, hq]
      simp only [Option.some.injEq]
    · cases hcond.symm.trans hG
      exact hkept

/-- A family of conditional jumps, with a scenario that presets the tested flag twice. -/
def repeatedPresets : Family where
  name := "JR cc, e8"
  opcodes := [0x20]
  conditional := true
  fragment := .verbatim ""
  fixtures := fun _ => (Fixtures.empty.baseline
    (((Scenario.blank.bytes [5]).setFlag .Z true).setFlag .Z false)).flag .Z
    ((Scenario.blank.bytes [5]).setFlag .Z true)

/-- The record of a conditional jump that resets a flag. -/
def resettingJump : Record :=
  ⟨.plain 0x20, "JR", [⟨"NZ", true, false, false⟩, ⟨"e8", true, false, false⟩],
    { n := .fixedFalse }, 2, ⟨12, some 8⟩⟩

/-- The member of this record. -/
def resettingMember : Member :=
  ⟨resettingJump, [⟨"NZ", .condition, false, .stay⟩, ⟨"e8", .imm8, false, .stay⟩]⟩

/-- The family, merged. -/
def resettingFamily : Descriptor :=
  .ofMembers repeatedPresets [resettingMember] resettingMember.signature

/-- The last of two presets takes the branch, beside one that is added for the flag that is reset;
    the other case falls through. -/
theorem testBlock_cycles_repeatedPresets :
    ∃ d m b, (Descriptor.merge repeatedPresets [resettingJump]).result = .ok d ∧ m ∈ d.members ∧
      (d.testBlock m).result = .ok b ∧
      b.cases.map TestCase.presets = [[.flag .Z true, .flag .Z false, .flag .N true],
        [.flag .Z true]] ∧
      b.cases.map TestCase.cycles = [12, 8] ∧
      ∀ c ∈ b.cases, ∃ captures, matchPattern {} (d.branch m).pattern c.bytes = some captures ∧
        (d.branch m).count d.routine c.start captures = .ok c.cycles := by
  have hd : (Descriptor.merge repeatedPresets [resettingJump]).result = .ok resettingFamily := by
    rfl
  have hm : resettingMember ∈ resettingFamily.members := List.mem_cons_self
  obtain ⟨b, hb⟩ : ∃ b, (resettingFamily.testBlock resettingMember).result = .ok b :=
    exists_of_isOk (by decide)
  have hcases : (resettingFamily.testBlock resettingMember).result.map
      (fun b => b.cases.map TestCase.presets) =
      .ok [[.flag .Z true, .flag .Z false, .flag .N true], [.flag .Z true]] := by decide
  have hcycles : (resettingFamily.testBlock resettingMember).result.map
      (fun b => b.cases.map TestCase.cycles) = .ok [12, 8] := by decide
  rw [hb] at hcases hcycles
  refine ⟨resettingFamily, resettingMember, b, hd, hm, hb, Except.ok.inj hcases,
    Except.ok.inj hcycles, fun c hc => ?_⟩
  obtain ⟨⟨captures, hmatch, hcount⟩, _⟩ := testBlock_cycles hd hm hb c hc
  exact ⟨captures, hmatch, (hcount c.start fun _ => rfl).count⟩

end Sm83Codegen
