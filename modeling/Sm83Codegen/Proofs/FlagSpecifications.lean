import Sm83Codegen.Proofs.Bindings

/-!
# Flags and their writers

A family declares at which widths carries show and which flags its fragment manages, and the table
says what becomes of every flag. A routine is made if both go together. Every flag that the table
changes then has one writer: the fragment, or one update after it.

* `Family.FlagSound` -- the declarations for a flag agree with the table;
  `checkFlags_eq_ok` -- the check accepts just these;
* `Family.Assigns`, `mem_flagUpdates` -- what the updates assign;
* `runUpdates_flag`, `runUpdates_gives` -- updates change no flag that they do not name, and give
  each that they name what it is to be;
* `merge_routine` -- which routines are made, and what they do to the flags.
-/

namespace Sm83Codegen

open Logged (bind_eq_ok check_bind_eq_ok guard_eq_ok)

/-! ## 1. Sound declarations -/

/-- What a family declares for a flag goes with the effect of its opcodes on that flag. -/
structure Family.FlagSound (f : Family) (e : FlagEffects) (F : Flag) : Prop where
  once : (f.carryWidths.map Prod.fst).count F ≤ 1
  declared : ∀ w, (F, w) ∈ f.carryWidths →
    (F = .H ∨ F = .C) ∧ (e.get F).isComputed = true ∧ F ∉ f.selfManaged
  computed : (e.get F).isComputed = true →
    F ∈ f.selfManaged ∨ F = .Z ∨ (F = .H ∨ F = .C) ∧ ∃ w, (F, w) ∈ f.carryWidths

/-- What the updates of a family assign. -/
def Family.Assigns (f : Family) (e : FlagEffects) : FlagUpdate → Prop
  | .fixed F v => (e.get F).fixedValue = some v
  | .zero F => F = .Z ∧ (e.get F).isComputed = true ∧ F ∉ f.selfManaged
  | .carry F w => (F = .H ∨ F = .C) ∧ (e.get F).isComputed = true ∧ F ∉ f.selfManaged ∧
      (F, w) ∈ f.carryWidths

theorem isSelfManaged_iff {f : Family} {F : Flag} : f.isSelfManaged F = true ↔ F ∈ f.selfManaged :=
  List.contains_iff_mem

section Widths

variable {f : Family} {F : Flag}

/-- A computed flag gets the first width that is declared for it. -/
theorem withWidths_get_computed {ws : List (Flag × CarryWidth)} {e : FlagEffects}
    (h : e.get F = .computed none) : (Descriptor.withWidths ws e).get F =
      .computed ((ws.find? (fun w => w.1 == F)).map (·.2)) := by
  unfold Descriptor.withWidths
  induction ws generalizing e with
  | nil => exact h
  | cons w ws ih =>
    rw [List.foldl_cons, List.find?_cons]
    by_cases hw : w.1 = F
    · subst hw
      rw [if_pos h, beq_self_eq_true]
      -- a width is there now, and no later one replaces it
      have hkept : ∀ {ws : List (Flag × CarryWidth)} {e : FlagEffects} {v : CarryWidth},
          e.get w.1 = .computed (some v) →
          (Descriptor.withWidths ws e).get w.1 = .computed (some v) := by
        intro ws e v he
        unfold Descriptor.withWidths
        induction ws generalizing e with
        | nil => exact he
        | cons u ws ih =>
          rw [List.foldl_cons]
          split
          · next hu =>
            have hne : w.1 ≠ u.1 := by
              intro heq
              rw [← heq, he] at hu
              cases hu
            exact ih ((FlagEffects.get_set_of_ne e _ hne).trans he)
          · exact ih he
      exact hkept (FlagEffects.get_set_self e w.1 _)
    · rw [beq_eq_false_iff_ne.mpr hw]
      split
      · exact ih ((FlagEffects.get_set_of_ne e _ (Ne.symm hw)).trans h)
      · exact ih h

/-- The width for a flag is the declared one, if none has two. -/
theorem widthFor_eq_some (h : (f.carryWidths.map Prod.fst).Nodup) {w : CarryWidth} :
    f.widthFor F = some w ↔ (F, w) ∈ f.carryWidths := by
  unfold Family.widthFor
  rw [Option.map_eq_some_iff]
  constructor
  · intro hfind
    obtain ⟨⟨G, v⟩, hfind, rfl⟩ := hfind
    have hG := List.find?_some hfind
    obtain rfl := beq_iff_eq.mp hG
    exact List.mem_of_find?_eq_some hfind
  · intro hw
    have hsome : (f.carryWidths.find? (fun w => w.1 == F)).isSome = true :=
      List.find?_isSome.mpr ⟨(F, w), hw, beq_self_eq_true F⟩
    obtain ⟨v, hv⟩ := Option.isSome_iff_exists.mp hsome
    have hF := List.find?_some hv
    have heq : v = (F, w) :=
      List.inj_on_of_nodup_map h (List.mem_of_find?_eq_some hv) hw (beq_iff_eq.mp hF)
    exact ⟨v, hv, congrArg Prod.snd heq⟩

theorem widthFor_eq_none : f.widthFor F = none ↔ ∀ w, (F, w) ∉ f.carryWidths := by
  unfold Family.widthFor
  rw [Option.map_eq_none_iff, List.find?_eq_none]
  constructor
  · intro h w hw
    exact h _ hw (beq_self_eq_true F)
  · intro h w hw heq
    exact h w.2 (beq_iff_eq.mp heq ▸ hw)

end Widths

/-! ## 2. The check -/

namespace Descriptor

variable {d : Descriptor}

theorem checkWidth_eq_ok {before : List (Flag × CarryWidth)} {F : Flag} :
    d.checkWidth before F = .ok () ↔ (F = .H ∨ F = .C) ∧ (∀ v ∈ before, v.1 ≠ F) ∧
      F ∉ d.family.selfManaged ∧ (d.flags.get F).isComputed = true := by
  unfold checkWidth violation
  have hcarry : ¬(F = .Z ∨ F = .N) ↔ F = .H ∨ F = .C := by cases F <;> decide
  have hbefore : ¬before.any (fun w => w.1 == F) = true ↔ ∀ v ∈ before, v.1 ≠ F := by
    rw [List.any_eq_true, not_exists]
    exact forall_congr' fun v => by rw [not_and, beq_iff_eq]
  rw [guard_eq_ok, guard_eq_ok, guard_eq_ok, guard_eq_ok, hcarry, hbefore, isSelfManaged_iff,
    Bool.not_eq_true', Bool.not_eq_false, and_iff_left rfl]

/-- Widths pass the check if each is declared once, of a carry that is computed by no one else. -/
theorem checkWidths_eq_ok {before ws : List (Flag × CarryWidth)} :
    d.checkWidths before ws = .ok () ↔ (ws.map Prod.fst).Nodup ∧ ∀ w ∈ ws,
      (w.1 = .H ∨ w.1 = .C) ∧ (∀ v ∈ before, v.1 ≠ w.1) ∧ w.1 ∉ d.family.selfManaged ∧
        (d.flags.get w.1).isComputed = true := by
  induction ws generalizing before with
  | nil => exact ⟨fun _ => ⟨List.nodup_nil, fun w hw => absurd hw List.not_mem_nil⟩, fun _ => rfl⟩
  | cons w ws ih =>
    have hsteps : d.checkWidths before (w :: ws) = .ok () ↔
        d.checkWidth before w.1 = .ok () ∧ d.checkWidths (before ++ [w]) ws = .ok () :=
      check_bind_eq_ok
    rw [hsteps, checkWidth_eq_ok, ih, List.map_cons, List.nodup_cons, List.forall_mem_cons]
    constructor
    · intro h
      obtain ⟨hw, hnodup, hws⟩ := h
      refine ⟨⟨fun hmem => ?_, hnodup⟩, hw, fun v hv => ?_⟩
      · obtain ⟨v, hv, heq⟩ := List.mem_map.mp hmem
        exact (hws v hv).2.1 w (List.mem_append_right before List.mem_cons_self) heq.symm
      · obtain ⟨hcarry, hbefore, hrest⟩ := hws v hv
        exact ⟨hcarry, fun u hu => hbefore u (List.mem_append_left _ hu), hrest⟩
    · intro h
      obtain ⟨⟨hfirst, hnodup⟩, hw, hws⟩ := h
      refine ⟨hw, hnodup, fun v hv => ?_⟩
      obtain ⟨hcarry, hbefore, hrest⟩ := hws v hv
      refine ⟨hcarry, List.forall_mem_append.mpr ⟨hbefore, List.forall_mem_singleton.mpr ?_⟩, hrest⟩
      exact fun heq => hfirst (heq ▸ List.mem_map_of_mem hv)

theorem checkComputed_eq_ok {F : Flag} (hF : (d.flags.get F).isComputed = true) :
    d.checkComputed F = .ok () ↔ F ∈ d.family.selfManaged ∨ F = .Z ∨
      (F = .H ∨ F = .C) ∧ d.flags.get F ≠ .computed none := by
  unfold checkComputed
  by_cases hmanaged : d.family.isSelfManaged F = true
  · rw [if_pos hmanaged]
    exact iff_of_true rfl (.inl (isSelfManaged_iff.mp hmanaged))
  · have hself : F ∉ d.family.selfManaged := fun h => hmanaged (isSelfManaged_iff.mpr h)
    rw [if_neg hmanaged]
    cases hget : d.flags.get F with
    | fixedFalse | fixedTrue | unaffected =>
      rw [hget] at hF
      cases hF
    | computed width =>
      cases F <;> cases width <;> simp [violation, hself]

end Descriptor

/-! ## 3. Merged families -/

section Merged

variable {f : Family} {rs : List Record} {d : Descriptor} {x : Record}

/-- The records have no widths of their own, as no table gives any. -/
def Record.Unwidened (x : Record) : Prop := ∀ F w, x.flags.get F ≠ .computed (some w)

/-- A merged family computes the flags that the table says are computed, at their declared
    width. -/
theorem Descriptor.Merged.get_eq_computed (h : d.Merged f rs) (hx : x ∈ rs)
    (hplain : x.Unwidened) {F : Flag} {width : Option CarryWidth} :
    d.flags.get F = .computed width ↔
      (x.flags.get F).isComputed = true ∧ width = f.widthFor F := by
  rw [← h.records] at hx
  obtain ⟨m, hm, rfl⟩ := List.mem_map.mp hx
  cases hget : m.record.flags.get F with
  | fixedFalse | fixedTrue | unaffected =>
    rw [h.flags_get hm (by rw [hget]; rfl), hget]
    exact ⟨(fun h => nomatch h), (fun h => nomatch h.1)⟩
  | computed w =>
    cases w with
    | some w => exact absurd hget (hplain F w)
    | none =>
      have hwidth : d.flags.get F = .computed (f.widthFor F) := by
        rw [h.flags m hm]
        exact withWidths_get_computed hget
      rw [hwidth, FlagEffect.computed.injEq]
      exact ⟨fun he => ⟨rfl, he.symm⟩, fun he => he.2.symm⟩

/-- **The check accepts just the sound declarations.** -/
theorem Descriptor.Merged.checkFlags_eq_ok (h : d.Merged f rs) (hx : x ∈ rs)
    (hplain : x.Unwidened) : d.checkFlags = .ok () ↔ ∀ F, f.FlagSound x.flags F := by
  have hflags : d.checkFlags = .ok () ↔ d.checkWidths [] f.carryWidths = .ok () ∧
      d.checkAllComputed d.flags.computed = .ok () := by
    unfold Descriptor.checkFlags
    rw [check_bind_eq_ok, h.family]
  have hcomputed : d.checkAllComputed d.flags.computed = .ok () ↔
      ∀ F, (x.flags.get F).isComputed = true → F ∈ f.selfManaged ∨ F = .Z ∨
        (F = .H ∨ F = .C) ∧ ∃ w, (F, w) ∈ f.carryWidths := by
    rw [checkAllComputed_eq_ok]
    refine forall_congr' fun F => ?_
    rw [FlagEffects.mem_computed, h.isComputed_get hx]
    refine imp_congr_right fun hF => ?_
    have hget := (h.get_eq_computed hx hplain).mpr ⟨hF, rfl⟩
    rw [Descriptor.checkComputed_eq_ok (by rw [hget]; rfl), h.family, hget, Ne,
      FlagEffect.computed.injEq, widthFor_eq_none, not_forall_not]
  rw [hflags, Descriptor.checkWidths_eq_ok, hcomputed, h.family]
  constructor
  · intro hall F
    obtain ⟨⟨hnodup, hdeclared⟩, hall⟩ := hall
    refine ⟨List.nodup_iff_count_le_one.mp hnodup F, fun w hw => ?_, hall F⟩
    obtain ⟨hcarry, _, hself, hF⟩ := hdeclared (F, w) hw
    exact ⟨hcarry, (h.isComputed_get hx F).symm.trans hF, hself⟩
  · intro hall
    refine ⟨⟨List.nodup_iff_count_le_one.mpr fun F => (hall F).once, fun w hw => ?_⟩,
      fun F => (hall F).computed⟩
    obtain ⟨hcarry, hF, hself⟩ := (hall w.1).declared w.2 hw
    exact ⟨hcarry, fun _ hv => absurd hv List.not_mem_nil, hself,
      (h.isComputed_get hx w.1).trans hF⟩

/-! ## 4. Updates -/

theorem flagUpdate?_flag {F : Flag} {u : FlagUpdate} (h : d.flagUpdate? F = some u) : u.flag = F := by
  unfold Descriptor.flagUpdate? at h
  split at h
  · cases h
    rfl
  · cases h
    rfl
  · cases h
  · split at h
    · cases h
    · split at h <;> cases h <;> rfl

/-- Updates assign flags in order, none twice. -/
theorem flagUpdates_sublist (d : Descriptor) :
    (d.flagUpdates.map FlagUpdate.flag).Sublist Flag.all := by
  unfold Descriptor.flagUpdates
  induction Flag.all with
  | nil => exact List.Sublist.slnil
  | cons F Fs ih =>
    rw [List.filterMap_cons]
    cases hF : d.flagUpdate? F with
    | none => exact ih.cons F
    | some u =>
      rw [List.map_cons, flagUpdate?_flag hF]
      exact ih.cons_cons F

theorem mem_flagUpdates_iff {u : FlagUpdate} : u ∈ d.flagUpdates ↔ d.flagUpdate? u.flag = some u := by
  unfold Descriptor.flagUpdates
  rw [List.mem_filterMap]
  constructor
  · intro h
    obtain ⟨F, _, hF⟩ := h
    rw [flagUpdate?_flag hF]
    exact hF
  · exact fun h => ⟨u.flag, Flag.mem_all _, h⟩

/-- With sound declarations, all flags are assigned but those that are left alone and those that the
    fragment computes. -/
theorem Family.FlagSound.assigned_iff {e : FlagEffects} {F : Flag} (h : f.FlagSound e F) :
    (∃ u, f.Assigns e u ∧ u.flag = F) ↔
      e.get F ≠ .unaffected ∧ ((e.get F).isComputed = true → F ∉ f.selfManaged) := by
  constructor
  · intro hassigned
    obtain ⟨u, hu, rfl⟩ := hassigned
    cases u with
    | fixed F v =>
      have hfixed : (e.get F).fixedValue = some v := hu
      cases hget : e.get F with
      | fixedFalse | fixedTrue => exact ⟨by simp [FlagUpdate.flag, hget], by
          simp [FlagUpdate.flag, hget, FlagEffect.isComputed]⟩
      | unaffected | computed w =>
        rw [hget] at hfixed
        cases hfixed
    | zero F =>
      obtain ⟨_, hF, hself⟩ := hu
      refine ⟨fun hnone => ?_, fun _ => hself⟩
      rw [show e.get F = .unaffected from hnone] at hF
      cases hF
    | carry F w =>
      obtain ⟨_, hF, hself, _⟩ := hu
      refine ⟨fun hnone => ?_, fun _ => hself⟩
      rw [show e.get F = .unaffected from hnone] at hF
      cases hF
  · intro hchanged
    obtain ⟨hne, hself⟩ := hchanged
    cases hget : e.get F with
    | unaffected => exact absurd hget hne
    | fixedFalse => exact ⟨.fixed F false, congrArg FlagEffect.fixedValue hget, rfl⟩
    | fixedTrue => exact ⟨.fixed F true, congrArg FlagEffect.fixedValue hget, rfl⟩
    | computed w =>
      have hF : (e.get F).isComputed = true := by
        rw [hget]
        rfl
      rcases h.computed hF with hmanaged | rfl | ⟨hcarry, w, hw⟩
      · exact absurd hmanaged (hself hF)
      · exact ⟨.zero .Z, ⟨rfl, hF, hself hF⟩, rfl⟩
      · exact ⟨.carry F w, ⟨hcarry, hF, hself hF, hw⟩, rfl⟩

theorem flagUpdate?_eq_fixed {F : Flag} {v : Bool} :
    d.flagUpdate? F = some (.fixed F v) ↔ (d.flags.get F).fixedValue = some v := by
  unfold Descriptor.flagUpdate?
  cases d.flags.get F with
  | fixedFalse | fixedTrue => simp [FlagEffect.fixedValue]
  | unaffected => simp [FlagEffect.fixedValue]
  | computed width =>
    cases d.family.isSelfManaged F <;> cases width <;> simp [FlagEffect.fixedValue]

theorem flagUpdate?_eq_zero {F : Flag} : d.flagUpdate? F = some (.zero F) ↔
    d.flags.get F = .computed none ∧ F ∉ d.family.selfManaged := by
  rw [← isSelfManaged_iff]
  unfold Descriptor.flagUpdate?
  cases d.flags.get F with
  | fixedFalse | fixedTrue | unaffected => simp
  | computed width => cases width <;> simp

theorem flagUpdate?_eq_carry {F : Flag} {w : CarryWidth} : d.flagUpdate? F = some (.carry F w) ↔
    d.flags.get F = .computed (some w) ∧ F ∉ d.family.selfManaged := by
  rw [← isSelfManaged_iff]
  unfold Descriptor.flagUpdate?
  cases d.flags.get F with
  | fixedFalse | fixedTrue | unaffected => simp
  | computed width => cases width <;> simp [and_comm]

/-- **With sound declarations, the updates assign what the family does.** -/
theorem Descriptor.Merged.mem_flagUpdates (h : d.Merged f rs) (hx : x ∈ rs) (hplain : x.Unwidened)
    (hsound : ∀ F, f.FlagSound x.flags F) {u : FlagUpdate} :
    u ∈ d.flagUpdates ↔ f.Assigns x.flags u := by
  have hnodup : (f.carryWidths.map Prod.fst).Nodup :=
    List.nodup_iff_count_le_one.mpr fun F => (hsound F).once
  rw [mem_flagUpdates_iff]
  cases u with
  | fixed F v => exact flagUpdate?_eq_fixed.trans (by rw [h.fixedValue_get hx]; rfl)
  | zero F =>
    refine flagUpdate?_eq_zero.trans ?_
    rw [h.get_eq_computed hx hplain, h.family]
    constructor
    · intro hzero
      obtain ⟨⟨hF, hnone⟩, hself⟩ := hzero
      rcases (hsound F).computed hF with hmanaged | rfl | ⟨_, w, hw⟩
      · exact absurd hmanaged hself
      · exact ⟨rfl, hF, hself⟩
      · exact absurd hw (widthFor_eq_none.mp hnone.symm w)
    · intro hzero
      obtain ⟨rfl, hF, hself⟩ := hzero
      refine ⟨⟨hF, Eq.symm (widthFor_eq_none.mpr fun w hw => ?_)⟩, hself⟩
      rcases ((hsound .Z).declared w hw).1 with hZ | hZ <;> cases hZ
  | carry F w =>
    refine flagUpdate?_eq_carry.trans ?_
    rw [h.get_eq_computed hx hplain, h.family, eq_comm (a := some w), widthFor_eq_some hnodup]
    constructor
    · intro hcarry
      obtain ⟨⟨hF, hw⟩, hself⟩ := hcarry
      exact ⟨((hsound F).declared w hw).1, hF, hself, hw⟩
    · intro hcarry
      obtain ⟨_, hF, hself, hw⟩ := hcarry
      exact ⟨⟨hF, hw⟩, hself⟩

end Merged

/-! ## 5. Running the updates -/

/-- A frame lends every flag under its own name, if at all. -/
def Frame.NamesFlags (s : Frame) : Prop := ∀ F G, s.access (.flag F) = .ok (.flag G) → G = F

theorem Frame.NamesFlags.of_bindings {s s' : Frame} (h : s.NamesFlags)
    (hs : s'.bindings = s.bindings) : s'.NamesFlags := by
  unfold Frame.NamesFlags Frame.access
  rw [hs]
  exact h

/-- An update changes its own flag and no other, and binds nothing. -/
theorem update_run {u : FlagUpdate} {s s' : Frame} (hs : s.NamesFlags)
    (h : u.statement.run s = .ok s') :
    s'.bindings = s.bindings ∧ ∀ F, F ≠ u.flag → s'.cpu.flag F = s.cpu.flag F := by
  unfold FlagUpdate.statement at h
  rw [Statement.run] at h
  obtain ⟨v, _, h⟩ := bind_eq_ok.mp h
  rw [Place.write] at h
  obtain ⟨a, ha, h⟩ := bind_eq_ok.mp h
  cases a with
  | value _ | registers | memory _ => cases h
  | pc =>
    obtain ⟨w, _, h⟩ := bind_eq_ok.mp h
    cases h
    exact ⟨rfl, fun F _ => rfl⟩
  | flag G =>
    obtain ⟨b, _, h⟩ := bind_eq_ok.mp h
    cases h
    obtain rfl := hs u.flag G ha
    exact ⟨rfl, fun F hF => Cpu.flag_setFlag_of_ne _ _ hF⟩

/-- Updates change no flag that they do not assign. -/
theorem runUpdates_flag {us : List FlagUpdate} {s s' : Frame} (hs : s.NamesFlags)
    (h : runUpdates s us = .ok s') {F : Flag} (hF : F ∉ us.map FlagUpdate.flag) :
    s'.cpu.flag F = s.cpu.flag F := by
  induction us generalizing s with
  | nil =>
    cases h
    rfl
  | cons u us ih =>
    rw [runUpdates] at h
    obtain ⟨s₁, hu, h⟩ := bind_eq_ok.mp h
    rw [List.map_cons, List.mem_cons, not_or] at hF
    obtain ⟨hbindings, hflags⟩ := update_run hs hu
    exact (ih (hs.of_bindings hbindings) h hF.2).trans (hflags F hF.1)

/-- What a flag is after its update: a fixed one has its value; a computed one tells whether the
    result is zero as a byte, or is the bit of its width in the exclusive or of the operands and the
    result. -/
def FlagUpdate.Gives (s : Frame) (v : Bool) : FlagUpdate → Prop
  | fixed _ w => v = w
  | zero _ => ∀ t n, s.value .result = .ok (.number t n) → v = (n % 256 == 0)
  | carry _ w => ∀ x y r, s.ShowsBit .operand1 w.bit x → s.ShowsBit .operand2 w.bit y →
      s.ShowsBit .result w.bit r → v = (x ^^^ y ^^^ r).testBit w.bit

theorem FlagUpdate.Gives.of_bindings {u : FlagUpdate} {s s' : Frame} {v : Bool} (h : u.Gives s v)
    (hs : s.bindings = s'.bindings) : u.Gives s' v := by
  obtain ⟨_, bs⟩ := s
  obtain ⟨_, bs'⟩ := s'
  obtain rfl : bs = bs' := hs
  cases u <;> exact h

/-- A truth value that is assigned to a flag is the value of the flag. -/
theorem flag_of_assign {F : Flag} {e : Expr} {b : Bool} {s s' : Frame} (hs : s.NamesFlags)
    (h : (Statement.assign (.deref (.flag F)) e).run s = .ok s') (he : e.eval s = .ok (.truth b)) :
    s'.cpu.flag F = b := by
  rw [Statement.run, he] at h
  have hwrite : (Place.deref (.flag F)).write s (.truth b) = .ok s' := h
  rw [Place.write] at hwrite
  obtain ⟨a, ha, hset⟩ := bind_eq_ok.mp hwrite
  cases a with
  | value _ | registers | memory _ | pc => cases hset
  | flag G =>
    rw [hs F G ha] at hset
    cases hset
    exact Cpu.flag_setFlag_self _ _ _

theorem update_gives {u : FlagUpdate} {s s' : Frame} (hs : s.NamesFlags)
    (h : u.statement.run s = .ok s') : u.Gives s (s'.cpu.flag u.flag) := by
  cases u with
  | fixed F v => exact flag_of_assign hs h rfl
  | zero F => exact fun t n hr => flag_of_assign hs h (eval_zeroTest hr)
  | carry F w => exact fun x y r hx hy hr => flag_of_assign hs h (eval_carryTest hx hy hr)

/-- **Updates give each flag what it is to be**, by the bindings before the first of them, if they
    assign no flag twice. -/
theorem runUpdates_gives {us : List FlagUpdate} {s s' : Frame} (hs : s.NamesFlags)
    (hus : (us.map FlagUpdate.flag).Nodup) (h : runUpdates s us = .ok s') :
    ∀ u ∈ us, u.Gives s (s'.cpu.flag u.flag) := by
  induction us generalizing s with
  | nil => exact fun u hu => absurd hu List.not_mem_nil
  | cons u us ih =>
    rw [runUpdates] at h
    obtain ⟨s₁, hu, h⟩ := bind_eq_ok.mp h
    obtain ⟨hbindings, _⟩ := update_run hs hu
    have hs₁ := hs.of_bindings hbindings
    obtain ⟨hnot, hus⟩ := List.nodup_cons.mp hus
    refine List.forall_mem_cons.mpr ⟨?_, fun u' hu' => (ih hs₁ hus h u' hu').of_bindings hbindings⟩
    rw [runUpdates_flag hs₁ h hnot]
    exact update_gives hs hu

/-- The written form of the value that an update assigns. -/
def FlagUpdate.assigned : FlagUpdate → String
  | fixed _ true => "true"
  | fixed _ false => "false"
  | zero _ => "(result as u8) == 0"
  | carry _ .bit4 => "((operand1 as u16) ^ (operand2 as u16) ^ (result as u16)) & (1 << 4) != 0"
  | carry _ .bit8 => "((operand1 as u16) ^ (operand2 as u16) ^ (result as u16)) & (1 << 8) != 0"
  | carry _ .bit12 => "((operand1 as u32) ^ (operand2 as u32) ^ (result as u32)) & (1 << 12) != 0"
  | carry _ .bit16 => "((operand1 as u32) ^ (operand2 as u32) ^ (result as u32)) & (1 << 16) != 0"

/-- An update is written as the assignment of its flag. -/
theorem FlagUpdate.statement_text (u : FlagUpdate) :
    u.statement.text = "*" ++ u.flag.field ++ " = " ++ u.assigned ++ ";" := by
  have hvalue : u.value.text = u.assigned := by
    cases u with
    | fixed F v => cases v <;> rfl
    | zero F => cases F <;> decide +kernel
    | carry F w => cases F <;> cases w <;> decide +kernel
  rw [← hvalue]
  rfl

/-- The updates of a routine are written below its fragment. -/
theorem Routine.lines_updates (r : Routine) : ∃ above gap, (∀ l ∈ gap, l = "") ∧
    r.lines = above ++ r.fragmentLines ++ gap ++
      r.updates.map (fun u => Routine.bodyLine u.statement.text) ++
      (r.outcomeLines ++ [Routine.line "\x7d"]) := by
  have hgap : ∃ gap : List String, (∀ l ∈ gap, l = "") ∧
      r.updateLines = gap ++ r.updates.map (fun u => Routine.bodyLine u.statement.text) := by
    unfold Routine.updateLines
    cases r.updates with
    | nil => exact ⟨[], fun l hl => absurd hl List.not_mem_nil, rfl⟩
    | cons u us => exact ⟨[""], fun l hl => List.mem_singleton.mp hl, rfl⟩
  obtain ⟨gap, hempty, hlines⟩ := hgap
  refine ⟨r.commentLines ++ r.allowanceLines ++ r.headLines ++
    [bodyLine ("*pc = pc.wrapping_add(" ++ toString r.length.toNat ++ ");")] ++ r.conditionLines,
    gap, hempty, ?_⟩
  unfold Routine.lines
  simp only [hlines, List.append_assoc]

/-! ## 6. The routine of a merged family -/

/-- The routine of a family, if its flags pass the check. -/
def Descriptor.emitted (d : Descriptor) : Except GenerationError Routine :=
  d.checkFlags.map fun _ => d.routine

theorem emitted_eq_ok {d : Descriptor} {r : Routine} :
    d.emitted = .ok r ↔ d.checkFlags = .ok () ∧ r = d.routine := by
  unfold Descriptor.emitted
  cases d.checkFlags with
  | error e => exact ⟨(fun h => nomatch h), (fun h => nomatch h.1)⟩
  | ok u => exact ⟨fun h => ⟨rfl, (Except.ok.inj h).symm⟩, fun h => congrArg Except.ok h.2.symm⟩

/-- It is the one that is generated for the family. -/
theorem generateFamily_routines {s : Selection} {d : Descriptor} {g : Generated}
    (h : (generateFamily s d).result = .ok g) : ∀ r ∈ g.routines, d.emitted = .ok r := by
  obtain ⟨hready, rfl⟩ := generateFamily_eq_ok.mp h
  intro r hr
  obtain ⟨e, he, _, rfl⟩ := mem_routines.mp (show r ∈ (Generated.ofSections
    ([d].map (Descriptor.sectionOf s))).routines from hr)
  rw [List.mem_singleton.mp he]
  exact emitted_eq_ok.mpr ⟨hready.flags, rfl⟩

/-- **A routine is made just for sound declarations, and then every flag has one writer.** The block
    below the fragment assigns flags in order, none twice: it gives each fixed flag its value and
    computes each flag that the fragment does not manage. When the routine has run, these flags are
    what was assigned, and the others are what the fragment made of them. -/
theorem merge_routine {text : String} {t : Table} {f : Family} {rs : List Record} {d : Descriptor}
    (ht : (Table.ofText text).result = .ok t) (hrs : ∀ x ∈ rs, x ∈ t.records)
    (hd : (Descriptor.merge f rs).result = .ok d) {x : Record} (hx : x ∈ rs) :
    ((∃ r, d.emitted = .ok r) ↔ ∀ F, f.FlagSound x.flags F) ∧
    (∀ s g, (generateFamily s d).result = .ok g → ∀ r ∈ g.routines, d.emitted = .ok r) ∧
    ∀ r, d.emitted = .ok r →
      (∃ above gap, (∀ l ∈ gap, l = "") ∧ r.lines = above ++ r.fragmentLines ++ gap ++
        r.updates.map (fun u => Routine.bodyLine u.statement.text) ++
        (r.outcomeLines ++ [Routine.line "\x7d"])) ∧
      (∀ u ∈ r.updates, u.statement.text = "*" ++ u.flag.field ++ " = " ++ u.assigned ++ ";") ∧
      (r.updates.map FlagUpdate.flag).Sublist Flag.all ∧
      (∀ u, u ∈ r.updates ↔ f.Assigns x.flags u) ∧
      (∀ F, F ∈ r.updates.map FlagUpdate.flag ↔ x.flags.get F ≠ .unaffected ∧
        ((x.flags.get F).isComputed = true → F ∉ f.selfManaged)) ∧
      ∀ s s', r.run s = .ok (s', true) → ∃ s₁ s₂, advanced s r.length = .ok s₁ ∧
        f.fragment.run s₁ = .ok s₂ ∧ runUpdates s₂ r.updates = .ok s' ∧
        (s₂.NamesFlags → (∀ u ∈ r.updates, u.Gives s₂ (s'.cpu.flag u.flag)) ∧
          (∀ F, F ∉ r.updates.map FlagUpdate.flag → s'.cpu.flag F = s₂.cpu.flag F) ∧
          ∀ F ∈ f.selfManaged, (x.flags.get F).isComputed = true →
            s'.cpu.flag F = s₂.cpu.flag F) := by
  obtain ⟨_, _, hdocument⟩ := Table.ofText_eq_ok.mp ht
  have hplain : x.Unwidened := fun F w => Table.ofDocument_width hdocument (hrs x hx) F w
  have hmerged := merge_eq_ok hd
  have hcheck := hmerged.checkFlags_eq_ok hx hplain
  refine ⟨⟨fun h => ?_, fun h => ⟨_, emitted_eq_ok.mpr ⟨hcheck.mpr h, rfl⟩⟩⟩,
    fun s g h => generateFamily_routines h, fun r hr => ?_⟩
  · obtain ⟨r, hr⟩ := h
    exact hcheck.mp (emitted_eq_ok.mp hr).1
  obtain ⟨hflags, rfl⟩ := emitted_eq_ok.mp hr
  have hsound := hcheck.mp hflags
  have hmem : ∀ u, u ∈ d.routine.updates ↔ f.Assigns x.flags u := fun u =>
    hmerged.mem_flagUpdates hx hplain hsound
  have hassigned : ∀ F, F ∈ d.routine.updates.map FlagUpdate.flag ↔ x.flags.get F ≠ .unaffected ∧
      ((x.flags.get F).isComputed = true → F ∉ f.selfManaged) := by
    intro F
    rw [List.mem_map, ← (hsound F).assigned_iff]
    exact exists_congr fun u => and_congr_left' (hmem u)
  refine ⟨d.routine.lines_updates, fun u _ => u.statement_text, flagUpdates_sublist d, hmem,
    hassigned, fun s s' hrun => ?_⟩
  obtain ⟨s₁, h₁, _, s₂, h₂, h₃⟩ := Routine.run_eq_ok.mp hrun
  have hnodup := (flagUpdates_sublist d).nodup (by decide)
  rw [← hmerged.family]
  refine ⟨s₁, s₂, h₁, h₂, h₃, fun hnames => ⟨runUpdates_gives hnames hnodup h₃,
    fun F hF => runUpdates_flag hnames h₃ hF, fun F hself hF => ?_⟩⟩
  refine runUpdates_flag hnames h₃ fun hmem => ?_
  rw [hmerged.family] at hself
  exact ((hassigned F).mp hmem).2 hF hself

/-- A family of `NOP` that adds 8 to 8, with declarations for the half carry. -/
def halfCarryFamily (widths : List (Flag × CarryWidth)) (managed : List Flag) : Family where
  name := "NOP"
  opcodes := [0x00]
  fragment := .program .ended (.step (.bind .operand1 (.number .u8 8 .decimal))
    (.step (.bind .operand2 (.number .u8 8 .decimal))
      (.step (.bind .result (.number .u8 16 .decimal)) .done)))
  carryWidths := widths
  selfManaged := managed
  fixtures _ := {}

/-- If the table computes the half carry, it needs one declaration: without any there is no routine;
    with a width the routine tests the bit, which the addition of 8 to 8 sets; and if the fragment
    manages it there is no update of it. -/
theorem merge_routine_halfCarry : ∃ t, (Table.ofText (threeRows "H")).result = .ok t ∧
    ∃ x ∈ t.records,
      (∃ d, (Descriptor.merge (halfCarryFamily [] []) [x]).result = .ok d ∧
        ∀ r, d.emitted ≠ .ok r) ∧
      (∃ d r, (Descriptor.merge (halfCarryFamily [(.H, .bit4)] []) [x]).result = .ok d ∧
        d.emitted = .ok r ∧ .carry .H .bit4 ∈ r.updates ∧
        (FlagUpdate.carry .H .bit4).statement.text =
          "*hf = ((operand1 as u16) ^ (operand2 as u16) ^ (result as u16)) & (1 << 4) != 0;" ∧
        ∃ s', r.run ⟨.initial, [(.pc, .pc), (.flag .H, .flag .H)]⟩ = .ok (s', true) ∧
          s'.cpu.flag .H = true) ∧
      ∃ d r, (Descriptor.merge (halfCarryFamily [] [.H]) [x]).result = .ok d ∧
        d.emitted = .ok r ∧ .H ∉ r.updates.map FlagUpdate.flag := by
  let x : Record := ⟨.plain 0x00, "NOP", [], { h := .computed none }, 1, ⟨4, none⟩⟩
  have hx : ∀ y ∈ [x], y ∈ (threeRecords (.computed none)).records :=
    List.forall_mem_singleton.mpr List.mem_cons_self
  refine ⟨_, ofText_threeRows.2, x, List.mem_cons_self, ?_, ?_, ?_⟩
  · obtain ⟨d, hd⟩ := exists_of_isOk
      (show (Descriptor.merge (halfCarryFamily [] []) [x]).result.isOk = true from rfl)
    obtain ⟨hmade, _⟩ := merge_routine ofText_threeRows.2 hx hd (List.mem_singleton_self x)
    refine ⟨d, hd, fun r hr => ?_⟩
    rcases (hmade.mp ⟨r, hr⟩ .H).computed rfl with hself | hZ | ⟨_, w, hw⟩
    · exact absurd hself List.not_mem_nil
    · cases hZ
    · exact absurd hw List.not_mem_nil
  · let f := halfCarryFamily [(.H, .bit4)] []
    let d := Descriptor.ofMembers f [⟨x, []⟩] (Member.mk x []).signature
    have hd : (Descriptor.merge f [x]).result = .ok d := by rfl
    obtain ⟨hmade, _, hroutine⟩ :=
      merge_routine ofText_threeRows.2 hx hd (List.mem_singleton_self x)
    have hsound : ∀ F, f.FlagSound x.flags F := by
      intro F
      cases F <;> constructor <;>
        simp [f, halfCarryFamily, x, FlagEffects.get, FlagEffect.isComputed]
    obtain ⟨r, hr⟩ := hmade.mpr hsound
    obtain ⟨_, hwritten, _, hassigns, _, hrun⟩ := hroutine r hr
    have hcarry : .carry .H .bit4 ∈ r.updates :=
      (hassigns _).mpr ⟨.inl rfl, rfl, List.not_mem_nil, List.mem_singleton_self _⟩
    refine ⟨_, r, hd, hr, hcarry, (hwritten _ hcarry).trans (by decide +kernel), ?_⟩
    obtain ⟨_, rfl⟩ := emitted_eq_ok.mp hr
    obtain ⟨s', hs'⟩ : ∃ s', d.routine.run ⟨.initial, [(.pc, .pc), (.flag .H, .flag .H)]⟩ =
        .ok (s', true) := ⟨_, rfl⟩
    refine ⟨s', hs', ?_⟩
    obtain ⟨s₁, s₂, h₁, h₂, _, hgives⟩ := hrun _ _ hs'
    obtain rfl := Except.ok.inj h₁
    obtain rfl := Except.ok.inj h₂
    obtain ⟨hgives, _⟩ := hgives (by
      intro F G h
      cases F <;> cases h
      rfl)
    exact hgives _ hcarry 8 8 16 (showsBit_of_unsigned rfl rfl 4) (showsBit_of_unsigned rfl rfl 4)
      (showsBit_of_unsigned rfl rfl 4)
  · obtain ⟨d, hd⟩ := exists_of_isOk
      (show (Descriptor.merge (halfCarryFamily [] [.H]) [x]).result.isOk = true from rfl)
    obtain ⟨hmade, _, hroutine⟩ :=
      merge_routine ofText_threeRows.2 hx hd (List.mem_singleton_self x)
    have hsound : ∀ F, (halfCarryFamily [] [.H]).FlagSound x.flags F := by
      intro F
      cases F <;> constructor <;>
        simp [halfCarryFamily, x, FlagEffects.get, FlagEffect.isComputed]
    obtain ⟨r, hr⟩ := hmade.mpr hsound
    refine ⟨d, r, hd, hr, fun hmem => ?_⟩
    obtain ⟨_, _, _, _, hflags, _⟩ := hroutine r hr
    exact ((hflags .H).mp hmem).2 rfl (List.mem_singleton_self _)

end Sm83Codegen
