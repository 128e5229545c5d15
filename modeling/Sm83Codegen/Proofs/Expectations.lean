import Mathlib.Data.List.Nodup
import Sm83Codegen.Emit.TestCase

/-!
# Expectations of complete scenarios

What is put into a case beside what its scenario says, and in which order it stands there.

* `Subject` -- what an expectation is about; `Subject.inOrder` -- all subjects, as a case names them;
* `rankedExpectations_eq` -- ordered expectations stand subject by subject, those of one subject as
  they stood before;
* `mem_fixed`, `fixed_nodup` -- the flags that are fixed;
* `Scenario.completed`, `Scenario.prepared` -- the expectations and the presets of a complete
  scenario; `addFixed_eq_ok` -- adding the fixed flags gives them, if the scenario agrees with them.
-/

namespace Sm83Codegen

/-! ## 1. The order of expectations -/

/-- Elements group by group are the same elements. -/
theorem flatMap_filter_perm {α β : Type} [DecidableEq β] {key : α → β} {ks : List β}
    (hks : ks.Nodup) {xs : List α} (h : ∀ x ∈ xs, key x ∈ ks) :
    (ks.flatMap (fun k => xs.filter (fun x => key x == k))).Perm xs := by
  induction ks generalizing xs with
  | nil =>
    rw [List.eq_nil_iff_forall_not_mem.mpr fun x hx => absurd (h x hx) List.not_mem_nil]
    exact .refl _
  | cons k ks ih =>
    obtain ⟨hk, hks⟩ := List.nodup_cons.mp hks
    -- the later groups take nothing from the first one
    have hlater : ks.flatMap (fun l => (xs.filter (fun x => !(key x == k))).filter
        (fun x => key x == l)) = ks.flatMap (fun l => xs.filter (fun x => key x == l)) := by
      refine List.flatMap_congr fun l hl => ?_
      rw [List.filter_filter]
      refine List.filter_congr fun x _ => ?_
      by_cases hx : key x = l
      · have hne : key x ≠ k := fun heq => hk (heq ▸ hx ▸ hl)
        rw [beq_false_of_ne hne, Bool.not_false, Bool.and_true]
      · rw [beq_false_of_ne hx, Bool.false_and]
    have hkeys : ∀ x ∈ xs.filter (fun x => !(key x == k)), key x ∈ ks := by
      intro x hx
      obtain ⟨hx, hne⟩ := List.mem_filter.mp hx
      exact (List.mem_cons.mp (h x hx)).resolve_left (by simpa using hne)
    have hrest := ih hks hkeys
    rw [hlater] at hrest
    rw [List.flatMap_cons]
    exact (hrest.append_left _).trans (List.filter_append_perm _ xs)

/-- What an expectation is about. -/
inductive Subject where
  | register (name : String)
  | pc
  | flag (f : Flag)
  | memory (address : UInt16)
  deriving DecidableEq, Repr

/-- What an expectation is about, whatever it expects. -/
def Expectation.subject : Expectation → Subject
  | reg8 r _ => .register r
  | reg16 r _ => .register r
  | pc _ => .pc
  | flag f _ => .flag f
  | memory a _ => .memory a

namespace Subject

/-- The subjects in the order of a case: registers, the program counter, flags, memory by
    address. -/
def inOrder : List Subject :=
  ["A", "F", "B", "C", "D", "E", "H", "L", "AF", "BC", "DE", "HL", "SP"].map register ++
    pc :: ([.Z, .N, .H, .C].map flag ++
      (List.range 0x10000).map (fun a => memory (UInt16.ofNat a)))

/-- The place of a subject. -/
def rank : Subject → Nat
  | register r => registerOrder.idxOf r
  | pc => registerOrder.length
  | flag f => 0x10000 + f.index
  | memory a => 0x20000 + a.toNat

theorem inOrder_ascending : inOrder.Pairwise (fun p q => p.rank < q.rank) := by
  have hmemory : ((List.range 0x10000).map (fun a => memory (UInt16.ofNat a))).Pairwise
      (fun p q => p.rank < q.rank) := by
    rw [List.pairwise_map]
    refine List.pairwise_lt_range.imp_of_mem fun {a b} ha hb hlt => ?_
    rw [List.mem_range] at ha hb
    simp only [rank, UInt16.toNat_ofNat']
    omega
  have hrest : ∀ p ∈ (List.range 0x10000).map (fun a => memory (UInt16.ofNat a)),
      0x20000 ≤ p.rank := by
    intro p hp
    obtain ⟨a, _, rfl⟩ := List.mem_map.mp hp
    exact Nat.le_add_right _ _
  have hfew : (["A", "F", "B", "C", "D", "E", "H", "L", "AF", "BC", "DE", "HL", "SP"].map register ++
      pc :: [.Z, .N, .H, .C].map flag).Pairwise (fun p q => p.rank < q.rank) := by decide
  have hlow : ∀ p ∈ ["A", "F", "B", "C", "D", "E", "H", "L", "AF", "BC", "DE", "HL", "SP"].map
      register ++ pc :: [.Z, .N, .H, .C].map flag, p.rank < 0x20000 := by decide
  unfold inOrder
  rw [← List.cons_append, ← List.append_assoc]
  exact List.pairwise_append.mpr
    ⟨hfew, hmemory, fun p hp q hq => Nat.lt_of_lt_of_le (hlow p hp) (hrest q hq)⟩

theorem inOrder_nodup : inOrder.Nodup :=
  inOrder_ascending.imp fun hlt heq => Nat.ne_of_lt hlt (congrArg rank heq)

/-- Every subject has its place but a register under no register's name. -/
theorem mem_inOrder {p : Subject}
    (h : ∀ r, p = register r → isReg8Name r = true ∨ isReg16Name r = true) : p ∈ inOrder := by
  unfold inOrder
  simp only [List.mem_append, List.mem_cons, List.mem_map, List.mem_range]
  cases p with
  | register r =>
    have hbytes : ∀ r ∈ reg8Names, r ∈ registerOrder := by decide
    have hpairs : ∀ r ∈ pairNames, r ∈ registerOrder := by decide
    have hr : r ∈ registerOrder := by
      rcases h r rfl with hr | hr
      · exact hbytes r (List.contains_iff_mem.mp hr)
      · unfold isReg16Name at hr
        rw [Bool.or_eq_true, beq_iff_eq] at hr
        rcases hr with hr | rfl
        · exact hpairs r (List.contains_iff_mem.mp hr)
        · decide
    exact .inl ⟨r, by simpa [registerOrder] using hr, rfl⟩
  | pc => exact .inr (.inl rfl)
  | flag f => exact .inr (.inr (.inl ⟨f, by simpa [Flag.all] using f.mem_all, rfl⟩))
  | memory a =>
    exact .inr (.inr (.inr ⟨a.toNat, a.toNat_lt, by rw [UInt16.ofNat_toNat]⟩))

end Subject

theorem Expectation.rank_subject (e : Expectation) : e.rank = e.subject.rank := by
  cases e <;> rfl

/-- Expectations subject by subject, those of one subject in their order. -/
def grouped (ps : List Subject) (es : List Expectation) : List Expectation :=
  ps.flatMap (fun p => es.filter (fun e => e.subject == p))

theorem insertRanked_of_le {e : Expectation} {es : List Expectation}
    (h : ∀ x ∈ es, e.rank ≤ x.rank) : insertRanked e es = e :: es := by
  cases es with
  | nil => rfl
  | cons x es => exact if_pos (h x List.mem_cons_self)

theorem insertRanked_append {e : Expectation} {es : List Expectation}
    (h : ∀ x ∈ es, x.rank < e.rank) (more : List Expectation) :
    insertRanked e (es ++ more) = es ++ insertRanked e more := by
  induction es with
  | nil => rfl
  | cons x es ih =>
    rw [List.forall_mem_cons] at h
    rw [List.cons_append, insertRanked, if_neg (Nat.not_le.mpr h.1), ih h.2]
    rfl

/-- An expectation is put before those of its own subject, and behind those of earlier ones. -/
theorem insertRanked_grouped {ps : List Subject} (hps : ps.Pairwise (fun p q => p.rank < q.rank))
    {e : Expectation} (he : e.subject ∈ ps) (es : List Expectation) :
    insertRanked e (grouped ps es) = grouped ps (e :: es) := by
  induction ps with
  | nil => exact absurd he List.not_mem_nil
  | cons p ps ih =>
    obtain ⟨hfirst, hrest⟩ := List.pairwise_cons.mp hps
    have hsubject : ∀ x ∈ es.filter (fun e => e.subject == p), x.subject = p := fun x hx =>
      beq_iff_eq.mp (List.mem_filter.mp hx).2
    have hlater : ∀ x ∈ grouped ps es, x.subject ∈ ps := by
      intro x hx
      obtain ⟨q, hq, hx⟩ := List.mem_flatMap.mp hx
      rw [beq_iff_eq.mp (List.mem_filter.mp hx).2]
      exact hq
    show insertRanked e (es.filter (fun e => e.subject == p) ++ grouped ps es) =
      (e :: es).filter (fun e => e.subject == p) ++ grouped ps (e :: es)
    by_cases hp : e.subject = p
    · have hnone : e.subject ∉ ps := fun hmem => Nat.lt_irrefl _ (hp ▸ hfirst _ hmem)
      have hsame : grouped ps (e :: es) = grouped ps es :=
        List.flatMap_congr fun q hq => List.filter_cons_of_neg (by
          rw [beq_iff_eq]
          exact fun heq => hnone (heq ▸ hq))
      have hhere : (e :: es).filter (fun e => e.subject == p) =
          e :: es.filter (fun e => e.subject == p) :=
        List.filter_cons_of_pos (beq_iff_eq.mpr hp)
      rw [hsame, hhere, List.cons_append]
      refine insertRanked_of_le fun x hx => ?_
      rw [e.rank_subject, x.rank_subject, hp]
      rcases List.mem_append.mp hx with hx | hx
      · exact Nat.le_of_eq (congrArg Subject.rank (hsubject x hx).symm)
      · exact Nat.le_of_lt (hfirst _ (hlater x hx))
    · have hmem : e.subject ∈ ps := (List.mem_cons.mp he).resolve_left hp
      have hhere : (e :: es).filter (fun e => e.subject == p) =
          es.filter (fun e => e.subject == p) :=
        List.filter_cons_of_neg (by rwa [beq_iff_eq])
      rw [hhere, ← ih hrest hmem]
      refine insertRanked_append (fun x hx => ?_) _
      rw [e.rank_subject, x.rank_subject, hsubject x hx]
      exact hfirst _ hmem

/-- **Ordered expectations stand subject by subject**, those of one subject as they stood before. -/
theorem rankedExpectations_eq {es : List Expectation} (h : ∀ e ∈ es, e.subject ∈ Subject.inOrder) :
    rankedExpectations es = grouped Subject.inOrder es := by
  induction es with
  | nil => exact (List.flatMap_eq_nil_iff.mpr fun _ _ => rfl).symm
  | cons e es ih =>
    rw [List.forall_mem_cons] at h
    show insertRanked e (rankedExpectations es) = _
    rw [ih h.2, insertRanked_grouped Subject.inOrder_ascending h.1]

/-- Expectations stand subject by subject, and each of them is there as often as before. -/
theorem grouped_perm {ps : List Subject} (hps : ps.Nodup) {es : List Expectation}
    (h : ∀ e ∈ es, e.subject ∈ ps) : (grouped ps es).Perm es :=
  flatMap_filter_perm hps h

/-! ## 2. Fixed flags -/

theorem mem_fixed {e : FlagEffects} {F : Flag} {v : Bool} :
    (F, v) ∈ e.fixed ↔ (e.get F).fixedValue = some v := by
  unfold FlagEffects.fixed
  simp [Flag.mem_all]

/-- A flag is fixed once. -/
theorem fixed_nodup (e : FlagEffects) : (e.fixed.map Prod.fst).Nodup := by
  have hkeys : e.fixed.map Prod.fst = Flag.all.filter (fun f => (e.get f).fixedValue.isSome) := by
    unfold FlagEffects.fixed
    rw [List.map_filterMap, ← List.filterMap_eq_filter]
    refine List.filterMap_congr fun f _ => ?_
    cases hv : (e.get f).fixedValue <;> simp [Option.guard, hv]
  rw [hkeys]
  exact List.Nodup.filter _ (by decide)

/-- A flag that is fixed stands once among those that are. -/
theorem fixed_filter {e : FlagEffects} {F : Flag} {v : Bool} (h : (e.get F).fixedValue = some v) :
    e.fixed.filter (fun x => x.1 == F) = [(F, v)] := by
  have hmem := mem_fixed.mpr h
  have hpair : e.fixed.filter (fun x => x.1 == F) = e.fixed.filter (fun x => x == (F, v)) := by
    refine List.filter_congr fun x hx => Bool.eq_iff_iff.mpr ?_
    rw [beq_iff_eq, beq_iff_eq]
    exact ⟨fun heq => List.inj_on_of_nodup_map (fixed_nodup e) hx hmem heq,
      fun heq => congrArg Prod.fst heq⟩
  rw [hpair, List.filter_beq, List.count_eq_one_of_mem (List.Nodup.of_map _ (fixed_nodup e)) hmem]
  rfl

/-! ## 3. Complete scenarios -/

/-- In a baseline case, the other value of each fixed flag that is not preset. -/
def negations (k : ScenarioKind) (ps : List Preset) (fixed : List (Flag × Bool)) : List Preset :=
  if k = .baseline then
    (fixed.filter (fun x => !Descriptor.presetsFlag ps x.1)).map (fun x => .flag x.1 (!x.2))
  else []

namespace Scenario

/-- Whether a scenario expects anything of a flag. -/
def assertsFlag (s : Scenario) (F : Flag) : Bool :=
  s.expectations.any (fun e => e.subject == .flag F)

/-- The expectations of a scenario, and what it leaves open: where the program counter ends, and
    the fixed flags it expects nothing of. -/
def completed (s : Scenario) (r : Record) : List Expectation :=
  s.expectations ++ (if s.assertsPc then [] else [.pc (UInt16.ofNat (0x21 + r.length.toNat))]) ++
    (r.flags.fixed.filter (fun x => !s.assertsFlag x.1)).map (fun x => .flag x.1 x.2)

/-- The presets of a scenario, and in a baseline case the other value of each fixed flag it does not
    preset. -/
def prepared (s : Scenario) (k : ScenarioKind) (r : Record) : List Preset :=
  s.presets ++ negations k s.presets r.flags.fixed

theorem expectedOf_eq_none {s : Scenario} {F : Flag} :
    s.expectedOf F = none ↔ s.assertsFlag F = false := by
  unfold expectedOf assertsFlag
  rw [List.findSome?_eq_none_iff, List.any_eq_false]
  refine forall₂_congr fun e _ => ?_
  cases e with
  | flag g v => by_cases hg : g = F <;> simp [Expectation.subject, hg]
  | _ => simp [Expectation.subject]

theorem assertsFlag_of_expectedOf {s : Scenario} {F : Flag} {w : Bool}
    (h : s.expectedOf F = some w) : s.assertsFlag F = true := by
  rw [← Bool.not_eq_false]
  intro hnone
  rw [expectedOf_eq_none.mpr hnone] at h
  cases h

end Scenario

section Cases

variable {d : Descriptor} {m : Member} {k : ScenarioKind} {s : Scenario}

theorem presetsFlag_append (ps : List Preset) (G : Flag) (v : Bool) (F : Flag) :
    Descriptor.presetsFlag (ps ++ [.flag G v]) F = (Descriptor.presetsFlag ps F || G == F) := by
  unfold Descriptor.presetsFlag
  simp

/-- A preset of one flag does not count for the others. -/
theorem negations_append {ps : List Preset} {F : Flag} {v : Bool} {fixed : List (Flag × Bool)}
    (h : F ∉ fixed.map Prod.fst) :
    negations k (ps ++ [.flag F v]) fixed = negations k ps fixed := by
  unfold negations
  congr 2
  refine List.filter_congr fun x hx => ?_
  have hne : (F == x.1) = false := beq_eq_false_iff_ne.mpr fun heq =>
    h (heq ▸ List.mem_map_of_mem hx)
  rw [presetsFlag_append, hne, Bool.or_false]

/-- What the first of some fixed flags adds, and then the others. -/
theorem negations_cons (k : ScenarioKind) (ps : List Preset) {F : Flag} (v : Bool)
    {fixed : List (Flag × Bool)} (h : F ∉ fixed.map Prod.fst) : ∃ added,
      (if k == .baseline && !Descriptor.presetsFlag ps F then ps ++ [.flag F (!v)] else ps) =
        ps ++ added ∧
      negations k ps ((F, v) :: fixed) = added ++ negations k (ps ++ added) fixed := by
  split
  · next hadd =>
    rw [Bool.and_eq_true, beq_iff_eq] at hadd
    refine ⟨[.flag F (!v)], rfl, ?_⟩
    have hhere : ((F, v) :: fixed).filter (fun x => !Descriptor.presetsFlag ps x.1) =
        (F, v) :: fixed.filter (fun x => !Descriptor.presetsFlag ps x.1) :=
      List.filter_cons_of_pos hadd.2
    rw [negations_append h]
    unfold negations
    rw [if_pos hadd.1, if_pos hadd.1, hhere]
    rfl
  · next hadd =>
    refine ⟨[], (List.append_nil _).symm, ?_⟩
    rw [List.append_nil, List.nil_append]
    unfold negations
    by_cases hk : k = .baseline
    · have hhere : ((F, v) :: fixed).filter (fun x => !Descriptor.presetsFlag ps x.1) =
          fixed.filter (fun x => !Descriptor.presetsFlag ps x.1) :=
        List.filter_cons_of_neg fun hF => hadd (by rw [hk, Bool.and_eq_true]; exact ⟨rfl, hF⟩)
      rw [if_pos hk, if_pos hk, hhere]
    · rw [if_neg hk, if_neg hk]

/-- **Adding fixed flags to a case** completes it, if the first that its scenario expects of each of
    them is its value. -/
theorem addFixed_eq_ok {c c' : Descriptor.CaseState} {fixed : List (Flag × Bool)}
    (hfixed : (fixed.map Prod.fst).Nodup) : d.addFixed m k s c fixed = .ok c' ↔
      (∀ x ∈ fixed, ∀ w, s.expectedOf x.1 = some w → w = x.2) ∧
      c' = ⟨c.presets ++ negations k c.presets fixed, c.expectations ++
        (fixed.filter (fun x => !s.assertsFlag x.1)).map (fun x => .flag x.1 x.2)⟩ := by
  -- the presets grow from flag to flag, but never by one that a later flag is looked for under
  induction fixed generalizing c with
  | nil =>
    have hnone : negations k c.presets [] = [] := by
      unfold negations
      split <;> rfl
    rw [hnone, List.append_nil]
    constructor
    · intro h
      cases h
      exact ⟨fun x hx => absurd hx List.not_mem_nil, by simp⟩
    · intro h
      rw [h.2]
      simp [Descriptor.addFixed]
  | cons x fixed ih =>
    obtain ⟨F, v⟩ := x
    obtain ⟨hF, hfixed⟩ := List.nodup_cons.mp hfixed
    obtain ⟨added, hpresets, hnegations⟩ := negations_cons k c.presets v hF
    rw [hnegations, List.forall_mem_cons, ← List.append_assoc]
    unfold Descriptor.addFixed
    dsimp only
    rw [hpresets]
    cases hw : s.expectedOf F with
    | none =>
      have hadded : ((F, v) :: fixed).filter (fun x => !s.assertsFlag x.1) =
          (F, v) :: fixed.filter (fun x => !s.assertsFlag x.1) :=
        List.filter_cons_of_pos (by rw [Scenario.expectedOf_eq_none.mp hw]; rfl)
      dsimp only
      rw [ih hfixed, hadded]
      simp
    | some w =>
      have hkept : ((F, v) :: fixed).filter (fun x => !s.assertsFlag x.1) =
          fixed.filter (fun x => !s.assertsFlag x.1) :=
        List.filter_cons_of_neg (by rw [Scenario.assertsFlag_of_expectedOf hw]; decide)
      dsimp only
      rw [hkept]
      by_cases hwv : w = v
      · rw [if_neg (by simpa using hwv), ih hfixed]
        simp [hwv]
      · rw [if_pos (by simpa using hwv)]
        constructor
        · intro h
          cases h
        · intro h
          exact absurd (h.1.1 w rfl) hwv

end Cases

end Sm83Codegen
