import Mathlib.Data.List.Pairwise
import Sm83Codegen.Proofs.Merging

/-!
# Aliasing

Two operands that name overlapping registers are reported. The report looks at names: the same name
twice, or the letter of a register inside the name of a pair. Here the registers are storage, and
the report is right: it is made exactly if two operands share storage.

* `Storage`, `storageOf`, `Overlap` -- the parts of the register file, and what names denote;
* `not_overlap_iff` -- two names share none exactly if they pass every test;
* `byteNames_eq`, `wordNames_eq` -- the registers of a width among classified operands, by name;
* `not_aliased_iff` -- nothing is reported exactly if the names are pairwise apart;
* `aliased_iff_overlap` -- the report, of all operands that are classified.
-/

namespace Sm83Codegen

/-! ## 1. Storage -/

/-- A part of the register file. -/
inductive Storage where
  | byte (r : Reg8)
  | stackPointer
  deriving DecidableEq, Repr

/-- What a 16-bit register denotes: its halves, or the stack pointer. -/
def Reg16.storage (p : Reg16) : List Storage :=
  match p.halves with
  | some (high, low) => [.byte high, .byte low]
  | none => [.stackPointer]

/-- What a name denotes: of a register, its storage; of anything else, nothing. -/
def storageOf (name : String) : List Storage :=
  match Reg8.ofName? name, Reg16.ofName? name with
  | some r, _ => [.byte r]
  | none, some p => p.storage
  | none, none => []

/-- Two names share storage. -/
def Overlap (m n : String) : Prop := ∃ x, x ∈ storageOf m ∧ x ∈ storageOf n

instance (m n : String) : Decidable (Overlap m n) :=
  decidable_of_iff (∃ x ∈ storageOf m, x ∈ storageOf n) Iff.rfl

theorem Overlap.symm {m n : String} (h : Overlap m n) : Overlap n m :=
  h.imp fun _ hx => hx.symm

/-! ## 2. Names -/

/-- The names of all registers. -/
def registerNames : List String := reg8Names ++ pairNames ++ ["SP"]

theorem not_mem_registerNames {name : String} :
    name ∉ registerNames ↔ isReg8Name name = false ∧ isReg16Name name = false := by
  simp [registerNames, isReg8Name, isReg16Name]

theorem storageOf_of_not_register {name : String} (h : name ∉ registerNames) :
    storageOf name = [] := by
  have hr : Reg8.ofName? name = none := by
    refine List.find?_eq_none.mpr fun r _ hr => h ?_
    rw [← beq_iff_eq.mp hr]
    cases r <;> decide
  have hp : Reg16.ofName? name = none := by
    refine List.find?_eq_none.mpr fun p _ hp => h ?_
    rw [← beq_iff_eq.mp hp]
    cases p <;> decide
  rw [storageOf, hr, hp]

/-- A name of no register denotes nothing. -/
theorem not_overlap_of_not_register {m n : String} (h : m ∉ registerNames) : ¬ Overlap m n := by
  rintro ⟨x, hx, _⟩
  rw [storageOf_of_not_register h] at hx
  exact List.not_mem_nil hx

/-- A byte register inside a 16-bit register, by their names. -/
def Inside (m n : String) : Prop :=
  isReg8Name m = true ∧ isReg16Name n = true ∧ Operand.occursIn m.toList n.toList = true

instance (m n : String) : Decidable (Inside m n) :=
  inferInstanceAs (Decidable (_ ∧ _ ∧ _))

theorem Inside.irrefl (m : String) : ¬ Inside m m := by
  rintro ⟨h8, h16, _⟩
  obtain ⟨r, rfl⟩ := exists_reg8 h8
  cases r <;> exact absurd h16 (by decide)

/-- The tests of two names: not the same register of either width, and neither inside the other. -/
def Separate (m n : String) : Prop :=
  (isReg8Name m = true → isReg8Name n = true → m ≠ n) ∧
    (isReg16Name m = true → isReg16Name n = true → m ≠ n) ∧ ¬ Inside m n ∧ ¬ Inside n m

instance (m n : String) : Decidable (Separate m n) :=
  inferInstanceAs (Decidable (_ ∧ _ ∧ _ ∧ _))

/-- The names of registers, by a table. -/
theorem not_overlap_iff_of_registers :
    ∀ m ∈ registerNames, ∀ n ∈ registerNames, ¬ Overlap m n ↔ Separate m n := by
  decide +kernel

/-- **Names share no storage exactly if they pass every test.** A name of no register denotes
    nothing and passes. -/
theorem not_overlap_iff (m n : String) : ¬ Overlap m n ↔ Separate m n := by
  by_cases hm : m ∈ registerNames
  · by_cases hn : n ∈ registerNames
    · exact not_overlap_iff_of_registers m hm n hn
    · obtain ⟨h8, h16⟩ := not_mem_registerNames.mp hn
      refine iff_of_true (fun h => not_overlap_of_not_register hn h.symm) ?_
      simp [Separate, Inside, h8, h16]
  · obtain ⟨h8, h16⟩ := not_mem_registerNames.mp hm
    refine iff_of_true (not_overlap_of_not_register hm) ?_
    simp [Separate, Inside, h8, h16]

/-! ## 3. Lists of operands -/

theorem hasRepeat_eq_false {ns : List String} :
    Operand.hasRepeat ns = false ↔ ns.Pairwise (· ≠ ·) := by
  induction ns with
  | nil => simp [Operand.hasRepeat]
  | cons n ns ih =>
    rw [Operand.hasRepeat, Bool.or_eq_false_iff, ih, ← List.nodup_iff_pairwise_ne,
      ← List.nodup_iff_pairwise_ne, List.nodup_cons, List.contains_eq_mem, decide_eq_false_iff_not]

/-- The search of every byte register in every 16-bit register, as a test of pairs. -/
theorem inside_eq_false {ns : List String} :
    ((ns.filter isReg8Name).any fun r => (ns.filter isReg16Name).any fun p =>
      Operand.occursIn r.toList p.toList) = false ↔
    ns.Pairwise fun m n => ¬ Inside m n ∧ ¬ Inside n m := by
  have hall : ((ns.filter isReg8Name).any fun r => (ns.filter isReg16Name).any fun p =>
      Operand.occursIn r.toList p.toList) = false ↔ ∀ m ∈ ns, ∀ n ∈ ns, ¬ Inside m n := by
    simp only [List.any_eq_false, List.forall_mem_filter, Bool.not_eq_true, Inside, not_and]
    exact ⟨fun h m hm n hn h8 h16 => h m hm h8 n hn h16,
      fun h m hm h8 n hn h16 => h m hm n hn h8 h16⟩
  rw [hall]
  have : Std.Symm fun m n => ¬ Inside m n ∧ ¬ Inside n m := ⟨fun _ _ h => h.symm⟩
  constructor
  · exact fun h => List.pairwise_of_forall_mem_list fun m hm n hn => ⟨h m hm n hn, h n hn m hm⟩
  · intro h m hm n hn
    have hdiag : ∀ m ∈ ns, ¬ Inside m m ∧ ¬ Inside m m :=
      fun m _ => ⟨Inside.irrefl m, Inside.irrefl m⟩
    exact (h.forall_of_forall hdiag hm hn).1

/-- The kind of a name is that of a register of a width exactly if the name is. -/
theorem kindOf_widths {name : String} {kind : OperandKind} (h : kindOf name = some kind) :
    (kind == .reg8) = isReg8Name name ∧
      (kind == .reg16 || kind == .regSP) = isReg16Name name := by
  by_cases hr : name ∈ registerNames
  · have table : ∀ name ∈ registerNames, ∀ kind ∈ kindOf name,
        (kind == .reg8) = isReg8Name name ∧
          (kind == .reg16 || kind == .regSP) = isReg16Name name := by decide
    exact table name hr kind h
  · obtain ⟨h8, h16⟩ := not_mem_registerNames.mp hr
    rw [h8, h16]
    unfold isReg16Name at h16
    obtain ⟨hp, hs⟩ := Bool.or_eq_false_iff.mp h16
    -- what is left of the classification are the kinds that are not registers
    unfold kindOf at h
    rw [h8, hp, hs, if_neg Bool.false_ne_true, if_neg Bool.false_ne_true,
      if_neg Bool.false_ne_true] at h
    split_ifs at h <;> cases h <;> exact ⟨rfl, rfl⟩

section Classified

variable {key : OpcodeKey} {es : List OperandEntry} {os : List Operand}

theorem byteNames_eq (h : (Operand.classifyAll key es).result = .ok os) :
    Operand.byteNames os = (es.map OperandEntry.name).filter isReg8Name := by
  rw [Operand.byteNames, ← classifyAll_names h, List.filter_map]
  refine congrArg _ (List.filter_congr fun o ho => ?_)
  exact (kindOf_widths (classifyAll_kindOf h o ho)).1

theorem wordNames_eq (h : (Operand.classifyAll key es).result = .ok os) :
    Operand.wordNames os = (es.map OperandEntry.name).filter isReg16Name := by
  rw [Operand.wordNames, ← classifyAll_names h, List.filter_map]
  refine congrArg _ (List.filter_congr fun o ho => ?_)
  exact (kindOf_widths (classifyAll_kindOf h o ho)).2

/-- Nothing is reported exactly if no two names share storage. -/
theorem not_aliased_iff (h : (Operand.classifyAll key es).result = .ok os) :
    Operand.aliased os = false ↔ (es.map OperandEntry.name).Pairwise fun m n => ¬ Overlap m n := by
  rw [Operand.aliased, byteNames_eq h, wordNames_eq h, Bool.or_eq_false_iff, Bool.or_eq_false_iff,
    hasRepeat_eq_false, hasRepeat_eq_false, inside_eq_false, List.pairwise_filter,
    List.pairwise_filter, and_assoc, ← List.pairwise_and_iff, ← List.pairwise_and_iff]
  exact (List.Pairwise.iff not_overlap_iff).symm

/-- **Operands are reported exactly if two of them share storage.** -/
theorem aliased_iff_overlap (h : (Operand.classifyAll key es).result = .ok os) :
    Operand.aliased os = true ↔ ∃ (i j : Nat) (e e' : OperandEntry), i ≠ j ∧
      es[i]? = some e ∧ es[j]? = some e' ∧ Overlap e.name e'.name := by
  rw [← Bool.not_eq_false, not_aliased_iff h, List.pairwise_map, List.pairwise_iff_getElem]
  constructor
  · intro hne
    push Not at hne
    obtain ⟨i, j, hi, hj, hij, hover⟩ := hne
    exact ⟨i, j, es[i], es[j], Nat.ne_of_lt hij, List.getElem?_eq_getElem hi,
      List.getElem?_eq_getElem hj, hover⟩
  · rintro ⟨i, j, e, e', hij, he, he', hover⟩ hapart
    obtain ⟨hi, rfl⟩ := List.getElem?_eq_some_iff.mp he
    obtain ⟨hj, rfl⟩ := List.getElem?_eq_some_iff.mp he'
    rcases Nat.lt_or_gt_of_ne hij with hlt | hgt
    · exact hapart i j hi hj hlt hover
    · exact hapart j i hj hi hgt hover.symm

/-- The address `BC` and its low half, with an immediate, a condition and the stack pointer among
    them. -/
theorem aliased_iff_overlap_halfOfPair :
    (Operand.classifyAll (.plain 0x02) [⟨"n8", true, false, false⟩, ⟨"BC", false, true, false⟩,
      ⟨"NZ", true, false, false⟩, ⟨"C", true, false, false⟩, ⟨"SP", true, false, false⟩]).result =
      .ok [⟨"n8", .imm8, false, .stay⟩, ⟨"BC", .reg16, true, .increment⟩,
        ⟨"NZ", .condition, false, .stay⟩, ⟨"C", .reg8, false, .stay⟩,
        ⟨"SP", .regSP, false, .stay⟩] ∧
    Overlap "BC" "C" ∧
    Operand.aliased [⟨"n8", .imm8, false, .stay⟩, ⟨"BC", .reg16, true, .increment⟩,
      ⟨"NZ", .condition, false, .stay⟩, ⟨"C", .reg8, false, .stay⟩,
      ⟨"SP", .regSP, false, .stay⟩] = true := by
  have hok : (Operand.classifyAll (.plain 0x02) [⟨"n8", true, false, false⟩,
      ⟨"BC", false, true, false⟩, ⟨"NZ", true, false, false⟩, ⟨"C", true, false, false⟩,
      ⟨"SP", true, false, false⟩]).result = .ok [⟨"n8", .imm8, false, .stay⟩,
        ⟨"BC", .reg16, true, .increment⟩, ⟨"NZ", .condition, false, .stay⟩,
        ⟨"C", .reg8, false, .stay⟩, ⟨"SP", .regSP, false, .stay⟩] := by
    decide
  have hover : Overlap "BC" "C" := by decide
  exact ⟨hok, hover, (aliased_iff_overlap hok).mpr ⟨1, 3, _, _, by decide, rfl, rfl, hover⟩⟩

end Classified

end Sm83Codegen
