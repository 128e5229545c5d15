import Sm83Codegen.Proofs.Bindings
import Sm83Codegen.Proofs.Digits

/-!
# Literals

A literal operand reaches a routine as a number in the branch of its opcode, and the tests of the
opcode as a byte. Both mean the same: the decoder's default for an operand without a value is never
written. The families that shift by their literal get a bit index, and no shift goes beyond the
width of what it shifts.

* `Branch.numerals` -- the numbers that a branch passes; `WrittenAs` -- the number of an operand;
* `numerals_written` -- a number for each literal operand, in order;
* `catalog_bitIndex` -- the families whose fixtures need a bit index;
* `Routine.shifts?`, `catalog_shifts`, `update_shifts` -- the shifts of a routine;
* `generate_literals` -- the branches that the catalog gives, whatever the table says.
-/

namespace Sm83Codegen

/-! ## 1. The numbers of a branch -/

/-- The written form of a literal argument. -/
def Argument.numeral? : Argument → Option String
  | .literal value inDecimal => some (Argument.literal value inDecimal).text
  | _ => none

/-- The numbers that a branch passes, in order. -/
def Branch.numerals (b : Branch) : List String := b.arguments.filterMap Argument.numeral?

/-- The literal operands, in order. -/
def literalsOf (os : List Operand) : List Operand := os.filter (fun o => o.kind == .literal)

/-- A text is the number that a literal operand writes. -/
def WrittenAs (o : Operand) (t : String) : Prop :=
  ∃ v, o.literal? = some v ∧ Text.WritesByte v t.toList

/-- Either notation writes the byte. -/
theorem writesByte_literal (v : UInt8) (inDecimal : Bool) :
    Text.WritesByte v (Argument.literal v inDecimal).text.toList := by
  cases inDecimal with
  | false => exact Text.hex8_writes v
  | true => exact Text.decimal_writes v

/-- An operand that is no literal passes no number. -/
theorem numerals_of_not_literal {o : Operand} (h : o.kind ≠ .literal) :
    (operandArguments o).filterMap Argument.numeral? = [] := by
  unfold operandArguments
  split
  · rfl
  · rfl
  · rfl
  · rfl
  · rfl
  · next hk => exact absurd hk h
  · split <;> rfl

/-- A literal operand passes its number. -/
theorem numerals_of_literal {o : Operand} (ho : o.Denotes) (h : o.kind = .literal) :
    ∃ t, (operandArguments o).filterMap Argument.numeral? = [t] ∧ WrittenAs o t := by
  unfold Operand.Denotes at ho
  rw [h] at ho
  obtain ⟨v, hv⟩ := Option.isSome_iff_exists.mp ho
  have hvalue : o.literal? = some v := by
    unfold Operand.literal?
    rw [h]
    exact hv
  unfold operandArguments
  rw [h, hvalue]
  exact ⟨_, rfl, v, hvalue, writesByte_literal v _⟩

/-- The numbers of operands, one for each literal among them. -/
theorem operands_written {os : List Operand} (hos : ∀ o ∈ os, o.Denotes) :
    List.Forall₂ WrittenAs (literalsOf os)
      ((os.flatMap operandArguments).filterMap Argument.numeral?) := by
  induction os with
  | nil => exact .nil
  | cons o os ih =>
    obtain ⟨ho, hos⟩ := List.forall_mem_cons.mp hos
    unfold literalsOf at *
    rw [List.flatMap_cons, List.filterMap_append]
    by_cases hk : o.kind = .literal
    · obtain ⟨t, ht, hwritten⟩ := numerals_of_literal ho hk
      rw [List.filter_cons_of_pos (by simpa using hk), ht]
      exact .cons hwritten (ih hos)
    · rw [List.filter_cons_of_neg (by simpa using hk), numerals_of_not_literal hk]
      exact ih hos

/-- Only operands pass numbers. -/
theorem numerals_branch (d : Descriptor) (m : Member) :
    (d.branch m).numerals = (m.operands.flatMap operandArguments).filterMap Argument.numeral? := by
  have hregisters : (if d.usesRegisters then [Argument.registersBorrow] else []).filterMap
      Argument.numeral? = [] := by
    split <;> rfl
  have hmemory : (memoryArguments d.memoryAccess).filterMap Argument.numeral? = [] := by
    cases d.memoryAccess <;> rfl
  have hflags : (d.flagUses.map flagArgument).filterMap Argument.numeral? = [] := by
    rw [List.filterMap_map]
    refine List.filterMap_eq_nil_iff.mpr fun u _ => ?_
    cases u <;> rfl
  unfold Branch.numerals Descriptor.branch Descriptor.arguments
  show (_ ++ _ ++ _ ++ _ : List Argument).filterMap Argument.numeral? = _
  rw [List.filterMap_append, List.filterMap_append, List.filterMap_append, hregisters, hmemory,
    hflags, List.append_nil, List.nil_append, List.nil_append]

section Merged

variable {f : Family} {rs : List Record} {d : Descriptor} {m : Member}

/-- **A branch passes a number for each literal operand of its opcode**, the one it writes. -/
theorem numerals_written (h : d.Merged f rs) (hm : m ∈ d.members) :
    List.Forall₂ WrittenAs (literalsOf m.operands) (d.branch m).numerals := by
  rw [numerals_branch]
  exact operands_written (h.sound hm).denotes

/-! ## 2. Bit indices -/

/-- A first operand with a value is the only literal. -/
theorem literalsOf_eq (h : d.Merged f rs) (hm : m ∈ d.members) {v : UInt8}
    (hv : Catalog.literalAt m.operands 0 = some v) :
    ∃ o, literalsOf m.operands = [o] ∧ o.literal? = some v := by
  obtain ⟨o, ho, hvalue⟩ := Option.bind_eq_some_iff.mp hv
  have hkind : o.kind = .literal := by
    unfold Operand.literal? at hvalue
    split at hvalue
    · next hk => exact hk
    · cases hvalue
  have hfew := (h.sound hm).layout.literals
  obtain ⟨os, hos⟩ : ∃ os, m.operands = o :: os := by
    cases hos : m.operands with
    | nil => rw [hos] at ho; cases ho
    | cons p os => rw [hos] at ho; cases ho; exact ⟨os, rfl⟩
  have hcons : literalsOf (o :: os) = o :: literalsOf os :=
    List.filter_cons_of_pos (by simpa using hkind)
  have hnone : literalsOf os = [] := by
    rw [hos] at hfew
    change (literalsOf (o :: os)).length ≤ 1 at hfew
    rw [hcons, List.length_cons] at hfew
    exact List.length_eq_zero_iff.mp (by omega)
  exact ⟨o, by rw [hos, hcons, hnone], hvalue⟩

end Merged

namespace Catalog

/-- The families that test, clear and set a bit. -/
def bitIndexNames : List String :=
  ["BIT n, r", "BIT n, (HL)", "RES n, r", "RES n, (HL)", "SET n, r", "SET n, (HL)"]

/-- Fixtures of a bit are there only if the first operand is a bit index. -/
theorem withBit_index {os : List Operand} {cases : UInt8 → String → Fixtures}
    (h : (withBit os cases).error = none) : ∃ v, literalAt os 0 = some v ∧ v < 8 := by
  unfold withBit at h
  split at h
  · next v hv =>
    split at h
    · next hlt => exact ⟨v, hv, hlt⟩
    · cases h
  · cases h

/-- The families of single bits have such fixtures. -/
theorem catalog_bitIndex : ∀ f ∈ catalog, f.name ∈ bitIndexNames → ∀ os,
    (f.fixtures os).error = none → ∃ v, literalAt os 0 = some v ∧ v < 8 := by
  have hothers : ∀ f ∈ loadFamilies ++ arithmeticFamilies ++ bitFamilies.take 25 ++
      controlFamilies, f.name ∉ bitIndexNames := by decide +kernel
  have hbits : ∀ f ∈ bitFamilies.drop 25, ∀ os, (f.fixtures os).error = none →
      ∃ v, literalAt os 0 = some v ∧ v < 8 := by
    intro f hf os
    simp only [bitFamilies, List.drop_succ_cons, List.drop_zero, List.mem_cons, List.not_mem_nil,
      or_false] at hf
    rcases hf with rfl | rfl | rfl | rfl | rfl | rfl <;> exact withBit_index
  intro f hf hname
  unfold catalog at hf
  rw [← List.take_append_drop 25 bitFamilies] at hf
  simp only [List.mem_append] at hf hothers
  rcases hf with ((hf | hf) | hf | hf) | hf
  · exact absurd hname (hothers f (by tauto))
  · exact absurd hname (hothers f (by tauto))
  · exact absurd hname (hothers f (by tauto))
  · exact hbits f hf
  · exact absurd hname (hothers f (by tauto))

end Catalog

/-! ## 3. Shifts -/

/-- The shifts of an expression: what is shifted, and by what. -/
def Expr.shifts : Expr → List (Expr × Expr)
  | get _ | through _ | deref _ | number _ _ _ | truth _ | register _ | pair _ => []
  | byteAt e | cast e _ | group e | complement e | rotateLeft e _ | rotateRight e _ => e.shifts
  | binary .shiftLeft l r | binary .shiftRight l r => (l, r) :: (l.shifts ++ r.shifts)
  | binary _ l r | wrappingAdd l r | wrappingSub l r | ofBytes l r => l.shifts ++ r.shifts

/-- What a place holds. -/
def Place.content : Place → Expr
  | named b => .get b
  | deref b => .deref b
  | register r => .register r
  | byteAt e => .byteAt e

/-- The shifts of a statement. -/
def Statement.shifts : Statement → List (Expr × Expr)
  | bind _ e | bindMutable _ e | drop e | bindBytes _ _ e | setPair _ e => e.shifts
  | assign p e => p.content.shifts ++ e.shifts
  | update op p e => (Expr.binary op p.content e).shifts

/-- The shifts of a program. -/
def Program.shifts : Program → List (Expr × Expr)
  | done => []
  | blank rest => rest.shifts
  | step s rest => s.shifts ++ rest.shifts
  | choose c yes no rest => c.shifts ++ yes.shifts ++ no.shifts ++ rest.shifts

/-- The shifts of a fragment, if it is a program. -/
def Fragment.shifts? : Fragment → Option (List (Expr × Expr))
  | program _ p => some p.shifts
  | verbatim _ => none

/-- The shifts of a routine: those of its fragment and of its assignments to flags. -/
def Routine.shifts? (r : Routine) : Option (List (Expr × Expr)) :=
  r.fragment.shifts?.map (· ++ r.updates.flatMap (fun u => u.statement.shifts))

/-- A shift by a number below the width of what is shifted. No type is narrower than 8 bits. -/
def staysInWidth : Expr × Expr → Bool
  | (.number t _ _, .number _ n _) => n < t.width
  | (_, .number _ n _) => n < 8
  | _ => false

open Catalog

/-- A fragment of the catalog shifts by numbers that stay in the width and, if its family is of
    single bits, by the literal. -/
theorem catalog_shifts : ∀ f ∈ catalog, ∃ xs, f.fragment.shifts? = some xs ∧
    ∀ x ∈ xs, staysInWidth x = true ∨ x.2 = .get .literal ∧ f.name ∈ bitIndexNames := by
  decide +kernel

/-- The carry tests stay in the width. -/
theorem update_shifts (u : FlagUpdate) : ∀ x ∈ u.statement.shifts, staysInWidth x = true := by
  cases u with
  | fixed F v => cases F <;> cases v <;> decide
  | zero F => cases F <;> decide
  | carry F w => cases F <;> cases w <;> decide

/-- So does what a routine of the catalog shifts, but for the literal of a single bit. -/
theorem routine_shifts {d : Descriptor} (h : d.family ∈ catalog) :
    ∃ xs, d.routine.shifts? = some xs ∧ ∀ x ∈ xs,
      staysInWidth x = true ∨ x.2 = .get .literal ∧ d.family.name ∈ bitIndexNames := by
  obtain ⟨xs, hxs, hstay⟩ := catalog_shifts d.family h
  refine ⟨_, congrArg (Option.map _) hxs, fun x hx => ?_⟩
  rcases List.mem_append.mp hx with hx | hx
  · exact hstay x hx
  · obtain ⟨u, _, hx⟩ := List.mem_flatMap.mp hx
    exact .inl (update_shifts u x hx)

/-! ## 4. All branches -/

/-- The branch of an opcode passes a number for each literal operand, in order, and the number
    writes the byte that the fixtures get for that operand. An opcode of a single bit has one
    literal, below 8; and its routine shifts by nothing else that is not below the width. -/
structure Descriptor.Passes (d : Descriptor) (m : Member) : Prop where
  written : List.Forall₂ WrittenAs (literalsOf m.operands) (d.branch m).numerals
  bitIndex : d.family.name ∈ bitIndexNames → ∃ v t, v < 8 ∧ literalAt m.operands 0 = some v ∧
    (d.branch m).numerals = [t] ∧ Text.WritesByte v t.toList
  shifts : ∃ xs, d.routine.shifts? = some xs ∧ ∀ x ∈ xs,
    staysInWidth x = true ∨ x.2 = .get .literal ∧ d.family.name ∈ bitIndexNames

/-- **An opcode whose tests are there gets its literals**, if its family is of the catalog. -/
theorem branch_passes {rs : List Record} {d : Descriptor} {m : Member} {b : TestBlock}
    (hcatalog : d.family ∈ catalog) (hd : d.Merged d.family rs) (hm : m ∈ d.members)
    (hb : (d.testBlock m).result = .ok b) : d.Passes m := by
  constructor
  · exact numerals_written hd hm
  · intro hname
    obtain ⟨v, hv, hlt⟩ := catalog_bitIndex d.family hcatalog hname _ (testBlock_runs hb).1
    obtain ⟨o, ho, hvalue⟩ := literalsOf_eq hd hm hv
    have hwritten := numerals_written hd hm
    rw [ho] at hwritten
    obtain ⟨t, _, ⟨w, hw, ht⟩, hnil, hnumerals⟩ := List.forall₂_cons_left_iff.mp hwritten
    cases List.forall₂_nil_left_iff.mp hnil
    cases hvalue.symm.trans hw
    exact ⟨v, t, hlt, hv, hnumerals, ht⟩
  · exact routine_shifts hcatalog

/-- **What is generated from the catalog shifts by what its types can take, and its decoder and its
    tests agree on the literals**, whatever the table says: every branch is that of a selected
    opcode of a family, its routine and its tests are there, and it passes the bytes that the
    fixtures get. -/
theorem generate_literals {text : String} {s : Selection} {a : Artifacts}
    (h : (generate text catalog s).result = .ok a) :
    ∃ (t : Table) (g : Generated), (Table.ofText text).result = .ok t ∧
      (assemble text catalog s).result = .ok g ∧ a = g.artifacts ∧
      ∀ b ∈ g.branches, ∃ f ∈ catalog, ∃ rs d m, (Descriptor.merge f rs).result = .ok d ∧
        m ∈ d.members ∧ s.selects m.key = true ∧ t.find? m.key = some m.record ∧
        b = d.branch m ∧ d.routine ∈ g.routines ∧
        (∃ tests ∈ g.tests, (d.testBlock m).result = .ok tests) ∧
        d.family = f ∧ d.Passes m := by
  obtain ⟨g, hg, rfl⟩ := generate_eq_ok.mp h
  obtain ⟨c, ds, hp, _, hready, rfl⟩ := assemble_eq_ok.mp hg
  obtain ⟨t, ht, _, _, hplaced⟩ := hp.placed
  refine ⟨t, _, ht, hg, rfl, fun b hb => ?_⟩
  obtain ⟨d, hd, m, hm, hselected, rfl⟩ := mem_branches.mp hb
  obtain ⟨f, hf, rs, hmerge⟩ := mem_descriptorsFrom hp.merged hd
  obtain ⟨tests, htests⟩ := (hready d hd).tests m hm hselected
  have hmerged := merge_eq_ok hmerge
  have hfamily := hmerged.family
  have hroutine := mem_routines.mpr ⟨d, hd, ⟨m, hm, hselected⟩, rfl⟩
  have hblock := mem_tests.mpr ⟨d, hd, m, hm, hselected, block_eq htests⟩
  refine ⟨f, hf, rs, d, m, hmerge, hm, hselected, hplaced.assembly.recorded d hd m hm, rfl,
    hroutine, ⟨tests, hblock, htests⟩, hfamily, ?_⟩
  rw [← hfamily] at hf hmerged
  exact branch_passes hf hmerged hm htests

/-- The test of a bit and a restart. -/
def literalOpcodes : List OpcodeKey := [.paged 0x7C, .plain 0xEF]

/-- The numbers of their branches. -/
theorem literal_numerals : (firstRows.generated? secondRows literalOpcodes).map
    (fun g => g.branches.map Branch.numerals) = some [["7"], ["0x28"]] := by decide +kernel

/-- The decoder gets 7 for `BIT 7, H` and 0x28 for `RST $28`. -/
theorem generate_literals_instructionSet :
    ∃ a, ∃ g : Generated,
      (generate instructionSet.text catalog (.ofKeys literalOpcodes)).result = .ok a ∧
      a = g.artifacts ∧ g.branches.map Branch.numerals = [["7"], ["0x28"]] ∧
      ∀ b ∈ g.branches, ∃ d m, b = Descriptor.branch d m ∧ d.Passes m := by
  obtain ⟨g, hg, hnumerals⟩ := Option.map_eq_some_iff.mp literal_numerals
  obtain ⟨hassemble, hgenerate⟩ := OrderedRows.generated?_eq_some (by decide) hg
  rw [← instructionSet_rows] at hassemble hgenerate
  obtain ⟨_, g', _, hg', _, hbranches⟩ := generate_literals hgenerate
  cases hassemble.symm.trans hg'
  refine ⟨_, g, hgenerate, rfl, hnumerals, fun b hb => ?_⟩
  obtain ⟨_, _, _, d, m, _, _, _, _, hbranch, _, _, _, hpasses⟩ := hbranches b hb
  exact ⟨d, m, hbranch, hpasses⟩

end Sm83Codegen
