import Sm83Codegen.Proofs.CallingConvention
import Sm83Codegen.Proofs.Encodings
import Sm83Codegen.Proofs.Fixtures
import Sm83Codegen.Proofs.RowGeneration

/-!
# Bindings of fragments

A fragment is a fixed text, while the parameters of its routine follow from the table: from the
flags that the records of the family write, and from the operands that they mark as addresses. So
the bindings that a fragment uses are there as far as the table describes the opcodes as the author
of the fragment saw them. Only the register file needs no help from the table.

* `mem_parameters` -- the parameters of a descriptor that are no operands;
* `exists_memoryView`, `mem_memoryView_true` -- when memory is among them, and when it is lent to be
  written;
* `mem_flagBorrow`, `mem_flagValue` -- when a flag is, and how;
* `carry_eq_unaffected` -- a flag that fixtures demand to be left alone;
* `Family.Bound` -- which bindings a routine has, by a record of its family;
* `generate_bindings` -- every routine of the catalog has them, whatever the table;
* `misdescribed` -- a table from which some are missing.
-/

namespace Sm83Codegen

open Logged (bind_eq_ok check_bind_eq_ok)

/-! ## 1. Parameters of a descriptor -/

section Parameters

variable {d : Descriptor}

theorem mem_memoryParameters {a : MemoryAccess} {p : Parameter} :
    p ∈ memoryParameters a ↔ ∃ b, p = ⟨.memory, .memoryView b⟩ ∧
      a = if b then .write else .read := by
  cases a with
  | none =>
    refine ⟨fun h => absurd h List.not_mem_nil, ?_⟩
    rintro ⟨b, _, h⟩
    cases b <;> cases h
  | read =>
    refine ⟨fun h => ⟨false, List.mem_singleton.mp h, rfl⟩, ?_⟩
    rintro ⟨b, rfl, h⟩
    cases b with
    | false => exact List.mem_singleton.mpr rfl
    | true => cases h
  | write =>
    refine ⟨fun h => ⟨true, List.mem_singleton.mp h, rfl⟩, ?_⟩
    rintro ⟨b, rfl, h⟩
    cases b with
    | false => cases h
    | true => exact List.mem_singleton.mpr rfl

/-- A parameter that is no operand is the program counter, the register file, memory or a flag. -/
theorem mem_parameters {p : Parameter} (hp : p.binding.isOperand = false) :
    p ∈ d.parameters ↔ p = ⟨.pc, .pcBorrow⟩ ∨
      (d.usesRegisters = true ∧ p = ⟨.registers, .registersBorrow⟩) ∨
      p ∈ memoryParameters d.memoryAccess ∨ p ∈ d.flagUses.map flagParameter := by
  have hoperands : p ∉ d.operandParameters := fun h => by
    rw [isOperand_of_mem_from h] at hp
    cases hp
  unfold Descriptor.parameters
  rw [List.mem_cons, List.mem_append, List.mem_append, List.mem_append]
  split
  · next hr => simp [hoperands, hr, or_assoc]
  · next hr => simp [hoperands, hr]

theorem mem_parameters_memory {b : Bool} :
    ⟨.memory, .memoryView b⟩ ∈ d.parameters ↔ d.memoryAccess = if b then .write else .read := by
  rw [mem_parameters rfl, mem_memoryParameters]
  constructor
  · rintro (h | ⟨_, h⟩ | ⟨c, h, hc⟩ | h)
    · cases h
    · cases h
    · cases h
      exact hc
    · obtain ⟨u, _, hu⟩ := List.mem_map.mp h
      cases u <;> cases hu
  · exact fun h => .inr (.inr (.inl ⟨b, rfl, h⟩))

theorem mem_parameters_registers :
    ⟨.registers, .registersBorrow⟩ ∈ d.parameters ↔ d.usesRegisters = true := by
  rw [mem_parameters rfl, mem_memoryParameters]
  constructor
  · rintro (h | ⟨h, _⟩ | ⟨_, h, _⟩ | h)
    · cases h
    · exact h
    · cases h
    · obtain ⟨u, _, hu⟩ := List.mem_map.mp h
      cases u <;> cases hu
  · exact fun h => .inr (.inl ⟨h, rfl⟩)

theorem flagParameter_injective : Function.Injective flagParameter := by
  intro u v h
  cases u <;> cases v <;> cases h <;> rfl

theorem mem_parameters_flag {u : Descriptor.FlagUse} :
    flagParameter u ∈ d.parameters ↔ u ∈ d.flagUses := by
  have hu : (flagParameter u).binding.isOperand = false := by cases u <;> rfl
  rw [mem_parameters hu, mem_memoryParameters, List.mem_map_of_injective flagParameter_injective]
  constructor
  · rintro (h | ⟨_, h⟩ | ⟨_, h, _⟩ | h)
    · cases u <;> cases h
    · cases u <;> cases h
    · cases u <;> cases h
    · exact h
  · exact fun h => .inr (.inr (.inr h))

end Parameters

/-! ## 2. Access to memory -/

theorem join_eq_none {a b : MemoryAccess} : a.join b = .none ↔ a = .none ∧ b = .none := by
  cases a <;> cases b <;> decide

theorem join_eq_write {a b : MemoryAccess} : a.join b = .write ↔ a = .write ∨ b = .write := by
  cases a <;> cases b <;> decide

/-- Which operands of a record are addresses, after the adjustment of the family. -/
def Family.addresses (f : Family) (x : Record) : List Bool :=
  (f.adjustment.apply x.operands).map (fun e => !e.immediate)

section Merged

variable {f : Family} {rs : List Record} {d : Descriptor} {m : Member}

theorem shapes_indirect (h : d.Merged f rs) (hm : m ∈ d.members) :
    d.shapes.map (fun s => s.indirect) = f.addresses m.record := by
  rw [h.shapes m hm, List.map_map]
  exact ofRecord_indirect (h.members m hm)

theorem operandAccess_eq_none : d.operandAccess = .none ↔
    true ∉ d.shapes.map (fun s => s.indirect) := by
  unfold Descriptor.operandAccess
  split
  · next h => simp [h]
  · next first rest h =>
    rw [h]
    cases hf : first.indirect <;> cases hr : rest.any (fun s => s.indirect) <;> simp_all

theorem operandAccess_eq_write : d.operandAccess = .write ↔
    (d.shapes.map (fun s => s.indirect)).head? = some true := by
  unfold Descriptor.operandAccess
  split
  · next h => simp [h]
  · next first rest h =>
    rw [h]
    cases hf : first.indirect <;> cases hr : rest.any (fun s => s.indirect) <;> simp_all

/-- A routine sees memory if its family asks for it or an operand is an address. -/
theorem exists_memoryView (h : d.Merged f rs) (hm : m ∈ d.members) :
    (∃ b, ⟨.memory, .memoryView b⟩ ∈ d.parameters) ↔
      f.implicit.memory ≠ .none ∨ true ∈ f.addresses m.record := by
  have hview : (∃ b, ⟨.memory, .memoryView b⟩ ∈ d.parameters) ↔ d.memoryAccess ≠ .none := by
    simp only [mem_parameters_memory]
    cases d.memoryAccess <;> decide
  rw [hview, Descriptor.memoryAccess, Ne, join_eq_none, operandAccess_eq_none, h.family,
    shapes_indirect h hm]
  tauto

/-- A routine can write memory if its family asks for it or its first operand is an address. -/
theorem mem_memoryView_true (h : d.Merged f rs) (hm : m ∈ d.members) :
    ⟨.memory, .memoryView true⟩ ∈ d.parameters ↔
      f.implicit.memory = .write ∨ (f.addresses m.record).head? = some true := by
  rw [mem_parameters_memory, if_pos rfl, Descriptor.memoryAccess, join_eq_write,
    operandAccess_eq_write, h.family, shapes_indirect h hm]
  exact or_comm

/-! ## 3. Flags -/

/-- Carry widths leave no computed flag alone. -/
theorem withWidths_eq_unaffected {ws : List (Flag × CarryWidth)} {e : FlagEffects} {g : Flag} :
    (Descriptor.withWidths ws e).get g = .unaffected ↔ e.get g = .unaffected := by
  unfold Descriptor.withWidths
  induction ws generalizing e with
  | nil => exact Iff.rfl
  | cons w ws ih =>
    rw [List.foldl_cons, ih]
    split
    · next hw =>
      by_cases hg : g = w.1
      · rw [hg, FlagEffects.get_set_self, hw]
        simp
      · rw [FlagEffects.get_set_of_ne _ _ hg]
    · exact Iff.rfl

theorem flags_eq_unaffected (h : d.Merged f rs) (hm : m ∈ d.members) {g : Flag} :
    d.flags.get g = .unaffected ↔ m.record.flags.get g = .unaffected := by
  rw [h.flags m hm]
  exact withWidths_eq_unaffected

/-- A routine borrows the flags that the table does not leave alone. -/
theorem mem_flagBorrow (h : d.Merged f rs) (hm : m ∈ d.members) {g : Flag} :
    ⟨.flag g, .flagBorrow⟩ ∈ d.parameters ↔ m.record.flags.get g ≠ .unaffected := by
  rw [show ⟨.flag g, .flagBorrow⟩ = flagParameter (.borrowed g) from rfl, mem_parameters_flag,
    mem_flagUses_borrowed, Ne, flags_eq_unaffected h hm]

/-- A routine gets the value of a flag that its family reads and the table leaves alone. -/
theorem mem_flagValue (h : d.Merged f rs) (hm : m ∈ d.members) {g : Flag} :
    ⟨.flag g, .truth⟩ ∈ d.parameters ↔
      m.record.flags.get g = .unaffected ∧ g ∈ f.implicit.readsFlags := by
  rw [show ⟨.flag g, .truth⟩ = flagParameter (.byValue g) from rfl, mem_parameters_flag,
    mem_flagUses_byValue, flags_eq_unaffected h hm, h.family, List.contains_iff_mem]

end Merged

/-! ## 4. Flags that have to be left alone -/

/-- A flag without a declared width keeps what the table says of it. -/
theorem withWidths_get_of_ne {ws : List (Flag × CarryWidth)} {e : FlagEffects} {g : Flag}
    (h : ∀ w ∈ ws, w.1 ≠ g) : (Descriptor.withWidths ws e).get g = e.get g := by
  unfold Descriptor.withWidths
  induction ws generalizing e with
  | nil => rfl
  | cons w ws ih =>
    obtain ⟨hw, hws⟩ := List.forall_mem_cons.mp h
    rw [List.foldl_cons, ih hws]
    split
    · exact FlagEffects.get_set_of_ne _ _ hw.symm
    · rfl

theorem checkAllComputed_eq_ok {d : Descriptor} {gs : List Flag} :
    d.checkAllComputed gs = .ok () ↔ ∀ g ∈ gs, d.checkComputed g = .ok () := by
  induction gs with
  | nil => exact iff_of_true rfl fun g hg => absurd hg List.not_mem_nil
  | cons g gs ih =>
    unfold Descriptor.checkAllComputed
    rw [check_bind_eq_ok, List.forall_mem_cons, ih]

/-- A carry that the routine has no means to compute is not computed. -/
theorem carry_ne_computed {d : Descriptor} (h : d.checkFlags = .ok ())
    (hmanaged : d.family.isSelfManaged .C = false) : d.flags.get .C ≠ .computed none := by
  intro hcomputed
  unfold Descriptor.checkFlags at h
  have hcheck := checkAllComputed_eq_ok.mp (check_bind_eq_ok.mp h).2 .C
    (FlagEffects.mem_computed.mpr (by rw [hcomputed]; rfl))
  unfold Descriptor.checkComputed at hcheck
  rw [hmanaged, hcomputed] at hcheck
  cases hcheck

/-- Fixtures expect a flag set in one scenario and unset in another. -/
def Fixtures.ExpectsBoth (g : Flag) (fx : Fixtures) : Prop :=
  ∀ v, ∃ c ∈ fx.cases, c.2.skip = false ∧ c.2.expectedOf g = some v

theorem not_mem_fixed_of_expectsBoth {d : Descriptor} {m : Member} {b : TestBlock}
    (hb : (d.testBlock m).result = .ok b) {g : Flag}
    (h : (d.family.fixtures m.operands).ExpectsBoth g) (v : Bool) : (g, v) ∉ d.flags.fixed := by
  intro hfixed
  obtain ⟨⟨k, s⟩, hs, hskip, hexpected⟩ := h !v
  obtain ⟨c, _, hc⟩ := (testBlock_runs hb).2 k s hs hskip
  have hv := testCase_expected hc hfixed hexpected
  cases v <;> cases hv

/-- **A carry that a family neither manages nor can compute, and that its fixtures expect both set
    and unset, is left alone by the table.** -/
theorem carry_eq_unaffected {f : Family} {rs : List Record} {d : Descriptor} {m m' : Member}
    (hd : d.Merged f rs) (hflags : d.checkFlags = .ok ()) {b : TestBlock}
    (hb : (d.testBlock m').result = .ok b) (hmanaged : f.isSelfManaged .C = false)
    (hwidths : ∀ w ∈ f.carryWidths, w.1 ≠ .C) (hboth : ∀ os, (f.fixtures os).ExpectsBoth .C)
    (hm : m ∈ d.members) (hrecord : ∀ w, m.record.flags.get .C ≠ .computed (some w)) :
    m.record.flags.get .C = .unaffected := by
  have hget : d.flags.get .C = m.record.flags.get .C := by
    rw [hd.flags m hm, withWidths_get_of_ne hwidths]
  have hfixed : ∀ v, (d.flags.get .C).fixedValue ≠ some v := fun v hv =>
    not_mem_fixed_of_expectsBoth hb (hd.family ▸ hboth m'.operands) v
      (List.mem_filterMap.mpr ⟨.C, Flag.mem_all _, by rw [hv]; rfl⟩)
  have hcomputed := carry_ne_computed hflags (hd.family ▸ hmanaged)
  rw [hget] at hfixed hcomputed
  cases hc : m.record.flags.get .C with
  | unaffected => rfl
  | fixedFalse => exact absurd (congrArg FlagEffect.fixedValue hc) (hfixed false)
  | fixedTrue => exact absurd (congrArg FlagEffect.fixedValue hc) (hfixed true)
  | computed w =>
    cases w with
    | none => exact absurd hc hcomputed
    | some w => exact absurd hc (hrecord w)

open Catalog in
/-- `SBC A, A` reads the carry, and cannot be generated if the table does not leave it alone. -/
theorem catalog_borrowItself : ∀ f ∈ catalog, f.name = "SBC A, A" →
    .C ∈ f.implicit.readsFlags ∧ f.isSelfManaged .C = false ∧ (∀ w ∈ f.carryWidths, w.1 ≠ .C) ∧
      ∀ os, (f.fixtures os).ExpectsBoth .C := by
  have hothers : ∀ f ∈ loadFamilies ++ arithmeticFamilies.take 13 ++ arithmeticFamilies.drop 14 ++
      bitFamilies ++ controlFamilies, f.name ≠ "SBC A, A" := by decide +kernel
  have hsplit : arithmeticFamilies = arithmeticFamilies.take 13 ++
      ((family "SBC A, A" [0x9F] borrowItself borrowItselfCases).readsFlags [.C]).carry .H .bit4 ::
        arithmeticFamilies.drop 14 := rfl
  have hboth : ∀ os, (borrowItselfCases os).ExpectsBoth .C := by
    intro os v
    cases v with
    | true => exact ⟨_, List.mem_cons_self, rfl, rfl⟩
    | false => exact ⟨_, List.mem_cons_of_mem _ List.mem_cons_self, rfl, rfl⟩
  intro f hf hname
  unfold catalog at hf
  rw [hsplit] at hf
  simp only [List.mem_append, List.mem_cons] at hf hothers
  rcases hf with ((hf | hf | rfl | hf) | hf) | hf
  · exact absurd hname (hothers f (by tauto))
  · exact absurd hname (hothers f (by tauto))
  · exact ⟨List.mem_singleton.mpr rfl, rfl, by decide, hboth⟩
  · exact absurd hname (hothers f (by tauto))
  · exact absurd hname (hothers f (by tauto))
  · exact absurd hname (hothers f (by tauto))

/-! ## 5. The bindings of a family -/

/-- Whether a place is a byte of memory. -/
def Place.isMemory : Place → Bool
  | byteAt _ => true
  | _ => false

/-- Whether a statement assigns to a byte of memory. -/
def Statement.stores : Statement → Bool
  | assign p _ | update _ p _ => p.isMemory
  | _ => false

/-- Whether a program assigns to a byte of memory. -/
def Program.stores : Program → Bool
  | done => false
  | blank rest => rest.stores
  | step s rest => s.stores || rest.stores
  | choose _ yes no rest => yes.stores || no.stores || rest.stores

/-- Whether a fragment assigns to a byte of memory. -/
def Fragment.stores : Fragment → Bool
  | program _ p => p.stores
  | verbatim _ => false

/-- The bindings that the fragment of a family uses, among the parameters of a routine, by a record
    of the family. Which flags and which views of memory are there depends on the record. -/
structure Family.Bound (f : Family) (x : Record) (ps : List Parameter) : Prop where
  /-- A managed flag is borrowed unless the table leaves it alone. -/
  managed : ∀ g ∈ f.selfManaged,
    ⟨.flag g, .flagBorrow⟩ ∈ ps ↔ x.flags.get g ≠ .unaffected
  /-- A flag that is read comes by value if the table leaves it alone. -/
  readValue : ∀ g ∈ f.implicit.readsFlags,
    ⟨.flag g, .truth⟩ ∈ ps ↔ x.flags.get g = .unaffected
  /-- A flag that is read is borrowed if the table does not leave it alone. -/
  readBorrow : ∀ g ∈ f.implicit.readsFlags,
    ⟨.flag g, .flagBorrow⟩ ∈ ps ↔ x.flags.get g ≠ .unaffected
  /-- Of `SBC A, A` the table leaves the carry alone. -/
  carry : f.name = "SBC A, A" → ⟨.flag .C, .truth⟩ ∈ ps
  /-- Memory is there if the family asks for it or an operand is an address. -/
  memory : f.fragment.Mentions "memory[" → ((∃ mutable, ⟨.memory, .memoryView mutable⟩ ∈ ps) ↔
    f.implicit.memory ≠ .none ∨ true ∈ f.addresses x)
  /-- It can be written if the family asks for that or the first operand is an address. -/
  stores : f.fragment.stores = true → (⟨.memory, .memoryView true⟩ ∈ ps ↔
    f.implicit.memory = .write ∨ (f.addresses x).head? = some true)
  registers : f.fragment.Mentions "registers" → ⟨.registers, .registersBorrow⟩ ∈ ps

/-- A family of the catalog that uses the register file gets it, once an opcode of it has tests. -/
theorem usesRegisters_of_mentions {f : Family} {rs : List Record} {d : Descriptor} {m : Member}
    {b : TestBlock} (hd : d.Merged f rs) (hf : f ∈ catalog) (hm : m ∈ d.members)
    (hb : (d.testBlock m).result = .ok b) (h : f.fragment.Mentions "registers") :
    d.usesRegisters = true := by
  rcases catalog_registers f hf with himplicit | hnone | ⟨hplain, hnames⟩
  · unfold Descriptor.usesRegisters
    rw [hd.family, himplicit, Bool.true_or]
  · exact absurd h hnone
  · obtain ⟨hfixtures, _⟩ := testBlock_runs hb
    rw [hd.family] at hfixtures
    rcases hnames m.operands hfixtures with huse | huse
    · exact usesRegisters_of_use hd hm hplain hb fun _ => huse
    · exact usesRegisters_of_use hd hm hplain hb fun _ => huse

/-- **A merged family of the catalog has its bindings**, if its flags can be computed and an opcode
    of it has tests. The flags and the memory are bound as the parameter list says, of any family;
    that the family is of the catalog and can be generated is what the carry that `SBC A, A` reads
    and the register file rest on. -/
theorem merged_bound {f : Family} {rs : List Record} {d : Descriptor} {m m' : Member}
    {b : TestBlock} (hd : d.Merged f rs) (hf : f ∈ catalog) (hflags : d.checkFlags = .ok ())
    (hm' : m' ∈ d.members) (hb : (d.testBlock m').result = .ok b) (hm : m ∈ d.members)
    (hrecord : ∀ w, m.record.flags.get .C ≠ .computed (some w)) :
    f.Bound m.record d.parameters where
  managed _ _ := mem_flagBorrow hd hm
  readValue _ hg := (mem_flagValue hd hm).trans (and_iff_left hg)
  readBorrow _ _ := mem_flagBorrow hd hm
  carry hname := by
    obtain ⟨hreads, hmanaged, hwidths, hboth⟩ := catalog_borrowItself f hf hname
    refine (mem_flagValue hd hm).mpr ⟨?_, hreads⟩
    exact carry_eq_unaffected hd hflags hb hmanaged hwidths hboth hm hrecord
  memory _ := exists_memoryView hd hm
  stores _ := mem_memoryView_true hd hm
  registers h := mem_parameters_registers.mpr (usesRegisters_of_mentions hd hf hm' hb h)

/-! ## 6. The routines of the catalog -/

section Routines

variable {t : Table} {ds : List Descriptor} {s : Selection} {d : Descriptor} {k : OpcodeKey}

/-- The descriptor of a routine's name has all opcodes of the family of that name. -/
theorem exists_member_of_routineName (h : Assembly t catalog ds)
    (hnames : (ds.map Descriptor.routineName).Nodup) (hd : d ∈ ds) {f : Family} (hf : f ∈ catalog)
    (hname : d.routineName = f.routineName) (hk : k ∈ f.keys) :
    d.family = f ∧ ∃ m ∈ d.members, m.key = k := by
  obtain ⟨e, he, hfamily, hm⟩ := h.complete f hf k hk
  have hde : d = e := by
    refine List.inj_on_of_nodup_map hnames hd he ?_
    rw [hname, ← hfamily]
    rfl
  rw [hde]
  exact ⟨hfamily, hm⟩

end Routines

/-- **The bindings of every routine that the catalog gives**, whatever the table: the register file
    if the fragment uses it, each flag and the memory it uses as the table has them, and of
    `SBC A, A` the carry by value. -/
theorem generate_bindings {text : String} {s : Selection} {a : Artifacts}
    (h : (generate text catalog s).result = .ok a) :
    ∃ t g, (Table.ofText text).result = .ok t ∧ (assemble text catalog s).result = .ok g ∧
      a = g.artifacts ∧ ∀ f ∈ catalog, f.keys.any s.selects = true →
        (∃ r ∈ g.routines, r.name = f.routineName) ∧
        ∀ r ∈ g.routines, r.name = f.routineName → r.fragment = f.fragment ∧
          ∀ k ∈ f.keys, ∃ x, t.find? k = some x ∧ f.Bound x r.parameters := by
  obtain ⟨g, hg, rfl⟩ := generate_eq_ok.mp h
  obtain ⟨c, ds, hp, _, hready, rfl⟩ := assemble_eq_ok.mp hg
  obtain ⟨t, ht, _, _, hplaced⟩ := hp.placed
  have hassembly := hplaced.assembly
  have hnames := hassembly.routineNames_nodup hp.checked
  obtain ⟨_, _, hdocument⟩ := Table.ofText_eq_ok.mp ht
  refine ⟨t, _, ht, hg, rfl, fun f hf hany => ⟨?_, fun r hr hname => ?_⟩⟩
  · obtain ⟨k, hk, hselected⟩ := List.any_eq_true.mp hany
    obtain ⟨d, hd, rfl, m, hm, rfl⟩ := hassembly.complete f hf k hk
    exact ⟨d.routine, mem_routines.mpr ⟨d, hd, ⟨m, hm, hselected⟩, rfl⟩, rfl⟩
  · obtain ⟨d, hd, ⟨m', hm', hselected⟩, rfl⟩ := mem_routines.mp hr
    obtain ⟨b, hb⟩ := (hready d hd).tests m' hm' hselected
    obtain ⟨_, hmerged⟩ := hassembly.merged d hd
    have hmember : ∀ k ∈ f.keys, d.family = f ∧ ∃ m ∈ d.members, m.key = k := fun _ hk =>
      exists_member_of_routineName hassembly hnames hd hf hname hk
    have hfamily : d.family = f := by
      obtain ⟨k, hk, _⟩ := List.any_eq_true.mp hany
      exact (hmember k hk).1
    refine ⟨congrArg Family.fragment hfamily, fun k hk => ?_⟩
    obtain ⟨_, m, hm, rfl⟩ := hmember k hk
    have hfind := hassembly.recorded d hd m hm
    refine ⟨m.record, hfind, ?_⟩
    rw [hfamily] at hmerged
    refine merged_bound hmerged hf (hready d hd).flags hm' hb hm fun w => ?_
    exact Table.ofDocument_width hdocument (List.mem_of_find?_eq_some hfind) .C w

/-! ## 7. A table that describes opcodes differently -/

open InstructionSet in
/-- The opcodes of the SM83, but for four rows: `RLCA` leaves the carry alone, `DAA` fixes the
    subtraction flag, and the absolute address of the accumulator's load and store is no address; of
    the store, the accumulator is one. -/
def misdescribed : TableDocument :=
  let rows :=
    [row 0x07 "RLCA" 1 [4] [] ⟨"0", "0", "0", "-"⟩,
     row 0x27 "DAA" 1 [4] [] ⟨"Z", "0", "0", "C"⟩,
     row 0xEA "LD" 3 [16] [direct "a16", address "A"] ⟨"-", "-", "-", "-"⟩,
     row 0xFA "LD" 3 [16] [direct "A", direct "a16"] ⟨"-", "-", "-", "-"⟩]
  ⟨rows.foldl (fun p e => Partition.put e.1 e.2 p) firstPage, secondPageRows⟩

/-- The opcodes of these rows. -/
def misdescribedOpcodes : Selection :=
  .ofKeys [.plain 0x07, .plain 0x27, .plain 0xEA, .plain 0xFA]

/-- The routines of these opcodes, with their parameters. -/
def misdescribedParameters : List (String × List Parameter) :=
  [("execute_ld_a_inn",
     [⟨.pc, .pcBorrow⟩, ⟨.registers, .registersBorrow⟩, ⟨.dstRegister, .reg8⟩,
      ⟨.immediate, .word⟩]),
   ("execute_ld_inn_a",
     [⟨.pc, .pcBorrow⟩, ⟨.registers, .registersBorrow⟩, ⟨.memory, .memoryView false⟩,
      ⟨.immediate, .word⟩, ⟨.srcRegister, .reg8⟩]),
   ("execute_rlca",
     [⟨.pc, .pcBorrow⟩, ⟨.registers, .registersBorrow⟩, ⟨.flag .Z, .flagBorrow⟩,
      ⟨.flag .N, .flagBorrow⟩, ⟨.flag .H, .flagBorrow⟩]),
   ("execute_daa",
     [⟨.pc, .pcBorrow⟩, ⟨.registers, .registersBorrow⟩, ⟨.flag .Z, .flagBorrow⟩,
      ⟨.flag .N, .flagBorrow⟩, ⟨.flag .H, .flagBorrow⟩, ⟨.flag .C, .flagBorrow⟩])]

open InstructionSet in
/-- The four rows. -/
def misdescribedEntries : Rows :=
  [(0x07, ⟨"RLCA", 1, [4], [], ⟨"0", "0", "0", "-"⟩⟩),
    (0x27, ⟨"DAA", 1, [4], [], ⟨"Z", "0", "0", "C"⟩⟩),
    (0xEA, ⟨"LD", 3, [16], [direct "a16", address "A"], ⟨"-", "-", "-", "-"⟩⟩),
    (0xFA, ⟨"LD", 3, [16], [direct "A", direct "a16"], ⟨"-", "-", "-", "-"⟩⟩)]

/-- The rows of the first page of that table. -/
def misdescribedRows : OrderedRows where
  rows := misdescribedEntries.foldl (fun rows e => Rows.put e.1 e.2 rows) firstRows.rows
  inOrder := by decide +kernel

theorem misdescribed_rows :
    misdescribed = ⟨misdescribedRows.rows.partition, secondRows.rows.partition⟩ := by
  have hplain : InstructionSet.firstPage = firstRows.rows.partition :=
    congrArg TableDocument.plain instructionSet_rows
  have hpaged : InstructionSet.secondPageRows = secondRows.rows.partition :=
    congrArg TableDocument.paged instructionSet_rows
  have hentries : misdescribed = ⟨misdescribedEntries.partition.foldl
      (fun p e => Partition.put e.1 e.2 p) InstructionSet.firstPage,
      InstructionSet.secondPageRows⟩ := rfl
  rw [hentries, hplain, hpaged, Rows.foldl_put_partition]
  rfl

theorem misdescribed_generates :
    (misdescribedRows.generated? secondRows
      [.plain 0x07, .plain 0x27, .plain 0xEA, .plain 0xFA]).map
        (fun g => g.routines.map (fun r => (r.name, r.parameters))) =
      some misdescribedParameters := by decide +kernel

/-- The routines are generated from the text of the table, with these parameters. -/
theorem exists_generated_misdescribed :
    ∃ a g, (generate misdescribed.text catalog misdescribedOpcodes).result = .ok a ∧
      (assemble misdescribed.text catalog misdescribedOpcodes).result = .ok g ∧ a = g.artifacts ∧
      g.routines.map (fun r => (r.name, r.parameters)) = misdescribedParameters := by
  obtain ⟨g, hg, hroutines⟩ := Option.map_eq_some_iff.mp misdescribed_generates
  obtain ⟨hassemble, hgenerate⟩ := OrderedRows.generated?_eq_some (by decide) hg
  rw [← misdescribed_rows] at hassemble hgenerate
  exact ⟨_, g, hgenerate, hassemble, rfl, hroutines⟩

/-- A family whose routine is known to have certain parameters. -/
theorem exists_routine_of_parameters {g : Generated} {l : List (String × List Parameter)}
    (hg : g.routines.map (fun r => (r.name, r.parameters)) = l) (P : Family → Prop)
    (Q : List Parameter → Prop)
    (h : ∃ f ∈ catalog, P f ∧ ∃ p ∈ l, p.1 = f.routineName ∧ Q p.2) :
    ∃ f ∈ catalog, P f ∧ ∃ r ∈ g.routines, r.name = f.routineName ∧ Q r.parameters := by
  obtain ⟨f, hf, hP, p, hp, hname, hQ⟩ := h
  rw [← hg] at hp
  obtain ⟨r, hr, rfl⟩ := List.mem_map.mp hp
  exact ⟨f, hf, hP, r, hr, hname, hQ⟩

/-- From that table `RLCA` is generated without the carry it manages, `DAA` without the value of the
    flag it reads, the load of the accumulator without memory and its store with a view of memory
    that cannot be written. -/
theorem misdescribed_unbound :
    ∃ a g, (generate misdescribed.text catalog misdescribedOpcodes).result = .ok a ∧
      (assemble misdescribed.text catalog misdescribedOpcodes).result = .ok g ∧
      a = g.artifacts ∧
      (∃ f ∈ catalog, .C ∈ f.selfManaged ∧ ∃ r ∈ g.routines, r.name = f.routineName ∧
        ⟨.flag .C, .flagBorrow⟩ ∉ r.parameters) ∧
      (∃ f ∈ catalog, .N ∈ f.implicit.readsFlags ∧ ∃ r ∈ g.routines, r.name = f.routineName ∧
        ⟨.flag .N, .truth⟩ ∉ r.parameters) ∧
      (∃ f ∈ catalog, f.fragment.Mentions "memory[" ∧ ∃ r ∈ g.routines, r.name = f.routineName ∧
        ∀ mutable, ⟨.memory, .memoryView mutable⟩ ∉ r.parameters) ∧
      ∃ f ∈ catalog, f.fragment.stores = true ∧ ∃ r ∈ g.routines, r.name = f.routineName ∧
        ⟨.memory, .memoryView true⟩ ∉ r.parameters := by
  obtain ⟨a, g, ha, hg, hag, hroutines⟩ := exists_generated_misdescribed
  refine ⟨a, g, ha, hg, hag, ?_, ?_, ?_, ?_⟩
  · exact exists_routine_of_parameters hroutines (fun f => .C ∈ f.selfManaged)
      (fun ps => ⟨.flag .C, .flagBorrow⟩ ∉ ps) (by decide +kernel)
  · exact exists_routine_of_parameters hroutines (fun f => .N ∈ f.implicit.readsFlags)
      (fun ps => ⟨.flag .N, .truth⟩ ∉ ps) (by decide +kernel)
  · exact exists_routine_of_parameters hroutines (fun f => f.fragment.Mentions "memory[")
      (fun ps => ∀ mutable, ⟨.memory, .memoryView mutable⟩ ∉ ps) (by decide +kernel)
  · exact exists_routine_of_parameters hroutines (fun f => f.fragment.stores = true)
      (fun ps => ⟨.memory, .memoryView true⟩ ∉ ps) (by decide +kernel)

/-- From that table `RLCA` has its carry only if the record of its opcode does not leave it
    alone. -/
theorem generate_bindings_misdescribed :
    ∃ a t, ∃ g : Generated, (generate misdescribed.text catalog misdescribedOpcodes).result = .ok a ∧
      (Table.ofText misdescribed.text).result = .ok t ∧ a = g.artifacts ∧
      ∃ r ∈ g.routines, r.name = "execute_rlca" ∧ ⟨.registers, .registersBorrow⟩ ∈ r.parameters ∧
        ∃ x, t.find? (.plain 0x07) = some x ∧
          (⟨.flag .C, .flagBorrow⟩ ∈ r.parameters ↔ x.flags.get .C ≠ .unaffected) := by
  have hfamily : ∃ f ∈ catalog, f.routineName = "execute_rlca" ∧
      f.keys.any misdescribedOpcodes.selects = true ∧ .plain 0x07 ∈ f.keys ∧
      .C ∈ f.selfManaged ∧ f.fragment.Mentions "registers" := by decide +kernel
  obtain ⟨a, _, ha, _⟩ := exists_generated_misdescribed
  obtain ⟨t, g, ht, _, hag, hbound⟩ := generate_bindings ha
  obtain ⟨f, hf, hname, hany, hk, hC, hregisters⟩ := hfamily
  obtain ⟨⟨r, hr, hrname⟩, hroutine⟩ := hbound f hf hany
  obtain ⟨_, hrecords⟩ := hroutine r hr hrname
  obtain ⟨x, hx, hbindings⟩ := hrecords _ hk
  exact ⟨a, t, g, ha, ht, hag, r, hr, hrname.trans hname, hbindings.registers hregisters, x, hx,
    hbindings.managed .C hC⟩

end Sm83Codegen
