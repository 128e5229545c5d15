import Sm83Codegen.Proofs.Refinement.Arithmetic
import Sm83Codegen.Proofs.Refinement.Bits
import Sm83Codegen.Proofs.Refinement.Control
import Sm83Codegen.Proofs.Rows

/-!
# Encodings

The core of the SM83 executes the instruction that the bits of an opcode name. The table, the
catalog and the bits are three sources; that they agree on every opcode is checked by evaluation,
once, and everything else follows for all states and all immediates.

* `Instruction.executes` -- every instruction executes as its meaning says;
* `Built` -- the table and the descriptors that the core is made from; `exists_built` -- they exist;
* `decodeExecute_member`, `decodeExecute_of_names` -- what the core does with the opcode of a
  member, and with one that names an instruction;
* `decodeExecute_iff_encoding` -- the core executes encodings, and nothing else.
-/

namespace Sm83Codegen

open Logged (bind_eq_ok)

/-! ## 1. Every instruction -/

/-- **Every instruction executes as its meaning says**, whatever the state of the machine and its
    immediate. -/
theorem Instruction.executes (i : Instruction) {tail : List UInt8}
    (h : tail.length = i.trailing) (s : Cpu) : i.Executes tail s := by
  have none (h : tail.length = 0) : tail = [] := List.length_eq_zero_iff.mp h
  have byte (h : tail.length = 1) : ∃ n, tail = [n] := List.length_eq_one_iff.mp h
  have word (h : tail.length = 2) : ∃ l u, tail = [l, u] := List.length_eq_two.mp h
  cases i with
  | nop => rw [none h]; exact nop_executes s
  | loadImmediate t => obtain ⟨n, rfl⟩ := byte h; exact loadImmediate_executes s t n
  | load d r => rw [none h]; exact load_executes s d r
  | loadFrom d p => rw [none h]; exact loadFrom_executes s d p
  | storeTo p r => rw [none h]; exact storeTo_executes s p r
  | loadAbsolute => obtain ⟨l, u, rfl⟩ := word h; exact loadAbsolute_executes s l u
  | storeAbsolute => obtain ⟨l, u, rfl⟩ := word h; exact storeAbsolute_executes s l u
  | loadHighImmediate => obtain ⟨n, rfl⟩ := byte h; exact loadHighImmediate_executes s n
  | storeHighImmediate => obtain ⟨n, rfl⟩ := byte h; exact storeHighImmediate_executes s n
  | loadHighRegister => rw [none h]; exact loadHighRegister_executes s
  | storeHighRegister => rw [none h]; exact storeHighRegister_executes s
  | storeStepping up => rw [none h]; exact storeStepping_executes s up
  | loadStepping up => rw [none h]; exact loadStepping_executes s up
  | loadWord p => obtain ⟨l, u, rfl⟩ := word h; exact loadWord_executes s p l u
  | loadStackPointer => rw [none h]; exact loadStackPointer_executes s
  | storeStackPointer => obtain ⟨l, u, rfl⟩ := word h; exact storeStackPointer_executes s l u
  | loadSum => obtain ⟨n, rfl⟩ := byte h; exact loadSum_executes s n
  | push p => rw [none h]; exact push_executes s p
  | pop p => rw [none h]; exact pop_executes s p
  | pushAccumulator => rw [none h]; exact pushAccumulator_executes s
  | popAccumulator => rw [none h]; exact popAccumulator_executes s
  | alu op t =>
    match t with
    | .cell (.register r) => rw [none h]; exact alu_executes_register s op r
    | .cell .pointed => rw [none h]; exact alu_executes_pointed s op
    | .immediate => obtain ⟨n, rfl⟩ := byte h; exact alu_executes_immediate s op n
  | stepByte up t => rw [none h]; exact stepByte_executes s up t
  | stepPair up p => rw [none h]; exact stepPair_executes s up p
  | addPairs p => rw [none h]; exact addPairs_executes s p
  | addSigned => obtain ⟨n, rfl⟩ := byte h; exact addSigned_executes s n
  | rotateAccumulator r => rw [none h]; exact rotateAccumulator_executes s r
  | decimalAdjust => rw [none h]; exact decimalAdjust_executes s
  | complement => rw [none h]; exact complement_executes s
  | setCarry => rw [none h]; exact setCarry_executes s
  | complementCarry => rw [none h]; exact complementCarry_executes s
  | shift op t =>
    rw [none h]
    cases t with
    | register r => exact shift_executes_register s op r
    | pointed => exact shift_executes_pointed s op
  | bit op n t => rw [none h]; exact bit_executes s op n t
  | jump c => obtain ⟨l, u, rfl⟩ := word h; exact jump_executes s c l u
  | jumpRegister => rw [none h]; exact jumpRegister_executes s
  | jumpRelative c => obtain ⟨n, rfl⟩ := byte h; exact jumpRelative_executes s c n
  | call c => obtain ⟨l, u, rfl⟩ := word h; exact call_executes s c l u
  | ret c => rw [none h]; exact ret_executes s c
  | restart n => rw [none h]; exact restart_executes s n

/-! ## 2. The core and its sources -/

/-- The mnemonics of the instructions that set the program counter. -/
def jumpMnemonics : List String := ["JP", "JR", "CALL", "RET", "RST"]

/-- An instruction is what a member of a descriptor stands for. -/
structure Instruction.Denotes (i : Instruction) (d : Descriptor) (m : Member) : Prop where
  operation : i.operation = d.operation m
  trailing : i.trailing = m.record.trailing
  jumps : i.jumps = jumpMnemonics.contains m.record.mnemonic

instance (i : Instruction) (d : Descriptor) (m : Member) : Decidable (i.Denotes d m) :=
  decidable_of_iff (i.operation = d.operation m ∧ i.trailing = m.record.trailing ∧
    i.jumps = jumpMnemonics.contains m.record.mnemonic)
    ⟨fun ⟨h₁, h₂, h₃⟩ => ⟨h₁, h₂, h₃⟩, fun ⟨h₁, h₂, h₃⟩ => ⟨h₁, h₂, h₃⟩⟩

/-- Whether the key of every member names the instruction that the member stands for. -/
def denoted (ds : List Descriptor) : Bool :=
  ds.all fun d => d.members.all fun m =>
    match Instruction.ofKey m.key with
    | some i => decide (i.Denotes d m)
    | none => false

/-- The entries of a page without the opcodes that have none, by rows. -/
def pageRows (gaps : List Nat) (p : Partition) : Rows :=
  (((List.range 256).filter fun n => !gaps.contains n).map UInt8.ofNat).zip (p.map Prod.snd)

/-- The rows of the first page. -/
def firstRows : OrderedRows where
  rows :=
    pageRows [0xCB, 0xD3, 0xDB, 0xDD, 0xE3, 0xE4, 0xEB, 0xEC, 0xED, 0xF3, 0xF4, 0xFB, 0xFC, 0xFD]
      InstructionSet.firstPage
  inOrder := by decide +kernel

/-- The rows of the second page. -/
def secondRows : OrderedRows where
  rows := pageRows [] InstructionSet.secondPageRows
  inOrder := by decide +kernel

set_option maxRecDepth 20000 in
/-- The instruction set is written by rows. -/
theorem instructionSet_rows :
    instructionSet = ⟨firstRows.rows.partition, secondRows.rows.partition⟩ :=
  congrArg₂ TableDocument.mk (Rows.eq_partition (by apply Eq.refl))
    (Rows.eq_partition (by apply Eq.refl))

set_option maxRecDepth 10000 in
theorem ascending_catalog : ∀ f ∈ catalog, Ascending f.keys := by
  show ∀ f ∈ catalog, f.keys.Pairwise (fun k l => k.rank < l.rank)
  decide

/-- No opcode is claimed twice. -/
theorem catalog_keys_nodup : (catalog.flatMap Family.keys).Nodup := keys_nodup (by decide +kernel)

/-- The table, the catalog and the bits of the opcodes agree. -/
theorem denoted_catalog : (match firstRows.descriptors? secondRows catalog with
    | some ds => denoted ds
    | none => false) = true := by decide +kernel

set_option maxRecDepth 10000 in
theorem proper_catalog : ∀ f ∈ catalog, ∀ k ∈ f.keys, k.Proper := by decide

theorem checked_catalog : checkCatalog catalog = .ok () := by
  have h : (match checkCatalog catalog with
    | .ok _ => true
    | .error _ => false) = true := by decide +kernel
  cases hc : checkCatalog catalog with
  | ok _ => rfl
  | error _ =>
    rw [hc] at h
    cases h

/-- A set of numbers, as the bits of one. -/
def bitSet (ns : List Nat) : Nat := ns.foldr (fun n bits => bits ||| 2 ^ n) 0

theorem testBit_bitSet (ns : List Nat) (k : Nat) : (bitSet ns).testBit k = true ↔ k ∈ ns := by
  induction ns with
  | nil => simp [bitSet]
  | cons n ns ih =>
    show ((bitSet ns ||| 2 ^ n).testBit k) = true ↔ _
    rw [Nat.testBit_or, Bool.or_eq_true, ih, Nat.testBit_two_pow, decide_eq_true_iff,
      List.mem_cons, or_comm, eq_comm]

/-- The opcodes that the catalog claims. -/
def claimedKeys : List OpcodeKey := catalog.flatMap Family.keys

/-- The opcodes of both pages that name an instruction. -/
def namedKeys : List OpcodeKey :=
  let bytes := (List.range 256).map UInt8.ofNat
  (bytes.map OpcodeKey.plain ++ bytes.map OpcodeKey.paged).filter
    (fun k => (Instruction.ofKey k).isSome)

/-- The catalog claims what names an instruction; both are compared as sets of ranks. -/
theorem bitSet_claimedKeys :
    bitSet (claimedKeys.map OpcodeKey.rank) = bitSet (namedKeys.map OpcodeKey.rank) := by
  decide +kernel

theorem mem_of_bitSet_eq {ks ls : List OpcodeKey}
    (h : bitSet (ks.map OpcodeKey.rank) = bitSet (ls.map OpcodeKey.rank)) {k : OpcodeKey}
    (hk : k ∈ ls) : k ∈ ks := by
  have hbit := (testBit_bitSet (ls.map OpcodeKey.rank) k.rank).mpr (List.mem_map_of_mem hk)
  rw [← h, testBit_bitSet] at hbit
  obtain ⟨l, hl, hr⟩ := List.mem_map.mp hbit
  exact OpcodeKey.rank_inj hr ▸ hl

/-- **Every opcode that names an instruction is claimed by a family.** -/
theorem claimed_of_names {k : OpcodeKey} {i : Instruction} (hp : k.Proper)
    (h : Instruction.ofKey k = some i) : ∃ f ∈ catalog, k ∈ f.keys := by
  have hbyte : k.opcode ∈ (List.range 256).map UInt8.ofNat :=
    List.mem_map.mpr ⟨k.opcode.toNat, List.mem_range.mpr k.opcode.toNat_lt, UInt8.ofNat_toNat⟩
  have hnamed : k ∈ namedKeys := by
    refine List.mem_filter.mpr ⟨List.mem_append.mpr ?_, by rw [h]; rfl⟩
    obtain ⟨page, b⟩ := k
    rcases hp with ⟨hpage, _⟩ | hpage <;> dsimp only at hpage <;> subst hpage
    · exact .inl (List.mem_map_of_mem hbyte)
    · exact .inr (List.mem_map_of_mem hbyte)
  exact List.mem_flatMap.mp (mem_of_bitSet_eq bitSet_claimedKeys hnamed)

/-- The table and the descriptors that the core is made from. -/
structure Built (t : Table) (ds : List Descriptor) : Prop where
  table : Table.ofDocument instructionSet = .ok t
  descriptors : descriptorsOfDocument instructionSet catalog = .ok ds
  assembly : Assembly t catalog ds
  denotes : ∀ d ∈ ds, ∀ m ∈ d.members, ∃ i, Instruction.ofKey m.key = some i ∧ i.Denotes d m

/-- The descriptors of the rows are those of the document. -/
theorem descriptorsOfDocument_instructionSet {ds : List Descriptor}
    (h : firstRows.descriptors? secondRows catalog = some ds) :
    descriptorsOfDocument instructionSet catalog = .ok ds := by
  obtain ⟨t, c, ht, hc, hds⟩ := OrderedRows.descriptors?_eq_some ascending_catalog
    catalog_keys_nodup h
  rw [← instructionSet_rows] at ht
  exact bind_eq_ok.mpr ⟨t, ht, bind_eq_ok.mpr ⟨c, hc, hds⟩⟩

theorem exists_built : ∃ t ds, Built t ds := by
  have hd := denoted_catalog
  cases hrows : firstRows.descriptors? secondRows catalog with
  | none =>
    rw [hrows] at hd
    cases hd
  | some ds =>
    rw [hrows] at hd
    have h := descriptorsOfDocument_instructionSet hrows
    obtain ⟨t, ht, ha⟩ := assembly_of_document h
    refine ⟨t, ds, ht, h, ha, fun d hmem m hm => ?_⟩
    have hdm := List.all_eq_true.mp (List.all_eq_true.mp hd d hmem) m hm
    cases hi : Instruction.ofKey m.key with
    | none =>
      rw [hi] at hdm
      cases hdm
    | some i =>
      rw [hi] at hdm
      exact ⟨i, rfl, of_decide_eq_true hdm⟩

/-! ## 3. What the core executes -/

theorem coreOf_eq {document : TableDocument} {catalog : List Family} {ds : List Descriptor}
    (h : descriptorsOfDocument document catalog = .ok ds) :
    coreOf document catalog = Core.ofDescriptors ds := by
  unfold coreOf
  rw [h]

namespace Built

variable {t : Table} {ds : List Descriptor}

theorem core (h : Built t ds) : sm83 = Core.ofDescriptors ds := coreOf_eq h.descriptors

theorem proper (h : Built t ds) : ∀ d ∈ ds, ∀ m ∈ d.members, m.key.Proper := fun d hd m hm =>
  proper_catalog d.family (h.assembly.family_mem hd) m.key (h.assembly.claimed d hd m hm)

theorem routineNames_nodup (h : Built t ds) : (ds.map Descriptor.routineName).Nodup :=
  h.assembly.routineNames_nodup checked_catalog

/-- **The core executes the instruction that a member stands for.** -/
theorem decodeExecute_member (h : Built t ds) {d : Descriptor} {m : Member} (hd : d ∈ ds)
    (hm : m ∈ d.members) (s : Cpu) {tail : List UInt8} (ht : tail.length = m.record.trailing) :
    ∃ i, Instruction.ofKey m.key = some i ∧ i.Denotes d m ∧
      sm83.decodeExecute s (m.key.bytes ++ tail) = .executed (i.step tail s) (i.cycles s) := by
  obtain ⟨i, hi, hden⟩ := h.denotes d hd m hm
  refine ⟨i, hi, hden, ?_⟩
  rw [h.core, h.assembly.decodeExecute_member h.proper h.routineNames_nodup hd hm s ht,
    ← hden.operation]
  exact i.executes (ht.trans hden.trailing.symm) s

end Built

/-- **The core executes the instruction that the bits of an opcode name.** -/
theorem decodeExecute_of_names {k : OpcodeKey} {i : Instruction} (hp : k.Proper)
    (h : Instruction.ofKey k = some i) (s : Cpu) {tail : List UInt8}
    (ht : tail.length = i.trailing) :
    sm83.decodeExecute s (k.bytes ++ tail) = .executed (i.step tail s) (i.cycles s) := by
  obtain ⟨t, ds, hb⟩ := exists_built
  obtain ⟨f, hf, hk⟩ := claimed_of_names hp h
  obtain ⟨d, hd, _, m, hm, rfl⟩ := hb.assembly.complete f hf k hk
  obtain ⟨j, hj, hden⟩ := hb.denotes d hd m hm
  cases h.symm.trans hj
  obtain ⟨j, hj', _, he⟩ := hb.decodeExecute_member hd hm s (ht.trans hden.trailing)
  cases h.symm.trans hj'
  exact he

/-! ## 4. Encodings -/

/-- The bytes of a complete instruction: the key of an opcode that the catalog claims, and as many
    bytes after it as its entry in the table leaves. -/
def IsEncoding (bytes : List UInt8) : Prop :=
  ∃ f ∈ catalog, ∃ k ∈ f.keys, ∃ t r tail, Table.ofDocument instructionSet = .ok t ∧
    t.find? k = some r ∧ tail.length = r.trailing ∧ bytes = k.bytes ++ tail

theorem Built.isEncoding_iff {t : Table} {ds : List Descriptor} (h : Built t ds)
    {bytes : List UInt8} :
    IsEncoding bytes ↔ ∃ d ∈ ds, ∃ m ∈ d.members, ∃ tail,
      tail.length = m.record.trailing ∧ bytes = m.key.bytes ++ tail := by
  constructor
  · rintro ⟨f, hf, k, hk, t', r, tail, ht', hr, htail, rfl⟩
    cases h.table.symm.trans ht'
    obtain ⟨d, hd, _, m, hm, rfl⟩ := h.assembly.complete f hf k hk
    cases hr.symm.trans (h.assembly.recorded d hd m hm)
    exact ⟨d, hd, m, hm, tail, htail, rfl⟩
  · rintro ⟨d, hd, m, hm, tail, htail, rfl⟩
    exact ⟨d.family, h.assembly.family_mem hd, m.key, h.assembly.claimed d hd m hm, t, m.record,
      tail, h.table, h.assembly.recorded d hd m hm, htail, rfl⟩

/-- **The core executes encodings, and decodes nothing else.** No encoding ends in a fault, and
    bytes that are none leave the machine as it was. -/
theorem decodeExecute_iff_encoding (s : Cpu) (bytes : List UInt8) :
    (IsEncoding bytes ∧ ∃ t cycles, sm83.decodeExecute s bytes = .executed t cycles) ∨
      (¬IsEncoding bytes ∧ sm83.decodeExecute s bytes = .undecoded bytes ∧
        (sm83.decodeExecute s bytes).state s = s) := by
  obtain ⟨t, ds, hb⟩ := exists_built
  by_cases he : IsEncoding bytes
  · left
    obtain ⟨d, hd, m, hm, tail, ht, rfl⟩ := hb.isEncoding_iff.mp he
    obtain ⟨i, _, _, hi⟩ := hb.decodeExecute_member hd hm s ht
    exact ⟨he, _, _, hi⟩
  · right
    have hundecoded : sm83.decodeExecute s bytes = .undecoded bytes := by
      rw [hb.core]
      refine hb.assembly.decodeExecute_undecoded s fun d hd m hm tail ht hbytes => he ?_
      exact hb.isEncoding_iff.mpr ⟨d, hd, m, hm, tail, ht, hbytes⟩
    refine ⟨he, hundecoded, ?_⟩
    rw [hundecoded]
    rfl

end Sm83Codegen
