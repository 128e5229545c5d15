import Sm83Codegen.Proofs.Loading

/-!
# Tables that are written by rows

A page whose entries are written under the digits of their opcodes, in ascending order, gives a
record for each row in that order. What a catalog makes of the records is known from the records of
each family alone. So a large table is evaluated without reading its keys or searching its slots.

* `parse?_hex8` -- the digits of a byte name the opcode;
* `Rows.partition`, `Table.ofDocument_rows` -- a table by rows; `put_partition` -- with other entries;
* `Index` -- records that are found by their keys in few steps;
* `assign_merged` -- what families give that are merged one by one;
* `OrderedRows.descriptors?_eq_some` -- both together: what a catalog makes of rows;
* `keys_nodup` -- keys that differ, by a set of their ranks.
-/

namespace Sm83Codegen

open Logged (bind_eq_ok)

/-! ## 1. The digits of an opcode -/

/-- A digit in capitals is read as it is written. -/
theorem hexDigit_read : ∀ n < 16, OpcodeKey.capitals (Text.hexDigit n) = [Text.hexDigit n] ∧
    Text.isBlank (Text.hexDigit n) = false ∧ OpcodeKey.isSeparator (Text.hexDigit n) = false ∧
    Text.hexValue? (Text.hexDigit n) = some n ∧ Text.hexDigit n ≠ 'X' ∧ Text.hexDigit n ≠ '+' := by
  decide

theorem toList_hex8 (b : UInt8) : (Text.hex8 b).toList =
    ['0', 'x', Text.hexDigit (b.toNat / 16), Text.hexDigit (b.toNat % 16)] := by
  unfold Text.hex8 Text.hexByte
  rw [String.toList_append, String.toList_ofList, String.toList_ofList]
  rfl

/-- **The digits of a byte name the opcode.** -/
theorem parse?_hex8 (b : UInt8) : OpcodeKey.parse? (Text.hex8 b) = some (.plain b) := by
  have hb := b.toNat_lt
  obtain ⟨hcap, _, hsep, hval, _, hplus⟩ := hexDigit_read (b.toNat / 16) (by omega)
  obtain ⟨hcap', hblank', hsep', hval', hX', _⟩ := hexDigit_read (b.toNat % 16) (by omega)
  unfold OpcodeKey.parse?
  rw [toList_hex8]
  generalize Text.hexDigit (b.toNat / 16) = c at *
  generalize Text.hexDigit (b.toNat % 16) = d at *
  have hdigits : OpcodeKey.digitsOf ['0', 'x', c, d] = [c, d] := by
    have htrim : Text.trim ['0', 'x', c, d] = ['0', 'x', c, d] := by
      simp [Text.trim, Text.trimStart, Text.trimEnd, hblank', show Text.isBlank '0' = false from rfl]
    unfold OpcodeKey.digitsOf
    rw [htrim]
    simp [List.flatMap_cons, hcap, hcap', show OpcodeKey.capitals '0' = ['0'] from rfl,
      show OpcodeKey.capitals 'x' = ['X'] from rfl, OpcodeKey.withoutMarks, hX', hsep, hsep']
  have hbyte : Text.byteOfHex? [c, d] = some b := by
    have hnumber : 16 * (b.toNat / 16) + b.toNat % 16 = b.toNat := Nat.div_add_mod _ _
    unfold Text.byteOfHex?
    simp [hplus, Text.hexNumber?, hval, hval', hnumber, Text.byteOfNat?, hb]
  rw [hdigits]
  unfold OpcodeKey.ofDigits?
  simp [Text.isHexDigit, hval, hval', hbyte]

namespace Table

theorem keyOn_hex8 (page : Option UInt8) (b : UInt8) :
    keyOn page (Text.hex8 b) = .ok ⟨page, b⟩ := by
  exact keyOn_eq_ok.mpr ⟨rfl, _, parse?_hex8 b, rfl, .inl rfl⟩

/-! ## 2. Rows -/

end Table

/-- Entries with the bytes of their opcodes. -/
abbrev Rows := List (UInt8 × Entry)

namespace Rows

/-- The opcodes ascend. -/
def InOrder (rows : Rows) : Prop := (rows.map Prod.fst).IsChain (· < ·)

instance (rows : Rows) : Decidable rows.InOrder :=
  inferInstanceAs (Decidable (List.IsChain _ _))

theorem InOrder.pairwise {rows : Rows} (h : rows.InOrder) :
    rows.Pairwise (fun e e' => e.1 < e'.1) :=
  List.pairwise_map.mp (List.isChain_iff_pairwise.mp h)

/-- Entries under the digits of their opcodes. -/
def partition (rows : Rows) : Partition := rows.map fun e => (Text.hex8 e.1, e.2)

/-- A page is written by rows when its keys are digits. -/
theorem eq_partition {p : Partition} {bs : List UInt8} (h : p.map Prod.fst = bs.map Text.hex8) :
    p = partition (bs.zip (p.map Prod.snd)) := by
  induction p generalizing bs with
  | nil => rw [List.map_eq_nil_iff.mp h.symm]; rfl
  | cons e p ih =>
    cases bs with
    | nil => cases h
    | cons b bs =>
      obtain ⟨he, h⟩ := List.cons.inj h
      have hp := ih h
      unfold partition at hp ⊢
      rw [List.map_cons, List.zip_cons_cons, List.map_cons, ← hp]
      exact congrArg (· :: p) (Prod.ext he rfl)

/-- Puts an entry under an opcode. -/
def put (b : UInt8) (e : Entry) : Rows → Rows
  | [] => [(b, e)]
  | (c, d) :: rest => if c = b then (c, e) :: rest else (c, d) :: put b e rest

theorem hex8_inj {b c : UInt8} (h : Text.hex8 b = Text.hex8 c) : b = c := by
  have hkey := (parse?_hex8 b).symm.trans ((congrArg OpcodeKey.parse? h).trans (parse?_hex8 c))
  exact congrArg OpcodeKey.opcode (Option.some.inj hkey)

theorem put_partition (b : UInt8) (e : Entry) (rows : Rows) :
    Partition.put (Text.hex8 b) e rows.partition = (rows.put b e).partition := by
  induction rows with
  | nil => rfl
  | cons r rows ih =>
    obtain ⟨c, d⟩ := r
    show (if (Text.hex8 c == Text.hex8 b) = true then _ else _) = _
    unfold put
    by_cases hc : c = b
    · rw [if_pos (beq_iff_eq.mpr (congrArg Text.hex8 hc)), if_pos hc]
      rfl
    · rw [if_neg fun h => hc (hex8_inj (beq_iff_eq.mp h)), if_neg hc]
      exact congrArg (_ :: ·) ih

theorem foldl_put_partition (changes rows : Rows) :
    changes.partition.foldl (fun p e => Partition.put e.1 e.2 p) rows.partition =
      (changes.foldl (fun rows e => rows.put e.1 e.2) rows).partition := by
  induction changes generalizing rows with
  | nil => rfl
  | cons e changes ih =>
    refine Eq.trans ?_ (ih (rows.put e.1 e.2))
    exact congrArg (fun p => (partition changes).foldl _ p) (put_partition e.1 e.2 rows)

/-- The record of an entry, if it has one. The fields of the entry are taken apart first, so that
    evaluation meets equal states as equal terms. -/
def record? (page : Option UInt8) (b : UInt8) : Entry → Option Record
  | ⟨mnemonic, bytes, cycles, operands, ⟨z, n, h, c⟩⟩ =>
    match FlagEffect.parse? .Z z, FlagEffect.parse? .N n, FlagEffect.parse? .H h,
        FlagEffect.parse? .C c, Cycles.ofList? cycles with
    | some z, some n, some h, some c, some cycles =>
      let r : Record := ⟨⟨page, b⟩, mnemonic, operands, ⟨z, n, h, c⟩, bytes, cycles⟩
      if bytes.toNat ≤ r.key.pageLength then none else some r
    | _, _, _, _, _ => none

theorem record?_eq_some {page : Option UInt8} {b : UInt8} {e : Entry} {r : Record}
    (h : record? page b e = some r) : Record.ofEntry ⟨page, b⟩ e = .ok r := by
  unfold record? at h
  dsimp only at h
  split at h
  · next z n hf c cycles hz hn hh hc hcycles =>
    split at h
    · cases h
    · next hlen =>
      cases h
      have hflags : Record.flagsOf ⟨page, b⟩ e.flags = .ok ⟨z, n, hf, c⟩ := by
        refine Record.flagsOf_eq_ok.mpr fun f => ?_
        cases f with
        | Z => exact hz
        | N => exact hn
        | H => exact hh
        | C => exact hc
      exact Record.ofEntry_eq_ok.mpr ⟨_, cycles, hflags, hcycles, Nat.not_le.mp hlen, rfl⟩
  · cases h

/-- The records of rows on a page, if each has one. -/
def records? (page : Option UInt8) : Rows → Option (List Record)
  | [] => some []
  | (b, e) :: rest => (record? page b e).bind fun r => (records? page rest).map (r :: ·)

theorem records?_keys {page : Option UInt8} {rows : Rows} {rs : List Record}
    (h : rows.records? page = some rs) : rs.map Record.key = rows.map fun e => ⟨page, e.1⟩ := by
  induction rows generalizing rs with
  | nil =>
    cases h
    rfl
  | cons e rows ih =>
    obtain ⟨r, hr, h⟩ := Option.bind_eq_some_iff.mp h
    obtain ⟨rest, hrest, rfl⟩ := Option.map_eq_some_iff.mp h
    rw [List.map_cons, List.map_cons, Record.ofEntry_key (record?_eq_some hr), ih hrest]

end Rows

/-- Rows in ascending order. -/
structure OrderedRows where
  rows : Rows
  inOrder : rows.InOrder

namespace Table

theorem insert?_last {r : Record} {acc : List Record} (h : ∀ s ∈ acc, s.key.rank < r.key.rank) :
    insert? r acc = some (r :: acc) := by
  cases acc with
  | nil => rfl
  | cons s acc =>
    have hs : s.key.before r.key = true := decide_eq_true (h s List.mem_cons_self)
    unfold insert?
    rw [if_pos hs]

/-- **Rows in ascending order give their records in that order.** -/
theorem addPartition_rows {page : Option UInt8} {rows : Rows} {rs : List Record}
    (hrows : rows.Pairwise (fun e e' => e.1 < e'.1)) (h : rows.records? page = some rs)
    {acc : List Record} (hacc : ∀ s ∈ acc, ∀ e ∈ rows, s.key.rank < OpcodeKey.rank ⟨page, e.1⟩) :
    addPartition page acc rows.partition = .ok (rs.reverse ++ acc) := by
  induction rows generalizing acc rs with
  | nil =>
    cases h
    rfl
  | cons row rows ih =>
    obtain ⟨b, e⟩ := row
    obtain ⟨hfirst, hrows⟩ := List.pairwise_cons.mp hrows
    obtain ⟨r, hr, h⟩ := Option.bind_eq_some_iff.mp h
    obtain ⟨rest, hrest, rfl⟩ := Option.map_eq_some_iff.mp h
    have hentry := Rows.record?_eq_some hr
    have hkey := Record.ofEntry_key hentry
    have hlast : insert? r acc = some (r :: acc) := insert?_last fun s hs => by
      rw [hkey]
      exact hacc s hs _ List.mem_cons_self
    have hbelow : ∀ s ∈ r :: acc, ∀ e' ∈ rows, s.key.rank < OpcodeKey.rank ⟨page, e'.1⟩ := by
      intro s hs e' he'
      rcases List.mem_cons.mp hs with rfl | hs
      · have hlt := UInt8.lt_iff_toNat_lt.mp (hfirst e' he')
        rw [hkey]
        cases page with
        | none => exact hlt
        | some p => exact Nat.add_lt_add_left hlt _
      · exact hacc s hs e' (List.mem_cons_of_mem _ he')
    have hnext := ih hrows hrest hbelow
    refine bind_eq_ok.mpr ⟨_, keyOn_hex8 page b, bind_eq_ok.mpr ⟨r, hentry, ?_⟩⟩
    rw [hlast]
    refine hnext.trans (congrArg Except.ok ?_)
    rw [List.reverse_cons, List.append_assoc]
    rfl

/-- **A table by rows.** -/
theorem ofDocument_rows {x y : OrderedRows} {rs rs' : List Record}
    (h : x.rows.records? none = some rs) (h' : y.rows.records? (some secondPage) = some rs') :
    ofDocument ⟨x.rows.partition, y.rows.partition⟩ = .ok ⟨rs ++ rs'⟩ := by
  have hfirst : addPartition none [] x.rows.partition = .ok (rs.reverse ++ []) :=
    addPartition_rows x.inOrder.pairwise h fun s hs => absurd hs List.not_mem_nil
  have hsecond : addPartition (some secondPage) (rs.reverse ++ []) y.rows.partition =
      .ok (rs'.reverse ++ (rs.reverse ++ [])) := by
    refine addPartition_rows y.inOrder.pairwise h' fun s hs e _ => ?_
    rw [List.append_nil, List.mem_reverse] at hs
    have hkey := List.mem_map_of_mem (f := Record.key) hs
    rw [Rows.records?_keys h] at hkey
    obtain ⟨e', _, hkey⟩ := List.mem_map.mp hkey
    rw [← hkey]
    show e'.1.toNat < 256 * (secondPage.toNat + 1) + e.1.toNat
    have := e'.1.toNat_lt
    omega
  refine bind_eq_ok.mpr ⟨_, hfirst, bind_eq_ok.mpr ⟨_, hsecond, ?_⟩⟩
  refine congrArg (fun rs => Except.ok (Table.mk rs)) ?_
  simp

end Table

/-! ## 3. Finding records -/

/-- Records in pieces, each with the rank of its last record. -/
abbrev Index := List (Nat × List Record)

namespace Index

/-- The number of records in a piece. -/
def pieceLength : Nat := 16

/-- Records in ascending order, cut in pieces. -/
def ofRecords (rs : List Record) : Index :=
  (List.range (rs.length / pieceLength + 1)).map fun i =>
    let piece := (rs.drop (pieceLength * i)).take pieceLength
    ((piece.map fun r => r.key.rank).foldl max 0, piece)

/-- The record of a key, which is in the first piece that ends behind it. -/
def find? (x : Index) (k : OpcodeKey) : Option Record :=
  x.findSome? fun piece => if k.rank ≤ piece.1 then piece.2.find? (fun r => r.key.same k) else none

/-- The records of keys. -/
def records? (x : Index) : List OpcodeKey → Option (List Record)
  | [] => some []
  | k :: ks => (x.find? k).bind fun r => (x.records? ks).map (r :: ·)

theorem find?_ofRecords {rs : List Record} {k : OpcodeKey} {r : Record}
    (h : (ofRecords rs).find? k = some r) : r ∈ rs ∧ r.key = k := by
  obtain ⟨piece, hpiece, h⟩ := List.exists_of_findSome?_eq_some h
  obtain ⟨i, _, rfl⟩ := List.mem_map.mp hpiece
  split at h
  · have hmem := List.mem_of_find?_eq_some h
    have hsame := (List.find?_eq_some_iff_append.mp h).1
    exact ⟨List.mem_of_mem_drop (List.mem_of_mem_take hmem), OpcodeKey.same_iff.mp hsame⟩
  · cases h

theorem records?_ofRecords {rs : List Record} {ks : List OpcodeKey} {found : List Record}
    (h : (ofRecords rs).records? ks = some found) :
    (∀ r ∈ found, r ∈ rs) ∧ found.map Record.key = ks := by
  induction ks generalizing found with
  | nil =>
    cases h
    exact ⟨fun r hr => absurd hr List.not_mem_nil, rfl⟩
  | cons k ks ih =>
    obtain ⟨r, hr, h⟩ := Option.bind_eq_some_iff.mp h
    obtain ⟨rest, hrest, rfl⟩ := Option.map_eq_some_iff.mp h
    obtain ⟨hmem, hkey⟩ := find?_ofRecords hr
    obtain ⟨hmems, hkeys⟩ := ih hrest
    exact ⟨List.forall_mem_cons.mpr ⟨hmem, hmems⟩, by rw [List.map_cons, hkey, hkeys]⟩

/-- A family, merged from its records. -/
def merge? (x : Index) (f : Family) : Option Descriptor :=
  (x.records? f.keys).bind fun rs => (Descriptor.merge f rs).result.toOption

/-- Families, each merged from its records. -/
def mergeAll? (x : Index) : List Family → Option (List Descriptor)
  | [] => some []
  | f :: fs => (x.merge? f).bind fun d => (x.mergeAll? fs).map (d :: ·)

end Index

/-! ## 4. Families that are merged one by one -/

/-- The records of a family whose keys ascend are known by these keys. -/
theorem Table.recordsOf_eq {t : Table}
    (ht : t.records.Pairwise (fun r s => r.key.rank < s.key.rank)) {f : Family} {rs : List Record}
    (hmem : ∀ r ∈ rs, r ∈ t.records) (hkeys : rs.map Record.key = f.keys)
    (hf : Ascending f.keys) : t.recordsOf f = rs := by
  have hasc : rs.Pairwise (fun r s => r.key.rank < s.key.rank) := by
    unfold Ascending at hf
    rw [← hkeys, List.pairwise_map] at hf
    exact hf
  have hdistinct : t.KeysDistinct := ht.imp fun hlt e => by
    rw [e] at hlt
    exact Nat.lt_irrefl _ hlt
  refine eq_of_mem_iff_of_ascending (List.Pairwise.filter _ ht) hasc fun r => ?_
  unfold Table.recordsOf
  rw [List.mem_filter, List.contains_iff_mem, ← hkeys]
  constructor
  · rintro ⟨hr, hk⟩
    obtain ⟨s, hs, hsk⟩ := List.mem_map.mp hk
    have hfind := Table.find?_of_mem hdistinct (hmem s hs)
    rw [hsk, Table.find?_of_mem hdistinct hr] at hfind
    exact Option.some.inj hfind ▸ hs
  · exact fun hr => ⟨hmem r hr, List.mem_map_of_mem hr⟩

theorem Index.merge?_eq_some {t : Table}
    (ht : t.records.Pairwise (fun r s => r.key.rank < s.key.rank)) {f : Family}
    (hf : Ascending f.keys) {d : Descriptor} (h : (ofRecords t.records).merge? f = some d) :
    (∀ k ∈ f.keys, t.Has k) ∧ (Descriptor.merge f (t.recordsOf f)).result = .ok d := by
  obtain ⟨rs, hrs, h⟩ := Option.bind_eq_some_iff.mp h
  obtain ⟨hmem, hkeys⟩ := records?_ofRecords hrs
  constructor
  · intro k hk
    rw [← hkeys] at hk
    obtain ⟨r, hr, hrk⟩ := List.mem_map.mp hk
    exact ⟨r, hmem r hr, hrk⟩
  · rw [Table.recordsOf_eq ht hmem hkeys hf]
    cases hd : (Descriptor.merge f rs).result with
    | error e =>
      rw [hd] at h
      cases h
    | ok d' =>
      rw [hd] at h
      exact congrArg Except.ok (Option.some.inj h)

theorem Index.mergeAll?_eq_some {x : Index} {fs : List Family} {ds : List Descriptor}
    (h : x.mergeAll? fs = some ds) : List.Forall₂ (fun f d => x.merge? f = some d) fs ds := by
  induction fs generalizing ds with
  | nil =>
    cases h
    exact .nil
  | cons f fs ih =>
    obtain ⟨d, hd, h⟩ := Option.bind_eq_some_iff.mp h
    obtain ⟨rest, hrest, rfl⟩ := Option.map_eq_some_iff.mp h
    exact .cons hd (ih hrest)

/-- Families merge one by one. -/
theorem descriptorsFrom_of_forall₂ {c : ClaimedTable} {t : Table} {index : Nat} {fs : List Family}
    {ds : List Descriptor}
    (hmembers : ∀ i f, fs[i]? = some f → c.members (index + i) = t.recordsOf f)
    (h : List.Forall₂ (fun f d => (Descriptor.merge f (t.recordsOf f)).result = .ok d) fs ds) :
    (descriptorsFrom c index fs).result = .ok ds := by
  induction h generalizing index with
  | nil => rfl
  | @cons f d fs ds hd _ ih =>
    have hrest : (descriptorsFrom c (index + 1) fs).result = .ok ds := by
      refine ih fun i g hg => ?_
      rw [Nat.add_right_comm]
      exact hmembers (i + 1) g hg
    unfold descriptorsFrom
    simp only [Logged.result_bind, bind_eq_ok, mergeReported_result]
    refine ⟨d, ?_, ds, hrest, rfl⟩
    rw [show c.members index = t.recordsOf f from hmembers 0 f rfl]
    exact hd

/-- **Families that can be merged one by one can be claimed**, and give these descriptors. -/
theorem assign_merged {t : Table}
    (ht : t.records.Pairwise (fun r s => r.key.rank < s.key.rank)) {catalog : List Family}
    (hasc : ∀ f ∈ catalog, Ascending f.keys) (hnodup : (catalog.flatMap Family.keys).Nodup)
    {ds : List Descriptor} (h : (Index.ofRecords t.records).mergeAll? catalog = some ds) :
    ∃ c, ClaimedTable.assign catalog t = .ok c ∧ (descriptorsOf c catalog).result = .ok ds := by
  have hdistinct : t.KeysDistinct := ht.imp fun hlt e => by
    rw [e] at hlt
    exact Nat.lt_irrefl _ hlt
  have hmerge : List.Forall₂ (fun f d => (∀ k ∈ f.keys, t.Has k) ∧
      (Descriptor.merge f (t.recordsOf f)).result = .ok d) catalog ds :=
    ((List.forall₂_and_left _ _).mpr ⟨hasc, Index.mergeAll?_eq_some h⟩).imp
      fun f d hfd => Index.merge?_eq_some ht hfd.1 hfd.2
  obtain ⟨hfound, hmerged⟩ := (List.forall₂_and_left _ _).mp hmerge
  obtain ⟨c, hc⟩ := (ClaimedTable.assign_succeeds hdistinct).mpr ⟨hfound, hnodup⟩
  have hclaims := ClaimedTable.assign_claims hc hdistinct
  refine ⟨c, hc, descriptorsFrom_of_forall₂ (fun i f hf => ?_) hmerged⟩
  rw [Nat.zero_add]
  exact hclaims.members_eq hf

/-- What a catalog makes of the rows of two pages. -/
def OrderedRows.descriptors? (x y : OrderedRows) (catalog : List Family) :
    Option (List Descriptor) :=
  (x.rows.records? none).bind fun rs => (y.rows.records? (some secondPage)).bind fun rs' =>
    (Index.ofRecords (rs ++ rs')).mergeAll? catalog

/-- **Rows that a catalog makes descriptors of give a table that it can claim**, and these
    descriptors. -/
theorem OrderedRows.descriptors?_eq_some {x y : OrderedRows} {catalog : List Family}
    (hasc : ∀ f ∈ catalog, Ascending f.keys) (hnodup : (catalog.flatMap Family.keys).Nodup)
    {ds : List Descriptor} (h : x.descriptors? y catalog = some ds) :
    ∃ t c, Table.ofDocument ⟨x.rows.partition, y.rows.partition⟩ = .ok t ∧
      ClaimedTable.assign catalog t = .ok c ∧ (descriptorsOf c catalog).result = .ok ds := by
  obtain ⟨rs, hrs, h⟩ := Option.bind_eq_some_iff.mp h
  obtain ⟨rs', hrs', h⟩ := Option.bind_eq_some_iff.mp h
  have ht := Table.ofDocument_rows hrs hrs'
  obtain ⟨c, hc, hds⟩ := assign_merged (Table.ofDocument_ascending ht) hasc hnodup h
  exact ⟨_, c, ht, hc, hds⟩

/-! ## 5. Keys that differ -/

/-- Numbers that differ, and are not in a set of bits. -/
def distinctFrom (bits : Nat) : List Nat → Bool
  | [] => true
  | n :: ns => !bits.testBit n && distinctFrom (bits ||| 2 ^ n) ns

theorem distinctFrom_nodup {bits : Nat} {ns : List Nat} (h : distinctFrom bits ns = true) :
    ns.Nodup ∧ ∀ n ∈ ns, bits.testBit n = false := by
  induction ns generalizing bits with
  | nil => exact ⟨List.nodup_nil, fun n hn => absurd hn List.not_mem_nil⟩
  | cons n ns ih =>
    obtain ⟨hn, h⟩ := Bool.and_eq_true_iff.mp h
    obtain ⟨hnodup, hbits⟩ := ih h
    have hfree : ∀ m ∈ ns, bits.testBit m = false ∧ n ≠ m := by
      intro m hm
      have hbit := hbits m hm
      rw [Nat.testBit_or, Bool.or_eq_false_iff, Nat.testBit_two_pow] at hbit
      exact ⟨hbit.1, of_decide_eq_false hbit.2⟩
    refine ⟨List.nodup_cons.mpr ⟨fun hmem => (hfree n hmem).2 rfl, hnodup⟩, ?_⟩
    exact List.forall_mem_cons.mpr ⟨by simpa using hn, fun m hm => (hfree m hm).1⟩

/-- Keys of different ranks differ. -/
theorem keys_nodup {ks : List OpcodeKey} (h : distinctFrom 0 (ks.map OpcodeKey.rank) = true) :
    ks.Nodup :=
  List.Nodup.of_map _ (distinctFrom_nodup h).1

end Sm83Codegen
