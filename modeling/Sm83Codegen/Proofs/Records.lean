import Mathlib.Data.List.Forall2
import Mathlib.Data.List.Nodup
import Sm83Codegen.Table

/-!
# The records of a table

A document gives a record for each entry of its two pages. Records are put in by their keys, so they
stand in strictly ascending order, and no two entries of a page are written under one key.

* `Record.ofEntry_eq_ok`, `Table.keyOn_eq_ok` -- an entry and its text, checked; `Record.IsOf` --
  what a record has of both;
* `insert?_descending` -- a record that is put in keeps the order;
* `addPartition_eq_ok`, `ofDocument_perm` -- a record for each entry;
* `ofDocument_ascending` -- the records of a table stand in strictly ascending order of their keys,
  so a key has one record (`find?_of_mem`).
-/

namespace Sm83Codegen

open Logged (bind_eq_ok guard_eq_ok)

/-! ## 1. Entries -/

/-- A record is of an entry of a page: its key is the one that the entry is written under, with the
    page filled in where the text names none, and the rest is what the entry says. -/
structure Record.IsOf (page : Option UInt8) (e : String × Entry) (r : Record) : Prop where
  onPage : r.key.page = page
  opcode : ∃ k, OpcodeKey.parse? e.1 = some k ∧ k.opcode = r.key.opcode ∧
    (k.page = none ∨ k.page = page)
  mnemonic : r.mnemonic = e.2.mnemonic
  operands : r.operands = e.2.operands
  flags : ∀ f, FlagEffect.parse? f (e.2.flags.get f) = some (r.flags.get f)
  length : r.length = e.2.bytes
  cycles : e.2.cycles = r.cycles.base :: r.cycles.alternate.toList

/-- A key is of one of the two pages. -/
def OpcodeKey.OnPage (k : OpcodeKey) : Prop := k.page = none ∨ k.page = some secondPage

theorem Cycles.eq_of_ofList? {l : List UInt8} {c : Cycles} (h : Cycles.ofList? l = some c) :
    l = c.base :: c.alternate.toList := by
  unfold Cycles.ofList? at h
  split at h
  · cases h
    rfl
  · cases h
    rfl
  · cases h

/-- A state of a flag in the table comes without a width. -/
theorem FlagEffect.parse?_width {g : Flag} {state : String} {w : CarryWidth} :
    parse? g state ≠ some (.computed (some w)) := by
  unfold parse?
  split
  · simp
  · simp
  · simp
  · split <;> simp
  · simp

/-- The states of flags are read back from their written form, if none comes with a width. -/
theorem FlagEffects.parse?_display {e : FlagEffects} (h : ∀ f w, e.get f ≠ .computed (some w)) :
    List.Forall₂ (fun f c => FlagEffect.parse? f (String.singleton c) = some (e.get f))
      Flag.all e.display.toList := by
  unfold FlagEffects.display
  rw [String.toList_ofList, List.forall₂_map_right_iff, List.forall₂_same]
  intro f _
  have hf := h f
  cases he : e.get f with
  | fixedFalse | fixedTrue | unaffected => cases f <;> rfl
  | computed width =>
    cases width with
    | none => cases f <;> rfl
    | some w => exact absurd he (hf w)

namespace Record

variable {key : OpcodeKey} {states : FlagStates}

theorem flagOf_eq_ok {f : Flag} {e : FlagEffect} :
    flagOf key states f = .ok e ↔ FlagEffect.parse? f (states.get f) = some e := by
  unfold flagOf
  split
  · next hparse => rw [hparse, Except.ok.injEq, Option.some.injEq]
  · next hparse =>
    rw [hparse]
    exact ⟨nofun, nofun⟩

theorem flagsOf_eq_ok {es : FlagEffects} : flagsOf key states = .ok es ↔
    ∀ f, FlagEffect.parse? f (states.get f) = some (es.get f) := by
  unfold flagsOf
  simp only [bind_eq_ok, flagOf_eq_ok]
  constructor
  · intro h
    obtain ⟨z, hz, n, hn, hf, hh, c, hc, h⟩ := h
    cases h
    intro f
    cases f with
    | Z => exact hz
    | N => exact hn
    | H => exact hh
    | C => exact hc
  · intro h
    exact ⟨_, h .Z, _, h .N, _, h .H, _, h .C, rfl⟩

/-- An entry has a record if its flags can be read, it has one or two cycle counts, and it is longer
    than its page byte. -/
theorem ofEntry_eq_ok {e : Entry} {r : Record} : ofEntry key e = .ok r ↔
    ∃ flags cycles, flagsOf key e.flags = .ok flags ∧ Cycles.ofList? e.cycles = some cycles ∧
      key.pageLength < e.bytes.toNat ∧ r = ⟨key, e.mnemonic, e.operands, flags, e.bytes, cycles⟩ := by
  unfold ofEntry
  rw [bind_eq_ok]
  refine exists_congr fun flags => ?_
  cases Cycles.ofList? e.cycles with
  | none => exact ⟨fun h => (nomatch h.2), fun ⟨_, _, hcycles, _⟩ => nomatch hcycles⟩
  | some cycles =>
    dsimp only
    rw [guard_eq_ok, Nat.not_le, Except.ok.injEq]
    constructor
    · intro h
      obtain ⟨hflags, hlength, hr⟩ := h
      exact ⟨cycles, hflags, rfl, hlength, hr.symm⟩
    · intro h
      obtain ⟨_, hflags, hcycles, hlength, rfl⟩ := h
      cases hcycles
      exact ⟨hflags, hlength, rfl⟩

theorem ofEntry_key {e : Entry} {r : Record} (h : ofEntry key e = .ok r) : r.key = key := by
  obtain ⟨_, _, _, _, _, rfl⟩ := ofEntry_eq_ok.mp h
  rfl

end Record

namespace Table

variable {page : Option UInt8}

/-- The text of a key names its opcode, and its page if it names one. -/
theorem keyOn_eq_ok {text : String} {k : OpcodeKey} : keyOn page text = .ok k ↔
    k.page = page ∧ ∃ l, OpcodeKey.parse? text = some l ∧ l.opcode = k.opcode ∧
      (l.page = none ∨ l.page = page) := by
  unfold keyOn
  cases OpcodeKey.parse? text with
  | none => exact ⟨nofun, fun ⟨_, _, hl, _⟩ => nomatch hl⟩
  | some l =>
    obtain ⟨p, b⟩ := l
    obtain ⟨q, c⟩ := k
    cases p with
    | none => simp [eq_comm, and_comm]
    | some p =>
      by_cases hp : some p = page
      · subst hp
        simp [eq_comm, and_comm]
      · simp [hp]

/-- The record of an entry on a page. -/
def RecordOn (page : Option UInt8) (e : String × Entry) (r : Record) : Prop :=
  ∃ k, keyOn page e.1 = .ok k ∧ Record.ofEntry k e.2 = .ok r

/-- The record that an entry gives carries what the entry says, and is longer than its page byte. -/
theorem RecordOn.isOf {e : String × Entry} {r : Record} (h : RecordOn page e r) :
    r.IsOf page e ∧ r.key.pageLength < r.length.toNat := by
  obtain ⟨k, hk, hr⟩ := h
  obtain ⟨honPage, hopcode⟩ := keyOn_eq_ok.mp hk
  obtain ⟨flags, cycles, hflags, hcycles, hlength, rfl⟩ := Record.ofEntry_eq_ok.mp hr
  exact ⟨⟨honPage, hopcode, rfl, rfl, Record.flagsOf_eq_ok.mp hflags, rfl,
    Cycles.eq_of_ofList? hcycles⟩, hlength⟩

/-! ## 2. Records in order -/

/-- Records in strictly descending order of their keys, as they are collected. -/
def Descending (rs : List Record) : Prop := rs.Pairwise (fun r s => s.key.rank < r.key.rank)

theorem insert?_perm {r : Record} {acc acc' : List Record} (h : insert? r acc = some acc') :
    acc'.Perm (r :: acc) := by
  induction acc generalizing acc' with
  | nil =>
    cases h
    exact List.Perm.refl _
  | cons s rest ih =>
    unfold insert? at h
    split at h
    · cases h
      exact List.Perm.refl _
    · split at h
      · cases h
      · obtain ⟨rest', hr, rfl⟩ := Option.map_eq_some_iff.mp h
        exact ((ih hr).cons s).trans (List.Perm.swap r s rest)

theorem insert?_descending {r : Record} {acc acc' : List Record} (h : insert? r acc = some acc')
    (hd : Descending acc) : Descending acc' := by
  induction acc generalizing acc' with
  | nil =>
    cases h
    exact List.pairwise_singleton _ _
  | cons t rest ih =>
    obtain ⟨ht, hrest⟩ := List.pairwise_cons.mp hd
    unfold insert? at h
    split at h
    · next hb =>
      have hlt : t.key.rank < r.key.rank := of_decide_eq_true hb
      cases h
      exact List.pairwise_cons.mpr
        ⟨List.forall_mem_cons.mpr ⟨hlt, fun s hs => Nat.lt_trans (ht s hs) hlt⟩, hd⟩
    · next hb =>
      have hle : ¬t.key.rank < r.key.rank := fun hlt => hb (decide_eq_true hlt)
      split at h
      · cases h
      · next hne =>
        have hr : r.key.rank ≠ t.key.rank := fun e =>
          hne (OpcodeKey.same_iff.mpr (OpcodeKey.rank_inj e))
        obtain ⟨rest', hr', rfl⟩ := Option.map_eq_some_iff.mp h
        refine List.pairwise_cons.mpr ⟨fun s hs => ?_, ih hr' hrest⟩
        rcases List.mem_cons.mp ((insert?_perm hr').mem_iff.mp hs) with rfl | hs
        · omega
        · exact ht s hs

/-- **A page adds a record for each of its entries**, and keeps the order. -/
theorem addPartition_eq_ok {p : Partition} {acc acc' : List Record}
    (h : addPartition page acc p = .ok acc') (hd : Descending acc) :
    Descending acc' ∧ ∃ rs, List.Forall₂ (RecordOn page) p rs ∧ acc'.Perm (rs ++ acc) := by
  induction p generalizing acc with
  | nil =>
    cases h
    exact ⟨hd, [], .nil, List.Perm.refl _⟩
  | cons e p ih =>
    obtain ⟨text, e⟩ := e
    unfold addPartition at h
    obtain ⟨k, hk, h⟩ := bind_eq_ok.mp h
    obtain ⟨r, hr, h⟩ := bind_eq_ok.mp h
    split at h
    · next acc₁ hi =>
      obtain ⟨hd', rs, hrs, hperm⟩ := ih h (insert?_descending hi hd)
      refine ⟨hd', r :: rs, .cons ⟨k, hk, hr⟩ hrs, hperm.trans ?_⟩
      exact ((insert?_perm hi).append_left rs).trans List.perm_middle
    · cases h

/-! ## 3. Tables -/

variable {d : TableDocument} {t : Table}

theorem ofDocument_eq_ok (h : ofDocument d = .ok t) :
    t.records.Pairwise (fun r s => r.key.rank < s.key.rank) ∧
    ∃ rs rs', List.Forall₂ (RecordOn none) d.plain rs ∧
      List.Forall₂ (RecordOn (some secondPage)) d.paged rs' ∧ t.records.Perm (rs ++ rs') := by
  unfold ofDocument at h
  obtain ⟨acc, hp, h⟩ := bind_eq_ok.mp h
  obtain ⟨acc', hs, h⟩ := bind_eq_ok.mp h
  cases h
  obtain ⟨hd, rs, hrs, hperm⟩ := addPartition_eq_ok hp List.Pairwise.nil
  obtain ⟨hd', rs', hrs', hperm'⟩ := addPartition_eq_ok hs hd
  rw [List.append_nil] at hperm
  refine ⟨List.pairwise_reverse.mpr hd', rs, rs', hrs, hrs', ?_⟩
  exact (List.reverse_perm _).trans (hperm'.trans ((hperm.append_left rs').trans
    List.perm_append_comm))

/-- **The records of a table stand in strictly ascending order.** -/
theorem ofDocument_ascending (h : ofDocument d = .ok t) :
    t.records.Pairwise (fun r s => r.key.rank < s.key.rank) :=
  (ofDocument_eq_ok h).1

/-- No two records have the same key. -/
def KeysDistinct (t : Table) : Prop := t.records.Pairwise (fun r s => r.key ≠ s.key)

theorem ofDocument_keysDistinct (h : ofDocument d = .ok t) : t.KeysDistinct :=
  (ofDocument_ascending h).imp fun hlt e => by rw [e] at hlt; exact Nat.lt_irrefl _ hlt

/-- **A table has a record for each entry of its document**, and no other; the records of a page
    have different keys. -/
theorem ofDocument_perm (h : ofDocument d = .ok t) :
    ∃ rs rs', List.Forall₂ (RecordOn none) d.plain rs ∧
      List.Forall₂ (RecordOn (some secondPage)) d.paged rs' ∧ t.records.Perm (rs ++ rs') ∧
      (rs.map Record.key).Nodup ∧ (rs'.map Record.key).Nodup := by
  obtain ⟨_, rs, rs', hrs, hrs', hperm⟩ := ofDocument_eq_ok h
  have hkeys : (t.records.map Record.key).Nodup :=
    List.pairwise_map.mpr (ofDocument_keysDistinct h)
  rw [(hperm.map Record.key).nodup_iff, List.map_append] at hkeys
  obtain ⟨hnodup, hnodup', _⟩ := List.nodup_append.mp hkeys
  exact ⟨rs, rs', hrs, hrs', hperm, hnodup, hnodup'⟩

/-- A record of a page is that of one of its entries. -/
theorem exists_recordOn {page : Option UInt8} {p : Partition} {rs : List Record}
    (h : List.Forall₂ (RecordOn page) p rs) {r : Record} (hr : r ∈ rs) :
    ∃ e ∈ p, RecordOn page e r := by
  induction h with
  | nil => exact absurd hr List.not_mem_nil
  | cons he _ ih =>
    rcases List.mem_cons.mp hr with rfl | hr
    · exact ⟨_, List.mem_cons_self, he⟩
    · obtain ⟨e, hmem, he⟩ := ih hr
      exact ⟨e, List.mem_cons_of_mem _ hmem, he⟩

/-- A record of a table is that of an entry on one of the two pages. -/
theorem ofDocument_recordOn (h : ofDocument d = .ok t) {r : Record} (hr : r ∈ t.records) :
    ∃ page e, (page = none ∨ page = some secondPage) ∧ RecordOn page e r := by
  obtain ⟨_, rs, rs', hrs, hrs', hperm⟩ := ofDocument_eq_ok h
  rcases List.mem_append.mp (hperm.mem_iff.mp hr) with hr | hr
  · obtain ⟨e, _, he⟩ := exists_recordOn hrs hr
    exact ⟨none, e, .inl rfl, he⟩
  · obtain ⟨e, _, he⟩ := exists_recordOn hrs' hr
    exact ⟨some secondPage, e, .inr rfl, he⟩

/-- **A loaded table has keys of the two pages only.** -/
theorem ofDocument_onPage (h : ofDocument d = .ok t) {r : Record} (hr : r ∈ t.records) :
    r.key.OnPage := by
  obtain ⟨page, e, hpage, he⟩ := ofDocument_recordOn h hr
  unfold OpcodeKey.OnPage
  rw [he.isOf.1.onPage]
  exact hpage

/-- A record is longer than its page byte. -/
theorem ofDocument_length (h : ofDocument d = .ok t) {r : Record} (hr : r ∈ t.records) :
    r.key.pageLength < r.length.toNat := by
  obtain ⟨_, _, _, he⟩ := ofDocument_recordOn h hr
  exact he.isOf.2

/-- The flags of a record have no widths. -/
theorem ofDocument_width (h : ofDocument d = .ok t) {r : Record} (hr : r ∈ t.records) (g : Flag)
    (w : CarryWidth) : r.flags.get g ≠ .computed (some w) := by
  obtain ⟨_, _, _, he⟩ := ofDocument_recordOn h hr
  intro hw
  have hparse := he.isOf.1.flags g
  rw [hw] at hparse
  exact FlagEffect.parse?_width hparse

/-- The keys that a page is read with are those of its records. -/
theorem map_keyOn {page : Option UInt8} {p : Partition} {rs : List Record}
    (h : List.Forall₂ (RecordOn page) p rs) :
    p.map (fun e => keyOn page e.1) = (rs.map Record.key).map .ok := by
  induction h with
  | nil => rfl
  | cons he _ ih =>
    obtain ⟨k, hk, hr⟩ := he
    rw [List.map_cons, List.map_cons, List.map_cons, hk, Record.ofEntry_key hr, ih]

/-- The entries of a page whose records have different keys are written under different ones. -/
theorem keyOn_nodup {page : Option UInt8} {p : Partition} {rs : List Record}
    (h : List.Forall₂ (RecordOn page) p rs) (hnodup : (rs.map Record.key).Nodup) :
    (p.map (fun e => keyOn page e.1)).Nodup := by
  rw [map_keyOn h]
  exact hnodup.map fun _ _ hok => Except.ok.inj hok

theorem ofDocument_names_nodup (h : ofDocument d = .ok t) :
    (d.plain.map Prod.fst).Nodup ∧ (d.paged.map Prod.fst).Nodup := by
  obtain ⟨rs, rs', hrs, hrs', _, hnodup, hnodup'⟩ := ofDocument_perm h
  have hkeys := keyOn_nodup hrs hnodup
  have hkeys' := keyOn_nodup hrs' hnodup'
  rw [← Function.comp_def (keyOn _) Prod.fst, ← List.map_map] at hkeys hkeys'
  exact ⟨hkeys.of_map, hkeys'.of_map⟩

/-- A record is the one that its key finds. -/
theorem find?_of_mem (h : t.KeysDistinct) {r : Record} (hr : r ∈ t.records) :
    t.find? r.key = some r := by
  obtain ⟨rs⟩ := t
  have hd : rs.Pairwise (fun r s => r.key ≠ s.key) := h
  show rs.find? (fun s => s.key.same r.key) = some r
  clear h
  induction rs with
  | nil => cases hr
  | cons s rest ih =>
    obtain ⟨hs, hrest⟩ := List.pairwise_cons.mp hd
    rcases List.mem_cons.mp hr with rfl | hr
    · exact List.find?_cons_of_pos (OpcodeKey.same_iff.mpr rfl)
    · have hne : ¬ s.key.same r.key = true := fun e => hs r hr (OpcodeKey.same_iff.mp e)
      rw [List.find?_cons_of_neg (by simpa using hne)]
      exact ih hr hrest

theorem find?_key {k : OpcodeKey} {r : Record} (h : t.find? k = some r) : r.key = k := by
  unfold find? at h
  have hsame := List.find?_some h
  exact OpcodeKey.same_iff.mp hsame

end Table

end Sm83Codegen
