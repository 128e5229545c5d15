import Sm83Codegen.Proofs.Exclusion
import Sm83Codegen.Proofs.Independence

/-!
# Loading partitions the table

A text that is read gives one record for each entry of its two pages, in table order. A catalog can
be loaded with it exactly when the table has every key that a family claims and none is claimed
twice; then every record belongs to one family, or to none.

* `OpcodeKey.Precedes` -- table order, by page and byte;
* `claim_succeeds` -- a claim is made when its key is there and free; `assign_succeeds` -- so is a
  whole catalog;
* `Table.recordsOf`, `Claims.members_eq` -- the members of a family are the records of its keys;
* `Claims.perm` -- the members of all families and the unclaimed records are all the records;
* `load_partitions` -- all of it, for every text and every catalog.
-/

namespace Sm83Codegen

open Logged (bind_eq_ok)

/-! ## 1. Table order -/

/-- Table order: the opcodes of the first page come before those of the second, and the opcodes of a
    page stand by their bytes. -/
def OpcodeKey.Precedes (k l : OpcodeKey) : Prop :=
  (k.page = none ∧ l.page = some secondPage) ∨ (k.page = l.page ∧ k.opcode < l.opcode)

/-- Keys of the two pages stand in table order by their ranks. -/
theorem OpcodeKey.precedes_of_rank {k l : OpcodeKey} (hk : k.OnPage) (hl : l.OnPage)
    (h : k.rank < l.rank) : k.Precedes l := by
  obtain ⟨p, b⟩ := k
  obtain ⟨q, c⟩ := l
  have hc := c.toNat_lt
  rcases hk with hk | hk <;> rcases hl with hl | hl <;> cases hk <;> cases hl
  · exact .inr ⟨rfl, UInt8.lt_iff_toNat_lt.mpr h⟩
  · exact .inl ⟨rfl, rfl⟩
  · have h : 256 * (secondPage.toNat + 1) + b.toNat < c.toNat := h
    omega
  · have h : 256 * (secondPage.toNat + 1) + b.toNat < 256 * (secondPage.toNat + 1) + c.toNat := h
    exact .inr ⟨rfl, UInt8.lt_iff_toNat_lt.mpr (Nat.lt_of_add_lt_add_left h)⟩

/-! ## 2. Which catalogs can be assigned -/

/-- A table has a record under a key. -/
def Table.Has (t : Table) (k : OpcodeKey) : Prop := ∃ r ∈ t.records, r.key = k

namespace ClaimedTable

variable {t : Table} {P : Nat → OpcodeKey → Prop} {c c' : ClaimedTable} {catalog : List Family}

theorem find?_key {k : OpcodeKey} {s : Slot} (h : c.find? k = some s) : s.record.key = k := by
  unfold find? at h
  have hsame := List.find?_some h
  exact OpcodeKey.same_iff.mp hsame

/-- **A claim is made when its key is in the table and nobody has it.** -/
theorem claim_succeeds (catalog : List Family) (i : Nat) (name : String) (hc : c.Claims t P)
    {k : OpcodeKey} (hk : t.Has k) (hfree : ∀ j, ¬P j k) :
    ∃ c', c.claim catalog i name k = .ok c' := by
  obtain ⟨slots⟩ := c
  unfold claim
  rcases claimSlot_cases k i slots with
    ⟨hf, hclaim⟩ | ⟨s, j, hf, ho, hclaim⟩ | ⟨s, made, hf, ho, hclaim, _⟩
  · obtain ⟨r, hr, hrk⟩ := hk
    rw [← hc.records] at hr
    obtain ⟨s, hs, rfl⟩ := List.mem_map.mp hr
    have hne := List.find?_eq_none.mp hf s hs
    exact absurd (OpcodeKey.same_iff.mpr hrk) hne
  · have hs := List.mem_of_find?_eq_some hf
    have hP := (hc.owner s hs j).mp ho
    rw [find?_key hf] at hP
    exact absurd hP (hfree j)
  · exact ⟨⟨made⟩, by rw [hclaim]⟩

theorem claimAll_succeeds (catalog : List Family) (i : Nat) (name : String) (hc : c.Claims t P)
    (ht : t.KeysDistinct) {ks : List OpcodeKey} (hks : ∀ k ∈ ks, t.Has k ∧ ∀ j, ¬P j k)
    (hnodup : ks.Nodup) : ∃ c', claimAll catalog i name c ks = .ok c' := by
  induction ks generalizing c P with
  | nil => exact ⟨c, rfl⟩
  | cons k ks ih =>
    obtain ⟨hk, hks⟩ := List.forall_mem_cons.mp hks
    obtain ⟨hfresh, hnodup⟩ := List.nodup_cons.mp hnodup
    obtain ⟨c₁, h₁⟩ := claim_succeeds catalog i name hc hk.1 hk.2
    have hfree : ∀ l ∈ ks, t.Has l ∧ ∀ j, ¬(P j l ∨ (j = i ∧ l = k)) := by
      refine fun l hl => ⟨(hks l hl).1, fun j h => ?_⟩
      rcases h with h | ⟨_, rfl⟩
      · exact (hks l hl).2 j h
      · exact hfresh hl
    obtain ⟨c₂, h₂⟩ := ih (claim_claims h₁ hc ht) hfree hnodup
    exact ⟨c₂, bind_eq_ok.mpr ⟨c₁, h₁, h₂⟩⟩

theorem assignFrom_succeeds (catalog : List Family) (index : Nat) (hc : c.Claims t P)
    (ht : t.KeysDistinct) {fs : List Family}
    (hfs : ∀ f ∈ fs, ∀ k ∈ f.keys, t.Has k ∧ ∀ j, ¬P j k)
    (hnodup : (fs.flatMap Family.keys).Nodup) :
    ∃ c', assignFrom catalog index c fs = .ok c' := by
  induction fs generalizing c P index with
  | nil => exact ⟨c, rfl⟩
  | cons f fs ih =>
    obtain ⟨hf, hfs⟩ := List.forall_mem_cons.mp hfs
    rw [List.flatMap_cons] at hnodup
    obtain ⟨hkeys, hrest, hdisjoint⟩ := List.nodup_append.mp hnodup
    obtain ⟨c₁, h₁⟩ := claimAll_succeeds catalog index f.name hc ht hf hkeys
    have hfree : ∀ g ∈ fs, ∀ k ∈ g.keys, t.Has k ∧ ∀ j, ¬(P j k ∨ (j = index ∧ k ∈ f.keys)) := by
      refine fun g hg k hk => ⟨(hfs g hg k hk).1, fun j h => ?_⟩
      rcases h with h | ⟨_, hkf⟩
      · exact (hfs g hg k hk).2 j h
      · exact hdisjoint k hkf k (List.mem_flatMap.mpr ⟨g, hg, hk⟩) rfl
    obtain ⟨c₂, h₂⟩ := ih (index + 1) (claimAll_claims h₁ hc ht) hfree hrest
    exact ⟨c₂, bind_eq_ok.mpr ⟨c₁, h₁, h₂⟩⟩

/-- **A catalog can be assigned exactly when the table has all its keys and none occurs twice.** -/
theorem assign_succeeds (ht : t.KeysDistinct) :
    (∃ c, assign catalog t = .ok c) ↔
      (∀ f ∈ catalog, ∀ k ∈ f.keys, t.Has k) ∧ (catalog.flatMap Family.keys).Nodup := by
  constructor
  · rintro ⟨c, hc⟩
    refine ⟨fun f hf k hk => ?_, assign_nodup hc ht⟩
    obtain ⟨i, hi⟩ := List.mem_iff_getElem?.mp hf
    have hclaims := assign_claims hc ht
    obtain ⟨s, hs, hsk⟩ := hclaims.found i k ⟨f, hi, hk⟩
    refine ⟨s.record, ?_, hsk⟩
    rw [← hclaims.records]
    exact List.mem_map_of_mem hs
  · rintro ⟨hkeys, hnodup⟩
    exact assignFrom_succeeds catalog 0 (ofTable_claims t) ht
      (fun f hf k hk => ⟨hkeys f hf k hk, fun _ => id⟩) hnodup

end ClaimedTable

/-! ## 3. The records of a family -/

/-- The records that a table has under the keys of a family, in table order. -/
def Table.recordsOf (t : Table) (f : Family) : List Record :=
  t.records.filter (fun r => f.keys.contains r.key)

namespace ClaimedTable

variable {t : Table} {c : ClaimedTable} {catalog : List Family}

/-- **The members of a family are the records of its keys.** -/
theorem Claims.members_eq (h : c.Claims t (Claimant catalog)) {i : Nat} {f : Family}
    (hf : catalog[i]? = some f) : c.members i = t.recordsOf f := by
  have howner : ∀ s ∈ c.slots, (s.owner == some i) = f.keys.contains s.record.key := by
    intro s hs
    rw [Bool.eq_iff_iff, beq_iff_eq, h.owner s hs i, List.contains_iff_mem]
    constructor
    · rintro ⟨g, hg, hk⟩
      cases hf.symm.trans hg
      exact hk
    · exact fun hk => ⟨f, hf, hk⟩
  unfold members Table.recordsOf
  rw [← h.records, List.filter_map, List.filter_congr howner]
  rfl

/-- The keys of a family's members are its keys. -/
theorem Claims.members_keys (h : c.Claims t (Claimant catalog)) (ht : t.KeysDistinct)
    (hnodup : (catalog.flatMap Family.keys).Nodup) {i : Nat} {f : Family}
    (hf : catalog[i]? = some f) : ((c.members i).map Record.key).Perm f.keys := by
  have hkeys : f.keys.Nodup := (List.nodup_flatMap.mp hnodup).1 f (List.mem_of_getElem? hf)
  have hmembers : ((c.members i).map Record.key).Nodup := by
    rw [h.members_eq hf]
    exact List.pairwise_map.mpr (List.Pairwise.filter _ ht)
  refine (List.perm_ext_iff_of_nodup hmembers hkeys).mpr fun k => ?_
  rw [List.mem_map]
  constructor
  · rintro ⟨r, hr, rfl⟩
    obtain ⟨_, g, hg, hk⟩ := h.mem_members.mp hr
    cases hf.symm.trans hg
    exact hk
  · intro hk
    obtain ⟨s, hs, rfl⟩ := h.found i k ⟨f, hf, hk⟩
    refine ⟨s.record, h.mem_members.mpr ⟨?_, f, hf, hk⟩, rfl⟩
    rw [← h.records]
    exact List.mem_map_of_mem hs

/-- Slots with owners below a bound, and those without, are all the slots. -/
theorem slots_perm {n : Nat} {slots : List Slot} (h : ∀ s ∈ slots, ∀ i, s.owner = some i → i < n) :
    ((List.range n).flatMap (fun i => slots.filter (fun s => s.owner == some i)) ++
      slots.filter (fun s => s.owner.isNone)).Perm slots := by
  induction n generalizing slots with
  | zero =>
    have hnone : ∀ s ∈ slots, s.owner.isNone = true := by
      intro s hs
      cases ho : s.owner with
      | none => rfl
      | some i => exact absurd (h s hs i ho) (Nat.not_lt_zero i)
    rw [List.range_zero, List.flatMap_nil, List.nil_append, List.filter_eq_self.mpr hnone]
  | succ n ih =>
    -- the slots of the last owner are taken out, the others are left to the induction
    have hbelow : ∀ s ∈ slots.filter (fun s => !(s.owner == some n)), ∀ i,
        s.owner = some i → i < n := by
      intro s hs i ho
      obtain ⟨hs, hne⟩ := List.mem_filter.mp hs
      have hlt := h s hs i ho
      have hin : i ≠ n := by
        intro hin
        rw [ho, hin] at hne
        simp at hne
      omega
    have hrest := ih hbelow
    have hothers : ∀ i ∈ List.range n,
        (slots.filter (fun s => !(s.owner == some n))).filter (fun s => s.owner == some i) =
          slots.filter (fun s => s.owner == some i) := by
      intro i hi
      have hne : i ≠ n := Nat.ne_of_lt (List.mem_range.mp hi)
      rw [List.filter_filter]
      refine List.filter_congr fun s _ => ?_
      cases ho : s.owner with
      | none => rfl
      | some j =>
        by_cases hj : j = i
        · subst hj
          simp [hne]
        · simp [hj]
    have hnone : (slots.filter (fun s => !(s.owner == some n))).filter (fun s => s.owner.isNone) =
        slots.filter (fun s => s.owner.isNone) := by
      rw [List.filter_filter]
      refine List.filter_congr fun s _ => ?_
      cases s.owner <;> rfl
    rw [List.flatMap_congr hothers, hnone] at hrest
    rw [List.range_succ, List.flatMap_append, List.flatMap_singleton, List.append_assoc]
    refine List.Perm.trans ?_ (List.filter_append_perm (fun s => s.owner == some n) slots)
    refine List.Perm.trans ?_ (hrest.append_left _)
    rw [← List.append_assoc, ← List.append_assoc]
    exact List.perm_append_comm.append_right _

/-- **The members of all families and the unclaimed records are all the records.** -/
theorem Claims.perm (h : c.Claims t (Claimant catalog)) :
    ((List.range catalog.length).flatMap c.members ++ c.unclaimed).Perm t.records := by
  have hbound : ∀ s ∈ c.slots, ∀ i, s.owner = some i → i < catalog.length := by
    intro s hs i ho
    obtain ⟨f, hf, _⟩ := (h.owner s hs i).mp ho
    exact (List.getElem?_eq_some_iff.mp hf).1
  have hperm := (slots_perm hbound).map (fun s => s.record)
  rw [List.map_append, List.map_flatMap, h.records] at hperm
  exact hperm

end ClaimedTable

/-! ## 4. Loading -/

/-- **Loading partitions the table.** The records that a text gives stand in strictly ascending table
    order, each under its own key of one of the two pages and longer than its page byte; and there is
    one for each entry of the two pages, that carries what the entry says. A catalog can be loaded
    with the text exactly when every key of every family is in the table and no key occurs twice
    within a family or across families. Then the members of a family have the family's keys, in
    ascending order, and the members of all families together with the unclaimed records are the
    records of the table, each once. -/
theorem load_partitions {text : String} {t : Table} (h : (Table.ofText text).result = .ok t) :
    (∃ d, TableDocument.ofText text = .ok d ∧
      (d.plain.map Prod.fst).Nodup ∧ (d.paged.map Prod.fst).Nodup ∧
      ∃ rs rs', List.Forall₂ (Record.IsOf none) d.plain rs ∧
        List.Forall₂ (Record.IsOf (some secondPage)) d.paged rs' ∧ t.records.Perm (rs ++ rs')) ∧
    t.records.Pairwise (fun r s => r.key.Precedes s.key) ∧
    (∀ r ∈ t.records, (r.key.page = none ∨ r.key.page = some secondPage) ∧
      r.key.pageLength < r.length.toNat) ∧
    (∀ k r, t.find? k = some r ↔ r ∈ t.records ∧ r.key = k) ∧
    ∀ catalog : List Family,
      ((∃ c, (ClaimedTable.load text catalog).result = .ok c) ↔
        (∀ f ∈ catalog, ∀ k ∈ f.keys, ∃ r ∈ t.records, r.key = k) ∧
          (catalog.flatMap Family.keys).Nodup) ∧
      ∀ c, (ClaimedTable.load text catalog).result = .ok c →
        (∀ i f, catalog[i]? = some f →
          ((c.members i).map Record.key).Perm f.keys ∧
            (c.members i).Pairwise (fun r s => r.key.Precedes s.key)) ∧
        ((List.range catalog.length).flatMap c.members ++ c.unclaimed).Perm t.records ∧
        ((List.range catalog.length).flatMap c.members ++ c.unclaimed).Nodup := by
  obtain ⟨d, hd, hdoc⟩ := Table.ofText_eq_ok.mp h
  have hdistinct := Table.ofDocument_keysDistinct hdoc
  have hascending := Table.ofDocument_ascending hdoc
  have hnodup : t.records.Nodup := hdistinct.imp fun hne he => hne (congrArg Record.key he)
  have hprecedes : ∀ rs : List Record, (∀ r ∈ rs, r ∈ t.records) →
      rs.Pairwise (fun r s => r.key.rank < s.key.rank) →
      rs.Pairwise (fun r s => r.key.Precedes s.key) := by
    intro rs hrs hasc
    refine hasc.imp_of_mem fun hr hs hlt => ?_
    exact OpcodeKey.precedes_of_rank (Table.ofDocument_onPage hdoc (hrs _ hr))
      (Table.ofDocument_onPage hdoc (hrs _ hs)) hlt
  refine ⟨?_, hprecedes t.records (fun _ => id) hascending, fun r hr =>
    ⟨Table.ofDocument_onPage hdoc hr, Table.ofDocument_length hdoc hr⟩, fun k r => ?_,
    fun catalog => ⟨?_, fun c hc => ?_⟩⟩
  · obtain ⟨hplain, hpaged⟩ := Table.ofDocument_names_nodup hdoc
    obtain ⟨rs, rs', hrs, hrs', hperm, _⟩ := Table.ofDocument_perm hdoc
    exact ⟨d, hd, hplain, hpaged, rs, rs', hrs.imp fun _ _ hr => hr.isOf.1,
      hrs'.imp fun _ _ hr => hr.isOf.1, hperm⟩
  · constructor
    · intro hr
      exact ⟨List.mem_of_find?_eq_some hr, Table.find?_key hr⟩
    · rintro ⟨hr, rfl⟩
      exact Table.find?_of_mem hdistinct hr
  · rw [load_result h]
    exact ClaimedTable.assign_succeeds hdistinct
  · obtain ⟨t', ht', hdistinct', hascending', hclaims, hkeys⟩ := claims_of_load hc
    cases h.symm.trans ht'
    refine ⟨fun i f hf => ⟨hclaims.members_keys hdistinct hkeys hf, ?_⟩, hclaims.perm,
      hclaims.perm.nodup_iff.mpr hnodup⟩
    exact hprecedes _ (fun r hr => (hclaims.mem_members.mp hr).1)
      (hclaims.members_ascending hascending i)

/-- A table whose keys are respelled is loaded with the families of NOP and SCF. They have a record
    each, and the record of the second page is left. -/
theorem load_partitions_respelledRows :
    (Table.ofText (respelledRows "-")).result = .ok (respelledRecords .unaffected) ∧
    ∃ c, (ClaimedTable.load (respelledRows "-") twoFamilies).result = .ok c ∧
      (∀ i f, twoFamilies[i]? = some f → ((c.members i).map Record.key).Perm f.keys) ∧
      ((List.range twoFamilies.length).flatMap c.members ++ c.unclaimed).Perm
        (respelledRecords .unaffected).records := by
  obtain ⟨_, _, _, _, hload⟩ := load_partitions ofText_respelledRows.1
  obtain ⟨hiff, hmembers⟩ := hload twoFamilies
  have hkeys : ∀ f ∈ twoFamilies, ∀ k ∈ f.keys,
      ∃ r ∈ (respelledRecords .unaffected).records, r.key = k := by
    intro f hf k hk
    have hmem : k ∈ twoFamilies.flatMap Family.keys := List.mem_flatMap.mpr ⟨f, hf, hk⟩
    rw [twoFamilies_keys, List.mem_pair] at hmem
    rcases hmem with rfl | rfl
    · exact ⟨_, List.mem_cons_self, rfl⟩
    · exact ⟨_, List.mem_cons_of_mem _ List.mem_cons_self, rfl⟩
  have hnodup : (twoFamilies.flatMap Family.keys).Nodup := by
    rw [twoFamilies_keys]
    decide
  obtain ⟨c, hc⟩ := hiff.mpr ⟨hkeys, hnodup⟩
  obtain ⟨hfamilies, hperm, _⟩ := hmembers c hc
  exact ⟨ofText_respelledRows.1, c, hc, fun i f hf => (hfamilies i f hf).1, hperm⟩

end Sm83Codegen
