import Mathlib.Data.List.Nodup
import Sm83Codegen.Machine.Core
import Sm83Codegen.Proofs.Merging
import Sm83Codegen.Proofs.Records

/-!
# Claims and descriptors

From the records of a table to the descriptors of a core: which family has claimed a record, and
which descriptor it ended up in.

* `ClaimedTable.Claims` -- the invariant of claiming: a slot belongs to the family that has its key;
  `claim_claims` is the step, `assign_claims` the whole run over a catalog;
* `descriptorsFrom_eq_ok` -- the family at a place becomes the descriptor at that place;
* `Assembly` -- what holds between a table, a catalog and the descriptors made from them;
  `assembly_of_document` -- it holds whenever descriptors are made at all;
* `routineNames_nodup` -- the routines of a checked catalog have different names.
-/

namespace Sm83Codegen

open Logged (bind_eq_ok)

/-! ## 1. Claims -/

namespace ClaimedTable

/-- A claim that is made changes the owner of one slot: a free one, with the claimed key. -/
theorem claimSlot_made {key : OpcodeKey} {i : Nat} {slots slots' : List Slot}
    (h : claimSlot key i slots = .made slots') :
    ∃ before s after, slots = before ++ s :: after ∧ s.record.key = key ∧ s.owner = none ∧
      slots' = before ++ { s with owner := some i } :: after := by
  induction slots generalizing slots' with
  | nil => cases h
  | cons s rest ih =>
    unfold claimSlot at h
    split at h
    · next hk =>
      split at h
      · cases h
      · next ho =>
        cases h
        exact ⟨[], s, rest, rfl, OpcodeKey.same_iff.mp hk, ho, rfl⟩
    · split at h
      · next rest' hr =>
        cases h
        obtain ⟨before, t, after, rfl, hk, ho, rfl⟩ := ih hr
        exact ⟨s :: before, t, after, rfl, hk, ho, rfl⟩
      · next hne => exact absurd h (hne slots')

/-- The invariant of claiming. `P` says which family, by its place, has which key: the slots hold
    the records of the table, a slot belongs to the family that has its key, and every key that a
    family has stands in a slot. -/
structure Claims (t : Table) (P : Nat → OpcodeKey → Prop) (c : ClaimedTable) : Prop where
  records : c.slots.map (·.record) = t.records
  owner : ∀ s ∈ c.slots, ∀ i, s.owner = some i ↔ P i s.record.key
  found : ∀ i k, P i k → ∃ s ∈ c.slots, s.record.key = k

theorem ofTable_claims (t : Table) : (ofTable t).Claims t (fun _ _ => False) where
  records := by simp [ofTable, Function.comp_def]
  owner := by
    intro s hs i
    obtain ⟨r, _, rfl⟩ := List.mem_map.mp hs
    simp
  found := fun _ _ h => h.elim

variable {t : Table} {P : Nat → OpcodeKey → Prop} {c c' : ClaimedTable}

theorem Claims.congr (h : c.Claims t P) {Q : Nat → OpcodeKey → Prop} (hPQ : ∀ i k, P i k ↔ Q i k) :
    c.Claims t Q where
  records := h.records
  owner := fun s hs i => (h.owner s hs i).trans (hPQ i _)
  found := fun i k hk => h.found i k ((hPQ i k).mpr hk)

/-- No two slots have the same key. -/
theorem Claims.keysDistinct (h : c.Claims t P) (ht : t.KeysDistinct) :
    c.slots.Pairwise (fun s s' => s.record.key ≠ s'.record.key) := by
  unfold Table.KeysDistinct at ht
  rw [← h.records, List.pairwise_map] at ht
  exact ht

/-- A key belongs to one family at most. -/
theorem Claims.owner_unique (h : c.Claims t P) {i j : Nat} {k : OpcodeKey}
    (hi : P i k) (hj : P j k) : i = j := by
  obtain ⟨s, hs, rfl⟩ := h.found i k hi
  have hsi := (h.owner s hs i).mpr hi
  have hsj := (h.owner s hs j).mpr hj
  exact Option.some.inj (hsi.symm.trans hsj)

/-- The members of a family are the records of its keys. -/
theorem Claims.mem_members (h : c.Claims t P) {i : Nat} {r : Record} :
    r ∈ c.members i ↔ r ∈ t.records ∧ P i r.key := by
  unfold members
  constructor
  · intro hr
    obtain ⟨s, hs, rfl⟩ := List.mem_map.mp hr
    obtain ⟨hs, ho⟩ := List.mem_filter.mp hs
    refine ⟨?_, (h.owner s hs i).mp (beq_iff_eq.mp ho)⟩
    rw [← h.records]
    exact List.mem_map_of_mem hs
  · rintro ⟨hr, hP⟩
    rw [← h.records] at hr
    obtain ⟨s, hs, rfl⟩ := List.mem_map.mp hr
    have ho := (h.owner s hs i).mpr hP
    exact List.mem_map.mpr ⟨s, List.mem_filter.mpr ⟨hs, beq_iff_eq.mpr ho⟩, rfl⟩

theorem claim_eq_ok {catalog : List Family} {i : Nat} {name : String} {k : OpcodeKey}
    (h : c.claim catalog i name k = .ok c') : claimSlot k i c.slots = .made c'.slots := by
  unfold claim at h
  split at h
  · cases h
  · cases h
  · next hm =>
    cases h
    exact hm

/-- **A claim gives its key to the family**, and to no other. -/
theorem claim_claims {catalog : List Family} {i : Nat} {name : String} {k : OpcodeKey}
    (h : c.claim catalog i name k = .ok c') (hc : c.Claims t P) (ht : t.KeysDistinct) :
    c'.Claims t (fun j l => P j l ∨ (j = i ∧ l = k)) := by
  obtain ⟨before, s, after, hs, rfl, ho, hs'⟩ := claimSlot_made (claim_eq_ok h)
  have hd := hc.keysDistinct ht
  rw [hs] at hd
  obtain ⟨_, hafter, hbefore⟩ := List.pairwise_append.mp hd
  obtain ⟨hafter, _⟩ := List.pairwise_cons.mp hafter
  -- a slot beside the claimed one has another key, so the claim does not touch it
  have hother : ∀ s' ∈ c.slots, s'.record.key ≠ s.record.key → ∀ j, s'.owner = some j ↔
      P j s'.record.key ∨ (j = i ∧ s'.record.key = s.record.key) := by
    intro s' hs' hne j
    rw [hc.owner s' hs' j, or_iff_left (fun h => hne h.2)]
  refine ⟨?_, ?_, ?_⟩
  · rw [← hc.records, hs, hs']
    simp
  · intro s' hm j
    rw [hs'] at hm
    rcases List.mem_append.mp hm with hm | hm
    · exact hother s' (by rw [hs]; exact List.mem_append_left _ hm)
        (hbefore s' hm s List.mem_cons_self) j
    · rcases List.mem_cons.mp hm with rfl | hm
      · have hfree : ¬ P j s.record.key := fun hP => by
          have := (hc.owner s (by rw [hs]; simp) j).mpr hP
          rw [ho] at this
          cases this
        show some i = some j ↔ P j s.record.key ∨ (j = i ∧ s.record.key = s.record.key)
        rw [or_iff_right hfree, Option.some_inj, and_iff_left rfl, eq_comm]
      · exact hother s' (by rw [hs]; exact List.mem_append_right _ (List.mem_cons_of_mem _ hm))
          (hafter s' hm).symm j
  · have hkeys : c'.slots.map (fun s => s.record.key) = c.slots.map (fun s => s.record.key) := by
      rw [hs, hs']
      simp
    have hmem : ∀ l, (∃ s' ∈ c.slots, s'.record.key = l) → ∃ s' ∈ c'.slots, s'.record.key = l := by
      intro l hl
      rw [← List.mem_map] at hl ⊢
      rw [hkeys]
      exact hl
    rintro j l (hP | ⟨_, rfl⟩)
    · exact hmem l (hc.found j l hP)
    · exact hmem _ ⟨s, by rw [hs]; simp, rfl⟩

theorem claimAll_claims {catalog : List Family} {i : Nat} {name : String} {ks : List OpcodeKey}
    (h : claimAll catalog i name c ks = .ok c') (hc : c.Claims t P) (ht : t.KeysDistinct) :
    c'.Claims t (fun j l => P j l ∨ (j = i ∧ l ∈ ks)) := by
  induction ks generalizing c P with
  | nil =>
    cases h
    exact hc.congr fun j l => by simp
  | cons k ks ih =>
    unfold claimAll at h
    obtain ⟨c₁, h₁, h⟩ := bind_eq_ok.mp h
    refine (ih h (claim_claims h₁ hc ht)).congr fun j l => ?_
    rw [List.mem_cons]
    tauto

theorem assignFrom_claims {catalog fs : List Family} {index : Nat}
    (h : assignFrom catalog index c fs = .ok c') (hc : c.Claims t P) (ht : t.KeysDistinct) :
    c'.Claims t (fun j l => P j l ∨ ∃ f n, j = index + n ∧ fs[n]? = some f ∧ l ∈ f.keys) := by
  induction fs generalizing c P index with
  | nil =>
    cases h
    exact hc.congr fun j l => by simp
  | cons f fs ih =>
    unfold assignFrom at h
    obtain ⟨c₁, h₁, h⟩ := bind_eq_ok.mp h
    refine (ih h (claimAll_claims h₁ hc ht)).congr fun j l => ?_
    constructor
    · rintro ((hP | ⟨rfl, hl⟩) | ⟨g, n, rfl, hn, hl⟩)
      · exact .inl hP
      · exact .inr ⟨f, 0, rfl, rfl, hl⟩
      · exact .inr ⟨g, n + 1, by omega, hn, hl⟩
    · rintro (hP | ⟨g, n, rfl, hn, hl⟩)
      · exact .inl (.inl hP)
      · cases n with
        | zero =>
          cases hn
          exact .inl (.inr ⟨rfl, hl⟩)
        | succ n => exact .inr ⟨g, n, by omega, hn, hl⟩

/-- **After a catalog is assigned, a slot belongs to the family that has its key.** -/
theorem assign_claims {catalog : List Family} (h : assign catalog t = .ok c')
    (ht : t.KeysDistinct) :
    c'.Claims t (fun i k => ∃ f, catalog[i]? = some f ∧ k ∈ f.keys) := by
  refine (assignFrom_claims h (ofTable_claims t) ht).congr fun j l => ?_
  constructor
  · rintro (hP | ⟨f, n, rfl, hn, hl⟩)
    · exact hP.elim
    · exact ⟨f, by rw [Nat.zero_add]; exact hn, hl⟩
  · rintro ⟨f, hj, hl⟩
    exact .inr ⟨f, j, (Nat.zero_add j).symm, hj, hl⟩

end ClaimedTable

/-! ## 2. Descriptors -/

theorem mergeReported_result (f : Family) (rs : List Record) :
    (mergeReported f rs).result = (Descriptor.merge f rs).result := by
  unfold mergeReported
  rw [Logged.result_bind]
  cases (Descriptor.merge f rs).result <;> rfl

/-- The family at a place merges to the descriptor at that place. -/
theorem descriptorsFrom_eq_ok {c : ClaimedTable} {index : Nat} {fs : List Family}
    {ds : List Descriptor} (h : (descriptorsFrom c index fs).result = .ok ds) :
    ds.length = fs.length ∧ ∀ (i : Nat) (d : Descriptor), ds[i]? = some d →
      ∃ f, fs[i]? = some f ∧ (Descriptor.merge f (c.members (index + i))).result = .ok d := by
  induction fs generalizing index ds with
  | nil =>
    cases h
    exact ⟨rfl, fun i d hd => by simp at hd⟩
  | cons f fs ih =>
    unfold descriptorsFrom at h
    simp only [Logged.result_bind, bind_eq_ok, mergeReported_result] at h
    obtain ⟨d₁, h₁, ds₁, h₂, h⟩ := h
    cases h
    obtain ⟨hlen, hrest⟩ := ih h₂
    refine ⟨by rw [List.length_cons, List.length_cons, hlen], fun i d hd => ?_⟩
    cases i with
    | zero =>
      cases hd
      exact ⟨f, rfl, h₁⟩
    | succ i =>
      obtain ⟨g, hg, hm⟩ := hrest i d hd
      exact ⟨g, hg, by rw [← Nat.add_assoc, Nat.add_right_comm]; exact hm⟩

/-- The family at a place of a catalog has a key. -/
def Claimant (catalog : List Family) (i : Nat) (k : OpcodeKey) : Prop :=
  ∃ f, catalog[i]? = some f ∧ k ∈ f.keys

/-- Descriptors that stand where their families do, made from a claimed table. -/
structure Placed (t : Table) (c : ClaimedTable) (catalog : List Family) (ds : List Descriptor) :
    Prop where
  distinct : t.KeysDistinct
  claims : c.Claims t (Claimant catalog)
  length : ds.length = catalog.length
  merged : ∀ (i : Nat) (d : Descriptor), ds[i]? = some d →
    ∃ f, catalog[i]? = some f ∧ d.Merged f (c.members i)

theorem placed_of_claims {t : Table} {c : ClaimedTable} {catalog : List Family}
    {ds : List Descriptor} (ht : t.KeysDistinct) (hc : c.Claims t (Claimant catalog))
    (h : (descriptorsOf c catalog).result = .ok ds) : Placed t c catalog ds := by
  obtain ⟨hlen, hds⟩ := descriptorsFrom_eq_ok h
  simp only [Nat.zero_add] at hds
  refine ⟨ht, hc, hlen, fun i d hi => ?_⟩
  obtain ⟨f, hf, hmerge⟩ := hds i d hi
  exact ⟨f, hf, merge_eq_ok hmerge⟩

theorem placed_of_document {document : TableDocument} {catalog : List Family}
    {ds : List Descriptor} (h : descriptorsOfDocument document catalog = .ok ds) :
    ∃ t c, Table.ofDocument document = .ok t ∧ Placed t c catalog ds := by
  unfold descriptorsOfDocument at h
  obtain ⟨t, ht, h⟩ := bind_eq_ok.mp h
  obtain ⟨c, hc, h⟩ := bind_eq_ok.mp h
  have hd := Table.ofDocument_keysDistinct ht
  exact ⟨t, c, ht, placed_of_claims hd (ClaimedTable.assign_claims hc hd) h⟩

namespace Placed

variable {t : Table} {c : ClaimedTable} {catalog : List Family} {ds : List Descriptor}
  {i : Nat} {d : Descriptor} {m : Member}

/-- A member of the descriptor at a place has a record of the table, claimed by the family there. -/
theorem member (h : Placed t c catalog ds) (hd : ds[i]? = some d) (hm : m ∈ d.members) :
    m.record ∈ t.records ∧ catalog[i]? = some d.family ∧ m.key ∈ d.family.keys := by
  obtain ⟨f, hf, hmg⟩ := h.merged i d hd
  have hr : m.record ∈ c.members i := by
    rw [← hmg.records]
    exact List.mem_map_of_mem hm
  obtain ⟨hr, g, hg, hk⟩ := h.claims.mem_members.mp hr
  cases hf.symm.trans hg
  rw [hmg.family]
  exact ⟨hr, hf, hk⟩

/-- The key of a family has a member, in the descriptor at the family's place. -/
theorem exists_member (h : Placed t c catalog ds) {f : Family} (hf : catalog[i]? = some f)
    {k : OpcodeKey} (hk : k ∈ f.keys) :
    ∃ d, ds[i]? = some d ∧ d.family = f ∧ ∃ m ∈ d.members, m.key = k := by
  have hlt : i < ds.length := by
    rw [h.length]
    exact (List.getElem?_eq_some_iff.mp hf).1
  have hd : ds[i]? = some ds[i] := List.getElem?_eq_getElem hlt
  obtain ⟨g, hg, hmg⟩ := h.merged i ds[i] hd
  cases hf.symm.trans hg
  obtain ⟨s, hs, rfl⟩ := h.claims.found i k ⟨f, hf, hk⟩
  have hr : s.record ∈ c.members i := h.claims.mem_members.mpr
    ⟨by rw [← h.claims.records]; exact List.mem_map_of_mem hs, f, hf, hk⟩
  rw [← hmg.records] at hr
  obtain ⟨m, hm, hmr⟩ := List.mem_map.mp hr
  exact ⟨ds[i], hd, hmg.family, m, hm, by rw [Member.key, hmr]⟩

/-- Members with one key stand at one place, and are one. -/
theorem member_unique (h : Placed t c catalog ds) {j : Nat} {d' : Descriptor} {m' : Member}
    (hd : ds[i]? = some d) (hd' : ds[j]? = some d') (hm : m ∈ d.members) (hm' : m' ∈ d'.members)
    (he : m.key = m'.key) : i = j ∧ d = d' ∧ m = m' := by
  obtain ⟨hr, hf, hk⟩ := h.member hd hm
  obtain ⟨hr', hf', hk'⟩ := h.member hd' hm'
  rw [← he] at hk'
  have hij : i = j := h.claims.owner_unique ⟨_, hf, hk⟩ ⟨_, hf', hk'⟩
  subst hij
  cases hd.symm.trans hd'
  have h₁ := Table.find?_of_mem h.distinct hr
  have h₂ := Table.find?_of_mem h.distinct hr'
  rw [show m'.record.key = m.record.key from he.symm] at h₂
  have hrec : m.record = m'.record := Option.some.inj (h₁.symm.trans h₂)
  obtain ⟨f, _, hmg⟩ := h.merged i d hd
  have hof := hmg.members m hm
  have hof' := hmg.members m' hm'
  rw [← hrec] at hof'
  exact ⟨rfl, rfl, Except.ok.inj (hof.symm.trans hof')⟩

end Placed

/-- What holds between a table, a catalog and the descriptors made from them. -/
structure Assembly (t : Table) (catalog : List Family) (ds : List Descriptor) : Prop where
  /-- The descriptors are the families of the catalog, in order. -/
  families : ds.map Descriptor.family = catalog
  /-- A descriptor is its family, merged. -/
  merged : ∀ d ∈ ds, ∃ rs, d.Merged d.family rs
  /-- The record of a member is the one that the table has for its key. -/
  recorded : ∀ d ∈ ds, ∀ m ∈ d.members, t.find? m.key = some m.record
  /-- A member has a key of its family. -/
  claimed : ∀ d ∈ ds, ∀ m ∈ d.members, m.key ∈ d.family.keys
  /-- Every key of a family has a member. -/
  complete : ∀ f ∈ catalog, ∀ k ∈ f.keys, ∃ d ∈ ds, d.family = f ∧ ∃ m ∈ d.members, m.key = k
  /-- A key has one member in one descriptor. -/
  unique : ∀ d ∈ ds, ∀ d' ∈ ds, ∀ m ∈ d.members, ∀ m' ∈ d'.members, m.key = m'.key →
    d = d' ∧ m = m'

theorem Assembly.family_mem {t : Table} {catalog : List Family} {ds : List Descriptor}
    (h : Assembly t catalog ds) {d : Descriptor} (hd : d ∈ ds) : d.family ∈ catalog := by
  rw [← h.families]
  exact List.mem_map_of_mem hd

theorem Placed.assembly {t : Table} {c : ClaimedTable} {catalog : List Family}
    {ds : List Descriptor} (h : Placed t c catalog ds) : Assembly t catalog ds := by
  refine ⟨?_, ?_, ?_, ?_, ?_, ?_⟩
  · refine List.ext_getElem (by rw [List.length_map, h.length]) fun i hi hi' => ?_
    rw [List.length_map] at hi
    obtain ⟨f, hf, hmg⟩ := h.merged i ds[i] (List.getElem?_eq_getElem hi)
    rw [List.getElem_map, hmg.family, (List.getElem?_eq_some_iff.mp hf).2]
  · intro d hd
    obtain ⟨i, hi⟩ := List.mem_iff_getElem?.mp hd
    obtain ⟨f, hf, hmg⟩ := h.merged i d hi
    rw [hmg.family]
    exact ⟨_, hmg⟩
  · intro d hd m hm
    obtain ⟨i, hi⟩ := List.mem_iff_getElem?.mp hd
    exact Table.find?_of_mem h.distinct (h.member hi hm).1
  · intro d hd m hm
    obtain ⟨i, hi⟩ := List.mem_iff_getElem?.mp hd
    exact (h.member hi hm).2.2
  · intro f hf k hk
    obtain ⟨i, hi⟩ := List.mem_iff_getElem?.mp hf
    obtain ⟨d, hd, hfam, hm⟩ := h.exists_member hi hk
    exact ⟨d, List.mem_of_getElem? hd, hfam, hm⟩
  · intro d hd d' hd' m hm m' hm' he
    obtain ⟨i, hi⟩ := List.mem_iff_getElem?.mp hd
    obtain ⟨j, hj⟩ := List.mem_iff_getElem?.mp hd'
    exact (h.member_unique hi hj hm hm' he).2

/-- **Descriptors that are made from a document fit its table and the catalog.** -/
theorem assembly_of_document {document : TableDocument} {catalog : List Family}
    {ds : List Descriptor} (h : descriptorsOfDocument document catalog = .ok ds) :
    ∃ t, Table.ofDocument document = .ok t ∧ Assembly t catalog ds := by
  obtain ⟨t, c, ht, hp⟩ := placed_of_document h
  exact ⟨t, ht, hp.assembly⟩

/-! ## 3. Names -/

theorem checkFamilies_nodup {names encoded : List String} {fs : List Family}
    (h : checkFamilies names encoded fs = .ok ()) :
    (fs.map Family.encodedName).Nodup ∧ ∀ f ∈ fs, f.encodedName ∉ encoded := by
  induction fs generalizing names encoded with
  | nil => exact ⟨List.nodup_nil, fun f hf => absurd hf List.not_mem_nil⟩
  | cons f fs ih =>
    unfold checkFamilies at h
    split at h
    · cases h
    · next hfresh =>
      split at h
      · cases h
      · obtain ⟨hnodup, hencoded⟩ := ih h
        rw [Bool.or_eq_true, not_or] at hfresh
        refine ⟨?_, fun g hg => ?_⟩
        · rw [List.map_cons, List.nodup_cons]
          refine ⟨fun hmem => ?_, hnodup⟩
          obtain ⟨g, hg, he⟩ := List.mem_map.mp hmem
          exact hencoded g hg (List.mem_cons.mpr (.inl he))
        · rcases List.mem_cons.mp hg with rfl | hg
          · exact fun hmem => hfresh.2 (List.contains_iff_mem.mpr hmem)
          · exact fun hmem => hencoded g hg (List.mem_cons_of_mem _ hmem)

/-- **The routines of a checked catalog have different names.** -/
theorem Assembly.routineNames_nodup {t : Table} {catalog : List Family} {ds : List Descriptor}
    (h : Assembly t catalog ds) (hc : checkCatalog catalog = .ok ()) :
    (ds.map Descriptor.routineName).Nodup := by
  have hnodup := (checkFamilies_nodup hc).1
  rw [← h.families, List.map_map] at hnodup
  have hname : ds.map Descriptor.routineName =
      (ds.map (Family.encodedName ∘ Descriptor.family)).map ("execute_" ++ ·) := by
    rw [List.map_map]
    rfl
  rw [hname]
  exact hnodup.map fun _ _ hab => (String.append_right_inj _).mp hab

end Sm83Codegen
