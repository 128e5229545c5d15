import Sm83Codegen.Proofs.Selection

/-!
# What a generation reads of its table

Of the records of a table, a generation reads those that its catalog claims. Two tables that have
the same records under the claimed keys give the same texts, or the same fault, in whatever order
and spelling the records are written and whatever else the tables hold.

* `Related` -- two computations that fail alike, or succeed with related results;
* `ClaimedTable.AgreeOn`, `claim_related` -- a claim reads the slot of its key and changes no other;
  `assign_related` -- so does a whole catalog;
* `members_eq` -- the members of a family are the same, and in the same order;
* `generate_congr` -- the generations are the same.
-/

namespace Sm83Codegen

/-! ## 1. Computations that end alike -/

section Related

variable {ε α β γ δ : Type}

/-- Two computations fail with the same fault, or both succeed with related results. -/
def Related (R : α → β → Prop) : Except ε α → Except ε β → Prop
  | .ok a, .ok b => R a b
  | .error e, .error e' => e = e'
  | _, _ => False

/-- What continues related results alike ends alike. -/
theorem Related.bind {R : α → β → Prop} {S : γ → δ → Prop} {x : Except ε α} {y : Except ε β}
    {f : α → Except ε γ} {g : β → Except ε δ} (h : Related R x y)
    (hfg : ∀ a b, R a b → Related S (f a) (g b)) : Related S (x >>= f) (y >>= g) := by
  cases x with
  | error e =>
    cases y with
    | error e' => exact h
    | ok b => exact h.elim
  | ok a =>
    cases y with
    | error e' => exact h.elim
    | ok b => exact hfg a b h

end Related

/-! ## 2. Claims -/

/-- Two tables have the same records under some keys. -/
def Table.AgreeOn (K : OpcodeKey → Prop) (t t' : Table) : Prop := ∀ k, K k → t.find? k = t'.find? k

namespace ClaimedTable

variable {K : OpcodeKey → Prop} {catalog : List Family} {c c' : ClaimedTable}

/-- Two claimed tables have the same slots under some keys. -/
def AgreeOn (K : OpcodeKey → Prop) (c c' : ClaimedTable) : Prop := ∀ k, K k → c.find? k = c'.find? k

theorem find?_cons (s : Slot) (slots : List Slot) (k : OpcodeKey) :
    find? ⟨s :: slots⟩ k = if s.record.key = k then some s else find? ⟨slots⟩ k := by
  show (s :: slots).find? (fun s => s.record.key.same k) = _
  by_cases hk : s.record.key = k
  · rw [if_pos hk]
    exact List.find?_cons_of_pos (OpcodeKey.same_iff.mpr hk)
  · have hne : ¬s.record.key.same k = true := fun h => hk (OpcodeKey.same_iff.mp h)
    rw [if_neg hk]
    exact List.find?_cons_of_neg hne

/-- **What a claim does is decided by the slot of its key**, and no other slot is changed. -/
theorem claimSlot_cases (k : OpcodeKey) (i : Nat) (slots : List Slot) :
    (find? ⟨slots⟩ k = none ∧ claimSlot k i slots = .missing) ∨
    (∃ s j, find? ⟨slots⟩ k = some s ∧ s.owner = some j ∧ claimSlot k i slots = .taken j) ∨
    ∃ s slots', find? ⟨slots⟩ k = some s ∧ s.owner = none ∧ claimSlot k i slots = .made slots' ∧
      ∀ l, find? ⟨slots'⟩ l =
        if k = l then some { s with owner := some i } else find? ⟨slots⟩ l := by
  induction slots with
  | nil => exact .inl ⟨rfl, rfl⟩
  | cons s slots ih =>
    rw [find?_cons]
    unfold claimSlot
    by_cases hk : s.record.key = k
    · rw [if_pos hk, if_pos (OpcodeKey.same_iff.mpr hk)]
      cases ho : s.owner with
      | some j => exact .inr (.inl ⟨s, j, rfl, ho, rfl⟩)
      | none =>
        refine .inr (.inr ⟨s, _, rfl, ho, rfl, fun l => ?_⟩)
        rw [find?_cons, find?_cons]
        show (if s.record.key = l then _ else _) = _
        rw [hk]
        split
        · rfl
        · rfl
    · have hne : ¬s.record.key.same k = true := fun h => hk (OpcodeKey.same_iff.mp h)
      rw [if_neg hk, if_neg hne]
      rcases ih with ⟨hf, hc⟩ | ⟨s', j, hf, ho, hc⟩ | ⟨s', slots', hf, ho, hc, hl⟩
      · exact .inl ⟨hf, by rw [hc]⟩
      · exact .inr (.inl ⟨s', j, hf, ho, by rw [hc]⟩)
      · refine .inr (.inr ⟨s', s :: slots', hf, ho, by rw [hc], fun l => ?_⟩)
        rw [find?_cons, find?_cons, hl l]
        by_cases hsl : s.record.key = l
        · rw [if_pos hsl, if_pos hsl, if_neg fun hkl => hk (hsl.trans hkl.symm)]
        · rw [if_neg hsl, if_neg hsl]

/-- Claims of one key are related, if the tables agree on it. -/
theorem claim_related (h : c.AgreeOn K c') (i : Nat) (name : String) {k : OpcodeKey} (hk : K k) :
    Related (AgreeOn K) (c.claim catalog i name k) (c'.claim catalog i name k) := by
  obtain ⟨slots⟩ := c
  obtain ⟨slots'⟩ := c'
  have hkk : find? ⟨slots⟩ k = find? ⟨slots'⟩ k := h k hk
  unfold claim
  rcases claimSlot_cases k i slots with
      ⟨hf, hc⟩ | ⟨s, j, hf, ho, hc⟩ | ⟨s, made, hf, ho, hc, hl⟩ <;>
    rcases claimSlot_cases k i slots' with
      ⟨hf', hc'⟩ | ⟨s', j', hf', ho', hc'⟩ | ⟨s', made', hf', ho', hc', hl'⟩ <;>
    rw [hf, hf'] at hkk <;> cases hkk <;> dsimp only <;> rw [hc, hc']
  · exact rfl
  · cases ho.symm.trans ho'
    exact rfl
  · cases ho.symm.trans ho'
  · cases ho.symm.trans ho'
  · intro l hkl
    rw [hl l, hl' l, h l hkl]

theorem claimAll_related (h : c.AgreeOn K c') (i : Nat) (name : String) {ks : List OpcodeKey}
    (hks : ∀ k ∈ ks, K k) :
    Related (AgreeOn K) (claimAll catalog i name c ks) (claimAll catalog i name c' ks) := by
  induction ks generalizing c c' with
  | nil => exact h
  | cons k ks ih =>
    unfold claimAll
    exact (claim_related h i name (hks k List.mem_cons_self)).bind fun _ _ h =>
      ih h fun l hl => hks l (List.mem_cons_of_mem _ hl)

theorem assignFrom_related (h : c.AgreeOn K c') {fs : List Family} (index : Nat)
    (hfs : ∀ f ∈ fs, ∀ k ∈ f.keys, K k) :
    Related (AgreeOn K) (assignFrom catalog index c fs) (assignFrom catalog index c' fs) := by
  induction fs generalizing c c' index with
  | nil => exact h
  | cons f fs ih =>
    unfold assignFrom
    exact (claimAll_related h index f.name (hfs f List.mem_cons_self)).bind fun _ _ h =>
      ih h (index + 1) fun g hg => hfs g (List.mem_cons_of_mem _ hg)

theorem find?_ofTable (t : Table) (k : OpcodeKey) :
    (ofTable t).find? k = (t.find? k).map (fun r => ⟨r, none⟩) := by
  unfold ofTable find? Table.find?
  rw [List.find?_map]
  rfl

/-- **A catalog is assigned alike to tables that agree on what it claims.** -/
theorem assign_related {t t' : Table} (h : t.AgreeOn (Claimed catalog) t') :
    Related (AgreeOn (Claimed catalog)) (assign catalog t) (assign catalog t') := by
  refine assignFrom_related (fun k hk => ?_) 0 fun f hf k hk => ⟨f, hf, hk⟩
  rw [find?_ofTable, find?_ofTable, h k hk]

end ClaimedTable

/-! ## 3. Members -/

/-- Ascending records are determined by which they are. -/
theorem eq_of_mem_iff_of_ascending {rs rs' : List Record}
    (h : rs.Pairwise (fun r s => r.key.rank < s.key.rank))
    (h' : rs'.Pairwise (fun r s => r.key.rank < s.key.rank)) (hiff : ∀ r, r ∈ rs ↔ r ∈ rs') :
    rs = rs' := by
  have hirrefl : Std.Irrefl (fun r s : Record => r.key.rank < s.key.rank) :=
    ⟨fun _ => Nat.lt_irrefl _⟩
  have hantisymm : Std.Antisymm (fun r s : Record => r.key.rank < s.key.rank) :=
    ⟨fun _ _ hrs hsr => absurd hsr (Nat.lt_asymm hrs)⟩
  exact List.Pairwise.eq_of_mem_iff h h' hiff

/-- A record of a table is what its key finds. -/
theorem Table.mem_records_iff {t : Table} (h : t.KeysDistinct) {r : Record} :
    r ∈ t.records ↔ t.find? r.key = some r :=
  ⟨fun hr => Table.find?_of_mem h hr, fun hr => List.mem_of_find?_eq_some hr⟩

section Agreeing

variable {text text' : String} {catalog : List Family} {t t' : Table} {c c' : ClaimedTable}

/-- **Tables that agree on what a catalog claims give its families the same members.** -/
theorem members_eq (ht : (Table.ofText text).result = .ok t)
    (ht' : (Table.ofText text').result = .ok t') (h : t.AgreeOn (Claimed catalog) t')
    (hc : (ClaimedTable.load text catalog).result = .ok c)
    (hc' : (ClaimedTable.load text' catalog).result = .ok c') (i : Nat) :
    c.members i = c'.members i := by
  obtain ⟨u, hu, hdistinct, hasc, hclaims, _⟩ := claims_of_load hc
  obtain ⟨u', hu', hdistinct', hasc', hclaims', _⟩ := claims_of_load hc'
  cases ht.symm.trans hu
  cases ht'.symm.trans hu'
  refine eq_of_mem_iff_of_ascending (hclaims.members_ascending hasc i)
    (hclaims'.members_ascending hasc' i) fun r => ?_
  rw [hclaims.mem_members, hclaims'.mem_members, Table.mem_records_iff hdistinct,
    Table.mem_records_iff hdistinct']
  refine and_congr_left fun ⟨f, hf, hk⟩ => ?_
  rw [h r.key ⟨f, List.mem_of_getElem? hf, hk⟩]

/-- The families merge from their members only. -/
theorem descriptorsFrom_congr (h : ∀ i, c.members i = c'.members i) (index : Nat)
    (fs : List Family) : descriptorsFrom c index fs = descriptorsFrom c' index fs := by
  induction fs generalizing index with
  | nil => rfl
  | cons f fs ih =>
    unfold descriptorsFrom
    rw [h index, ih]

theorem descriptorsOfText_congr (ht : (Table.ofText text).result = .ok t)
    (ht' : (Table.ofText text').result = .ok t') (h : t.AgreeOn (Claimed catalog) t') :
    descriptorsOfText text catalog = descriptorsOfText text' catalog := by
  have hrelated := ClaimedTable.assign_related h
  rw [← load_result ht, ← load_result ht'] at hrelated
  unfold descriptorsOfText
  cases hc : (ClaimedTable.load text catalog).result with
  | error e =>
    cases hc' : (ClaimedTable.load text' catalog).result with
    | error e' =>
      rw [hc, hc'] at hrelated
      rw [show e = e' from hrelated]
    | ok c' =>
      rw [hc, hc'] at hrelated
      exact hrelated.elim
  | ok c =>
    cases hc' : (ClaimedTable.load text' catalog).result with
    | error e' =>
      rw [hc, hc'] at hrelated
      exact hrelated.elim
    | ok c' =>
      have hds : descriptorsOf c catalog = descriptorsOf c' catalog :=
        descriptorsFrom_congr (members_eq ht ht' h hc hc') 0 catalog
      show (checkCatalog catalog >>= fun _ => (descriptorsOf c catalog).result) = _
      rw [hds]
      rfl

/-! ## 4. Generations -/

/-- **A generation reads the claimed records of its table and nothing else.** If two tables have the
    same records under the keys that a catalog claims, or lack the same, then the generations for
    all opcodes, or for some that are claimed, give the same texts or the same fault. -/
theorem generate_congr {s : Selection} (ht : (Table.ofText text).result = .ok t)
    (ht' : (Table.ofText text').result = .ok t')
    (hs : s.OfClaimed catalog) (h : t.AgreeOn (Claimed catalog) t') :
    (generate text catalog s).result = (generate text' catalog s).result := by
  rw [generate_result, generate_result, assemble_ofClaimed hs, assemble_ofClaimed hs,
    descriptorsOfText_congr ht ht' h]

end Agreeing

/-- NOP and SCF in another order and other spellings, beside an opcode that nothing claims, with the
    state of one flag of NOP. -/
def respelledRows (state : String) : String :=
  "[\x7b\"0x00\":[\"NOP\",1,[4],[],[\"-\",\"-\",\"" ++ state ++ "\",\"-\"]]," ++
    "\" 37 \":[\"SCF\",1,[4],[],[\"-\",\"0\",\"0\",\"1\"]]\x7d," ++
    "\x7b\"cb:00\":[\"RLC\",2,[8],[],[\"Z\",\"0\",\"0\",\"C\"]]\x7d]"

/-- The records of this table, with the effect of NOP on that flag. -/
def respelledRecords (effect : FlagEffect) : Table :=
  ⟨[⟨.plain 0x00, "NOP", [], { h := effect }, 1, ⟨4, none⟩⟩,
    ⟨.plain 0x37, "SCF", [], { n := .fixedFalse, h := .fixedFalse, c := .fixedTrue }, 1, ⟨4, none⟩⟩,
    ⟨.paged 0x00, "RLC", [],
      { z := .computed none, n := .fixedFalse, h := .fixedFalse, c := .computed none }, 2,
      ⟨8, none⟩⟩]⟩

set_option maxRecDepth 10000 in
theorem ofText_respelledRows :
    (Table.ofText (respelledRows "-")).result = .ok (respelledRecords .unaffected) ∧
    (Table.ofText (respelledRows "H")).result = .ok (respelledRecords (.computed none)) := by
  have piece (cs : List Char) : (String.ofList cs).toList = cs := String.toList_ofList
  constructor
  · refine (Table.ofText_of_toList (toList_append_of (toList_append_of (toList_append_of
      (toList_append_of (piece _) (piece _)) (piece _)) (piece _)) (piece _))).trans ?_
    decide
  · refine (Table.ofText_of_toList (toList_append_of (toList_append_of (toList_append_of
      (toList_append_of (piece _) (piece _)) (piece _)) (piece _)) (piece _))).trans ?_
    decide

theorem twoFamilies_keys :
    twoFamilies.flatMap Family.keys = [.plain 0x00, .plain 0x37] := by decide

theorem agreeOn_respelledRecords (effect : FlagEffect) :
    (threeRecords effect).AgreeOn (Claimed twoFamilies) (respelledRecords effect) := by
  rintro k ⟨f, hf, hk⟩
  have hmem : k ∈ twoFamilies.flatMap Family.keys := List.mem_flatMap.mpr ⟨f, hf, hk⟩
  rw [twoFamilies_keys] at hmem
  rcases List.mem_cons.mp hmem with rfl | hmem
  · rfl
  · rw [List.mem_singleton.mp hmem]
    rfl

/-- The two tables give the same generation for SCF, and the same fault where NOP computes a flag
    that nothing can compute. -/
theorem generate_congr_respelledRows :
    (generate (threeRows "-") twoFamilies (.ofKeys [.plain 0x37])).result =
      (generate (respelledRows "-") twoFamilies (.ofKeys [.plain 0x37])).result ∧
    (generate (threeRows "H") twoFamilies {}).result =
      (generate (respelledRows "H") twoFamilies {}).result := by
  constructor
  · refine generate_congr ofText_threeRows.1 ofText_respelledRows.1 ?_ (agreeOn_respelledRecords _)
    refine Selection.ofClaimed_ofKeys ?_
    show ∀ k ∈ [OpcodeKey.plain 0x37], ∃ f ∈ twoFamilies, k ∈ f.keys
    intro k hk
    rw [List.mem_singleton.mp hk, ← List.mem_flatMap, twoFamilies_keys]
    decide
  · exact generate_congr ofText_threeRows.2 ofText_respelledRows.2
      (Selection.ofClaimed_all twoFamilies) (agreeOn_respelledRecords _)

end Sm83Codegen
