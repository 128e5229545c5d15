import Mathlib.Data.List.Sort
import Sm83Codegen.Proofs.Claims
import Sm83Codegen.Proofs.Expectations

/-!
# What is generated

A generation that succeeds has made a section for every family of the catalog, in order: a routine,
and for every selected opcode a branch and its tests, in ascending order of the keys. The texts are
the parts of these sections, one after the other.

* `Piece`, `Section`, `Generated.ofSections` -- what is generated, by opcode and by family;
* `assign_nodup` -- a key that is claimed is claimed once;
* `Prepared` -- what there is before anything is generated;
* `Descriptor.sectionOf`, `generateFamilies_eq_ok` -- the section that a descriptor gives;
* `testCase_made`, `testBlock_made` -- a case and the tests of an opcode;
* `Section.IsOf`, `Prepared.isOf` -- what a section has to do with its family;
* `assemble_eq_ok` -- a whole generation; `assemble_ofTable` -- one from a table that is known;
* `Table.ofText_of_toList` -- the table of a text that is given by its characters;
* `threeRows`, `twoFamilies` -- a small generation.
-/

namespace Sm83Codegen

open Logged (bind_eq_ok)

/-! ## 1. Pieces and sections -/

/-- What is generated for an opcode. -/
structure Piece where
  key : OpcodeKey
  branch : Branch
  tests : TestBlock
  deriving DecidableEq, Repr

/-- What is generated for a family. -/
structure Section where
  routine : Routine
  pieces : List Piece
  deriving DecidableEq, Repr

/-- The parts of sections, one after the other. A family without opcodes has no routine. -/
def Generated.ofSections (xs : List Section) : Generated where
  branches := xs.flatMap (fun x => x.pieces.map Piece.branch)
  routines := (xs.filter (fun x => !x.pieces.isEmpty)).map Section.routine
  tests := xs.flatMap (fun x => x.pieces.map Piece.tests)

/-- A section with the pieces of some opcodes. -/
def Section.restrict (selects : OpcodeKey → Bool) (x : Section) : Section :=
  { x with pieces := x.pieces.filter (fun p => selects p.key) }

/-- The bytes that a branch fixes. -/
def Branch.opcode (b : Branch) : List UInt8 :=
  b.pattern.filterMap (fun p => match p with
    | .byte b => some b
    | _ => none)

/-- A test block is of an opcode: it has its title, and its cases run it. -/
def TestBlock.IsOf (k : OpcodeKey) (b : TestBlock) : Prop :=
  (∃ assembly, b.title = assembly ++ " [" ++ k.display ++ "]") ∧ ∀ c ∈ b.cases, k.bytes <+: c.bytes

/-- The name of the routine of a family. -/
def Family.routineName (f : Family) : String := "execute_" ++ f.encodedName

/-- The keys of a family that are selected, in ascending order. -/
def Family.selected (s : Selection) (f : Family) : List OpcodeKey :=
  (f.keys.filter s.selects).mergeSort (fun k l => k.rank ≤ l.rank)

/-- A section is of a family: it has the family's routine, and a piece for every selected key, in
    ascending order, that calls the routine. -/
structure Section.IsOf (s : Selection) (f : Family) (x : Section) : Prop where
  routine : x.routine.name = f.routineName
  keys : x.pieces.map Piece.key = f.selected s
  branches : ∀ p ∈ x.pieces, p.branch.opcode = p.key.bytes ∧ p.branch.routine = f.routineName
  tests : ∀ p ∈ x.pieces, p.tests.IsOf p.key

/-! ## 2. Ascending keys -/

/-- Keys in strictly ascending table order. -/
def Ascending (ks : List OpcodeKey) : Prop := ks.Pairwise (fun k l => k.rank < l.rank)

/-- Ascending keys are determined by which they are. -/
theorem Ascending.eq_of_mem_iff {ks ls : List OpcodeKey} (hks : Ascending ks)
    (hls : Ascending ls) (h : ∀ k, k ∈ ks ↔ k ∈ ls) : ks = ls := by
  have hirrefl : Std.Irrefl (fun k l : OpcodeKey => k.rank < l.rank) :=
    ⟨fun _ => Nat.lt_irrefl _⟩
  have hantisymm : Std.Antisymm (fun k l : OpcodeKey => k.rank < l.rank) :=
    ⟨fun _ _ hkl hlk => absurd hlk (Nat.lt_asymm hkl)⟩
  exact List.Pairwise.eq_of_mem_iff hks hls h

theorem Family.mem_selected {s : Selection} {f : Family} {k : OpcodeKey} :
    k ∈ f.selected s ↔ k ∈ f.keys ∧ s.selects k = true := by
  unfold Family.selected
  rw [List.mem_mergeSort, List.mem_filter]

theorem Family.selected_nodup {s : Selection} {f : Family} (h : f.keys.Nodup) :
    (f.selected s).Nodup :=
  (List.mergeSort_perm _ _).nodup_iff.mpr (h.filter _)

/-- The selected keys of a family ascend, if it has each of its keys once. -/
theorem Family.selected_ascending {s : Selection} {f : Family} (h : f.keys.Nodup) :
    Ascending (f.selected s) := by
  have hsorted : (f.selected s).Pairwise (fun k l => decide (k.rank ≤ l.rank) = true) :=
    List.pairwise_mergeSort
      (fun a b c hab hbc => by simp only [decide_eq_true_eq] at *; omega)
      (fun a b => by simp only [Bool.or_eq_true, decide_eq_true_eq]; omega) _
  refine (hsorted.and (Family.selected_nodup h)).imp fun ⟨hle, hne⟩ => ?_
  exact Nat.lt_of_le_of_ne (of_decide_eq_true hle) fun he => hne (OpcodeKey.rank_inj he)

/-! ## 3. A key is claimed once -/

namespace ClaimedTable

variable {t : Table} {P : Nat → OpcodeKey → Prop} {c c' : ClaimedTable} {catalog : List Family}

/-- A key that can be claimed belongs to no family. -/
theorem claim_free {i : Nat} {name : String} {k : OpcodeKey}
    (h : c.claim catalog i name k = .ok c') (hc : c.Claims t P) (j : Nat) : ¬P j k := by
  obtain ⟨before, s, after, hs, rfl, ho, _⟩ := claimSlot_made (claim_eq_ok h)
  have hmem : s ∈ c.slots := by
    rw [hs]
    exact List.mem_append_right _ List.mem_cons_self
  intro hP
  have hown := (hc.owner s hmem j).mpr hP
  rw [ho] at hown
  cases hown

theorem claimAll_nodup {i : Nat} {name : String} {ks : List OpcodeKey}
    (h : claimAll catalog i name c ks = .ok c') (hc : c.Claims t P) (ht : t.KeysDistinct) :
    ks.Nodup ∧ ∀ k ∈ ks, ∀ j, ¬P j k := by
  induction ks generalizing c P with
  | nil => exact ⟨List.nodup_nil, fun k hk => absurd hk List.not_mem_nil⟩
  | cons k ks ih =>
    unfold claimAll at h
    obtain ⟨c₁, h₁, h⟩ := bind_eq_ok.mp h
    obtain ⟨hnodup, hfree⟩ := ih h (claim_claims h₁ hc ht)
    refine ⟨List.nodup_cons.mpr ⟨fun hk => hfree k hk i (.inr ⟨rfl, rfl⟩), hnodup⟩, ?_⟩
    intro l hl j hP
    rcases List.mem_cons.mp hl with rfl | hl
    · exact claim_free h₁ hc j hP
    · exact hfree l hl j (.inl hP)

theorem assignFrom_nodup {fs : List Family} {index : Nat}
    (h : assignFrom catalog index c fs = .ok c') (hc : c.Claims t P) (ht : t.KeysDistinct) :
    (fs.flatMap Family.keys).Nodup ∧ ∀ f ∈ fs, ∀ k ∈ f.keys, ∀ j, ¬P j k := by
  induction fs generalizing c P index with
  | nil => exact ⟨List.nodup_nil, fun f hf => absurd hf List.not_mem_nil⟩
  | cons f fs ih =>
    unfold assignFrom at h
    obtain ⟨c₁, h₁, h⟩ := bind_eq_ok.mp h
    obtain ⟨hnodup, hfree⟩ := claimAll_nodup h₁ hc ht
    obtain ⟨hrest, hfrees⟩ := ih h (claimAll_claims h₁ hc ht)
    refine ⟨?_, fun g hg k hk j hP => ?_⟩
    · rw [List.flatMap_cons]
      refine List.nodup_append.mpr ⟨hnodup, hrest, fun k hk l hl hkl => ?_⟩
      obtain ⟨g, hg, hl⟩ := List.mem_flatMap.mp hl
      exact hfrees g hg l hl index (.inr ⟨rfl, hkl ▸ hk⟩)
    · rcases List.mem_cons.mp hg with rfl | hg
      · exact hfree k hk j hP
      · exact hfrees g hg k hk j (.inl hP)

/-- **A key that a catalog claims is claimed once**, by one family. -/
theorem assign_nodup (h : assign catalog t = .ok c') (ht : t.KeysDistinct) :
    (catalog.flatMap Family.keys).Nodup :=
  (assignFrom_nodup h (ofTable_claims t) ht).1

/-- The members of a family stand in ascending order. -/
theorem Claims.members_ascending (h : c.Claims t P)
    (ht : t.records.Pairwise (fun r s => r.key.rank < s.key.rank)) (i : Nat) :
    (c.members i).Pairwise (fun r s => r.key.rank < s.key.rank) := by
  rw [← h.records] at ht
  exact ht.sublist (List.filter_sublist.map _)

end ClaimedTable

/-! ## 4. Descriptors -/

/-- The family at a place merges to a descriptor. -/
theorem descriptorsFrom_merges {c : ClaimedTable} {index : Nat} {fs : List Family}
    {ds : List Descriptor} (h : (descriptorsFrom c index fs).result = .ok ds) {i : Nat} {f : Family}
    (hf : fs[i]? = some f) :
    ∃ d ∈ ds, (Descriptor.merge f (c.members (index + i))).result = .ok d := by
  obtain ⟨hlen, hds⟩ := descriptorsFrom_eq_ok h
  have hlt : i < ds.length := by
    rw [hlen]
    exact (List.getElem?_eq_some_iff.mp hf).1
  obtain ⟨g, hg, hmerge⟩ := hds i ds[i] (List.getElem?_eq_getElem hlt)
  cases hf.symm.trans hg
  exact ⟨ds[i], List.getElem_mem hlt, hmerge⟩

/-- A descriptor is merged from records for a family. -/
theorem mem_descriptorsFrom {c : ClaimedTable} {index : Nat} {fs : List Family}
    {ds : List Descriptor} (h : (descriptorsFrom c index fs).result = .ok ds) {d : Descriptor}
    (hd : d ∈ ds) : ∃ f ∈ fs, ∃ rs, (Descriptor.merge f rs).result = .ok d := by
  obtain ⟨i, hi⟩ := List.mem_iff_getElem?.mp hd
  obtain ⟨f, hf, hmerge⟩ := (descriptorsFrom_eq_ok h).2 i d hi
  exact ⟨f, List.mem_of_getElem? hf, _, hmerge⟩

/-- What a catalog and the text of a table give before anything is generated. -/
structure Prepared (text : String) (catalog : List Family) (c : ClaimedTable)
    (ds : List Descriptor) : Prop where
  checked : checkCatalog catalog = .ok ()
  loaded : (ClaimedTable.load text catalog).result = .ok c
  merged : (descriptorsOf c catalog).result = .ok ds

/-- A text writes the table of the document that it reads as. -/
theorem Table.ofText_eq_ok {text : String} {t : Table} :
    (Table.ofText text).result = .ok t ↔
      ∃ document, TableDocument.ofText text = .ok document ∧ Table.ofDocument document = .ok t := by
  unfold Table.ofText
  cases TableDocument.ofText text with
  | error fault =>
    constructor
    · intro h
      cases h
    · rintro ⟨_, h, _⟩
      cases h
  | ok document =>
    simp only [Logged.result_bind, Logged.result_lift, bind_eq_ok]
    constructor
    · rintro ⟨t', ht, _, _, h⟩
      cases h
      exact ⟨document, rfl, ht⟩
    · rintro ⟨_, h, ht⟩
      cases h
      exact ⟨t, ht, (), rfl, rfl⟩

/-- A table is loaded when a text writes it and the catalog can claim it. -/
theorem load_eq_ok {text : String} {catalog : List Family} {c : ClaimedTable} :
    (ClaimedTable.load text catalog).result = .ok c ↔
      ∃ t, (Table.ofText text).result = .ok t ∧ ClaimedTable.assign catalog t = .ok c := by
  unfold ClaimedTable.load
  rw [Logged.result_bind, bind_eq_ok]
  rfl

theorem load_result {text : String} {catalog : List Family} {t : Table}
    (ht : (Table.ofText text).result = .ok t) :
    (ClaimedTable.load text catalog).result = ClaimedTable.assign catalog t := by
  unfold ClaimedTable.load
  rw [Logged.result_bind, ht]
  rfl

/-- A table that is loaded is claimed by the catalog, and its records ascend. -/
theorem claims_of_load {text : String} {catalog : List Family} {c : ClaimedTable}
    (h : (ClaimedTable.load text catalog).result = .ok c) :
    ∃ t : Table, (Table.ofText text).result = .ok t ∧ t.KeysDistinct ∧
      t.records.Pairwise (fun r s => r.key.rank < s.key.rank) ∧
      c.Claims t (Claimant catalog) ∧ (catalog.flatMap Family.keys).Nodup := by
  obtain ⟨t, ht, hassign⟩ := load_eq_ok.mp h
  obtain ⟨_, _, hdoc⟩ := Table.ofText_eq_ok.mp ht
  have hdistinct := Table.ofDocument_keysDistinct hdoc
  exact ⟨t, ht, hdistinct, Table.ofDocument_ascending hdoc,
    ClaimedTable.assign_claims hassign hdistinct, ClaimedTable.assign_nodup hassign hdistinct⟩

namespace Prepared

variable {text : String} {catalog : List Family} {c : ClaimedTable} {ds : List Descriptor}

/-- The descriptors stand where their families do. -/
theorem placed (h : Prepared text catalog c ds) :
    ∃ t, (Table.ofText text).result = .ok t ∧
      t.records.Pairwise (fun r s => r.key.rank < s.key.rank) ∧
      (catalog.flatMap Family.keys).Nodup ∧ Placed t c catalog ds := by
  obtain ⟨t, ht, hdistinct, hasc, hclaims, hnodup⟩ := claims_of_load h.loaded
  exact ⟨t, ht, hasc, hnodup, placed_of_claims hdistinct hclaims h.merged⟩

theorem families (h : Prepared text catalog c ds) : ds.map Descriptor.family = catalog := by
  obtain ⟨_, _, _, _, hplaced⟩ := h.placed
  exact hplaced.assembly.families

theorem family_mem (h : Prepared text catalog c ds) {d : Descriptor} (hd : d ∈ ds) :
    d.family ∈ catalog := by
  obtain ⟨_, _, _, _, hplaced⟩ := h.placed
  exact hplaced.assembly.family_mem hd

/-- The keys of a descriptor's members are those of its family, in ascending order. -/
theorem memberKeys (h : Prepared text catalog c ds) {d : Descriptor} (hd : d ∈ ds) :
    d.family.keys.Nodup ∧ Ascending (d.members.map Member.key) ∧
      ∀ k, k ∈ d.members.map Member.key ↔ k ∈ d.family.keys := by
  obtain ⟨t, _, hasc, hnodup, hplaced⟩ := h.placed
  obtain ⟨i, hi⟩ := List.mem_iff_getElem?.mp hd
  obtain ⟨f, hf, hmerged⟩ := hplaced.merged i d hi
  cases hmerged.family
  refine ⟨(List.nodup_flatMap.mp hnodup).1 _ (List.mem_of_getElem? hf), ?_, fun k => ⟨?_, ?_⟩⟩
  · have hmembers := hplaced.claims.members_ascending hasc i
    rw [← hmerged.records, List.pairwise_map] at hmembers
    exact List.pairwise_map.mpr hmembers
  · intro hk
    obtain ⟨m, hm, rfl⟩ := List.mem_map.mp hk
    exact (hplaced.member hi hm).2.2
  · intro hk
    obtain ⟨d', hd', _, m, hm, rfl⟩ := hplaced.exists_member hf hk
    cases hi.symm.trans hd'
    exact List.mem_map_of_mem hm

theorem routineNames_nodup (h : Prepared text catalog c ds) :
    (catalog.map Family.routineName).Nodup := by
  obtain ⟨_, _, _, _, hplaced⟩ := h.placed
  rw [← h.families, List.map_map]
  exact hplaced.assembly.routineNames_nodup h.checked

theorem members_ne_nil (h : Prepared text catalog c ds) {d : Descriptor} (hd : d ∈ ds)
    (hkeys : d.family.keys ≠ []) : d.members ≠ [] := by
  intro hnil
  obtain ⟨k, hk⟩ := List.exists_mem_of_ne_nil _ hkeys
  have hmember := ((h.memberKeys hd).2.2 k).mpr hk
  rw [hnil] at hmember
  cases hmember

end Prepared

/-! ## 5. Families -/

namespace Descriptor

/-- The test block of a member, where its fixtures give one. -/
def block (d : Descriptor) (m : Member) : TestBlock :=
  match (d.testBlock m).result with
  | .ok b => b
  | .error _ => ⟨"", []⟩

/-- What is generated for a member. -/
def piece (d : Descriptor) (m : Member) : Piece := ⟨m.key, d.branch m, d.block m⟩

/-- What is generated for a family and a selection. -/
def sectionOf (s : Selection) (d : Descriptor) : Section :=
  ⟨d.routine, (d.members.filter (fun m => s.selects m.key)).map d.piece⟩

/-- A family can be generated: its flags can be computed, and each selected member has tests. -/
structure Ready (s : Selection) (d : Descriptor) : Prop where
  flags : d.checkFlags = .ok ()
  tests : ∀ m ∈ d.members, s.selects m.key = true → ∃ b, (d.testBlock m).result = .ok b

end Descriptor

theorem block_eq {d : Descriptor} {m : Member} {b : TestBlock}
    (h : (d.testBlock m).result = .ok b) :
    d.block m = b := by
  unfold Descriptor.block
  rw [h]

theorem collect_testBlock {d : Descriptor} {ms : List Member} {bs : List TestBlock} :
    (Logged.collect d.testBlock ms).result = .ok bs ↔
      (∀ m ∈ ms, ∃ b, (d.testBlock m).result = .ok b) ∧ bs = ms.map d.block := by
  rw [Logged.collect_eq_ok]
  induction ms generalizing bs with
  | nil => simp
  | cons m ms ih =>
    cases bs with
    | nil => simp
    | cons b bs =>
      rw [List.map_cons, List.map_cons, List.cons.injEq, ih, List.forall_mem_cons, List.map_cons,
        List.cons.injEq]
      constructor
      · rintro ⟨hb, hms, hbs⟩
        exact ⟨⟨⟨b, hb⟩, hms⟩, (block_eq hb).symm, hbs⟩
      · rintro ⟨⟨⟨b', hb'⟩, hms⟩, rfl, hbs⟩
        exact ⟨hb'.trans (congrArg _ (block_eq hb').symm), hms, hbs⟩

theorem ofSections_cons (x : Section) (xs : List Section) :
    Generated.ofSections (x :: xs) =
      (Generated.ofSections [x]).append (Generated.ofSections xs) := by
  unfold Generated.ofSections Generated.append
  rw [← List.map_append, ← List.filter_append]
  simp only [List.flatMap_cons, List.flatMap_nil, List.append_nil, List.singleton_append]

/-- What is generated for a family: a piece for each selected member, and the routine if there is
    one. -/
theorem ofSections_sectionOf (s : Selection) (d : Descriptor) :
    Generated.ofSections [d.sectionOf s] =
      let selected := d.members.filter (fun m => s.selects m.key)
      if selected.isEmpty then .empty
      else ⟨selected.map d.branch, [d.routine], selected.map d.block⟩ := by
  unfold Generated.ofSections Descriptor.sectionOf
  cases d.members.filter (fun m => s.selects m.key) with
  | nil => rfl
  | cons m ms => simp [Descriptor.piece, Function.comp_def]

/-- **A family is generated when it is ready**, as its section. -/
theorem generateFamily_eq_ok {s : Selection} {d : Descriptor} {g : Generated} :
    (generateFamily s d).result = .ok g ↔ d.Ready s ∧ g = .ofSections [d.sectionOf s] := by
  have hready : d.Ready s ↔ d.checkFlags = .ok () ∧
      ∀ m ∈ d.members.filter (fun m => s.selects m.key),
        ∃ b, (d.testBlock m).result = .ok b := by
    constructor
    · intro h
      exact ⟨h.flags, fun m hm => h.tests m (List.mem_filter.mp hm).1 (List.mem_filter.mp hm).2⟩
    · intro h
      exact ⟨h.1, fun m hm hs => h.2 m (List.mem_filter.mpr ⟨hm, hs⟩)⟩
  rw [hready, ofSections_sectionOf]
  unfold generateFamily
  rw [Logged.result_bind, Logged.result_lift]
  cases hflags : d.checkFlags with
  | error e =>
    constructor
    · intro h
      cases h
    · rintro ⟨⟨h, _⟩, _⟩
      cases h
  | ok u =>
    show (if (d.members.filter (fun m => s.selects m.key)).isEmpty then _ else _ :
      Logged Generated).result = .ok g ↔ _
    cases hs : d.members.filter (fun m => s.selects m.key) with
    | nil =>
      constructor
      · intro h
        cases h
        exact ⟨⟨rfl, fun m hm => absurd hm List.not_mem_nil⟩, rfl⟩
      · rintro ⟨_, rfl⟩
        rfl
    | cons m ms =>
      rw [if_neg (by simp), Logged.result_bind, bind_eq_ok]
      constructor
      · rintro ⟨bs, hbs, h⟩
        obtain ⟨htests, rfl⟩ := collect_testBlock.mp hbs
        cases h
        exact ⟨⟨rfl, htests⟩, rfl⟩
      · rintro ⟨⟨_, htests⟩, rfl⟩
        exact ⟨_, collect_testBlock.mpr ⟨htests, rfl⟩, rfl⟩

/-- **Families are generated when they all are ready**, as their sections in order. -/
theorem generateFamilies_eq_ok {s : Selection} {ds : List Descriptor} {g : Generated} :
    (generateFamilies s ds).result = .ok g ↔
      (∀ d ∈ ds, d.Ready s) ∧ g = .ofSections (ds.map (Descriptor.sectionOf s)) := by
  induction ds generalizing g with
  | nil =>
    constructor
    · intro h
      cases h
      exact ⟨fun d hd => absurd hd List.not_mem_nil, rfl⟩
    · rintro ⟨_, rfl⟩
      rfl
  | cons d ds ih =>
    unfold generateFamilies
    simp only [Logged.result_bind, bind_eq_ok, generateFamily_eq_ok, ih]
    rw [List.forall_mem_cons, List.map_cons, ofSections_cons (d.sectionOf s) (ds.map _)]
    constructor
    · rintro ⟨_, ⟨hd, rfl⟩, _, ⟨hds, rfl⟩, h⟩
      cases h
      exact ⟨⟨hd, hds⟩, rfl⟩
    · rintro ⟨⟨hd, hds⟩, rfl⟩
      exact ⟨_, ⟨hd, rfl⟩, _, ⟨hds, rfl⟩, rfl⟩

theorem mem_branches {ds : List Descriptor} {s : Selection} {b : Branch} :
    b ∈ (Generated.ofSections (ds.map (Descriptor.sectionOf s))).branches ↔
      ∃ d ∈ ds, ∃ m ∈ d.members, s.selects m.key = true ∧ d.branch m = b := by
  unfold Generated.ofSections Descriptor.sectionOf
  simp [Descriptor.piece, and_assoc]

theorem mem_tests {ds : List Descriptor} {s : Selection} {b : TestBlock} :
    b ∈ (Generated.ofSections (ds.map (Descriptor.sectionOf s))).tests ↔
      ∃ d ∈ ds, ∃ m ∈ d.members, s.selects m.key = true ∧ d.block m = b := by
  unfold Generated.ofSections Descriptor.sectionOf
  simp [Descriptor.piece, and_assoc]

theorem mem_routines {ds : List Descriptor} {s : Selection} {r : Routine} :
    r ∈ (Generated.ofSections (ds.map (Descriptor.sectionOf s))).routines ↔
      ∃ d ∈ ds, (∃ m ∈ d.members, s.selects m.key = true) ∧ d.routine = r := by
  have hpieces : ∀ d : Descriptor, (!(d.sectionOf s).pieces.isEmpty) = true ↔
      ∃ m ∈ d.members, s.selects m.key = true := by
    intro d
    unfold Descriptor.sectionOf
    simp
  unfold Generated.ofSections
  simp only [List.mem_map, List.mem_filter]
  constructor
  · rintro ⟨_, ⟨⟨d, hd, rfl⟩, hm⟩, rfl⟩
    exact ⟨d, hd, (hpieces d).mp hm, rfl⟩
  · rintro ⟨d, hd, hm, rfl⟩
    exact ⟨_, ⟨⟨d, hd, rfl⟩, (hpieces d).mpr hm⟩, rfl⟩

/-! ## 6. Cases -/

section Cases

variable {d : Descriptor} {m : Member} {k : ScenarioKind} {s : Scenario}

/-- **What fixed flags add to a case**: presets and expectations behind those of its scenario, which
    expects nothing else of them. -/
theorem addFixed_made {c c' : Descriptor.CaseState} {e : FlagEffects}
    (h : d.addFixed m k s c e.fixed = .ok c') :
    (∃ ps, c'.presets = c.presets ++ ps ∧
        ∀ p ∈ ps, ∃ F v, (F, v) ∈ e.fixed ∧ p = .flag F (!v)) ∧
      (∃ es, c'.expectations = c.expectations ++ es ∧
        ∀ x ∈ es, ∃ F v, (F, v) ∈ e.fixed ∧ x = .flag F v) ∧
      ∀ F v w, (F, v) ∈ e.fixed → s.expectedOf F = some w → w = v := by
  obtain ⟨hexpected, rfl⟩ := (addFixed_eq_ok (fixed_nodup e)).mp h
  refine ⟨⟨_, rfl, fun p hp => ?_⟩, ⟨_, rfl, fun x hx => ?_⟩,
    fun F v w hF hw => hexpected (F, v) hF w hw⟩
  · unfold negations at hp
    split at hp
    · obtain ⟨⟨F, v⟩, hF, rfl⟩ := List.mem_map.mp hp
      exact ⟨F, v, (List.mem_filter.mp hF).1, rfl⟩
    · exact absurd hp List.not_mem_nil
  · obtain ⟨⟨F, v⟩, hF, rfl⟩ := List.mem_map.mp hx
    exact ⟨F, v, (List.mem_filter.mp hF).1, rfl⟩

/-- **The case of a scenario**, and what was checked before it was made. -/
theorem testCase_made {c : TestCase} (h : d.testCase m k s = .ok c) :
    s.extraBytes.length = m.record.trailing ∧ d.checkRegisters m s.registerUses = .ok () ∧
      ∃ cycles state, d.caseCycles m k s = .ok cycles ∧
        d.addFixed m k s ⟨s.presets, if s.assertsPc then s.expectations
          else s.expectations ++ [.pc (Descriptor.endPc m.record)]⟩ d.flags.fixed = .ok state ∧
        c = ⟨d.caseName m k s, m.key.bytes ++ s.extraBytes, state.presets,
          rankedExpectations state.expectations, cycles⟩ := by
  unfold Descriptor.testCase at h
  split at h
  · cases h
  · next hlength =>
    obtain ⟨_, hregisters, h⟩ := bind_eq_ok.mp h
    obtain ⟨cycles, hcycles, h⟩ := bind_eq_ok.mp h
    obtain ⟨state, hstate, h⟩ := bind_eq_ok.mp h
    cases h
    exact ⟨not_not.mp hlength, hregisters, cycles, state, hcycles, hstate, rfl⟩

/-- The cases of scenarios are those of the ones that are not left out. No two of the scenarios have
    one kind and label, and none has one that was met before. -/
theorem testCases_made {seen : List (ScenarioKind × Option String)}
    {ss : List (ScenarioKind × Scenario)} {cs : List TestCase}
    (h : (d.testCases m seen ss).result = .ok cs) :
    (ss.filter (fun x => !x.2.skip)).map (fun x => d.testCase m x.1 x.2) = cs.map .ok ∧
      (ss.map (fun x => (x.1, x.2.label))).Nodup ∧ ∀ x ∈ ss, (x.1, x.2.label) ∉ seen := by
  induction ss generalizing seen cs with
  | nil =>
    cases h
    exact ⟨rfl, List.nodup_nil, fun x hx => absurd hx List.not_mem_nil⟩
  | cons first ss ih =>
    obtain ⟨k, s⟩ := first
    unfold Descriptor.testCases at h
    split at h
    · cases h
    · next hfresh =>
      -- later scenarios are checked against this one, whether it is left out or not
      have hdistinct {cs : List TestCase}
          (h : (d.testCases m ((k, s.label) :: seen) ss).result = .ok cs) :
          (((k, s) :: ss).map (fun x => (x.1, x.2.label))).Nodup ∧
            ∀ x ∈ (k, s) :: ss, (x.1, x.2.label) ∉ seen := by
        obtain ⟨_, hnodup, hrest⟩ := ih h
        constructor
        · rw [List.map_cons, List.nodup_cons]
          refine ⟨fun hmem => ?_, hnodup⟩
          obtain ⟨x, hx, heq⟩ := List.mem_map.mp hmem
          refine hrest x hx ?_
          rw [heq]
          exact List.mem_cons_self
        · exact List.forall_mem_cons.mpr ⟨fun hmem => hfresh (List.contains_iff_mem.mpr hmem),
            fun x hx hmem => hrest x hx (List.mem_cons_of_mem _ hmem)⟩
      dsimp only at h
      split at h
      · next hskip =>
        simp only [Logged.result_bind, bind_eq_ok] at h
        obtain ⟨_, _, h⟩ := h
        refine ⟨?_, hdistinct h⟩
        rw [List.filter_cons_of_neg (by simp [hskip])]
        exact (ih h).1
      · next hskip =>
        simp only [Logged.result_bind, bind_eq_ok, Logged.result_lift] at h
        obtain ⟨c, hc, rest, hrest, h⟩ := h
        cases h
        refine ⟨?_, hdistinct hrest⟩
        rw [List.filter_cons_of_pos (by simp [hskip]), List.map_cons, List.map_cons, hc,
          (ih hrest).1]

/-- **The tests of an opcode**: a case for each scenario that is not left out, under its title, from
    fixtures that pass the coverage check. -/
theorem testBlock_made {b : TestBlock} (h : (d.testBlock m).result = .ok b) :
    (d.family.fixtures m.operands).error = none ∧ b.title = Descriptor.blockTitle m ∧
      ((d.family.fixtures m.operands).ordered.filter (fun x => !x.2.skip)).map
        (fun x => d.testCase m x.1 x.2) = b.cases.map .ok ∧
      ((d.family.fixtures m.operands).ordered.map (fun x => (x.1, x.2.label))).Nodup ∧
      d.checkCoverage m (d.family.fixtures m.operands) = .ok () := by
  unfold Descriptor.testBlock at h
  dsimp only at h
  split at h
  · cases h
  · next hnone =>
    simp only [Logged.result_bind, Logged.result_lift, bind_eq_ok] at h
    obtain ⟨_, hchecked, cs, hcs, h⟩ := h
    cases h
    obtain ⟨hcases, hnodup, _⟩ := testCases_made hcs
    exact ⟨hnone, rfl, hcases, hnodup, hchecked⟩

/-- The cases of a test block are those of the fixtures. -/
theorem mem_testBlock {b : TestBlock} (h : (d.testBlock m).result = .ok b) {c : TestCase}
    (hc : c ∈ b.cases) :
    ∃ k s, (k, s) ∈ (d.family.fixtures m.operands).ordered ∧ d.testCase m k s = .ok c := by
  obtain ⟨_, _, hcases, _⟩ := testBlock_made h
  have hmem : (.ok c : Except GenerationError TestCase) ∈ b.cases.map .ok := List.mem_map_of_mem hc
  rw [← hcases] at hmem
  obtain ⟨⟨k, s⟩, hs, hcase⟩ := List.mem_map.mp hmem
  exact ⟨k, s, (List.mem_filter.mp hs).1, hcase⟩

/-- The tests of an opcode have its title, and their cases run it. -/
theorem testBlock_isOf {b : TestBlock} (h : (d.testBlock m).result = .ok b) : b.IsOf m.key := by
  obtain ⟨_, htitle, _, _⟩ := testBlock_made h
  refine ⟨⟨m.record.assembly, htitle⟩, fun c hc => ?_⟩
  obtain ⟨_, _, _, hcase⟩ := mem_testBlock h hc
  obtain ⟨_, _, _, _, _, _, rfl⟩ := testCase_made hcase
  exact List.prefix_append _ _

end Cases

/-! ## 7. Sections and their families -/

theorem branch_opcode (d : Descriptor) (m : Member) : (d.branch m).opcode = m.key.bytes := by
  have hoperand : ∀ o : Operand, (operandPattern o).filterMap (fun p => match p with
      | .byte b => some b
      | _ => none) = [] := by
    intro o
    unfold operandPattern
    split <;> rfl
  show (m.key.bytes.map PatternItem.byte ++ m.operands.flatMap operandPattern).filterMap _ = _
  rw [List.filterMap_append, List.filterMap_map, List.filterMap_flatMap,
    List.flatMap_eq_nil_iff.mpr fun o _ => hoperand o, List.append_nil]
  exact List.filterMap_some

namespace Prepared

variable {text : String} {catalog : List Family} {c : ClaimedTable} {ds : List Descriptor}
  {s : Selection}

/-- The section of a descriptor is of its family. -/
theorem isOf (h : Prepared text catalog c ds) {d : Descriptor} (hd : d ∈ ds) (hr : d.Ready s) :
    (d.sectionOf s).IsOf s d.family := by
  have hmem : ∀ p ∈ (d.sectionOf s).pieces, ∃ m ∈ d.members, s.selects m.key = true ∧
      d.piece m = p := by
    intro p hp
    obtain ⟨m, hm, rfl⟩ := List.mem_map.mp hp
    obtain ⟨hm, hs⟩ := List.mem_filter.mp hm
    exact ⟨m, hm, hs, rfl⟩
  refine ⟨rfl, ?_, fun p hp => ?_, fun p hp => ?_⟩
  · obtain ⟨hnodup, hasc, hkeys⟩ := h.memberKeys hd
    have hmap : (d.sectionOf s).pieces.map Piece.key =
        (d.members.map Member.key).filter s.selects := by
      rw [List.filter_map]
      exact List.map_map
    rw [hmap]
    refine Ascending.eq_of_mem_iff (List.Pairwise.filter _ hasc)
      (Family.selected_ascending hnodup) fun k => ?_
    rw [List.mem_filter, hkeys, Family.mem_selected]
  · obtain ⟨m, _, _, rfl⟩ := hmem p hp
    exact ⟨branch_opcode d m, rfl⟩
  · obtain ⟨m, hm, hs, rfl⟩ := hmem p hp
    obtain ⟨b, hb⟩ := hr.tests m hm hs
    show (d.block m).IsOf m.key
    rw [block_eq hb]
    exact testBlock_isOf hb

/-- The sections of descriptors are of the families of the catalog, in order. -/
theorem forall₂_isOf (h : Prepared text catalog c ds) (hr : ∀ d ∈ ds, d.Ready s) :
    List.Forall₂ (Section.IsOf s) catalog (ds.map (Descriptor.sectionOf s)) := by
  rw [← h.families, List.forall₂_map_left_iff, List.forall₂_map_right_iff, List.forall₂_same]
  exact fun d hd => h.isOf hd (hr d hd)

end Prepared

/-! ## 8. Whole generations -/

theorem assemble_result (text : String) (catalog : List Family) (s : Selection) :
    (assemble text catalog s).result = (do
      checkCatalog catalog
      let c ← (ClaimedTable.load text catalog).result
      (checkGaps c s).result
      let ds ← (descriptorsOf c catalog).result
      (generateFamilies s ds).result) := by
  unfold assemble
  simp only [Logged.result_bind, Logged.result_lift]
  show (checkCatalog catalog >>= fun _ => (ClaimedTable.load text catalog).result >>= fun c =>
    (checkGaps c s).result >>= fun _ => (descriptorsOf c catalog).result >>= fun ds =>
      (generateFamilies s ds).result >>= pure) = _
  simp only [bind_pure]

/-- **A generation succeeds when every step does**, and then makes the sections of its
    descriptors. -/
theorem assemble_eq_ok {text : String} {catalog : List Family} {s : Selection} {g : Generated} :
    (assemble text catalog s).result = .ok g ↔
      ∃ c ds, Prepared text catalog c ds ∧ (checkGaps c s).result = .ok () ∧
        (∀ d ∈ ds, d.Ready s) ∧ g = .ofSections (ds.map (Descriptor.sectionOf s)) := by
  simp only [assemble_result, bind_eq_ok, generateFamilies_eq_ok]
  constructor
  · rintro ⟨_, hc, c, hl, _, hg, ds, hd, hr⟩
    exact ⟨c, ds, ⟨hc, hl, hd⟩, hg, hr⟩
  · rintro ⟨c, ds, h, hg, hr⟩
    exact ⟨_, h.checked, c, h.loaded, _, hg, ds, h.merged, hr⟩

theorem generate_result (text : String) (catalog : List Family) (s : Selection) :
    (generate text catalog s).result =
      (assemble text catalog s).result >>= fun g => .ok g.artifacts := by
  unfold generate
  rw [Logged.result_bind]
  rfl

theorem generate_eq_ok {text : String} {catalog : List Family} {s : Selection} {a : Artifacts} :
    (generate text catalog s).result = .ok a ↔
      ∃ g, (assemble text catalog s).result = .ok g ∧ a = g.artifacts := by
  rw [generate_result, bind_eq_ok]
  constructor
  · rintro ⟨g, hg, h⟩
    cases h
    exact ⟨g, hg, rfl⟩
  · rintro ⟨g, hg, rfl⟩
    exact ⟨g, hg, rfl⟩

/-! ## 9. Generations that are evaluated -/

/-- What is generated from a table. -/
def assembleTable (t : Table) (catalog : List Family) (s : Selection) :
    Except GenerationError Generated := do
  checkCatalog catalog
  let c ← ClaimedTable.assign catalog t
  (checkGaps c s).result
  let ds ← (descriptorsOf c catalog).result
  (generateFamilies s ds).result

theorem assemble_ofTable {text : String} {t : Table} (ht : (Table.ofText text).result = .ok t)
    (catalog : List Family) (s : Selection) :
    (assemble text catalog s).result = assembleTable t catalog s := by
  rw [assemble_result, load_result ht]
  rfl

/-- The table that characters write. -/
def Table.ofCharacters (cs : List Char) : Except GenerationError Table :=
  match (Json.tokens? cs).bind (Json.build .value []) with
  | none => .error (.tableParse .illFormed)
  | some v =>
    match Read.document v with
    | .error fault => .error (.tableParse (fault.inText cs))
    | .ok document => Table.ofDocument document

/-- A text writes the table of its characters. A literal text gives them by unification, without
    the bytes it is stored as. -/
theorem Table.ofText_of_toList {text : String} {cs : List Char} (h : text.toList = cs) :
    (Table.ofText text).result = Table.ofCharacters cs := by
  subst h
  unfold Table.ofText TableDocument.ofText Json.parse? Table.ofCharacters
  cases (Json.tokens? text.toList).bind (Json.build .value []) with
  | none => rfl
  | some v =>
    dsimp only
    cases Read.document v with
    | error fault => rfl
    | ok document =>
      simp only [Except.mapError, Logged.result_bind, Logged.result_lift]
      cases Table.ofDocument document <;> rfl

theorem toList_append_of {a b : String} {l m : List Char} (ha : a.toList = l)
    (hb : b.toList = m) : (a ++ b).toList = l ++ m := by
  rw [String.toList_append, ha, hb]

theorem exists_of_isOk {α : Type} {r : Except GenerationError α} (h : r.isOk = true) :
    ∃ a, r = .ok a := by
  cases r with
  | error e => cases h
  | ok a => exact ⟨a, rfl⟩

/-! ## 10. A small generation -/

/-- A table of SCF, NOP and HALT, with the state of one flag of NOP. -/
def threeRows (state : String) : String :=
  "[\x7b\"37\":[\"SCF\",1,[4],[],[\"-\",\"0\",\"0\",\"1\"]]," ++
    "\"00\":[\"NOP\",1,[4],[],[\"-\",\"-\",\"" ++ state ++ "\",\"-\"]]," ++
    "\"76\":[\"HALT\",1,[4],[],[\"-\",\"-\",\"-\",\"-\"]]\x7d]"

/-- The records of this table, with the effect of NOP on that flag. -/
def threeRecords (effect : FlagEffect) : Table :=
  ⟨[⟨.plain 0x00, "NOP", [], { h := effect }, 1, ⟨4, none⟩⟩,
    ⟨.plain 0x37, "SCF", [], { n := .fixedFalse, h := .fixedFalse, c := .fixedTrue }, 1, ⟨4, none⟩⟩,
    ⟨.plain 0x76, "HALT", [], {}, 1, ⟨4, none⟩⟩]⟩

set_option maxRecDepth 10000 in
theorem ofText_threeRows :
    (Table.ofText (threeRows "-")).result = .ok (threeRecords .unaffected) ∧
    (Table.ofText (threeRows "H")).result = .ok (threeRecords (.computed none)) := by
  have piece (cs : List Char) : (String.ofList cs).toList = cs := String.toList_ofList
  constructor
  · refine (Table.ofText_of_toList (toList_append_of (toList_append_of (toList_append_of
      (toList_append_of (piece _) (piece _)) (piece _)) (piece _)) (piece _))).trans ?_
    decide
  · refine (Table.ofText_of_toList (toList_append_of (toList_append_of (toList_append_of
      (toList_append_of (piece _) (piece _)) (piece _)) (piece _)) (piece _))).trans ?_
    decide

/-- The families of NOP and SCF. -/
def twoFamilies : List Family := catalog.filter (fun f => ["NOP", "SCF"].contains f.name)

theorem exists_generated : ∃ a, (generate (threeRows "-") twoFamilies {}).result = .ok a := by
  obtain ⟨g, hg⟩ : ∃ g, assembleTable (threeRecords .unaffected) twoFamilies {} = .ok g :=
    exists_of_isOk (by decide)
  rw [← assemble_ofTable ofText_threeRows.1] at hg
  exact ⟨g.artifacts, generate_eq_ok.mpr ⟨g, hg, rfl⟩⟩

end Sm83Codegen
