import Sm83Codegen.Proofs.Dispatch
import Sm83Codegen.Proofs.Linkage

/-!
# Which branches exclude each other

The decoder tries its branches in the order of the catalog. The order does not matter where no
instruction is matched by two of them. That is so with one exception: the byte that selects the
second page can itself be claimed as an opcode of the first, and its immediates are then taken from
where the opcodes of the second page stand.

* `bytes_append_cases` -- whose bytes can begin the same instruction;
* `Branch.Matches`, `Branch.Covers`, `Branch.Clash` -- two branches that match one instruction;
  `overlap_iff` -- they are those that clash;
* `select_eq_of_clashless` -- a branch that clashes with no other is selected in every order;
* `generate_exclusive` -- all of it, for every generation that succeeds; `prefixed_overlap` -- the
  exception.
-/

namespace Sm83Codegen

/-! ## 1. Keys that begin the same instruction -/

/-- A key other than the byte of the second page is proper. -/
theorem OpcodeKey.OnPage.proper {k : OpcodeKey} (h : k.OnPage) (hne : k ≠ .plain secondPage) :
    k.Proper := by
  obtain ⟨page, opcode⟩ := k
  rcases h with h | h
  · refine .inl ⟨h, fun ho => hne ?_⟩
    cases h
    cases ho
    rfl
  · exact .inr h

/-- **Different keys that begin one instruction are the second page's byte and a key on it.** -/
theorem OpcodeKey.bytes_append_cases {k l : OpcodeKey} (hk : k.OnPage) (hl : l.OnPage)
    {tail tail' : List UInt8} (h : k.bytes ++ tail = l.bytes ++ tail') :
    k = l ∨ (k = .plain secondPage ∧ l.page = some secondPage) ∨
      (l = .plain secondPage ∧ k.page = some secondPage) := by
  -- a proper key that begins with the byte of the second page is a key of it
  have hpage : ∀ {l : OpcodeKey} {tail tail' : List UInt8}, l.Proper →
      (OpcodeKey.plain secondPage).bytes ++ tail = l.bytes ++ tail' → l.page = some secondPage := by
    intro l tail tail' hl h
    obtain ⟨page, opcode⟩ := l
    rcases hl with ⟨hp, ho⟩ | hp
    · cases hp
      exact absurd (List.cons.inj h).1.symm ho
    · exact hp
  by_cases hks : k = .plain secondPage
  · by_cases hls : l = .plain secondPage
    · exact .inl (hks.trans hls.symm)
    · cases hks
      exact .inr (.inl ⟨rfl, hpage (hl.proper hls) h⟩)
  · by_cases hls : l = .plain secondPage
    · cases hls
      exact .inr (.inr ⟨rfl, hpage (hk.proper hks) h.symm⟩)
    · exact .inl (bytes_append_inj (hk.proper hks) (hl.proper hls) h).1

/-! ## 2. Branches that match the same instruction -/

namespace Branch

/-- A branch matches an instruction. -/
def Matches (b : Branch) (bytes : List UInt8) : Prop :=
  ∃ c, matchPattern {} b.pattern bytes = some c

/-- The branch of the byte of the second page covers one of the second page of the same length. -/
def Covers (b b' : Branch) : Prop :=
  b.opcode = [secondPage] ∧ (∃ o, b'.opcode = [secondPage, o]) ∧
    b.pattern.length = b'.pattern.length

/-- One of two branches covers the other. -/
def Clash (b b' : Branch) : Prop := b.Covers b' ∨ b'.Covers b

end Branch

section Members

variable {d d' : Descriptor} {m m' : Member} {f f' : Family}

/-- The branch of a member matches its key and as many bytes as the table's length leaves. -/
theorem Member.Sound.matches_iff (h : m.Sound f) {bytes : List UInt8} :
    (d.branch m).Matches bytes ↔
      ∃ tail, bytes = m.key.bytes ++ tail ∧ tail.length = m.record.trailing := by
  unfold Branch.Matches
  rw [show (d.branch m).pattern = m.pattern from rfl, h.trailing]
  constructor
  · rintro ⟨c, hc⟩
    obtain ⟨tail, he, ht, _⟩ := h.pattern_matches.mp hc
    exact ⟨tail, he, ht⟩
  · rintro ⟨tail, he, ht⟩
    exact ⟨_, h.pattern_matches.mpr ⟨tail, he, ht, rfl⟩⟩

theorem Member.Sound.branch_length (h : m.Sound f) :
    (d.branch m).pattern.length = m.key.bytes.length + m.record.trailing := by
  show m.pattern.length = _
  unfold Member.pattern
  rw [List.length_append, List.length_map, operandPatterns_length, h.trailing]

theorem bytes_eq_singleton {k : OpcodeKey} {b : UInt8} : k.bytes = [b] ↔ k = .plain b := by
  refine ⟨fun h => OpcodeKey.bytes_inj h, ?_⟩
  rintro rfl
  rfl

theorem bytes_eq_pair {k : OpcodeKey} {p : UInt8} :
    (∃ o, k.bytes = [p, o]) ↔ k.page = some p := by
  obtain ⟨page, opcode⟩ := k
  cases page <;> simp [OpcodeKey.bytes]

theorem OpcodeKey.pageLength_plain (b : UInt8) : (OpcodeKey.plain b).pageLength = 0 := rfl

theorem OpcodeKey.pageLength_paged {k : OpcodeKey} {p : UInt8} (h : k.page = some p) :
    k.pageLength = 1 := by
  unfold pageLength
  rw [h]
  rfl

/-- A branch covers another when the keys are such, and it has one more byte after its key. -/
theorem covers_iff (h : m.Sound f) (h' : m'.Sound f') :
    (d.branch m).Covers (d'.branch m') ↔
      m.key = .plain secondPage ∧ m'.key.page = some secondPage ∧
        m.record.trailing = m'.record.trailing + 1 := by
  unfold Branch.Covers
  rw [branch_opcode, branch_opcode, bytes_eq_singleton, bytes_eq_pair, h.branch_length,
    h'.branch_length, OpcodeKey.bytes_length, OpcodeKey.bytes_length]
  refine and_congr_right fun hk => and_congr_right fun hk' => ?_
  rw [hk, OpcodeKey.pageLength_plain, OpcodeKey.pageLength_paged hk']
  omega

/-- A branch and one that it covers both match the shorter key with anything after it. -/
theorem overlap_of_covers (h : m.Sound f) (h' : m'.Sound f')
    (hc : (d.branch m).Covers (d'.branch m')) :
    ∃ bytes, (d.branch m).Matches bytes ∧ (d'.branch m').Matches bytes := by
  obtain ⟨hk, hk', hlen⟩ := (covers_iff h h').mp hc
  have hbytes : m'.key.bytes = [secondPage, m'.key.opcode] := by
    unfold OpcodeKey.bytes
    rw [hk']
  refine ⟨m'.key.bytes ++ List.replicate m'.record.trailing 0, h.matches_iff.mpr ?_,
    h'.matches_iff.mpr ⟨_, rfl, List.length_replicate⟩⟩
  refine ⟨m'.key.opcode :: List.replicate m'.record.trailing 0, ?_, ?_⟩
  · rw [hbytes, hk]
    rfl
  · rw [List.length_cons, List.length_replicate, hlen]

/-- An instruction that the branches of different keys match makes them clash. -/
theorem clash_of_matches (h : m.Sound f) (h' : m'.Sound f') (hk : m.key.OnPage)
    (hk' : m'.key.OnPage) (hne : m.key ≠ m'.key) {bytes : List UInt8}
    (hb : (d.branch m).Matches bytes) (hb' : (d'.branch m').Matches bytes) :
    (d.branch m).Clash (d'.branch m') := by
  obtain ⟨tail, rfl, ht⟩ := h.matches_iff.mp hb
  obtain ⟨tail', he, ht'⟩ := h'.matches_iff.mp hb'
  have hlen : m.key.bytes.length + tail.length = m'.key.bytes.length + tail'.length := by
    rw [← List.length_append, he, List.length_append]
  rw [OpcodeKey.bytes_length, OpcodeKey.bytes_length] at hlen
  rcases OpcodeKey.bytes_append_cases hk hk' he with hkk | ⟨hs, hp⟩ | ⟨hs, hp⟩
  · exact absurd hkk hne
  · rw [hs, OpcodeKey.pageLength_plain, OpcodeKey.pageLength_paged hp] at hlen
    exact .inl ((covers_iff h h').mpr ⟨hs, hp, by omega⟩)
  · rw [hs, OpcodeKey.pageLength_plain, OpcodeKey.pageLength_paged hp] at hlen
    exact .inr ((covers_iff h' h).mpr ⟨hs, hp, by omega⟩)

/-- **The branches of different keys match one instruction exactly when they clash.** -/
theorem overlap_iff (h : m.Sound f) (h' : m'.Sound f') (hk : m.key.OnPage)
    (hk' : m'.key.OnPage) (hne : m.key ≠ m'.key) :
    (∃ bytes, (d.branch m).Matches bytes ∧ (d'.branch m').Matches bytes) ↔
      (d.branch m).Clash (d'.branch m') := by
  constructor
  · rintro ⟨bytes, hb, hb'⟩
    exact clash_of_matches h h' hk hk' hne hb hb'
  · rintro (hc | hc)
    · exact overlap_of_covers h h' hc
    · obtain ⟨bytes, hb', hb⟩ := overlap_of_covers h' h hc
      exact ⟨bytes, hb, hb'⟩

end Members

/-! ## 3. Whole decoders -/

/-- The decoder and the table of a generation that succeeded. -/
structure Decoded (catalog : List Family) (s : Selection) (t : Table) (ds : List Descriptor)
    (bs : List Branch) : Prop where
  assembly : Assembly t catalog ds
  onPage : ∀ d ∈ ds, ∀ m ∈ d.members, m.key.OnPage
  mem_branches : ∀ b, b ∈ bs ↔ ∃ d ∈ ds, ∃ m ∈ d.members, s.selects m.key = true ∧ d.branch m = b
  opcodes_nodup : (bs.map Branch.opcode).Nodup

/-- What is generated is decoded by the branches of the selected members. -/
theorem Prepared.decoded {text : String} {catalog : List Family} {c : ClaimedTable}
    {ds : List Descriptor} {s : Selection} (h : Prepared text catalog c ds)
    (hr : ∀ d ∈ ds, d.Ready s) :
    ∃ t, (Table.ofText text).result = .ok t ∧ Decoded catalog s t ds
      (Generated.ofSections (ds.map (Descriptor.sectionOf s))).branches := by
  obtain ⟨t, ht, _, hnodup, hplaced⟩ := h.placed
  obtain ⟨_, _, hdoc⟩ := Table.ofText_eq_ok.mp ht
  refine ⟨t, ht, hplaced.assembly, fun d hd m hm => ?_, fun b => ?_, ?_⟩
  · obtain ⟨i, hi⟩ := List.mem_iff_getElem?.mp hd
    exact Table.ofDocument_onPage hdoc (hplaced.member hi hm).1
  · constructor
    · intro hb
      obtain ⟨x, hx, hb⟩ := List.mem_flatMap.mp hb
      obtain ⟨d, hd, rfl⟩ := List.mem_map.mp hx
      obtain ⟨p, hp, rfl⟩ := List.mem_map.mp hb
      obtain ⟨m, hm, rfl⟩ := List.mem_map.mp hp
      obtain ⟨hm, hs⟩ := List.mem_filter.mp hm
      exact ⟨d, hd, m, hm, hs, rfl⟩
    · rintro ⟨d, hd, m, hm, hs, rfl⟩
      refine List.mem_flatMap.mpr ⟨_, List.mem_map_of_mem hd, ?_⟩
      exact List.mem_map.mpr
        ⟨_, List.mem_map_of_mem (List.mem_filter.mpr ⟨hm, hs⟩), rfl⟩
  · rw [branchOpcodes (h.forall₂_isOf hr)]
    exact (emissionOrder_nodup hnodup s).map fun _ _ he => OpcodeKey.bytes_inj he

namespace Decoded

variable {catalog : List Family} {s : Selection} {t : Table} {ds : List Descriptor}
  {bs : List Branch}

/-- Two branches of a decoder match one instruction exactly when they clash. -/
theorem pairwise (h : Decoded catalog s t ds bs) :
    bs.Pairwise (fun b b' => (∃ bytes, b.Matches bytes ∧ b'.Matches bytes) ↔ b.Clash b') := by
  have hne : bs.Pairwise (fun b b' => b.opcode ≠ b'.opcode) :=
    List.pairwise_map.mp h.opcodes_nodup
  refine hne.imp_of_mem fun {b b'} hb hb' hne => ?_
  obtain ⟨d, hd, m, hm, _, rfl⟩ := (h.mem_branches b).mp hb
  obtain ⟨d', hd', m', hm', _, rfl⟩ := (h.mem_branches b').mp hb'
  refine overlap_iff (h.assembly.sound hd hm) (h.assembly.sound hd' hm') (h.onPage d hd m hm)
    (h.onPage d' hd' m' hm') fun hk => hne ?_
  rw [branch_opcode, branch_opcode, hk]

/-- What matches an instruction of a branch is this branch, or clashes with it. -/
theorem eq_or_clash (h : Decoded catalog s t ds bs) {b b' : Branch} (hb : b ∈ bs)
    (hb' : b' ∈ bs) {bytes : List UInt8} (hm : b.Matches bytes) (hm' : b'.Matches bytes) :
    b' = b ∨ b.Clash b' := by
  obtain ⟨d, hd, m, hmem, _, rfl⟩ := (h.mem_branches b).mp hb
  obtain ⟨d', hd', m', hmem', _, rfl⟩ := (h.mem_branches b').mp hb'
  by_cases hk : m.key = m'.key
  · obtain ⟨rfl, rfl⟩ := h.assembly.unique d hd d' hd' m hmem m' hmem' hk
    exact .inl rfl
  · exact .inr (clash_of_matches (h.assembly.sound hd hmem) (h.assembly.sound hd' hmem')
      (h.onPage d hd m hmem) (h.onPage d' hd' m' hmem') hk hm hm')

/-- **A branch that clashes with no other is selected in every order.** -/
theorem select_eq_of_clashless (h : Decoded catalog s t ds bs) {b : Branch} (hb : b ∈ bs)
    (hfree : ∀ b' ∈ bs, ¬b.Clash b') {bytes : List UInt8} {c : Captures}
    (hc : matchPattern {} b.pattern bytes = some c) {core : Core}
    (hcore : core.branches.Perm bs) : core.select bytes = some (b, c) := by
  refine findSome?_eq_of_alike (hcore.mem_iff.mpr hb) ?_ fun b' hb' r hr => ?_
  · rw [hc]
    rfl
  · obtain ⟨c', hc', rfl⟩ := Option.map_eq_some_iff.mp hr
    have hb' := hcore.mem_iff.mp hb'
    rcases h.eq_or_clash hb hb' ⟨c, hc⟩ ⟨c', hc'⟩ with rfl | hclash
    · rw [Option.some.inj (hc'.symm.trans hc)]
    · exact absurd hclash (hfree b' hb')

end Decoded

/-! ## 4. All of it -/

/-- **Branches exclude each other, but for those of the second page and its byte.** Two branches of
    a generated decoder match one instruction exactly when they clash: one is of the byte of the
    second page, claimed as an opcode of the first, and the other of the second page and of the same
    length. The branch of an opcode that is claimed and selected matches every instruction that
    consists of the opcode's bytes and of as many as the table's length leaves; what else matches it
    clashes with this branch; and if nothing does, the branch is selected in every order. -/
theorem generate_exclusive {text : String} {catalog : List Family} {s : Selection} {a : Artifacts}
    (h : (generate text catalog s).result = .ok a) :
    ∃ g t, (assemble text catalog s).result = .ok g ∧ a = g.artifacts ∧
      (Table.ofText text).result = .ok t ∧
      g.branches.Pairwise
        (fun b b' => (∃ bytes, b.Matches bytes ∧ b'.Matches bytes) ↔ b.Clash b') ∧
      ∀ f ∈ catalog, ∀ k ∈ f.keys, s.selects k = true →
        ∃ r, t.find? k = some r ∧ ∃ b ∈ g.branches, b.opcode = k.bytes ∧
          b.routine = f.routineName ∧ ∀ tail, tail.length = r.trailing →
            b.Matches (k.bytes ++ tail) ∧
            (∀ b' ∈ g.branches, b'.Matches (k.bytes ++ tail) → b' = b ∨ b.Clash b') ∧
            ((∀ b' ∈ g.branches, ¬b.Clash b') →
              ∀ core : Core, core.branches.Perm g.branches →
                core.select (k.bytes ++ tail) = some (b, .ofTail tail)) := by
  obtain ⟨g, hg, rfl⟩ := generate_eq_ok.mp h
  obtain ⟨c, ds, hp, _, hready, rfl⟩ := assemble_eq_ok.mp hg
  obtain ⟨t, ht, hdec⟩ := hp.decoded hready
  refine ⟨_, t, hg, rfl, ht, hdec.pairwise, fun f hf k hk hs => ?_⟩
  obtain ⟨d, hd, rfl, m, hm, rfl⟩ := hdec.assembly.complete f hf k hk
  have hb := (hdec.mem_branches (d.branch m)).mpr ⟨d, hd, m, hm, hs, rfl⟩
  have hsound := hdec.assembly.sound hd hm
  refine ⟨m.record, hdec.assembly.recorded d hd m hm, d.branch m, hb, branch_opcode d m, rfl,
    fun tail htail => ?_⟩
  have hmatch : (d.branch m).Matches (m.key.bytes ++ tail) :=
    hsound.matches_iff.mpr ⟨tail, rfl, htail⟩
  rw [hsound.trailing] at htail
  exact ⟨hmatch, fun b' hb' hm' => hdec.eq_or_clash hb hb' hmatch hm', fun hfree core hcore =>
    hdec.select_eq_of_clashless hb hfree
      (hsound.pattern_matches.mpr ⟨tail, rfl, htail, rfl⟩) hcore⟩

/-! ## 5. The byte of the second page as an opcode -/

/-- A table of NOP, of the byte of the second page with an immediate, and of an opcode there. -/
def prefixedRows : String :=
  "[\x7b\"CB\":[\"PREFIX\",2,[4],[[\"n8\",true]],[\"-\",\"-\",\"-\",\"-\"]]," ++
    "\"00\":[\"NOP\",1,[4],[],[\"-\",\"-\",\"-\",\"-\"]]\x7d," ++
    "\x7b\"40\":[\"BIT\",2,[8],[],[\"-\",\"-\",\"-\",\"-\"]]\x7d]"

/-- A family of one opcode that does nothing, tested with some bytes after the opcode. -/
def idleFamily (name : String) (opcode : UInt8) (trailing : List UInt8) : Family where
  name := name
  opcodes := [opcode]
  fragment := .verbatim ""
  fixtures := fun _ => Fixtures.empty.baseline (Scenario.blank.bytes trailing)

/-- Families of the three opcodes. -/
def prefixedFamilies : List Family :=
  [idleFamily "NOP" 0x00 [], idleFamily "PREFIX n8" 0xCB [0],
    (idleFamily "BIT" 0x40 []).onSecondPage]

/-- The records of this table. -/
def prefixedRecords : Table :=
  ⟨[⟨.plain 0x00, "NOP", [], {}, 1, ⟨4, none⟩⟩,
    ⟨.plain 0xCB, "PREFIX", [⟨"n8", true, false, false⟩], {}, 2, ⟨4, none⟩⟩,
    ⟨.paged 0x40, "BIT", [], {}, 2, ⟨8, none⟩⟩]⟩

set_option maxRecDepth 10000 in
theorem ofText_prefixedRows : (Table.ofText prefixedRows).result = .ok prefixedRecords := by
  have piece (cs : List Char) : (String.ofList cs).toList = cs := String.toList_ofList
  refine (Table.ofText_of_toList (toList_append_of (toList_append_of (piece _) (piece _))
    (piece _))).trans ?_
  decide

/-- The branches that are generated from it. -/
def prefixedBranches : List Branch :=
  [⟨[.byte 0x00], "execute_nop", [.pcBorrow], 4, none⟩,
    ⟨[.byte 0xCB, .immediate], "execute_prefix_n8", [.pcBorrow, .immediateByte], 4, none⟩,
    ⟨[.byte 0xCB, .byte 0x40], "execute_bit", [.pcBorrow], 8, none⟩]

theorem prefixed_generated :
    ∃ a g, (generate prefixedRows prefixedFamilies {}).result = .ok a ∧
      (assemble prefixedRows prefixedFamilies {}).result = .ok g ∧
      g.branches = prefixedBranches := by
  have h : (assembleTable prefixedRecords prefixedFamilies {}).map Generated.branches =
      .ok prefixedBranches := by decide
  rw [← assemble_ofTable ofText_prefixedRows] at h
  cases hg : (assemble prefixedRows prefixedFamilies {}).result with
  | error e =>
    rw [hg] at h
    cases h
  | ok g =>
    rw [hg] at h
    exact ⟨g.artifacts, g, generate_eq_ok.mpr ⟨g, hg, rfl⟩, rfl, Except.ok.inj h⟩

/-- NOP is selected in every order, beside the two branches that clash. -/
theorem generate_exclusive_prefixed :
    ∃ a, ∃ g : Generated, (generate prefixedRows prefixedFamilies {}).result = .ok a ∧
      a = g.artifacts ∧
      g.branches.Pairwise
        (fun b b' => (∃ bytes, b.Matches bytes ∧ b'.Matches bytes) ↔ b.Clash b') ∧
      ∃ b ∈ g.branches, b.routine = "execute_nop" ∧
        ∀ core : Core, core.branches.Perm g.branches → core.select [0x00] = some (b, {}) := by
  obtain ⟨a, _, ha, _⟩ := prefixed_generated
  obtain ⟨g, t, _, hag, ht, hpairs, hselect⟩ := generate_exclusive ha
  obtain ⟨r, hr, b, hb, hopcode, hroutine, htails⟩ := hselect (idleFamily "NOP" 0x00 [])
    List.mem_cons_self (.plain 0x00) List.mem_cons_self rfl
  have htrailing : r.trailing = 0 := by
    cases ht.symm.trans ofText_prefixedRows
    cases hr
    rfl
  obtain ⟨_, _, hfree⟩ := htails [] htrailing.symm
  refine ⟨a, g, ha, hag, hpairs, b, hb, hroutine, hfree fun b' _ hclash => ?_⟩
  rcases hclash with ⟨ho, _⟩ | ⟨_, ⟨o, ho⟩, _⟩
  · rw [hopcode] at ho
    exact absurd ho (by decide)
  · rw [hopcode] at ho
    cases ho

/-- **Two branches of one decoder match the same instruction**: the opcode `0x40` of the second page
    is taken for the immediate of the byte before it, and its own branch is not selected. -/
theorem prefixed_overlap :
    ∃ a g, (generate prefixedRows prefixedFamilies {}).result = .ok a ∧
      (assemble prefixedRows prefixedFamilies {}).result = .ok g ∧
      ∃ b ∈ g.branches, ∃ b' ∈ g.branches, b ≠ b' ∧ b.Matches [0xCB, 0x40] ∧
        b'.Matches [0xCB, 0x40] ∧ b'.opcode = (OpcodeKey.paged 0x40).bytes ∧
        (Core.mk g.branches g.routines).select [0xCB, 0x40] =
          some (b, { immediate := some 0x40 }) := by
  obtain ⟨a, g, ha, hg, hbranches⟩ := prefixed_generated
  refine ⟨a, g, ha, hg, ⟨[.byte 0xCB, .immediate], "execute_prefix_n8",
    [.pcBorrow, .immediateByte], 4, none⟩, ?_, ⟨[.byte 0xCB, .byte 0x40], "execute_bit",
    [.pcBorrow], 8, none⟩, ?_, by decide, ⟨{ immediate := some 0x40 }, rfl⟩, ⟨{}, rfl⟩, rfl, ?_⟩
  · rw [hbranches]
    decide
  · rw [hbranches]
    decide
  · rw [hbranches]
    rfl

end Sm83Codegen
