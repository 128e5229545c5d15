import Sm83Codegen.Proofs.KeyLists
import Sm83Codegen.Proofs.Loading

/-!
# Uniform families

Records merge into their family if each can be a member by itself and all ask the same of it.

* `admits_iff` -- a record that its family admits is a member of it, with one list of operands;
* `unite_agreeing`, `unite_divergent` -- members with one signature, and with several;
* `SignatureGroup.ReportedBy` -- what a line of the report says; `groupText_reports` -- the lines
  that are written say it;
* `Family.Uniform` -- records that ask the same of their family; `merge_perm` -- in any order they
  merge to the same;
* `merge_uniform` -- which records merge, and what becomes of those that do not.
-/

namespace Sm83Codegen

open Logged (bind_eq_ok)

/-! ## 1. Members -/

section Members

variable {f : Family} {r : Record} {os os' : List Operand}

theorem admits_iff : f.Admits r os ↔ (Member.ofRecord f r).result = .ok ⟨r, os⟩ := by
  rw [ofRecord_eq_ok]
  exact (and_iff_right rfl).symm

/-- The operands of a member are determined by its record. -/
theorem Family.Admits.unique (h : f.Admits r os) (h' : f.Admits r os') : os = os' := by
  have heq := (admits_iff.mp h).symm.trans (admits_iff.mp h')
  exact congrArg Member.operands (Except.ok.inj heq)

end Members

/-! ## 2. Members that unite -/

namespace Descriptor

variable {f : Family} {ms : List Member}

/-- **Members with one signature unite.** -/
theorem unite_agreeing {s : Signature} (hne : ms ≠ []) (hs : ∀ m ∈ ms, m.signature = s) :
    unite f ms = .ok (ofMembers f ms s) := by
  have hgroups := groupsOf_grouped ms
  have hall : ∀ t ∈ (groupsOf ms).map Prod.fst, t = s := by
    intro t ht
    obtain ⟨m, hm, rfl⟩ := (hgroups.signatures t).mp ht
    exact hs m hm
  unfold unite
  split
  · next hnil =>
    obtain ⟨m, hm⟩ := List.exists_mem_of_ne_nil ms hne
    have hmem := (hgroups.signatures m.signature).mpr ⟨m, hm, rfl⟩
    rw [hnil] at hmem
    exact absurd hmem List.not_mem_nil
  · next t ks hone =>
    have ht : t = s := by
      refine hall t ?_
      rw [hone]
      exact List.mem_cons_self
    rw [ht]
  · next hnil hmany =>
    -- a second group would have the signature of the first
    cases hgs : groupsOf ms with
    | nil => exact absurd hgs hnil
    | cons g gs =>
      cases gs with
      | nil => exact absurd hgs (hmany g.1 g.2)
      | cons g' gs =>
        have hdistinct := hgroups.distinct
        rw [hgs] at hall hdistinct
        have hfirst := hall g.1 List.mem_cons_self
        have hsecond := hall g'.1 (List.mem_cons_of_mem _ List.mem_cons_self)
        have hnot := (List.nodup_cons.mp hdistinct).1
        rw [hfirst, ← hsecond] at hnot
        exact absurd List.mem_cons_self hnot

/-- **Members with several signatures are reported**, group by group. -/
theorem unite_divergent {m n : Member} (hm : m ∈ ms) (hn : n ∈ ms)
    (h : m.signature ≠ n.signature) : unite f ms = .error
      (.divergentFamily f.name (String.intercalate "; " ((groupsOf ms).map groupText))) := by
  have hmem : ∀ x ∈ ms, x.signature ∈ (groupsOf ms).map Prod.fst := fun x hx =>
    ((groupsOf_grouped ms).signatures _).mpr ⟨x, hx, rfl⟩
  have hm := hmem m hm
  have hn := hmem n hn
  unfold unite
  split
  · next hnil =>
    rw [hnil] at hm
    exact absurd hm List.not_mem_nil
  · next hone =>
    rw [hone] at hm hn
    exact absurd ((List.mem_singleton.mp hm).trans (List.mem_singleton.mp hn).symm) h
  · rfl

theorem unite_ne_nil {d : Descriptor} (h : unite f ms = .ok d) : ms ≠ [] := by
  rintro rfl
  cases h

end Descriptor

/-! ## 3. The report on members that differ -/

/-- All shapes. -/
def OperandShape.all : List OperandShape :=
  [.reg8, .reg16, .regSP, .imm8, .imm16, .literal, .condition].flatMap fun kind =>
    [false, true].flatMap fun indirect =>
      [.stay, .increment, .decrement].map fun step => ⟨kind, indirect, step⟩

theorem OperandShape.mem_all (s : OperandShape) : s ∈ OperandShape.all := by
  obtain ⟨kind, indirect, step⟩ := s
  refine List.mem_flatMap.mpr ⟨kind, by cases kind <;> decide, ?_⟩
  refine List.mem_flatMap.mpr ⟨indirect, by cases indirect <;> decide, ?_⟩
  exact List.mem_map_of_mem (by cases step <;> decide)

/-- Different shapes are written differently. -/
theorem OperandShape.display_injective : Function.Injective OperandShape.display := by
  have hn : (OperandShape.all.map OperandShape.display).Nodup := by decide +kernel
  intro s s' h
  exact List.inj_on_of_nodup_map hn s.mem_all s'.mem_all h

/-- A line reports a group: between brackets the keys of its members, each so that it reads back;
    then what they ask for, the states of the flags as the table has them and the shapes so that
    each is known. -/
structure SignatureGroup.ReportedBy (g : SignatureGroup) (line : String) : Prop where
  written : line = "[" ++ String.intercalate ", " (g.2.map OpcodeKey.display) ++ "] flags " ++
    g.1.flags.display ++ " length " ++ toString g.1.length.toNat ++ " operands [" ++
    String.intercalate ", " (g.1.shapes.map OperandShape.display) ++ "]"
  keys : ∀ k ∈ g.2, OpcodeKey.parse? k.display = some k
  flags : List.Forall₂
    (fun F c => FlagEffect.parse? F (String.singleton c) = some (g.1.flags.get F))
    Flag.all g.1.flags.display.toList
  shapes : ∀ s ∈ g.1.shapes, ∀ s', s'.display = s.display → s' = s

theorem groupText_reports {g : SignatureGroup} (hkeys : ∀ k ∈ g.2, k.OnPage)
    (hflags : ∀ F w, g.1.flags.get F ≠ .computed (some w)) : g.ReportedBy (groupText g) where
  written := rfl
  keys k hk := OpcodeKey.parse?_display (hkeys k hk)
  flags := FlagEffects.parse?_display hflags
  shapes _ _ _ h := OperandShape.display_injective h

/-- A line on two opcodes of which each has a pointer as its operand. -/
example : groupText (⟨{}, 1, [⟨.reg16, true, .stay⟩]⟩, [.plain 0x34, .plain 0x35]) =
    "[0x34, 0x35] flags ---- length 1 operands " ++
      "[OperandShape \x7b kind: Reg16, indirect: true, step: None \x7d]" := by decide +kernel

/-- The groups of members of a table are reported line by line. -/
theorem groupsOf_reported {ms : List Member} (hkeys : ∀ m ∈ ms, m.key.OnPage)
    (hflags : ∀ m ∈ ms, ∀ F w, m.record.flags.get F ≠ .computed (some w)) :
    List.Forall₂ SignatureGroup.ReportedBy (groupsOf ms) ((groupsOf ms).map groupText) := by
  have hgroups := groupsOf_grouped ms
  rw [List.forall₂_map_right_iff, List.forall₂_same]
  intro g hg
  refine groupText_reports (fun k hk => ?_) ?_
  · rw [hgroups.keys g hg] at hk
    obtain ⟨m, hm, rfl⟩ := List.mem_map.mp hk
    exact hkeys m (List.mem_filter.mp hm).1
  · obtain ⟨m, hm, hsignature⟩ := (hgroups.signatures g.1).mp (List.mem_map_of_mem hg)
    rw [← hsignature]
    exact hflags m hm

/-! ## 4. Records that merge -/

/-- The members that records become, one for each that the family admits. -/
def Family.membersOf (f : Family) (rs : List Record) : List Member :=
  rs.filterMap (fun r => (Member.ofRecord f r).result.toOption)

/-- Records ask the same of their family: the same flags, the same length and operands of the same
    shapes. -/
def Family.Uniform (f : Family) (rs : List Record) : Prop :=
  ∀ r ∈ rs, ∀ r' ∈ rs, ∀ os os', f.Admits r os → f.Admits r' os' →
    r.flags = r'.flags ∧ r.length = r'.length ∧ os.map Operand.shape = os'.map Operand.shape

section Records

variable {f : Family} {rs rs' : List Record}

theorem mem_membersOf {m : Member} :
    m ∈ f.membersOf rs ↔ m.record ∈ rs ∧ f.Admits m.record m.operands := by
  have hresult {r : Record} : (Member.ofRecord f r).result.toOption = some m ↔
      (Member.ofRecord f r).result = .ok m := by
    cases (Member.ofRecord f r).result with
    | error e => exact ⟨nofun, nofun⟩
    | ok n => exact ⟨fun h => congrArg _ (Option.some.inj h), fun h => congrArg _ (Except.ok.inj h)⟩
  unfold Family.membersOf
  simp only [List.mem_filterMap, hresult, ofRecord_eq_ok]
  constructor
  · intro h
    obtain ⟨r, hr, rfl, hadmits⟩ := h
    exact ⟨hr, hadmits⟩
  · intro h
    exact ⟨m.record, h.1, rfl, h.2⟩

/-- All records become members exactly when the family admits each. -/
theorem map_ofRecord_iff {ms : List Member} :
    rs.map (fun r => (Member.ofRecord f r).result) = ms.map .ok ↔
      (∀ r ∈ rs, ∃ os, f.Admits r os) ∧ ms = f.membersOf rs := by
  induction rs generalizing ms with
  | nil =>
    rw [List.map_nil, eq_comm, List.map_eq_nil_iff]
    exact (and_iff_right fun r hr => absurd hr List.not_mem_nil).symm
  | cons r rs ih =>
    rw [List.forall_mem_cons]
    cases hr : (Member.ofRecord f r).result with
    | error e =>
      constructor
      · intro h
        rw [List.map_cons, hr] at h
        cases ms with
        | nil => cases h
        | cons m ms => cases h
      · intro h
        obtain ⟨⟨⟨os, hos⟩, _⟩, _⟩ := h
        rw [admits_iff, hr] at hos
        cases hos
    | ok m =>
      have hadmits : ∃ os, f.Admits r os := by
        obtain ⟨rfl, h⟩ := ofRecord_eq_ok.mp hr
        exact ⟨_, h⟩
      have hmembers : f.membersOf (r :: rs) = m :: f.membersOf rs := by
        unfold Family.membersOf
        rw [List.filterMap_cons_some]
        rw [hr]
        rfl
      rw [hmembers, List.map_cons, hr, and_iff_right hadmits]
      cases ms with
      | nil =>
        constructor
        · nofun
        · intro h
          cases h.2
      | cons n ms =>
        rw [List.map_cons, List.cons_eq_cons, List.cons_eq_cons, ih, Except.ok.injEq, eq_comm]
        exact and_left_comm

theorem membersOf_record (h : ∀ r ∈ rs, ∃ os, f.Admits r os) :
    (f.membersOf rs).map Member.record = rs :=
  map_record_of_ofRecord (map_ofRecord_iff.mpr ⟨h, rfl⟩)

theorem uniform_iff : f.Uniform rs ↔
    ∀ m ∈ f.membersOf rs, ∀ n ∈ f.membersOf rs, m.signature = n.signature := by
  constructor
  · intro h m hm n hn
    obtain ⟨hm, hmadmits⟩ := mem_membersOf.mp hm
    obtain ⟨hn, hnadmits⟩ := mem_membersOf.mp hn
    obtain ⟨hflags, hlength, hshapes⟩ := h _ hm _ hn _ _ hmadmits hnadmits
    exact Signature.mk.injEq .. ▸ ⟨hflags, hlength, hshapes⟩
  · intro h r hr r' hr' os os' hadmits hadmits'
    have hsig := h ⟨r, os⟩ (mem_membersOf.mpr ⟨hr, hadmits⟩) ⟨r', os'⟩
      (mem_membersOf.mpr ⟨hr', hadmits'⟩)
    exact (Signature.mk.injEq ..).mp hsig

namespace Descriptor

/-- Records that the family admits merge if their members unite. -/
theorem merge_admitted (h : ∀ r ∈ rs, ∃ os, f.Admits r os) :
    (merge f rs).result = unite f (f.membersOf rs) := by
  rw [merge_result, Logged.collect_eq_ok.mpr (map_ofRecord_iff.mpr ⟨h, rfl⟩)]
  rfl

theorem merge_eq_ok_iff {d : Descriptor} : (merge f rs).result = .ok d ↔
    (∀ r ∈ rs, ∃ os, f.Admits r os) ∧ unite f (f.membersOf rs) = .ok d := by
  constructor
  · intro h
    have hmerge := h
    rw [merge_result, bind_eq_ok] at h
    obtain ⟨ms, hms, h⟩ := h
    obtain ⟨hadmits, rfl⟩ := map_ofRecord_iff.mp (Logged.collect_eq_ok.mp hms)
    exact ⟨hadmits, h⟩
  · intro h
    rw [merge_admitted h.1, h.2]

end Descriptor

/-- Records that merge are uniform, and other records that the family admits are not. -/
theorem merge_uniform_iff : (∃ d, (Descriptor.merge f rs).result = .ok d) ↔
    rs ≠ [] ∧ (∀ r ∈ rs, ∃ os, f.Admits r os) ∧ f.Uniform rs := by
  rw [uniform_iff]
  constructor
  · intro h
    obtain ⟨d, hd⟩ := h
    obtain ⟨hadmits, hunite⟩ := Descriptor.merge_eq_ok_iff.mp hd
    obtain ⟨s, _, hs⟩ := unite_eq_ok hunite
    refine ⟨?_, hadmits, fun m hm n hn => (hs m hm).trans (hs n hn).symm⟩
    rintro rfl
    exact Descriptor.unite_ne_nil hunite rfl
  · intro h
    obtain ⟨hne, hadmits, huniform⟩ := h
    have hmembers : f.membersOf rs ≠ [] := by
      intro hnil
      have hrecords := membersOf_record hadmits
      rw [hnil] at hrecords
      exact hne hrecords.symm
    obtain ⟨m, hm⟩ := List.exists_mem_of_ne_nil _ hmembers
    have hunite := Descriptor.unite_agreeing (f := f) hmembers fun n hn => huniform n hn m hm
    exact ⟨_, Descriptor.merge_eq_ok_iff.mpr ⟨hadmits, hunite⟩⟩

/-- **Merging does not depend on the order of the records.** -/
theorem merge_perm {d : Descriptor} (h : (Descriptor.merge f rs).result = .ok d)
    (hperm : rs'.Perm rs) : ∃ ms, (Descriptor.merge f rs').result = .ok { d with members := ms } ∧
      ms.Perm d.members ∧ ms.map Member.record = rs' := by
  obtain ⟨hadmits, hunite⟩ := Descriptor.merge_eq_ok_iff.mp h
  obtain ⟨s, rfl, hs⟩ := unite_eq_ok hunite
  have hmembers : (f.membersOf rs').Perm (f.membersOf rs) := hperm.filterMap _
  have hadmits' : ∀ r ∈ rs', ∃ os, f.Admits r os := fun r hr => hadmits r (hperm.mem_iff.mp hr)
  have hne : f.membersOf rs' ≠ [] := by
    intro hnil
    rw [hnil] at hmembers
    exact Descriptor.unite_ne_nil hunite hmembers.symm.eq_nil
  have hunite' := Descriptor.unite_agreeing (f := f) hne fun m hm => hs m (hmembers.mem_iff.mp hm)
  have haliased : (f.membersOf rs').any Member.aliased = (f.membersOf rs).any Member.aliased :=
    hmembers.any_eq
  refine ⟨f.membersOf rs', ?_, hmembers, membersOf_record hadmits'⟩
  rw [Descriptor.merge_admitted hadmits', hunite']
  unfold Descriptor.ofMembers
  rw [haliased]

/-- The report on records that are admitted and differ lists each under what it asks for. -/
theorem merge_divergent (hpages : ∀ r ∈ rs, r.key.OnPage)
    (hflags : ∀ r ∈ rs, ∀ F w, r.flags.get F ≠ .computed (some w))
    (hadmits : ∀ r ∈ rs, ∃ os, f.Admits r os) (h : ¬f.Uniform rs) :
    ∃ gs lines, (Descriptor.merge f rs).result =
        .error (.divergentFamily f.name (String.intercalate "; " lines)) ∧
      List.Forall₂ SignatureGroup.ReportedBy gs lines ∧
      Grouped (f.membersOf rs) gs ∧ (gs.flatMap Prod.snd).Perm (rs.map Record.key) := by
  have hgroups := groupsOf_grouped (f.membersOf rs)
  have hreported : List.Forall₂ SignatureGroup.ReportedBy (groupsOf (f.membersOf rs))
      ((groupsOf (f.membersOf rs)).map groupText) :=
    groupsOf_reported (fun m hm => hpages _ (mem_membersOf.mp hm).1)
      (fun m hm => hflags _ (mem_membersOf.mp hm).1)
  rw [uniform_iff] at h
  push Not at h
  obtain ⟨m, hm, n, hn, hne⟩ := h
  refine ⟨_, _, (Descriptor.merge_admitted hadmits).trans (Descriptor.unite_divergent hm hn hne),
    hreported, hgroups, ?_⟩
  have hkeys : (f.membersOf rs).map Member.key = rs.map Record.key := by
    rw [← congrArg (List.map Record.key) (membersOf_record hadmits), List.map_map]
    rfl
  rw [← hkeys]
  exact hgroups.whole

end Records

/-! ## 5. Records of a table -/

theorem Descriptor.immediateBytes_eq {d : Descriptor} {os : List Operand}
    (h : d.shapes = os.map Operand.shape) : d.immediateBytes = Layout.immediateBytes os := by
  unfold Descriptor.immediateBytes Layout.immediateBytes
  rw [h, List.foldr_map]
  rfl

/-- A merged family is as long as a page byte, if its members have one, its opcode and its
    immediates. -/
theorem Descriptor.Merged.length_eq {f : Family} {rs : List Record} {d : Descriptor} {m : Member}
    (h : d.Merged f rs) (hm : m ∈ d.members) :
    d.length.toNat = 1 + m.key.pageLength + d.immediateBytes := by
  rw [h.length m hm, immediateBytes_eq (h.shapes m hm)]
  exact (h.sound hm).layout.length

theorem OpcodeKey.OnPage.page_eq {k l : OpcodeKey} (hk : k.OnPage) (hl : l.OnPage)
    (h : k.pageLength = l.pageLength) : k.page = l.page := by
  unfold OpcodeKey.pageLength at h
  rcases hk with hk | hk <;> rcases hl with hl | hl <;> rw [hk, hl] at h ⊢ <;> cases h

/-- The members of a merged family stand on one page, although no signature names it. -/
theorem Descriptor.Merged.same_page {f : Family} {rs : List Record} {d : Descriptor}
    (h : d.Merged f rs) (hpages : ∀ r ∈ rs, r.key.OnPage) :
    (∀ m ∈ d.members, m.key.page = none) ∨ ∀ m ∈ d.members, m.key.page = some secondPage := by
  have hpage : ∀ m ∈ d.members, m.key.OnPage := fun m hm => hpages m.record (h.record_mem hm)
  cases hms : d.members with
  | nil => exact .inl fun m hm => absurd hm List.not_mem_nil
  | cons first ms =>
    have hfirst : first ∈ d.members := by
      rw [hms]
      exact List.mem_cons_self
    have hsame : ∀ m ∈ d.members, m.key.page = first.key.page := by
      intro m hm
      have hlength := (h.length_eq hm).symm.trans (h.length_eq hfirst)
      exact (hpage m hm).page_eq (hpage first hfirst) (by omega)
    rw [← hms]
    rcases hpage first hfirst with hnone | hsecond
    · exact .inl fun m hm => (hsame m hm).trans hnone
    · exact .inr fun m hm => (hsame m hm).trans hsecond

/-- **Records of a table merge if there are some, the family admits each, and they ask the same of
    it.** They are the members of the merged family then, in order and on one page; each has its
    shapes and its length, which is that of a page byte, the opcode and the immediates. In another
    order they merge to the same, with the members in that order. Records that are admitted and do
    not ask the same are reported, each once: a line has the keys of those that ask the same, and
    what they ask for. -/
theorem merge_uniform {text : String} {t : Table} {f : Family} {rs : List Record}
    (ht : (Table.ofText text).result = .ok t) (hrs : ∀ r ∈ rs, r ∈ t.records) :
    ((∃ d, (Descriptor.merge f rs).result = .ok d) ↔
      rs ≠ [] ∧ (∀ r ∈ rs, ∃ os, f.Admits r os) ∧ f.Uniform rs) ∧
    (∀ d, (Descriptor.merge f rs).result = .ok d →
      d.members.map Member.record = rs ∧
      (∀ m ∈ d.members, f.Admits m.record m.operands ∧ m.operands.map Operand.shape = d.shapes ∧
        m.record.length = d.length ∧
        d.length.toNat = 1 + m.key.pageLength + Layout.immediateBytes m.operands) ∧
      ((∀ m ∈ d.members, m.key.page = none) ∨ ∀ m ∈ d.members, m.key.page = some secondPage) ∧
      ∀ rs', rs'.Perm rs → ∃ ms, (Descriptor.merge f rs').result = .ok { d with members := ms } ∧
        ms.Perm d.members ∧ ms.map Member.record = rs') ∧
    ((∀ r ∈ rs, ∃ os, f.Admits r os) → ¬f.Uniform rs →
      ∃ gs lines, (Descriptor.merge f rs).result =
          .error (.divergentFamily f.name (String.intercalate "; " lines)) ∧
        List.Forall₂ SignatureGroup.ReportedBy gs lines ∧
        Grouped (f.membersOf rs) gs ∧ (gs.flatMap Prod.snd).Perm (rs.map Record.key)) := by
  obtain ⟨_, _, hdocument⟩ := Table.ofText_eq_ok.mp ht
  have hpages : ∀ r ∈ rs, r.key.OnPage := fun r hr => Table.ofDocument_onPage hdocument (hrs r hr)
  have hflags : ∀ r ∈ rs, ∀ F w, r.flags.get F ≠ .computed (some w) := fun r hr F w =>
    Table.ofDocument_width hdocument (hrs r hr) F w
  refine ⟨merge_uniform_iff, fun d hd => ?_, merge_divergent hpages hflags⟩
  have hmerged := merge_eq_ok hd
  refine ⟨hmerged.records, fun m hm => ?_, hmerged.same_page hpages, fun rs' => merge_perm hd⟩
  have hlength := hmerged.length_eq hm
  rw [Descriptor.immediateBytes_eq (hmerged.shapes m hm)] at hlength
  exact ⟨(ofRecord_eq_ok.mp (hmerged.members m hm)).2, (hmerged.shapes m hm).symm,
    (hmerged.length m hm).symm, hlength⟩

/-- A family whose members have no operands and need no flags. -/
def bareFamily : Family where
  name := "NOP"
  opcodes := [0x00, 0x76]
  fragment := .verbatim ""
  fixtures _ := {}

/-- NOP and HALT merge in either order; NOP and SCF do not, as SCF writes flags, and the report has
    a line for each. -/
theorem merge_uniform_threeRows : ∃ t nop scf halt,
    (Table.ofText (threeRows "-")).result = .ok t ∧ t.records = [nop, scf, halt] ∧
      (∃ d, (Descriptor.merge bareFamily [nop, halt]).result = .ok d ∧
        ∃ ms, (Descriptor.merge bareFamily [halt, nop]).result = .ok { d with members := ms }) ∧
      (Descriptor.merge bareFamily [nop, scf]).result = .error (.divergentFamily "NOP"
        "[0x00] flags ---- length 1 operands []; [0x37] flags -001 length 1 operands []") ∧
      ∃ gs lines, String.intercalate "; " lines =
          "[0x00] flags ---- length 1 operands []; [0x37] flags -001 length 1 operands []" ∧
        List.Forall₂ SignatureGroup.ReportedBy gs lines ∧
        (gs.flatMap Prod.snd).Perm [.plain 0x00, .plain 0x37] := by
  let nop : Record := ⟨.plain 0x00, "NOP", [], {}, 1, ⟨4, none⟩⟩
  let scf : Record :=
    ⟨.plain 0x37, "SCF", [], { n := .fixedFalse, h := .fixedFalse, c := .fixedTrue }, 1, ⟨4, none⟩⟩
  let halt : Record := ⟨.plain 0x76, "HALT", [], {}, 1, ⟨4, none⟩⟩
  have hadmits : ∀ r ∈ [nop, scf, halt], bareFamily.Admits r [] := by
    refine List.forall_mem_cons.mpr ⟨admits_iff.mpr rfl, List.forall_mem_cons.mpr
      ⟨admits_iff.mpr rfl, List.forall_mem_singleton.mpr (admits_iff.mpr rfl)⟩⟩
  have hnop : nop ∈ [nop, scf, halt] := List.mem_cons_self
  have hscf : scf ∈ [nop, scf, halt] := List.mem_cons_of_mem _ List.mem_cons_self
  have hhalt : halt ∈ [nop, scf, halt] :=
    List.mem_cons_of_mem _ (List.mem_cons_of_mem _ List.mem_cons_self)
  have hreport : (Descriptor.merge bareFamily [nop, scf]).result = .error (.divergentFamily "NOP"
      "[0x00] flags ---- length 1 operands []; [0x37] flags -001 length 1 operands []") := by
    have hmerge : (Descriptor.merge bareFamily [nop, scf]).result =
        .error (.divergentFamily "NOP" (String.intercalate "; "
          ((groupsOf [⟨nop, []⟩, ⟨scf, []⟩]).map groupText))) := by rfl
    rw [hmerge, show String.intercalate "; " ((groupsOf [⟨nop, []⟩, ⟨scf, []⟩]).map groupText) =
      "[0x00] flags ---- length 1 operands []; [0x37] flags -001 length 1 operands []" by
        decide +kernel]
  refine ⟨_, nop, scf, halt, ofText_threeRows.1, rfl, ?_, hreport, ?_⟩
  · have hsome : ∀ r ∈ [nop, halt], r ∈ [nop, scf, halt] :=
      List.forall_mem_cons.mpr ⟨hnop, List.forall_mem_singleton.mpr hhalt⟩
    obtain ⟨hmerge, hmerged, _⟩ := merge_uniform (f := bareFamily) ofText_threeRows.1 hsome
    have huniform : bareFamily.Uniform [nop, halt] := by
      intro r hr r' hr' os os' hos hos'
      rw [hos.unique (hadmits r (hsome r hr)), hos'.unique (hadmits r' (hsome r' hr'))]
      have hsame : ∀ r ∈ [nop, halt], r.flags = {} ∧ r.length = 1 :=
        List.forall_mem_cons.mpr ⟨⟨rfl, rfl⟩, List.forall_mem_singleton.mpr ⟨rfl, rfl⟩⟩
      exact ⟨(hsame r hr).1.trans (hsame r' hr').1.symm, (hsame r hr).2.trans (hsame r' hr').2.symm,
        rfl⟩
    obtain ⟨d, hd⟩ := hmerge.mpr ⟨List.cons_ne_nil _ _,
      fun r hr => ⟨[], hadmits r (hsome r hr)⟩, huniform⟩
    obtain ⟨_, _, _, hperm⟩ := hmerged d hd
    obtain ⟨ms, hms, _⟩ := hperm [halt, nop] (List.Perm.swap nop halt [])
    exact ⟨d, hd, ms, hms⟩
  · have hsome : ∀ r ∈ [nop, scf], r ∈ [nop, scf, halt] :=
      List.forall_mem_cons.mpr ⟨hnop, List.forall_mem_singleton.mpr hscf⟩
    obtain ⟨_, _, hdivergent⟩ := merge_uniform (f := bareFamily) ofText_threeRows.1 hsome
    have hdiffer : ¬bareFamily.Uniform [nop, scf] := by
      intro h
      have hflags := (h nop List.mem_cons_self scf (List.mem_cons_of_mem _ List.mem_cons_self)
        [] [] (hadmits nop hnop) (hadmits scf hscf)).1
      exact absurd hflags (by decide)
    obtain ⟨gs, lines, hlines, hreported, _, hkeys⟩ :=
      hdivergent (fun r hr => ⟨[], hadmits r (hsome r hr)⟩) hdiffer
    injection hreport.symm.trans hlines with hfault
    injection hfault with _ hwritten
    exact ⟨gs, lines, hwritten.symm, hreported, hkeys⟩

end Sm83Codegen
