import Sm83Codegen.Proofs.Fixtures

/-!
# Names of test cases

The name of a case is put together from the encoding of its family, its opcode, its kind and its
label. Different cases have different ones of these; their names are the same where the labels of
two cases of an opcode differ only in what a slug leaves out, or where the encoding of a family
goes on as a case of another family does.

* `CaseOrigin` -- what a case gets its name from; `Descriptor.origins` -- those of an opcode;
* `slug_digits` -- the opcode in a name, which no word of a kind can be taken for;
* `CaseOrigin.SameSlug`, `CaseOrigin.RunsInto` -- the two ways of having one name;
  `name_eq_iff` -- there are no others;
* `testBlock_names` -- the cases of an opcode have the names of its origins;
* `origins_nodup` -- no two cases that are generated have one origin;
* `generate_caseNames` -- which names are the same, for every generation that succeeds.
-/

namespace Sm83Codegen

open Logged (bind_eq_ok)

/-! ## 1. What a name is made from -/

/-- What a case is for, and gets its name from. -/
structure CaseOrigin where
  encoding : String
  key : OpcodeKey
  kind : ScenarioKind
  label : Option String
  deriving DecidableEq, Repr

/-- What a label adds to a name. -/
def labelSuffix : Option String → String
  | some label => "_" ++ Text.slug label
  | none => ""

namespace CaseOrigin

/-- The part of a name that its opcode and its kind make. -/
def middle (o : CaseOrigin) : String := "_" ++ o.key.slug ++ "_" ++ o.kind.slug

/-- A name without its label. -/
def stem (o : CaseOrigin) : String := o.encoding ++ o.middle

/-- The name of the case. -/
def name (o : CaseOrigin) : String := o.stem ++ labelSuffix o.label

/-- Two cases of an opcode and a kind have different labels with one slug. -/
structure SameSlug (o o' : CaseOrigin) : Prop where
  encoding : o.encoding = o'.encoding
  key : o.key = o'.key
  kind : o.kind = o'.kind
  labels : ∃ l l', o.label = some l ∧ o'.label = some l' ∧ l ≠ l' ∧ Text.slug l = Text.slug l'

/-- The encoding of the second case goes on from the first case without its label, and the label
    goes on as the name of the second does. -/
def RunsInto (o o' : CaseOrigin) : Prop :=
  ∃ rest, o'.encoding = o.stem ++ rest ∧
    labelSuffix o.label = rest ++ o'.middle ++ labelSuffix o'.label

end CaseOrigin

namespace Descriptor

variable {d : Descriptor} {m : Member} {k : ScenarioKind} {s : Scenario}

/-- The origin of the case of a scenario. -/
def origin (d : Descriptor) (m : Member) (k : ScenarioKind) (s : Scenario) : CaseOrigin :=
  ⟨d.family.encodedName, m.key, k, s.label⟩

theorem caseName_eq : d.caseName m k s = (d.origin m k s).name := by
  unfold caseName CaseOrigin.name CaseOrigin.stem CaseOrigin.middle labelSuffix origin
  cases s.label with
  | none => simp [String.append_assoc]
  | some label => simp [String.append_assoc]

/-- The origins of the cases of an opcode, in order. -/
def origins (d : Descriptor) (m : Member) : List CaseOrigin :=
  ((d.family.fixtures m.operands).ordered.filter (fun c => !c.2.skip)).map
    (fun c => d.origin m c.1 c.2)

end Descriptor

/-! ## 2. Digits and kinds -/

namespace Text

theorem hexDigitLower_mem : ∀ n < 16, hexDigitLower n ∈ "0123456789abcdef".toList := by decide

theorem hexDigitLower_inj : ∀ n < 16, ∀ n' < 16, hexDigitLower n = hexDigitLower n' → n = n' := by
  decide

theorem toList_hexByteLower (b : UInt8) :
    (hexByteLower b).toList = [hexDigitLower (b.toNat / 16), hexDigitLower (b.toNat % 16)] := by
  rw [hexByteLower, String.toList_ofList]

theorem hexByteLower_inj {b b' : UInt8}
    (h : (hexByteLower b).toList = (hexByteLower b').toList) : b = b' := by
  rw [toList_hexByteLower, toList_hexByteLower] at h
  obtain ⟨hhigh, h⟩ := List.cons.inj h
  obtain ⟨hlow, _⟩ := List.cons.inj h
  have hb := b.toNat_lt
  have hb' := b'.toNat_lt
  have hhigh := hexDigitLower_inj _ (by omega) _ (by omega) hhigh
  have hlow := hexDigitLower_inj _ (by omega) _ (by omega) hlow
  exact UInt8.toNat_inj.mp (by omega)

end Text

namespace OpcodeKey

theorem toList_slug (k : OpcodeKey) :
    k.slug.toList = k.bytes.flatMap (fun b => (Text.hexByteLower b).toList) := by
  unfold slug
  rw [String.toList_join, List.flatMap_map]

/-- The opcode in a name is written in digits, two at least. -/
theorem slug_digits (k : OpcodeKey) : (∃ x y rest, k.slug.toList = x :: y :: rest) ∧
    ∀ c ∈ k.slug.toList, c ∈ "0123456789abcdef".toList := by
  constructor
  · obtain ⟨page, opcode⟩ := k
    rw [toList_slug]
    cases page <;> simp [bytes, Text.toList_hexByteLower]
  · intro c hc
    rw [toList_slug] at hc
    obtain ⟨b, _, hc⟩ := List.mem_flatMap.mp hc
    have hb := b.toNat_lt
    rw [Text.toList_hexByteLower] at hc
    rcases List.mem_cons.mp hc with rfl | hc
    · exact Text.hexDigitLower_mem _ (by omega)
    · rw [List.mem_singleton.mp hc]
      exact Text.hexDigitLower_mem _ (by omega)

theorem underscore_not_mem_slug (k : OpcodeKey) : '_' ∉ k.slug.toList := fun h =>
  absurd (k.slug_digits.2 _ h) (by decide)

/-- Opcodes of one page are told apart by their digits, whatever follows these. -/
theorem slug_append_inj {k k' : OpcodeKey} (hpage : k.page = k'.page) {l l' : List Char}
    (h : k.slug.toList ++ l = k'.slug.toList ++ l') : k = k' ∧ l = l' := by
  obtain ⟨page, opcode⟩ := k
  obtain ⟨page', opcode'⟩ := k'
  obtain rfl : page = page' := hpage
  have hlength (opcode : UInt8) :
      (slug ⟨page, opcode⟩).toList.length = 2 * (if page.isSome then 2 else 1) := by
    rw [toList_slug]
    cases page <;> simp [bytes, Text.toList_hexByteLower]
  obtain ⟨hslug, hl⟩ := List.append_inj h ((hlength opcode).trans (hlength opcode').symm)
  refine ⟨?_, hl⟩
  have hopcode : (Text.hexByteLower opcode).toList = (Text.hexByteLower opcode').toList := by
    rw [toList_slug, toList_slug] at hslug
    cases page with
    | none => simpa [bytes] using hslug
    | some p => simpa [bytes] using hslug
  rw [Text.hexByteLower_inj hopcode]

end OpcodeKey

/-- No kind is the beginning of another. -/
theorem kind_append_inj {k k' : ScenarioKind} {l l' : List Char}
    (h : k.slug.toList ++ l = k'.slug.toList ++ l') : k = k' ∧ l = l' := by
  cases k with
  | baseline =>
    cases k' with
    | baseline => exact ⟨rfl, List.append_cancel_left h⟩
    | flagCase f => simp [ScenarioKind.slug] at h
  | flagCase f =>
    cases k' with
    | baseline => simp [ScenarioKind.slug] at h
    | flagCase f' =>
      have hletter : f.smallLetter = f'.smallLetter ∧ l = l' := by
        simpa [ScenarioKind.slug] using h
      refine ⟨?_, hletter.2⟩
      have hflag := hletter.1
      cases f <;> cases f' <;> first | rfl | simp [Flag.smallLetter] at hflag

/-! ## 3. Names that are the same -/

/-- A text that is cut at one of its underscores is cut at its first one or behind it. -/
theorem cut_at_underscore {a b a' b' : List Char} (ha : '_' ∉ a)
    (h : a ++ '_' :: b = a' ++ '_' :: b') : a' = a ∧ b' = b ∨ ∃ q, b = q ++ '_' :: b' := by
  rcases List.append_eq_append_iff.mp h with ⟨q, ha', hq⟩ | ⟨q, rfl, hq⟩
  · cases q with
    | nil => exact .inl ⟨ha'.trans (List.append_nil a), (List.cons.inj hq).2.symm⟩
    | cons c q => exact .inr ⟨q, (List.cons.inj hq).2⟩
  · cases q with
    | nil => exact .inl ⟨(List.append_nil a').symm, (List.cons.inj hq).2⟩
    | cons c q =>
      obtain ⟨rfl, _⟩ := List.cons.inj hq
      exact absurd (List.mem_append_right a' List.mem_cons_self) ha

/-- What follows an underscore in a kind. -/
theorem kind_after_underscore {k : ScenarioKind} {q w : List Char}
    (h : k.slug.toList = q ++ '_' :: w) : ∃ c, w = [c] := by
  cases k with
  | baseline =>
    have hmem : '_' ∈ ScenarioKind.baseline.slug.toList := by simp [h]
    exact absurd hmem (by decide)
  | flagCase f =>
    have hslug : (ScenarioKind.flagCase f).slug.toList =
        "flag".toList ++ '_' :: [f.smallLetter] := by
      simp [ScenarioKind.slug]
    rw [hslug] at h
    rcases cut_at_underscore (by decide) h with ⟨_, rfl⟩ | ⟨q', hq'⟩
    · exact ⟨_, rfl⟩
    · cases q' with
      | nil =>
        have hletter := (List.cons.inj hq').1
        cases f <;> cases hletter
      | cons c q' =>
        have hrest := (List.cons.inj hq').2
        cases q' <;> cases hrest

theorem toList_labelSuffix (label : Option String) :
    (labelSuffix label).toList = [] ∨ ∃ l, (labelSuffix label).toList = '_' :: l := by
  cases label with
  | none => exact .inl rfl
  | some label =>
    refine .inr ⟨(Text.slug label).toList, ?_⟩
    simp [labelSuffix]

/-- Neither a kind nor what follows an underscore in it reads as an opcode. -/
theorem kind_ne_opcode {k : ScenarioKind} {key : OpcodeKey} {label : Option String}
    {w l : List Char} (hw : w = k.slug.toList ∨ ∃ c, w = [c]) :
    w ++ (labelSuffix label).toList ≠ key.slug.toList ++ '_' :: l := by
  intro h
  obtain ⟨⟨x, y, rest, hslug⟩, hdigits⟩ := key.slug_digits
  rw [hslug] at h hdigits
  have hy : y ∈ "0123456789abcdef".toList := hdigits y (by simp)
  rcases hw with rfl | ⟨c, rfl⟩
  · cases k with
    | baseline =>
      -- the third character is an underscore, a digit, or the s of the kind
      rw [show ScenarioKind.baseline.slug.toList = ['b', 'a', 's', 'e'] from rfl] at h
      have hthird : rest ++ '_' :: l = 's' :: 'e' :: (labelSuffix label).toList :=
        (List.cons.inj (List.cons.inj h).2).2.symm
      cases rest with
      | nil => cases hthird
      | cons z rest =>
        have hz : z ∈ "0123456789abcdef".toList := hdigits z (by simp)
        rw [(List.cons.inj hthird).1] at hz
        exact absurd hz (by decide)
    | flagCase f =>
      have hsecond : 'l' = y := by
        simp [ScenarioKind.slug] at h
        exact h.2.1
      rw [← hsecond] at hy
      exact absurd hy (by decide)
  · have hsuffix : (labelSuffix label).toList = y :: (rest ++ '_' :: l) := (List.cons.inj h).2
    rcases toList_labelSuffix label with hnil | ⟨l', hl'⟩
    · rw [hnil] at hsuffix
      cases hsuffix
    · rw [hl'] at hsuffix
      rw [← (List.cons.inj hsuffix).1] at hy
      exact absurd hy (by decide)

namespace CaseOrigin

variable {o o' : CaseOrigin}

theorem toList_middle (o : CaseOrigin) :
    o.middle.toList = '_' :: (o.key.slug.toList ++ '_' :: o.kind.slug.toList) := by
  simp [middle]

theorem toList_name (o : CaseOrigin) :
    o.name.toList = o.encoding.toList ++ (o.middle.toList ++ (labelSuffix o.label).toList) := by
  simp [name, stem]

/-- A name in which a longer encoding can be read has that encoding go on behind its kind. -/
theorem goes_on {r : List Char} (hr : r ≠ [])
    (h : o.middle.toList ++ (labelSuffix o.label).toList =
      r ++ (o'.middle.toList ++ (labelSuffix o'.label).toList)) :
    ∃ w, r = o.middle.toList ++ w ∧
      (labelSuffix o.label).toList = w ++ (o'.middle.toList ++ (labelSuffix o'.label).toList) := by
  rcases List.append_eq_append_iff.mp h with ⟨w, hmiddle, hsuffix⟩ | ⟨w, hmiddle, htail⟩
  · exact ⟨w, hmiddle, hsuffix⟩
  · rw [toList_middle] at hmiddle
    rw [toList_middle] at htail
    cases w with
    | nil =>
      refine ⟨[], ?_, ?_⟩
      · rw [toList_middle, hmiddle, List.append_nil, List.append_nil]
      · rw [toList_middle]
        exact htail.symm
    | cons c w =>
      -- otherwise the opcode of the second case is read inside the first opcode and kind
      cases r with
      | nil => exact absurd rfl hr
      | cons b r =>
        rw [List.cons_append, List.cons_append, List.append_assoc] at htail
        rw [List.cons_append] at hmiddle
        obtain ⟨rfl, hread⟩ := List.cons.inj htail
        obtain ⟨_, hcut⟩ := List.cons.inj hmiddle
        have hw : w = o.kind.slug.toList ∨ ∃ c, w = [c] := by
          rcases cut_at_underscore o.key.underscore_not_mem_slug hcut with ⟨_, hw⟩ | ⟨q, hq⟩
          · exact .inl hw
          · exact .inr (kind_after_underscore hq)
        exact absurd hread.symm (kind_ne_opcode hw)

/-- One encoding goes on from the other, if it is longer. -/
theorem runsInto_of_name_eq {r : List Char} (hr : r ≠ []) (h : o.name = o'.name)
    (hencoding : o'.encoding.toList = o.encoding.toList ++ r) : o.RunsInto o' := by
  have hlist := congrArg String.toList h
  rw [toList_name, toList_name, hencoding, List.append_assoc] at hlist
  obtain ⟨w, rfl, hsuffix⟩ := goes_on hr (List.append_cancel_left hlist)
  refine ⟨String.ofList w, ?_, ?_⟩
  · refine String.toList_inj.mp ?_
    simp [stem, hencoding]
  · refine String.toList_inj.mp ?_
    simp [hsuffix]

theorem RunsInto.name_eq (h : o.RunsInto o') : o.name = o'.name := by
  obtain ⟨rest, hencoding, hlabel⟩ := h
  unfold name
  rw [hlabel, stem, stem, hencoding]
  simp [stem, String.append_assoc]

theorem SameSlug.name_eq (h : o.SameSlug o') : o.name = o'.name := by
  obtain ⟨l, l', hl, hl', _, hslug⟩ := h.labels
  unfold name stem middle
  rw [h.encoding, h.key, h.kind, hl, hl', labelSuffix, labelSuffix, hslug]

theorem sameSlug_of_name_eq (hne : o ≠ o') (h : o.name = o'.name)
    (hencoding : o.encoding = o'.encoding) (hpage : o.key.page = o'.key.page) : o.SameSlug o' := by
  have hlist := congrArg String.toList h
  rw [toList_name, toList_name, hencoding, toList_middle, toList_middle] at hlist
  have hrest := List.append_cancel_left hlist
  rw [List.cons_append, List.cons_append, List.append_assoc, List.append_assoc] at hrest
  have hrest := (List.cons.inj hrest).2
  obtain ⟨hkey, hrest⟩ := OpcodeKey.slug_append_inj hpage hrest
  obtain ⟨hkind, hsuffix⟩ := kind_append_inj (List.cons.inj hrest).2
  have hsuffix : labelSuffix o.label = labelSuffix o'.label := String.toList_inj.mp hsuffix
  have hlabels : o.label ≠ o'.label := by
    intro hlabel
    obtain ⟨e, key, kind, label⟩ := o
    obtain ⟨e', key', kind', label'⟩ := o'
    obtain rfl : e = e' := hencoding
    obtain rfl : key = key' := hkey
    obtain rfl : kind = kind' := hkind
    obtain rfl : label = label' := hlabel
    exact hne rfl
  refine ⟨hencoding, hkey, hkind, ?_⟩
  cases hl : o.label with
  | none =>
    cases hl' : o'.label with
    | none => exact absurd (hl.trans hl'.symm) hlabels
    | some l' =>
      rw [hl, hl'] at hsuffix
      have hlist := congrArg String.toList hsuffix
      simp [labelSuffix] at hlist
  | some l =>
    cases hl' : o'.label with
    | none =>
      rw [hl, hl'] at hsuffix
      have hlist := congrArg String.toList hsuffix
      simp [labelSuffix] at hlist
    | some l' =>
      rw [hl, hl'] at hsuffix
      refine ⟨l, l', rfl, rfl, fun heq => hlabels ?_, (String.append_right_inj _).mp hsuffix⟩
      rw [hl, hl', heq]

/-- **Different cases have one name in two ways only**: by labels with one slug, or by an encoding
    that goes on from the other. -/
theorem name_eq_iff (hne : o ≠ o') (hpage : o.encoding = o'.encoding → o.key.page = o'.key.page) :
    o.name = o'.name ↔ o.SameSlug o' ∨ o.RunsInto o' ∨ o'.RunsInto o := by
  constructor
  · intro h
    by_cases hencoding : o.encoding = o'.encoding
    · exact .inl (sameSlug_of_name_eq hne h hencoding (hpage hencoding))
    · have hlist := congrArg String.toList h
      rw [toList_name, toList_name] at hlist
      have hdiffer {p q r : List Char} (hp : p = q ++ r) (hpq : p ≠ q) : r ≠ [] := by
        rintro rfl
        exact hpq (hp.trans (List.append_nil q))
      have hlists : o.encoding.toList ≠ o'.encoding.toList := fun heq =>
        hencoding (String.toList_inj.mp heq)
      rcases List.append_eq_append_iff.mp hlist with ⟨r, hr, _⟩ | ⟨r, hr, _⟩
      · exact .inr (.inl (runsInto_of_name_eq (hdiffer hr hlists.symm) h hr))
      · exact .inr (.inr (runsInto_of_name_eq (hdiffer hr hlists) h.symm hr))
  · rintro (h | h | h)
    · exact h.name_eq
    · exact h.name_eq
    · exact h.name_eq.symm

end CaseOrigin

/-! ## 4. The cases of an opcode -/

section Opcode

variable {d : Descriptor} {m : Member} {k : ScenarioKind} {s : Scenario}

theorem testCase_name {c : TestCase} (h : d.testCase m k s = .ok c) :
    c.name = (d.origin m k s).name := by
  obtain ⟨_, _, _, _, _, _, rfl⟩ := testCase_made h
  exact Descriptor.caseName_eq

theorem map_testCase_name {ss : List (ScenarioKind × Scenario)} {cs : List TestCase}
    (h : ss.map (fun x => d.testCase m x.1 x.2) = cs.map .ok) :
    cs.map TestCase.name = (ss.map (fun x => d.origin m x.1 x.2)).map CaseOrigin.name := by
  induction ss generalizing cs with
  | nil => rw [List.map_eq_nil_iff.mp h.symm, List.map_nil, List.map_nil, List.map_nil]
  | cons x ss ih =>
    cases cs with
    | nil => cases h
    | cons c cs =>
      obtain ⟨hc, hcs⟩ := List.cons.inj h
      rw [List.map_cons, List.map_cons, List.map_cons, testCase_name hc, ih hcs]

/-- **The cases of an opcode have the names of its origins**, which are different. -/
theorem testBlock_names {b : TestBlock} (h : (d.testBlock m).result = .ok b) :
    b.cases.map TestCase.name = (d.origins m).map CaseOrigin.name ∧ (d.origins m).Nodup := by
  obtain ⟨_, _, hcases, hnodup, _⟩ := testBlock_made h
  refine ⟨map_testCase_name hcases, ?_⟩
  have hkept : (((d.family.fixtures m.operands).ordered.filter (fun x => !x.2.skip)).map
      (fun x => (x.1, x.2.label))).Nodup :=
    hnodup.sublist (List.Sublist.map _ List.filter_sublist)
  refine List.Nodup.of_map (fun o : CaseOrigin => (o.kind, o.label)) ?_
  unfold Descriptor.origins
  rw [List.map_map]
  exact hkept

theorem mem_origins {o : CaseOrigin} : o ∈ d.origins m ↔
    ∃ s, (o.kind, s) ∈ (d.family.fixtures m.operands).cases ∧ s.skip = false ∧
      o = d.origin m o.kind s := by
  unfold Descriptor.origins
  rw [List.mem_map]
  constructor
  · rintro ⟨⟨k, s⟩, hs, rfl⟩
    obtain ⟨hs, hskip⟩ := List.mem_filter.mp hs
    exact ⟨s, mem_ordered.mp hs, by simpa using hskip, rfl⟩
  · rintro ⟨s, hs, hskip, ho⟩
    exact ⟨(o.kind, s), List.mem_filter.mpr ⟨mem_ordered.mpr hs, by simp [hskip]⟩, ho.symm⟩

end Opcode

/-! ## 5. All cases -/

/-- The names of the cases that are generated, in order. -/
def Generated.caseNames (g : Generated) : List String :=
  g.tests.flatMap (fun b => b.cases.map TestCase.name)

/-- The origins of the cases of the selected opcodes, in order. -/
def originsOf (s : Selection) (ds : List Descriptor) : List CaseOrigin :=
  ds.flatMap (fun d => (d.members.filter (fun m => s.selects m.key)).flatMap d.origins)

/-- A case is generated: some family claims its opcode, which is selected, and has a scenario of its
    kind and label that is not left out. -/
def Table.Emits (t : Table) (catalog : List Family) (s : Selection) (o : CaseOrigin) : Prop :=
  ∃ f ∈ catalog, o.encoding = f.encodedName ∧ o.key ∈ f.keys ∧ s.selects o.key = true ∧
    ∃ r m scenario, t.find? o.key = some r ∧ (Member.ofRecord f r).result = .ok m ∧
      (o.kind, scenario) ∈ (f.fixtures m.operands).cases ∧ scenario.skip = false ∧
      o.label = scenario.label

section All

variable {text : String} {catalog : List Family} {t : Table} {c : ClaimedTable}
  {ds : List Descriptor} {s : Selection}

theorem caseNames_ofSections (hready : ∀ d ∈ ds, d.Ready s) :
    (Generated.ofSections (ds.map (Descriptor.sectionOf s))).caseNames =
      (originsOf s ds).map CaseOrigin.name := by
  unfold Generated.caseNames Generated.ofSections originsOf Descriptor.sectionOf
  rw [List.map_flatMap, List.flatMap_assoc, List.flatMap_map]
  refine List.flatMap_congr fun d hd => ?_
  rw [List.map_flatMap, List.map_map, List.flatMap_map]
  refine List.flatMap_congr fun m hm => ?_
  obtain ⟨hm, hs⟩ := List.mem_filter.mp hm
  obtain ⟨b, hb⟩ := (hready d hd).tests m hm hs
  rw [← (testBlock_names hb).1, ← block_eq hb]
  rfl

theorem mem_originsOf {o : CaseOrigin} : o ∈ originsOf s ds ↔
    ∃ d ∈ ds, ∃ m ∈ d.members, s.selects m.key = true ∧ o ∈ d.origins m := by
  unfold originsOf
  simp [and_assoc]

/-- The origins are those of the cases that the table and the catalog make. -/
theorem Assembly.mem_originsOf (h : Assembly t catalog ds) {o : CaseOrigin} :
    o ∈ originsOf s ds ↔ t.Emits catalog s o := by
  rw [Sm83Codegen.mem_originsOf]
  constructor
  · rintro ⟨d, hd, m, hm, hs, ho⟩
    obtain ⟨_, hmerged⟩ := h.merged d hd
    obtain ⟨scenario, hcase, hskip, heq⟩ := mem_origins.mp ho
    have hkey : o.key = m.key := congrArg CaseOrigin.key heq
    refine ⟨d.family, h.family_mem hd, congrArg CaseOrigin.encoding heq, ?_, ?_, m.record, m, scenario, ?_,
      hmerged.members m hm, hcase, hskip, congrArg CaseOrigin.label heq⟩
    · rw [hkey]
      exact h.claimed d hd m hm
    · rw [hkey]
      exact hs
    · rw [hkey]
      exact h.recorded d hd m hm
  · rintro ⟨f, hf, hencoding, hkey, hs, r, m, scenario, hr, hm, hcase, hskip, hlabel⟩
    obtain ⟨d, hd, rfl, m', hm', hkey'⟩ := h.complete f hf o.key hkey
    obtain ⟨_, hmerged⟩ := h.merged d hd
    -- the member is made from the record that the table has for its key
    have hrecord := h.recorded d hd m' hm'
    rw [hkey', hr] at hrecord
    obtain rfl := Option.some.inj hrecord
    obtain rfl := Except.ok.inj (hm.symm.trans (hmerged.members m' hm'))
    rw [← hkey'] at hs
    refine ⟨d, hd, m, hm', hs, mem_origins.mpr ⟨scenario, hcase, hskip, ?_⟩⟩
    unfold Descriptor.origin
    rw [← hencoding, hkey', ← hlabel]

/-- **No two cases have one origin**: opcodes are claimed once, and encodings and the kinds and
    labels of an opcode are checked. -/
theorem Prepared.originsOf_nodup (h : Prepared text catalog c ds) (hready : ∀ d ∈ ds, d.Ready s) :
    (originsOf s ds).Nodup := by
  have hencodings : (ds.map (fun d => d.family.encodedName)).Nodup := by
    have hnodup := (checkFamilies_nodup h.checked).1
    rw [← h.families, List.map_map] at hnodup
    exact hnodup
  have hkey {d : Descriptor} {m : Member} {o : CaseOrigin} (ho : o ∈ d.origins m) :
      o.encoding = d.family.encodedName ∧ o.key = m.key := by
    obtain ⟨_, _, _, heq⟩ := mem_origins.mp ho
    exact ⟨congrArg CaseOrigin.encoding heq, congrArg CaseOrigin.key heq⟩
  refine List.nodup_flatMap.mpr ⟨fun d hd => ?_, ?_⟩
  · refine List.nodup_flatMap.mpr ⟨fun m hm => ?_, ?_⟩
    · obtain ⟨hm, hs⟩ := List.mem_filter.mp hm
      obtain ⟨b, hb⟩ := (hready d hd).tests m hm hs
      exact (testBlock_names hb).2
    · obtain ⟨_, hascending, _⟩ := h.memberKeys hd
      refine ((List.pairwise_map.mp hascending).filter _).imp fun hlt o ho ho' => ?_
      rw [← (hkey ho).2, ← (hkey ho').2] at hlt
      exact Nat.lt_irrefl _ hlt
  · refine (List.pairwise_map.mp hencodings).imp fun hne o ho ho' => ?_
    obtain ⟨_, _, ho⟩ := List.mem_flatMap.mp ho
    obtain ⟨_, _, ho'⟩ := List.mem_flatMap.mp ho'
    exact hne ((hkey ho).1.symm.trans (hkey ho').1)

end All

/-! ## 6. Which names are the same -/

theorem CaseOrigin.RunsInto.ne {o o' : CaseOrigin} (h : o.RunsInto o') : o ≠ o' := by
  rintro rfl
  obtain ⟨rest, hencoding, _⟩ := h
  have hlength := congrArg (fun s => s.toList.length) hencoding
  simp [stem, middle] at hlength

/-- **The names of cases are different but for two reasons.** Every case has an origin of its own,
    and its name is that of its origin. Two cases have one name if they are of one opcode and kind
    and their labels, which differ, have one slug; or if the encoding of the family of one goes on
    from the stem of the other, and the label of that one goes on as the rest of the name. So the
    names are different if there are no such two. -/
theorem generate_caseNames {text : String} {catalog : List Family} {s : Selection} {a : Artifacts}
    (h : (generate text catalog s).result = .ok a) :
    ∃ (t : Table) (g : Generated) (os : List CaseOrigin), (Table.ofText text).result = .ok t ∧
      (assemble text catalog s).result = .ok g ∧ a = g.artifacts ∧
      g.caseNames = os.map CaseOrigin.name ∧ os.Nodup ∧ (∀ o, o ∈ os ↔ t.Emits catalog s o) ∧
      (∀ o ∈ os, ∀ o' ∈ os, o ≠ o' →
        (o.name = o'.name ↔ o.SameSlug o' ∨ o.RunsInto o' ∨ o'.RunsInto o)) ∧
      (g.caseNames.Nodup ↔ ∀ o ∈ os, ∀ o' ∈ os, ¬o.SameSlug o' ∧ ¬o.RunsInto o') := by
  obtain ⟨g, hg, rfl⟩ := generate_eq_ok.mp h
  obtain ⟨c, ds, hprepared, _, hready, rfl⟩ := assemble_eq_ok.mp hg
  obtain ⟨t, ht, _, _, hplaced⟩ := hprepared.placed
  have hassembly := hplaced.assembly
  have hnodup := hprepared.originsOf_nodup hready
  have hmem : ∀ o, o ∈ originsOf s ds ↔ t.Emits catalog s o := fun o => hassembly.mem_originsOf
  have hencodings := (checkFamilies_nodup hprepared.checked).1
  -- the opcodes of a family are on its page
  have hpage : ∀ o ∈ originsOf s ds, ∀ o' ∈ originsOf s ds, o.encoding = o'.encoding →
      o.key.page = o'.key.page := by
    intro o ho o' ho' heq
    obtain ⟨f, hf, hencoding, hkey, _⟩ := (hmem o).mp ho
    obtain ⟨f', hf', hencoding', hkey', _⟩ := (hmem o').mp ho'
    have hsame : f = f' := List.inj_on_of_nodup_map hencodings hf hf'
      (hencoding.symm.trans (heq.trans hencoding'))
    subst hsame
    obtain ⟨_, _, hkey⟩ := List.mem_map.mp hkey
    obtain ⟨_, _, hkey'⟩ := List.mem_map.mp hkey'
    rw [← hkey, ← hkey']
  have hiff : ∀ o ∈ originsOf s ds, ∀ o' ∈ originsOf s ds, o ≠ o' →
      (o.name = o'.name ↔ o.SameSlug o' ∨ o.RunsInto o' ∨ o'.RunsInto o) :=
    fun o ho o' ho' hne => CaseOrigin.name_eq_iff hne (hpage o ho o' ho')
  refine ⟨t, _, originsOf s ds, ht, hg, rfl, caseNames_ofSections hready, hnodup, hmem, hiff, ?_⟩
  rw [caseNames_ofSections hready, List.nodup_map_iff_inj_on hnodup]
  constructor
  · intro hinj o ho o' ho'
    refine ⟨fun hslug => ?_, fun hruns => hruns.ne (hinj o ho o' ho' hruns.name_eq)⟩
    obtain ⟨l, l', hl, hl', hne, _⟩ := hslug.labels
    rw [hinj o ho o' ho' hslug.name_eq, hl'] at hl
    exact hne (Option.some.inj hl).symm
  · intro hnone o ho o' ho' hname
    refine Decidable.byContradiction fun hne => ?_
    rcases (hiff o ho o' ho' hne).mp hname with h | h | h
    · exact (hnone o ho o' ho').1 h
    · exact (hnone o ho o' ho').2 h
    · exact (hnone o' ho' o ho).2 h

/-- A family of one opcode with a baseline case under each of some labels. -/
def labelledFamily (name : String) (opcode : UInt8) (labels : List (Option String)) : Family where
  name := name
  opcodes := [opcode]
  fragment := .verbatim ""
  fixtures _ := { cases := labels.map (fun label => (.baseline, { label := label })) }

theorem exists_caseNames (families : List Family) (names : List String)
    (h : (assembleTable (threeRecords .unaffected) families {}).map Generated.caseNames =
      .ok names) :
    ∃ g, (assemble (threeRows "-") families {}).result = .ok g ∧
      (generate (threeRows "-") families {}).result = .ok g.artifacts ∧ g.caseNames = names := by
  cases hg : assembleTable (threeRecords .unaffected) families {} with
  | error e =>
    rw [hg] at h
    cases h
  | ok g =>
    rw [hg] at h
    rw [← assemble_ofTable ofText_threeRows.1] at hg
    exact ⟨g, hg, generate_eq_ok.mpr ⟨g, hg, rfl⟩, Except.ok.inj h⟩

/-- Only one case has a label. -/
def oneLabel : List Family :=
  [labelledFamily "NOP" 0x00 [none, some "a"], labelledFamily "HALT" 0x76 [none]]

/-- With one label at most nothing can be the same. -/
theorem generate_caseNames_oneLabel : ∃ g, (assemble (threeRows "-") oneLabel {}).result = .ok g ∧
    g.caseNames = ["nop_00_base", "nop_00_base_a", "halt_76_base"] ∧ g.caseNames.Nodup := by
  obtain ⟨g, hg, ha, hnames⟩ := exists_caseNames oneLabel
    ["nop_00_base", "nop_00_base_a", "halt_76_base"] (by rfl)
  refine ⟨g, hg, hnames, ?_⟩
  obtain ⟨t, g', os, _, hg', _, _, _, hemits, _, hnodup⟩ := generate_caseNames ha
  obtain rfl := Except.ok.inj (hg.symm.trans hg')
  have hlabel : ∀ o ∈ os, o.label = none ∨ o.label = some "a" := by
    intro o ho
    obtain ⟨f, hf, _, _, _, _, _, _, _, _, hcase, _, hlabel⟩ := (hemits o).mp ho
    rw [hlabel]
    rcases List.mem_cons.mp hf with rfl | hf
    · rcases List.mem_cons.mp hcase with hcase | hcase
      · rw [(Prod.mk.inj hcase).2]
        exact .inl rfl
      · rw [(Prod.mk.inj (List.mem_singleton.mp hcase)).2]
        exact .inr rfl
    · rw [List.mem_singleton.mp hf] at hcase
      rw [(Prod.mk.inj (List.mem_singleton.mp hcase)).2]
      exact .inl rfl
  refine hnodup.mpr fun o ho o' ho' => ⟨fun hslug => ?_, fun hruns => ?_⟩
  · obtain ⟨l, l', hl, hl', hne, _⟩ := hslug.labels
    have hl := hl.symm.trans ((hlabel o ho).resolve_left (by simp [hl]))
    have hl' := hl'.symm.trans ((hlabel o' ho').resolve_left (by simp [hl']))
    exact hne (Option.some.inj (hl.trans hl'.symm))
  · obtain ⟨rest, _, hsuffix⟩ := hruns
    obtain ⟨⟨x, y, digits, hdigits⟩, _⟩ := o'.key.slug_digits
    have hshort : (labelSuffix o.label).toList.length ≤ 2 := by
      rcases hlabel o ho with hl | hl
      · rw [hl]
        decide
      · rw [hl]
        decide
    rw [hsuffix] at hshort
    simp [CaseOrigin.toList_middle, hdigits] at hshort
    omega

/-- The labels of NOP have one slug. -/
def oneSlug : List Family := [labelledFamily "NOP" 0x00 [some "a b", some "a-b"]]

/-- The encoding of the second family goes on as a case of the first does. -/
def goingOn : List Family :=
  [labelledFamily "A" 0x00 [some "b 76 base"], labelledFamily "A 00 base b" 0x76 [none]]

/-- Two cases can have one name, and nothing is reported: of one opcode, or of two families. -/
theorem caseNames_collide :
    (∃ g, (generate (threeRows "-") oneSlug {}).result = .ok g.artifacts ∧
      (assemble (threeRows "-") oneSlug {}).result = .ok g ∧
      g.caseNames = ["nop_00_base_a_b", "nop_00_base_a_b"] ∧ ¬g.caseNames.Nodup) ∧
    ∃ g, (generate (threeRows "-") goingOn {}).result = .ok g.artifacts ∧
      (assemble (threeRows "-") goingOn {}).result = .ok g ∧
      g.caseNames = ["a_00_base_b_76_base", "a_00_base_b_76_base"] ∧ ¬g.caseNames.Nodup := by
  constructor
  · obtain ⟨g, hg, ha, hnames⟩ := exists_caseNames oneSlug
      ["nop_00_base_a_b", "nop_00_base_a_b"] (by rfl)
    refine ⟨g, ha, hg, hnames, ?_⟩
    rw [hnames]
    decide
  · obtain ⟨g, hg, ha, hnames⟩ := exists_caseNames goingOn
      ["a_00_base_b_76_base", "a_00_base_b_76_base"] (by rfl)
    refine ⟨g, ha, hg, hnames, ?_⟩
    rw [hnames]
    decide

end Sm83Codegen
