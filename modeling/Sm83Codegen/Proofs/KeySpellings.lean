import Mathlib.Data.List.Basic
import Mathlib.Tactic.SplitIfs
import Sm83Codegen.OpcodeKey
import Sm83Codegen.Proofs.Digits
import Sm83Codegen.Proofs.Trimming

/-!
# Spellings of opcode keys

The reader of a key takes away marks and separators before it looks at digits. So it reads every
spelling that the documentation has, and more: a mark may stand anywhere, also between the two
digits of a byte and behind them.

* `Documented` -- the documented spellings of a key;
* `Leaves` -- what is left of a text without marks and separators; `NamedBy` -- the key that digits
  name;
* `writtenOut` -- a text in which the one character whose capitals are two digits is written as
  these; `parse?_eq_some` -- what is read;
* `parse?_spelling` -- every documented spelling is read, and what a text that is read is made of.
-/

namespace Sm83Codegen.OpcodeKey

open Text (isHexDigit hexValue? NamesByte)

/-! ## 1. Capitals -/

/-- The character that is spelled `FF` in capitals. -/
def ligature : Char := Char.ofNat 0xFB00

/-- The capital of a character that has one of the same length. -/
def capital (c : Char) : Char :=
  if 97 ≤ c.toNat && c.toNat ≤ 122 then Char.ofNat (c.toNat - 32) else c

/-- A capital is the same digit or separator, and the same letter of a mark. -/
theorem capital_same (c : Char) : hexValue? (capital c) = hexValue? c ∧
    isSeparator (capital c) = isSeparator c ∧ (capital c = 'X' ↔ c = 'x' ∨ c = 'X') ∧
    (capital c = '0' ↔ c = '0') := by
  by_cases hc : c.toNat < 123
  · exact Text.forall_char (P := fun c => hexValue? (capital c) = hexValue? c ∧
      isSeparator (capital c) = isSeparator c ∧ (capital c = 'X' ↔ c = 'x' ∨ c = 'X') ∧
      (capital c = '0' ↔ c = '0')) (by decide) hc
  · have hself : capital c = c := if_neg fun hsmall => hc (by
      simp only [Bool.and_eq_true, decide_eq_true_eq] at hsmall
      omega)
    rw [hself]
    refine ⟨rfl, rfl, ⟨.inr, fun h => h.resolve_left fun hx => hc ?_⟩, Iff.rfl⟩
    rw [hx]
    decide

theorem hexValue?_capital (c : Char) : hexValue? (capital c) = hexValue? c := (capital_same c).1

theorem isHexDigit_capital (c : Char) : isHexDigit (capital c) = isHexDigit c := by
  unfold isHexDigit
  rw [hexValue?_capital]

theorem isSeparator_capital (c : Char) : isSeparator (capital c) = isSeparator c :=
  (capital_same c).2.1

theorem capital_eq_X {c : Char} : capital c = 'X' ↔ c = 'x' ∨ c = 'X' := (capital_same c).2.2.1

theorem capital_eq_zero {c : Char} : capital c = '0' ↔ c = '0' := (capital_same c).2.2.2

/-- A text with the ligature written out as two letters. -/
def writtenOut (cs : List Char) : List Char :=
  cs.flatMap (fun c => if c = ligature then ['F', 'F'] else [c])

theorem writtenOut_eq_self {cs : List Char} (h : ligature ∉ cs) : writtenOut cs = cs := by
  have hself : ∀ c ∈ cs, (if c = ligature then ['F', 'F'] else [c]) = [c] := by
    intro c hc
    refine if_neg fun heq => h ?_
    rwa [← heq]
  exact (List.flatMap_congr hself).trans (List.flatMap_singleton' cs)

theorem capitals_eq {c : Char} (h : c ≠ ligature) : capitals c = [capital c] := by
  unfold capitals capital
  split
  · rfl
  · split
    · next hligature =>
      refine absurd ?_ h
      rw [ligature, ← beq_iff_eq.mp hligature, Char.ofNat_toNat]
    · rfl

/-- The capitals of a text are those of its characters, once the ligature is written out. -/
theorem flatMap_capitals (cs : List Char) : cs.flatMap capitals = (writtenOut cs).map capital := by
  unfold writtenOut
  rw [List.map_flatMap]
  refine List.flatMap_congr fun c _ => ?_
  by_cases hc : c = ligature
  · subst hc
    rfl
  · rw [capitals_eq hc, if_neg hc]
    rfl

/-! ## 2. Marks and separators -/

/-- What is left of a text without its marks and separators: nothing but digits. -/
inductive Leaves : List Char → List Char → Prop
  | nil : Leaves [] []
  | mark {x : Char} {cs ds : List Char} : x = 'x' ∨ x = 'X' → Leaves cs ds →
      Leaves ('0' :: x :: cs) ds
  | separator {c : Char} {cs ds : List Char} : isSeparator c = true → Leaves cs ds →
      Leaves (c :: cs) ds
  | digit {c : Char} {cs ds : List Char} : isHexDigit c = true → Leaves cs ds →
      Leaves (c :: cs) (c :: ds)

namespace Leaves

variable {cs ds : List Char}

theorem digits (h : Leaves cs ds) : ∀ d ∈ ds, isHexDigit d = true := by
  induction h with
  | nil => exact fun d hd => absurd hd List.not_mem_nil
  | mark _ _ ih => exact ih
  | separator _ _ ih => exact ih
  | digit hc _ ih => exact List.forall_mem_cons.mpr ⟨hc, ih⟩

theorem chars (h : Leaves cs ds) :
    ∀ c ∈ cs, isHexDigit c = true ∨ c = 'x' ∨ c = 'X' ∨ isSeparator c = true := by
  induction h with
  | nil => exact fun c hc => absurd hc List.not_mem_nil
  | mark hx _ ih =>
    refine List.forall_mem_cons.mpr ⟨.inl rfl, List.forall_mem_cons.mpr ⟨?_, ih⟩⟩
    rcases hx with rfl | rfl
    · exact .inr (.inl rfl)
    · exact .inr (.inr (.inl rfl))
  | separator hc _ ih => exact List.forall_mem_cons.mpr ⟨.inr (.inr (.inr hc)), ih⟩
  | digit hc _ ih => exact List.forall_mem_cons.mpr ⟨.inl hc, ih⟩

theorem ligature_not_mem (h : Leaves cs ds) : ligature ∉ cs := fun hmem =>
  absurd (h.chars _ hmem) (by decide)

/-- No text starts with the letter of a mark. -/
theorem head (h : Leaves cs ds) : (cs.map capital).head? ≠ some 'X' := by
  cases h with
  | nil => exact nofun
  | mark _ _ => exact nofun
  | separator hc _ =>
    intro hX
    rw [List.map_cons, List.head?_cons, Option.some.injEq, capital_eq_X] at hX
    rcases hX with rfl | rfl <;> cases hc
  | digit hc _ =>
    intro hX
    rw [List.map_cons, List.head?_cons, Option.some.injEq, capital_eq_X] at hX
    rcases hX with rfl | rfl <;> cases hc

theorem append {bs es : List Char} (h : Leaves cs ds) (hbs : Leaves bs es) :
    Leaves (cs ++ bs) (ds ++ es) := by
  induction h with
  | nil => exact hbs
  | mark hx _ ih => exact .mark hx ih
  | separator hc _ ih => exact .separator hc ih
  | digit hc _ ih => exact .digit hc ih

theorem of_digits (h : ∀ d ∈ ds, isHexDigit d = true) : Leaves ds ds := by
  induction ds with
  | nil => exact .nil
  | cons d ds ih =>
    rw [List.forall_mem_cons] at h
    exact .digit h.1 (ih h.2)

theorem of_separators (h : ∀ c ∈ cs, isSeparator c = true) : Leaves cs [] := by
  induction cs with
  | nil => exact .nil
  | cons c cs ih =>
    rw [List.forall_mem_cons] at h
    exact .separator h.1 (ih h.2)

end Leaves

/-- A digit is no separator. -/
theorem isSeparator_eq_false {c : Char} (h : isHexDigit c = true) : isSeparator c = false := by
  have hne : ∀ s : Char, isHexDigit s = false → (c == s) = false := by
    intro s hs
    refine beq_eq_false_iff_ne.mpr fun heq => ?_
    rw [← heq, h] at hs
    cases hs
  unfold isSeparator
  rw [hne ':' rfl, hne ' ' rfl, hne '_' rfl]
  rfl

theorem withoutMarks_cons {c : Char} {cs : List Char} (h : c = '0' → cs.head? ≠ some 'X') :
    withoutMarks (c :: cs) = c :: withoutMarks cs := by
  rw [withoutMarks]
  rintro rest rfl rfl
  exact h rfl rfl

/-- The reader finds what is left. -/
theorem Leaves.raw {cs ds : List Char} (h : Leaves cs ds) :
    (withoutMarks (cs.map capital)).filter (fun c => !isSeparator c) = ds.map capital := by
  induction h with
  | nil => rfl
  | mark hx _ ih =>
    rw [List.map_cons, List.map_cons, capital_eq_X.mpr hx]
    exact ih
  | @separator c cs ds hc _ ih =>
    have hzero : capital c ≠ '0' := by
      rw [Ne, capital_eq_zero]
      rintro rfl
      cases hc
    rw [List.map_cons, withoutMarks_cons fun h => absurd h hzero, List.filter_cons_of_neg, ih]
    simp [isSeparator_capital, hc]
  | @digit c cs ds hc hcs ih =>
    rw [List.map_cons, withoutMarks_cons fun _ => hcs.head, List.filter_cons_of_pos, ih,
      List.map_cons]
    simp [isSeparator_capital, isSeparator_eq_false hc]

/-- A text from which the reader gets digits leaves these. -/
theorem exists_leaves : ∀ cs : List Char,
    ((withoutMarks (cs.map capital)).filter (fun c => !isSeparator c)).all isHexDigit = true →
      ∃ ds, Leaves cs ds
  | [], _ => ⟨[], .nil⟩
  | c :: cs, h => by
    by_cases hmark : c = '0' ∧ (cs.map capital).head? = some 'X'
    · obtain ⟨rfl, hhead⟩ := hmark
      match cs, hhead with
      | x :: cs, hhead =>
        have hx := Option.some.inj hhead
        rw [List.map_cons, List.map_cons, hx] at h
        obtain ⟨ds, hds⟩ := exists_leaves cs h
        exact ⟨ds, .mark (capital_eq_X.mp hx) hds⟩
    · rw [List.map_cons, withoutMarks_cons fun hc hX => hmark ⟨capital_eq_zero.mp hc, hX⟩] at h
      by_cases hc : isSeparator c = true
      · rw [List.filter_cons_of_neg (by simp [isSeparator_capital, hc])] at h
        obtain ⟨ds, hds⟩ := exists_leaves cs h
        exact ⟨ds, .separator hc hds⟩
      · rw [List.filter_cons_of_pos (by simp [isSeparator_capital, hc]), List.all_cons,
          Bool.and_eq_true, isHexDigit_capital] at h
        obtain ⟨ds, hds⟩ := exists_leaves cs h.2
        exact ⟨c :: ds, .digit h.1 hds⟩

/-! ## 3. Keys that are read -/

/-- The key that digits name: one or two digits, or `CB` and two digits. -/
inductive NamedBy : OpcodeKey → List Char → Prop
  | plain {b : UInt8} {ds : List Char} : NamesByte b ds → NamedBy (.plain b) ds
  | paged {b : UInt8} {c d e f : Char} : hexValue? c = some 12 → hexValue? d = some 11 →
      NamesByte b [e, f] → NamedBy (.paged b) [c, d, e, f]

/-- The capital of a digit is the one that is written for its value. -/
theorem capital_eq_hexDigit {c : Char} {n : Nat} (hc : hexValue? c = some n) :
    capital c = Text.hexDigit n := by
  have hlt : c.toNat < 103 := by
    unfold hexValue? at hc
    simp only [Bool.and_eq_true, decide_eq_true_eq] at hc
    split_ifs at hc <;> omega
  exact Text.forall_char (P := fun c => ∀ n ∈ hexValue? c, capital c = Text.hexDigit n)
    (by decide) hlt n hc

theorem byteOfHex?_capital {ds : List Char} (hds : ∀ d ∈ ds, isHexDigit d = true)
    (hlength : ds.length ≤ 2) {b : UInt8} :
    Text.byteOfHex? (ds.map capital) = some b ↔ NamesByte b ds := by
  have hcapital : ∀ d ∈ ds.map capital, isHexDigit d = true := by
    simpa [isHexDigit_capital] using hds
  rw [Text.byteOfHex?_eq_some hcapital (by rwa [List.length_map]),
    Text.namesByte_map hexValue?_capital]

/-- One or two digits are read as a key of the first page. -/
theorem plain_eq_some {ds : List Char} (hds : ∀ d ∈ ds, isHexDigit d = true)
    (hlength : ds.length ≤ 2) {k : OpcodeKey} :
    (Text.byteOfHex? (ds.map capital)).map plain = some k ↔ k.NamedBy ds := by
  rw [Option.map_eq_some_iff]
  constructor
  · intro h
    obtain ⟨b, hb, rfl⟩ := h
    exact .plain ((byteOfHex?_capital hds hlength).mp hb)
  · intro h
    cases h with
    | plain h => exact ⟨_, (byteOfHex?_capital hds hlength).mpr h, rfl⟩
    | paged _ _ _ => simp at hlength

/-- Four digits are read as a key of the second page. -/
theorem paged_eq_some {c d e f : Char} (hds : ∀ x ∈ [c, d, e, f], isHexDigit x = true)
    {k : OpcodeKey} : ofDigits? ([c, d, e, f].map capital) = some k ↔ k.NamedBy [c, d, e, f] := by
  have hall : ([c, d, e, f].map capital).all isHexDigit = true := by
    simpa [isHexDigit_capital] using hds
  have hlow : ∀ x ∈ [e, f], isHexDigit x = true := fun x hx => hds x (by simp_all)
  unfold ofDigits?
  rw [if_pos hall]
  by_cases hpage : capital c = 'C' ∧ capital d = 'B'
  · obtain ⟨hc, hd⟩ := hpage
    have hc12 : hexValue? c = some 12 := by
      rw [← hexValue?_capital, hc]
      rfl
    have hd11 : hexValue? d = some 11 := by
      rw [← hexValue?_capital, hd]
      rfl
    rw [List.map_cons, List.map_cons, hc, hd]
    show (Text.byteOfHex? ([e, f].map capital)).map paged = some k ↔ _
    rw [Option.map_eq_some_iff]
    constructor
    · intro h
      obtain ⟨b, hb, rfl⟩ := h
      exact .paged hc12 hd11 ((byteOfHex?_capital hlow (Nat.le_refl 2)).mp hb)
    · intro h
      cases h with
      | plain h => cases h
      | paged _ _ h => exact ⟨_, (byteOfHex?_capital hlow (Nat.le_refl 2)).mpr h, rfl⟩
  · constructor
    · intro h
      simp only [List.map_cons, List.map_nil] at h
      split at h
      · cases ‹_ = [_]›
      · cases ‹_ = [_, _]›
      · next heq =>
        simp only [List.cons.injEq] at heq
        exact absurd ⟨heq.1, heq.2.1⟩ hpage
      · cases h
    · intro h
      cases h with
      | plain h => cases h
      | paged hc hd _ => exact absurd ⟨capital_eq_hexDigit hc, capital_eq_hexDigit hd⟩ hpage

/-- The reader gives the key that digits name. -/
theorem ofDigits?_eq_some {ds : List Char} (hds : ∀ d ∈ ds, isHexDigit d = true) {k : OpcodeKey} :
    ofDigits? (ds.map capital) = some k ↔ k.NamedBy ds := by
  have hall : (ds.map capital).all isHexDigit = true := by
    simpa [isHexDigit_capital] using hds
  have hnone (hone : ∀ x, ds ≠ [x]) (htwo : ∀ x y, ds ≠ [x, y])
      (hfour : ∀ x y z w, ds ≠ [x, y, z, w]) : ¬k.NamedBy ds := by
    intro hk
    cases hk with
    | plain hb =>
      cases hb with
      | one _ => exact hone _ rfl
      | two _ _ _ => exact htwo _ _ rfl
    | paged _ _ _ => exact hfour _ _ _ _ rfl
  match ds, hds, hall, hnone with
  | [], _, _, hnone => exact iff_of_false nofun (hnone nofun nofun nofun)
  | [c], hds, hall, _ =>
    unfold ofDigits?
    rw [if_pos hall]
    exact plain_eq_some hds (by simp)
  | [c, d], hds, hall, _ =>
    unfold ofDigits?
    rw [if_pos hall]
    exact plain_eq_some hds (Nat.le_refl 2)
  | [c, d, e], _, hall, hnone =>
    unfold ofDigits?
    rw [if_pos hall]
    exact iff_of_false nofun (hnone nofun nofun nofun)
  | [c, d, e, f], hds, _, _ => exact paged_eq_some hds
  | c :: d :: e :: f :: g :: es, _, hall, hnone =>
    unfold ofDigits?
    rw [if_pos hall]
    exact iff_of_false nofun (hnone nofun nofun nofun)

/-- **What is read**: a text that leaves digits that name a key, once the ligature is written out. -/
theorem parse?_eq_some {s : String} {k : OpcodeKey} :
    parse? s = some k ↔ ∃ ds, Leaves (writtenOut (Text.trim s.toList)) ds ∧ k.NamedBy ds := by
  unfold parse? digitsOf
  rw [flatMap_capitals]
  constructor
  · intro h
    obtain ⟨ds, hds⟩ : ∃ ds, Leaves (writtenOut (Text.trim s.toList)) ds := by
      refine exists_leaves _ ?_
      unfold ofDigits? at h
      split at h
      · assumption
      · cases h
    rw [hds.raw, ofDigits?_eq_some hds.digits] at h
    exact ⟨ds, hds, h⟩
  · intro h
    obtain ⟨ds, hds, h⟩ := h
    rw [hds.raw, ofDigits?_eq_some hds.digits]
    exact h

/-- Of a text without the ligature, the same without writing it out. -/
theorem parse?_of_plain {s : String} (hs : ligature ∉ s.toList) {k : OpcodeKey} :
    parse? s = some k ↔ ∃ ds, Leaves (Text.trim s.toList) ds ∧ k.NamedBy ds := by
  rw [parse?_eq_some, writtenOut_eq_self fun h => hs (Text.mem_of_mem_trim h)]

/-! ## 4. Documented spellings -/

/-- The mark of a byte, which may be missing. -/
def IsMark (ms : List Char) : Prop := ms = [] ∨ ms = ['0', 'x'] ∨ ms = ['0', 'X']

/-- The documented spellings of a key, in either case: its byte in one or two digits, or `CB` and
    its byte in two, with a mark before each byte or not, and separators between the bytes or
    not. -/
inductive Documented : OpcodeKey → List Char → Prop
  | plain {b : UInt8} {ms ds : List Char} : IsMark ms → NamesByte b ds →
      Documented (.plain b) (ms ++ ds)
  | paged {b : UInt8} {c d e f : Char} {ms ss ns : List Char} : IsMark ms →
      hexValue? c = some 12 → hexValue? d = some 11 → (∀ s ∈ ss, isSeparator s = true) →
      IsMark ns → NamesByte b [e, f] → Documented (.paged b) (ms ++ [c, d] ++ ss ++ ns ++ [e, f])

theorem IsMark.leaves {ms : List Char} (h : IsMark ms) : Leaves ms [] := by
  rcases h with rfl | rfl | rfl
  · exact .nil
  · exact .mark (.inl rfl) .nil
  · exact .mark (.inr rfl) .nil

/-- A documented spelling leaves digits that name its key. -/
theorem Documented.leaves {k : OpcodeKey} {cs : List Char} (h : Documented k cs) :
    ∃ ds, Leaves cs ds ∧ k.NamedBy ds := by
  cases h with
  | plain hms hb => exact ⟨_, hms.leaves.append (.of_digits hb.digits), .plain hb⟩
  | @paged b c d e f ms ss ns hms hc hd hss hns hb =>
    have hpage : Leaves [c, d] [c, d] := .of_digits (by simp [isHexDigit, hc, hd])
    have hbyte : Leaves [e, f] [e, f] := .of_digits hb.digits
    exact ⟨_, (((hms.leaves.append hpage).append (.of_separators hss)).append hns.leaves).append
      hbyte, .paged hc hd hb⟩

theorem parse?_of_documented {s : String} {k : OpcodeKey} (h : Documented k (Text.trim s.toList)) :
    parse? s = some k := by
  obtain ⟨ds, hds, hk⟩ := h.leaves
  refine parse?_eq_some.mpr ⟨ds, ?_, hk⟩
  rwa [writtenOut_eq_self hds.ligature_not_mem]

/-- **The reader reads every documented spelling.** A text without the ligature is read exactly if
    its marks and separators leave digits that name a key, wherever they stand in the text; so it is
    made of digits, separators and the characters of marks. A text with the ligature is not read if
    it leaves no such digits with two letters in its place. -/
theorem parse?_spelling {s : String} {k : OpcodeKey} :
    (Documented k (Text.trim s.toList) → parse? s = some k) ∧
      (ligature ∉ s.toList →
        (parse? s = some k ↔ ∃ ds, Leaves (Text.trim s.toList) ds ∧ k.NamedBy ds) ∧
        (parse? s = some k → ∀ c ∈ Text.trim s.toList,
          isHexDigit c = true ∨ c = 'x' ∨ c = 'X' ∨ isSeparator c = true)) ∧
      (parse? s = some k →
        ∃ ds, Leaves (writtenOut (Text.trim s.toList)) ds ∧ k.NamedBy ds) := by
  refine ⟨parse?_of_documented, fun hs => ⟨parse?_of_plain hs, fun h => ?_⟩, parse?_eq_some.mp⟩
  obtain ⟨ds, hds, _⟩ := (parse?_of_plain hs).mp h
  exact hds.chars

/-- A documented spelling with everything that may be in one; one that is not documented; and the
    ligature before a letter that is no digit. -/
theorem parse?_spelling_marks : parse? "\t0xcB_0X7c " = some (.paged 0x7C) ∧
    parse? "00x6" = some (.plain 6) ∧
    (∀ c ∈ Text.trim "00x6".toList,
      isHexDigit c = true ∨ c = 'x' ∨ c = 'X' ∨ isSeparator c = true) ∧
    parse? (String.ofList [ligature, 'G']) = none := by
  have hsmall : IsMark ['0', 'x'] := .inr (.inl rfl)
  have hcapital : IsMark ['0', 'X'] := .inr (.inr rfl)
  have hseparator : ∀ s ∈ ['_'], isSeparator s = true := List.forall_mem_singleton.mpr rfl
  have hbyte : NamesByte 0x7C ['7', 'c'] := .two rfl rfl rfl
  have hpage : hexValue? 'c' = some 12 ∧ hexValue? 'B' = some 11 := ⟨rfl, rfl⟩
  have hdocumented : Documented (.paged 0x7C) (Text.trim "\t0xcB_0X7c ".toList) :=
    .paged hsmall hpage.1 hpage.2 hseparator hcapital hbyte
  have hleaves : Leaves (Text.trim "00x6".toList) ['0', '6'] :=
    .digit rfl (.mark (.inl rfl) (.digit rfl .nil))
  have hfree : ligature ∉ "00x6".toList := by decide
  have hinside := (parse?_spelling (k := .plain 6)).2.1 hfree
  have hread : parse? "00x6" = some (.plain 6) :=
    hinside.1.mpr ⟨_, hleaves, .plain (.two rfl rfl rfl)⟩
  have hletter : parse? (String.ofList [ligature, 'G']) = none := by
    refine Option.eq_none_iff_forall_ne_some.mpr fun k hk => ?_
    obtain ⟨ds, hds, _⟩ := parse?_spelling.2.2 hk
    exact absurd (hds.chars 'G' (by decide)) (by decide)
  exact ⟨parse?_spelling.1 hdocumented, hread, hinside.2 hread, hletter⟩

/-- Every mark leads a byte: whole bytes stand before it, and a digit follows. -/
def MarksLead (cs : List Char) : Prop :=
  ∀ as x bs, cs = as ++ '0' :: x :: bs → x = 'x' ∨ x = 'X' →
    (digitsOf as).length % 2 = 0 ∧ ∃ d ∈ bs.head?, isHexDigit d = true

/-- A mark is also read inside a byte and behind one, and the ligature for two digits. -/
theorem parse?_marks_anywhere :
    (parse? "00x6" = some (.plain 6) ∧ ¬MarksLead (Text.trim "00x6".toList)) ∧
      (parse? "060x" = some (.plain 6) ∧ ¬MarksLead (Text.trim "060x".toList)) ∧
      parse? (String.singleton ligature) = some (.plain 0xFF) ∧ isHexDigit ligature = false := by
  refine ⟨⟨by decide, fun h => ?_⟩, ⟨by decide, fun h => ?_⟩, by decide, by decide⟩
  · exact absurd (h ['0'] 'x' ['6'] rfl (.inl rfl)).1 (by decide)
  · obtain ⟨_, d, hd, _⟩ := h ['0', '6'] 'x' [] rfl (.inl rfl)
    cases hd

end Sm83Codegen.OpcodeKey
