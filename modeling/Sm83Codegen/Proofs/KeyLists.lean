import Sm83Codegen.Output
import Sm83Codegen.Proofs.CaseNames
import Sm83Codegen.Proofs.KeySpellings
import Sm83Codegen.Proofs.Selection

/-!
# Lists of opcode keys

A list of keys on the command line selects the opcodes that it names.

* `Writes` -- a key in either of its written forms, in any case; such a form is a documented
  spelling;
* `ListsKeys` -- keys between commas, with white space around them;
* `selectionOf_eq_ok`, `opcodeList_parses` -- the texts of a list, each read as a key;
* `overlay_opcodes` -- the selection of settings over which a list is laid.
-/

namespace Sm83Codegen

open Logged (bind_eq_ok)
open Text (Blanks lowered NamesByte)

/-! ## 1. Written forms in any case -/

namespace OpcodeKey

/-- A text is a written form of a key, in any case: as it is displayed, or its identifier
    fragment. -/
def Writes (k : OpcodeKey) (cs : List Char) : Prop :=
  cs.map lowered = k.display.toList.map lowered ∨ cs.map lowered = k.slug.toList.map lowered

theorem lowered_same {c : Char} : (lowered c = '0' → c = '0') ∧ (lowered c = ' ' → c = ' ') ∧
    (lowered c = 'x' → c = 'x' ∨ c = 'X') := by
  by_cases hc : c.toNat < 91
  · exact Text.forall_char (P := fun c => (lowered c = '0' → c = '0') ∧
      (lowered c = ' ' → c = ' ') ∧ (lowered c = 'x' → c = 'x' ∨ c = 'X')) (by decide) hc
  · rw [Text.lowered_eq_self hc]
    exact ⟨id, id, .inl⟩

/-- A byte in two digits, in any case. -/
theorem namesByte_of_lowered {b : UInt8} {cs ds : List Char} (hds : NamesByte b ds)
    (h : cs.map lowered = ds.map lowered) : NamesByte b cs := by
  rw [← Text.namesByte_map Text.hexValue?_lowered, h, Text.namesByte_map Text.hexValue?_lowered]
  exact hds

/-- A mark, in any case. -/
theorem isMark_of_lowered {ms : List Char} (h : ms.map lowered = ['0', 'x']) : IsMark ms := by
  obtain ⟨a, rest, rfl, ha, hrest⟩ := List.map_eq_cons_iff.mp h
  obtain ⟨x, tail, rfl, hx, htail⟩ := List.map_eq_cons_iff.mp hrest
  cases List.map_eq_nil_iff.mp htail
  cases lowered_same.1 ha
  rcases lowered_same.2.2 hx with rfl | rfl
  · exact .inr (.inl rfl)
  · exact .inr (.inr rfl)

/-- A byte as it is displayed, in any case: a mark and two digits. -/
theorem exists_mark {b : UInt8} {cs : List Char}
    (h : cs.map lowered = (Text.hex8 b).toList.map lowered) :
    ∃ ms ds, cs = ms ++ ds ∧ IsMark ms ∧ ds.map lowered = (Text.hexByte b).toList.map lowered := by
  rw [Text.hex8, String.toList_append, List.map_append] at h
  obtain ⟨ms, ds, rfl, hms, hds⟩ := List.map_eq_append_iff.mp h
  exact ⟨ms, ds, rfl, isMark_of_lowered hms, hds⟩

/-- The digits of the second page, in any case. -/
theorem exists_page {cs : List Char} (h : cs.map lowered = ['c', 'b']) :
    ∃ c d, cs = [c, d] ∧ Text.hexValue? c = some 12 ∧ Text.hexValue? d = some 11 := by
  obtain ⟨c, rest, rfl, hc, hrest⟩ := List.map_eq_cons_iff.mp h
  obtain ⟨d, tail, rfl, hd, htail⟩ := List.map_eq_cons_iff.mp hrest
  cases List.map_eq_nil_iff.mp htail
  refine ⟨c, d, rfl, ?_, ?_⟩
  · rw [← Text.hexValue?_lowered, hc]
    rfl
  · rw [← Text.hexValue?_lowered, hd]
    rfl

/-- The two digits of a byte, in any case. -/
theorem exists_digits {b : UInt8} {cs ds : List Char} (hds : NamesByte b ds) (htwo : ds.length = 2)
    (h : cs.map lowered = ds.map lowered) : ∃ e f, cs = [e, f] ∧ NamesByte b [e, f] := by
  have hlength : cs.length = 2 := by
    rw [← cs.length_map lowered, h, List.length_map, htwo]
  obtain ⟨e, f, rfl⟩ := List.length_eq_two.mp hlength
  exact ⟨e, f, rfl, namesByte_of_lowered hds h⟩

theorem hexByteLower_names (b : UInt8) : NamesByte b (Text.hexByteLower b).toList := by
  have hb := b.toNat_lt
  rw [Text.toList_hexByteLower]
  exact .two (Text.hexValue?_hexDigitLower _ (by omega)) (Text.hexValue?_hexDigitLower _ (by omega))
    (by omega)

/-- A key as it is displayed, in any case. -/
theorem documented_of_display {k : OpcodeKey} {cs : List Char}
    (hpage : k.page = none ∨ k.page = some secondPage)
    (h : cs.map lowered = k.display.toList.map lowered) : Documented k cs := by
  obtain ⟨page, b⟩ := k
  rcases hpage with rfl | rfl
  · obtain ⟨ms, ds, rfl, hms, hds⟩ := exists_mark h
    exact .plain hms (namesByte_of_lowered (Text.hexByte_names b) hds)
  · have hdisplay : (display ⟨some secondPage, b⟩).toList =
        (Text.hex8 secondPage).toList ++ [' '] ++ (Text.hex8 b).toList := by
      unfold display
      rw [String.toList_append, String.toList_append]
      rfl
    rw [hdisplay, List.map_append, List.map_append] at h
    obtain ⟨front, back, rfl, hfront, hback⟩ := List.map_eq_append_iff.mp h
    obtain ⟨page, space, rfl, hpage, hspace⟩ := List.map_eq_append_iff.mp hfront
    obtain ⟨ms, cb, rfl, hms, hcb⟩ := exists_mark hpage
    obtain ⟨c, d, rfl, hc, hd⟩ := exists_page hcb
    obtain ⟨ns, ef, rfl, hns, hef⟩ := exists_mark hback
    obtain ⟨e, f, rfl, hbyte⟩ := exists_digits (Text.hexByte_names b)
      (congrArg List.length (Text.toList_hexByte b)) hef
    have hseparators : ∀ s ∈ space, isSeparator s = true := by
      obtain ⟨s, tail, rfl, hs, htail⟩ := List.map_eq_cons_iff.mp hspace
      cases List.map_eq_nil_iff.mp htail
      cases lowered_same.2.1 hs
      exact List.forall_mem_singleton.mpr rfl
    have hdocumented := Documented.paged hms hc hd hseparators hns hbyte
    rwa [List.append_assoc _ ns] at hdocumented

/-- The identifier fragment of a key, in any case. -/
theorem documented_of_slug {k : OpcodeKey} {cs : List Char}
    (hpage : k.page = none ∨ k.page = some secondPage)
    (h : cs.map lowered = k.slug.toList.map lowered) : Documented k cs := by
  obtain ⟨page, b⟩ := k
  rw [toList_slug] at h
  rcases hpage with rfl | rfl
  · change cs.map lowered = ((Text.hexByteLower b).toList ++ []).map lowered at h
    rw [List.append_nil] at h
    exact .plain (.inl rfl) (namesByte_of_lowered (hexByteLower_names b) h)
  · change cs.map lowered = ((Text.hexByteLower secondPage).toList ++
      ((Text.hexByteLower b).toList ++ [])).map lowered at h
    rw [List.append_nil, List.map_append] at h
    obtain ⟨cb, ef, rfl, hcb, hef⟩ := List.map_eq_append_iff.mp h
    obtain ⟨c, d, rfl, hc, hd⟩ := exists_page hcb
    obtain ⟨e, f, rfl, hbyte⟩ := exists_digits (hexByteLower_names b)
      (congrArg List.length (Text.toList_hexByteLower b)) hef
    have hseparators : ∀ s ∈ ([] : List Char), isSeparator s = true := nofun
    exact .paged (.inl rfl) hc hd hseparators (.inl rfl) hbyte

/-- **A written form of a key is a documented spelling of it.** -/
theorem Writes.documented {k : OpcodeKey} {cs : List Char} (h : k.Writes cs)
    (hpage : k.page = none ∨ k.page = some secondPage) : Documented k cs :=
  h.elim (documented_of_display hpage) (documented_of_slug hpage)

theorem isBlank_of_isHexDigit {c : Char} (h : Text.isHexDigit c = true) :
    Text.isBlank c = false := by
  unfold Text.isHexDigit Text.hexValue? at h
  unfold Text.isBlank
  simp only [Bool.and_eq_true, decide_eq_true_eq] at h
  simp only [Bool.or_eq_false_iff, Bool.and_eq_false_iff, decide_eq_false_iff_not,
    beq_eq_false_iff_ne]
  split_ifs at h
  · omega
  · omega
  · omega
  · cases h

/-- A documented spelling starts and ends with a digit or a mark. -/
theorem Documented.ends {k : OpcodeKey} {cs : List Char} (h : Documented k cs) :
    (∀ c ∈ cs.head?, Text.isBlank c = false) ∧ ∀ c ∈ cs.getLast?, Text.isBlank c = false := by
  have hdigits {ds : List Char} {b : UInt8} (hb : NamesByte b ds) :
      ∀ c ∈ ds, Text.isBlank c = false := fun c hc => isBlank_of_isHexDigit (hb.digits c hc)
  have hmark {ms ds : List Char} (hms : IsMark ms) (hds : ∀ c ∈ ds.head?, Text.isBlank c = false) :
      ∀ c ∈ (ms ++ ds).head?, Text.isBlank c = false := by
    rcases hms with rfl | rfl | rfl
    · exact hds
    · exact fun c hc => Option.some.inj hc ▸ rfl
    · exact fun c hc => Option.some.inj hc ▸ rfl
  cases h with
  | @plain b ms ds hms hb =>
    have hne : ds ≠ [] := by cases hb <;> exact List.cons_ne_nil _ _
    refine ⟨hmark hms fun c hc => hdigits hb c (List.mem_of_mem_head? hc), fun c hc => ?_⟩
    rw [List.getLast?_append_of_ne_nil _ hne] at hc
    exact hdigits hb c (List.mem_of_mem_getLast? hc)
  | @paged b c d e f ms ss ns hms hc hd hss hns hb =>
    constructor
    · rw [List.append_assoc, List.append_assoc, List.append_assoc]
      refine hmark hms fun x hx => ?_
      cases hx
      exact isBlank_of_isHexDigit (by rw [Text.isHexDigit, hc]; rfl)
    · intro x hx
      rw [List.getLast?_append_of_ne_nil _ (List.cons_ne_nil _ _)] at hx
      exact hdigits hb x (List.mem_of_mem_getLast? hx)

theorem Documented.comma_not_mem {k : OpcodeKey} {cs : List Char} (h : Documented k cs) :
    ',' ∉ cs := by
  obtain ⟨ds, hds, _⟩ := h.leaves
  exact fun hmem => absurd (hds.chars _ hmem) (by decide)

/-- **A key is read back from its written form.** -/
theorem parse?_display {k : OpcodeKey} (hpage : k.page = none ∨ k.page = some secondPage) :
    parse? k.display = some k := by
  have hdocumented : Documented k k.display.toList := documented_of_display hpage rfl
  obtain ⟨hhead, hlast⟩ := hdocumented.ends
  apply parse?_of_documented
  rwa [Text.trim_eq_self hhead hlast]

end OpcodeKey

/-! ## 2. Lists -/

/-- A part of a list: a written form of a key with white space around it, or white space alone. -/
inductive ListPart : List Char → List OpcodeKey → Prop
  | empty {bs : List Char} : Blanks bs → ListPart bs []
  | key {k : OpcodeKey} {bs cs es : List Char} : Blanks bs → k.Writes cs → Blanks es →
      (k.page = none ∨ k.page = some secondPage) → ListPart (bs ++ cs ++ es) [k]

/-- A list of keys: parts with a comma between them. -/
inductive ListsKeys : List Char → List OpcodeKey → Prop
  | last {cs : List Char} {ks : List OpcodeKey} : ListPart cs ks → ListsKeys cs ks
  | more {cs rest : List Char} {ks ls : List OpcodeKey} : ListPart cs ks → ListsKeys rest ls →
      ListsKeys (cs ++ ',' :: rest) (ks ++ ls)

/-- The opcodes that texts name are read one by one. -/
theorem selectionOf_eq_ok {ts : List String} {ks : List OpcodeKey} :
    selectionOf ts = .ok ks ↔ List.Forall₂ (fun t k => OpcodeKey.parse? t = some k) ts ks := by
  unfold selectionOf
  induction ts generalizing ks with
  | nil =>
    rw [List.mapM_nil, List.forall₂_nil_left_iff]
    exact ⟨fun h => (Except.ok.inj h).symm, fun h => congrArg _ h.symm⟩
  | cons t ts ih =>
    rw [List.mapM_cons, bind_eq_ok, List.forall₂_cons_left_iff]
    constructor
    · intro h
      obtain ⟨k, hk, h⟩ := h
      obtain ⟨ls, hls, h⟩ := bind_eq_ok.mp h
      cases h
      refine ⟨k, ls, ?_, ih.mp hls, rfl⟩
      split at hk
      · next l hl =>
        cases hk
        exact hl
      · cases hk
    · intro h
      obtain ⟨k, ls, hk, hls, rfl⟩ := h
      refine ⟨k, by rw [hk], ?_⟩
      rw [ih.mpr hls]
      rfl

/-- The texts that parts of a list leave. -/
def partTexts (parts : List (List Char)) : List String :=
  ((parts.map Text.trim).filter (fun p => !p.isEmpty)).map String.ofList

theorem partTexts_append (as bs : List (List Char)) :
    partTexts (as ++ bs) = partTexts as ++ partTexts bs := by
  unfold partTexts
  rw [List.map_append, List.filter_append, List.map_append]

namespace ListPart

variable {cs : List Char} {ks : List OpcodeKey}

theorem comma_not_mem (h : ListPart cs ks) : ∀ c ∈ cs, (c == ',') = false := by
  have hblanks {bs : List Char} (hbs : Blanks bs) : ',' ∉ bs := fun hmem => nomatch hbs ',' hmem
  suffices ',' ∉ cs from fun c hc => beq_eq_false_iff_ne.mpr fun heq => this (heq ▸ hc)
  cases h with
  | empty hbs => exact hblanks hbs
  | key hbs hk hes hpage =>
    intro hmem
    rw [List.mem_append, List.mem_append] at hmem
    rcases hmem with (hmem | hmem) | hmem
    · exact hblanks hbs hmem
    · exact (hk.documented hpage).comma_not_mem hmem
    · exact hblanks hes hmem

/-- A part of a list leaves a text for its key, if it has one. -/
theorem parses (h : ListPart cs ks) :
    List.Forall₂ (fun t k => OpcodeKey.parse? t = some k) (partTexts [cs]) ks := by
  unfold partTexts
  cases h with
  | empty hbs =>
    rw [List.map_singleton, Text.trim_blanks hbs]
    exact .nil
  | @key k bs cs es hbs hk hes hpage =>
    have hdocumented := hk.documented hpage
    have hends := hdocumented.ends
    have hparse : OpcodeKey.parse? (String.ofList cs) = some k := by
      refine OpcodeKey.parse?_of_documented ?_
      rwa [String.toList_ofList, Text.trim_eq_self hends.1 hends.2]
    rw [List.map_singleton, Text.trim_around hbs hes hends.1 hends.2]
    cases cs with
    | nil => cases hparse
    | cons c cs => exact .cons hparse .nil

end ListPart

/-- The texts of a list are read as its keys. -/
theorem opcodeList_parses {s : String} {ks : List OpcodeKey} (h : ListsKeys s.toList ks) :
    List.Forall₂ (fun t k => OpcodeKey.parse? t = some k) (opcodeList s) ks := by
  show List.Forall₂ _ (partTexts (Text.pieces (fun c => c == ',') s.toList)) ks
  generalize s.toList = cs at h ⊢
  induction h with
  | last hcs =>
    rw [Text.pieces_of_none hcs.comma_not_mem]
    exact hcs.parses
  | more hcs _ ih =>
    rw [Text.pieces_append_cons rfl, Text.pieces_of_none hcs.comma_not_mem, partTexts_append]
    exact List.rel_append hcs.parses ih

/-! ## 3. Settings -/

/-- A setting for which there is no argument stays as it is. -/
theorem Settings.overlay_unset (s : Settings) (a : Arguments) :
    (a.table = none → (s.overlay a).generator.tablePath = s.generator.tablePath) ∧
      (a.cpuFile = none → (s.overlay a).generator.cpuFile = s.generator.cpuFile) ∧
      (a.testsFile = none → (s.overlay a).generator.testsFile = s.generator.testsFile) ∧
      (a.logLevel = none → (s.overlay a).level = s.level) ∧
      (a.dryRun = false → (s.overlay a).generator.dryRun = s.generator.dryRun) := by
  unfold Settings.overlay
  refine ⟨fun h => ?_, fun h => ?_, fun h => ?_, fun h => ?_, fun h => ?_⟩
  · rw [h, Option.getD_none]
  · rw [h, Option.getD_none]
  · rw [h, Option.getD_none]
  · rw [h, Option.getD_none]
  · rw [h, Bool.or_false]

/-- **A list on the command line selects the keys that it names**, in order and each once, whatever
    the settings are; and a setting for which there is no argument stays as it is. -/
theorem overlay_opcodes {s : Settings} {a : Arguments} {text : String} {ks : List OpcodeKey}
    (htext : a.opcodes = some text) (hks : ListsKeys text.toList ks) :
    ∃ selection selected, settingsSelection (s.overlay a).generator = .ok selection ∧
      selection.keys = some selected ∧ Ascending selected ∧ (∀ k, k ∈ selected ↔ k ∈ ks) ∧
      (a.table = none → (s.overlay a).generator.tablePath = s.generator.tablePath) ∧
      (a.cpuFile = none → (s.overlay a).generator.cpuFile = s.generator.cpuFile) ∧
      (a.testsFile = none → (s.overlay a).generator.testsFile = s.generator.testsFile) ∧
      (a.logLevel = none → (s.overlay a).level = s.level) ∧
      (a.dryRun = false → (s.overlay a).generator.dryRun = s.generator.dryRun) := by
  obtain ⟨selected, hselected, hascending, hmem⟩ := Selection.ofKeys_keys ks
  have hread : selectionOf (opcodeList text) = .ok ks :=
    selectionOf_eq_ok.mpr (opcodeList_parses hks)
  have hopcodes : (s.overlay a).generator.opcodes = some (opcodeList text) := by
    unfold Settings.overlay
    rw [htext]
  refine ⟨.ofKeys ks, selected, ?_, hselected, hascending, hmem, s.overlay_unset a⟩
  unfold settingsSelection
  rw [hopcodes]
  show (selectionOf (opcodeList text)).map Selection.ofKeys = _
  rw [hread]
  rfl

/-- A list with a key twice, in both written forms, with the byte of the second page as an opcode,
    and with more commas than needed. -/
def mixedList : String := ", 0xcb 0X7c ,,06,0Xcb,CB7c"

theorem mixedList_keys :
    ListsKeys mixedList.toList [.paged 0x7C, .plain 0x06, .plain 0xCB, .paged 0x7C] := by
  have hnone : Blanks [] := nofun
  have hspace : Blanks [' '] := List.forall_mem_singleton.mpr rfl
  have hempty : ListPart [] [] := .empty hnone
  have hfirst : ListPart ([' '] ++ "0xcb 0X7c".toList ++ [' ']) [.paged 0x7C] :=
    .key hspace (.inl (by decide)) hspace (.inr rfl)
  have hsecond : ListPart ([] ++ "06".toList ++ []) [.plain 0x06] :=
    .key hnone (.inr (by decide)) hnone (.inl rfl)
  have hthird : ListPart ([] ++ "0Xcb".toList ++ []) [.plain 0xCB] :=
    .key hnone (.inl (by decide)) hnone (.inl rfl)
  have hfourth : ListPart ([] ++ "CB7c".toList ++ []) [.paged 0x7C] :=
    .key hnone (.inr (by decide)) hnone (.inr rfl)
  exact .more hempty (.more hfirst (.more hempty (.more hsecond (.more hthird (.last hfourth)))))

/-- Settings with opcodes and a target of their own. -/
def ownSettings : Settings where
  generator := { cpuFile := "cpu.rs", opcodes := some ["FF"], dryRun := true }

/-- Arguments with a table and a list. -/
def listArguments : Arguments where
  table := some "table.json"
  opcodes := some mixedList

/-- The list selects each of its keys once, and the target stays. -/
theorem overlay_opcodes_mixedList : ∃ selection,
    settingsSelection (ownSettings.overlay listArguments).generator = .ok selection ∧
      selection.keys = some [.plain 0x06, .plain 0xCB, .paged 0x7C] ∧
      (ownSettings.overlay listArguments).generator.cpuFile = "cpu.rs" ∧
      (ownSettings.overlay listArguments).generator.dryRun = true := by
  obtain ⟨selection, selected, hselection, hselected, hascending, hmem, _, hcpu, _, _, hdry⟩ :=
    overlay_opcodes (s := ownSettings) (a := listArguments) rfl mixedList_keys
  have hkeys : selected = [.plain 0x06, .plain 0xCB, .paged 0x7C] := by
    refine hascending.eq_of_mem_iff (by unfold Ascending; decide) fun k => ?_
    rw [hmem]
    simp only [List.mem_cons, List.not_mem_nil, or_false]
    tauto
  exact ⟨selection, hselection, hkeys ▸ hselected, hcpu rfl, hdry rfl⟩

end Sm83Codegen
