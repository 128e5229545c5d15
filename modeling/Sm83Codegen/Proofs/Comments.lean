import Mathlib.Data.List.Basic
import Sm83Codegen.Catalog
import Sm83Codegen.Proofs.Bindings
import Sm83Codegen.Proofs.CycleCounts
import Sm83Codegen.Proofs.Fixtures
import Sm83Codegen.Proofs.Identifiers
import Sm83Codegen.Proofs.Selection
import Sm83Codegen.Proofs.Splicing
import Sm83Codegen.Proofs.Trimming

/-!
# Comments in the generated text

Markers are comments, so a generated line can only be taken for a marker if it is one. The branches
have no comments; a routine has its documentation, which starts with three slashes; the tests of an
opcode stand below a comment with the name that the table gives it, to the letter.

* `slash_not_mem_branch`, `slash_not_mem_fragment`, `slash_not_mem_testCase` -- texts without slashes;
* `unmarked_routine` -- a routine has no marked line;
* `Record.comment`, `unmarked_testBlock` -- the tests of an opcode have none but through the comment;
* `Record.unmarked_comment` -- a comment is harmless whose name starts with no underscore;
* `mem_lines_comment`, `generate_unmarked` -- the same for whole generations.
-/

namespace Sm83Codegen

open Logged (bind_eq_ok)

/-! ## 1. Layout -/

namespace Text

theorem slash_not_mem_join {ss : List String} (h : ∀ s ∈ ss, '/' ∉ s.toList) :
    '/' ∉ (String.join ss).toList := by
  rw [String.toList_join]
  intro hc
  obtain ⟨s, hs, hc⟩ := List.mem_flatMap.mp hc
  exact h s hs hc

theorem slash_not_mem_intercalate {sep : String} (hsep : '/' ∉ sep.toList) {ss : List String}
    (h : ∀ s ∈ ss, '/' ∉ s.toList) : '/' ∉ (String.intercalate sep ss).toList := by
  induction ss with
  | nil => simp
  | cons s ss ih =>
    have hs := h s List.mem_cons_self
    have hss := ih fun t ht => h t (List.mem_cons_of_mem s ht)
    cases ss with
    | nil => simpa using hs
    | cons t ss =>
      rw [String.intercalate_cons_cons, String.toList_append, String.toList_append,
        List.mem_append, List.mem_append]
      exact not_or.mpr ⟨not_or.mpr ⟨hs, hsep⟩, hss⟩

theorem slash_not_mem_commaSeparated {ss : List String} (h : ∀ s ∈ ss, '/' ∉ s.toList) :
    '/' ∉ (commaSeparated ss).toList :=
  slash_not_mem_intercalate (by simp) h

theorem slash_not_mem_indented {n : Nat} {s : String} (h : '/' ∉ s.toList) :
    '/' ∉ (indented n s).toList := by
  unfold indented
  split
  · simp
  · simp [spaces, List.mem_replicate, h]

theorem slash_not_mem_listed {n : Nat} {head tail : String} {items : List String}
    (hhead : '/' ∉ head.toList) (hitems : ∀ s ∈ items, '/' ∉ s.toList) (htail : '/' ∉ tail.toList) :
    ∀ l ∈ listed n head items tail, '/' ∉ l.toList := by
  have hcomma := slash_not_mem_commaSeparated hitems
  have hsingle : '/' ∉ (head ++ commaSeparated items ++ tail).toList := by
    rw [String.toList_append, String.toList_append, List.mem_append, List.mem_append]
    exact not_or.mpr ⟨not_or.mpr ⟨hhead, hcomma⟩, htail⟩
  intro l hl
  unfold listed at hl
  dsimp only at hl
  split at hl
  · rw [List.mem_singleton.mp hl]
    exact slash_not_mem_indented hsingle
  · rcases List.mem_cons.mp hl with rfl | hl
    · exact slash_not_mem_indented hhead
    · rcases List.mem_append.mp hl with hl | hl
      · obtain ⟨s, hs, rfl⟩ := List.mem_map.mp hl
        exact slash_not_mem_indented (by simp [hitems s hs])
      · rw [List.mem_singleton.mp hl]
        exact slash_not_mem_indented htail

theorem slash_not_mem_textOf {lines : List String} (h : ∀ l ∈ lines, '/' ∉ l.toList) :
    '/' ∉ (textOf lines).toList := by
  refine slash_not_mem_join fun s hs => ?_
  obtain ⟨l, hl, rfl⟩ := List.mem_map.mp hs
  simp [h l hl]

/-! ## 2. Numbers and names -/

@[simp] theorem slash_not_mem_digits (n : Nat) : '/' ∉ Nat.toDigits 10 n := by
  intro hc
  have hdigit := Nat.isDigit_of_mem_toDigits (by decide) (by decide) hc
  exact Bool.false_ne_true hdigit

theorem hexDigit_ne_slash : ∀ n < 16, hexDigit n ≠ '/' := by decide

theorem hexDigitLower_ne_slash : ∀ n < 16, hexDigitLower n ≠ '/' := by decide

@[simp] theorem slash_not_mem_hexByte (b : UInt8) : '/' ∉ (hexByte b).toList := by
  have hb := b.toNat_lt
  have hhigh := hexDigit_ne_slash (b.toNat / 16) (by omega)
  have hlow := hexDigit_ne_slash (b.toNat % 16) (by omega)
  simp [hexByte, hhigh.symm, hlow.symm]

@[simp] theorem slash_not_mem_hexByteLower (b : UInt8) : '/' ∉ (hexByteLower b).toList := by
  have hb := b.toNat_lt
  have hhigh := hexDigitLower_ne_slash (b.toNat / 16) (by omega)
  have hlow := hexDigitLower_ne_slash (b.toNat % 16) (by omega)
  simp [hexByteLower, hhigh.symm, hlow.symm]

@[simp] theorem slash_not_mem_hex8 (b : UInt8) : '/' ∉ (hex8 b).toList := by simp [hex8]

@[simp] theorem slash_not_mem_hex16 (w : UInt16) : '/' ∉ (hex16 w).toList := by simp [hex16]

@[simp] theorem slash_not_mem_truthText (b : Bool) : '/' ∉ (truthText b).toList := by
  cases b <;> simp [truthText]

@[simp] theorem slash_not_mem_slug (s : String) : '/' ∉ (slug s).toList := by
  intro hc
  rcases mem_slug hc with hunderscore | hsmall
  · exact absurd hunderscore (by decide)
  · exact absurd hsmall (by decide)

@[simp] theorem slash_not_mem_encodedName (s : String) : '/' ∉ (encodedName s).toList := by
  rw [encodedName_eq_slug]
  exact slash_not_mem_slug _

/-! ## 3. Blocks -/

theorem mem_of_mem_dropBytes {c : Char} {n : Nat} {cs : List Char} (h : c ∈ dropBytes n cs) :
    c ∈ cs := by
  induction cs generalizing n with
  | nil =>
    rw [dropBytes] at h
    exact h
  | cons d cs ih =>
    rw [dropBytes] at h
    split at h
    · exact h
    · split at h
      · exact List.mem_cons_of_mem d (ih h)
      · exact absurd h List.not_mem_nil

theorem mem_of_mem_withoutBlankEnds {l : List Char} {lines : List (List Char)}
    (h : l ∈ withoutBlankEnds lines) : l ∈ lines := by
  unfold withoutBlankEnds at h
  have h₁ := List.dropWhile_subset _ (List.mem_reverse.mp h)
  exact List.dropWhile_subset _ (List.mem_reverse.mp h₁)

/-- A block at another indentation has the characters of the block, and spaces. -/
theorem slash_not_mem_reindented {n : Nat} {block : String} (h : '/' ∉ block.toList) :
    ∀ l ∈ reindented n block, '/' ∉ l.toList := by
  intro l hl
  obtain ⟨cs, hcs, rfl⟩ := List.mem_map.mp hl
  obtain ⟨line, hline, rfl⟩ := List.mem_map.mp hcs
  obtain ⟨piece, hpiece, rfl⟩ := List.mem_map.mp (mem_of_mem_withoutBlankEnds hline)
  refine slash_not_mem_indented ?_
  rw [String.toList_ofList]
  intro hc
  exact h (of_mem_pieces hpiece (mem_of_mem_trimEnd (mem_of_mem_dropBytes hc))).1

end Text

open Text Splice

/-! ## 4. Branches -/

@[simp] theorem slash_not_mem_field (f : Flag) : '/' ∉ f.field.toList := by
  cases f <;> simp [Flag.field]

@[simp] theorem slash_not_mem_reg8 (r : Reg8) : '/' ∉ r.name.toList := by
  cases r <;> simp [Reg8.name]

@[simp] theorem slash_not_mem_reg16 (r : Reg16) : '/' ∉ r.name.toList := by
  cases r <;> simp [Reg16.name]

/-- An operand that means something is passed without slashes. -/
theorem slash_not_mem_operandArguments {o : Operand} (h : o.Denotes) :
    ∀ a ∈ operandArguments o, '/' ∉ a.text.toList := by
  intro a ha
  unfold Operand.Denotes at h
  unfold operandArguments at ha
  cases hkind : o.kind with
  | reg8 =>
    rw [hkind] at h ha
    obtain ⟨r, hr⟩ := h
    rw [List.mem_singleton.mp ha]
    simp [Argument.text, hr]
  | reg16 =>
    rw [hkind] at h ha
    obtain ⟨r, hr⟩ := h
    rw [List.mem_singleton.mp ha]
    simp [Argument.text, hr]
  | regSP =>
    rw [hkind] at h ha
    obtain ⟨r, hr⟩ := h
    rw [List.mem_singleton.mp ha]
    simp [Argument.text, hr]
  | imm8 =>
    rw [hkind] at ha
    rw [List.mem_singleton.mp ha]
    simp [Argument.text]
  | imm16 =>
    rw [hkind] at ha
    rw [List.mem_singleton.mp ha]
    simp [Argument.text]
  | literal =>
    rw [hkind] at ha
    rw [List.mem_singleton.mp ha]
    cases o.name.toList.all isDecimalDigit <;> simp [Argument.text]
  | condition =>
    rw [hkind] at ha
    dsimp only at ha
    split at ha
    · rcases List.mem_cons.mp ha with rfl | ha
      · simp [Argument.text]
      · rw [List.mem_singleton.mp ha]
        simp [Argument.text]
    · exact absurd ha List.not_mem_nil

theorem slash_not_mem_arguments (d : Descriptor) {m : Member} (h : ∀ o ∈ m.operands, o.Denotes) :
    ∀ a ∈ d.arguments m, '/' ∉ a.text.toList := by
  intro a ha
  rcases mem_arguments.mp ha with rfl | ⟨_, rfl⟩ | ⟨w, rfl, _⟩ | ⟨o, ho, ha⟩ | ⟨u, _, rfl⟩
  · simp [Argument.text]
  · simp [Argument.text]
  · cases w <;> simp [Argument.text]
  · exact slash_not_mem_operandArguments (h o ho) a ha
  · cases u <;> simp [flagArgument, Argument.text]

theorem slash_not_mem_pattern (ps : List PatternItem) :
    '/' ∉ (String.intercalate ", " (ps.map PatternItem.text)).toList := by
  refine slash_not_mem_commaSeparated fun s hs => ?_
  obtain ⟨p, _, rfl⟩ := List.mem_map.mp hs
  cases p <;> simp [PatternItem.text]

theorem slash_not_mem_branch {b : Branch} (hroutine : '/' ∉ b.routine.toList)
    (harguments : ∀ a ∈ b.arguments, '/' ∉ a.text.toList) : '/' ∉ b.text.toList := by
  have hitems : ∀ s ∈ b.arguments.map Argument.text, '/' ∉ s.toList := by
    intro s hs
    obtain ⟨a, ha, rfl⟩ := List.mem_map.mp hs
    exact harguments a ha
  have hpattern := slash_not_mem_pattern b.pattern
  unfold Branch.text
  rw [Branch.lines_eq]
  refine slash_not_mem_textOf (List.forall_mem_append.mpr ⟨List.forall_mem_append.mpr ⟨?_, ?_⟩, ?_⟩)
  · exact List.forall_mem_singleton.mpr (by simpa using hpattern)
  · cases b.untaken with
    | none =>
      refine List.forall_mem_append.mpr ⟨slash_not_mem_listed (by simp [hroutine]) hitems (by simp),
        List.forall_mem_singleton.mpr (by simp)⟩
    | some untaken =>
      refine List.forall_mem_append.mpr ⟨slash_not_mem_listed (by simp [hroutine]) hitems (by simp),
        ?_⟩
      simp
  · exact List.forall_mem_singleton.mpr (by simp)

/-! ## 5. Fragments -/

@[simp] theorem slash_not_mem_binding (b : Binding) : '/' ∉ b.text.toList := by
  cases b <;> simp [Binding.text]

@[simp] theorem slash_not_mem_intType (t : IntType) : '/' ∉ t.text.toList := by
  cases t <;> simp [IntType.text]

@[simp] theorem slash_not_mem_registerTerm (r : RegisterTerm) : '/' ∉ r.text.toList := by
  cases r <;> simp [RegisterTerm.text]

@[simp] theorem slash_not_mem_binaryOp (op : BinaryOp) : '/' ∉ op.text.toList := by
  cases op <;> simp [BinaryOp.text]

theorem slash_not_mem_hexDigits (n digits : Nat) : '/' ∉ hexDigits n digits := by
  induction digits generalizing n with
  | zero => exact List.not_mem_nil
  | succ digits ih =>
    have hdigit := hexDigit_ne_slash (n % 16) (by omega)
    simp [hexDigits, ih, hdigit.symm]

theorem slash_not_mem_spelling (t : IntType) (n : Nat) (s : Spelling) :
    '/' ∉ (s.text t n).toList := by
  cases s <;> simp [Spelling.text, slash_not_mem_hexDigits]

theorem slash_not_mem_expr (e : Expr) : '/' ∉ e.text.toList := by
  induction e with
  | get b => exact slash_not_mem_binding b
  | through b => exact slash_not_mem_binding b
  | deref b =>
    show '/' ∉ ("*" ++ b.text).toList
    simp
  | number t n s => exact slash_not_mem_spelling t n s
  | truth b => exact slash_not_mem_truthText b
  | register r =>
    show '/' ∉ ("registers[" ++ r.text ++ "]").toList
    simp
  | pair r =>
    show '/' ∉ ("registers.get16(" ++ r.text ++ ")").toList
    simp
  | byteAt a ha =>
    show '/' ∉ ("memory[" ++ a.text ++ "]").toList
    simp [ha]
  | cast e t he =>
    show '/' ∉ (e.text ++ " as " ++ t.text).toList
    simp [he]
  | group e he =>
    show '/' ∉ ("(" ++ e.text ++ ")").toList
    simp [he]
  | complement e he =>
    show '/' ∉ ("!" ++ e.text).toList
    simp [he]
  | binary op l r hl hr =>
    show '/' ∉ (l.text ++ " " ++ op.text ++ " " ++ r.text).toList
    simp [hl, hr]
  | wrappingAdd l r hl hr =>
    show '/' ∉ (l.text ++ ".wrapping_add(" ++ r.text ++ ")").toList
    simp [hl, hr]
  | wrappingSub l r hl hr =>
    show '/' ∉ (l.text ++ ".wrapping_sub(" ++ r.text ++ ")").toList
    simp [hl, hr]
  | rotateLeft e n he =>
    show '/' ∉ (e.text ++ ".rotate_left(" ++ toString n ++ ")").toList
    simp [he]
  | rotateRight e n he =>
    show '/' ∉ (e.text ++ ".rotate_right(" ++ toString n ++ ")").toList
    simp [he]
  | ofBytes l h hl hh =>
    show '/' ∉ ("u16::from_le_bytes([" ++ l.text ++ ", " ++ h.text ++ "])").toList
    simp [hl, hh]

theorem slash_not_mem_place (p : Place) : '/' ∉ p.text.toList := by
  cases p with
  | named b => exact slash_not_mem_binding b
  | deref b =>
    show '/' ∉ ("*" ++ b.text).toList
    simp
  | register r =>
    show '/' ∉ ("registers[" ++ r.text ++ "]").toList
    simp
  | byteAt a =>
    show '/' ∉ ("memory[" ++ a.text ++ "]").toList
    simp [slash_not_mem_expr]

theorem slash_not_mem_byteName (b : Option Binding) : '/' ∉ (byteName b).toList := by
  cases b <;> simp [byteName]

theorem slash_not_mem_statement (s : Statement) : '/' ∉ s.text.toList := by
  cases s with
  | bind b e =>
    show '/' ∉ ("let " ++ b.text ++ " = " ++ e.text ++ ";").toList
    simp [slash_not_mem_expr]
  | bindMutable b e =>
    show '/' ∉ ("let mut " ++ b.text ++ " = " ++ e.text ++ ";").toList
    simp [slash_not_mem_expr]
  | drop e =>
    show '/' ∉ ("let _ = " ++ e.text ++ ";").toList
    simp [slash_not_mem_expr]
  | bindBytes l h e =>
    show '/' ∉ ("let [" ++ byteName l ++ ", " ++ byteName h ++ "] = " ++ e.text ++
      ".to_le_bytes();").toList
    simp [slash_not_mem_expr, slash_not_mem_byteName]
  | assign p e =>
    show '/' ∉ (p.text ++ " = " ++ e.text ++ ";").toList
    simp [slash_not_mem_expr, slash_not_mem_place]
  | update op p e =>
    show '/' ∉ (p.text ++ " " ++ op.text ++ "= " ++ e.text ++ ";").toList
    simp [slash_not_mem_expr, slash_not_mem_place]
  | setPair r e =>
    show '/' ∉ ("registers.set16(" ++ r.text ++ ", " ++ e.text ++ ");").toList
    simp [slash_not_mem_expr]

/-- The lines of a choice, with or without what is done otherwise. -/
theorem lines_choose (c : Expr) (yes no rest : Program) :
    ∃ otherwise : List String,
      (otherwise = [] ∨ otherwise = "else \x7b" :: (no.lines.map (indented 4) ++ ["\x7d"])) ∧
      (Program.choose c yes no rest).lines = ("if " ++ c.text ++ " \x7b") ::
        (yes.lines.map (indented 4) ++ "\x7d" :: (otherwise ++ rest.lines)) := by
  have hassoc (ls : List String) : ("else \x7b" :: (ls ++ ["\x7d"])) ++ rest.lines =
      "else \x7b" :: (ls ++ "\x7d" :: rest.lines) := by
    rw [List.cons_append, List.append_assoc]
    rfl
  cases no with
  | done => exact ⟨[], .inl rfl, rfl⟩
  | blank no => exact ⟨_, .inr rfl, by rw [hassoc]; rfl⟩
  | step s no => exact ⟨_, .inr rfl, by rw [hassoc]; rfl⟩
  | choose c' yes' no' no => exact ⟨_, .inr rfl, by rw [hassoc]; rfl⟩

theorem slash_not_mem_program (p : Program) : ∀ l ∈ p.lines, '/' ∉ l.toList := by
  induction p with
  | done => exact fun l hl => absurd hl List.not_mem_nil
  | blank rest ih => exact List.forall_mem_cons.mpr ⟨by simp, ih⟩
  | step s rest ih => exact List.forall_mem_cons.mpr ⟨slash_not_mem_statement s, ih⟩
  | choose c yes no rest hyes hno hrest =>
    have hbranch {ls : List String} (h : ∀ l ∈ ls, '/' ∉ l.toList) :
        ∀ l ∈ ls.map (indented 4), '/' ∉ l.toList := by
      intro l hl
      obtain ⟨s, hs, rfl⟩ := List.mem_map.mp hl
      exact slash_not_mem_indented (h s hs)
    obtain ⟨otherwise, hcases, hlines⟩ := lines_choose c yes no rest
    have hotherwise : ∀ l ∈ otherwise, '/' ∉ l.toList := by
      rcases hcases with rfl | rfl
      · exact fun l hl => absurd hl List.not_mem_nil
      · refine List.forall_mem_cons.mpr ⟨by simp, List.forall_mem_append.mpr ⟨hbranch hno, ?_⟩⟩
        exact List.forall_mem_cons.mpr ⟨by simp, fun l hl => absurd hl List.not_mem_nil⟩
    rw [hlines]
    refine List.forall_mem_cons.mpr ⟨by simp [slash_not_mem_expr],
      List.forall_mem_append.mpr ⟨hbranch hyes, List.forall_mem_cons.mpr ⟨by simp, ?_⟩⟩⟩
    exact List.forall_mem_append.mpr ⟨hotherwise, hrest⟩

/-- The program of a fragment has no comments. -/
theorem slash_not_mem_fragment (layout : Layout) (p : Program) :
    '/' ∉ (Fragment.program layout p).text.toList := by
  have hlines := slash_not_mem_program p
  cases layout with
  | joined => exact slash_not_mem_intercalate (by simp) hlines
  | ended => exact slash_not_mem_textOf hlines
  | framed =>
    show '/' ∉ ("\n" ++ textOf p.lines).toList
    simp [slash_not_mem_textOf hlines]

/-! ## 6. Routines -/

@[simp] theorem slash_not_mem_parameter (p : Parameter) : '/' ∉ p.text.toList := by
  have htype : '/' ∉ p.type.text.toList := by
    cases p.type with
    | memoryView mutable => cases mutable <;> simp [ParameterType.text]
    | _ => simp [ParameterType.text]
  simp [Parameter.text, htype]

/-- Lines as text are unmarked if each of them is. -/
theorem unmarked_textOf {lines : List String} :
    Unmarked (textOf lines).toList ↔ ∀ l ∈ lines, Unmarked l.toList := by
  induction lines with
  | nil =>
    refine iff_of_true (unmarked_of_slash ?_) fun l hl => absurd hl List.not_mem_nil
    exact slash_not_mem_textOf fun l hl => absurd hl List.not_mem_nil
  | cons line lines ih =>
    have htext : (textOf (line :: lines)).toList = line.toList ++ '\n' :: (textOf lines).toList := by
      simp [textOf]
    rw [htext, unmarked_append, ih, List.forall_mem_cons]

/-- Texts with a line feed between two are unmarked if each of them is. -/
theorem unmarked_intercalate {texts : List String} :
    Unmarked (String.intercalate "\n" texts).toList ↔ ∀ t ∈ texts, Unmarked t.toList := by
  induction texts with
  | nil =>
    refine iff_of_true (unmarked_of_slash (by simp)) fun t ht => absurd ht List.not_mem_nil
  | cons first texts ih =>
    rw [List.forall_mem_cons]
    cases texts with
    | nil =>
      simp
    | cons second texts =>
      rw [← ih, String.intercalate_cons_cons, String.toList_append, String.toList_append,
        List.append_assoc]
      exact unmarked_append _ _

/-- Lines as text have the lines of each of them. -/
theorem mem_lines_textOf {lines : List String} {line : String} (h : line ∈ lines) :
    ∀ l ∈ splitLines line.toList, l ∈ splitLines (textOf lines).toList := by
  induction lines with
  | nil => exact absurd h List.not_mem_nil
  | cons first lines ih =>
    have htext : (textOf (first :: lines)).toList =
        first.toList ++ '\n' :: (textOf lines).toList := by simp [textOf]
    rw [htext, splitLines_append]
    intro l hl
    rcases List.mem_cons.mp h with rfl | h
    · exact List.mem_append_left _ hl
    · exact List.mem_append_right _ (ih h l hl)

/-- Texts with a line feed between two have the lines of each of them. -/
theorem mem_lines_intercalate {texts : List String} {text : String} (h : text ∈ texts) :
    ∀ l ∈ splitLines text.toList, l ∈ splitLines (String.intercalate "\n" texts).toList := by
  induction texts with
  | nil => exact absurd h List.not_mem_nil
  | cons first texts ih =>
    cases texts with
    | nil =>
      rw [List.mem_singleton.mp h]
      simp
    | cons second texts =>
      have htext : (String.intercalate "\n" (first :: second :: texts)).toList =
          first.toList ++ '\n' :: (String.intercalate "\n" (second :: texts)).toList := by
        rw [String.intercalate_cons_cons, String.toList_append, String.toList_append,
          List.append_assoc]
        rfl
      rw [htext, splitLines_append]
      intro l hl
      rcases List.mem_cons.mp h with rfl | h
      · exact List.mem_append_left _ hl
      · exact List.mem_append_right _ (ih h l hl)

/-- A documentation line is no marker: its third slash tells. -/
theorem unmarked_documentation {text : String} (h : '\n' ∉ text.toList) :
    Unmarked (Routine.line ("///" ++ text)).toList := by
  have hline : (Routine.line ("///" ++ text)).toList =
      List.replicate 4 ' ' ++ '/' :: '/' :: '/' :: text.toList := by
    simp [Routine.line, indented, spaces, Routine.indent]
  rw [hline]
  refine unmarked_of_line ?_ fun hc => ?_
  · simp [h]
  · rw [List.dropWhile_append_of_pos (by simp [isIndent])] at hc
    simp [isIndent] at hc

theorem unmarked_commentLines {r : Routine} (h : '\n' ∉ r.title.toList) :
    ∀ l ∈ r.commentLines, Unmarked l.toList := by
  have hfirst : "/// " ++ r.title = "///" ++ (" " ++ r.title) := by
    rw [← String.append_assoc]
    rfl
  have hnote : "/// Some members name overlapping registers as both operands." =
      "///" ++ " Some members name overlapping registers as both operands." := rfl
  have hempty : "///" = "///" ++ "" := rfl
  unfold Routine.commentLines
  refine List.forall_mem_cons.mpr ⟨?_, ?_⟩
  · rw [hfirst]
    exact unmarked_documentation (by simp [h])
  · split
    · refine List.forall_mem_cons.mpr ⟨?_, List.forall_mem_singleton.mpr ?_⟩
      · rw [hempty]
        exact unmarked_documentation (by simp)
      · rw [hnote]
        exact unmarked_documentation (by simp)
    · exact fun l hl => absurd hl List.not_mem_nil

theorem slash_not_mem_routineLine {text : String} (h : '/' ∉ text.toList) :
    '/' ∉ (Routine.line text).toList := slash_not_mem_indented h

theorem slash_not_mem_routineBodyLine {text : String} (h : '/' ∉ text.toList) :
    '/' ∉ (Routine.bodyLine text).toList := slash_not_mem_indented h

namespace Routine

theorem slash_not_mem_allowanceLines (r : Routine) : ∀ l ∈ r.allowanceLines, '/' ∉ l.toList := by
  unfold allowanceLines
  split
  · exact List.forall_mem_singleton.mpr (slash_not_mem_routineLine (by simp))
  · exact fun l hl => absurd hl List.not_mem_nil

theorem slash_not_mem_headLines {r : Routine} (hname : '/' ∉ r.name.toList) :
    ∀ l ∈ r.headLines, '/' ∉ l.toList := by
  refine slash_not_mem_listed (by simp [hname]) ?_ ?_
  · intro s hs
    obtain ⟨p, _, rfl⟩ := List.mem_map.mp hs
    exact slash_not_mem_parameter p
  · split <;> simp

theorem slash_not_mem_conditionLines (r : Routine) : ∀ l ∈ r.conditionLines, '/' ∉ l.toList := by
  unfold conditionLines
  split
  · intro l hl
    simp only [List.mem_cons, List.not_mem_nil, or_false] at hl
    rcases hl with rfl | rfl | rfl | rfl
    · simp
    · exact slash_not_mem_routineBodyLine (by simp)
    · exact slash_not_mem_indented (by simp)
    · exact slash_not_mem_routineBodyLine (by simp)
  · exact fun l hl => absurd hl List.not_mem_nil

theorem slash_not_mem_fragmentLines {r : Routine} (hfragment : '/' ∉ r.fragment.text.toList) :
    ∀ l ∈ r.fragmentLines, '/' ∉ l.toList := by
  unfold fragmentLines
  split
  · exact fun l hl => absurd hl List.not_mem_nil
  · exact List.forall_mem_cons.mpr ⟨by simp, slash_not_mem_reindented hfragment⟩

theorem slash_not_mem_updateLines (r : Routine) : ∀ l ∈ r.updateLines, '/' ∉ l.toList := by
  unfold updateLines
  split
  · exact fun l hl => absurd hl List.not_mem_nil
  · refine List.forall_mem_cons.mpr ⟨by simp, fun l hl => ?_⟩
    obtain ⟨u, _, rfl⟩ := List.mem_map.mp hl
    exact slash_not_mem_routineBodyLine (slash_not_mem_statement _)

theorem slash_not_mem_outcomeLines (r : Routine) : ∀ l ∈ r.outcomeLines, '/' ∉ l.toList := by
  unfold outcomeLines
  split
  · refine List.forall_mem_cons.mpr ⟨by simp, List.forall_mem_singleton.mpr ?_⟩
    exact slash_not_mem_routineBodyLine (by simp)
  · exact fun l hl => absurd hl List.not_mem_nil

end Routine

/-- A routine has no marked line but through its title. -/
theorem unmarked_routine {r : Routine} (htitle : '\n' ∉ r.title.toList)
    (hname : '/' ∉ r.name.toList) (hfragment : '/' ∉ r.fragment.text.toList) :
    Unmarked r.text.toList := by
  have hlength : ∀ l ∈ [Routine.bodyLine ("*pc = pc.wrapping_add(" ++
      toString r.length.toNat ++ ");")], '/' ∉ l.toList :=
    List.forall_mem_singleton.mpr (slash_not_mem_routineBodyLine (by simp))
  have hend : ∀ l ∈ [Routine.line "\x7d"], '/' ∉ l.toList :=
    List.forall_mem_singleton.mpr (slash_not_mem_routineLine (by simp))
  refine unmarked_textOf.mpr fun l hl => ?_
  simp only [Routine.lines, List.mem_append] at hl
  rcases hl with (((((((hl | hl) | hl) | hl) | hl) | hl) | hl) | hl) | hl
  · exact unmarked_commentLines htitle l hl
  · exact unmarked_of_slash (r.slash_not_mem_allowanceLines l hl)
  · exact unmarked_of_slash (Routine.slash_not_mem_headLines hname l hl)
  · exact unmarked_of_slash (hlength l hl)
  · exact unmarked_of_slash (r.slash_not_mem_conditionLines l hl)
  · exact unmarked_of_slash (Routine.slash_not_mem_fragmentLines hfragment l hl)
  · exact unmarked_of_slash (r.slash_not_mem_updateLines l hl)
  · exact unmarked_of_slash (r.slash_not_mem_outcomeLines l hl)
  · exact unmarked_of_slash (hend l hl)

/-! ## 7. Tests -/

/-- A preset or an expectation names no register but those there are. -/
theorem slash_not_mem_register {name : String}
    (h : isReg8Name name = true ∨ isReg16Name name = true) : '/' ∉ name.toList := by
  have hnames : ∀ n ∈ reg8Names ++ pairNames ++ ["SP"], '/' ∉ n.toList := by decide
  refine hnames name ?_
  rw [List.mem_append, List.mem_append, List.mem_singleton]
  rcases h with h | h
  · exact .inl (.inl (mem_of_contains h))
  · rcases Bool.or_eq_true_iff.mp h with h | h
    · exact .inl (.inr (mem_of_contains h))
    · exact .inr (beq_iff_eq.mp h)

theorem slash_not_mem_preset {p : Preset} (h : ∀ r, p.Uses r → '/' ∉ r.toList) :
    '/' ∉ p.text.toList := by
  cases p with
  | reg8 r v =>
    show '/' ∉ ("cpu.registers[Reg8::" ++ r ++ "] = " ++ hex8 v ++ ";").toList
    simp [h r rfl]
  | reg16 r v =>
    show '/' ∉ ("cpu.registers.set16(Reg16::" ++ r ++ ", " ++ hex16 v ++ ");").toList
    simp [h r rfl]
  | flag f v =>
    show '/' ∉ ("cpu." ++ f.field ++ " = " ++ truthText v ++ ";").toList
    simp
  | memory a v =>
    show '/' ∉ ("cpu.internal_ram[" ++ hex16 a ++ "] = " ++ hex8 v ++ ";").toList
    simp

theorem slash_not_mem_expectation {e : Expectation} (h : ∀ r, e.Uses r → '/' ∉ r.toList) :
    '/' ∉ e.text.toList := by
  cases e with
  | reg8 r v =>
    show '/' ∉ (r ++ " => " ++ hex8 v).toList
    simp [h r rfl]
  | reg16 r v =>
    show '/' ∉ (r ++ " => " ++ hex16 v).toList
    simp [h r rfl]
  | pc v =>
    show '/' ∉ ("PC => " ++ hex16 v).toList
    simp
  | flag f v =>
    show '/' ∉ (f.field ++ " => " ++ truthText v).toList
    simp
  | memory a vs =>
    have hbytes : '/' ∉ (commaSeparated (vs.map hex8)).toList := by
      refine slash_not_mem_commaSeparated fun s hs => ?_
      obtain ⟨v, _, rfl⟩ := List.mem_map.mp hs
      exact slash_not_mem_hex8 v
    show '/' ∉ ("mem[" ++ hex16 a ++ "] => [" ++ commaSeparated (vs.map hex8) ++ "]").toList
    simp [hbytes]

theorem slash_not_mem_testCaseLines {c : TestCase} (hname : '/' ∉ c.name.toList)
    (hpresets : ∀ p ∈ c.presets, '/' ∉ p.text.toList)
    (hexpectations : ∀ e ∈ c.expectations, '/' ∉ e.text.toList) :
    ∀ l ∈ c.lines, '/' ∉ l.toList := by
  have hbytes : '/' ∉ (String.intercalate ", " (c.bytes.map hex8)).toList := by
    refine slash_not_mem_commaSeparated fun s hs => ?_
    obtain ⟨v, _, rfl⟩ := List.mem_map.mp hs
    exact slash_not_mem_hex8 v
  rw [TestCase.lines_eq]
  refine List.forall_mem_append.mpr ⟨List.forall_mem_append.mpr ⟨List.forall_mem_append.mpr
    ⟨List.forall_mem_append.mpr ⟨?_, ?_⟩, ?_⟩, ?_⟩, ?_⟩
  · simpa [hname] using hbytes
  · exact List.forall_mem_map.mpr fun p hp => by simp [hpresets p hp]
  · simp
  · exact List.forall_mem_map.mpr fun e he => by simp [hexpectations e he]
  · simp

theorem mem_insertRanked {e x : Expectation} {xs : List Expectation} :
    e ∈ insertRanked x xs ↔ e = x ∨ e ∈ xs := by
  induction xs with
  | nil => exact List.mem_cons
  | cons y ys ih =>
    unfold insertRanked
    split
    · exact List.mem_cons
    · rw [List.mem_cons, ih, List.mem_cons]
      tauto

theorem mem_rankedExpectations {e : Expectation} {es : List Expectation} :
    e ∈ rankedExpectations es ↔ e ∈ es := by
  induction es with
  | nil => exact Iff.rfl
  | cons x xs ih =>
    show e ∈ insertRanked x (rankedExpectations xs) ↔ _
    rw [mem_insertRanked, ih, List.mem_cons]

variable {d : Descriptor} {m : Member} {k : ScenarioKind} {s : Scenario}

/-- A case of an opcode is written without slashes. -/
theorem slash_not_mem_testCase {c : TestCase} (h : d.testCase m k s = .ok c) :
    ∀ l ∈ c.lines, '/' ∉ l.toList := by
  have hregisters {r : String} (hr : s.Uses r) : '/' ∉ r.toList :=
    slash_not_mem_register (testCase_registers h hr)
  have hkey : '/' ∉ m.key.slug.toList := by
    refine slash_not_mem_join fun t ht => ?_
    obtain ⟨b, _, rfl⟩ := List.mem_map.mp ht
    exact slash_not_mem_hexByteLower b
  have hkind : '/' ∉ k.slug.toList := by
    cases k with
    | baseline => simp [ScenarioKind.slug]
    | flagCase f => cases f <;> simp [ScenarioKind.slug, Flag.smallLetter]
  have hname : '/' ∉ (d.caseName m k s).toList := by
    unfold Descriptor.caseName
    dsimp only
    split
    · simp [Family.encodedName, hkey, hkind]
    · simp [Family.encodedName, hkey, hkind]
  obtain ⟨_, _, _, _, _, hfixed, rfl⟩ := testCase_made h
  obtain ⟨⟨ps, hpresets, hps⟩, ⟨es, hexpectations, hes⟩, _⟩ := addFixed_made hfixed
  refine slash_not_mem_testCaseLines hname ?_ ?_
  · intro p hp
    rw [hpresets] at hp
    rcases List.mem_append.mp hp with hp | hp
    · exact slash_not_mem_preset fun r hr => hregisters (.inl ⟨p, hp, hr⟩)
    · obtain ⟨F, v, _, rfl⟩ := hps p hp
      exact slash_not_mem_preset fun r hr => absurd hr (by simp [Preset.Uses])
  · intro e he
    have he := mem_rankedExpectations.mp he
    rw [hexpectations] at he
    rcases List.mem_append.mp he with he | he
    · refine slash_not_mem_expectation fun r hr => ?_
      dsimp only at he
      split at he
      · exact hregisters (.inr ⟨e, he, hr⟩)
      · rcases List.mem_append.mp he with he | he
        · exact hregisters (.inr ⟨e, he, hr⟩)
        · rw [List.mem_singleton.mp he] at hr
          exact absurd hr (by simp [Expectation.Uses])
    · obtain ⟨F, v, _, rfl⟩ := hes e he
      exact slash_not_mem_expectation fun r hr => absurd hr (by simp [Expectation.Uses])

/-- The comment above the tests of an opcode. -/
def Record.comment (r : Record) : String :=
  testLine ("// " ++ (r.assembly ++ " [" ++ r.key.display ++ "]"))

theorem Record.comment_toList (r : Record) : r.comment.toList = List.replicate 4 ' ' ++
    '/' :: '/' :: ' ' :: (r.assembly.toList ++ (" [" ++ r.key.display ++ "]").toList) := by
  simp [Record.comment, testLine, testIndent, indented, spaces, String.append_assoc]

/-- A comment is no marker if what the table calls the opcode is one line and does not start with an
    underscore. -/
theorem Record.unmarked_comment {r : Record} (hline : '\n' ∉ r.assembly.toList)
    (hname : r.assembly.toList.head? ≠ some '_') : Unmarked r.comment.toList := by
  have hdigit : ∀ n < 16, hexDigit n ≠ '\n' := by decide
  have hbyte (b : UInt8) : '\n' ∉ (hex8 b).toList := by
    have hb := b.toNat_lt
    have hhigh := hdigit (b.toNat / 16) (by omega)
    have hlow := hdigit (b.toNat % 16) (by omega)
    simp [hex8, hexByte, hhigh.symm, hlow.symm]
  have hkey : '\n' ∉ r.key.display.toList := by
    unfold OpcodeKey.display
    cases r.key.page with
    | none => exact hbyte _
    | some p => simp [hbyte]
  have hfree : '\n' ∉ r.comment.toList := by
    rw [Record.comment_toList]
    simp [hline, hkey]
  have hunderscore : ∀ m ∈ MarkerPair.all, ['/', '/', ' ', '_'] <+: m.opening.toList ∧
      ['/', '/', ' ', '_'] <+: m.closing.toList := by decide
  have hbare : ¬['/', '/', ' ', '_'] <+: r.comment.toList.dropWhile isIndent := by
    rw [Record.comment_toList, List.dropWhile_append_of_pos (by simp [isIndent])]
    cases hcs : r.assembly.toList with
    | nil => simp [isIndent]
    | cons c cs =>
      rw [hcs] at hname
      simpa [isIndent, eq_comm] using hname
  intro l hl m hm
  rw [splitLines_of_line hfree, List.mem_singleton] at hl
  rw [hl, marked_iff_of_slashes (MarkerPair.slashes_of_mem m hm).1,
    marked_iff_of_slashes (MarkerPair.slashes_of_mem m hm).2]
  exact ⟨fun hc => hbare ((hunderscore m hm).1.trans hc), fun hc => hbare ((hunderscore m hm).2.trans hc)⟩

/-- The tests of an opcode have no marked line but through the comment above them. -/
theorem unmarked_testBlock {b : TestBlock} (h : (d.testBlock m).result = .ok b) :
    Unmarked b.text.toList ↔ Unmarked m.record.comment.toList := by
  have hcases : ∀ l ∈ b.cases.flatMap (fun c => "" :: c.lines), Unmarked l.toList := by
    intro l hl
    obtain ⟨c, hc, hl⟩ := List.mem_flatMap.mp hl
    obtain ⟨k, s, _, hcase⟩ := mem_testBlock h hc
    rcases List.mem_cons.mp hl with rfl | hl
    · exact unmarked_of_slash (by simp)
    · exact unmarked_of_slash (slash_not_mem_testCase hcase l hl)
  refine unmarked_textOf.trans ?_
  unfold TestBlock.lines
  rw [List.forall_mem_cons, (testBlock_made h).2.1]
  exact and_iff_left hcases

/-! ## 8. Whole generations -/

/-- Whether a fragment is a program. -/
def Fragment.isProgram : Fragment → Bool
  | program _ _ => true
  | verbatim _ => false

theorem Fragment.slash_not_mem {f : Fragment} (h : f.isProgram = true) : '/' ∉ f.text.toList := by
  cases f with
  | program layout p => exact slash_not_mem_fragment layout p
  | verbatim text => cases h

theorem catalog_plain : ∀ f ∈ catalog, '\n' ∉ f.name.toList ∧ f.fragment.isProgram = true := by
  decide +kernel

/-- The descriptors of the catalog name no register but those there are, and their routines have
    no comment but the name of the family. -/
theorem Prepared.unmarked {text : String} {c : ClaimedTable} {ds : List Descriptor}
    (h : Prepared text catalog c ds) {d : Descriptor} (hd : d ∈ ds) :
    Unmarked d.routine.text.toList ∧ ∀ m ∈ d.members, '/' ∉ (d.branch m).text.toList := by
  obtain ⟨t, _, _, _, hplaced⟩ := h.placed
  obtain ⟨_, hmerged⟩ := hplaced.assembly.merged d hd
  obtain ⟨hname, hfragment⟩ := catalog_plain d.family (h.family_mem hd)
  have hroutine : '/' ∉ d.routineName.toList := by
    simp [Descriptor.routineName, Family.encodedName]
  refine ⟨unmarked_routine hname hroutine (Fragment.slash_not_mem hfragment), fun m hm => ?_⟩
  exact slash_not_mem_branch hroutine (slash_not_mem_arguments d (hmerged.sound hm).denotes)

/-- The comments above the tests of the opcodes that are selected are no markers. -/
def Table.CommentsUnmarked (t : Table) (catalog : List Family) (s : Selection) : Prop :=
  ∀ k, Claimed catalog k → s.selects k = true → ∀ r, t.find? k = some r → Unmarked r.comment.toList

section Comments

variable {t : Table} {catalog : List Family} {ds : List Descriptor} {s : Selection}

/-- The records of the opcodes that a catalog claims are those of the members. -/
theorem Assembly.forall_record (h : Assembly t catalog ds) {P : Record → Prop} :
    (∀ k, Claimed catalog k → s.selects k = true → ∀ r, t.find? k = some r → P r) ↔
      ∀ d ∈ ds, ∀ m ∈ d.members, s.selects m.key = true → P m.record := by
  constructor
  · intro hall d hd m hm hs
    have hclaimed : Claimed catalog m.key := ⟨d.family, h.family_mem hd, h.claimed d hd m hm⟩
    exact hall m.key hclaimed hs m.record (h.recorded d hd m hm)
  · intro hall k hk hs r hr
    obtain ⟨f, hf, hk⟩ := hk
    obtain ⟨d, hd, _, m, hm, rfl⟩ := h.complete f hf k hk
    obtain rfl := Option.some.inj ((h.recorded d hd m hm).symm.trans hr)
    exact hall d hd m hm hs

/-- The tests have the lines of the comments. -/
theorem mem_lines_comment (hready : ∀ d ∈ ds, d.Ready s) {d : Descriptor} (hd : d ∈ ds)
    {m : Member} (hm : m ∈ d.members) (hs : s.selects m.key = true) :
    ∀ l ∈ splitLines m.record.comment.toList,
      l ∈ splitLines (Generated.ofSections (ds.map (Descriptor.sectionOf s))).artifacts.tests.toList := by
  obtain ⟨b, hb⟩ := (hready d hd).tests m hm hs
  intro l hl
  have hblock : l ∈ splitLines b.text.toList := by
    have hcomment : m.record.comment ∈ b.lines := by
      unfold TestBlock.lines
      rw [(testBlock_made hb).2.1]
      exact List.mem_cons_self
    exact mem_lines_textOf hcomment l hl
  refine mem_lines_intercalate (List.mem_map_of_mem ?_) l hblock
  exact mem_tests.mpr ⟨d, hd, m, hm, hs, block_eq hb⟩

end Comments

/-- The generated texts have no marked line but in the comments above the tests of opcodes. -/
theorem generate_unmarked {text : String} {s : Selection} {a : Artifacts}
    (h : (generate text catalog s).result = .ok a) :
    Unmarked a.decode.toList ∧ Unmarked a.execution.toList ∧
      ∃ t, (Table.ofText text).result = .ok t ∧
        (Unmarked a.tests.toList ↔ t.CommentsUnmarked catalog s) := by
  obtain ⟨g, hg, rfl⟩ := generate_eq_ok.mp h
  obtain ⟨c, ds, hprepared, _, hready, rfl⟩ := assemble_eq_ok.mp hg
  obtain ⟨t, ht, _, _, hplaced⟩ := hprepared.placed
  refine ⟨unmarked_of_slash ?_, unmarked_intercalate.mpr ?_, t, ht, ?_⟩
  · refine slash_not_mem_join fun line hline => ?_
    obtain ⟨b, hb, rfl⟩ := List.mem_map.mp hline
    obtain ⟨d, hd, m, hm, _, rfl⟩ := mem_branches.mp hb
    exact (hprepared.unmarked hd).2 m hm
  · intro line hline
    obtain ⟨r, hr, rfl⟩ := List.mem_map.mp hline
    obtain ⟨d, hd, _, rfl⟩ := mem_routines.mp hr
    exact (hprepared.unmarked hd).1
  · refine Iff.trans ?_ hplaced.assembly.forall_record.symm
    constructor
    · intro hall d hd m hm hs l hl
      exact hall l (mem_lines_comment hready hd hm hs l hl)
    · intro hall
      refine unmarked_intercalate.mpr fun line hline => ?_
      obtain ⟨b, hb, rfl⟩ := List.mem_map.mp hline
      obtain ⟨d, hd, m, hm, hs, rfl⟩ := mem_tests.mp hb
      obtain ⟨b, hb⟩ := (hready d hd).tests m hm hs
      rw [block_eq hb]
      exact (unmarked_testBlock hb).mpr (hall d hd m hm hs)

end Sm83Codegen
