import Sm83Codegen.Proofs.JsonText
import Sm83Codegen.Table.Reading

/-!
# Reading what was written as a table

A document that is written as text is read back as it was, as long as no page has a key twice.

* `MemberText` -- a member of an object, with what it does to the part that its object is read into;
* `writes_members` -- an object of members that fill a part one after the other;
* `writes_operand`, `writes_flags`, `writes_entry`, `writes_partition` -- the parts of a document;
* `TableDocument.ofText_text` -- the whole document.
-/

namespace Sm83Codegen

open Json (Writes WritesMember)

/-! ## 1. Members that fill a part -/

/-- A member of an object: its name and its text, when a part can take it, and the part with it. -/
structure MemberText (α : Type) where
  name : String
  text : String
  fresh : α → Prop
  put : α → α

namespace MemberText

variable {α : Type} {step : α → String → List Char → Json.Placed Json → Read α}

/-- The text of a member stands for values that fill a part. -/
def Sound (step : α → String → List Char → Json.Placed Json → Read α) (w : MemberText α) : Prop :=
  Writes w.text.toList (fun v => ∀ a rest, w.fresh a → step a w.name rest v = .ok (w.put a))

/-- A part can take members one after the other. -/
def Fillable : α → List (MemberText α) → Prop
  | _, [] => True
  | a, w :: ws => w.fresh a ∧ Fillable (w.put a) ws

/-- The part with all of the members. -/
def fill (a : α) (ws : List (MemberText α)) : α := ws.foldl (fun a w => w.put a) a

theorem members_eq {ws : List (MemberText α)} {ms : Json.Members}
    (h : List.Forall₂ (fun w m => m.1.value = some w.name ∧
      ∀ a rest, w.fresh a → step a w.name rest m.2 = .ok (w.put a)) ws ms)
    {a : α} (hf : Fillable a ws) : Read.members step a ms = .ok (fill a ws) := by
  induction h generalizing a with
  | nil => rfl
  | @cons w m ws ms hm _ ih =>
    obtain ⟨⟨name, start, stop⟩, v⟩ := m
    obtain ⟨hname, hstep⟩ := hm
    cases hname
    unfold Read.members
    rw [hstep a stop hf.1]
    exact ih hf.2

/-- **An object of members that fill a part is read into the filled part**, however its members
    are laid out. -/
theorem writes_members {opening indent blanks closing : List Char} {ws : List (MemberText α)}
    (hgaps : (opening ++ indent ++ blanks ++ closing).all Json.isGap = true)
    (hws : ∀ w ∈ ws, w.Sound step) {a : α} (hf : Fillable a ws) :
    Writes ('{' :: (opening ++ (Json.listed blanks (ws.map fun w =>
        indent ++ (TablePrint.named w.name w.text).toList) ++ (closing ++ ['}']))))
      (fun v => ∃ ms, v.value = .object ms ∧ Read.members step a ms = .ok (fill a ws)) := by
  simp only [List.all_append, Bool.and_eq_true, List.all_eq_true] at hgaps
  obtain ⟨⟨⟨hopening, hindent⟩, hblanks⟩, hclosing⟩ := hgaps
  refine (Json.writes_object hopening hblanks hclosing ws _ _ fun w hw =>
    (Json.writesMember_named w.name (hws w hw)).indented hindent).mono ?_
  rintro v ⟨ms, hv, hms⟩
  exact ⟨ms, hv, members_eq hms hf⟩

/-- An object on one line. -/
theorem writes_line {ws : List (MemberText α)} (hws : ∀ w ∈ ws, w.Sound step) {a : α}
    (hf : Fillable a ws) :
    Writes (TablePrint.object (ws.map fun w => TablePrint.named w.name w.text)).toList
      (fun v => ∃ ms, v.value = .object ms ∧ Read.members step a ms = .ok (fill a ws)) := by
  have htext : (TablePrint.object (ws.map fun w => TablePrint.named w.name w.text)).toList =
      '{' :: ([] ++ (Json.listed [' '] (ws.map fun w =>
        [] ++ (TablePrint.named w.name w.text).toList) ++ ([] ++ ['}']))) := by
    unfold TablePrint.object Text.commaSeparated
    rw [String.toList_append, String.toList_append, String.toList_intercalate, List.map_map]
    exact congrArg (fun cs => '{' :: (cs ++ ['}'])) (Json.intercalate_eq_listed [' '] _)
  rw [htext]
  exact writes_members rfl hws hf

/-- The text of members that have a line each, with what ends their object. -/
def lines (indent : String) (ws : List (MemberText α)) (ending : String) : String :=
  "\x7b\n" ++ String.intercalate ",\n" (ws.map fun w =>
    indent ++ TablePrint.named w.name w.text) ++ ending

/-- An object with a line for each member. -/
theorem writes_lines {indent closing ending : String} {ws : List (MemberText α)}
    (hending : ending.toList = '\n' :: (closing.toList ++ ['}']))
    (hgaps : (indent.toList ++ closing.toList).all Json.isGap = true)
    (hws : ∀ w ∈ ws, w.Sound step) {a : α} (hf : Fillable a ws) :
    Writes (lines indent ws ending).toList
      (fun v => ∃ ms, v.value = .object ms ∧ Read.members step a ms = .ok (fill a ws)) := by
  have htext : (lines indent ws ending).toList =
      '{' :: (['\n'] ++ (Json.listed ['\n'] (ws.map fun w =>
        indent.toList ++ (TablePrint.named w.name w.text).toList) ++
          ('\n' :: closing.toList ++ ['}']))) := by
    unfold lines
    rw [String.toList_append, String.toList_append, String.toList_intercalate, List.map_map,
      hending]
    simp only [Function.comp_def, String.toList_append]
    exact congrArg (fun cs => '{' :: '\n' :: (cs ++ _)) (Json.intercalate_eq_listed ['\n'] _)
  rw [htext]
  refine writes_members ?_ hws hf
  simp only [List.all_append, Bool.and_eq_true] at hgaps
  simp [List.all_append, hgaps, show Json.isGap '\n' = true from rfl]

end MemberText

/-! ## 2. Bytes -/

/-- The digits of a byte are a number, and its value is the byte's. -/
theorem byteDigits : ∀ n < 256, Json.IsWhole (toString n).toList ∧
    (Json.Number.readWhole 0 (toString n).toList).value = n ∧
    (Json.Number.readWhole 0 (toString n).toList).places = 0 := by
  -- digits are tested one by one: characters are finitely many, and not to be gone through
  simp only [Json.IsWhole, ← List.all_eq_true]
  decide +kernel

theorem writes_byte (b : UInt8) :
    Writes (toString b.toNat).toList (fun v => Read.byte v = .ok b) := by
  obtain ⟨hwhole, hvalue, hplaces⟩ := byteDigits b.toNat b.toNat_lt
  refine (Json.writes_whole hwhole).mono fun v hv => ?_
  have hread : Json.Number.read ⟨false, (toString b.toNat).toList, none, none⟩ =
      .natural b.toNat := by
    unfold Json.Number.read Json.Number.wholeReading
    simp only [hvalue, hplaces]
    rfl
  unfold Read.byte
  rw [hv]
  simp only [hread]
  rw [if_pos b.toNat_lt, UInt8.ofNat_toNat]

/-! ## 3. Fields -/

theorem text_eq {v : Json.Placed Json} {s : String} (h : v.value = .string (some s)) :
    Read.text v = .ok s := by
  unfold Read.text
  rw [h]

theorem truth_eq {v : Json.Placed Json} {b : Bool} (h : v.value = .bool b) :
    Read.truth v = .ok b := by
  unfold Read.truth
  rw [h]

theorem writes_text (s : String) :
    Writes (TablePrint.string s).toList (fun v => Read.text v = .ok s) :=
  (Json.writes_string s).mono fun _ => text_eq

theorem writes_flag (b : Bool) :
    Writes (Text.truthText b).toList (fun v => Read.truth v = .ok b) :=
  (Json.writes_truth b).mono fun _ => truth_eq

namespace MemberText

variable {α γ : Type} {step : α → String → List Char → Json.Placed Json → Read α}

/-- A member that no part looks at. -/
def ignored (name text : String) : MemberText α := ⟨name, text, fun _ => True, id⟩

/-- A member that fills one field. -/
def field (name text : String) (get : α → Option γ) (set : α → Option γ → α) (x : γ) :
    MemberText α :=
  ⟨name, text, fun a => get a = none, fun a => set a (some x)⟩

/-- A member that is there only under a condition. -/
def only (b : Bool) (w : MemberText α) : List (MemberText α) := if b then [w] else []

theorem ignored_sound {name text : String} (hstep : ∀ a rest v, step a name rest v = .ok a)
    (h : ∃ P, Writes text.toList P) : (ignored name text).Sound step := by
  obtain ⟨P, h⟩ := h
  exact h.mono fun v _ a rest _ => hstep a rest v

/-- A field is filled by a text that stands for its value. -/
theorem field_sound {name met text : String} {get : α → Option γ} {set : α → Option γ → α}
    {read : Json.Placed Json → Read γ} {x : γ}
    (hstep : ∀ a rest v, step a name rest v = (Read.once met rest (get a) (read v)).map (set a))
    (h : Writes text.toList (fun v => read v = .ok x)) :
    (field name text get set x).Sound step := by
  refine h.mono fun v hv a rest ha => ?_
  have hget : get a = none := ha
  show step a name rest v = _
  rw [hstep, hget, hv]
  rfl

theorem forall_mem_only {P : MemberText α → Prop} {b : Bool} {w : MemberText α}
    (h : b = true → P w) : ∀ u ∈ only b w, P u := by
  cases b with
  | true => exact List.forall_mem_singleton.mpr (h rfl)
  | false => exact fun u hu => absurd hu List.not_mem_nil

end MemberText

/-! ## 4. Operands -/

namespace OperandEntry

/-- The number of bytes an operand takes, if it is an immediate. -/
def byteCount (e : OperandEntry) : Option UInt8 :=
  match kindOf e.name with
  | some .imm8 => some 1
  | some .imm16 => some 2
  | _ => none

theorem bytesMember_eq (e : OperandEntry) : TablePrint.bytesMember e =
    e.byteCount.toList.map fun b => TablePrint.named "bytes" (toString b.toNat) := by
  unfold TablePrint.bytesMember byteCount
  cases kindOf e.name with
  | none => rfl
  | some k => cases k <;> rfl

/-- The members of an operand. -/
def memberTexts (e : OperandEntry) : List (MemberText Read.OperandFields) :=
  .field "name" (TablePrint.string e.name) (·.name) (fun o x => { o with name := x }) e.name ::
    ((e.byteCount.toList.map fun b => .ignored "bytes" (toString b.toNat)) ++
    [.field "immediate" (Text.truthText e.immediate) (·.immediate)
      (fun o x => { o with immediate := x }) e.immediate] ++
    MemberText.only e.increment
      (.field "increment" "true" (·.increment) (fun o x => { o with increment := x }) true) ++
    MemberText.only e.decrement
      (.field "decrement" "true" (·.decrement) (fun o x => { o with decrement := x }) true))

theorem text_memberTexts (e : OperandEntry) : TablePrint.operand e =
    TablePrint.object (e.memberTexts.map fun w => TablePrint.named w.name w.text) := by
  unfold TablePrint.operand TablePrint.member memberTexts MemberText.only
  rw [bytesMember_eq]
  cases e.increment <;> cases e.decrement <;> cases e.byteCount <;> rfl

theorem memberTexts_fillable (e : OperandEntry) : MemberText.Fillable {} e.memberTexts := by
  unfold memberTexts MemberText.only
  cases e.byteCount <;> cases e.increment <;> cases e.decrement <;>
    simp [MemberText.Fillable, MemberText.ignored, MemberText.field]

theorem fill_memberTexts (e : OperandEntry) : MemberText.fill {} e.memberTexts =
    ⟨some e.name, some e.immediate, if e.increment then some true else none,
      if e.decrement then some true else none⟩ := by
  unfold memberTexts MemberText.only
  cases e.byteCount <;> cases e.increment <;> cases e.decrement <;> rfl

theorem memberTexts_sound (e : OperandEntry) : ∀ w ∈ e.memberTexts, w.Sound Read.operandField := by
  unfold memberTexts
  simp only [List.forall_mem_cons, List.forall_mem_append, List.forall_mem_map,
    List.not_mem_nil, IsEmpty.forall_iff, implies_true, and_true]
  refine ⟨MemberText.field_sound (fun _ _ _ => rfl) (writes_text e.name),
    ⟨⟨fun b _ => ?_, ?_⟩, ?_⟩, ?_⟩
  · exact MemberText.ignored_sound (fun _ _ _ => rfl) ⟨_, writes_byte b⟩
  · exact MemberText.field_sound (fun _ _ _ => rfl) (writes_flag e.immediate)
  · refine MemberText.forall_mem_only fun _ => ?_
    exact MemberText.field_sound (fun _ _ _ => rfl) (writes_flag true)
  · refine MemberText.forall_mem_only fun _ => ?_
    exact MemberText.field_sound (fun _ _ _ => rfl) (writes_flag true)

end OperandEntry

theorem writes_operand (e : OperandEntry) :
    Writes (TablePrint.operand e).toList (fun v => Read.operand v = .ok e) := by
  rw [e.text_memberTexts]
  refine (MemberText.writes_line e.memberTexts_sound e.memberTexts_fillable).mono ?_
  rintro v ⟨ms, hv, hms⟩
  rw [e.fill_memberTexts] at hms
  obtain ⟨name, immediate, increment, decrement⟩ := e
  unfold Read.operand
  simp only [hv, hms]
  cases increment <;> cases decrement <;> rfl

/-! ## 5. Entries -/

/-- The members of flag states. -/
def FlagStates.memberTexts (s : FlagStates) : List (MemberText Read.FlagFields) :=
  [.field "Z" (TablePrint.string s.z) (·.z) (fun a x => { a with z := x }) s.z,
   .field "N" (TablePrint.string s.n) (·.n) (fun a x => { a with n := x }) s.n,
   .field "H" (TablePrint.string s.h) (·.h) (fun a x => { a with h := x }) s.h,
   .field "C" (TablePrint.string s.c) (·.c) (fun a x => { a with c := x }) s.c]

theorem writes_flags (s : FlagStates) :
    Writes (TablePrint.flags s).toList (fun v => Read.flagStates v = .ok s) := by
  have hsound : ∀ w ∈ s.memberTexts, w.Sound Read.flagField := by
    unfold FlagStates.memberTexts
    simp only [List.forall_mem_cons, List.not_mem_nil, IsEmpty.forall_iff, implies_true, and_true]
    exact ⟨MemberText.field_sound (fun _ _ _ => rfl) (writes_text _),
      MemberText.field_sound (fun _ _ _ => rfl) (writes_text _),
      MemberText.field_sound (fun _ _ _ => rfl) (writes_text _),
      MemberText.field_sound (fun _ _ _ => rfl) (writes_text _)⟩
  have hfillable : MemberText.Fillable {} s.memberTexts := ⟨rfl, rfl, rfl, rfl, trivial⟩
  refine Writes.mono (MemberText.writes_line hsound hfillable) ?_
  rintro v ⟨ms, hv, hms⟩
  unfold Read.flagStates
  simp only [hv, hms]
  rfl

/-- The members of an entry. -/
def Entry.memberTexts (e : Entry) : List (MemberText Read.EntryFields) :=
  [.field "mnemonic" (TablePrint.string e.mnemonic) (·.mnemonic)
    (fun a x => { a with mnemonic := x }) e.mnemonic,
   .field "bytes" (toString e.bytes.toNat) (·.bytes) (fun a x => { a with bytes := x }) e.bytes,
   .field "cycles" (TablePrint.array (e.cycles.map fun n => toString n.toNat)) (·.cycles)
    (fun a x => { a with cycles := x }) e.cycles,
   .field "operands" (TablePrint.array (e.operands.map TablePrint.operand)) (·.operands)
    (fun a x => { a with operands := x }) e.operands,
   .ignored "immediate" (Text.truthText (e.operands.all fun o => o.immediate)),
   .field "flags" (TablePrint.flags e.flags) (·.flags) (fun a x => { a with flags := x }) e.flags]

/-- A list of texts that stand for values is read as the list of the values. -/
theorem writes_list {α : Type} {read : Json.Placed Json → Read α} {text : α → String} (as : List α)
    (h : ∀ a ∈ as, Writes (text a).toList (fun v => read v = .ok a)) :
    Writes (TablePrint.array (as.map text)).toList (fun v => Read.list read v = .ok as) := by
  refine (Json.writes_array as text _ h).mono ?_
  rintro v ⟨vs, hv, hvs⟩
  unfold Read.list
  rw [hv]
  show Read.all read vs = .ok as
  clear h hv
  induction hvs with
  | nil => rfl
  | cons hv _ ih =>
    unfold Read.all
    rw [hv, ih]
    rfl

theorem writes_entry (e : Entry) :
    Writes (TablePrint.entry e).toList (fun v => Read.entry v = .ok e) := by
  have hsound : ∀ w ∈ e.memberTexts, w.Sound Read.entryField := by
    unfold Entry.memberTexts
    simp only [List.forall_mem_cons, List.not_mem_nil, IsEmpty.forall_iff, implies_true, and_true]
    exact ⟨MemberText.field_sound (fun _ _ _ => rfl) (writes_text _),
      MemberText.field_sound (fun _ _ _ => rfl) (writes_byte _),
      MemberText.field_sound (fun _ _ _ => rfl) (writes_list _ fun n _ => writes_byte n),
      MemberText.field_sound (fun _ _ _ => rfl) (writes_list _ fun o _ => writes_operand o),
      MemberText.ignored_sound (fun _ _ _ => rfl) ⟨_, writes_flag _⟩,
      MemberText.field_sound (fun _ _ _ => rfl) (writes_flags _)⟩
  have hfillable : MemberText.Fillable {} e.memberTexts :=
    ⟨rfl, rfl, rfl, rfl, trivial, rfl, trivial⟩
  refine Writes.mono (MemberText.writes_line hsound hfillable) ?_
  rintro v ⟨ms, hv, hms⟩
  unfold Read.entry
  simp only [hv, hms]
  rfl

/-! ## 6. Documents -/

/-- The members of a page. -/
def Partition.memberTexts (p : Partition) : List (MemberText Partition) :=
  p.map fun e => ⟨e.1, TablePrint.entry e.2, fun q => ∀ d ∈ q, d.1 ≠ e.1, fun q => q ++ [e]⟩

theorem put_of_fresh {key : String} {e : Entry} {p : Partition} (h : ∀ d ∈ p, d.1 ≠ key) :
    Partition.put key e p = p ++ [(key, e)] := by
  induction p with
  | nil => rfl
  | cons d p ih =>
    obtain ⟨k, d⟩ := d
    obtain ⟨hk, hp⟩ := List.forall_mem_cons.mp h
    unfold Partition.put
    rw [if_neg (by simpa using hk), ih hp]
    rfl

theorem Partition.fillable_memberTexts {p : Partition} (h : (p.map Prod.fst).Nodup) (q : Partition)
    (hq : ∀ d ∈ q, ∀ e ∈ p, d.1 ≠ e.1) :
    MemberText.Fillable q (Partition.memberTexts p) ∧
      MemberText.fill q (Partition.memberTexts p) = q ++ p := by
  induction p generalizing q with
  | nil => exact ⟨trivial, (List.append_nil q).symm⟩
  | cons e p ih =>
    rw [List.map_cons, List.nodup_cons] at h
    have hnext : ∀ d ∈ q ++ [e], ∀ f ∈ p, d.1 ≠ f.1 := by
      intro d hd f hf
      rcases List.mem_append.mp hd with hd | hd
      · exact hq d hd f (List.mem_cons_of_mem _ hf)
      · cases List.mem_singleton.mp hd
        exact fun he => h.1 (he ▸ List.mem_map_of_mem hf)
    obtain ⟨hfillable, hfill⟩ := ih h.2 (q ++ [e]) hnext
    refine ⟨⟨fun d hd => hq d hd e List.mem_cons_self, hfillable⟩, ?_⟩
    show MemberText.fill (q ++ [e]) (Partition.memberTexts p) = _
    rw [hfill, List.append_assoc]
    rfl

/-- The text of a page, without its name. -/
def Partition.text (p : Partition) : String :=
  MemberText.lines "    " (Partition.memberTexts p) "\n  \x7d"

theorem Partition.text_eq (name : String) (p : Partition) :
    TablePrint.partition name p = "  " ++ TablePrint.named name (Partition.text p) := by
  unfold TablePrint.partition Partition.text MemberText.lines Partition.memberTexts
  rw [List.map_map]
  rfl

theorem writes_partition {p : Partition} (h : (p.map Prod.fst).Nodup) :
    Writes (Partition.text p).toList (fun v => Read.partition v = .ok p) := by
  have hsound : ∀ w ∈ Partition.memberTexts p, w.Sound Read.partitionMember := by
    unfold Partition.memberTexts
    simp only [List.forall_mem_map]
    intro e _
    refine (writes_entry e.2).mono fun v hv q rest hq => ?_
    show (Read.entry v).map _ = _
    rw [hv]
    exact congrArg Except.ok (put_of_fresh hq)
  obtain ⟨hfillable, hfill⟩ :=
    Partition.fillable_memberTexts h [] fun d hd => absurd hd List.not_mem_nil
  have hending : "\n  \x7d".toList = '\n' :: ("  ".toList ++ ['}']) := rfl
  refine (MemberText.writes_lines hending (by decide) hsound hfillable).mono ?_
  rintro v ⟨ms, hv, hms⟩
  unfold Read.partition
  simp only [hv, hms, hfill]
  rfl

/-- The members of a document. -/
def TableDocument.memberTexts (d : TableDocument) : List (MemberText Read.DocumentFields) :=
  [.field "unprefixed" (Partition.text d.plain) (·.plain) (fun a x => { a with plain := x })
    d.plain,
   .field "cbprefixed" (Partition.text d.paged) (·.paged) (fun a x => { a with paged := x })
    d.paged]

/-- A document whose pages have each key once. -/
def TableDocument.KeysDistinct (d : TableDocument) : Prop :=
  (d.plain.map Prod.fst).Nodup ∧ (d.paged.map Prod.fst).Nodup

theorem writes_document {d : TableDocument} (h : d.KeysDistinct) :
    Writes (MemberText.lines "  " d.memberTexts "\n\x7d").toList
      (fun v => Read.document v = .ok d) := by
  have hsound : ∀ w ∈ d.memberTexts, w.Sound Read.documentField := by
    unfold TableDocument.memberTexts
    simp only [List.forall_mem_cons, List.not_mem_nil, IsEmpty.forall_iff, implies_true, and_true]
    exact ⟨MemberText.field_sound (fun _ _ _ => rfl) (writes_partition h.1),
      MemberText.field_sound (fun _ _ _ => rfl) (writes_partition h.2)⟩
  have hfillable : MemberText.Fillable {} d.memberTexts := ⟨rfl, rfl, trivial⟩
  have hending : "\n\x7d".toList = '\n' :: ("".toList ++ ['}']) := rfl
  refine (MemberText.writes_lines hending (by decide) hsound hfillable).mono ?_
  rintro v ⟨ms, hv, hms⟩
  unfold Read.document
  simp only [hv, hms]
  rfl

/-- **A document is read back from its text**, if its pages have each key once. -/
theorem TableDocument.ofText_text (d : TableDocument) (h : d.KeysDistinct) :
    TableDocument.ofText d.text = .ok d := by
  have htext : d.text = MemberText.lines "  " d.memberTexts "\n\x7d" ++ "\n" := by
    have hending : "\n\x7d\n" = "\n\x7d" ++ "\n" := by decide
    unfold TableDocument.text
    rw [Partition.text_eq, Partition.text_eq, hending, ← String.append_assoc]
    rfl
  obtain ⟨v, hv, hleads⟩ := writes_document h .value [] ['\n'] trivial
    (Json.endsNumber_cons [] (by decide))
  have hparse : Json.parse? d.text = some v := by
    refine Json.parse?_eq_some ?_
    rw [htext, String.toList_append]
    exact hleads.trans (Json.Leads.gap rfl [] _)
  unfold TableDocument.ofText
  rw [hparse]
  simp only [hv]
  rfl

end Sm83Codegen
