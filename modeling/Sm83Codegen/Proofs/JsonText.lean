import Mathlib.Data.List.Forall2
import Sm83Codegen.Json.Number
import Sm83Codegen.Json.Parse
import Sm83Codegen.Table.Print

/-!
# Reading what was written as JSON

Words are found from left to right, and a value is built from them with a stack. A text that was
written as a value takes the stack from before the value to behind it, whatever encloses the value
and whatever follows it.

* `Stage`, `Leads` -- where reading stands, and what a stretch of text does to it;
* `Writes` -- a text that stands for values with a property;
* `writes_string`, `writes_whole`, `writes_truth` -- values that hold no other;
* `writes_array`, `writes_object` -- values that do;
* `parse?_eq_some` -- a text that stands for a value is read as one.
-/

namespace Sm83Codegen.Json

/-! ## 1. Stretches of text -/

/-- Where reading stands: what has to come next, and what is open. -/
abbrev Stage := Expecting × List Frame

/-- Reading a text down to `rest` leads from one stage to another. -/
def Leads (cs : List Char) (s : Stage) (rest : List Char) (s' : Stage) : Prop :=
  ∃ ts : List (Placed Token),
    (∀ fuel read, cs.length ≤ fuel → ∃ fuel', rest.length ≤ fuel' ∧
      tokensFrom? fuel read cs = tokensFrom? fuel' (ts.reverse ++ read) rest) ∧
    ∀ us, build s.1 s.2 (ts ++ us) = build s'.1 s'.2 us

namespace Leads

variable {s s' s'' : Stage} {cs mid rest : List Char}

theorem refl (cs : List Char) (s : Stage) : Leads cs s cs s :=
  ⟨[], fun fuel _ h => ⟨fuel, h, rfl⟩, fun _ => rfl⟩

theorem trans (h : Leads cs s mid s') (h' : Leads mid s' rest s'') : Leads cs s rest s'' := by
  obtain ⟨ts, hts, hbuild⟩ := h
  obtain ⟨us, hus, hbuild'⟩ := h'
  refine ⟨ts ++ us, fun fuel read hfuel => ?_, fun vs => ?_⟩
  · obtain ⟨fuel₁, hfuel₁, h₁⟩ := hts fuel read hfuel
    obtain ⟨fuel₂, hfuel₂, h₂⟩ := hus fuel₁ (ts.reverse ++ read) hfuel₁
    refine ⟨fuel₂, hfuel₂, ?_⟩
    rw [h₁, h₂, List.reverse_append, List.append_assoc]
  · rw [List.append_assoc, hbuild, hbuild']

/-- A blank between words leads nowhere. -/
theorem gap {c : Char} (hc : isGap c = true) (cs : List Char) (s : Stage) :
    Leads (c :: cs) s cs s := by
  refine ⟨[], fun fuel read hfuel => ?_, fun _ => rfl⟩
  cases fuel with
  | zero => cases hfuel
  | succ fuel =>
    refine ⟨fuel, Nat.le_of_succ_le_succ hfuel, ?_⟩
    show (if isGap c = true then _ else _) = _
    rw [if_pos hc]
    rfl

theorem gaps {gs : List Char} (hgs : ∀ c ∈ gs, isGap c = true) (cs : List Char) (s : Stage) :
    Leads (gs ++ cs) s cs s := by
  induction gs with
  | nil => exact refl cs s
  | cons c gs ih =>
    have hc := hgs c List.mem_cons_self
    exact (gap hc (gs ++ cs) s).trans (ih fun d hd => hgs d (List.mem_cons_of_mem _ hd))

/-- A word leads where the builder goes with it. -/
theorem token {c : Char} {t : Token} (hc : isGap c = false)
    (ht : scanToken (c :: cs) = some (t, rest)) (hlen : rest.length ≤ cs.length)
    (hbuild : ∀ us, build s.1 s.2 (⟨t, c :: cs, rest⟩ :: us) = build s'.1 s'.2 us) :
    Leads (c :: cs) s rest s' := by
  refine ⟨[⟨t, c :: cs, rest⟩], fun fuel read hfuel => ?_, hbuild⟩
  cases fuel with
  | zero => cases hfuel
  | succ fuel =>
    refine ⟨fuel, Nat.le_trans hlen (Nat.le_of_succ_le_succ hfuel), ?_⟩
    conv_lhs => unfold tokensFrom?
    simp only [hc, ht]
    rfl

end Leads

/-- **A text that leads to a value that nothing encloses is read as that value.** -/
theorem parse?_eq_some {text : String} {v : Placed Json}
    (h : Leads text.toList (.value, []) [] (.after v, [])) : parse? text = some v := by
  obtain ⟨ts, hts, hbuild⟩ := h
  obtain ⟨fuel, _, hread⟩ := hts text.toList.length [] (Nat.le_refl _)
  have htokens : tokens? text.toList = some ts := by
    unfold tokens?
    rw [hread, List.append_nil]
    cases fuel with
    | zero => exact congrArg some (List.reverse_reverse ts)
    | succ fuel => exact congrArg some (List.reverse_reverse ts)
  unfold parse?
  rw [htokens]
  have hvalue := hbuild []
  rw [List.append_nil] at hvalue
  exact hvalue

/-! ## 2. Values -/

/-- A value may come next. -/
def Expecting.TakesValue : Expecting → Prop
  | .value | .firstItem => True
  | _ => False

/-- A name may come next. -/
def Expecting.TakesName : Expecting → Prop
  | .name | .firstName => True
  | _ => False

/-- What follows does not go on with a number. -/
def EndsNumber (rest : List Char) : Prop :=
  ∀ c ∈ rest.head?, Text.isDecimalDigit c = false ∧ c ≠ '.' ∧ c ≠ 'e' ∧ c ≠ 'E'

theorem endsNumber_cons {c : Char} (cs : List Char)
    (h : Text.isDecimalDigit c = false ∧ c ≠ '.' ∧ c ≠ 'e' ∧ c ≠ 'E') : EndsNumber (c :: cs) := by
  intro d hd
  cases hd
  exact h

theorem endsNumber_gap {c : Char} (cs : List Char) (h : isGap c = true) : EndsNumber (c :: cs) := by
  unfold isGap at h
  simp only [Bool.or_eq_true, beq_iff_eq] at h
  rcases h with ((rfl | rfl) | rfl) | rfl <;> exact endsNumber_cons cs (by decide)

/-- A text stands for values with a property, wherever a value may stand. -/
def Writes (cs : List Char) (P : Placed Json → Prop) : Prop :=
  ∀ (e : Expecting) (stack : List Frame) (rest : List Char), e.TakesValue → EndsNumber rest →
    ∃ v, P v ∧ Leads (cs ++ rest) (e, stack) rest (.after v, stack)

theorem Writes.mono {cs : List Char} {P Q : Placed Json → Prop} (h : Writes cs P)
    (hPQ : ∀ v, P v → Q v) : Writes cs Q := by
  intro e stack rest he hrest
  obtain ⟨v, hv, hleads⟩ := h e stack rest he hrest
  exact ⟨v, hPQ v hv, hleads⟩

theorem build_scalar {e : Expecting} (he : e.TakesValue) (stack : List Frame) (v : Json)
    (start stop : List Char) (us : List (Placed Token)) :
    build e stack (⟨.scalar v, start, stop⟩ :: us) = build (.after ⟨v, start, stop⟩) stack us := by
  cases e with
  | value => rfl
  | firstItem => rfl
  | _ => cases he

theorem build_beginArray {e : Expecting} (he : e.TakesValue) (stack : List Frame)
    (start stop : List Char) (us : List (Placed Token)) :
    build e stack (⟨.beginArray, start, stop⟩ :: us) =
      build .firstItem (.array start [] :: stack) us := by
  cases e with
  | value => rfl
  | firstItem => rfl
  | _ => cases he

theorem build_beginObject {e : Expecting} (he : e.TakesValue) (stack : List Frame)
    (start stop : List Char) (us : List (Placed Token)) :
    build e stack (⟨.beginObject, start, stop⟩ :: us) =
      build .firstName (.object start [] :: stack) us := by
  cases e with
  | value => rfl
  | firstItem => rfl
  | _ => cases he

theorem build_name {e : Expecting} (he : e.TakesName) (stack : List Frame) (name : Option String)
    (start stop : List Char) (us : List (Placed Token)) :
    build e stack (⟨.scalar (.string name), start, stop⟩ :: us) =
      build (.colon ⟨name, start, stop⟩) stack us := by
  cases e with
  | name => rfl
  | firstName => rfl
  | _ => cases he

/-! ## 3. Quoted texts -/

/-- A control character's number comes back from its four digits. -/
theorem codeUnit?_control : ∀ n < 0x20, codeUnit? '0' '0'
    (Text.hexDigitLower ((UInt8.ofNat n).toNat / 16))
    (Text.hexDigitLower ((UInt8.ofNat n).toNat % 16)) = some n := by
  decide

theorem pushUnit_control (t : TextSoFar) {n : Nat} (h : n < 0x20) :
    t.pushUnit n = t.push (Char.ofNat n) := by
  have hlow : isLowHalf n = false := by
    unfold isLowHalf
    simp only [Bool.and_eq_false_iff, decide_eq_false_iff_not]
    omega
  have hhigh : isHighHalf n = false := by
    unfold isHighHalf
    simp only [Bool.and_eq_false_iff, decide_eq_false_iff_not]
    omega
  unfold TextSoFar.pushUnit
  rw [hlow, hhigh]
  rfl

/-- Four digits give a code unit. -/
theorem scanString_unit {t : TextSoFar} {a b c d : Char} {n : Nat}
    (h : codeUnit? a b c d = some n) (cs : List Char) :
    scanString t ('\\' :: 'u' :: a :: b :: c :: d :: cs) = scanString (t.pushUnit n) cs := by
  rw [scanString, h]

/-- A character that was written inside a quoted text is read back. -/
theorem scanString_escapedChar (t : TextSoFar) (c : Char) (cs : List Char) :
    scanString t ((TablePrint.escapedChar c).toList ++ cs) = scanString (t.push c) cs := by
  unfold TablePrint.escapedChar
  split
  · next h =>
    simp only [Bool.or_eq_true, beq_iff_eq] at h
    rcases h with rfl | rfl <;> rfl
  · next hquote =>
    split
    · next hcontrol =>
      have hunit := codeUnit?_control c.toNat hcontrol
      have hpush := pushUnit_control t hcontrol
      rw [Char.ofNat_toNat] at hpush
      unfold Text.hexByteLower
      simp only [String.toList_append, String.toList_ofList]
      exact (scanString_unit hunit cs).trans (congrArg (scanString · cs) hpush)
    · next hcontrol =>
      simp only [Bool.or_eq_true, beq_iff_eq, not_or] at hquote
      rw [String.toList_singleton, List.singleton_append, scanString]
      · simp [hcontrol, hquote.2]
      all_goals simp [hquote]

theorem scanString_escaped (t : TextSoFar) (s cs : List Char) :
    scanString t (s.flatMap (fun c => (TablePrint.escapedChar c).toList) ++ '\"' :: cs) =
      some ((s.foldl TextSoFar.push t).text?, cs) := by
  induction s generalizing t with
  | nil => rfl
  | cons c s ih => rw [List.flatMap_cons, List.append_assoc, scanString_escapedChar, ih]; rfl

/-- Characters that were pushed stand in the text. -/
theorem text?_foldl_push (s : List Char) (t : TextSoFar) (hw : t.whole = true)
    (hh : t.half = none) :
    (s.foldl TextSoFar.push t).text? = some (String.ofList (t.read.reverse ++ s)) := by
  induction s generalizing t with
  | nil => 
    unfold TextSoFar.text? TextSoFar.settled
    simp [hw, hh]
  | cons c s ih =>
    rw [List.foldl_cons, ih (t.push c) (by simp [TextSoFar.push, TextSoFar.settled, hw, hh]) rfl]
    simp [TextSoFar.push, TextSoFar.settled]

/-- **A quoted text is read as the text.** -/
theorem scanString_string (s : String) (cs : List Char) :
    ∃ rest, (TablePrint.string s).toList ++ cs = '\"' :: rest ∧
      scanString {} rest = some (some s, cs) ∧ cs.length ≤ rest.length := by
  refine ⟨s.toList.flatMap (fun c => (TablePrint.escapedChar c).toList) ++ '\"' :: cs, ?_, ?_, ?_⟩
  · unfold TablePrint.string
    simp [String.toList_join, List.flatMap_map]
  · rw [scanString_escaped, text?_foldl_push _ _ rfl rfl]
    simp
  · simp only [List.length_append, List.length_cons]
    omega

theorem writes_string (s : String) :
    Writes (TablePrint.string s).toList (fun v => v.value = .string (some s)) := by
  intro e stack rest he _
  obtain ⟨after, htext, hscan, hlen⟩ := scanString_string s rest
  rw [htext]
  refine ⟨⟨.string (some s), '\"' :: after, rest⟩, rfl, ?_⟩
  refine Leads.token rfl ?_ hlen fun us => build_scalar he stack _ _ _ us
  show (scanString {} after).map _ = _
  rw [hscan]
  rfl

/-! ## 4. Numbers and truth values -/

/-- Digits that a number can start with: some, and no zero before others. -/
def IsWhole (ds : List Char) : Prop :=
  ds ≠ [] ∧ (∀ d ∈ ds, Text.isDecimalDigit d = true) ∧ (ds.head? = some '0' → ds = ['0'])

theorem scanDigits_append {ds rest : List Char} (hds : ∀ d ∈ ds, Text.isDecimalDigit d = true)
    (hrest : EndsNumber rest) : scanDigits (ds ++ rest) = (ds, rest) := by
  have hhead : rest.takeWhile Text.isDecimalDigit = [] ∧
      rest.dropWhile Text.isDecimalDigit = rest := by
    cases rest with
    | nil => exact ⟨rfl, rfl⟩
    | cons c cs =>
      have hc := (hrest c rfl).1
      exact ⟨by simp [hc], by simp [hc]⟩
  unfold scanDigits
  rw [List.takeWhile_append_of_pos hds, List.dropWhile_append_of_pos hds, hhead.1, hhead.2,
    List.append_nil]

theorem scanFraction?_none {rest : List Char} (h : EndsNumber rest) :
    scanFraction? rest = some (none, rest) := by
  cases rest with
  | nil => rfl
  | cons c cs =>
    obtain ⟨_, hpoint, _, _⟩ := h c rfl
    rw [scanFraction?]
    simp [hpoint]

theorem scanExponent?_none {rest : List Char} (h : EndsNumber rest) :
    scanExponent? rest = some (none, rest) := by
  cases rest with
  | nil => rfl
  | cons c cs =>
    obtain ⟨_, _, hsmall, hlarge⟩ := h c rfl
    simp [scanExponent?, hsmall, hlarge]

theorem scanNumber_whole {ds rest : List Char} (hds : IsWhole ds) (hrest : EndsNumber rest) :
    scanNumber false (ds ++ rest) = some (⟨false, ds, none, none⟩, rest) := by
  obtain ⟨hne, hdigits, hzero⟩ := hds
  unfold scanNumber
  rw [scanDigits_append hdigits hrest]
  dsimp only
  split
  · exact absurd rfl hne
  · cases hzero rfl
  · rw [scanFraction?_none hrest]
    show (scanExponent? rest).bind _ = _
    rw [scanExponent?_none hrest]
    rfl

theorem digit_cases {d : Char} (h : Text.isDecimalDigit d = true) :
    d ∈ ['0', '1', '2', '3', '4', '5', '6', '7', '8', '9'] := by
  have hall : ∀ n ≤ 57, 48 ≤ n →
      Char.ofNat n ∈ ['0', '1', '2', '3', '4', '5', '6', '7', '8', '9'] := by decide
  unfold Text.isDecimalDigit at h
  simp only [Bool.and_eq_true, decide_eq_true_eq] at h
  rw [← Char.ofNat_toNat d]
  exact hall d.toNat h.2 h.1

theorem scanToken_digit {d : Char} (h : Text.isDecimalDigit d = true) (cs : List Char) :
    isGap d = false ∧ scanToken (d :: cs) =
      (scanNumber false (d :: cs)).map (fun (n, rest) => (.scalar (.number n), rest)) := by
  have hd := digit_cases h
  simp only [List.mem_cons, List.not_mem_nil, or_false] at hd
  rcases hd with rfl | rfl | rfl | rfl | rfl | rfl | rfl | rfl | rfl | rfl <;> exact ⟨rfl, rfl⟩

theorem writes_whole {ds : List Char} (hds : IsWhole ds) :
    Writes ds (fun v => v.value = .number ⟨false, ds, none, none⟩) := by
  intro e stack rest he hrest
  cases ds with
  | nil => exact absurd rfl hds.1
  | cons d ds =>
    obtain ⟨hgap, htoken⟩ := scanToken_digit (hds.2.1 d List.mem_cons_self) (ds ++ rest)
    refine ⟨⟨_, d :: (ds ++ rest), rest⟩, rfl, ?_⟩
    refine Leads.token hgap ?_ ?_ fun us => build_scalar he stack _ _ _ us
    · show scanToken (d :: (ds ++ rest)) = _
      rw [htoken, ← List.cons_append, scanNumber_whole hds hrest]
      rfl
    · show rest.length ≤ (ds ++ rest).length
      rw [List.length_append]
      omega

theorem writes_truth (b : Bool) :
    Writes (Text.truthText b).toList (fun v => v.value = .bool b) := by
  intro e stack rest he _
  refine ⟨⟨.bool b, (Text.truthText b).toList ++ rest, rest⟩, rfl, ?_⟩
  cases b with
  | true =>
    refine Leads.token rfl rfl ?_ fun us => build_scalar he stack _ _ _ us
    show rest.length ≤ rest.length + 3
    omega
  | false =>
    refine Leads.token rfl rfl ?_ fun us => build_scalar he stack _ _ _ us
    show rest.length ≤ rest.length + 4
    omega

/-! ## 5. Lists of parts -/

/-- Texts one after the other, with a comma and blanks between two. -/
def listed (blanks : List Char) : List (List Char) → List Char
  | [] => []
  | t :: ts => t ++ ts.flatMap (fun u => ',' :: blanks ++ u)

theorem intercalate_eq_listed (blanks : List Char) (ts : List (List Char)) :
    List.intercalate (',' :: blanks) ts = listed blanks ts := by
  induction ts with
  | nil => rfl
  | cons t ts ih =>
    cases ts with
    | nil => simp [List.intercalate, listed]
    | cons u us =>
      have hstep : List.intercalate (',' :: blanks) (t :: u :: us) =
          t ++ (',' :: blanks ++ List.intercalate (',' :: blanks) (u :: us)) := by
        simp [List.intercalate]
      rw [hstep, ih]
      simp [listed]

/-- What follows a part of a list does not go on with a number. -/
theorem endsNumber_separated {blanks : List Char} (ts : List (List Char)) {rest : List Char}
    (h : EndsNumber rest) :
    EndsNumber (ts.flatMap (fun u => ',' :: blanks ++ u) ++ rest) := by
  cases ts with
  | nil => exact h
  | cons t ts => exact endsNumber_cons _ (by decide)

section Parts

variable {α β : Type} {text : α → List Char} {P : α → β → Prop} {blanks : List Char}
  {within : List β → Stage} {behind : β → List β → Stage}

/-- Parts after the first. The builder holds what it has read, the last one first. -/
theorem leads_parts (hblanks : ∀ c ∈ blanks, isGap c = true)
    (hcomma : ∀ b bs start stop us, build (behind b bs).1 (behind b bs).2
      (⟨.comma, start, stop⟩ :: us) = build (within (b :: bs)).1 (within (b :: bs)).2 us)
    (as : List α) (hpart : ∀ a ∈ as, ∀ bs rest, EndsNumber rest →
      ∃ b, P a b ∧ Leads (text a ++ rest) (within bs) rest (behind b bs))
    {rest : List Char} (hrest : EndsNumber rest) (b : β) (bs : List β) :
    ∃ cs b' bs', List.Forall₂ P as cs ∧ b' :: bs' = cs.reverse ++ b :: bs ∧
      Leads ((as.map text).flatMap (fun u => ',' :: blanks ++ u) ++ rest) (behind b bs) rest
        (behind b' bs') := by
  induction as generalizing b bs with
  | nil => exact ⟨[], b, bs, .nil, rfl, Leads.refl _ _⟩
  | cons a as ih =>
    obtain ⟨c, hc, hread⟩ := hpart a List.mem_cons_self (b :: bs) _
      (endsNumber_separated (as.map text) hrest)
    obtain ⟨cs, b', bs', hcs, heq, hrestRead⟩ := ih
      (fun a ha => hpart a (List.mem_cons_of_mem _ ha)) c (b :: bs)
    refine ⟨c :: cs, b', bs', .cons hc hcs, ?_, ?_⟩
    · rw [heq, List.reverse_cons, List.append_assoc]
      rfl
    · rw [List.map_cons, List.flatMap_cons, List.append_assoc]
      refine Leads.trans ?_ (hread.trans hrestRead)
      rw [List.cons_append, List.cons_append, List.append_assoc]
      refine (Leads.token rfl rfl (Nat.le_refl _) (hcomma b bs _ _)).trans ?_
      exact Leads.gaps hblanks _ _

end Parts

/-! ## 6. Arrays and objects -/

theorem build_comma_array (v : Placed Json) (start : List Char) (items : List (Placed Json))
    (stack : List Frame) (c c' : List Char) (us : List (Placed Token)) :
    build (.after v) (.array start items :: stack) (⟨.comma, c, c'⟩ :: us) =
      build .value (.array start (v :: items) :: stack) us := by
  rfl

theorem build_comma_object (v : Placed Json) (name : Placed (Option String)) (start : List Char)
    (ms : Members) (stack : List Frame) (c c' : List Char) (us : List (Placed Token)) :
    build (.after v) (.member start ms name :: stack) (⟨.comma, c, c'⟩ :: us) =
      build .name (.object start ((name, v) :: ms) :: stack) us := by
  rfl

/-- An array of texts that stand for values is an array of such values. -/
theorem writes_array {α : Type} (items : List α) (text : α → String)
    (P : α → Placed Json → Prop) (h : ∀ a ∈ items, Writes (text a).toList (P a)) :
    Writes (TablePrint.array (items.map text)).toList
      (fun v => ∃ vs, v.value = .array vs ∧ List.Forall₂ P items vs) := by
  have htext : (TablePrint.array (items.map text)).toList =
      '[' :: (listed [' '] (items.map fun a => (text a).toList) ++ [']']) := by
    unfold TablePrint.array Text.commaSeparated
    rw [String.toList_append, String.toList_append, String.toList_intercalate, List.map_map]
    exact congrArg (fun cs => '[' :: (cs ++ [']'])) (intercalate_eq_listed [' '] _)
  intro e stack rest he hrest
  have hclose : EndsNumber (']' :: rest) := endsNumber_cons rest (by decide)
  rw [htext, List.cons_append, List.append_assoc]
  -- the array is open from its bracket on
  have hopen : ∀ cs, ∃ start,
      Leads ('[' :: cs) (e, stack) cs (.firstItem, .array start [] :: stack) := fun cs =>
    ⟨'[' :: cs, Leads.token rfl rfl (Nat.le_refl _) fun us => build_beginArray he stack _ _ us⟩
  cases items with
  | nil =>
    obtain ⟨start, hopen⟩ := hopen (']' :: rest)
    refine ⟨⟨.array [], start, rest⟩, ⟨[], rfl, .nil⟩, hopen.trans ?_⟩
    exact Leads.token rfl rfl (Nat.le_refl _) fun us => rfl
  | cons a as =>
    rw [List.map_cons, listed, List.append_assoc]
    obtain ⟨start, hopen⟩ := hopen _
    obtain ⟨v, hv, hfirst⟩ := h a List.mem_cons_self .firstItem (.array start [] :: stack) _
      trivial (endsNumber_separated _ hclose)
    have hspace : ∀ c ∈ [' '], isGap c = true := by
      intro c hc
      rw [List.mem_singleton.mp hc]
      rfl
    obtain ⟨vs, v', vs', hvs, heq, hparts⟩ := leads_parts hspace
      (fun v items => build_comma_array v start items stack) as
      (fun a ha items rest => h a (List.mem_cons_of_mem _ ha) .value _ rest trivial) hclose v []
    refine ⟨⟨.array (v' :: vs').reverse, start, rest⟩, ⟨_, rfl, ?_⟩,
      hopen.trans (hfirst.trans (hparts.trans ?_))⟩
    · rw [heq, List.reverse_append, List.reverse_reverse]
      exact .cons hv hvs
    · exact Leads.token rfl rfl (Nat.le_refl _) fun us => rfl

/-- A text stands for a member of an object with a property, wherever a member may stand. -/
def WritesMember (cs : List Char) (P : Placed (Option String) × Placed Json → Prop) : Prop :=
  ∀ (e : Expecting) (start : List Char) (ms : Members) (stack : List Frame) (rest : List Char),
    e.TakesName → EndsNumber rest →
    ∃ m, P m ∧ Leads (cs ++ rest) (e, .object start ms :: stack) rest
      (.after m.2, .member start ms m.1 :: stack)

/-- A named value is a member of its name. -/
theorem writesMember_named (name : String) {value : String} {P : Placed Json → Prop}
    (h : Writes value.toList P) :
    WritesMember (TablePrint.named name value).toList (fun m => m.1.value = some name ∧ P m.2) := by
  intro e start ms stack rest he hrest
  have htext : (TablePrint.named name value).toList ++ rest =
      (TablePrint.string name).toList ++ ':' :: ' ' :: (value.toList ++ rest) := by
    simp [TablePrint.named]
  obtain ⟨after, hstring, hscan, hlen⟩ :=
    scanString_string name (':' :: ' ' :: (value.toList ++ rest))
  obtain ⟨n, hn, hname⟩ : ∃ n, n.value = some name ∧ Leads ('\"' :: after)
      (e, .object start ms :: stack) (':' :: ' ' :: (value.toList ++ rest))
      (.colon n, .object start ms :: stack) := by
    refine ⟨⟨some name, '\"' :: after, ':' :: ' ' :: (value.toList ++ rest)⟩, rfl, ?_⟩
    refine Leads.token rfl ?_ hlen fun us => build_name he _ (some name) _ _ us
    show (scanString {} after).map _ = _
    rw [hscan]
    rfl
  have hcolon : Leads (':' :: ' ' :: (value.toList ++ rest))
      (.colon n, .object start ms :: stack) (value.toList ++ rest)
      (.value, .member start ms n :: stack) :=
    (Leads.token rfl rfl (Nat.le_refl _) fun us => rfl).trans (Leads.gap rfl _ _)
  obtain ⟨v, hv, hvalue⟩ := h .value (.member start ms n :: stack) rest trivial hrest
  rw [htext, hstring]
  exact ⟨(n, v), ⟨hn, hv⟩, hname.trans (hcolon.trans hvalue)⟩

theorem WritesMember.indented {cs : List Char} {P : Placed (Option String) × Placed Json → Prop}
    (h : WritesMember cs P) {blanks : List Char} (hblanks : ∀ c ∈ blanks, isGap c = true) :
    WritesMember (blanks ++ cs) P := by
  intro e start ms stack rest he hrest
  obtain ⟨m, hm, hleads⟩ := h e start ms stack rest he hrest
  refine ⟨m, hm, ?_⟩
  rw [List.append_assoc]
  exact (Leads.gaps hblanks _ _).trans hleads

/-- An object of texts that stand for members is an object of such members. -/
theorem writes_object {α : Type} {opening blanks closing : List Char}
    (hopening : ∀ c ∈ opening, isGap c = true) (hblanks : ∀ c ∈ blanks, isGap c = true)
    (hclosing : ∀ c ∈ closing, isGap c = true) (as : List α) (text : α → List Char)
    (P : α → Placed (Option String) × Placed Json → Prop)
    (h : ∀ a ∈ as, WritesMember (text a) (P a)) :
    Writes ('{' :: (opening ++ (listed blanks (as.map text) ++ (closing ++ ['}']))))
      (fun v => ∃ ms, v.value = .object ms ∧ List.Forall₂ P as ms) := by
  intro e stack rest he hrest
  have hclose : EndsNumber (closing ++ '}' :: rest) := by
    cases closing with
    | nil => exact endsNumber_cons rest (by decide)
    | cons c cs => exact endsNumber_gap _ (hclosing c List.mem_cons_self)
  -- the object is open from its brace on
  have hopen : ∀ cs, ∃ start, Leads ('{' :: (opening ++ cs)) (e, stack) cs
      (.firstName, .object start [] :: stack) := fun cs =>
    ⟨'{' :: (opening ++ cs), (Leads.token rfl rfl (Nat.le_refl _) fun us =>
      build_beginObject he stack _ _ us).trans (Leads.gaps hopening cs _)⟩
  rw [List.cons_append, List.append_assoc, List.append_assoc, List.append_assoc]
  cases as with
  | nil =>
    obtain ⟨start, hopen⟩ := hopen (closing ++ '}' :: rest)
    refine ⟨⟨.object [], start, rest⟩, ⟨[], rfl, .nil⟩, hopen.trans ?_⟩
    refine (Leads.gaps hclosing _ _).trans ?_
    exact Leads.token rfl rfl (Nat.le_refl _) fun us => rfl
  | cons a as =>
    rw [List.map_cons, listed, List.append_assoc]
    obtain ⟨start, hopen⟩ := hopen _
    obtain ⟨m, hm, hfirst⟩ := h a List.mem_cons_self .firstName start [] stack _ trivial
      (endsNumber_separated _ hclose)
    obtain ⟨ms, m', ms', hms, heq, hparts⟩ := leads_parts hblanks
      (fun m ms => build_comma_object m.2 m.1 start ms stack) as
      (fun a ha ms rest => h a (List.mem_cons_of_mem _ ha) .name start ms stack rest trivial)
      hclose m []
    refine ⟨⟨.object (m' :: ms').reverse, start, rest⟩, ⟨_, rfl, ?_⟩,
      hopen.trans (hfirst.trans (hparts.trans ?_))⟩
    · rw [heq, List.reverse_append, List.reverse_reverse]
      exact .cons hm hms
    · refine (Leads.gaps hclosing _ _).trans ?_
      exact Leads.token rfl rfl (Nat.le_refl _) fun us => rfl

end Sm83Codegen.Json
