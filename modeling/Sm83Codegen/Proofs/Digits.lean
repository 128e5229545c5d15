import Sm83Codegen.Text.Hex
import Sm83Codegen.Text.Word

/-!
# Digits of bytes

Bytes are written with one or two hexadecimal digits or with decimal ones, and read back from them.

* `NamesByte` -- the byte that one or two hexadecimal digits name, in either case;
  `byteOfHex?_eq_some` -- the reader reads it;
* `WritesByte` -- the byte that a number in the generated text writes; `hex8_writes` and
  `decimal_writes` -- what is written for a byte writes it.
-/

namespace Sm83Codegen.Text

/-! ## 1. Hexadecimal digits -/

theorem hexValue?_hexDigit : ∀ n < 16, hexValue? (hexDigit n) = some n := by decide

theorem hexValue?_hexDigitLower : ∀ n < 16, hexValue? (hexDigitLower n) = some n := by decide

/-- What holds number by number holds of the characters up to there. -/
theorem forall_char {bound : Nat} {P : Char → Prop} (h : ∀ n < bound, P (Char.ofNat n)) {c : Char}
    (hc : c.toNat < bound) : P c := by
  have hn := h c.toNat hc
  rwa [Char.ofNat_toNat] at hn

theorem lowered_eq_self {c : Char} (h : ¬c.toNat < 91) : lowered c = c :=
  if_neg fun hcapital => h (by simp only [Bool.and_eq_true, decide_eq_true_eq] at hcapital; omega)

/-- A digit has its value in either case. -/
theorem hexValue?_lowered (c : Char) : hexValue? (lowered c) = hexValue? c := by
  by_cases hc : c.toNat < 91
  · exact forall_char (P := fun c => hexValue? (lowered c) = hexValue? c) (by decide) hc
  · rw [lowered_eq_self hc]

/-- The byte that one or two digits name. -/
inductive NamesByte (b : UInt8) : List Char → Prop
  | one {c : Char} : hexValue? c = some b.toNat → NamesByte b [c]
  | two {c d : Char} {v w : Nat} : hexValue? c = some v → hexValue? d = some w →
      b.toNat = 16 * v + w → NamesByte b [c, d]

theorem NamesByte.digits {b : UInt8} {ds : List Char} (h : NamesByte b ds) :
    ∀ d ∈ ds, isHexDigit d = true := by
  unfold isHexDigit
  cases h with
  | one hc => simp [hc]
  | two hc hd => simp [hc, hd]

/-- What keeps the value of each digit keeps the byte. -/
theorem namesByte_map {g : Char → Char} (hg : ∀ c, hexValue? (g c) = hexValue? c) {b : UInt8}
    {ds : List Char} : NamesByte b (ds.map g) ↔ NamesByte b ds := by
  constructor
  · intro h
    match ds, h with
    | [c], .one hc => exact .one (hg c ▸ hc)
    | [c, d], .two hc hd hb => exact .two (hg c ▸ hc) (hg d ▸ hd) hb
  · intro h
    cases h with
    | one hc => exact .one ((hg _).trans hc)
    | two hc hd hb => exact .two ((hg _).trans hc) ((hg _).trans hd) hb

theorem byteOfNat?_eq_some {n : Nat} {b : UInt8} : byteOfNat? n = some b ↔ b.toNat = n := by
  unfold byteOfNat?
  by_cases hn : n < 256
  · rw [if_pos hn, Option.some.injEq]
    constructor
    · intro h
      rw [← h]
      exact Nat.mod_eq_of_lt hn
    · intro h
      rw [← h]
      exact UInt8.ofNat_toNat
  · have hb := b.toNat_lt
    rw [if_neg hn]
    exact iff_of_false nofun (by omega)

/-- Digits are read as the number they write. A sign is no digit. -/
theorem byteOfHex?_digits {c : Char} {cs : List Char} (hc : isHexDigit c = true) :
    byteOfHex? (c :: cs) = (hexNumber? 0 (c :: cs)).bind byteOfNat? := by
  unfold byteOfHex?
  split
  · next h =>
    cases h
    cases hc
  · rfl

/-- One or two digits are read as the byte they name. -/
theorem byteOfHex?_eq_some {ds : List Char} {b : UInt8} (hdigits : ∀ d ∈ ds, isHexDigit d = true)
    (hlength : ds.length ≤ 2) : byteOfHex? ds = some b ↔ NamesByte b ds := by
  match ds, hdigits, hlength with
  | [], _, _ =>
    constructor
    · intro h
      cases h
    · intro h
      cases h
  | [c], hdigits, _ =>
    have hc := hdigits c List.mem_cons_self
    obtain ⟨v, hv⟩ := Option.isSome_iff_exists.mp hc
    rw [byteOfHex?_digits hc, hexNumber?, hv]
    show byteOfNat? (16 * 0 + v) = some b ↔ _
    rw [byteOfNat?_eq_some]
    constructor
    · intro h
      exact .one (by rw [hv, h, Nat.mul_zero, Nat.zero_add])
    · intro h
      cases h with
      | one hb => rw [hv, Option.some.injEq] at hb; omega
  | [c, d], hdigits, _ =>
    have hc := hdigits c List.mem_cons_self
    obtain ⟨v, hv⟩ := Option.isSome_iff_exists.mp hc
    obtain ⟨w, hw⟩ := Option.isSome_iff_exists.mp (hdigits d (by simp))
    rw [byteOfHex?_digits hc, hexNumber?, hv]
    show (hexNumber? (16 * 0 + v) [d]).bind byteOfNat? = some b ↔ _
    rw [hexNumber?, hw]
    show byteOfNat? (16 * (16 * 0 + v) + w) = some b ↔ _
    rw [byteOfNat?_eq_some, Nat.mul_zero, Nat.zero_add]
    constructor
    · exact .two hv hw
    · intro h
      cases h with
      | two hv' hw' hb =>
        cases hv.symm.trans hv'
        cases hw.symm.trans hw'
        exact hb

/-! ## 2. Numbers in the generated text -/

/-- The byte that a number writes, after `0x` in hexadecimal and else in decimal. -/
inductive WritesByte (b : UInt8) : List Char → Prop
  | hex {ds : List Char} : NamesByte b ds → WritesByte b ('0' :: 'x' :: ds)
  | decimal {ds : List Char} : ds ≠ [] → ds.all isDecimalDigit = true →
      decimalNumber 0 ds = b.toNat → WritesByte b ds

theorem toList_hexByte (b : UInt8) :
    (hexByte b).toList = [hexDigit (b.toNat / 16), hexDigit (b.toNat % 16)] := by
  rw [hexByte, String.toList_ofList]

theorem hexByte_names (b : UInt8) : NamesByte b (hexByte b).toList := by
  have hb := b.toNat_lt
  rw [toList_hexByte]
  exact .two (hexValue?_hexDigit _ (by omega)) (hexValue?_hexDigit _ (by omega)) (by omega)

theorem hex8_writes (b : UInt8) : WritesByte b (hex8 b).toList := by
  rw [hex8, String.toList_append]
  exact .hex (hexByte_names b)

theorem decimalDigits : ∀ n < 256, (toString n).toList ≠ [] ∧
    (toString n).toList.all isDecimalDigit = true ∧ decimalNumber 0 (toString n).toList = n := by
  decide +kernel

theorem decimal_writes (b : UInt8) : WritesByte b (toString b.toNat).toList := by
  obtain ⟨hne, hdigits, hvalue⟩ := decimalDigits b.toNat b.toNat_lt
  exact .decimal hne hdigits hvalue

end Sm83Codegen.Text
