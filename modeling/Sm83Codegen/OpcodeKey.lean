import Sm83Codegen.Text.Blank
import Sm83Codegen.Text.Hex

/-!
# Opcode keys

An opcode is named by its page and its byte. The first page has no page byte; the second is
selected by `0xCB`.

* `OpcodeKey.rank` -- table order: the first page before any other, then by byte;
* `OpcodeKey.display`, `OpcodeKey.slug` -- `0xCB 0x40` and `cb40`;
* `OpcodeKey.parse?` -- reads `06`, `0x06`, `CB40`, `CB:40`, `CB 40` and `0xCB 0x40`, in either
  case and with white space around them.
-/

namespace Sm83Codegen

/-! ## 1. Keys and their order -/

/-- The byte that selects the second opcode page. -/
def secondPage : UInt8 := 0xCB

/-- An opcode: the byte that selects its page, if any, and its byte on the page. -/
structure OpcodeKey where
  page : Option UInt8
  opcode : UInt8
  deriving DecidableEq, Repr

namespace OpcodeKey

/-- An opcode of the first page. -/
def plain (opcode : UInt8) : OpcodeKey := ⟨none, opcode⟩

/-- An opcode of the second page. -/
def paged (opcode : UInt8) : OpcodeKey := ⟨some secondPage, opcode⟩

/-- The place of a key in table order. -/
def rank (k : OpcodeKey) : Nat :=
  match k.page with
  | none => k.opcode.toNat
  | some p => 256 * (p.toNat + 1) + k.opcode.toNat

/-- Whether a key comes before another. -/
def before (k l : OpcodeKey) : Bool := k.rank < l.rank

/-- Whether two keys are the same, by their places. -/
def same (k l : OpcodeKey) : Bool := k.rank.beq l.rank

/-- The bytes that select an opcode. -/
def bytes (k : OpcodeKey) : List UInt8 :=
  match k.page with
  | none => [k.opcode]
  | some p => [p, k.opcode]

/-- The number of bytes before the opcode byte. -/
def pageLength (k : OpcodeKey) : Nat := if k.page.isSome then 1 else 0

theorem bytes_length (k : OpcodeKey) : k.bytes.length = 1 + k.pageLength := by
  cases k with
  | mk page opcode => cases page <;> rfl

theorem rank_inj {k l : OpcodeKey} (h : k.rank = l.rank) : k = l := by
  cases k with
  | mk p o =>
    cases l with
    | mk q r =>
      have ho := o.toNat_lt
      have hr := r.toNat_lt
      cases p with
      | none =>
        cases q with
        | none =>
          have h' : o.toNat = r.toNat := h
          rw [UInt8.toNat_inj.mp h']
        | some q =>
          have h' : o.toNat = 256 * (q.toNat + 1) + r.toNat := h
          omega
      | some p =>
        cases q with
        | none =>
          have h' : 256 * (p.toNat + 1) + o.toNat = r.toNat := h
          omega
        | some q =>
          have h' : 256 * (p.toNat + 1) + o.toNat = 256 * (q.toNat + 1) + r.toNat := h
          have hp : p.toNat = q.toNat := by omega
          have ho' : o.toNat = r.toNat := by omega
          rw [UInt8.toNat_inj.mp hp, UInt8.toNat_inj.mp ho']

theorem same_iff {k l : OpcodeKey} : k.same l = true ↔ k = l := by
  constructor
  · intro h
    exact rank_inj (Nat.eq_of_beq_eq_true h)
  · rintro rfl
    exact Nat.beq_refl _

/-! ## 2. Written forms -/

/-- Each byte as `0x` and two digits, the page first. -/
def display (k : OpcodeKey) : String :=
  match k.page with
  | none => Text.hex8 k.opcode
  | some p => Text.hex8 p ++ " " ++ Text.hex8 k.opcode

/-- An identifier fragment, such as `06` or `cb40`. -/
def slug (k : OpcodeKey) : String := String.join (k.bytes.map Text.hexByteLower)

/-! ## 3. Reading -/

/-- The capital spelling of a character. Only those are listed whose capitals can be
    hexadecimal digits: the ASCII letters, and the ligature `ff`, which is spelled `FF`. -/
def capitals (c : Char) : List Char :=
  if 97 ≤ c.toNat && c.toNat ≤ 122 then [Char.ofNat (c.toNat - 32)]
  else if c.toNat == 0xFB00 then ['F', 'F']
  else [c]

/-- A text without the marks `0X` in it, taken from left to right. -/
def withoutMarks : List Char → List Char
  | '0' :: 'X' :: cs => withoutMarks cs
  | c :: cs => c :: withoutMarks cs
  | [] => []

/-- The characters that may stand between the bytes of a key. -/
def isSeparator (c : Char) : Bool := c == ':' || c == ' ' || c == '_'

/-- The digits of a written key: in capitals, without marks and separators. -/
def digitsOf (cs : List Char) : List Char :=
  (withoutMarks ((Text.trim cs).flatMap capitals)).filter (fun c => !isSeparator c)

/-- The key that digits name: one or two digits, or `CB` and two digits. -/
def ofDigits? (digits : List Char) : Option OpcodeKey :=
  if digits.all Text.isHexDigit then
    match digits with
    | [_] | [_, _] => (Text.byteOfHex? digits).map plain
    | ['C', 'B', a, b] => (Text.byteOfHex? [a, b]).map paged
    | _ => none
  else none

/-- Reads a key. -/
def parse? (s : String) : Option OpcodeKey := ofDigits? (digitsOf s.toList)

end OpcodeKey

end Sm83Codegen
