import Sm83Codegen.Proofs.IntegerArithmetic
import Sm83Codegen.Proofs.StackDiscipline

/-!
# Packed decimal arithmetic

A byte can hold two decimal digits, four bits each. Binary addition and subtraction leave such a
byte wrong by sixes, and `DAA` puts it right from the flags alone: after a sum or a difference of
two such bytes, with a carry or without, it leaves the digits of the exact result modulo a hundred,
and in C whether a hundred was carried or borrowed.

* `decimal` -- a number below a hundred as its two digits;
* `corrected_digits` -- sixes are what tens and ones out of range differ by;
* `AluResult.IsSum.adjusted_eq`, `AluResult.IsDifference.adjusted_eq` -- the correction, of whatever
  is a sum or a difference by the integers;
* `DecimalStep` -- additions and subtractions as they are encoded;
* `decodeExecute_decimal` -- one of them and `DAA`, executed one after the other.
-/

namespace Sm83Codegen

/-! ## 1. Two digits in a byte -/

/-- A number below a hundred, a digit in each half of a byte. -/
def decimal (x : Nat) : UInt8 := .ofNat (16 * (x / 10) + x % 10)

theorem decimal_toNat {x : Nat} (hx : x < 100) : (decimal x).toNat = 16 * (x / 10) + x % 10 := by
  rw [decimal, UInt8.toNat_ofNat']
  omega

example : decimal 42 = 0x42 := by decide

/-- Tens `t` and ones `u` that are out of range: `k` tens are carried out of the ones, and `m`
    hundreds out of the tens. Read as bits they are short of the right digits by six for every
    carry. A borrow is a negative carry. -/
theorem corrected_digits {t u k m : Int} (hu : 0 ≤ u - 10 * k) (hu' : u - 10 * k ≤ 9)
    (ht : 0 ≤ t + k - 10 * m) (ht' : t + k - 10 * m ≤ 9) :
    (16 * t + u + (6 * k + 96 * m)) % 256 =
      16 * ((10 * t + u) % 100 / 10) + (10 * t + u) % 100 % 10 := by
  have hpacked : (16 * t + u + (6 * k + 96 * m)) % 256 = 16 * (t + k - 10 * m) + (u - 10 * k) := by
    omega
  have hexact : (10 * t + u) % 100 = 10 * (t + k - 10 * m) + (u - 10 * k) := by omega
  rw [hpacked, hexact]
  omega

/-- A sum has a third digit exactly if its bits are beyond those of 99. -/
theorem hundred_le_iff {t u : Int} (hu : 0 ≤ u) (hu' : u ≤ 19) :
    100 ≤ 10 * t + u ↔ 0x99 < 16 * t + u := by
  omega

/-- A difference is negative exactly if its bits are. -/
theorem negative_iff {t u : Int} (hu : -10 ≤ u) (hu' : u ≤ 9) :
    10 * t + u < 0 ↔ 16 * t + u < 0 := by
  omega

/-! ## 2. The correction -/

theorem correction_le (a : UInt8) (n h c : Bool) : correction a n h c ≤ 0x66 := by
  unfold correction
  split_ifs <;> decide

/-- A correction by six for every carry leaves the digits of the exact result. -/
theorem adjusted_of_digits {a : UInt8} {n h b : Bool} {t u k m : Int} {z : Nat}
    (ha : (a.toNat : Int) = (16 * t + u) % 256)
    (hcorrection : (if n then -correction a n h b else correction a n h b : Int) = 6 * k + 96 * m)
    (hu : 0 ≤ u - 10 * k) (hu' : u - 10 * k ≤ 9) (ht : 0 ≤ t + k - 10 * m)
    (ht' : t + k - 10 * m ≤ 9) (hz : (z : Int) = (10 * t + u) % 100) :
    adjusted a n h b = decimal z := by
  have hle := correction_le a n h b
  have hdigits := corrected_digits hu hu' ht ht'
  apply UInt8.toNat_inj.mp
  rw [decimal_toNat (by omega), adjusted, UInt8.toNat_ofNat']
  cases n with
  | false =>
    rw [if_neg (by decide)] at hcorrection ⊢
    omega
  | true =>
    rw [if_pos rfl] at hcorrection ⊢
    omega

namespace AluResult

variable {x y : Nat} {c : Int} {r : AluResult}

/-! ### Sums -/

/-- The carry that the correction leaves. -/
theorem IsSum.carry_iff (h : r.IsSum (decimal x) (decimal y) c) (hx : x < 100) (hy : y < 100)
    (hc : 0 ≤ c) (hc' : c ≤ 1) :
    (r.c || (!r.n && decide (0x99 < r.value.toNat))) = true ↔ 100 ≤ x + y + c := by
  have hv := h.value
  have hcarry := h.carry
  have hundred := hundred_le_iff (t := x / 10 + y / 10) (u := x % 10 + y % 10 + c) (by omega)
    (by omega)
  rw [decimal_toNat hx, decimal_toNat hy] at hv hcarry
  rw [h.subtract, Bool.not_false, Bool.true_and, Bool.or_eq_true, decide_eq_true_iff, hcarry]
  omega

theorem IsSum.correction_eq (h : r.IsSum (decimal x) (decimal y) c) (hx : x < 100) (hy : y < 100)
    (hc : 0 ≤ c) (hc' : c ≤ 1) :
    correction r.value r.n r.h r.c =
      (if 10 ≤ x % 10 + y % 10 + c then 0x06 else 0) + if 100 ≤ x + y + c then 0x60 else 0 := by
  have hones : (r.h || (!r.n && decide (9 < r.value.toNat % 16))) = true ↔
      10 ≤ x % 10 + y % 10 + c := by
    have hv := h.value
    have hhalf := h.half
    rw [decimal_toNat hx, decimal_toNat hy] at hv hhalf
    rw [h.subtract, Bool.not_false, Bool.true_and, Bool.or_eq_true, decide_eq_true_iff, hhalf]
    omega
  rw [correction, if_congr hones rfl rfl, if_congr (h.carry_iff hx hy hc hc') rfl rfl]

/-- **A sum of two numbers of two digits is corrected to the digits of the exact sum.** -/
theorem IsSum.adjusted_eq (h : r.IsSum (decimal x) (decimal y) c) (hx : x < 100) (hy : y < 100)
    (hc : 0 ≤ c) (hc' : c ≤ 1) {z : Nat} (hz : (z : Int) = (x + y + c) % 100) :
    adjusted r.value r.n r.h r.c = decimal z := by
  have hv := h.value
  rw [decimal_toNat hx, decimal_toNat hy] at hv
  refine adjusted_of_digits (t := x / 10 + y / 10) (u := x % 10 + y % 10 + c)
    (k := if 10 ≤ x % 10 + y % 10 + c then 1 else 0) (m := if 100 ≤ x + y + c then 1 else 0)
    (by omega) ?_ ?_ ?_ ?_ ?_ (by omega)
  · rw [h.correction_eq hx hy hc hc', h.subtract, if_neg (by decide)]
    split_ifs <;> rfl
  all_goals split_ifs <;> omega

/-! ### Differences -/

/-- The borrow that the correction leaves. It looks at nothing but the flag. -/
theorem IsDifference.carry_iff (h : r.IsDifference (decimal x) (decimal y) c) (hx : x < 100)
    (hy : y < 100) (hc : 0 ≤ c) (hc' : c ≤ 1) :
    (r.c || (!r.n && decide (0x99 < r.value.toNat))) = true ↔ x - y - c < 0 := by
  have hcarry := h.carry
  have negative := negative_iff (t := x / 10 - y / 10) (u := x % 10 - y % 10 - c) (by omega)
    (by omega)
  rw [decimal_toNat hx, decimal_toNat hy] at hcarry
  rw [h.subtract, Bool.not_true, Bool.false_and, Bool.or_false, hcarry]
  omega

theorem IsDifference.correction_eq (h : r.IsDifference (decimal x) (decimal y) c) (hx : x < 100)
    (hy : y < 100) (hc : 0 ≤ c) (hc' : c ≤ 1) :
    correction r.value r.n r.h r.c =
      (if x % 10 - y % 10 - c < 0 then 0x06 else 0) + if x - y - c < 0 then 0x60 else 0 := by
  have hones : (r.h || (!r.n && decide (9 < r.value.toNat % 16))) = true ↔
      x % 10 - y % 10 - c < 0 := by
    have hhalf := h.half
    rw [decimal_toNat hx, decimal_toNat hy] at hhalf
    rw [h.subtract, Bool.not_true, Bool.false_and, Bool.or_false, hhalf]
    omega
  rw [correction, if_congr hones rfl rfl, if_congr (h.carry_iff hx hy hc hc') rfl rfl]

/-- **A difference of two numbers of two digits is corrected to the digits of the exact
    difference**, modulo a hundred if that is negative. -/
theorem IsDifference.adjusted_eq (h : r.IsDifference (decimal x) (decimal y) c) (hx : x < 100)
    (hy : y < 100) (hc : 0 ≤ c) (hc' : c ≤ 1) {z : Nat} (hz : (z : Int) = (x - y - c) % 100) :
    adjusted r.value r.n r.h r.c = decimal z := by
  have hv := h.value
  rw [decimal_toNat hx, decimal_toNat hy] at hv
  refine adjusted_of_digits (t := x / 10 - y / 10) (u := x % 10 - y % 10 - c)
    (k := if x % 10 - y % 10 - c < 0 then -1 else 0) (m := if x - y - c < 0 then -1 else 0)
    (by omega) ?_ ?_ ?_ ?_ ?_ (by omega)
  · rw [h.correction_eq hx hy hc hc', h.subtract, if_pos rfl]
    split_ifs <;> rfl
  all_goals split_ifs <;> omega

end AluResult

/-! ## 3. Additions and subtractions -/

/-- Where the second operand of an accumulator operation is encoded: by the low field of the opcode,
    or in the byte after it. -/
inductive EncodedSource where
  | cell (z : Fin 8)
  | immediate (n : UInt8)
  deriving DecidableEq, Repr

/-- `ADD`, `ADC`, `SUB` or `SBC` with its second operand. -/
structure DecimalStep where
  subtracts : Bool
  withCarry : Bool
  source : EncodedSource
  deriving DecidableEq, Repr

namespace DecimalStep

/-- The operation on the accumulator. -/
def op (o : DecimalStep) : AluOp :=
  match o.subtracts, o.withCarry with
  | false, false => .add
  | false, true => .adc
  | true, false => .sub
  | true, true => .sbc

/-- The middle field of the opcode, in its place. -/
def middle (o : DecimalStep) : Nat := 16 * o.subtracts.toNat + 8 * o.withCarry.toNat

/-- The bytes of an operation. -/
def bytes (o : DecimalStep) : List UInt8 :=
  match o.source with
  | .cell z => [.ofNat (0x80 + o.middle + z)]
  | .immediate n => [.ofNat (0xC6 + o.middle), n]

/-- The number of bytes of an operation. -/
def length (o : DecimalStep) : UInt8 :=
  match o.source with
  | .cell _ => 1
  | .immediate _ => 2

/-- The second operand. -/
def operand (o : DecimalStep) (s : Cpu) : UInt8 :=
  match o.source with
  | .cell z => s.cell (.ofIndex z)
  | .immediate n => n

/-- What is carried in: the old carry flag, if the operation looks at it. -/
def carryIn (o : DecimalStep) (s : Cpu) : Nat := if o.withCarry then s.cf.toNat else 0

theorem carryIn_le (o : DecimalStep) (s : Cpu) : o.carryIn s ≤ 1 := by
  unfold carryIn
  split
  · exact Bool.toNat_le s.cf
  · decide

theorem isSum {o : DecimalStep} (h : o.subtracts = false) (s : Cpu) (a b : UInt8) :
    (o.op.result a b s.cf).IsSum a b (o.carryIn s) := by
  obtain ⟨_, withCarry, source⟩ := o
  cases h
  cases withCarry <;> exact isSum_sum a b _

theorem isDifference {o : DecimalStep} (h : o.subtracts = true) (s : Cpu) (a b : UInt8) :
    (o.op.result a b s.cf).IsDifference a b (o.carryIn s) := by
  have hc := o.carryIn_le s
  obtain ⟨_, withCarry, source⟩ := o
  cases h
  cases withCarry <;> exact isDifference_difference a b hc

/-- The opcodes of the operations name them. -/
theorem opcode_names (subtracts withCarry : Bool) (source : EncodedSource) :
    let o : DecimalStep := ⟨subtracts, withCarry, source⟩
    (∀ z : Fin 8, UInt8.ofNat (0x80 + o.middle + z) ≠ secondPage ∧
      Instruction.ofFirstPage (.ofNat (0x80 + o.middle + z)) =
        some (.alu o.op (.cell (.ofIndex z)))) ∧
    UInt8.ofNat (0xC6 + o.middle) ≠ secondPage ∧
      Instruction.ofFirstPage (.ofNat (0xC6 + o.middle)) = some (.alu o.op .immediate) := by
  dsimp only [middle, op]
  cases subtracts <;> cases withCarry <;> decide

/-- The core executes the operation, whatever its encoding. -/
theorem decodeExecute (o : DecimalStep) (s : Cpu) :
    ∃ cycles, sm83.decodeExecute s o.bytes = .executed
      ((s.setResult .A (o.op.result (s.get8 .A) (o.operand s) s.cf)).advance o.length) cycles := by
  obtain ⟨subtracts, withCarry, source⟩ := o
  obtain ⟨hcells, hpage, hname⟩ := opcode_names subtracts withCarry source
  cases source with
  | cell z =>
    obtain ⟨hpage, hname⟩ := hcells z
    obtain ⟨cycles, h⟩ := decodeExecute_firstPage hpage hname [] rfl s
    rw [Instruction.alu_cell_step] at h
    exact ⟨cycles, h⟩
  | immediate n =>
    obtain ⟨cycles, h⟩ := decodeExecute_firstPage hpage hname [n] rfl s
    exact ⟨cycles, h⟩

end DecimalStep

/-! ## 4. Executed one after the other -/

/-- The state with a number of two digits in the accumulator. -/
def Cpu.withDecimal (s : Cpu) (z : Nat) (n c : Bool) : Cpu :=
  (s.set8 .A (decimal z)).setFlags (decimal z == 0) n false c

/-- The correction of a result that an operation has left. -/
theorem decimalAdjust_step {r : AluResult} {z : Nat} {P : Prop} [Decidable P] (s : Cpu)
    (length : UInt8) (hz : adjusted r.value r.n r.h r.c = decimal z)
    (hcarry : (r.c || (!r.n && decide (0x99 < r.value.toNat))) = true ↔ P) :
    Instruction.decimalAdjust.step [] ((s.setResult .A r).advance length) =
      ((s.withDecimal z r.n P).advance length).advance 1 := by
  have hc : (r.c || (!r.n && decide (0x99 < r.value.toNat))) = decide P :=
    Bool.eq_iff_iff.mpr (hcarry.trans decide_eq_true_iff.symm)
  rw [← hc, Cpu.withDecimal, ← hz]
  rfl

/-- An operation and the correction, one after the other. -/
theorem DecimalStep.runAll (o : DecimalStep) (s : Cpu) :
    sm83.runAll s [o.bytes, [0x27]] = some (Instruction.decimalAdjust.step []
      ((s.setResult .A (o.op.result (s.get8 .A) (o.operand s) s.cf)).advance o.length)) := by
  obtain ⟨_, hop⟩ := o.decodeExecute s
  have hadjust : Encodes 0x27 [] .decimalAdjust := ⟨by decide, rfl, rfl⟩
  rw [runAll_cons hop, hadjust.runAll]
  rfl

/-- **`DAA` completes packed decimal arithmetic.** If the accumulator and the second operand hold
    `x` and `y` as two digits each, then an addition and the correction leave the digits of the sum,
    carry included, modulo a hundred, with the hundred in C; a subtraction and the correction leave
    the digits of the difference, with the borrow in C. Z is whether the accumulator is zero, N what
    was done, H is clear, and nothing else changes but the program counter. -/
theorem decodeExecute_decimal (s : Cpu) (o : DecimalStep) {x y : Nat} (hx : x < 100) (hy : y < 100)
    (ha : s.get8 .A = decimal x) (hb : o.operand s = decimal y) :
    (o.subtracts = false → sm83.runAll s [o.bytes, [0x27]] =
      some (((s.withDecimal ((x + y + o.carryIn s) % 100) false
        (100 ≤ x + y + o.carryIn s)).advance o.length).advance 1)) ∧
    (o.subtracts = true → sm83.runAll s [o.bytes, [0x27]] =
      some (((s.withDecimal ((x - y - o.carryIn s : Int) % 100).toNat true
        (x < y + o.carryIn s)).advance o.length).advance 1)) := by
  have hc := o.carryIn_le s
  rw [o.runAll, ha, hb]
  constructor
  · intro hadds
    have h := o.isSum hadds s (decimal x) (decimal y)
    have hz := h.adjusted_eq hx hy (by omega) (by omega) (z := (x + y + o.carryIn s) % 100)
      (by omega)
    have hcarry := h.carry_iff hx hy (by omega) (by omega)
    rw [decimalAdjust_step (P := 100 ≤ x + y + o.carryIn s) s o.length hz
      (hcarry.trans (by omega)), h.subtract]
  · intro hsubtracts
    have h := o.isDifference hsubtracts s (decimal x) (decimal y)
    have hz := h.adjusted_eq hx hy (by omega) (by omega)
      (z := ((x - y - o.carryIn s : Int) % 100).toNat) (by omega)
    have hcarry := h.carry_iff hx hy (by omega) (by omega)
    rw [decimalAdjust_step (P := x < y + o.carryIn s) s o.length hz (hcarry.trans (by omega)),
      h.subtract]

/-- The accumulator holds 85, and carry is set. -/
def eightyFive : Cpu := { Cpu.initial with registers := { a := 0x85 }, cf := true }

/-- `ADC A, A` makes 171 of it, and `SBC A, $99` borrows a hundred to make 85 again. -/
theorem decodeExecute_decimal_eightyFive :
    85 < 100 ∧ 99 < 100 ∧ eightyFive.get8 .A = decimal 85 ∧
      DecimalStep.operand ⟨true, true, .immediate 0x99⟩ eightyFive = decimal 99 ∧
      sm83.runAll eightyFive [[0x8F], [0x27]] =
        some (((eightyFive.withDecimal 71 false true).advance 1).advance 1) ∧
      sm83.runAll eightyFive [[0xDE, 0x99], [0x27]] =
        some (((eightyFive.withDecimal 85 true true).advance 2).advance 1) := by
  have hx : 85 < 100 := by decide
  have hy : 99 < 100 := by decide
  have ha : eightyFive.get8 .A = decimal 85 := by decide
  have hb : DecimalStep.operand ⟨true, true, .immediate 0x99⟩ eightyFive = decimal 99 := by decide
  have hsum := decodeExecute_decimal eightyFive ⟨false, true, .cell 7⟩ hx hx ha (by decide)
  have hdifference := decodeExecute_decimal eightyFive ⟨true, true, .immediate 0x99⟩ hx hy ha hb
  exact ⟨hx, hy, ha, hb, hsum.1 rfl, hdifference.2 rfl⟩

end Sm83Codegen
