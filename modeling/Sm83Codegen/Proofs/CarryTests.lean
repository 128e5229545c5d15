import Sm83Codegen.Proofs.Evaluation

/-!
# Carry tests

A routine that computes H or C has three bindings in its fragment, two operands and a result, and
one test for additions and subtractions alike. The test casts the three to one type and looks at a
single bit of their exclusive or. It cannot see how the result was made, so it is right only for
results that still have that bit.

* `CarryWidth.testedBit` -- the bit that the test looks at, in the type it casts to;
* `CarryWidth.testedBit_sum`, `CarryWidth.testedBit_difference` -- the bit is the carry, or the
  borrow, of all results that are cut above it;
* `carryTest_detects` -- the written expression, at every width.
-/

namespace Sm83Codegen

namespace CarryWidth

variable {width : CarryWidth} {x y r c k : Nat}

/-- The bit of the width in the exclusive or of the operands and the result, in the type of the
    test. -/
def testedBit (width : CarryWidth) (x y r : Nat) : Bool :=
  let bits := BitVec.ofNat width.type.width
  (bits x ^^^ bits y ^^^ bits r).getLsbD width.bit

/-- The type of the test is wide enough for the bit, so the cast does not matter. -/
theorem testedBit_eq (width : CarryWidth) (x y r : Nat) :
    width.testedBit x y r = (x ^^^ y ^^^ r).testBit width.bit := by
  simp only [testedBit, BitVec.getLsbD_xor, BitVec.getLsbD_ofNat, width.bit_lt_width, decide_true,
    Bool.true_and, Nat.testBit_xor]

/-- A sum that is cut above the bit shows the carry. -/
theorem testedBit_sum (hk : width.bit < k) (hc : c ≤ 1) (hr : r = (x + y + c) % 2 ^ k) :
    width.testedBit x y r =
      decide (2 ^ width.bit ≤ x % 2 ^ width.bit + y % 2 ^ width.bit + c) := by
  rw [testedBit_eq, hr, testBit_cut_sum hk x y hc]

/-- A difference that is cut above the bit, negative ones from the top down, shows the borrow. -/
theorem testedBit_difference (hk : width.bit < k) (hc : c ≤ 1)
    (hr : (r : Int) = ((x : Int) - y - c) % 2 ^ k) :
    width.testedBit x y r = decide (x % 2 ^ width.bit < y % 2 ^ width.bit + c) := by
  -- without the subtraction: the result and what was taken away make up the minuend again
  have hsum : (r + y + c) % 2 ^ k = x % 2 ^ k := by
    have h : ((r : Int) + (y + c)) % 2 ^ k = x % 2 ^ k := by
      rw [hr, Int.emod_add_emod, show ((x : Int) - y - c) + (y + c) = x by omega]
    rw [Nat.add_assoc]
    exact_mod_cast h
  rw [testedBit_eq, testBit_difference hk hc hsum]

end CarryWidth

/-- **The carry test is right at every width.** It is worked out without a fault and gives the bit
    of its width. With a carry in or without, this bit is set just if the parts below the width
    carry beyond it, for a sum that is cut anywhere above the width; and just if they borrow, for a
    difference. -/
theorem carryTest_detects (width : CarryWidth) {f : Frame} {x y r c : Nat}
    (hx : f.ShowsBit .operand1 width.bit x) (hy : f.ShowsBit .operand2 width.bit y)
    (hr : f.ShowsBit .result width.bit r) (hc : c ≤ 1) :
    (carryTest width).eval f = .ok (.truth (width.testedBit x y r)) ∧
      ∀ k, width.bit < k →
        (r = (x + y + c) % 2 ^ k → (width.testedBit x y r = true ↔
          2 ^ width.bit ≤ x % 2 ^ width.bit + y % 2 ^ width.bit + c)) ∧
        ((r : Int) = ((x : Int) - y - c) % 2 ^ k → (width.testedBit x y r = true ↔
          x % 2 ^ width.bit < y % 2 ^ width.bit + c)) := by
  refine ⟨?_, fun k hk => ⟨fun hsum => ?_, fun hdifference => ?_⟩⟩
  · rw [eval_carryTest hx hy hr, width.testedBit_eq]
  · rw [CarryWidth.testedBit_sum hk hc hsum, decide_eq_true_eq]
  · rw [CarryWidth.testedBit_difference hk hc hdifference, decide_eq_true_eq]

/-- Nine bits are enough for a carry out of eight: 16 with 255 and a carry in is the same number
    modulo 512 as a sum and as a difference, and it carries as well as it borrows. -/
theorem carryTest_detects_nineBits :
    let f : Frame := ⟨.initial, [(.operand1, .value (.number .u8 16)),
      (.operand2, .value (.number .u8 255)), (.result, .value (.number .u16 272))]⟩
    f.ShowsBit .operand1 8 16 ∧ f.ShowsBit .operand2 8 255 ∧ f.ShowsBit .result 8 272 ∧
      (carryTest .bit8).eval f = .ok (.truth true) ∧
      (2 ^ 8 ≤ 16 % 2 ^ 8 + 255 % 2 ^ 8 + 1) ∧ 16 % 2 ^ 8 < 255 % 2 ^ 8 + 1 := by
  intro f
  have hx : f.ShowsBit .operand1 8 16 := showsBit_of_unsigned rfl rfl 8
  have hy : f.ShowsBit .operand2 8 255 := showsBit_of_unsigned rfl rfl 8
  have hr : f.ShowsBit .result 8 272 := showsBit_of_unsigned rfl rfl 8
  obtain ⟨hvalue, hbit⟩ := carryTest_detects .bit8 (c := 1) hx hy hr (by decide)
  have hset : CarryWidth.bit8.testedBit 16 255 272 = true := by decide
  obtain ⟨hsum, hdifference⟩ := hbit 9 (by decide)
  rw [hset] at hvalue
  exact ⟨hx, hy, hr, hvalue, (hsum (by decide)).mp hset, (hdifference (by decide)).mp hset⟩

end Sm83Codegen
