import Mathlib.Data.Nat.Bitwise
import Sm83Codegen.Proofs.Semantics

/-!
# Carries and borrows

The routines read a carry off the bits of their operands and their result; the meaning of an
instruction compares numbers. The two agree.

* `testBit_sum`, `testBit_difference` -- the bit that a carry test looks at is the carry into it,
  or the borrow from it, as long as the result is not cut below that bit;
* `sum_eq`, `difference_eq` -- the results of byte arithmetic, with the flags as bits;
* `testBit_signed` -- the carry of a signed byte added to a word.
-/

namespace Sm83Codegen

/-! ## 1. The bit of a carry test -/

/-- The carry into a bit is the exclusive or of the operands and the sum there. -/
theorem testBit_sum (k a b c : Nat) (hc : c ≤ 1) :
    (a ^^^ b ^^^ (a + b + c)).testBit k = decide (2 ^ k ≤ a % 2 ^ k + b % 2 ^ k + c) := by
  have hp : 0 < 2 ^ k := Nat.two_pow_pos k
  have ha := Nat.div_add_mod a (2 ^ k)
  have hb := Nat.div_add_mod b (2 ^ k)
  have hra := Nat.mod_lt a hp
  have hrb := Nat.mod_lt b hp
  rw [Nat.testBit_xor, Nat.testBit_xor]
  simp only [Nat.testBit_eq_decide_div_mod_eq]
  generalize a / 2 ^ k = q at *
  generalize b / 2 ^ k = q' at *
  generalize a % 2 ^ k = r at *
  generalize b % 2 ^ k = r' at *
  subst ha hb
  have hsum : 2 ^ k * q + r + (2 ^ k * q' + r') + c = 2 ^ k * (q + q') + (r + r' + c) := by
    rw [Nat.mul_add]
    omega
  rw [hsum, Nat.mul_add_div hp]
  -- the low parts and the carry in sum up to less than two units of the bit
  have hcarry : (r + r' + c) / 2 ^ k = if 2 ^ k ≤ r + r' + c then 1 else 0 := by
    split
    · next h => rw [Nat.div_eq_iff hp]; omega
    · next h => exact Nat.div_eq_of_lt (by omega)
  rw [hcarry]
  have hq := Nat.mod_two_eq_zero_or_one q
  have hq' := Nat.mod_two_eq_zero_or_one q'
  by_cases h : 2 ^ k ≤ r + r' + c
  · rcases hq with hq | hq <;> rcases hq' with hq' | hq' <;>
      simp [h, hq, hq', Nat.add_mod]
  · rcases hq with hq | hq <;> rcases hq' with hq' | hq' <;>
      simp [h, hq, hq', Nat.add_mod]

/-- The same bit of a sum that is cut somewhere above it. -/
theorem testBit_cut_sum {k n : Nat} (hk : k < n) (a b : Nat) {c : Nat} (hc : c ≤ 1) :
    (a ^^^ b ^^^ (a + b + c) % 2 ^ n).testBit k = decide (2 ^ k ≤ a % 2 ^ k + b % 2 ^ k + c) := by
  rw [← testBit_sum k a b c hc]
  simp only [Nat.testBit_xor, Nat.testBit_mod_two_pow, hk, decide_true, Bool.true_and]

/-- The sum of two remainders goes beyond the modulus if what is left of it is below a summand. -/
theorem le_add_iff_mod_lt {p a b : Nat} (ha : a < p) (hb : b ≤ p) :
    p ≤ a + b ↔ (a + b) % p < b := by
  by_cases h : p ≤ a + b
  · have hmod : (a + b) % p = a + b - p := by
      rw [Nat.mod_eq_sub_mod h]
      exact Nat.mod_eq_of_lt (by omega)
    omega
  · rw [Nat.mod_eq_of_lt (by omega)]
    omega

/-- The borrow from a bit is the exclusive or of the operands and the difference there, also of a
    difference that is cut somewhere above it. -/
theorem testBit_difference {k n a b c r : Nat} (hk : k < n) (hc : c ≤ 1)
    (hr : (r + b + c) % 2 ^ n = a % 2 ^ n) :
    (a ^^^ b ^^^ r).testBit k = decide (a % 2 ^ k < b % 2 ^ k + c) := by
  have hp : 0 < 2 ^ k := Nat.two_pow_pos k
  have hbit : a.testBit k = (r + b + c).testBit k := by
    have h := congrArg (fun m => m.testBit k) hr
    simp only [Nat.testBit_mod_two_pow, hk, decide_true, Bool.true_and] at h
    exact h.symm
  have hxor : (a ^^^ b ^^^ r).testBit k = (r ^^^ b ^^^ (r + b + c)).testBit k := by
    simp only [Nat.testBit_xor, hbit]
    cases (r + b + c).testBit k <;> cases b.testBit k <;> cases r.testBit k <;> rfl
  -- the minuend is the sum of the other two, so it carries where the difference borrows
  have hlow : a % 2 ^ k = (r % 2 ^ k + (b % 2 ^ k + c)) % 2 ^ k := by
    have hdvd : 2 ^ k ∣ 2 ^ n := Nat.pow_dvd_pow 2 hk.le
    rw [← Nat.mod_mod_of_dvd a hdvd, ← hr, Nat.mod_mod_of_dvd _ hdvd]
    simp [Nat.add_assoc, Nat.add_mod]
  rw [hxor, testBit_sum k r b c hc, hlow, decide_eq_decide, Nat.add_assoc]
  have hb : b % 2 ^ k + c ≤ 2 ^ k := by
    have := Nat.mod_lt b hp
    omega
  exact le_add_iff_mod_lt (Nat.mod_lt r hp) hb

/-! ## 2. Byte arithmetic -/

theorem ofNat_beq_zero (r : Nat) : (UInt8.ofNat r == 0) = (r % 256 == 0) := by
  rw [Bool.eq_iff_iff, beq_iff_eq, beq_iff_eq, ← UInt8.toNat_inj, UInt8.toNat_ofNat']
  rfl

theorem toNat_beq_zero (v : UInt8) : (v.toNat % 256 == 0) = (v == 0) := by
  rw [← ofNat_beq_zero, UInt8.ofNat_toNat]

theorem ofNat_eq_ofNat {m n : Nat} (h : m % 256 = n % 256) : UInt8.ofNat m = UInt8.ofNat n := by
  rw [← UInt8.toNat_inj, UInt8.toNat_ofNat', UInt8.toNat_ofNat']
  exact h

/-- A sum of bytes, with H and C as the bits that the carry tests look at. -/
theorem sum_eq (a b : UInt8) {c : Nat} (hc : c ≤ 1) :
    AluResult.sum a b c =
      ⟨.ofNat (a.toNat + b.toNat + c), (a.toNat + b.toNat + c) % 256 == 0, false,
        (a.toNat ^^^ b.toNat ^^^ (a.toNat + b.toNat + c)).testBit 4,
        (a.toNat ^^^ b.toNat ^^^ (a.toNat + b.toNat + c)).testBit 8⟩ := by
  have ha : a.toNat % 2 ^ 8 = a.toNat := Nat.mod_eq_of_lt a.toNat_lt
  have hb : b.toNat % 2 ^ 8 = b.toNat := Nat.mod_eq_of_lt b.toNat_lt
  rw [testBit_sum 4 _ _ _ hc, testBit_sum 8 _ _ _ hc, ha, hb, AluResult.sum, AluResult.of,
    ofNat_beq_zero]
  rfl

/-- A difference of bytes, worked out on words, with H and C as the bits that the carry tests look
    at. -/
theorem difference_eq {a b : UInt8} {c r : Nat} (hc : c ≤ 1)
    (hr : (r + b.toNat + c) % 65536 = a.toNat) :
    AluResult.difference a b c =
      ⟨.ofNat r, r % 256 == 0, true, (a.toNat ^^^ b.toNat ^^^ r).testBit 4,
        (a.toNat ^^^ b.toNat ^^^ r).testBit 8⟩ := by
  have ha := a.toNat_lt
  have hb := b.toNat_lt
  have hv : UInt8.ofNat (a.toNat + 512 - (b.toNat + c)) = UInt8.ofNat r :=
    ofNat_eq_ofNat (by omega)
  have hcut : (r + b.toNat + c) % 2 ^ 16 = a.toNat % 2 ^ 16 := by omega
  rw [testBit_difference (by decide) hc hcut, testBit_difference (by decide) hc hcut,
    AluResult.difference, AluResult.of, hv, ofNat_beq_zero, Nat.mod_eq_of_lt ha,
    Nat.mod_eq_of_lt hb]
  rfl

/-- Nothing is left of a byte that is taken from itself. -/
theorem difference_self (a : UInt8) :
    AluResult.difference a a 0 = ⟨0, true, true, false, false⟩ := by
  have hv : UInt8.ofNat (a.toNat + 512 - (a.toNat + 0)) = 0 := ofNat_eq_ofNat (n := 0) (by omega)
  rw [AluResult.difference, AluResult.of, hv, decide_eq_false (by omega),
    decide_eq_false (by omega)]
  rfl

/-! ## 3. Signed bytes -/

theorem signedWord_toNat (v : UInt8) :
    (signedWord v).toNat = if v.toNat < 128 then v.toNat else v.toNat + 0xFF00 := by
  have hv := v.toNat_lt
  rw [signedWord, UInt16.toNat_ofNat_of_lt' (by rw [UInt16.size]; split <;> omega)]

/-- A signed byte added to a word carries out of the low bits as the byte itself does. -/
theorem testBit_signed (w : UInt16) (v : UInt8) {k : Nat} (hk : k = 4 ∨ k = 8) :
    (w.toNat ^^^ (signedWord v).toNat ^^^ (w + signedWord v).toNat).testBit k =
      decide (2 ^ k ≤ w.toNat % 2 ^ k + v.toNat % 2 ^ k) := by
  have hlow : (signedWord v).toNat % 2 ^ k = v.toNat % 2 ^ k := by
    rw [signedWord_toNat]
    rcases hk with rfl | rfl <;> split <;> omega
  have hsum := testBit_cut_sum (show k < 16 by omega) w.toNat (signedWord v).toNat (Nat.zero_le 1)
  rw [Nat.add_zero, hlow, Nat.add_zero] at hsum
  rw [UInt16.toNat_add, hsum]

end Sm83Codegen
