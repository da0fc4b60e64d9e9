import Mathlib.Algebra.Order.Group.Nat
import Mathlib.Algebra.Ring.Parity
import Mathlib.Data.Nat.Factorization.Defs
import Mathlib.Order.Bounds.Basic

/-! # The lowest set bit, and the next power of two

`x &&& -x` is the lowest set bit of `x`.  Adding it again and again moves the
lowest set bit up and passes over no power of two. -/
set_option autoImplicit false

namespace LowBit

variable {width : Nat}

def lowBit (x : BitVec width) : BitVec width := x &&& -x

/-- The powers of two from `n` on. -/
def powersFrom (n : Nat) : Set Nat := { p | n ≤ p ∧ ∃ k, p = 2 ^ k }

theorem testBit_low {t m i : Nat} (below : i < t) : (2 ^ t * (2 * m + 1)).testBit i = false := by
  rw [Nat.testBit_two_pow_mul, decide_eq_false (Nat.not_le.mpr below), Bool.false_and]

theorem testBit_lowest (t m : Nat) : (2 ^ t * (2 * m + 1)).testBit t = true := by
  rw [Nat.testBit_two_pow_mul, Nat.sub_self, Nat.testBit_zero]
  simp

theorem lowBit_toNat {x : BitVec width} {t m : Nat} (split : x.toNat = 2 ^ t * (2 * m + 1)) :
    (lowBit x).toNat = 2 ^ t := by
  have bits : ∀ i, x.getLsbD i = (2 ^ t * (2 * m + 1)).testBit i := by
    intro i
    rw [← split]
    rfl
  have lowest : x.getLsbD t = true := by
    rw [bits, testBit_lowest]
  have low : ∀ i, i < t → x.getLsbD i = false := by
    intro i below
    rw [bits, testBit_low below]
  apply Nat.eq_of_testBit_eq
  intro i
  rw [Nat.testBit_two_pow, BitVec.testBit_toNat, lowBit, BitVec.getLsbD_and, BitVec.getLsbD_neg]
  rcases Nat.lt_trichotomy i t with below | here | above
  · rw [low i below, Bool.false_and, decide_eq_false (Nat.ne_of_gt below)]
  · subst here
    have none_below : ¬∃ j, j < i ∧ x.getLsbD j = true := by
      rintro ⟨j, below, set⟩
      rw [low j below] at set
      cases set
    rw [lowest, decide_eq_false none_below]
    simp
  · have some_below : ∃ j, j < i ∧ x.getLsbD j = true := ⟨t, above, lowest⟩
    rw [decide_eq_true some_below, decide_eq_false (Nat.ne_of_lt above)]
    by_cases set : x.getLsbD i = true
    · rw [set, decide_eq_true (BitVec.lt_of_getLsbD set)]
      rfl
    · rw [Bool.eq_false_iff.mpr set, Bool.false_and]

/-- A number other than zero is its lowest bit if and only if it is a power of two. -/
theorem eq_lowBit_iff {x : BitVec width} {t m : Nat} (split : x.toNat = 2 ^ t * (2 * m + 1)) :
    x = lowBit x ↔ m = 0 := by
  rw [← BitVec.toNat_inj, lowBit_toNat split, split]
  constructor
  · intro same
    have one : 2 * m + 1 = 1 :=
      Nat.eq_of_mul_eq_mul_left (Nat.two_pow_pos t) (same.trans (Nat.mul_one _).symm)
    omega
  · intro zero
    rw [zero, Nat.mul_zero, Nat.zero_add, Nat.mul_one]

/-- No power of two lies between a number that is none and that number with its
lowest bit added. -/
theorem powersFrom_add {t m : Nat} (more : m ≠ 0) :
    powersFrom (2 ^ t * (2 * m + 1) + 2 ^ t) = powersFrom (2 ^ t * (2 * m + 1)) := by
  ext p
  constructor
  · rintro ⟨le, power⟩
    exact ⟨Nat.le_trans (Nat.le_add_right _ _) le, power⟩
  · rintro ⟨le, k, rfl⟩
    refine ⟨?_, k, rfl⟩
    have exponent : t < k := by
      apply (Nat.pow_lt_pow_iff_right (Nat.lt_succ_self 1)).mp
      refine Nat.lt_of_lt_of_le ?_ le
      exact (Nat.lt_mul_iff_one_lt_right (Nat.two_pow_pos t)).mpr (by omega)
    -- both sides are multiples of the next power of two, up to the odd factor
    obtain ⟨d, rfl⟩ := Nat.exists_eq_add_of_lt exponent
    rw [show t + d + 1 = t + (d + 1) from rfl, pow_add] at le ⊢
    have factor : 2 * m + 1 ≤ 2 ^ (d + 1) := Nat.le_of_mul_le_mul_left le (Nat.two_pow_pos t)
    rw [← Nat.mul_succ]
    apply Nat.mul_le_mul_left
    rw [pow_succ] at factor ⊢
    omega

theorem isLeast_powersFrom (k : Nat) : IsLeast (powersFrom (2 ^ k)) (2 ^ k) :=
  ⟨⟨Nat.le_refl _, k, rfl⟩, fun _ member => member.1⟩

end LowBit
