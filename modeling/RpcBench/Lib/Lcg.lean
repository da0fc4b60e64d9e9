import Mathlib.Algebra.Ring.GeomSum
import Mathlib.Data.Nat.Count
import Mathlib.Data.Nat.GCD.Basic
import Mathlib.Data.Nat.ModEq
import Mathlib.Dynamics.PeriodicPts.Lemmas
import Mathlib.Tactic.Ring

/-! # Linear congruential generators modulo a power of two

With an odd increment and a multiplier that is one more than a multiple of four
the generator goes through all numbers.  So what it draws in as many steps has
the shares that all numbers have. -/
set_option autoImplicit false

namespace Lcg

open Finset Function

def next (multiplier increment bits seed : Nat) : Nat :=
  (multiplier * seed + increment) % 2 ^ bits

def geomSum (multiplier steps : Nat) : Nat := ∑ i ∈ range steps, multiplier ^ i

variable {multiplier increment bits seed : Nat}

theorem geomSum_zero (multiplier : Nat) : geomSum multiplier 0 = 0 := rfl

theorem geomSum_succ (multiplier steps : Nat) :
    geomSum multiplier (steps + 1) = geomSum multiplier steps + multiplier ^ steps :=
  sum_range_succ _ _

theorem geomSum_step (multiplier steps : Nat) :
    geomSum multiplier (steps + 1) = multiplier * geomSum multiplier steps + 1 :=
  geom_sum_succ

theorem geomSum_double (multiplier steps : Nat) :
    geomSum multiplier (steps + steps) = geomSum multiplier steps * (1 + multiplier ^ steps) := by
  unfold geomSum
  rw [sum_range_add, mul_add, mul_one, sum_mul]
  congr 1
  apply sum_congr rfl
  intro i _
  rw [pow_add, mul_comm]

theorem geomSum_mod_two (odd : multiplier % 2 = 1) (steps : Nat) :
    geomSum multiplier steps % 2 = steps % 2 := by
  induction steps with
  | zero => rfl
  | succ steps ih =>
      have one : multiplier ^ steps % 2 = 1 := by
        rw [Nat.pow_mod, odd, one_pow, Nat.one_mod]
      rw [geomSum_succ]
      omega

/-- The sum has the factors of two that the number of its terms has. -/
theorem two_pow_dvd_geomSum_iff (one_mod_four : multiplier % 4 = 1) (power : Nat) :
    ∀ steps, 2 ^ power ∣ geomSum multiplier steps ↔ 2 ^ power ∣ steps := by
  have odd : multiplier % 2 = 1 := by omega
  induction power with
  | zero =>
      intro steps
      exact iff_of_true (one_dvd _) (one_dvd _)
  | succ power ih =>
      intro steps
      have parity := geomSum_mod_two odd steps
      by_cases even : steps % 2 = 0
      · obtain ⟨half, rfl⟩ : ∃ half, steps = half + half := ⟨steps / 2, by omega⟩
        have factor : ∃ rest, 1 + multiplier ^ half = 2 * rest ∧ Nat.Coprime (2 ^ power) rest := by
          have rest_odd : (1 + multiplier ^ half) % 4 = 2 := by
            have power_mod : multiplier ^ half % 4 = 1 := by
              simp only [Nat.pow_mod, one_mod_four, one_pow, Nat.one_mod]
            omega
          refine ⟨(1 + multiplier ^ half) / 2, by omega, ?_⟩
          apply Nat.Coprime.pow_left
          apply (Nat.coprime_two_left).mpr
          exact Nat.odd_iff.mpr (by omega)
        obtain ⟨rest, twice, coprime⟩ := factor
        rw [geomSum_double, twice, ← Nat.two_mul half, mul_left_comm, pow_succ',
          Nat.mul_dvd_mul_iff_left (by decide), Nat.mul_dvd_mul_iff_left (by decide),
          ← ih half]
        exact Nat.Coprime.dvd_mul_right coprime
      · have not_two : ∀ number, number % 2 ≠ 0 → ¬2 ^ (power + 1) ∣ number := by
          intro number left divides
          have two : 2 ∣ number := (dvd_pow_self 2 (Nat.succ_ne_zero power)).trans divides
          omega
        exact iff_of_false (not_two _ (by omega)) (not_two _ even)

theorem iterate_next (multiplier increment bits : Nat) (steps : Nat) :
    ∀ seed, seed < 2 ^ bits → (next multiplier increment bits)^[steps] seed =
      (multiplier ^ steps * seed + increment * geomSum multiplier steps) % 2 ^ bits := by
  induction steps with
  | zero =>
      intro seed small
      rw [iterate_zero_apply, pow_zero, one_mul, geomSum_zero, mul_zero, add_zero,
        Nat.mod_eq_of_lt small]
  | succ steps ih =>
      intro seed small
      rw [iterate_succ_apply', ih seed small, next, Nat.add_mod, Nat.mul_mod, Nat.mod_mod,
        ← Nat.mul_mod, ← Nat.add_mod, geomSum_step]
      congr 1
      ring

theorem pow_eq_geomSum (one_le : 1 ≤ multiplier) (steps : Nat) :
    multiplier ^ steps = geomSum multiplier steps * (multiplier - 1) + 1 := by
  induction steps with
  | zero => rw [pow_zero, geomSum_zero, Nat.zero_mul, Nat.zero_add]
  | succ steps ih =>
      obtain ⟨below, rfl⟩ := Nat.exists_eq_add_of_le' one_le
      rw [Nat.add_sub_cancel] at ih ⊢
      rw [pow_succ', ih, geomSum_step]
      ring

/-- A number of steps leads back to the seed if the number of seeds divides it. -/
theorem iterate_next_eq_self_iff (one_mod_four : multiplier % 4 = 1) (odd : increment % 2 = 1)
    (small : seed < 2 ^ bits) (steps : Nat) :
    (next multiplier increment bits)^[steps] seed = seed ↔ 2 ^ bits ∣ steps := by
  have one_le : 1 ≤ multiplier := by omega
  have coprime : Nat.Coprime (2 ^ bits) ((multiplier - 1) * seed + increment) := by
    apply Nat.Coprime.pow_left
    apply Nat.coprime_two_left.mpr
    obtain ⟨quarter, four⟩ : ∃ quarter, multiplier - 1 = 2 * quarter :=
      ⟨(multiplier - 1) / 2, by omega⟩
    rw [four, mul_assoc]
    exact Nat.odd_iff.mpr (by omega)
  have moved : multiplier ^ steps * seed + increment * geomSum multiplier steps =
      seed + geomSum multiplier steps * ((multiplier - 1) * seed + increment) := by
    rw [pow_eq_geomSum one_le]
    ring
  rw [iterate_next multiplier increment bits steps seed small, moved,
    ← two_pow_dvd_geomSum_iff one_mod_four, ← Nat.Coprime.dvd_mul_right coprime]
  constructor
  · intro same
    have congruent : seed + geomSum multiplier steps * ((multiplier - 1) * seed + increment) ≡
        seed + 0 [MOD 2 ^ bits] := by
      rw [Nat.ModEq, same, Nat.add_zero, Nat.mod_eq_of_lt small]
    exact (Nat.modEq_zero_iff_dvd).mp (Nat.ModEq.add_left_cancel' seed congruent)
  · intro divides
    rw [Nat.add_mod, Nat.mod_eq_zero_of_dvd divides, Nat.add_zero, Nat.mod_mod,
      Nat.mod_eq_of_lt small]

theorem minimalPeriod_next (one_mod_four : multiplier % 4 = 1) (odd : increment % 2 = 1)
    (small : seed < 2 ^ bits) :
    minimalPeriod (next multiplier increment bits) seed = 2 ^ bits := by
  apply Nat.dvd_antisymm
  · apply IsPeriodicPt.minimalPeriod_dvd
    exact (iterate_next_eq_self_iff one_mod_four odd small _).mpr dvd_rfl
  · apply (iterate_next_eq_self_iff one_mod_four odd small _).mp
    exact isPeriodicPt_minimalPeriod _ _

theorem iterate_next_lt (small : seed < 2 ^ bits) (steps : Nat) :
    (next multiplier increment bits)^[steps] seed < 2 ^ bits := by
  rw [iterate_next multiplier increment bits steps seed small]
  exact Nat.mod_lt _ (Nat.two_pow_pos bits)

theorem iterate_next_injOn (one_mod_four : multiplier % 4 = 1) (odd : increment % 2 = 1)
    (small : seed < 2 ^ bits) :
    Set.InjOn (fun steps => (next multiplier increment bits)^[steps] seed) (range (2 ^ bits)) := by
  intro first inside second inside' same
  rw [coe_range, ← minimalPeriod_next one_mod_four odd small] at inside inside'
  exact iterate_injOn_Iio_minimalPeriod inside inside' same

theorem image_iterate_next (one_mod_four : multiplier % 4 = 1) (odd : increment % 2 = 1)
    (small : seed < 2 ^ bits) :
    (range (2 ^ bits)).image (fun steps => (next multiplier increment bits)^[steps] seed) =
      range (2 ^ bits) := by
  apply eq_of_subset_of_card_le
  · intro number member
    obtain ⟨steps, _, rfl⟩ := mem_image.mp member
    exact mem_range.mpr (iterate_next_lt small steps)
  · rw [card_image_of_injOn (iterate_next_injOn one_mod_four odd small)]

theorem existsUnique_iterate_next (one_mod_four : multiplier % 4 = 1) (odd : increment % 2 = 1)
    (small : seed < 2 ^ bits) {number : Nat} (inside : number < 2 ^ bits) :
    ∃! steps, steps < 2 ^ bits ∧ (next multiplier increment bits)^[steps] seed = number := by
  have member := mem_range.mpr inside
  rw [← image_iterate_next one_mod_four odd small] at member
  obtain ⟨steps, few, reached⟩ := mem_image.mp member
  refine ⟨steps, ⟨mem_range.mp few, reached⟩, ?_⟩
  intro other both
  apply iterate_next_injOn one_mod_four odd small (mem_coe.mpr (mem_range.mpr both.1))
    (mem_coe.mpr few)
  exact both.2.trans reached.symm

/-- In a period as many steps have a property as there are numbers that have it. -/
theorem count_iterate_next (one_mod_four : multiplier % 4 = 1) (odd : increment % 2 = 1)
    (small : seed < 2 ^ bits) (good : Nat → Prop) [DecidablePred good] :
    Nat.count (fun steps => good ((next multiplier increment bits)^[steps] seed)) (2 ^ bits) =
      Nat.count good (2 ^ bits) := by
  rw [Nat.count_eq_card_filter_range, Nat.count_eq_card_filter_range]
  conv_rhs => rw [← image_iterate_next one_mod_four odd small]
  rw [filter_image, card_image_of_injOn]
  apply (iterate_next_injOn one_mod_four odd small).mono
  exact coe_subset.mpr (filter_subset _ _)

/-! ## Counting by digits -/

theorem count_congr {good other : Nat → Prop} [DecidablePred good] [DecidablePred other]
    {bound : Nat} (same : ∀ number < bound, (good number ↔ other number)) :
    Nat.count good bound = Nat.count other bound := by
  apply Nat.le_antisymm
  · exact Nat.count_mono_left fun number inside => (same number inside).mp
  · exact Nat.count_mono_left fun number inside => (same number inside).mpr

variable (good : Nat → Prop) [DecidablePred good]

theorem count_div (size blocks : Nat) :
    Nat.count (fun number => good (number / size)) (blocks * size) =
      Nat.count good blocks * size := by
  induction blocks with
  | zero => rw [Nat.zero_mul, Nat.count_zero, Nat.count_zero, Nat.zero_mul]
  | succ blocks ih =>
      have digits : ∀ number < size, (blocks * size + number) / size = blocks := by
        intro number inside
        rw [Nat.mul_comm, Nat.mul_add_div (Nat.zero_lt_of_lt inside), Nat.div_eq_of_lt inside,
          Nat.add_zero]
      rw [Nat.succ_mul, Nat.count_add, ih, Nat.count_succ, Nat.add_mul]
      congr 1
      by_cases holds : good blocks
      · rw [if_pos holds, Nat.one_mul]
        apply Nat.count_iff_forall.mpr
        intro number inside
        rw [digits number inside]
        exact holds
      · rw [if_neg holds, Nat.zero_mul]
        apply Nat.count_iff_forall_not.mpr
        intro number inside
        rw [digits number inside]
        exact holds

theorem count_block (size blocks : Nat) {bound : Nat} (within : bound ≤ size) :
    Nat.count (fun number => good ((blocks * size + number) % size)) bound =
      Nat.count good bound := by
  apply count_congr
  intro number inside
  rw [Nat.mul_add_mod_self_right, Nat.mod_eq_of_lt (Nat.lt_of_lt_of_le inside within)]

theorem count_mod (size blocks : Nat) :
    Nat.count (fun number => good (number % size)) (blocks * size) =
      blocks * Nat.count good size := by
  induction blocks with
  | zero => rw [Nat.zero_mul, Nat.count_zero, Nat.zero_mul]
  | succ blocks ih =>
      rw [Nat.succ_mul, Nat.count_add, ih, count_block good size blocks (Nat.le_refl size),
        Nat.succ_mul]

theorem count_mod_add (size blocks : Nat) {rest : Nat} (within : rest ≤ size) :
    Nat.count (fun number => good (number % size)) (blocks * size + rest) =
      blocks * Nat.count good size + Nat.count good rest := by
  rw [Nat.count_add, count_mod, count_block good size blocks within]

end Lcg
