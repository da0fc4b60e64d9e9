import Mathlib.Algebra.Order.Floor.Ring
import Mathlib.Data.List.Count
import Mathlib.Data.List.Perm.Basic
import Mathlib.Data.Rat.Floor

/-! # Quantiles of a list of samples

The value that has a share `rank` of the samples below it: no more of them lie
strictly below, and more of them lie below or beside.  There is one such value,
whatever the order of the samples, and it grows with the rank. -/
set_option autoImplicit false

variable {A : Type} [LinearOrder A]

structure Quantile (rank : ℚ) (samples : List A) (value : A) : Prop where
  member : value ∈ samples
  below : (samples.countP fun sample => decide (sample < value) : ℚ) ≤ rank * samples.length
  upTo : rank * samples.length < samples.countP fun sample => decide (sample ≤ value)

namespace Quantile

variable {rank rank' : ℚ} {samples samples' : List A} {value value' : A}

theorem perm (quantile : Quantile rank samples value) (same : samples.Perm samples') :
    Quantile rank samples' value := by
  obtain ⟨member, below, upTo⟩ := quantile
  constructor
  · exact same.mem_iff.mp member
  · rw [← same.countP_eq, ← same.length_eq]
    exact below
  · rw [← same.countP_eq, ← same.length_eq]
    exact upTo

theorem mono (quantile : Quantile rank samples value) (quantile' : Quantile rank' samples value')
    (le : rank ≤ rank') : value ≤ value' := by
  by_contra above
  have inside : samples.countP (fun sample => decide (sample ≤ value')) ≤
      samples.countP fun sample => decide (sample < value) := by
    apply List.countP_mono_left
    intro sample _ small
    have small' : sample ≤ value' := of_decide_eq_true small
    exact decide_eq_true (lt_of_le_of_lt small' (not_le.mp above))
  have inside' : (samples.countP (fun sample => decide (sample ≤ value')) : ℚ) ≤
      samples.countP fun sample => decide (sample < value) := by exact_mod_cast inside
  have shares : rank * samples.length ≤ rank' * samples.length :=
    mul_le_mul_of_nonneg_right le (Nat.cast_nonneg _)
  have below := quantile.below
  have upTo := quantile'.upTo
  linarith

/-- The samples strictly below an entry of a sorted list stand in front of it. -/
theorem countP_lt_le (samples : List A) :
    ∀ index, samples.Pairwise (· ≤ ·) → samples[index]? = some value →
      samples.countP (fun sample => decide (sample < value)) ≤ index := by
  induction samples with
  | nil =>
      intro index _ found
      cases found
  | cons first samples ih =>
      intro index sorted found
      obtain ⟨least, sorted⟩ := List.pairwise_cons.mp sorted
      cases index with
      | zero =>
          rw [List.getElem?_cons_zero, Option.some.injEq] at found
          subst found
          have none_below :
              (first :: samples).countP (fun sample => decide (sample < first)) = 0 := by
            apply List.countP_eq_zero.mpr
            intro sample member
            rcases List.mem_cons.mp member with rfl | later
            · simp
            · simpa using least sample later
          rw [none_below]
      | succ index =>
          rw [List.getElem?_cons_succ] at found
          have rest := ih index sorted found
          rw [List.countP_cons]
          split <;> omega

/-- An entry of a sorted list and those in front of it are no larger. -/
theorem lt_countP_le (samples : List A) :
    ∀ index, samples.Pairwise (· ≤ ·) → samples[index]? = some value →
      index < samples.countP fun sample => decide (sample ≤ value) := by
  induction samples with
  | nil =>
      intro index _ found
      cases found
  | cons first samples ih =>
      intro index sorted found
      obtain ⟨least, sorted⟩ := List.pairwise_cons.mp sorted
      cases index with
      | zero =>
          rw [List.getElem?_cons_zero, Option.some.injEq] at found
          subst found
          rw [List.countP_cons_of_pos (by simp)]
          exact Nat.succ_pos _
      | succ index =>
          rw [List.getElem?_cons_succ] at found
          have rest := ih index sorted found
          have small := least value (List.mem_of_getElem? found)
          rw [List.countP_cons, if_pos (decide_eq_true small)]
          omega

theorem of_sorted (sorted : samples.Pairwise (· ≤ ·))
    {index : Nat} (floor : ⌊rank * samples.length⌋ = index) (found : samples[index]? = some value) :
    Quantile rank samples value := by
  obtain ⟨low, high⟩ := Int.floor_eq_iff.mp floor
  have before := countP_lt_le samples index sorted found
  have after := lt_countP_le samples index sorted found
  constructor
  · exact List.mem_of_getElem? found
  · have before' : (samples.countP (fun sample => decide (sample < value)) : ℚ) ≤ index := by
      exact_mod_cast before
    exact before'.trans (by exact_mod_cast low)
  · have after' : ((index : ℚ) + 1) ≤ samples.countP fun sample => decide (sample ≤ value) := by
      exact_mod_cast after
    have high' : rank * samples.length < (index : ℚ) + 1 := by exact_mod_cast high
    exact lt_of_lt_of_le high' after'

end Quantile
