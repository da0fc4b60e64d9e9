import RpcBench.Metering.Meter
import Mathlib.Data.Nat.Factorization.Basic
import Mathlib.Tactic.Ring

/-! # `Meter::RoundUpPower2` and the sample of a meter

Read as an unsigned number, what the loop starts from goes up to the next power
of two; a negative `long` goes up to `2 ^ 64`, which is zero. -/
set_option autoImplicit false

namespace RpcBench.Metering

open LowBit

/-- A `long` as the unsigned number of the same bits. -/
abbrev bits (x : Int64) : Nat := x.toBitVec.toNat

theorem bits_lt (x : Int64) : bits x < 2 ^ 64 := x.toBitVec.isLt

theorem toInt_bits (x : Int64) :
    x.toInt = if bits x < 2 ^ 63 then (bits x : Int) else (bits x : Int) - 2 ^ 64 := by
  have small := x.toBitVec.isLt
  rw [← Int64.toInt_toBitVec, BitVec.toInt_eq_toNat_cond, bits]
  split <;> split <;> omega

theorem bits_of_nonneg {x : Int64} (nonneg : 0 ≤ x.toInt) : (bits x : Int) = x.toInt := by
  have value := toInt_bits x
  have small := bits_lt x
  split at value <;> omega

theorem lowbit_eq {x : Int64} (notLeast : bits x ≠ 2 ^ 63) :
    lowbit x = some (x &&& -x) := by
  have value := toInt_bits x
  have fine : ¬x.toBitVec.negOverflow = true := by
    rw [BitVec.negOverflow, Int64.toInt_toBitVec, beq_iff_eq]
    split at value <;> omega
  exact if_neg fine

theorem eq_and_neg_iff {x : Int64} {t m : Nat} (split : bits x = 2 ^ t * (2 * m + 1)) :
    x = x &&& -x ↔ m = 0 := by
  rw [← eq_lowBit_iff split, ← Int64.toBitVec_inj, Int64.toBitVec_and, Int64.toBitVec_neg]
  rfl

theorem bits_and_neg {x : Int64} {t m : Nat} (split : bits x = 2 ^ t * (2 * m + 1)) :
    bits (x &&& -x) = 2 ^ t := by
  rw [bits, Int64.toBitVec_and, Int64.toBitVec_neg]
  exact lowBit_toNat split

def Roundable (n : Nat) : Prop := n ≤ 2 ^ 62 ∨ 2 ^ 63 < n

theorem roundable_add {t m : Nat} (roundable : Roundable (2 ^ t * (2 * m + 1)))
    (small : 2 ^ t * (2 * m + 1) < 2 ^ 64) (more : m ≠ 0) :
    2 ^ t * (2 * m + 1) + 2 ^ t ≤ 2 ^ 62 ∨
      2 ^ 63 < 2 ^ t * (2 * m + 1) ∧ 2 ^ t < 2 ^ 63 ∧
        2 ^ t * (2 * m + 1) + 2 ^ t ≤ 2 ^ 64 := by
  have passes := powersFrom_add (t := t) more
  rcases roundable with low | high
  · have member : 2 ^ 62 ∈ powersFrom (2 ^ t * (2 * m + 1)) := ⟨low, 62, rfl⟩
    rw [← passes] at member
    exact Or.inl member.1
  · have member : 2 ^ 64 ∈ powersFrom (2 ^ t * (2 * m + 1)) := ⟨Nat.le_of_lt small, 64, rfl⟩
    rw [← passes] at member
    have thrice : 2 ^ t * 3 ≤ 2 ^ t * (2 * m + 1) := Nat.mul_le_mul_left _ (by omega)
    exact Or.inr ⟨high, by omega, member.1⟩

theorem not_saddOverflow {x low : Int64}
    (sum : bits x + bits low ≤ 2 ^ 62 ∨
      2 ^ 63 < bits x ∧ bits low < 2 ^ 63 ∧ bits x + bits low ≤ 2 ^ 64) :
    ¬x.toBitVec.saddOverflow low.toBitVec = true := by
  have xValue := toInt_bits x
  have lowValue := toInt_bits low
  have xLt := bits_lt x
  have lowSmall : bits low < 2 ^ 63 := by omega
  rw [if_pos lowSmall] at lowValue
  simp only [BitVec.saddOverflow, Int64.toInt_toBitVec, Bool.or_eq_true, decide_eq_true_eq]
  split at xValue <;> omega

theorem roundUpPower2_zero (fuel : Nat) : roundUpPower2 (fuel + 1) 0 = some 0 := by
  rfl

theorem bits_eq_zero {x : Int64} (zero : bits x = 0) : x = 0 := by
  apply Int64.toBitVec_inj.mp
  apply BitVec.eq_of_toNat_eq
  exact zero

/-- The loop from a number with `t` zeros at its end: the exponent of the lowest bit
goes up with every turn, and the next power of two stays the same. -/
theorem roundUpPower2_spec : ∀ (fuel t m : Nat) (x : Int64), 64 ≤ fuel + t →
    bits x = 2 ^ t * (2 * m + 1) → Roundable (bits x) →
    ∃ y p, roundUpPower2 (fuel + 1) x = some y ∧ IsLeast (powersFrom (bits x)) p ∧
      bits y = p % 2 ^ 64 := by
  intro fuel
  induction fuel with
  | zero =>
      intro t m x enough split _
      exfalso
      have small := bits_lt x
      have large : 2 ^ 64 ≤ 2 ^ t := Nat.pow_le_pow_right (by omega) (by omega)
      have factor : 2 ^ t * 1 ≤ 2 ^ t * (2 * m + 1) := Nat.mul_le_mul_left _ (by omega)
      omega
  | succ fuel ih =>
      intro t m x enough split roundable
      have notLeast : bits x ≠ 2 ^ 63 := by
        unfold Roundable at roundable
        omega
      rw [roundUpPower2, lowbit_eq notLeast]
      simp only [eq_and_neg_iff split]
      by_cases power : m = 0
      · rw [if_pos power]
        refine ⟨x, bits x, rfl, ?_, (Nat.mod_eq_of_lt (bits_lt x)).symm⟩
        rw [split, power, Nat.mul_zero, Nat.zero_add, Nat.mul_one]
        exact isLeast_powersFrom t
      · rw [if_neg power]
        have lowBits := bits_and_neg split
        have small := bits_lt x
        have sum := roundable_add (split ▸ roundable) (split ▸ small) power
        rw [← split, ← lowBits] at sum
        rw [if_neg (not_saddOverflow sum)]
        have passes := powersFrom_add (t := t) power
        rw [← split, ← lowBits] at passes
        have sumBits : bits (x + (x &&& -x)) = (bits x + bits (x &&& -x)) % 2 ^ 64 := by
          rw [bits, Int64.toBitVec_add, BitVec.toNat_add]
        by_cases whole : bits x + bits (x &&& -x) = 2 ^ 64
        · rw [whole, Nat.mod_self] at sumBits
          rw [bits_eq_zero sumBits, roundUpPower2_zero]
          refine ⟨0, 2 ^ 64, rfl, ?_, rfl⟩
          rw [← passes, whole]
          exact isLeast_powersFrom 64
        · have within : bits x + bits (x &&& -x) < 2 ^ 64 := by omega
          have roundable' : Roundable (bits x + bits (x &&& -x)) := by
            unfold Roundable
            omega
          rw [Nat.mod_eq_of_lt within] at sumBits
          -- the lowest bit of the sum is a higher one
          have next : bits x + bits (x &&& -x) = 2 ^ (t + 1) * (m + 1) := by
            rw [lowBits, split, pow_succ]
            ring
          obtain ⟨s, m', odd⟩ := Nat.exists_eq_two_pow_mul_odd (Nat.succ_ne_zero m)
          obtain ⟨⟨m'', rfl⟩, factor⟩ := odd
          have split' : bits (x + (x &&& -x)) = 2 ^ (t + 1 + s) * (2 * m'' + 1) := by
            rw [sumBits, next, pow_add 2 (t + 1) s, Nat.mul_assoc, ← factor]
          obtain ⟨y, p, rounded, least, value⟩ :=
            ih (t + 1 + s) m'' (x + (x &&& -x)) (by omega) split' (sumBits ▸ roundable')
          refine ⟨y, p, rounded, ?_, value⟩
          rw [← passes, ← sumBits]
          exact least

/-- Every number other than zero has its bits between a lowest one and the width. -/
theorem exists_lowest {x : Int64} (nonzero : bits x ≠ 0) :
    ∃ t m, bits x = 2 ^ t * (2 * m + 1) := by
  obtain ⟨t, odd, ⟨m, rfl⟩, split⟩ := Nat.exists_eq_two_pow_mul_odd nonzero
  exact ⟨t, m, split⟩

/-- Rounded up is the least power of two of those not below. -/
theorem roundUpPower2_of_pos {x : Int64} (positive : 1 ≤ x.toInt) (small : x.toInt ≤ 2 ^ 62) :
    ∃ y, roundUpPower2 rounds x = some y ∧
      IsLeast { p : Int | x.toInt ≤ p ∧ ∃ k : Nat, p = 2 ^ k } y.toInt := by
  have value := bits_of_nonneg (Int.le_trans Int.one_nonneg positive)
  obtain ⟨t, m, split⟩ := exists_lowest (x := x) (by omega)
  have roundable : Roundable (bits x) := Or.inl (by omega)
  obtain ⟨y, p, rounded, least, yBits⟩ :=
    roundUpPower2_spec 64 t m x (Nat.le_add_right 64 t) split roundable
  have bound : p ≤ 2 ^ 62 := least.2 ⟨by omega, 62, rfl⟩
  rw [Nat.mod_eq_of_lt (by omega)] at yBits
  have yValue := toInt_bits y
  rw [if_pos (by omega), yBits] at yValue
  refine ⟨y, rounded, ?_, ?_⟩
  · obtain ⟨above, k, rfl⟩ := least.1
    exact ⟨by omega, k, by rw [yValue]; push_cast; rfl⟩
  · rintro _ ⟨above, k, rfl⟩
    have le : p ≤ 2 ^ k := least.2 ⟨by rw [← value] at above; exact_mod_cast above, k, rfl⟩
    rw [yValue]
    exact_mod_cast le

/-- From a number below zero the loop runs into zero. -/
theorem roundUpPower2_of_neg {x : Int64} (negative : x.toInt < 0) (above : -2 ^ 63 < x.toInt) :
    roundUpPower2 rounds x = some 0 := by
  have value := toInt_bits x
  have xLt := bits_lt x
  have high : 2 ^ 63 < bits x := by
    split at value <;> omega
  obtain ⟨t, m, split⟩ := exists_lowest (x := x) (by omega)
  obtain ⟨y, p, rounded, least, yBits⟩ :=
    roundUpPower2_spec 64 t m x (Nat.le_add_right 64 t) split (Or.inr high)
  have bound : p ≤ 2 ^ 64 := least.2 ⟨Nat.le_of_lt xLt, 64, rfl⟩
  obtain ⟨le, k, rfl⟩ := least.1
  have exponent : 63 < k :=
    (Nat.pow_lt_pow_iff_right (Nat.lt_succ_self 1)).mp (Nat.lt_of_lt_of_le high le)
  have whole : 2 ^ 64 ≤ 2 ^ k := Nat.pow_le_pow_right (Nat.succ_pos 1) exponent
  rw [Nat.le_antisymm bound whole, Nat.mod_self] at yBits
  rw [bits_eq_zero yBits] at rounded
  exact rounded

theorem lowbit_roundUpPower2 {y : Int64} :
    ∀ (fuel : Nat) (x : Int64), roundUpPower2 fuel x = some y → lowbit y = some y := by
  intro fuel
  induction fuel with
  | zero =>
      intro x rounded
      cases rounded
  | succ fuel ih =>
      intro x rounded
      rw [roundUpPower2] at rounded
      cases lowest : lowbit x with
      | none =>
          rw [lowest] at rounded
          cases rounded
      | some low =>
          rw [lowest] at rounded
          simp only at rounded
          by_cases same : x = low
          · rw [if_pos same] at rounded
            cases rounded
            rw [lowest, ← same]
          · rw [if_neg same] at rounded
            by_cases overflow : x.toBitVec.saddOverflow low.toBitVec = true
            · rw [if_pos overflow] at rounded
              cases rounded
            · rw [if_neg overflow] at rounded
              exact ih (x + low) rounded

/-- The argument of the constructor, and what it is rounded up to. -/
theorem roundUpPower2_int (next : Int32) :
    ∃ rounded, roundUpPower2 rounds next.toInt64 = some rounded ∧
      (next.toInt ≤ 0 ∧ rounded = 0 ∨
        1 ≤ next.toInt ∧ rounded.toInt ≤ 2 ^ 31 ∧
          IsLeast { p : Int | next.toInt ≤ p ∧ ∃ k : Nat, p = 2 ^ k } rounded.toInt) := by
  have least := next.le_toInt
  have greatest := next.toInt_lt
  have value := next.toInt_toInt64
  rcases lt_trichotomy next.toInt 0 with negative | zero | positive
  · exact ⟨0, roundUpPower2_of_neg (by omega) (by omega), Or.inl ⟨by omega, rfl⟩⟩
  · have same : next.toInt64 = 0 := by
      apply Int64.toInt_inj.mp
      rw [value, zero]
      rfl
    exact ⟨0, by rw [same]; exact roundUpPower2_zero 64, Or.inl ⟨by omega, rfl⟩⟩
  · obtain ⟨rounded, returned, isLeast⟩ :=
      roundUpPower2_of_pos (x := next.toInt64) (by omega) (by omega)
    rw [value] at isLeast
    exact ⟨rounded, returned, Or.inr ⟨positive, isLeast.2 ⟨by omega, 31, rfl⟩, isLeast⟩⟩

/-! ## The constructor -/

/-- The values that the constructor gives `sample`. -/
def IsMask (sample : Int32) : Prop :=
  sample.toInt = -1 ∨ ∃ n : Nat, n ≤ 31 ∧ sample.toInt = 2 ^ n - 1

theorem toInt_mask {rounded : Int64} (positive : 1 ≤ rounded.toInt)
    (small : rounded.toInt ≤ 2 ^ 31) :
    (rounded - 1).toInt32.toInt = rounded.toInt - 1 := by
  have one : (1 : Int64).toInt = 1 := by decide
  rw [Int64.toInt_toInt32, Int64.toInt_sub, one,
    Int.bmod_eq_of_le (m := 2 ^ 64) (by omega) (by omega),
    Int.bmod_eq_of_le (m := 2 ^ 32) (by omega) (by omega)]

theorem addInt_eq {x y : Int32} (build : Build) (least : -2 ^ 31 ≤ x.toInt + y.toInt)
    (greatest : x.toInt + y.toInt < 2 ^ 31) :
    addInt build x y = some (x + y) ∧ (x + y).toInt = x.toInt + y.toInt := by
  have fine : ¬x.toBitVec.saddOverflow y.toBitVec = true := by
    simp only [BitVec.saddOverflow, Int32.toInt_toBitVec, Bool.or_eq_true, decide_eq_true_eq]
    omega
  constructor
  · exact if_neg fun trapped => fine trapped.2
  · rw [Int32.toInt_add, Int.bmod_eq_of_le (m := 2 ^ 32) (by omega) (by omega)]

/-- A constructed meter starts from nothing, and its sample is a mask. -/
theorem new_cases {build : Build} {intervalMs : UInt64} {_sample disable : Int32} {now : Int}
    {meter : Meter} (constructed : Meter.new build intervalMs _sample disable now = some meter) :
    ∃ sample, IsMask sample ∧
      meter = { sample, cnt := 0, bytes := 0, qps := 0, tp := now
                interval := intervalMs.toInt64, disable } := by
  unfold Meter.new at constructed
  cases sum : addInt build _sample 1 with
  | none =>
      rw [sum] at constructed
      cases constructed
  | some next =>
      obtain ⟨rounded, returned, range⟩ := roundUpPower2_int next
      rw [sum] at constructed
      simp only [returned] at constructed
      cases asserted : Meter.assertSample build (rounded - 1).toInt32 with
      | none =>
          rw [asserted] at constructed
          cases constructed
      | some checked =>
          rw [asserted] at constructed
          cases constructed
          refine ⟨(rounded - 1).toInt32, ?_, rfl⟩
          rcases range with ⟨_, rfl⟩ | ⟨positive, small, ⟨above, k, power⟩, _⟩
          · exact Or.inl rfl
          · have exponent : k ≤ 31 := by
              apply (Nat.pow_le_pow_iff_right (Nat.lt_succ_self 1)).mp
              rw [power] at small
              exact_mod_cast small
            refine Or.inr ⟨k, exponent, ?_⟩
            rw [toInt_mask (by omega) small, power]

/-- The constructor returns, and `sample` is the least `2 ^ n - 1` from `_sample` on. -/
def SetsSample (build : Build) (intervalMs : UInt64) (_sample disable : Int32) (now : Int) :
    Prop :=
  ∃ meter, Meter.new build intervalMs _sample disable now = some meter ∧
    IsLeast { s : Int | _sample.toInt ≤ s ∧ ∃ n : Nat, s = 2 ^ n - 1 } meter.sample.toInt

theorem isLeast_sub_one {low rounded : Int}
    (least : IsLeast { p : Int | low + 1 ≤ p ∧ ∃ k : Nat, p = 2 ^ k } rounded) :
    IsLeast { s : Int | low ≤ s ∧ ∃ n : Nat, s = 2 ^ n - 1 } (rounded - 1) := by
  obtain ⟨⟨above, k, power⟩, minimal⟩ := least
  constructor
  · exact ⟨by omega, k, by rw [power]⟩
  · rintro s ⟨above', n, value⟩
    have le : rounded ≤ s + 1 := minimal ⟨by omega, n, by omega⟩
    omega

/-- The assertion holds of a mask, but adds one to it as an `int`. -/
theorem assertSample_iff {rounded : Int64} (build : Build)
    (lowest : lowbit rounded = some rounded) (positive : 1 ≤ rounded.toInt)
    (small : rounded.toInt ≤ 2 ^ 31) :
    Meter.assertSample build (rounded - 1).toInt32 = some () ↔
      build = .release ∨ rounded.toInt < 2 ^ 31 := by
  have mask := toInt_mask positive small
  have one : (1 : Int32).toInt = 1 := by decide
  cases build with
  | release => exact iff_of_true rfl (Or.inl rfl)
  | debug =>
      by_cases fits : rounded.toInt < 2 ^ 31
      · obtain ⟨sum, value⟩ := addInt_eq (x := (rounded - 1).toInt32) (y := 1) .debug
          (by omega) (by omega)
        have back : ((rounded - 1).toInt32 + 1).toInt64 = rounded := by
          apply Int64.toInt_inj.mp
          rw [Int32.toInt_toInt64, value, mask, one]
          omega
        simp only [Meter.assertSample, sum, back, lowest, if_true]
        exact iff_of_true trivial (Or.inr fits)
      · have overflow : addInt .debug (rounded - 1).toInt32 1 = none := by
          refine if_pos ⟨rfl, ?_⟩
          simp only [BitVec.saddOverflow, Int32.toInt_toBitVec, Bool.or_eq_true,
            decide_eq_true_eq]
          omega
        simp only [Meter.assertSample, overflow]
        refine iff_of_false (fun holds => nomatch holds) ?_
        rintro (release | small')
        · cases release
        · exact fits small'

theorem setsSample_iff {_sample : Int32} (build : Build) (intervalMs : UInt64)
    (disable : Int32) (now : Int) (nonneg : 0 ≤ _sample.toInt)
    (below : _sample.toInt < 2 ^ 31 - 1) :
    SetsSample build intervalMs _sample disable now ↔
      build = .release ∨ _sample.toInt < 2 ^ 30 := by
  have one : (1 : Int32).toInt = 1 := by decide
  obtain ⟨sum, value⟩ := addInt_eq (x := _sample) (y := 1) build (by omega) (by omega)
  rw [one] at value
  obtain ⟨rounded, returned, range⟩ := roundUpPower2_int (_sample + 1)
  rw [value] at range
  obtain ⟨positive, small, least⟩ : 1 ≤ _sample.toInt + 1 ∧ rounded.toInt ≤ 2 ^ 31 ∧ _ :=
    range.resolve_left (by omega)
  have above := least.1.1
  have mask := toInt_mask (by omega) small
  have asserted := assertSample_iff build (lowbit_roundUpPower2 _ _ returned) (by omega) small
  -- rounded up is `2 ^ 31` from `2 ^ 30` on
  have limit : rounded.toInt < 2 ^ 31 ↔ _sample.toInt < 2 ^ 30 := by
    constructor
    · intro fits
      obtain ⟨k, power⟩ := least.1.2
      have exponent : k < 31 := by
        apply (Nat.pow_lt_pow_iff_right (Nat.lt_succ_self 1)).mp
        rw [power] at fits
        exact_mod_cast fits
      have half : (2 : Nat) ^ k ≤ 2 ^ 30 := Nat.pow_le_pow_right (by omega) (by omega)
      have half' : (2 : Int) ^ k ≤ 2 ^ 30 := by exact_mod_cast half
      omega
    · intro fits
      have le : rounded.toInt ≤ 2 ^ 30 := least.2 ⟨by omega, 30, rfl⟩
      omega
  rw [← limit, ← asserted]
  unfold SetsSample Meter.new
  simp only [sum, returned]
  cases Meter.assertSample build (rounded - 1).toInt32 with
  | none =>
      refine iff_of_false ?_ (fun holds => nomatch holds)
      rintro ⟨meter, constructed, _⟩
      cases constructed
  | some checked =>
      refine iff_of_true ⟨_, rfl, ?_⟩ rfl
      simp only
      rw [mask]
      exact isLeast_sub_one least

/-- For every argument from 1 to `2 ^ 62` the loop ends with the least power of two from
it on.  For every `_sample` from 0 to below `INT_MAX` the constructor sets `sample`
so, if and only if its assertion is left out or `_sample` is below `2 ^ 30`. -/
theorem roundUpPower2_sets_sample (x : Int64) (build : Build) (intervalMs : UInt64)
    (_sample disable : Int32) (now : Int) :
    (1 ≤ x.toInt → x.toInt ≤ 2 ^ 62 →
      ∃ y, roundUpPower2 rounds x = some y ∧
        IsLeast { p : Int | x.toInt ≤ p ∧ ∃ k : Nat, p = 2 ^ k } y.toInt) ∧
    (0 ≤ _sample.toInt → _sample.toInt < 2 ^ 31 - 1 →
      (SetsSample build intervalMs _sample disable now ↔
        build = .release ∨ _sample.toInt < 2 ^ 30)) := by
  constructor
  · intro positive small
    exact roundUpPower2_of_pos positive small
  · intro nonneg below
    exact setsSample_iff build intervalMs disable now nonneg below

/-- The default sample in a debug build. -/
theorem roundUpPower2_sets_sample_default : SetsSample .debug 1000 15 0 0 :=
  ((roundUpPower2_sets_sample 16 .debug 1000 15 0 0).2 (by decide) (by decide)).mpr
    (Or.inr (by decide))

/-- From `2 ^ 30` on the assertion of a debug build overflows. -/
theorem assertion_overflows :
    ¬∀ (build : Build) (intervalMs : UInt64) (_sample disable : Int32) (now : Int),
      0 ≤ _sample.toInt → _sample.toInt < 2 ^ 31 - 1 →
      SetsSample build intervalMs _sample disable now := by
  intro always
  have sets := always .debug 1000 1073741824 0 0 (by decide) (by decide)
  rw [setsSample_iff .debug 1000 0 0 (by decide) (by decide)] at sets
  exact absurd sets (by decide)

end RpcBench.Metering
