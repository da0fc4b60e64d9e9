import Mathlib.Data.Int.Log
import Mathlib.Data.Rat.Floor
import Mathlib.Tactic.Linarith

/-! # Doubles as rationals

Rounding of a positive rational to 53 significant bits, ties to even, within
the range of the normal numbers, and the conversion to a 32-bit integer.  What
is used of a rounding is its relative error. -/
set_option autoImplicit false

namespace Double

/-- The nearest integer, an even one on a tie. -/
def nearest (x : ℚ) : ℤ :=
  let below := ⌊x⌋
  let part := x - below
  if part < 1 / 2 then below
  else if 1 / 2 < part then below + 1
  else if below % 2 = 0 then below else below + 1

def round (x : ℚ) : ℚ :=
  if x ≤ 0 then 0
  else
    let unit := (2 : ℚ) ^ (Int.log 2 x - 52)
    nearest (x / unit) * unit

/-- `(int)x`: the part before the point, if an `int` can hold it. -/
def toInt32? (x : ℚ) : Option Nat :=
  if 0 ≤ x ∧ x < 2 ^ 31 then some ⌊x⌋.toNat else none

theorem nearest_error (x : ℚ) : |(nearest x : ℚ) - x| ≤ 1 / 2 := by
  have low := Int.floor_le x
  have high := Int.lt_floor_add_one x
  unfold nearest
  simp only
  rw [abs_le]
  split
  · constructor
    · linarith
    · linarith
  · split
    · push_cast
      constructor
      · linarith
      · linarith
    · split
      · constructor
        · linarith
        · linarith
      · push_cast
        constructor
        · linarith
        · linarith

theorem nearest_intCast (number : ℤ) : nearest (number : ℚ) = number := by
  unfold nearest
  simp only [Int.floor_intCast, sub_self]
  rw [if_pos (by norm_num)]

theorem nearest_bounds (x : ℚ) : ⌊x⌋ ≤ nearest x ∧ nearest x ≤ ⌊x⌋ + 1 := by
  unfold nearest
  simp only
  split
  · omega
  · split
    · omega
    · split
      · omega
      · omega

theorem nearest_of_lt {x : ℚ} (less : x - ⌊x⌋ < 1 / 2) : nearest x = ⌊x⌋ := if_pos less

theorem nearest_of_gt {x : ℚ} (more : 1 / 2 < x - ⌊x⌋) : nearest x = ⌊x⌋ + 1 := by
  unfold nearest
  simp only
  rw [if_neg (not_lt_of_gt more), if_pos more]

theorem nearest_mono {x y : ℚ} (le : x ≤ y) : nearest x ≤ nearest y := by
  have above := (nearest_bounds x).2
  have below := (nearest_bounds y).1
  rcases lt_or_eq_of_le (Int.floor_mono le) with less | same
  · omega
  · by_cases low : x - ⌊x⌋ < 1 / 2
    · rw [nearest_of_lt low, same]
      exact below
    · by_cases high : 1 / 2 < y - ⌊y⌋
      · rw [nearest_of_gt high, ← same]
        exact above
      · have equal : x = y := by
          rw [same] at low
          linarith
        rw [equal]

/-- Half a unit in the last place, against a mantissa of 53 bits. -/
theorem round_error {x : ℚ} (positive : 0 < x) : |round x - x| ≤ x / 2 ^ 53 := by
  have unitPos : (0 : ℚ) < 2 ^ (Int.log 2 x - 52) := zpow_pos (by norm_num) _
  have scaled : (2 : ℚ) ^ (Int.log 2 x - 52) ≤ x / 2 ^ 52 := by
    have lead : ((2 : ℕ) : ℚ) ^ Int.log 2 x ≤ x := Int.zpow_log_le_self (by norm_num) positive
    have split : (2 : ℚ) ^ (Int.log 2 x - 52) = 2 ^ Int.log 2 x / 2 ^ 52 := by
      rw [zpow_sub₀ (by norm_num)]
      norm_num
    rw [split]
    exact div_le_div_of_nonneg_right (by exact_mod_cast lead) (by norm_num)
  have error := nearest_error (x / 2 ^ (Int.log 2 x - 52))
  rw [round, if_neg (not_le.mpr positive)]
  have factored : (nearest (x / 2 ^ (Int.log 2 x - 52)) : ℚ) * 2 ^ (Int.log 2 x - 52) - x =
      ((nearest (x / 2 ^ (Int.log 2 x - 52)) : ℚ) - x / 2 ^ (Int.log 2 x - 52)) *
        2 ^ (Int.log 2 x - 52) := by
    rw [sub_mul, div_mul_cancel₀ x (ne_of_gt unitPos)]
  simp only
  rw [factored, abs_mul, abs_of_pos unitPos]
  calc _ ≤ 1 / 2 * (2 : ℚ) ^ (Int.log 2 x - 52) :=
        mul_le_mul_of_nonneg_right error (le_of_lt unitPos)
    _ ≤ 1 / 2 * (x / 2 ^ 52) := mul_le_mul_of_nonneg_left scaled (by norm_num)
    _ = x / 2 ^ 53 := by ring

theorem round_le {x : ℚ} (positive : 0 < x) : round x ≤ x * (1 + 1 / 2 ^ 53) := by
  have error := (abs_le.mp (round_error positive)).2
  linarith

theorem le_round {x : ℚ} (positive : 0 < x) : x * (1 - 1 / 2 ^ 53) ≤ round x := by
  have error := (abs_le.mp (round_error positive)).1
  linarith

theorem round_pos {x : ℚ} (positive : 0 < x) : 0 < round x := by
  have low := le_round positive
  have factor : (0 : ℚ) < x * (1 - 1 / 2 ^ 53) := mul_pos positive (by norm_num)
  linarith

theorem round_nonneg (x : ℚ) : 0 ≤ round x := by
  by_cases positive : 0 < x
  · exact le_of_lt (round_pos positive)
  · rw [round, if_pos (not_lt.mp positive)]

theorem round_between {x : ℚ} (nonneg : 0 ≤ x) :
    x * (1 - 1 / 2 ^ 53) ≤ round x ∧ round x ≤ x * (1 + 1 / 2 ^ 53) := by
  rcases lt_or_eq_of_le nonneg with positive | rfl
  · exact ⟨le_round positive, round_le positive⟩
  · rw [round, if_pos (le_refl _), zero_mul, zero_mul]
    exact ⟨le_refl _, le_refl _⟩

theorem round_bounds {x : ℚ} (positive : 0 < x) :
    (2 : ℚ) ^ Int.log 2 x ≤ round x ∧ round x ≤ 2 ^ (Int.log 2 x + 1) := by
  have unitPos : (0 : ℚ) < 2 ^ (Int.log 2 x - 52) := zpow_pos (by norm_num) _
  have lead : (2 : ℚ) ^ Int.log 2 x = ((2 ^ 52 : ℤ) : ℚ) * 2 ^ (Int.log 2 x - 52) := by
    rw [zpow_sub₀ (by norm_num)]
    norm_num
    ring
  have next : (2 : ℚ) ^ (Int.log 2 x + 1) = ((2 ^ 53 : ℤ) : ℚ) * 2 ^ (Int.log 2 x - 52) := by
    rw [zpow_add₀ (by norm_num), lead]
    norm_num
    ring
  have low : (2 : ℚ) ^ Int.log 2 x ≤ x := by
    exact_mod_cast Int.zpow_log_le_self (by norm_num) positive
  have high : x < (2 : ℚ) ^ (Int.log 2 x + 1) := by
    exact_mod_cast Int.lt_zpow_succ_log_self (by norm_num) x
  rw [round, if_neg (not_le.mpr positive)]
  simp only
  constructor
  · rw [lead] at low ⊢
    apply mul_le_mul_of_nonneg_right _ (le_of_lt unitPos)
    have mantissa := nearest_mono ((le_div_iff₀ unitPos).mpr low)
    rw [nearest_intCast] at mantissa
    exact_mod_cast mantissa
  · rw [next] at high ⊢
    apply mul_le_mul_of_nonneg_right _ (le_of_lt unitPos)
    have mantissa := nearest_mono ((div_le_iff₀ unitPos).mpr (le_of_lt high))
    rw [nearest_intCast] at mantissa
    exact_mod_cast mantissa

theorem round_mono {x y : ℚ} (le : x ≤ y) : round x ≤ round y := by
  by_cases positive : 0 < x
  · have yPos := lt_of_lt_of_le positive le
    rcases lt_or_eq_of_le (Int.log_mono_right (b := 2) positive le) with less | same
    · calc round x ≤ 2 ^ (Int.log 2 x + 1) := (round_bounds positive).2
        _ ≤ 2 ^ Int.log 2 y := zpow_le_zpow_right₀ (by norm_num) less
        _ ≤ round y := (round_bounds yPos).1
    · have unitPos : (0 : ℚ) < 2 ^ (Int.log 2 y - 52) := zpow_pos (by norm_num) _
      rw [round, round, if_neg (not_le.mpr positive), if_neg (not_le.mpr yPos), same]
      apply mul_le_mul_of_nonneg_right _ (le_of_lt unitPos)
      exact_mod_cast nearest_mono (div_le_div_of_nonneg_right le (le_of_lt unitPos))
  · rw [round, if_pos (not_lt.mp positive)]
    exact round_nonneg y

theorem round_one : round 1 = 1 := by
  have scaled : (1 : ℚ) / 2 ^ ((0 : ℤ) - 52) = ((2 ^ 52 : ℤ) : ℚ) := by norm_num
  rw [round, if_neg (by norm_num), Int.log_one_right]
  simp only
  rw [scaled, nearest_intCast]
  norm_num

theorem round_mul_le {x y : ℚ} (xPos : 0 < x) (yPos : 0 < y) :
    round (round x * round y) ≤ x * y * (1 + 1 / 2 ^ 53) ^ 3 := by
  have product := mul_pos (round_pos xPos) (round_pos yPos)
  have factors : round x * round y ≤ x * (1 + 1 / 2 ^ 53) * (y * (1 + 1 / 2 ^ 53)) :=
    mul_le_mul (round_le xPos) (round_le yPos) (le_of_lt (round_pos yPos))
      (mul_nonneg (le_of_lt xPos) (by norm_num))
  calc round (round x * round y) ≤ round x * round y * (1 + 1 / 2 ^ 53) := round_le product
    _ ≤ x * (1 + 1 / 2 ^ 53) * (y * (1 + 1 / 2 ^ 53)) * (1 + 1 / 2 ^ 53) :=
        mul_le_mul_of_nonneg_right factors (by norm_num)
    _ = x * y * (1 + 1 / 2 ^ 53) ^ 3 := by ring

theorem le_round_mul {x y : ℚ} (xPos : 0 < x) (yPos : 0 < y) :
    x * y * (1 - 1 / 2 ^ 53) ^ 3 ≤ round (round x * round y) := by
  have product := mul_pos (round_pos xPos) (round_pos yPos)
  have factors : x * (1 - 1 / 2 ^ 53) * (y * (1 - 1 / 2 ^ 53)) ≤ round x * round y :=
    mul_le_mul (le_round xPos) (le_round yPos) (mul_nonneg (le_of_lt yPos) (by norm_num))
      (le_of_lt (round_pos xPos))
  calc x * y * (1 - 1 / 2 ^ 53) ^ 3
      = x * (1 - 1 / 2 ^ 53) * (y * (1 - 1 / 2 ^ 53)) * (1 - 1 / 2 ^ 53) := by ring
    _ ≤ round x * round y * (1 - 1 / 2 ^ 53) := mul_le_mul_of_nonneg_right factors (by norm_num)
    _ ≤ round (round x * round y) := le_round product

theorem round_eq {x : ℚ} {exponent : ℤ} (low : (2 : ℚ) ^ exponent ≤ x)
    (high : x < (2 : ℚ) ^ (exponent + 1)) :
    round x = nearest (x / 2 ^ (exponent - 52)) * 2 ^ (exponent - 52) := by
  have positive : 0 < x := lt_of_lt_of_le (zpow_pos (by norm_num) _) low
  have log : Int.log 2 x = exponent := by
    have above : exponent ≤ Int.log 2 x :=
      (Int.zpow_le_iff_le_log (by norm_num) positive).mp (by exact_mod_cast low)
    have below : Int.log 2 x < exponent + 1 :=
      (Int.lt_zpow_iff_log_lt (by norm_num) positive).mp (by exact_mod_cast high)
    omega
  rw [round, if_neg (not_le.mpr positive)]
  simp only [log]

theorem nearest_of_close {x : ℚ} {number : ℤ} (close : |x - number| < 1 / 2) :
    nearest x = number := by
  obtain ⟨low, high⟩ := abs_lt.mp close
  by_cases above : (number : ℚ) ≤ x
  · have floor : ⌊x⌋ = number := by
      rw [Int.floor_eq_iff]
      constructor
      · exact above
      · linarith
    rw [nearest_of_lt, floor]
    rw [floor]
    exact high
  · have floor : ⌊x⌋ = number - 1 := by
      rw [Int.floor_eq_iff]
      push_cast
      constructor
      · linarith
      · linarith
    rw [nearest_of_gt, floor, Int.sub_add_cancel]
    rw [floor]
    push_cast
    linarith

/-- A product that misses an integer by less than a quarter of a unit is rounded
to it. -/
theorem round_of_close {x : ℚ} {number : Nat} (positive : 0 < number) (small : number < 2 ^ 53)
    (close : (number : ℚ) * (1 - 1 / 2 ^ 54) < x) (le : x ≤ number) : round x = number := by
  have numberPos : (1 : ℚ) ≤ number := by exact_mod_cast positive
  have numberSmall : (number : ℚ) < 2 ^ 53 := by exact_mod_cast small
  have half : (2 : ℚ) ^ (-1 : ℤ) ≤ x := by
    have : (2 : ℚ) ^ (-1 : ℤ) = 1 / 2 := by norm_num
    rw [this]
    linarith
  have xPos : 0 < x := lt_of_lt_of_le (by norm_num) half
  have above : -1 ≤ Int.log 2 x :=
    (Int.zpow_le_iff_le_log (by norm_num) xPos).mp (by exact_mod_cast half)
  have below : Int.log 2 x < 53 := by
    apply (Int.lt_zpow_iff_log_lt (by norm_num) xPos).mp
    calc x ≤ number := le
      _ < 2 ^ 53 := numberSmall
      _ = ((2 : ℕ) : ℚ) ^ (53 : ℤ) := by norm_num
  obtain ⟨scale, log⟩ : ∃ scale : Nat, Int.log 2 x + 1 = scale :=
    ⟨(Int.log 2 x + 1).toNat, by omega⟩
  have scaleLe : scale ≤ 53 := by omega
  have high : x < ((2 ^ scale : Nat) : ℚ) := by
    have next : x < ((2 : ℕ) : ℚ) ^ (Int.log 2 x + 1) := Int.lt_zpow_succ_log_self (by norm_num) x
    rw [log, zpow_natCast] at next
    exact_mod_cast next
  have powLe : ((2 ^ scale : Nat) : ℚ) ≤ 2 ^ 53 := by
    exact_mod_cast Nat.pow_le_pow_right (by norm_num) scaleLe
  have fits : number ≤ 2 ^ scale := by
    by_contra more
    have next : ((2 ^ scale : Nat) : ℚ) + 1 ≤ number := by exact_mod_cast Nat.not_le.mp more
    linarith
  -- the unit is 2 ^ (scale - 53), of which the number is a multiple
  have unit : (2 : ℚ) ^ (Int.log 2 x - 52) = 1 / ((2 ^ (53 - scale) : Nat) : ℚ) := by
    have exponent : Int.log 2 x - 52 = -((53 - scale : Nat) : ℤ) := by omega
    rw [exponent, zpow_neg, zpow_natCast]
    push_cast
    rw [one_div]
  have unitPos : (0 : ℚ) < ((2 ^ (53 - scale) : Nat) : ℚ) := by positivity
  have multiple : (number * 2 ^ (53 - scale) : Nat) ≤ 2 ^ 53 := by
    calc number * 2 ^ (53 - scale) ≤ 2 ^ scale * 2 ^ (53 - scale) := Nat.mul_le_mul_right _ fits
      _ = 2 ^ 53 := by rw [← Nat.pow_add, Nat.add_sub_of_le scaleLe]
  have multiple' : (number : ℚ) * ((2 ^ (53 - scale) : Nat) : ℚ) ≤ 2 ^ 53 := by
    exact_mod_cast multiple
  rw [round, if_neg (not_le.mpr xPos)]
  simp only [unit]
  have mantissa : nearest (x / (1 / ((2 ^ (53 - scale) : Nat) : ℚ))) =
      (number * 2 ^ (53 - scale) : Nat) := by
    apply nearest_of_close
    have difference : x / (1 / ((2 ^ (53 - scale) : Nat) : ℚ)) -
        (((number * 2 ^ (53 - scale) : Nat) : ℤ) : ℚ) =
        (x - number) * ((2 ^ (53 - scale) : Nat) : ℚ) := by
      push_cast
      field_simp
    rw [difference, abs_lt]
    constructor
    · nlinarith
    · nlinarith
  rw [mantissa]
  push_cast
  field_simp

theorem round_natCast {number : Nat} (small : number < 2 ^ 53) : round number = number := by
  rcases Nat.eq_zero_or_pos number with rfl | positive
  · rw [Nat.cast_zero, round, if_pos (le_refl _)]
  · apply round_of_close positive small
    · have : (0 : ℚ) < number := by exact_mod_cast positive
      linarith
    · exact le_refl _

theorem toInt32?_eq_some {x : ℚ} (nonneg : 0 ≤ x) (small : x < 2 ^ 31) :
    toInt32? x = some ⌊x⌋.toNat := if_pos ⟨nonneg, small⟩

theorem toInt32?_eq_none {x : ℚ} (large : 2 ^ 31 ≤ x) : toInt32? x = none := by
  apply if_neg
  intro inside
  exact absurd inside.2 (not_lt.mpr large)

end Double
