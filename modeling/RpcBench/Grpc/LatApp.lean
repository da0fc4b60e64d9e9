import RpcBench.Lib.Double

/-! # `LatClientApp::print`

The latencies are doubles; an access outside the vector, or a cast that no
`int` can hold, has no result.  The text around the figures is left out. -/
set_option autoImplicit false

namespace RpcBench.Grpc.LatClientApp

def ranks : List ℚ := [1 / 2, 5 / 100, 99 / 100, 999 / 1000, 9999 / 10000, 99999 / 100000,
  999999 / 1000000]

/-- `(int)(rank * len)`. -/
def indexOf (rank : ℚ) (len : Nat) : Option Nat :=
  Double.toInt32? (Double.round (Double.round rank * Double.round len))

structure Summary where
  average : ℚ
  percentiles : List ℚ
  longest : ℚ
  samples : Nat
  deriving DecidableEq

/-- `print` behind the sort; `latencies[len - 1]` has a `size_t` for its index. -/
def summarize (latencies : List ℚ) : Option Summary := do
  let sum := latencies.foldl (fun sum latency => Double.round (sum + latency)) 0
  let len := latencies.length
  let percentiles ← ranks.mapM fun rank => (indexOf rank len).bind fun index => latencies[index]?
  let longest ← latencies[(len + (2 ^ 64 - 1)) % 2 ^ 64]?
  return { average := Double.round (sum / Double.round len), percentiles, longest, samples := len }

def print (latencies : List ℚ) : Option Summary :=
  summarize (latencies.mergeSort fun left right => decide (left ≤ right))

/-- The most samples for which every factor gives an `int`. -/
def maxSamples : Nat := 2147485795

theorem indexOf_lt {rank : ℚ} {len : Nat} (positive : 0 < rank) (below : rank ≤ 999999 / 1000000)
    (nonempty : 0 < len) (fits : len ≤ maxSamples) :
    ∃ index, indexOf rank len = some index ∧ index < len := by
  have lenPos : (0 : ℚ) < len := by exact_mod_cast nonempty
  have lenFits : (len : ℚ) ≤ 2147485795 := by exact_mod_cast fits
  have product : rank * len ≤ 999999 / 1000000 * len :=
    mul_le_mul_of_nonneg_right below (le_of_lt lenPos)
  have bound : Double.round (Double.round rank * Double.round len) ≤
      999999 / 1000000 * len * (1 + 1 / 2 ^ 53) ^ 3 :=
    (Double.round_mul_le positive lenPos).trans
      (mul_le_mul_of_nonneg_right product (by norm_num))
  have nonneg := le_of_lt (Double.round_pos (mul_pos (Double.round_pos positive)
    (Double.round_pos lenPos)))
  unfold indexOf
  generalize Double.round (Double.round rank * Double.round len) = value at *
  have below_len : (999999 : ℚ) / 1000000 * (1 + 1 / 2 ^ 53) ^ 3 < 1 := by norm_num
  have below_int : (999999 : ℚ) / 1000000 * (1 + 1 / 2 ^ 53) ^ 3 * 2147485795 < 2 ^ 31 := by
    norm_num
  have inside : value < ((len : ℤ) : ℚ) := by
    push_cast
    nlinarith
  have small : value < 2 ^ 31 := by nlinarith
  have floor := Int.floor_lt.mpr inside
  refine ⟨⌊value⌋.toNat, Double.toInt32?_eq_some nonneg small, ?_⟩
  omega

/-- One sample more, and the cast of the last factor's product is lost. -/
theorem indexOf_overflow {len : Nat} (many : maxSamples < len) :
    indexOf (999999 / 1000000) len = none := by
  have lenMany : (2147485796 : ℚ) ≤ len := by exact_mod_cast many
  have bound := Double.le_round_mul (x := 999999 / 1000000) (y := (len : ℚ)) (by norm_num)
    (by linarith)
  have above_int : (2 : ℚ) ^ 31 ≤ 999999 / 1000000 * 2147485796 * (1 - 1 / 2 ^ 53) ^ 3 := by
    norm_num
  have factor : (0 : ℚ) < 999999 / 1000000 * (1 - 1 / 2 ^ 53) ^ 3 := by norm_num
  apply Double.toInt32?_eq_none
  nlinarith

theorem mapM_isSome_iff {A B : Type} (f : A → Option B) (inputs : List A) :
    (inputs.mapM f).isSome = true ↔ ∀ input ∈ inputs, (f input).isSome = true := by
  induction inputs with
  | nil => simp
  | cons input inputs ih =>
      rw [List.mapM_cons, List.forall_mem_cons, ← ih]
      cases f input with
      | none => simp
      | some output => cases inputs.mapM f <;> simp

theorem ranks_bounds {rank : ℚ} (member : rank ∈ ranks) : 0 < rank ∧ rank ≤ 999999 / 1000000 := by
  simp only [ranks, List.mem_cons, List.not_mem_nil, or_false] at member
  rcases member with rfl | rfl | rfl | rfl | rfl | rfl | rfl <;> norm_num

theorem summarize_isSome_iff (latencies : List ℚ) :
    (summarize latencies).isSome = true ↔
      (∀ rank ∈ ranks, ((indexOf rank latencies.length).bind fun index =>
        latencies[index]?).isSome = true) ∧
      (latencies.length + (2 ^ 64 - 1)) % 2 ^ 64 < latencies.length := by
  have last : (latencies[(latencies.length + (2 ^ 64 - 1)) % 2 ^ 64]?).isSome = true ↔
      (latencies.length + (2 ^ 64 - 1)) % 2 ^ 64 < latencies.length :=
    Iff.of_eq (isSome_getElem? _ _)
  rw [← mapM_isSome_iff, ← last]
  unfold summarize
  dsimp only
  generalize ranks.mapM (fun rank => (indexOf rank latencies.length).bind fun index =>
    latencies[index]?) = percentiles
  generalize latencies[(latencies.length + (2 ^ 64 - 1)) % 2 ^ 64]? = longest
  cases percentiles with
  | none => simp
  | some percentiles => cases longest <;> simp

/-- `print` stays inside the vector if and only if there is a sample, and no
more than the casts can take. -/
theorem print_isSome_iff (latencies : List ℚ) :
    (print latencies).isSome = true ↔ 0 < latencies.length ∧ latencies.length ≤ maxSamples := by
  rw [print, summarize_isSome_iff, List.length_mergeSort]
  constructor
  · intro inside
    constructor
    · omega
    · by_contra many
      have last := inside.1 (999999 / 1000000) (by simp [ranks])
      rw [indexOf_overflow (Nat.lt_of_not_le many)] at last
      cases last
  · intro sampled
    constructor
    · intro rank member
      obtain ⟨positive, below⟩ := ranks_bounds member
      obtain ⟨index, found, inside⟩ := indexOf_lt positive below sampled.1 sampled.2
      rw [found, Option.bind_some, isSome_getElem?, List.length_mergeSort]
      exact inside
    · unfold maxSamples at sampled
      omega

end RpcBench.Grpc.LatClientApp
