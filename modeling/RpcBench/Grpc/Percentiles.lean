import RpcBench.Grpc.LatApp
import RpcBench.Lib.Quantile
import Mathlib.Algebra.Order.BigOperators.Group.List

/-! # The figures that `print` prints

The index of a percentile is computed in doubles.  It is the exact one, so each
column is the quantile of the samples that its factor stands for. -/
set_option autoImplicit false

namespace RpcBench.Grpc.LatClientApp

/-! ## The indices -/

/-- A factor of the source: a fraction of a million, and a double that is not
below it by a quarter of a unit in the last place. -/
structure Factor (rank : ℚ) : Prop where
  positive : 0 < rank
  below : rank ≤ 999999 / 1000000
  millionths : ∃ share : Nat, rank = share / 1000000
  close : rank * (1 - 1 / 2 ^ 54) < Double.round rank

theorem close_of_mantissa {rank : ℚ} (exponent mantissa : ℤ) (low : (2 : ℚ) ^ exponent ≤ rank)
    (high : rank < (2 : ℚ) ^ (exponent + 1))
    (nearest : Double.nearest (rank / 2 ^ (exponent - 52)) = mantissa)
    (close : rank * (1 - 1 / 2 ^ 54) < mantissa * 2 ^ (exponent - 52)) :
    rank * (1 - 1 / 2 ^ 54) < Double.round rank := by
  rw [Double.round_eq low high, nearest]
  exact close

theorem factor_ranks {rank : ℚ} (member : rank ∈ ranks) : Factor rank := by
  obtain ⟨positive, below⟩ := ranks_bounds member
  simp only [ranks, List.mem_cons, List.not_mem_nil, or_false] at member
  rcases member with rfl | rfl | rfl | rfl | rfl | rfl | rfl
  · exact ⟨positive, below, ⟨500000, by norm_num⟩, close_of_mantissa (-1) 4503599627370496
      (by norm_num) (by norm_num) (by norm_num [Double.nearest]) (by norm_num)⟩
  · exact ⟨positive, below, ⟨50000, by norm_num⟩, close_of_mantissa (-5) 7205759403792794
      (by norm_num) (by norm_num) (by norm_num [Double.nearest]) (by norm_num)⟩
  · exact ⟨positive, below, ⟨990000, by norm_num⟩, close_of_mantissa (-1) 8917127262193582
      (by norm_num) (by norm_num) (by norm_num [Double.nearest]) (by norm_num)⟩
  · exact ⟨positive, below, ⟨999000, by norm_num⟩, close_of_mantissa (-1) 8998192055486251
      (by norm_num) (by norm_num) (by norm_num [Double.nearest]) (by norm_num)⟩
  · exact ⟨positive, below, ⟨999900, by norm_num⟩, close_of_mantissa (-1) 9006298534815518
      (by norm_num) (by norm_num) (by norm_num [Double.nearest]) (by norm_num)⟩
  · exact ⟨positive, below, ⟨999990, by norm_num⟩, close_of_mantissa (-1) 9007109182748445
      (by norm_num) (by norm_num) (by norm_num [Double.nearest]) (by norm_num)⟩
  · exact ⟨positive, below, ⟨999999, by norm_num⟩, close_of_mantissa (-1) 9007190247541737
      (by norm_num) (by norm_num) (by norm_num [Double.nearest]) (by norm_num)⟩

/-- The cast of the product is the floor of the exact product. -/
theorem Factor.indexOf_eq {rank : ℚ} {len : Nat} (factor : Factor rank) (nonempty : 0 < len)
    (fits : len ≤ maxSamples) : indexOf rank len = some ⌊rank * len⌋.toNat := by
  obtain ⟨share, shared⟩ := factor.millionths
  have positive := factor.positive
  have lenPos : (0 : ℚ) < len := by exact_mod_cast nonempty
  have lenFits : (len : ℚ) ≤ 2147485795 := by exact_mod_cast fits
  have product : (0 : ℚ) < rank * len := mul_pos positive lenPos
  have exactLen : Double.round len = len := Double.round_natCast (lt_of_le_of_lt fits (by decide))
  obtain ⟨index, found, inside⟩ := indexOf_lt positive factor.below nonempty fits
  -- the exact product is a multiple of a millionth
  obtain ⟨whole, part, split, partLt⟩ : ∃ whole part : Nat,
      rank * len = whole + part / 1000000 ∧ part < 1000000 := by
    refine ⟨share * len / 1000000, share * len % 1000000, ?_, Nat.mod_lt _ (by norm_num)⟩
    have division : (share : ℚ) * len = 1000000 * (share * len / 1000000 : Nat) +
        (share * len % 1000000 : Nat) := by
      exact_mod_cast (Nat.div_add_mod (share * len) 1000000).symm
    rw [shared, div_mul_eq_mul_div, division, add_div, mul_div_cancel_left₀ _ (by norm_num)]
  have partLe : (part : ℚ) ≤ 999999 := by exact_mod_cast Nat.le_of_lt_succ partLt
  have floor : ⌊rank * len⌋ = whole := by
    rw [Int.floor_eq_iff, split]
    push_cast
    constructor
    · have : (0 : ℚ) ≤ part / 1000000 := by positivity
      linarith
    · have : (part : ℚ) / 1000000 < 1 := by
        rw [div_lt_one (by norm_num)]
        linarith
      linarith
  have bounded : rank * len ≤ 2147485795 := by nlinarith [factor.below]
  have wholeSmall : whole < 2 ^ 53 := by
    have : (whole : ℚ) ≤ 2147485795 := by
      have : (0 : ℚ) ≤ part / 1000000 := by positivity
      linarith
    have : whole ≤ 2147485795 := by exact_mod_cast this
    omega
  have partPos : (0 : ℚ) ≤ part / 1000000 := by positivity
  have low : (whole : ℚ) ≤ Double.round (Double.round rank * len) := by
    by_cases above : (whole : ℚ) ≤ Double.round rank * len
    · rw [← Double.round_natCast wholeSmall]
      exact Double.round_mono above
    · have near : rank * (1 - 1 / 2 ^ 54) * len < Double.round rank * len :=
        mul_lt_mul_of_pos_right factor.close lenPos
      have exact : part = 0 := by
        by_contra more
        have : (1 : ℚ) ≤ part := by exact_mod_cast Nat.one_le_iff_ne_zero.mpr more
        have : (1 : ℚ) / 1000000 ≤ part / 1000000 := by linarith
        have : rank * len * (1 - 1 / 2 ^ 54) = rank * (1 - 1 / 2 ^ 54) * len := by ring
        linarith
      have even : rank * len = whole := by
        rw [split, exact]
        norm_num
      have fixed : Double.round (Double.round rank * len) = whole := by
        apply Double.round_of_close
        · have : (0 : ℚ) < whole := by linarith
          exact_mod_cast this
        · exact wholeSmall
        · calc (whole : ℚ) * (1 - 1 / 2 ^ 54) = rank * (1 - 1 / 2 ^ 54) * len := by
                rw [← even]
                ring
            _ < Double.round rank * len := near
        · exact le_of_lt (not_le.mp above)
      exact fixed.ge
  have high : Double.round (Double.round rank * len) < whole + 1 := by
    have bound := Double.round_mul_le positive lenPos
    rw [exactLen] at bound
    have error : rank * len * (1 + 1 / 2 ^ 53) ^ 3 ≤ rank * len + 999999 / 1000000000000 := by
      have small : ((1 : ℚ) + 1 / 2 ^ 53) ^ 3 - 1 ≤ 999999 / 1000000000000 / 2147485795 := by
        norm_num
      nlinarith
    have : (part : ℚ) / 1000000 ≤ 999999 / 1000000 := by linarith
    linarith
  have same : ⌊Double.round (Double.round rank * len)⌋ = whole := by
    rw [Int.floor_eq_iff]
    constructor
    · exact_mod_cast low
    · exact_mod_cast high
  rw [floor, indexOf, exactLen]
  rw [indexOf, exactLen, Double.toInt32?] at found
  split at found
  · next held => rw [Double.toInt32?, if_pos held, same]
  · cases found

/-! ## The average -/

theorem sum_bounds {down up : ℚ} (downPos : 0 ≤ down) (downLe : down ≤ 1) (upGe : 1 ≤ up)
    (between : ∀ x : ℚ, 0 ≤ x → x * down ≤ Double.round x ∧ Double.round x ≤ x * up)
    (latencies : List ℚ) :
    ∀ start : ℚ, 0 ≤ start → (∀ latency ∈ latencies, 0 ≤ latency) →
      (start + latencies.sum) * down ^ latencies.length ≤
          latencies.foldl (fun sum latency => Double.round (sum + latency)) start ∧
        latencies.foldl (fun sum latency => Double.round (sum + latency)) start ≤
          (start + latencies.sum) * up ^ latencies.length := by
  induction latencies with
  | nil =>
      intro start _ _
      simp
  | cons latency latencies ih =>
      intro start startPos nonneg
      obtain ⟨first, rest⟩ := List.forall_mem_cons.mp nonneg
      have sumPos : 0 ≤ latencies.sum := List.sum_nonneg rest
      have upPos : 0 ≤ up := le_trans zero_le_one upGe
      obtain ⟨roundLow, roundHigh⟩ := between (start + latency) (add_nonneg startPos first)
      obtain ⟨low, high⟩ := ih (Double.round (start + latency)) (Double.round_nonneg _) rest
      rw [List.foldl_cons, List.sum_cons, List.length_cons, pow_succ', pow_succ', ← mul_assoc,
        ← mul_assoc]
      constructor
      · have scaled : (start + (latency + latencies.sum)) * down ≤
            Double.round (start + latency) + latencies.sum := by nlinarith
        exact (mul_le_mul_of_nonneg_right scaled (pow_nonneg downPos _)).trans low
      · have scaled : Double.round (start + latency) + latencies.sum ≤
            (start + (latency + latencies.sum)) * up := by nlinarith
        exact high.trans (mul_le_mul_of_nonneg_right scaled (pow_nonneg upPos _))

/-! ## The line -/

structure Figures (latencies : List ℚ) (summary : Summary) : Prop where
  samples : summary.samples = latencies.length
  percentiles : List.Forall₂ (fun rank figure => Quantile rank latencies figure) ranks
    summary.percentiles
  ordered : ∀ rank figure rank' figure', (rank, figure) ∈ ranks.zip summary.percentiles →
    (rank', figure') ∈ ranks.zip summary.percentiles → rank ≤ rank' → figure ≤ figure'
  longest : summary.longest ∈ latencies ∧ ∀ latency ∈ latencies, latency ≤ summary.longest
  /-- one rounding for each addition and one for the division -/
  average : latencies.sum / latencies.length * (1 - 1 / 2 ^ 53) ^ (latencies.length + 1) ≤
      summary.average ∧
    summary.average ≤
      latencies.sum / latencies.length * (1 + 1 / 2 ^ 53) ^ (latencies.length + 1)

section Line

variable {latencies : List ℚ}

theorem average_bounds (nonneg : ∀ latency ∈ latencies, 0 ≤ latency)
    (nonempty : 0 < latencies.length) (fits : latencies.length ≤ maxSamples) :
    latencies.sum / latencies.length * (1 - 1 / 2 ^ 53) ^ (latencies.length + 1) ≤
        Double.round (latencies.foldl (fun sum latency => Double.round (sum + latency)) 0 /
          Double.round latencies.length) ∧
      Double.round (latencies.foldl (fun sum latency => Double.round (sum + latency)) 0 /
          Double.round latencies.length) ≤
        latencies.sum / latencies.length * (1 + 1 / 2 ^ 53) ^ (latencies.length + 1) := by
  obtain ⟨down, downEq⟩ : ∃ down : ℚ, down = 1 - 1 / 2 ^ 53 := ⟨_, rfl⟩
  obtain ⟨up, upEq⟩ : ∃ up : ℚ, up = 1 + 1 / 2 ^ 53 := ⟨_, rfl⟩
  have between : ∀ x : ℚ, 0 ≤ x → x * down ≤ Double.round x ∧ Double.round x ≤ x * up := by
    intro x xNonneg
    rw [downEq, upEq]
    exact Double.round_between xNonneg
  have downPos : 0 ≤ down := by
    rw [downEq]
    norm_num
  have upPos : 0 ≤ up := by
    rw [upEq]
    norm_num
  rw [← downEq, ← upEq, Double.round_natCast (lt_of_le_of_lt fits (by decide))]
  obtain ⟨low, high⟩ := sum_bounds downPos (by rw [downEq]; norm_num) (by rw [upEq]; norm_num)
    between latencies 0 (le_refl 0) nonneg
  have lenPos : (0 : ℚ) < latencies.length := by exact_mod_cast nonempty
  have sumPos : 0 ≤ latencies.sum := List.sum_nonneg nonneg
  rw [zero_add] at low high
  have total : 0 ≤ latencies.foldl (fun sum latency => Double.round (sum + latency)) 0 :=
    (mul_nonneg sumPos (pow_nonneg downPos _)).trans low
  generalize latencies.foldl (fun sum latency => Double.round (sum + latency)) 0 = sum at *
  obtain ⟨roundLow, roundHigh⟩ :=
    between (sum / latencies.length) (div_nonneg total (le_of_lt lenPos))
  have factored : ∀ factor : ℚ, latencies.sum / latencies.length * factor =
      latencies.sum * factor / latencies.length := fun factor => div_mul_eq_mul_div _ _ _
  constructor
  · refine le_trans ?_ roundLow
    rw [pow_succ, ← mul_assoc, factored]
    exact mul_le_mul_of_nonneg_right (div_le_div_of_nonneg_right low (le_of_lt lenPos)) downPos
  · refine le_trans roundHigh ?_
    rw [pow_succ, ← mul_assoc, factored]
    exact mul_le_mul_of_nonneg_right (div_le_div_of_nonneg_right high (le_of_lt lenPos)) upPos

/-- What holds of every lookup holds along the list of what they find. -/
theorem forall₂_of_mapM {A B : Type} {f : A → Option B} {R : A → B → Prop} (inputs : List A) :
    ∀ outputs : List B,
      (∀ input ∈ inputs, ∀ output, f input = some output → R input output) →
      inputs.mapM f = some outputs → List.Forall₂ R inputs outputs := by
  induction inputs with
  | nil =>
      intro outputs _ found
      cases found
      exact List.Forall₂.nil
  | cons input inputs ih =>
      intro outputs holds found
      obtain ⟨here, later⟩ := List.forall_mem_cons.mp holds
      rw [List.mapM_cons] at found
      cases first : f input with
      | none => simp [first] at found
      | some output =>
          cases rest : inputs.mapM f with
          | none => simp [first, rest] at found
          | some others =>
              simp only [first, rest, Option.pure_def, Option.bind_eq_bind, Option.bind_some,
                Option.some.injEq] at found
              subst found
              exact List.Forall₂.cons (here output first) (ih others later rest)

theorem last_is_longest {sorted : List ℚ} {longest : ℚ} (ordered : sorted.Pairwise (· ≤ ·))
    (found : sorted[sorted.length - 1]? = some longest) :
    longest ∈ sorted ∧ ∀ latency ∈ sorted, latency ≤ longest := by
  refine ⟨List.mem_of_getElem? found, ?_⟩
  intro latency member
  obtain ⟨index, bound, rfl⟩ := List.getElem_of_mem member
  obtain ⟨last, rfl⟩ := List.getElem?_eq_some_iff.mp found
  rcases Nat.lt_or_ge index (sorted.length - 1) with before | atEnd
  · exact List.pairwise_iff_getElem.mp ordered index _ bound last before
  · have same : index = sorted.length - 1 := by omega
    subst same
    exact le_refl _

theorem ordered_of_quantiles {percentiles : List ℚ}
    (quantiles : List.Forall₂ (fun rank figure => Quantile rank latencies figure) ranks
      percentiles) :
    ∀ rank figure rank' figure', (rank, figure) ∈ ranks.zip percentiles →
      (rank', figure') ∈ ranks.zip percentiles → rank ≤ rank' → figure ≤ figure' := by
  intro rank figure rank' figure' member member' le
  obtain ⟨_, each⟩ := List.forall₂_iff_zip.mp quantiles
  exact (each member).mono (each member') le

theorem figures_sorted {sorted : List ℚ} {summary : Summary} (ordered : sorted.Pairwise (· ≤ ·))
    (nonneg : ∀ latency ∈ sorted, 0 ≤ latency) (nonempty : 0 < sorted.length)
    (fits : sorted.length ≤ maxSamples) (found : summarize sorted = some summary) :
    Figures sorted summary := by
  have last : (sorted.length + (2 ^ 64 - 1)) % 2 ^ 64 = sorted.length - 1 := by
    unfold maxSamples at fits
    omega
  unfold summarize at found
  simp only [last] at found
  cases figures : ranks.mapM fun rank => (indexOf rank sorted.length).bind fun index =>
      sorted[index]? with
  | none => simp [figures] at found
  | some percentiles =>
      cases longest : sorted[sorted.length - 1]? with
      | none => simp [figures, longest] at found
      | some latency =>
          simp only [figures, longest, Option.pure_def, Option.bind_eq_bind, Option.bind_some,
            Option.some.injEq] at found
          subst found
          have quantiles : List.Forall₂ (fun rank figure => Quantile rank sorted figure) ranks
              percentiles := by
            apply forall₂_of_mapM ranks percentiles _ figures
            intro rank member figure looked
            have factor := factor_ranks member
            rw [factor.indexOf_eq nonempty fits, Option.bind_some] at looked
            have floorPos : 0 ≤ ⌊rank * sorted.length⌋ :=
              Int.floor_nonneg.mpr (mul_nonneg (le_of_lt factor.positive) (Nat.cast_nonneg _))
            exact Quantile.of_sorted ordered (Int.toNat_of_nonneg floorPos).symm looked
          constructor
          case samples => rfl
          case percentiles => exact quantiles
          case ordered => exact ordered_of_quantiles quantiles
          case longest => exact last_is_longest ordered longest
          case average => exact average_bounds nonneg nonempty fits

/-- With samples that the casts can take, every column is what it stands for. -/
theorem print_figures (latencies : List ℚ) (nonneg : ∀ latency ∈ latencies, 0 ≤ latency)
    (nonempty : 0 < latencies.length) (fits : latencies.length ≤ maxSamples) :
    ∃ summary, print latencies = some summary ∧ Figures latencies summary := by
  obtain ⟨summary, printed⟩ := Option.isSome_iff_exists.mp
    ((print_isSome_iff latencies).mpr ⟨nonempty, fits⟩)
  refine ⟨summary, printed, ?_⟩
  have same := List.mergeSort_perm latencies fun left right => decide (left ≤ right)
  have ordered : (latencies.mergeSort fun left right => decide (left ≤ right)).Pairwise
      (· ≤ ·) := by
    have sorted : (latencies.mergeSort fun left right => decide (left ≤ right)).Pairwise
        fun left right => decide (left ≤ right) = true := by
      apply List.pairwise_mergeSort
      · intro first second third before after
        exact decide_eq_true ((of_decide_eq_true before).trans (of_decide_eq_true after))
      · intro first second
        rcases le_total first second with below | above
        · simp [below]
        · simp [above]
    exact sorted.imp fun below => of_decide_eq_true below
  have figures := figures_sorted ordered
    (fun latency member => nonneg latency (same.mem_iff.mp member)) (by rwa [same.length_eq])
    (by rwa [same.length_eq]) printed
  obtain ⟨samples, percentiles, ordered, longest, average⟩ := figures
  constructor
  case samples => rw [samples, same.length_eq]
  case percentiles => exact percentiles.imp fun _ _ quantile => quantile.perm same
  case ordered => exact ordered
  case longest =>
    refine ⟨same.mem_iff.mp longest.1, ?_⟩
    intro latency member
    exact longest.2 latency (same.mem_iff.mpr member)
  case average =>
    rw [same.sum_eq, same.length_eq] at average
    exact average

/-- Three samples that come in no order. -/
theorem print_figures_three :
    ∃ summary, print [3, 1, 2] = some summary ∧ Figures [3, 1, 2] summary := by
  apply print_figures
  · intro latency member
    simp only [List.mem_cons, List.not_mem_nil, or_false] at member
    rcases member with rfl | rfl | rfl <;> norm_num
  · decide
  · decide

end Line

end RpcBench.Grpc.LatClientApp
