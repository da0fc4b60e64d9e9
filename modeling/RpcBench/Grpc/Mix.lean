import RpcBench.Grpc.Workload
import RpcBench.Lib.Lcg

/-! # The mix of the reservation workload

`fast_rand` is a linear congruential generator with full period, so the share
of each request is exact in every window of 2^32 draws. -/
set_option autoImplicit false

namespace RpcBench.Grpc

open Function

def fastSrand (seed : Int32) : UInt32 := seed.toUInt32

/-- `g_seed` behind a call of `fast_rand`. -/
def nextSeed (gSeed : UInt32) : UInt32 := (fastRand gSeed).2

variable (byteSizeLong : Acl.Request → Nat)

/-- The request that a call of `GenerateWorkload` returns, after so many calls. -/
def draw (seed : Int32) (calls : Nat) : Acl.Request :=
  (generateWorkload byteSizeLong (nextSeed^[calls] (fastSrand seed))).1.1

theorem nextSeed_toNat (gSeed : UInt32) :
    (nextSeed gSeed).toNat = Lcg.next 214013 2531011 32 gSeed.toNat := by
  change (214013 * gSeed + 2531011).toNat = _
  rw [UInt32.toNat_add, UInt32.toNat_mul, Nat.mod_add_mod]
  rfl

theorem iterate_nextSeed_toNat (gSeed : UInt32) (calls : Nat) :
    (nextSeed^[calls] gSeed).toNat = (Lcg.next 214013 2531011 32)^[calls] gSeed.toNat := by
  induction calls with
  | zero => rfl
  | succ calls ih => rw [iterate_succ_apply', iterate_succ_apply', nextSeed_toNat, ih]

theorem fastRand_toInt (gSeed : UInt32) :
    (fastRand gSeed).1.toInt = ((nextSeed gSeed).toNat / 2 ^ 16 % 2 ^ 15 : Nat) := by
  change ((nextSeed gSeed >>> 16) &&& 0x7FFF).toInt32.toInt = _
  generalize nextSeed gSeed = gSeed
  have bits : ((gSeed >>> 16) &&& 0x7FFF).toNat = gSeed.toNat / 2 ^ 16 % 2 ^ 15 := by
    rw [UInt32.toNat_and, UInt32.toNat_shiftRight, Nat.shiftRight_eq_div_pow]
    exact Nat.and_two_pow_sub_one_eq_mod _ 15
  have small : gSeed.toNat / 2 ^ 16 % 2 ^ 15 < 2 ^ 15 := Nat.mod_lt _ (by decide)
  change BitVec.toInt ((gSeed >>> 16) &&& 0x7FFF).toBitVec = _
  rw [BitVec.toInt_eq_toNat_of_lt]
  · exact congrArg Int.ofNat bits
  · rw [UInt32.toNat_toBitVec, bits]
    omega

theorem fastRand_range (gSeed : UInt32) :
    0 ≤ (fastRand gSeed).1.toInt ∧ (fastRand gSeed).1.toInt ≤ 32767 := by
  rw [fastRand_toInt]
  have small : (nextSeed gSeed).toNat / 2 ^ 16 % 2 ^ 15 < 2 ^ 15 := Nat.mod_lt _ (by decide)
  omega

theorem danyang_ne_matt : workload 0 ≠ workload 1 := by decide

theorem workload_cases (index : Fin 2) :
    workload index = workload 0 ∨ workload index = workload 1 := by
  match index with
  | 0 => exact Or.inl rfl
  | 1 => exact Or.inr rfl

theorem generateWorkload_danyang_iff (gSeed : UInt32) :
    (generateWorkload byteSizeLong gSeed).1.1 = workload 0 ↔
      (nextSeed gSeed).toNat / 2 ^ 16 % 2 ^ 15 % 100 = 0 := by
  have range := fastRand_range gSeed
  have bits := fastRand_toInt gSeed
  have rest : ((fastRand gSeed).1 % 100).toInt = (fastRand gSeed).1.toInt.tmod 100 :=
    Int32.toInt_mod _ _
  have small : (fastRand gSeed).1 % 100 < 1 ↔ (fastRand gSeed).1.toInt.tmod 100 < 1 := by
    rw [Int32.lt_iff_toInt_lt, rest]
    rfl
  have zero : (fastRand gSeed).1.toInt.tmod 100 < 1 ↔
      (nextSeed gSeed).toNat / 2 ^ 16 % 2 ^ 15 % 100 = 0 := by
    rw [Int.tmod_eq_emod_of_nonneg range.1, bits]
    omega
  rw [← zero, ← small]
  unfold generateWorkload
  simp only
  by_cases chosen : (fastRand gSeed).1 % 100 < 1
  · rw [if_pos chosen]
    exact iff_of_true rfl chosen
  · rw [if_neg chosen]
    exact iff_of_false (fun same => danyang_ne_matt same.symm) chosen

theorem count_danyang :
    Nat.count (fun gSeed => gSeed / 2 ^ 16 % 2 ^ 15 % 100 = 0) (2 ^ 32) = 328 * 2 ^ 17 := by
  have whole : Nat.count (fun bits => bits = 0) 100 = 1 := by decide
  have rest : Nat.count (fun bits => bits = 0) 68 = 1 := by decide
  have cut : 68 ≤ 100 := by decide
  have hundreds := Lcg.count_mod_add (fun bits => bits = 0) 100 327 cut
  have words := Lcg.count_mod (fun bits => bits % 100 = 0) (2 ^ 15) 2
  have states := Lcg.count_div (fun word => word % 2 ^ 15 % 100 = 0) (2 ^ 16) (2 * 2 ^ 15)
  have all : (2 : Nat) ^ 32 = 2 * 2 ^ 15 * 2 ^ 16 := by norm_num
  have bits : (2 : Nat) ^ 15 = 327 * 100 + 68 := by norm_num
  rw [all, states, words, bits, hundreds, whole, rest]
  norm_num

theorem draw_danyang_iff (seed : Int32) (first calls : Nat) :
    draw byteSizeLong seed (first + calls) = workload 0 ↔
      (Lcg.next 214013 2531011 32)^[calls]
        (nextSeed^[first + 1] (fastSrand seed)).toNat / 2 ^ 16 % 2 ^ 15 % 100 = 0 := by
  rw [draw, generateWorkload_danyang_iff, ← iterate_succ_apply' nextSeed,
    ← iterate_nextSeed_toNat, ← iterate_add_apply]
  rw [show (first + calls).succ = calls + (first + 1) by omega]

/-- For every seed: the generator has full period, its results are 15 bits, and
in any 2^32 draws one in a hundred is danyang's, rounded up to what 15 bits allow. -/
theorem workload_mix (seed : Int32) :
    minimalPeriod nextSeed (fastSrand seed) = 2 ^ 32 ∧
      (∀ value, ∃! calls, calls < 2 ^ 32 ∧ nextSeed^[calls] (fastSrand seed) = value) ∧
      (∀ gSeed, 0 ≤ (fastRand gSeed).1.toInt ∧ (fastRand gSeed).1.toInt ≤ 32767) ∧
      (∀ first, Nat.count (fun calls => draw byteSizeLong seed (first + calls) = workload 0)
        (2 ^ 32) = 328 * 2 ^ 17) ∧
      ∀ calls, draw byteSizeLong seed calls = workload 0 ∨
        draw byteSizeLong seed calls = workload 1 := by
  have one_mod_four : 214013 % 4 = 1 := by decide
  have odd : 2531011 % 2 = 1 := by decide
  have small : (fastSrand seed).toNat < 2 ^ 32 := UInt32.toNat_lt _
  refine ⟨?_, ?_, fastRand_range, ?_, ?_⟩
  · rw [← Lcg.minimalPeriod_next one_mod_four odd small]
    apply minimalPeriod_eq_minimalPeriod_iff.mpr
    intro calls
    rw [IsPeriodicPt, IsPeriodicPt, IsFixedPt, IsFixedPt, ← UInt32.toNat_inj,
      iterate_nextSeed_toNat]
  · intro value
    obtain ⟨calls, ⟨few, reached⟩, only⟩ := Lcg.existsUnique_iterate_next one_mod_four odd small
      (UInt32.toNat_lt value)
    refine ⟨calls, ⟨few, ?_⟩, ?_⟩
    · apply UInt32.toNat_inj.mp
      rw [iterate_nextSeed_toNat]
      exact reached
    · intro other both
      apply only
      refine ⟨both.1, ?_⟩
      rw [← iterate_nextSeed_toNat, both.2]
  · intro first
    have start : (nextSeed^[first + 1] (fastSrand seed)).toNat < 2 ^ 32 := UInt32.toNat_lt _
    have shares := Lcg.count_iterate_next one_mod_four odd start
      (fun gSeed => gSeed / 2 ^ 16 % 2 ^ 15 % 100 = 0)
    rw [← count_danyang, ← shares]
    apply Lcg.count_congr
    intro calls _
    exact draw_danyang_iff byteSizeLong seed first calls
  · intro calls
    obtain ⟨index, drawn⟩ :=
      generateWorkload_cases byteSizeLong (nextSeed^[calls] (fastSrand seed))
    rw [draw, drawn]
    exact workload_cases index

end RpcBench.Grpc
