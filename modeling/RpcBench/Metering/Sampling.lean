import RpcBench.Metering.RoundUp
import Mathlib.Data.Int.ModEq

/-! # The sampling counter of a meter

`cnt` is the number of the calls so far, as an `int`; a mask of `n` ones picks
every `2 ^ n`-th of them. -/
set_option autoImplicit false

namespace RpcBench.Metering

def Picked (sample : Int32) (ordinal : Nat) : Prop :=
  (ordinal : Int) ≡ sample.toInt [ZMOD sample.toInt + 1]

instance (sample : Int32) (ordinal : Nat) : Decidable (Picked sample ordinal) :=
  inferInstanceAs (Decidable (_ = _))

def ordinals (meter : Meter) (calls : Nat) : List Nat :=
  if meter.disable = 0 then (List.range calls).map (· + 1) else []

/-- `++cnt` of a call that is counted does not overflow. -/
def Increments (session : Session) : Prop :=
  session.meter.disable = 0 → session.meter.cnt.toBitVec.saddOverflow 1 = false

/-- No increment overflows, and the clock is read at the calls that are picked. -/
structure CounterSafe (meter : Meter) (calls : List (Call × Int)) : Prop where
  increments : Machine.Along Session.step (fun session _ => Increments session)
    (Session.start meter) calls
  consulted : (Session.run meter calls).consulted =
    (ordinals meter calls.length).filter fun ordinal => Picked meter.sample ordinal

theorem toNat_of_toInt {x : Int32} {n : Nat} (value : x.toInt = n) :
    x.toBitVec.toNat = n := by
  have cases := BitVec.toInt_eq_toNat_cond x.toBitVec
  rw [Int32.toInt_toBitVec, value] at cases
  have small := x.toBitVec.isLt
  split at cases <;> omega

theorem and_mask_iff {cnt sample : Int32} {n : Nat} (mask : IsMask sample)
    (value : cnt.toInt = n) : cnt &&& sample = sample ↔ Picked sample n := by
  have cntBits := toNat_of_toInt value
  unfold Picked Int.ModEq
  rcases mask with minusOne | ⟨k, small, ones⟩
  · have same : sample = -1 := by
      apply Int32.toInt_inj.mp
      rw [minusOne]
      rfl
    subst same
    have whole : cnt &&& -1 = cnt := by
      apply Int32.toBitVec_inj.mp
      rw [Int32.toBitVec_and]
      exact BitVec.and_allOnes
    have modulus : (-1 : Int) + 1 = 0 := rfl
    have minus : (-1 : Int32).toInt = -1 := by decide
    rw [whole, ← Int32.toInt_inj, value, minus, modulus, Int.emod_zero, Int.emod_zero]
  · have positive : 1 ≤ 2 ^ k := Nat.one_le_two_pow
    have sampleBits : sample.toBitVec.toNat = 2 ^ k - 1 := by
      apply toNat_of_toInt
      rw [ones]
      push_cast [positive]
      rfl
    rw [← Int32.toBitVec_inj, ← BitVec.toNat_inj, Int32.toBitVec_and, BitVec.toNat_and, cntBits,
      sampleBits, Nat.and_two_pow_sub_one_eq_mod, ones, Int.sub_add_cancel]
    have residue : ((2 : Int) ^ k - 1) % 2 ^ k = 2 ^ k - 1 := by
      apply Int.emod_eq_of_lt
      · have : (1 : Int) ≤ 2 ^ k := by exact_mod_cast positive
        omega
      · omega
    rw [residue]
    have cast : ((n % 2 ^ k : Nat) : Int) = (n : Int) % 2 ^ k := by push_cast; rfl
    have cast' : (((2 : Nat) ^ k : Nat) : Int) = 2 ^ k := by push_cast; rfl
    rw [← cast, ← cast']
    omega

/-- The session of an enabled meter: `cnt` is the number of calls, wrapped. -/
structure Counts (sample : Int32) (session : Session) : Prop where
  enabled : session.meter.disable = 0
  sample_eq : session.meter.sample = sample
  cnt_eq : session.meter.cnt.toInt = Int.bmod session.log.length (2 ^ 32)
  consulted_eq : session.log.length < 2 ^ 31 →
    session.consulted =
      ((List.range session.log.length).map (· + 1)).filter fun ordinal => Picked sample ordinal

theorem Counts.cnt_of_lt {sample : Int32} {session : Session} (counts : Counts sample session)
    (few : session.log.length < 2 ^ 31) :
    session.meter.cnt.toInt = session.log.length := by
  rw [counts.cnt_eq, Int.bmod_eq_of_le (by omega) (by omega)]

theorem Counts.start (meter : Meter) (enabled : meter.disable = 0) (zero : meter.cnt = 0) :
    Counts meter.sample (Session.start meter) := by
  constructor
  case enabled => exact enabled
  case sample_eq => rfl
  case cnt_eq =>
    simp only [Session.start, zero]
    rfl
  case consulted_eq => intro _; rfl

/-- Every call is counted, and only a sampled one reads the clock. -/
theorem call_counts {meter : Meter} (enabled : meter.disable = 0) (call : Call) (now : Int) :
    (meter.call call now).1.disable = 0 ∧ (meter.call call now).1.sample = meter.sample ∧
      (meter.call call now).1.cnt = meter.cnt + 1 ∧
      ((meter.call call now).2.consults = true ↔
        (meter.cnt + 1) &&& meter.sample = meter.sample) := by
  rcases Meter.call_cases enabled call now with ⟨skipped, same⟩ | ⟨sampled, same⟩ |
    ⟨sampled, _, same⟩
  · rw [same]
    exact ⟨enabled, rfl, rfl, iff_of_false Bool.false_ne_true skipped⟩
  · rw [same]
    exact ⟨enabled, rfl, rfl, iff_of_true rfl sampled⟩
  · rw [same]
    exact ⟨enabled, rfl, rfl, iff_of_true rfl sampled⟩

theorem Counts.step {sample : Int32} (mask : IsMask sample) {session : Session}
    (call : Call × Int) (counts : Counts sample session) :
    Counts sample (session.step call) := by
  obtain ⟨enabled, sampleEq, cntEq, consults⟩ := call_counts counts.enabled call.1 call.2
  have length := Session.length_step session call
  have cnt : (session.step call).meter.cnt.toInt =
      Int.bmod (session.log.length + 1 : Nat) (2 ^ 32) := by
    have one : (1 : Int32).toInt = 1 := by decide
    change (session.meter.call call.1 call.2).1.cnt.toInt = _
    rw [cntEq, Int32.toInt_add, counts.cnt_eq, one, Int.bmod_add_bmod]
    push_cast
    rfl
  constructor
  case enabled => exact enabled
  case sample_eq => exact sampleEq.trans counts.sample_eq
  case cnt_eq => rw [length, cnt]
  case consulted_eq =>
    rw [length]
    intro few
    have value : (session.meter.cnt + 1).toInt = (session.log.length + 1 : Nat) := by
      rw [← cntEq]
      change (session.step call).meter.cnt.toInt = _
      rw [cnt, Int.bmod_eq_of_le (by omega) (by omega)]
    rw [counts.sample_eq, and_mask_iff mask value] at consults
    have appended : (session.step call).consulted = session.consulted ++
        if (session.meter.call call.1 call.2).2.consults then [session.log.length + 1] else [] :=
      rfl
    rw [appended, counts.consulted_eq (by omega), List.range_succ, List.map_append,
      List.filter_append, List.map_singleton, List.filter_singleton]
    simp only [consults, Bool.cond_decide]

/-- The increments go on as long as there are fewer than `2 ^ 31` calls. -/
theorem increments_iff {sample : Int32} (mask : IsMask sample) :
    ∀ (calls : List (Call × Int)) (session : Session), Counts sample session →
      session.log.length < 2 ^ 31 →
      (Machine.Along Session.step (fun session _ => Increments session) session calls ↔
        session.log.length + calls.length < 2 ^ 31) := by
  intro calls
  induction calls with
  | nil =>
      intro session counts few
      exact iff_of_true trivial few
  | cons call rest ih =>
      intro session counts few
      have one : (1 : BitVec 32).toInt = 1 := by decide
      have increments : Increments session ↔ session.log.length + 1 < 2 ^ 31 := by
        unfold Increments
        rw [BitVec.saddOverflow, Int32.toInt_toBitVec, counts.cnt_of_lt few, one]
        simp only [counts.enabled, true_implies, Bool.or_eq_false_iff, decide_eq_false_iff_not]
        omega
      have length := Session.length_step session call
      rw [Machine.Along, increments, List.length_cons]
      constructor
      · rintro ⟨first, along⟩
        rw [ih (session.step call) (counts.step mask call) (by omega)] at along
        omega
      · intro fits
        refine ⟨by omega, ?_⟩
        rw [ih (session.step call) (counts.step mask call) (by omega)]
        omega

theorem disabled_run {meter : Meter} (disabled : meter.disable ≠ 0) :
    ∀ (calls : List (Call × Int)) (session : Session), session.meter = meter →
      Machine.Along Session.step (fun session _ => Increments session) session calls ∧
        (Machine.run Session.step session calls).consulted = session.consulted := by
  intro calls
  induction calls with
  | nil => intro session _; exact ⟨trivial, rfl⟩
  | cons call rest ih =>
      intro session same
      have silent : session.step call =
          { session with log := session.log ++ [(call, none)] } := by
        rw [Session.step, same, Meter.call_disabled disabled]
        simp [Outcome.consults, Outcome.report, ← same]
      have increments : Increments session := by
        intro enabled
        rw [same] at enabled
        exact absurd enabled disabled
      obtain ⟨along, consulted⟩ := ih (session.step call) (by rw [silent]; exact same)
      refine ⟨⟨increments, along⟩, ?_⟩
      rw [Machine.run_cons, consulted, silent]

/-- A constructed meter counts safely if and only if it is disabled or has fewer than
`2 ^ 31` calls. -/
theorem counterSafe_iff (build : Build) (intervalMs : UInt64) (_sample disable : Int32)
    (now : Int) (meter : Meter) (calls : List (Call × Int))
    (constructed : Meter.new build intervalMs _sample disable now = some meter) :
    CounterSafe meter calls ↔ meter.disable ≠ 0 ∨ calls.length < 2 ^ 31 := by
  obtain ⟨sample, mask, fresh⟩ := new_cases constructed
  have sampleEq : meter.sample = sample := by rw [fresh]
  have zero : meter.cnt = 0 := by rw [fresh]
  by_cases enabled : meter.disable = 0
  · have counts := Counts.start meter enabled zero
    rw [sampleEq] at counts
    have increments := increments_iff mask calls (Session.start meter) counts (Nat.two_pow_pos 31)
    rw [show (Session.start meter).log.length = 0 from rfl, Nat.zero_add] at increments
    constructor
    · intro safe
      exact Or.inr (increments.mp safe.increments)
    · intro few
      have few := few.resolve_left fun disabled => disabled enabled
      have counts' : Counts sample (Session.run meter calls) :=
        Machine.run_invariant Session.step (Counts sample)
          (fun session call counts => counts.step mask call) calls _ counts
      constructor
      case increments => exact increments.mpr few
      case consulted =>
        have length : (Session.run meter calls).log.length = calls.length := by
          rw [← List.length_map (f := Prod.fst), Session.log_run]
        rw [counts'.consulted_eq (by rw [length]; exact few), length, ordinals, if_pos enabled,
          sampleEq]
  · refine iff_of_true ?_ (Or.inl enabled)
    obtain ⟨along, consulted⟩ := disabled_run enabled calls (Session.start meter) rfl
    constructor
    case increments => exact along
    case consulted =>
      rw [ordinals, if_neg enabled]
      exact consulted

/-- `Meter(1000)`, at time zero. -/
def everySixteenth : Meter :=
  { sample := 15, cnt := 0, bytes := 0, qps := 0, tp := 0, interval := 1000, disable := 0 }

theorem counterSafe_two : CounterSafe everySixteenth [(.addBytes 1, 1), (.addBytes 2, 2)] :=
  (counterSafe_iff .debug 1000 15 0 0 everySixteenth [(.addBytes 1, 1), (.addBytes 2, 2)]
    rfl).mpr (Or.inr (by decide))

/-- The increment of the `2 ^ 31`-th call overflows. -/
theorem cnt_overflows :
    ¬∀ (build : Build) (intervalMs : UInt64) (_sample disable : Int32) (now : Int)
      (meter : Meter) (calls : List (Call × Int)),
      Meter.new build intervalMs _sample disable now = some meter → CounterSafe meter calls := by
  intro always
  obtain ⟨calls, length⟩ : ∃ calls : List (Call × Int), calls.length = 2 ^ 31 :=
    ⟨List.replicate (2 ^ 31) (.addQps 64 1, 0), List.length_replicate⟩
  have safe := always .debug 1000 15 0 0 everySixteenth calls rfl
  have mask : IsMask everySixteenth.sample := Or.inr ⟨4, by decide, rfl⟩
  have counts := Counts.start everySixteenth rfl rfl
  have few := (increments_iff mask calls _ counts (Nat.two_pow_pos 31)).mp safe.increments
  rw [length] at few
  exact absurd few (by decide)

end RpcBench.Metering
