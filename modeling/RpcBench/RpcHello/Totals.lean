import RpcBench.RpcHello.Accounting

/-! # The totals after the warmup

`run_client_thread` takes the warmup off the totals that `run_bench` returns.
A run that its duration ends may have counted fewer responses than that. -/
set_option autoImplicit false

namespace RpcBench.RpcHello

open Machine

/-- `left - right` of two `usize`, if it does not underflow. -/
def checkedSub (left right : Nat) : Option Nat :=
  if right ≤ left then some (left - right) else none

/-- The bytes and the responses that `run_client_thread` reports. -/
def reported (args : Args) (bench : Bench) : Option (Nat × Nat) := do
  let bytes ← checkedSub bench.nbytes (args.warmup * args.reqSize % 2 ^ 64)
  let responses ← checkedSub bench.rcnt args.warmup
  return (bytes, responses)

/-- The responses that were counted after `warmup_end` was taken. -/
def countedAfterWarmup (args : Args) (bench : Bench) : List Counted :=
  (bench.replyFutures.settled.map Prod.snd).drop args.warmup

def TotalsMatch (args : Args) (bench : Bench) : Prop :=
  reported args bench = some
    (((countedAfterWarmup args bench).map Counted.reqSize).sum,
      (countedAfterWarmup args bench).length)

/-- How many turns come before the first look at the clock that finds the run
too long. -/
def turnsInTime (args : Args) (clock : Prologue) (turns : List Turn) : Nat :=
  (turns.takeWhile fun turn => elapsed clock.start turn.check ≤ args.timeout).length

section Totals

variable {args : Args} {histogram : Histogram} {clock : Prologue} {bench : Bench}

theorem turnsInTime_late {turn : Turn} (turns : List Turn)
    (late : elapsed clock.start turn.check > args.timeout) :
    turnsInTime args clock (turn :: turns) = 0 := by
  simp only [turnsInTime, List.takeWhile_cons, decide_eq_false (Nat.not_le_of_lt late),
    Bool.false_eq_true, if_false, List.length_nil]

theorem turnsInTime_cons {turn : Turn} (turns : List Turn)
    (inTime : elapsed clock.start turn.check ≤ args.timeout) :
    turnsInTime args clock (turn :: turns) = turnsInTime args clock turns + 1 := by
  simp only [turnsInTime, List.takeWhile_cons, decide_eq_true inTime, if_true, List.length_cons]

/-- A run that returns has counted a response in each turn that was in time, up
to the limit. -/
theorem rcnt_of_done (args : Args) (histogram : Histogram) (clock : Prologue)
    (turns : List Turn) :
    ∀ bench, bench.Kept args → bench.outcome = .running →
      Along (Bench.turn args histogram clock) Bench.Ready bench turns →
      (run (Bench.turn args histogram clock) bench turns).outcome = .done →
      (run (Bench.turn args histogram clock) bench turns).rcnt =
        min args.limit (bench.rcnt + turnsInTime args clock turns) := by
  induction turns with
  | nil =>
      intro bench _ running _ ended
      exact absurd (running.symm.trans ended) (by decide)
  | cons turn turns ih =>
      intro bench kept running along ended
      have held := kept.held
      have sent := kept.sent
      rw [run_cons] at ended ⊢
      rcases Bench.turn_cases kept running histogram clock turn with
        ⟨waiting, _⟩ | ⟨leaves, same⟩ | ⟨_, _, same⟩ | ⟨stays, inside, entry, _, size, _, same⟩
      · exact absurd along.1 waiting
      · rw [same, Bench.run_stopped Outcome.noConfusion]
        rcases leaves with counted | late
        · simp only
          omega
        · have none_more := turnsInTime_late turns late
          simp only
          omega
      · rw [same, Bench.run_stopped Outcome.noConfusion] at ended
        exact absurd ended Outcome.noConfusion
      · obtain ⟨kept', counted, outcome⟩ := kept.receive running inside size histogram
        have inTime : elapsed clock.start turn.check ≤ args.timeout := by
          by_contra late
          exact stays (Or.inr (Nat.lt_of_not_le late))
        have one_more := turnsInTime_cons turns inTime
        rw [same] at ended ⊢
        rcases outcome with runs | ⟨_, panicked⟩
        · have alongNext := along.2
          rw [same] at alongNext
          rw [ih _ kept' runs alongNext ended, counted, one_more]
          omega
        · have stopped : (bench.receive args histogram turn entry.2).outcome ≠ .running := by
            rw [panicked]
            exact Outcome.noConfusion
          rw [Bench.run_stopped stopped, panicked] at ended
          exact absurd ended Outcome.noConfusion

theorem Bench.Kept.settled_length (kept : bench.Kept args) :
    bench.replyFutures.settled.length = bench.rcnt := by
  have lengths := bench.replyFutures.length_add_length
  have held := kept.held
  have issued := kept.issued
  omega

theorem Bench.Kept.countedAfterWarmup_length (kept : bench.Kept args) :
    (countedAfterWarmup args bench).length = bench.rcnt - args.warmup := by
  rw [countedAfterWarmup, List.length_drop, List.length_map, kept.settled_length]

theorem Bench.Kept.countedAfterWarmup_bytes (kept : bench.Kept args) :
    ((countedAfterWarmup args bench).map Counted.reqSize).sum =
      (bench.rcnt - args.warmup) * args.reqSize := by
  have same : ∀ size ∈ (countedAfterWarmup args bench).map Counted.reqSize,
      size = args.reqSize := by
    intro size member
    obtain ⟨counted, present, rfl⟩ := List.mem_map.mp member
    obtain ⟨entry, settled, rfl⟩ := List.mem_map.mp (List.mem_of_mem_drop present)
    exact kept.counted entry settled
  rw [List.eq_replicate_of_mem same, List.sum_replicate_nat, List.length_map,
    kept.countedAfterWarmup_length]

/-- The subtractions give the responses after the warmup if there were that many
and the bytes do not wrap between. -/
theorem Bench.Kept.totalsMatch_iff (kept : bench.Kept args) :
    TotalsMatch args bench ↔ args.warmup ≤ bench.rcnt ∧
      bench.rcnt * args.reqSize / 2 ^ 64 = args.warmup * args.reqSize / 2 ^ 64 := by
  unfold TotalsMatch reported checkedSub
  rw [kept.countedAfterWarmup_length, kept.countedAfterWarmup_bytes, kept.bytes]
  by_cases warm : args.warmup ≤ bench.rcnt
  · have product : (bench.rcnt - args.warmup) * args.reqSize + args.warmup * args.reqSize =
        bench.rcnt * args.reqSize := by
      rw [← Nat.add_mul, Nat.sub_add_cancel warm]
    rw [if_pos warm]
    by_cases covered : args.warmup * args.reqSize % 2 ^ 64 ≤ bench.rcnt * args.reqSize % 2 ^ 64
    · rw [if_pos covered]
      simp only [Option.bind_eq_bind, Option.bind_some, Option.pure_def, Option.some.injEq,
        Prod.mk.injEq, and_true]
      omega
    · rw [if_neg covered]
      constructor
      · intro absent
        cases absent
      · intro whole
        omega
  · rw [if_neg warm]
    constructor
    · intro absent
      split at absent
      · cases absent
      · cases absent
    · intro whole
      exact absurd whole.1 warm

end Totals

/-- For every run that returns, the reported totals are those of the responses
after the warmup if and only if the warmup was over in time. -/
theorem totals_match_iff (args : Args) (histogram : Histogram) (clock : Prologue)
    (turns : List Turn)
    (ready : Along (Bench.turn args histogram clock) Bench.Ready (Bench.start args clock) turns)
    (returned : (runBench args histogram clock turns).outcome = .done) :
    TotalsMatch args (runBench args histogram clock turns) ↔
      args.warmup ≤ min args.limit (turnsInTime args clock turns) ∧
        min args.limit (turnsInTime args clock turns) * args.reqSize / 2 ^ 64 =
          args.warmup * args.reqSize / 2 ^ 64 := by
  obtain ⟨unanswered, outcome⟩ := start_outcome args clock
  rcases outcome with running | ⟨_, panicked⟩
  · have counted := rcnt_of_done args histogram clock turns (Bench.start args clock)
      (Bench.kept_start args clock) running ready returned
    rw [unanswered, Nat.zero_add] at counted
    rw [(kept_run args histogram clock turns).totalsMatch_iff, ← counted]
    rfl
  · have stopped : (Bench.start args clock).outcome ≠ .running := by
      rw [panicked]
      exact Outcome.noConfusion
    unfold runBench at returned
    rw [Bench.run_stopped stopped] at returned
    exact absurd (panicked.symm.trans returned) Outcome.noConfusion

theorem totals_match_threeCalls :
    TotalsMatch threeCalls (runBench threeCalls minuteHistogram zeroClock
      [turnAt 1 5, turnAt 0 6, turnAt 0 7, turnAt 0 8]) := by
  have ready : Along (Bench.turn threeCalls minuteHistogram zeroClock) Bench.Ready
      (Bench.start threeCalls zeroClock) [turnAt 1 5, turnAt 0 6, turnAt 0 7, turnAt 0 8] :=
    ⟨fun _ => Or.inr (by decide), fun _ => Or.inr (by decide), fun _ => Or.inr (by decide),
      fun _ => Or.inl (by decide), trivial⟩
  apply (totals_match_iff threeCalls minuteHistogram zeroClock
    [turnAt 1 5, turnAt 0 6, turnAt 0 7, turnAt 0 8] ready (by decide)).mpr
  decide

def shortRun : Args := { threeCalls with warmup := 2, duration := some 5 }

theorem short_run_underflows :
    ¬∀ (args : Args) (histogram : Histogram) (clock : Prologue) (turns : List Turn),
      Along (Bench.turn args histogram clock) Bench.Ready (Bench.start args clock) turns →
      (runBench args histogram clock turns).outcome = .done →
      TotalsMatch args (runBench args histogram clock turns) := by
  intro always
  have ready : Along (Bench.turn shortRun minuteHistogram zeroClock) Bench.Ready
      (Bench.start shortRun zeroClock) [turnAt 0 3, turnAt 0 9] :=
    ⟨fun _ => Or.inr (by decide), fun _ => Or.inr (by decide), trivial⟩
  have matched := always shortRun minuteHistogram zeroClock [turnAt 0 3, turnAt 0 9] ready
    (by decide)
  have underflow : reported shortRun
      (runBench shortRun minuteHistogram zeroClock [turnAt 0 3, turnAt 0 9]) = none := by
    decide
  unfold TotalsMatch at matched
  rw [underflow] at matched
  cases matched

end RpcBench.RpcHello
