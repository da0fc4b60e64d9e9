import RpcBench.RpcHello.Totals

/-! # The histogram behind the final summary

A sample is added for each response after the warmup.  A periodic report with
`log_latency` reads the histogram and clears it, and nothing keeps what was in
it for the summary of the whole run. -/
set_option autoImplicit false

namespace RpcBench.RpcHello

open Machine

def CoversRun (args : Args) (bench : Bench) : Prop :=
  bench.hist.Perm ((countedAfterWarmup args bench).map Counted.latency)

def Quick (bench : Bench) (turn : Turn) : Prop :=
  ∀ entry, bench.replyFutures.outstanding[turn.index]? = some entry →
    elapsed entry.2.start turn.reply ≤ 60000000000

theorem quick_of_early {turn : Turn} (bench : Bench) (early : turn.reply.toNat ≤ 60000000000) :
    Quick bench turn := by
  intro entry _
  exact Nat.le_trans (Nat.sub_le _ _) early

def Reports (args : Args) (bench : Bench) (turn : Turn) : Prop :=
  ∃ interval, args.interval = some interval ∧ elapsed bench.lastTs turn.report > interval

/-- A response is counted, it is not of the warmup, and the report that follows it
reads the latencies. -/
def Clears (args : Args) (clock : Prologue) (bench : Bench) (turn : Turn) : Prop :=
  bench.outcome = .running ∧ ¬bench.leaves args clock turn ∧
    turn.index < bench.replyFutures.outstanding.length ∧
    args.warmup < bench.rcnt + 1 ∧ args.logLatency = true ∧ Reports args bench turn

section Histogram

variable {args : Args} {histogram : Histogram} {clock : Prologue} {turn : Turn} {bench : Bench}

/-- The samples are those of the responses after the warmup, in their order. -/
def Full (args : Args) (bench : Bench) : Prop :=
  bench.hist = (countedAfterWarmup args bench).map Counted.latency

def Lossy (args : Args) (bench : Bench) : Prop :=
  bench.hist.length < (countedAfterWarmup args bench).length

theorem issue_frame (args : Args) (now : UInt64) (bench : Bench) :
    (bench.issue args now).hist = bench.hist ∧ (bench.issue args now).lastTs = bench.lastTs ∧
      (bench.issue args now).replyFutures.settled = bench.replyFutures.settled := by
  unfold Bench.issue
  split
  · exact ⟨rfl, rfl, rfl⟩
  · exact ⟨rfl, rfl, rfl⟩

theorem refill_frame (args : Args) (turn : Turn) (bench : Bench) :
    (bench.refill args turn).hist = bench.hist ∧ (bench.refill args turn).lastTs = bench.lastTs ∧
      (bench.refill args turn).rcnt = bench.rcnt ∧
      (bench.refill args turn).replyFutures.settled = bench.replyFutures.settled := by
  unfold Bench.refill
  split
  · obtain ⟨hist, lastTs, settled⟩ := issue_frame args turn.issue bench
    exact ⟨hist, lastTs, Bench.issue_rcnt _ _ _, settled⟩
  · exact ⟨rfl, rfl, rfl, rfl⟩

theorem count_frame (args : Args) (turn : Turn) (latency reqSize : Nat) (bench : Bench) :
    (bench.count args turn latency reqSize).hist = bench.hist ∧
      (bench.count args turn latency reqSize).lastTs = bench.lastTs := by
  unfold Bench.count
  simp only
  split
  · exact ⟨rfl, rfl⟩
  · exact ⟨rfl, rfl⟩

theorem report_clears (reports : Reports args bench turn) (warm : args.warmup < bench.rcnt)
    (reads : args.logLatency = true) : (bench.report args turn).hist = [] := by
  obtain ⟨interval, given, due⟩ := reports
  unfold Bench.report
  rw [given]
  simp only
  rw [if_pos due]
  unfold Bench.print
  rw [if_pos warm]
  simp only
  rw [if_pos reads]

theorem report_keeps
    (quiet : ¬(args.warmup < bench.rcnt ∧ args.logLatency = true ∧ Reports args bench turn)) :
    (bench.report args turn).hist = bench.hist := by
  unfold Bench.report
  cases given : args.interval with
  | none => rfl
  | some interval =>
      simp only
      split
      · next due =>
          simp only
          unfold Bench.print
          split
          · next warm =>
              have silent : ¬args.logLatency = true := by
                intro reads
                exact quiet ⟨warm, reads, interval, given, due⟩
              simp only
              rw [if_neg silent]
          · rfl
      · rfl

/-- The response joins those after the warmup, if it is one of them. -/
theorem countedAfterWarmup_append {after : Bench} {serial : Nat} {counted : Counted}
    (kept : bench.Kept args)
    (settled : after.replyFutures.settled = bench.replyFutures.settled ++ [(serial, counted)]) :
    countedAfterWarmup args after =
      if args.warmup ≤ bench.rcnt then countedAfterWarmup args bench ++ [counted]
      else countedAfterWarmup args bench := by
  have length : (bench.replyFutures.settled.map Prod.snd).length = bench.rcnt := by
    rw [List.length_map, kept.settled_length]
  unfold countedAfterWarmup
  rw [settled, List.map_append]
  split
  · next warm =>
      rw [List.drop_append_of_le_length (by omega)]
      rfl
  · next cold =>
      have longer : (bench.replyFutures.settled.map Prod.snd ++
          [(serial, counted)].map Prod.snd).length ≤ args.warmup := by
        rw [List.length_append, length]
        exact Nat.lt_of_not_le cold
      rw [List.drop_eq_nil_of_le longer, List.drop_eq_nil_of_le (by omega)]

theorem receive_samples (kept : bench.Kept args)
    (inside : turn.index < bench.replyFutures.outstanding.length) {call : RpcCall}
    (quick : elapsed call.start turn.reply ≤ 60000000000) (histogram : Histogram) :
    ∃ counted : Counted,
      countedAfterWarmup args (bench.receive args histogram turn call) =
          (if args.warmup ≤ bench.rcnt then countedAfterWarmup args bench ++ [counted]
            else countedAfterWarmup args bench) ∧
        (args.warmup < bench.rcnt + 1 ∧ args.logLatency = true ∧ Reports args bench turn →
          (bench.receive args histogram turn call).hist = []) ∧
        (¬(args.warmup < bench.rcnt + 1 ∧ args.logLatency = true ∧ Reports args bench turn) →
          (bench.receive args histogram turn call).hist =
            if args.warmup ≤ bench.rcnt then bench.hist ++ [counted.latency] else bench.hist) := by
  have recordable := histogram.within _ quick
  unfold Bench.receive
  simp only
  generalize elapsed call.start turn.reply = latency at *
  have recorded : (bench.record args histogram latency).hist =
        (if args.warmup ≤ bench.rcnt then bench.hist ++ [latency] else bench.hist) ∧
      (bench.record args histogram latency).lastTs = bench.lastTs := by
    unfold Bench.record
    by_cases warm : args.warmup ≤ bench.rcnt
    · rw [if_pos ⟨warm, recordable⟩, if_pos warm]
      exact ⟨rfl, rfl⟩
    · rw [if_neg (fun both => warm both.1), if_neg warm]
      exact ⟨rfl, rfl⟩
  have same := Bench.record_same args histogram latency bench
  generalize bench.record args histogram latency = before at *
  have counted := Bench.count_core args turn latency call.reqSize before
  have countedFrame := count_frame args turn latency call.reqSize before
  generalize before.count args turn latency call.reqSize = counting at *
  obtain ⟨hist, lastTs, rcnt, settled⟩ := refill_frame args turn counting
  generalize counting.refill args turn = filled at *
  have reported := Bench.report_same args turn filled
  have due : Reports args filled turn ↔ Reports args bench turn := by
    unfold Reports
    rw [lastTs, countedFrame.2, recorded.2]
  have rcntEq : filled.rcnt = bench.rcnt + 1 := by
    rw [rcnt, counted.rcnt, same.rcnt]
  have histEq : filled.hist =
      if args.warmup ≤ bench.rcnt then bench.hist ++ [latency] else bench.hist := by
    rw [hist, countedFrame.1, recorded.1]
  refine ⟨{ latency, reqSize := call.reqSize }, ?_, ?_, ?_⟩
  · have futures : counting.replyFutures = bench.replyFutures.settle turn.index
        { latency, reqSize := call.reqSize } :=
      counted.replyFutures.trans (by rw [same.replyFutures])
    apply countedAfterWarmup_append kept
    rw [reported.replyFutures, settled, futures, Ledger.settled_settle inside]
  · intro clears
    apply report_clears (due.mpr clears.2.2) _ clears.2.1
    rw [rcntEq]
    exact clears.1
  · intro keeps
    rw [report_keeps, histEq]
    intro clears
    rw [rcntEq] at clears
    exact keeps ⟨clears.1, clears.2.1, due.mp clears.2.2⟩

/-- A turn leaves samples and responses as they are, adds the sample of one more
response, or clears the samples with that response among them. -/
theorem select_samples (kept : bench.Kept args) (quick : Quick bench turn)
    (histogram : Histogram) (clock : Prologue) :
    (¬Clears args clock bench turn ∧
        (bench.turn args histogram clock turn).hist = bench.hist ∧
        countedAfterWarmup args (bench.turn args histogram clock turn) =
          countedAfterWarmup args bench) ∨
      ∃ counted : Counted,
        countedAfterWarmup args (bench.turn args histogram clock turn) =
            countedAfterWarmup args bench ++ [counted] ∧
          (¬Clears args clock bench turn ∧
              (bench.turn args histogram clock turn).hist = bench.hist ++ [counted.latency] ∨
            Clears args clock bench turn ∧
              (bench.turn args histogram clock turn).hist = []) := by
  by_cases running : bench.outcome = .running
  · rcases Bench.turn_cases kept running histogram clock turn with
      ⟨waiting, same⟩ | ⟨leaves, same⟩ | ⟨_, empty, same⟩ | ⟨stays, inside, entry, _, _, found, same⟩
    · rw [same]
      refine Or.inl ⟨?_, rfl, rfl⟩
      intro clears
      exact waiting (fun _ => Or.inr clears.2.2.1)
    · rw [same]
      exact Or.inl ⟨fun clears => clears.2.1 leaves, rfl, rfl⟩
    · rw [same]
      refine Or.inl ⟨?_, rfl, rfl⟩
      intro clears
      have inside := clears.2.2.1
      rw [empty] at inside
      exact absurd inside (Nat.not_lt_zero _)
    · obtain ⟨counted, after, cleared, keeps⟩ :=
        receive_samples kept inside (quick entry found) histogram
      rw [same]
      by_cases clears : Clears args clock bench turn
      · have warm : args.warmup ≤ bench.rcnt := Nat.le_of_lt_succ clears.2.2.2.1
        rw [if_pos warm] at after
        exact Or.inr ⟨counted, after, Or.inr ⟨clears, cleared clears.2.2.2⟩⟩
      · have hist := keeps fun reads => clears ⟨running, stays, inside, reads⟩
        by_cases warm : args.warmup ≤ bench.rcnt
        · rw [if_pos warm] at after hist
          exact Or.inr ⟨counted, after, Or.inl ⟨clears, hist⟩⟩
        · rw [if_neg warm] at after hist
          exact Or.inl ⟨clears, hist, after⟩
  · rw [Bench.turn_stopped running]
    exact Or.inl ⟨fun clears => running clears.1, rfl, rfl⟩

theorem Full.select (full : Full args bench) (kept : bench.Kept args) (quick : Quick bench turn)
    (histogram : Histogram) (clock : Prologue) :
    ¬Clears args clock bench turn ∧ Full args (bench.turn args histogram clock turn) ∨
      Clears args clock bench turn ∧ Lossy args (bench.turn args histogram clock turn) := by
  unfold Full at full
  rcases select_samples kept quick histogram clock with
    ⟨keeps, hist, after⟩ | ⟨counted, after, ⟨keeps, hist⟩ | ⟨clears, hist⟩⟩
  · apply Or.inl
    refine ⟨keeps, ?_⟩
    unfold Full
    rw [hist, after, full]
  · apply Or.inl
    refine ⟨keeps, ?_⟩
    unfold Full
    rw [hist, after, full, List.map_append]
    rfl
  · apply Or.inr
    refine ⟨clears, ?_⟩
    unfold Lossy
    rw [hist, after, List.length_append]
    exact Nat.succ_pos _

theorem Lossy.select (lossy : Lossy args bench) (kept : bench.Kept args) (quick : Quick bench turn)
    (histogram : Histogram) (clock : Prologue) :
    Lossy args (bench.turn args histogram clock turn) := by
  unfold Lossy at lossy ⊢
  rcases select_samples kept quick histogram clock with
    ⟨_, hist, after⟩ | ⟨counted, after, ⟨_, hist⟩ | ⟨_, hist⟩⟩
  · rw [hist, after]
    exact lossy
  · rw [hist, after, List.length_append, List.length_append]
    exact Nat.add_lt_add_right lossy 1
  · rw [hist, after, List.length_append]
    exact Nat.succ_pos _

theorem lossy_run (args : Args) (histogram : Histogram) (clock : Prologue) (turns : List Turn) :
    ∀ bench, bench.Kept args → Lossy args bench →
      Along (Bench.turn args histogram clock) Quick bench turns →
      Lossy args (run (Bench.turn args histogram clock) bench turns) := by
  intro bench kept lossy quick
  have both : (run (Bench.turn args histogram clock) bench turns).Kept args ∧
      Lossy args (run (Bench.turn args histogram clock) bench turns) := by
    apply run_invariant_along (Bench.turn args histogram clock) Quick
      (fun bench => bench.Kept args ∧ Lossy args bench)
    · intro bench turn both quick
      exact ⟨both.1.select, both.2.select both.1 quick histogram clock⟩
    · exact ⟨kept, lossy⟩
    · exact quick
  exact both.2

/-- The samples stay whole exactly as long as no report clears them. -/
theorem full_run (args : Args) (histogram : Histogram) (clock : Prologue) (turns : List Turn) :
    ∀ bench, bench.Kept args → Full args bench →
      Along (Bench.turn args histogram clock) Quick bench turns →
      (Along (Bench.turn args histogram clock)
            (fun bench turn => ¬Clears args clock bench turn) bench turns ∧
          Full args (run (Bench.turn args histogram clock) bench turns)) ∨
        (¬Along (Bench.turn args histogram clock)
            (fun bench turn => ¬Clears args clock bench turn) bench turns ∧
          Lossy args (run (Bench.turn args histogram clock) bench turns)) := by
  induction turns with
  | nil =>
      intro bench _ full _
      exact Or.inl ⟨trivial, full⟩
  | cons turn turns ih =>
      intro bench kept full quick
      rw [run_cons]
      rcases full.select kept quick.1 histogram clock with ⟨keeps, full'⟩ | ⟨clears, lossy⟩
      · rcases ih _ kept.select full' quick.2 with ⟨along, rest⟩ | ⟨clears, lossy⟩
        · exact Or.inl ⟨⟨keeps, along⟩, rest⟩
        · exact Or.inr ⟨fun along => clears along.2, lossy⟩
      · apply Or.inr
        refine ⟨fun along => along.1 clears, ?_⟩
        exact lossy_run args histogram clock turns _ kept.select lossy quick.2

theorem full_sendFirst (args : Args) (clock : Prologue) (fuel : Nat) :
    ∀ bench : Bench, bench.hist = [] → bench.replyFutures.settled = [] →
      Full args (Bench.sendFirst args clock fuel bench) := by
  induction fuel with
  | zero =>
      intro bench hist settled
      unfold Full countedAfterWarmup Bench.sendFirst
      rw [hist, settled]
      simp only [List.map_nil, List.drop_nil]
  | succ fuel ih =>
      intro bench hist settled
      unfold Bench.sendFirst
      split
      · obtain ⟨hist', _, settled'⟩ := issue_frame args (clock.issue bench.scnt) bench
        exact ih _ (hist'.trans hist) (settled'.trans settled)
      · unfold Full countedAfterWarmup
        rw [hist, settled]
        simp only [List.map_nil, List.drop_nil]

theorem full_start (args : Args) (clock : Prologue) : Full args (Bench.start args clock) :=
  full_sendFirst args clock args.concurrency _ rfl rfl

end Histogram

/-- For every run with calls of at most a minute, the histogram covers the
responses after the warmup if and only if no report has cleared it. -/
theorem covers_run_iff (args : Args) (histogram : Histogram) (clock : Prologue) (turns : List Turn)
    (quick : Along (Bench.turn args histogram clock) Quick (Bench.start args clock) turns) :
    CoversRun args (runBench args histogram clock turns) ↔
      Along (Bench.turn args histogram clock) (fun bench turn => ¬Clears args clock bench turn)
        (Bench.start args clock) turns := by
  rcases full_run args histogram clock turns (Bench.start args clock)
      (Bench.kept_start args clock) (full_start args clock) quick with
    ⟨along, full⟩ | ⟨clears, lossy⟩
  · constructor
    · intro _
      exact along
    · intro _
      exact List.Perm.of_eq full
  · constructor
    · intro covers
      have lengths := covers.length_eq
      rw [List.length_map] at lengths
      exact absurd lengths (Nat.ne_of_lt lossy)
    · intro along
      exact absurd along clears

def reporting : Args := { threeCalls with logLatency := true, interval := some 3 }

/-- The only report is due with the warmup, and reads nothing. -/
theorem covers_run_reporting :
    CoversRun reporting (runBench reporting minuteHistogram zeroClock
      [turnAt 1 5, turnAt 0 6, turnAt 0 7, turnAt 0 8]) := by
  have quick : Along (Bench.turn reporting minuteHistogram zeroClock) Quick
      (Bench.start reporting zeroClock) [turnAt 1 5, turnAt 0 6, turnAt 0 7, turnAt 0 8] :=
    ⟨quick_of_early _ (by decide), quick_of_early _ (by decide), quick_of_early _ (by decide),
      quick_of_early _ (by decide), trivial⟩
  apply (covers_run_iff reporting minuteHistogram zeroClock
    [turnAt 1 5, turnAt 0 6, turnAt 0 7, turnAt 0 8] quick).mpr
  refine ⟨?_, ?_, ?_, ?_, trivial⟩
  · intro clears
    exact absurd clears.2.2.2.1 (by decide)
  · intro clears
    obtain ⟨interval, given, due⟩ := clears.2.2.2.2.2
    cases given
    exact absurd due (by decide)
  · intro clears
    obtain ⟨interval, given, due⟩ := clears.2.2.2.2.2
    cases given
    exact absurd due (by decide)
  · intro clears
    exact clears.2.1 (by decide)

/-- The report that is due with the last response leaves no sample. -/
theorem report_empties_summary :
    ¬∀ (args : Args) (histogram : Histogram) (clock : Prologue) (turns : List Turn),
      Along (Bench.turn args histogram clock) Bench.Ready (Bench.start args clock) turns →
      Along (Bench.turn args histogram clock) Quick (Bench.start args clock) turns →
      (runBench args histogram clock turns).outcome = .done →
      CoversRun args (runBench args histogram clock turns) := by
  intro always
  have ready : Along (Bench.turn reporting minuteHistogram zeroClock) Bench.Ready
      (Bench.start reporting zeroClock) [turnAt 1 5, turnAt 0 6, turnAt 0 9, turnAt 0 10] :=
    ⟨fun _ => Or.inr (by decide), fun _ => Or.inr (by decide), fun _ => Or.inr (by decide),
      fun _ => Or.inl (by decide), trivial⟩
  have quick : Along (Bench.turn reporting minuteHistogram zeroClock) Quick
      (Bench.start reporting zeroClock) [turnAt 1 5, turnAt 0 6, turnAt 0 9, turnAt 0 10] :=
    ⟨quick_of_early _ (by decide), quick_of_early _ (by decide), quick_of_early _ (by decide),
      quick_of_early _ (by decide), trivial⟩
  have covers := always reporting minuteHistogram zeroClock
    [turnAt 1 5, turnAt 0 6, turnAt 0 9, turnAt 0 10] ready quick (by decide)
  have lengths := covers.length_eq
  exact absurd lengths (by decide)

end RpcBench.RpcHello
