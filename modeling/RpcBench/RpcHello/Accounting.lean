import RpcBench.RpcHello.Client

/-! # Request accounting of `run_bench`

The counters, the set of futures and the two ways out of the loop stay in
step; the set runs dry only when the last response was counted. -/
set_option autoImplicit false

namespace RpcBench.RpcHello

open Machine

namespace Bench

structure SameCore (left right : Bench) : Prop where
  replyFutures : left.replyFutures = right.replyFutures
  requested : left.requested = right.requested
  scnt : left.scnt = right.scnt
  rcnt : left.rcnt = right.rcnt
  nbytes : left.nbytes = right.nbytes
  outcome : left.outcome = right.outcome

structure Kept (args : Args) (bench : Bench) : Prop where
  held : bench.scnt = bench.rcnt + bench.replyFutures.outstanding.length
  window : bench.replyFutures.outstanding.length ≤ args.concurrency
  sent : bench.scnt ≤ args.limit
  refilled : bench.outcome = .panicked ∨ bench.scnt = args.limit ∨
    bench.replyFutures.outstanding.length = args.concurrency
  bytes : bench.nbytes = bench.rcnt * args.reqSize % 2 ^ 64
  requested : bench.requested = List.range bench.scnt
  issued : bench.replyFutures.issued = bench.scnt
  sizes : ∀ entry ∈ bench.replyFutures.outstanding, entry.2.reqSize = args.reqSize
  counted : ∀ entry ∈ bench.replyFutures.settled, entry.2.reqSize = args.reqSize

variable {args : Args} {histogram : Histogram} {clock : Prologue} {turn : Turn} {bench : Bench}

theorem Kept.same {other : Bench} (kept : Kept args bench) (same : SameCore other bench) :
    Kept args other := by
  constructor
  case held => rw [same.scnt, same.rcnt, same.replyFutures, kept.held]
  case window => rw [same.replyFutures]; exact kept.window
  case sent => rw [same.scnt]; exact kept.sent
  case refilled => rw [same.outcome, same.scnt, same.replyFutures]; exact kept.refilled
  case bytes => rw [same.nbytes, same.rcnt, kept.bytes]
  case requested => rw [same.requested, same.scnt, kept.requested]
  case issued => rw [same.replyFutures, same.scnt, kept.issued]
  case sizes => rw [same.replyFutures]; exact kept.sizes
  case counted => rw [same.replyFutures]; exact kept.counted

theorem record_same (args : Args) (histogram : Histogram) (latency : Nat) (bench : Bench) :
    SameCore (bench.record args histogram latency) bench := by
  unfold record
  split
  · exact ⟨rfl, rfl, rfl, rfl, rfl, rfl⟩
  · exact ⟨rfl, rfl, rfl, rfl, rfl, rfl⟩

theorem report_same (args : Args) (turn : Turn) (bench : Bench) :
    SameCore (bench.report args turn) bench := by
  unfold report print
  split
  · exact ⟨rfl, rfl, rfl, rfl, rfl, rfl⟩
  · simp only
    split
    · split
      · exact ⟨rfl, rfl, rfl, rfl, rfl, rfl⟩
      · exact ⟨rfl, rfl, rfl, rfl, rfl, rfl⟩
    · exact ⟨rfl, rfl, rfl, rfl, rfl, rfl⟩

theorem issue_cases (args : Args) (now : UInt64) (bench : Bench) :
    args.provisionCount = 0 ∧ bench.issue args now = { bench with outcome := .panicked } ∨
      0 < args.provisionCount ∧ ∃ call, call.reqSize = args.reqSize ∧
        bench.issue args now =
          { bench with
            replyFutures := bench.replyFutures.issue call
            requested := bench.requested ++ [bench.scnt]
            scnt := bench.scnt + 1 } := by
  unfold issue makeCall
  by_cases empty : args.provisionCount = 0
  · rw [if_pos empty]
    exact Or.inl ⟨empty, rfl⟩
  · rw [if_neg empty]
    exact Or.inr ⟨Nat.pos_of_ne_zero empty, _, rfl, rfl⟩

structure Sending (args : Args) (room : Nat) (bench : Bench) : Prop where
  held : bench.scnt = bench.rcnt + bench.replyFutures.outstanding.length
  window : bench.replyFutures.outstanding.length + room = args.concurrency
  sent : bench.scnt ≤ args.limit
  bytes : bench.nbytes = bench.rcnt * args.reqSize % 2 ^ 64
  requested : bench.requested = List.range bench.scnt
  issued : bench.replyFutures.issued = bench.scnt
  sizes : ∀ entry ∈ bench.replyFutures.outstanding, entry.2.reqSize = args.reqSize
  counted : ∀ entry ∈ bench.replyFutures.settled, entry.2.reqSize = args.reqSize

theorem Sending.kept {room : Nat} (sending : Sending args room bench)
    (stopped : bench.outcome = .panicked ∨ bench.scnt = args.limit ∨ room = 0) :
    Kept args bench := by
  have window := sending.window
  constructor
  case held => exact sending.held
  case window => omega
  case sent => exact sending.sent
  case refilled =>
    rcases stopped with panicked | exhausted | full
    · exact Or.inl panicked
    · exact Or.inr (Or.inl exhausted)
    · exact Or.inr (Or.inr (by omega))
  case bytes => exact sending.bytes
  case requested => exact sending.requested
  case issued => exact sending.issued
  case sizes => exact sending.sizes
  case counted => exact sending.counted

theorem Sending.issue {room : Nat} (sending : Sending args (room + 1) bench) (now : UInt64)
    (more : bench.scnt < args.limit) :
    (bench.issue args now).outcome = .panicked ∧ Sending args (room + 1) (bench.issue args now) ∨
      (bench.issue args now).outcome = bench.outcome ∧ Sending args room (bench.issue args now) := by
  rcases issue_cases args now bench with ⟨_, panicked⟩ | ⟨_, call, size, issued⟩
  · rw [panicked]
    apply Or.inl
    refine ⟨rfl, ?_⟩
    exact ⟨sending.held, sending.window, sending.sent, sending.bytes, sending.requested,
      sending.issued, sending.sizes, sending.counted⟩
  · rw [issued]
    apply Or.inr
    refine ⟨rfl, ?_⟩
    have longer := bench.replyFutures.length_outstanding_issue call
    have held := sending.held
    have window := sending.window
    constructor
    case held =>
      simp only
      omega
    case window =>
      simp only
      omega
    case sent => exact more
    case bytes => exact sending.bytes
    case requested =>
      simp only
      rw [sending.requested, List.range_succ]
    case issued =>
      simp only [Ledger.issued_issue]
      rw [sending.issued]
    case sizes =>
      intro entry member
      cases List.mem_append.mp member with
      | inl old => exact sending.sizes entry old
      | inr new =>
          rw [List.mem_singleton.mp new]
          exact size
    case counted => exact sending.counted

theorem issue_rcnt (args : Args) (now : UInt64) (bench : Bench) :
    (bench.issue args now).rcnt = bench.rcnt := by
  unfold issue
  split
  · rfl
  · rfl

theorem sendFirst_panicked (args : Args) (clock : Prologue) (fuel : Nat) {bench : Bench}
    (panicked : bench.outcome = .panicked) : sendFirst args clock fuel bench = bench := by
  cases fuel with
  | zero => rfl
  | succ fuel =>
      unfold sendFirst
      rw [if_neg]
      intro going
      exact absurd (panicked.symm.trans going.1) (by decide)

theorem kept_sendFirst (args : Args) (clock : Prologue) (room : Nat) :
    ∀ bench, bench.outcome = .running → bench.rcnt = 0 → Sending args room bench →
      Kept args (sendFirst args clock room bench) := by
  induction room with
  | zero =>
      intro bench _ _ sending
      exact sending.kept (Or.inr (Or.inr rfl))
  | succ room ih =>
      intro bench running unanswered sending
      have held := sending.held
      have window := sending.window
      have sent := sending.sent
      unfold sendFirst
      split
      · next more =>
          rcases sending.issue (clock.issue bench.scnt) more.2.2 with
            ⟨panicked, still⟩ | ⟨outcome, next⟩
          · rw [sendFirst_panicked args clock room panicked]
            exact still.kept (Or.inl panicked)
          · exact ih _ (outcome.trans running) ((issue_rcnt _ _ _).trans unanswered) next
      · next stop =>
          apply sending.kept
          apply Or.inr
          apply Or.inl
          by_contra unsent
          exact stop ⟨running, by omega, by omega⟩

theorem kept_start (args : Args) (clock : Prologue) : Kept args (start args clock) := by
  apply kept_sendFirst args clock args.concurrency
  · rfl
  · rfl
  · constructor
    case held => rfl
    case window => exact Nat.zero_add _
    case sent => exact Nat.zero_le _
    case bytes => rw [Nat.zero_mul, Nat.zero_mod]
    case requested => rfl
    case issued => rfl
    case sizes =>
      intro entry member
      cases member
    case counted =>
      intro entry member
      cases member

theorem count_core (args : Args) (turn : Turn) (latency reqSize : Nat) (bench : Bench) :
    SameCore (bench.count args turn latency reqSize)
      { bench with
        replyFutures := bench.replyFutures.settle turn.index { latency, reqSize }
        nbytes := (bench.nbytes + reqSize) % 2 ^ 64
        rcnt := bench.rcnt + 1 } := by
  unfold count
  simp only
  split
  · exact ⟨rfl, rfl, rfl, rfl, rfl, rfl⟩
  · exact ⟨rfl, rfl, rfl, rfl, rfl, rfl⟩

theorem Kept.count (kept : Kept args bench) (running : bench.outcome = .running)
    (inside : turn.index < bench.replyFutures.outstanding.length) (latency : Nat) :
    ∃ room, (bench.scnt = args.limit ∨ room = 0) ∧
      Sending args (room + 1)
        { bench with
          replyFutures := bench.replyFutures.settle turn.index { latency, reqSize := args.reqSize }
          nbytes := (bench.nbytes + args.reqSize) % 2 ^ 64
          rcnt := bench.rcnt + 1 } := by
  have shorter := Ledger.length_outstanding_settle
    ({ latency, reqSize := args.reqSize } : Counted) inside
  have held := kept.held
  have window := kept.window
  refine ⟨args.concurrency - bench.replyFutures.outstanding.length, ?_, ?_⟩
  · rcases kept.refilled with panicked | exhausted | full
    · exact absurd (panicked.symm.trans running) (by decide)
    · exact Or.inl exhausted
    · exact Or.inr (by omega)
  · constructor
    case held =>
      simp only
      omega
    case window =>
      simp only
      omega
    case sent => exact kept.sent
    case bytes =>
      simp only
      rw [kept.bytes, Nat.mod_add_mod, Nat.succ_mul]
    case requested => exact kept.requested
    case issued => exact kept.issued
    case sizes =>
      intro entry member
      exact kept.sizes entry (List.mem_of_mem_eraseIdx member)
    case counted =>
      intro entry member
      rw [Ledger.settled_settle inside] at member
      cases List.mem_append.mp member with
      | inl old => exact kept.counted entry old
      | inr new => rw [List.mem_singleton.mp new]

theorem Sending.same {room : Nat} {other : Bench} (sending : Sending args room bench)
    (same : SameCore other bench) : Sending args room other := by
  constructor
  case held => rw [same.scnt, same.rcnt, same.replyFutures, sending.held]
  case window => rw [same.replyFutures]; exact sending.window
  case sent => rw [same.scnt]; exact sending.sent
  case bytes => rw [same.nbytes, same.rcnt, sending.bytes]
  case requested => rw [same.requested, same.scnt, sending.requested]
  case issued => rw [same.replyFutures, same.scnt, sending.issued]
  case sizes => rw [same.replyFutures]; exact sending.sizes
  case counted => rw [same.replyFutures]; exact sending.counted

theorem Sending.refill {room : Nat} (sending : Sending args (room + 1) bench) (turn : Turn)
    (small : bench.scnt = args.limit ∨ room = 0) (running : bench.outcome = .running) :
    Kept args (bench.refill args turn) ∧ (bench.refill args turn).rcnt = bench.rcnt ∧
      ((bench.refill args turn).outcome = .running ∨
        args.provisionCount = 0 ∧ (bench.refill args turn).outcome = .panicked) := by
  unfold Bench.refill
  split
  · next more =>
      refine ⟨?_, issue_rcnt _ _ _, ?_⟩
      · rcases sending.issue turn.issue more with ⟨panicked, still⟩ | ⟨_, next⟩
        · exact still.kept (Or.inl panicked)
        · apply next.kept
          rcases small with exhausted | full
          · exact absurd exhausted (Nat.ne_of_lt more)
          · exact Or.inr (Or.inr full)
      · rcases issue_cases args turn.issue bench with ⟨empty, panicked⟩ | ⟨_, call, _, issued⟩
        · exact Or.inr ⟨empty, by rw [panicked]⟩
        · apply Or.inl
          rw [issued]
          exact running
  · next enough =>
      have sent := sending.sent
      exact ⟨sending.kept (Or.inr (Or.inl (by omega))), rfl, Or.inl running⟩

theorem Kept.receive (kept : Kept args bench) (running : bench.outcome = .running)
    (inside : turn.index < bench.replyFutures.outstanding.length) {call : RpcCall}
    (size : call.reqSize = args.reqSize) (histogram : Histogram) :
    Kept args (bench.receive args histogram turn call) ∧
      (bench.receive args histogram turn call).rcnt = bench.rcnt + 1 ∧
      ((bench.receive args histogram turn call).outcome = .running ∨
        args.provisionCount = 0 ∧
          (bench.receive args histogram turn call).outcome = .panicked) := by
  unfold Bench.receive
  simp only
  generalize latencyEq : elapsed call.start turn.reply = latency
  have recorded := record_same args histogram latency bench
  have kept' := kept.same recorded
  rw [← recorded.replyFutures] at inside
  rw [← recorded.outcome] at running
  rw [← recorded.rcnt, size]
  generalize bench.record args histogram latency = before at *
  obtain ⟨room, small, sending⟩ := kept'.count running inside latency
  have counted := count_core args turn latency args.reqSize before
  have sending' := sending.same counted
  have refilled := sending'.refill turn
    (small.imp_left fun exhausted => counted.scnt.trans exhausted) (counted.outcome.trans running)
  have reported := report_same args turn
    ((before.count args turn latency args.reqSize).refill args turn)
  refine ⟨refilled.1.same reported, ?_, ?_⟩
  · rw [reported.rcnt, refilled.2.1, counted.rcnt]
  · rw [reported.outcome]
    exact refilled.2.2

/-! ## One turn -/

def Ready (bench : Bench) (turn : Turn) : Prop :=
  bench.outcome = .running →
    bench.replyFutures.outstanding = [] ∨ turn.index < bench.replyFutures.outstanding.length

theorem turn_cases (kept : Kept args bench) (running : bench.outcome = .running)
    (histogram : Histogram) (clock : Prologue) (turn : Turn) :
    (¬bench.Ready turn ∧ bench.turn args histogram clock turn = bench) ∨
      (bench.leaves args clock turn ∧
        bench.turn args histogram clock turn = { bench with outcome := .done }) ∨
      (¬bench.leaves args clock turn ∧ bench.replyFutures.outstanding = [] ∧
        bench.turn args histogram clock turn = { bench with outcome := .panicked }) ∨
      (¬bench.leaves args clock turn ∧
        turn.index < bench.replyFutures.outstanding.length ∧
        ∃ entry ∈ bench.replyFutures.outstanding, entry.2.reqSize = args.reqSize ∧
          bench.replyFutures.outstanding[turn.index]? = some entry ∧
          bench.turn args histogram clock turn = bench.receive args histogram turn entry.2) := by
  unfold Bench.turn
  rw [if_pos running]
  by_cases empty : bench.replyFutures.outstanding = []
  · rw [if_pos empty]
    by_cases leaves : bench.leaves args clock turn
    · rw [if_pos leaves]
      exact Or.inr (Or.inl ⟨leaves, rfl⟩)
    · rw [if_neg leaves]
      exact Or.inr (Or.inr (Or.inl ⟨leaves, empty, rfl⟩))
  · rw [if_neg empty]
    by_cases inside : turn.index < bench.replyFutures.outstanding.length
    · rw [List.getElem?_eq_getElem inside]
      have member := List.getElem_mem inside
      by_cases leaves : bench.leaves args clock turn
      · exact Or.inr (Or.inl ⟨leaves, if_pos leaves⟩)
      · apply Or.inr
        apply Or.inr
        apply Or.inr
        exact ⟨leaves, inside, _, member, kept.sizes _ member, rfl, if_neg leaves⟩
    · rw [List.getElem?_eq_none (Nat.le_of_not_lt inside)]
      apply Or.inl
      refine ⟨?_, rfl⟩
      intro ready
      rcases ready running with none_left | found
      · exact empty none_left
      · exact inside found

theorem turn_stopped (stopped : bench.outcome ≠ .running) :
    bench.turn args histogram clock turn = bench := if_neg stopped

theorem run_stopped (stopped : bench.outcome ≠ .running) (turns : List Turn) :
    run (Bench.turn args histogram clock) bench turns = bench := by
  induction turns with
  | nil => rfl
  | cons turn turns ih => rw [run_cons, turn_stopped stopped, ih]

theorem Kept.outcome (kept : Kept args bench) (running : bench.outcome = .running)
    (outcome : Outcome) : Kept args { bench with outcome } := by
  constructor
  case held => exact kept.held
  case window => exact kept.window
  case sent => exact kept.sent
  case refilled =>
    rcases kept.refilled with panicked | rest
    · exact absurd (panicked.symm.trans running) (by decide)
    · exact Or.inr rest
  case bytes => exact kept.bytes
  case requested => exact kept.requested
  case issued => exact kept.issued
  case sizes => exact kept.sizes
  case counted => exact kept.counted

theorem Kept.select (kept : Kept args bench) :
    Kept args (bench.turn args histogram clock turn) := by
  by_cases running : bench.outcome = .running
  · rcases turn_cases kept running histogram clock turn with
      ⟨_, same⟩ | ⟨_, same⟩ | ⟨_, _, same⟩ | ⟨_, inside, entry, _, size, _, same⟩
    · rw [same]
      exact kept
    · rw [same]
      exact kept.outcome running .done
    · rw [same]
      exact kept.outcome running .panicked
    · rw [same]
      exact (kept.receive running inside size histogram).1
  · rw [turn_stopped running]
    exact kept

end Bench

theorem kept_run (args : Args) (histogram : Histogram) (clock : Prologue) (turns : List Turn) :
    Bench.Kept args (runBench args histogram clock turns) := by
  apply run_invariant
  · intro bench turn kept
    exact kept.select
  · exact Bench.kept_start args clock

/-- The loop before the loop counts nothing, and panics only without a message
to send. -/
theorem sendFirst_outcome (args : Args) (clock : Prologue) (fuel : Nat) :
    ∀ bench, bench.outcome = .running →
      (Bench.sendFirst args clock fuel bench).rcnt = bench.rcnt ∧
        ((Bench.sendFirst args clock fuel bench).outcome = .running ∨
          args.provisionCount = 0 ∧
            (Bench.sendFirst args clock fuel bench).outcome = .panicked) := by
  induction fuel with
  | zero =>
      intro bench running
      exact ⟨rfl, Or.inl running⟩
  | succ fuel ih =>
      intro bench running
      unfold Bench.sendFirst
      split
      · rcases Bench.issue_cases args (clock.issue bench.scnt) bench with
          ⟨empty, panicked⟩ | ⟨_, call, _, issued⟩
        · have stopped : (bench.issue args (clock.issue bench.scnt)).outcome = .panicked := by
            rw [panicked]
          rw [Bench.sendFirst_panicked args clock fuel stopped]
          exact ⟨Bench.issue_rcnt _ _ _, Or.inr ⟨empty, stopped⟩⟩
        · have runs : (bench.issue args (clock.issue bench.scnt)).outcome = .running := by
            rw [issued]
            exact running
          obtain ⟨unanswered, outcome⟩ := ih _ runs
          exact ⟨unanswered.trans (Bench.issue_rcnt _ _ _), outcome⟩
      · exact ⟨rfl, Or.inl running⟩

theorem start_outcome (args : Args) (clock : Prologue) :
    (Bench.start args clock).rcnt = 0 ∧
      ((Bench.start args clock).outcome = .running ∨
        args.provisionCount = 0 ∧ (Bench.start args clock).outcome = .panicked) :=
  sendFirst_outcome args clock args.concurrency _ rfl

/-! ## Runs without a duration -/

section Unlimited

variable {args : Args} {histogram : Histogram} {clock : Prologue} {turn : Turn} {bench : Bench}

/-- An `u64` of nanoseconds is never more than `u64::MAX` milliseconds. -/
theorem not_timed_out (unlimited : args.duration = none) (since now : UInt64) :
    ¬elapsed since now > args.timeout := by
  have small : now.toNat < 2 ^ 64 := now.toNat_lt
  unfold elapsed Args.timeout
  rw [unlimited]
  simp only
  omega

theorem Bench.Kept.dry (kept : bench.Kept args) (running : bench.outcome = .running)
    (busy : 0 < args.concurrency) (empty : bench.replyFutures.outstanding = []) :
    bench.rcnt = args.limit ∧ bench.scnt = args.limit := by
  have held := kept.held
  rw [empty, List.length_nil] at held
  rcases kept.refilled with panicked | exhausted | full
  · exact absurd (panicked.symm.trans running) (by decide)
  · omega
  · rw [empty, List.length_nil] at full
    omega

theorem Bench.Kept.leaves_iff (kept : bench.Kept args) (unlimited : args.duration = none)
    (running : bench.outcome = .running) (busy : 0 < args.concurrency) :
    bench.leaves args clock turn ↔ bench.replyFutures.outstanding = [] := by
  unfold Bench.leaves
  constructor
  · intro leaves
    have held := kept.held
    have sent := kept.sent
    rcases leaves with counted | late
    · apply List.eq_nil_of_length_eq_zero
      omega
    · exact absurd late (not_timed_out unlimited _ _)
  · intro empty
    exact Or.inl (Nat.le_of_eq (kept.dry running busy empty).1.symm)

structure Finishes (args : Args) (bench : Bench) : Prop where
  kept : bench.Kept args
  whole : bench.outcome ≠ .panicked
  finished : bench.outcome = .done → bench.rcnt = args.limit ∧ bench.scnt = args.limit

theorem Finishes.progress (finishes : Finishes args bench) (unlimited : args.duration = none)
    (provisioned : 0 < args.provisionCount) (busy : 0 < args.concurrency)
    (running : bench.outcome = .running) (histogram : Histogram) (clock : Prologue) (turn : Turn) :
    Finishes args (bench.turn args histogram clock turn) ∧
      (bench.Ready turn → (bench.turn args histogram clock turn).outcome = .done ∨
        (bench.turn args histogram clock turn).outcome = .running ∧
          (bench.turn args histogram clock turn).rcnt = bench.rcnt + 1) := by
  have kept := finishes.kept
  have leavesIff : bench.leaves args clock turn ↔ _ := kept.leaves_iff unlimited running busy
  rcases Bench.turn_cases kept running histogram clock turn with
    ⟨waiting, same⟩ | ⟨leaves, same⟩ | ⟨stays, empty, _⟩ | ⟨_, inside, entry, _, size, _, same⟩
  · rw [same]
    exact ⟨finishes, fun ready => absurd ready waiting⟩
  · rw [same]
    refine ⟨?_, fun _ => Or.inl rfl⟩
    constructor
    case kept => exact kept.outcome running .done
    case whole => exact Outcome.noConfusion
    case finished =>
      intro _
      exact kept.dry running busy (leavesIff.mp leaves)
  · exact absurd (leavesIff.mpr empty) stays
  · rw [same]
    obtain ⟨kept', counted, outcome⟩ := kept.receive running inside size histogram
    rcases outcome with runs | ⟨unprovisioned, _⟩
    · refine ⟨?_, fun _ => Or.inr ⟨runs, counted⟩⟩
      constructor
      case kept => exact kept'
      case whole =>
        rw [runs]
        exact Outcome.noConfusion
      case finished =>
        intro ended
        exact absurd (runs.symm.trans ended) (by decide)
    · exact absurd unprovisioned (Nat.ne_of_gt provisioned)

theorem finishes_run (unlimited : args.duration = none) (provisioned : 0 < args.provisionCount)
    (busy : 0 < args.concurrency) (histogram : Histogram) (clock : Prologue) (turns : List Turn) :
    ∀ bench, Finishes args bench →
      Finishes args (run (Bench.turn args histogram clock) bench turns) := by
  apply run_invariant
  intro bench turn finishes
  by_cases running : bench.outcome = .running
  · exact (finishes.progress unlimited provisioned busy running histogram clock turn).1
  · rw [Bench.turn_stopped running]
    exact finishes

theorem ends (unlimited : args.duration = none) (provisioned : 0 < args.provisionCount)
    (busy : 0 < args.concurrency) (histogram : Histogram) (clock : Prologue) (turns : List Turn) :
    ∀ bench, Finishes args bench →
      Along (Bench.turn args histogram clock) Bench.Ready bench turns →
      args.limit < bench.rcnt + turns.length →
      (run (Bench.turn args histogram clock) bench turns).outcome = .done := by
  induction turns with
  | nil =>
      intro bench finishes _ enough
      have held := finishes.kept.held
      have sent := finishes.kept.sent
      rw [List.length_nil] at enough
      omega
  | cons turn turns ih =>
      intro bench finishes along enough
      rw [run_cons]
      by_cases running : bench.outcome = .running
      · obtain ⟨finishes', step⟩ :=
          finishes.progress unlimited provisioned busy running histogram clock turn
        rcases step along.1 with ended | ⟨_, counted⟩
        · rw [Bench.run_stopped (by rw [ended]; exact Outcome.noConfusion)]
          exact ended
        · apply ih _ finishes' along.2
          rw [counted]
          rw [List.length_cons] at enough
          omega
      · rw [Bench.turn_stopped running, Bench.run_stopped running]
        cases outcome : bench.outcome with
        | running => exact absurd outcome running
        | done => rfl
        | panicked => exact absurd outcome finishes.whole

theorem busy_of_issued (issued : 0 < (Bench.start args clock).scnt) : 0 < args.concurrency := by
  by_contra idle
  have none_issued : (Bench.start args clock).scnt = 0 := by
    unfold Bench.start
    rw [Nat.eq_zero_of_not_pos idle]
    rfl
  exact absurd none_issued (Nat.ne_of_gt issued)

theorem finishes_start (provisioned : 0 < args.provisionCount) (clock : Prologue) :
    Finishes args (Bench.start args clock) := by
  rcases (start_outcome args clock).2 with running | ⟨empty, _⟩
  · constructor
    case kept => exact Bench.kept_start args clock
    case whole =>
      rw [running]
      exact Outcome.noConfusion
    case finished =>
      intro ended
      exact absurd (running.symm.trans ended) (by decide)
  · exact absurd empty (Nat.ne_of_gt provisioned)

end Unlimited

structure Accounting (args : Args) (bench : Bench) : Prop where
  held : bench.scnt = bench.rcnt + bench.replyFutures.outstanding.length
  window : bench.replyFutures.outstanding.length ≤ args.concurrency
  limited : bench.rcnt ≤ args.iterations + args.warmup
  bytes : bench.rcnt * args.reqSize < 2 ^ 64 → bench.nbytes = bench.rcnt * args.reqSize
  requested : bench.requested = List.range bench.scnt

structure Completes (args : Args) (histogram : Histogram) (clock : Prologue) (turns : List Turn) :
    Prop where
  never_none : (runBench args histogram clock turns).outcome ≠ .panicked
  dry : (runBench args histogram clock turns).outcome = .running →
    (runBench args histogram clock turns).replyFutures.outstanding = [] →
      (runBench args histogram clock turns).rcnt = args.totalIters + args.warmup
  finished : (runBench args histogram clock turns).outcome = .done →
    (runBench args histogram clock turns).rcnt = args.totalIters + args.warmup ∧
      (runBench args histogram clock turns).scnt = args.totalIters + args.warmup
  ends : Along (Bench.turn args histogram clock) Bench.Ready (Bench.start args clock) turns →
    args.totalIters + args.warmup < turns.length →
      (runBench args histogram clock turns).outcome = .done

/-- For every order of completions and every clock the books balance at each
loop head, and a run without a duration that issued a request completes. -/
theorem run_bench_accounting (args : Args) (histogram : Histogram) (clock : Prologue)
    (turns : List Turn) (provisioned : 0 < args.provisionCount)
    (fits : args.iterations + args.warmup < 2 ^ 64) :
    Accounting args (runBench args histogram clock turns) ∧
      (args.duration = none → 0 < (Bench.start args clock).scnt →
        Completes args histogram clock turns) := by
  have limitEq : args.limit = args.iterations + args.warmup := Nat.mod_eq_of_lt fits
  have kept := kept_run args histogram clock turns
  constructor
  · have held := kept.held
    have sent := kept.sent
    constructor
    case held => exact held
    case window => exact kept.window
    case limited => omega
    case bytes =>
      intro small
      rw [kept.bytes, Nat.mod_eq_of_lt small]
    case requested => exact kept.requested
  · intro unlimited issued
    have busy := busy_of_issued issued
    have total : args.limit = args.totalIters + args.warmup := by
      rw [limitEq, Args.iterations, unlimited]
    have finishes : Finishes args (runBench args histogram clock turns) :=
      finishes_run unlimited provisioned busy histogram clock turns _ (finishes_start provisioned clock)
    constructor
    case never_none => exact finishes.whole
    case dry =>
      intro running empty
      rw [← total]
      exact (kept.dry running busy empty).1
    case finished =>
      intro ended
      rw [← total]
      exact finishes.finished ended
    case ends =>
      intro along enough
      apply ends unlimited provisioned busy histogram clock turns _ (finishes_start provisioned clock)
        along
      omega

def minuteHistogram : Histogram where
  recordable := fun value => decide (value ≤ 60000000000)
  within := fun _ small => decide_eq_true small

def zeroClock : Prologue := { lastTs := 0, start := 0, warmupEnd := 0, issue := fun _ => 0 }

def turnAt (index : Nat) (now : UInt64) : Turn :=
  { index, check := now, reply := now, warmupEnd := now, issue := now, report := now, reset := now }

/-- Two at a time, one for the warmup and two more, the second answer first. -/
def threeCalls : Args :=
  { logLatency := false, reqSize := 8, concurrency := 2, totalIters := 2, warmup := 1
    duration := none, interval := none, provisionCount := 1 }

theorem run_bench_accounting_threeCalls :
    Accounting threeCalls (runBench threeCalls minuteHistogram zeroClock
        [turnAt 1 5, turnAt 0 6, turnAt 0 7, turnAt 0 8]) ∧
      Completes threeCalls minuteHistogram zeroClock
        [turnAt 1 5, turnAt 0 6, turnAt 0 7, turnAt 0 8] := by
  have accounted := run_bench_accounting threeCalls minuteHistogram zeroClock
    [turnAt 1 5, turnAt 0 6, turnAt 0 7, turnAt 0 8] (by decide) (by decide)
  exact ⟨accounted.1, accounted.2 rfl (by decide)⟩

example :
    (runBench threeCalls minuteHistogram zeroClock
      [turnAt 1 5, turnAt 0 6, turnAt 0 7, turnAt 0 8]).outcome = .done := by
  decide

end RpcBench.RpcHello
