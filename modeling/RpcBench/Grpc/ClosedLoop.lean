import RpcBench.Lib.Ledger
import RpcBench.Lib.Run

/-! # The loop of the asynchronous clients

`GrpcTputClientApp::Job` and `HotelReservationClientApp::Run` are copies of
one loop that differ in how a request is made and what the meter is given;
`Client` holds the difference.  The completion queue returns the tag of some
outstanding call.  Times are nanoseconds since `start`. -/
set_option autoImplicit false

namespace RpcBench.Grpc

open Machine

/-- The arguments of `Meter::AddQps`. -/
structure AddQps where
  bytesAdd : Int
  qpsAdd : Int
  deriving DecidableEq, Repr

structure Outcome (Call : Type) where
  call : Call
  ok : Bool
  metered : Option AddQps
  deriving DecidableEq, Repr

structure Client (Source Call : Type) where
  generate : Source → Call × Source
  meterOk : Call → Option AddQps
  meterFailed : Option AddQps

structure Loop (Source Call : Type) where
  source : Source
  calls : Ledger Call (Outcome Call)
  reqCnt : Int
  count : Nat
  overlimit : Nat
  rxSize : UInt64
  timeout : Bool
  timeCnt : Nat
  clock : Nat

/-- One answer of `Next`: the place of the call among the outstanding ones, its
status, the size of the answer, and the time that passes in the turn. -/
structure Completion where
  index : Nat
  ok : Bool
  ackSize : UInt64
  elapsed : Nat

def timePeriod : Nat := 1000

section Loop

variable {Source Call : Type} (client : Client Source Call) (timeDura : Int)

/-- `new AsyncClientCall`. -/
def Loop.newCall (state : Loop Source Call) : Loop Source Call :=
  let (call, source) := client.generate state.source
  { state with source, calls := state.calls.issue call, reqCnt := state.reqCnt + 1 }

def Loop.issueMany : Nat → Loop Source Call → Loop Source Call
  | 0, state => state
  | more + 1, state => issueMany more (state.newCall client)

def Loop.start (concurrency : Int32) (source : Source) : Loop Source Call :=
  Loop.issueMany client concurrency.toInt.toNat
    { source, calls := .empty, reqCnt := 0, count := 0, overlimit := 0, rxSize := 0
      timeout := false, timeCnt := 0, clock := 0 }

def Loop.tally (completion : Completion) (state : Loop Source Call) : Loop Source Call :=
  if completion.ok then
    { state with count := state.count + 1, rxSize := state.rxSize + completion.ackSize }
  else { state with overlimit := state.overlimit + 1 }

/-- The meter, and `delete call`. -/
def Loop.retire (completion : Completion) (call : Call) (state : Loop Source Call) :
    Loop Source Call :=
  let metered := if completion.ok then client.meterOk call else client.meterFailed
  { state with
    calls := state.calls.settle completion.index { call, ok := completion.ok, metered }
    reqCnt := state.reqCnt - 1 }

def Loop.checkTime (completion : Completion) (state : Loop Source Call) : Loop Source Call :=
  let state :=
    { state with timeCnt := state.timeCnt + 1, clock := state.clock + completion.elapsed }
  if state.timeCnt ≥ timePeriod then
    { state with timeCnt := 0, timeout := decide ((state.clock : Int) > timeDura) }
  else state

def Loop.answer (completion : Completion) (call : Call) (state : Loop Source Call) :
    Loop Source Call :=
  ((state.tally completion).retire client completion call).checkTime timeDura completion

def Loop.refill (state : Loop Source Call) : Loop Source Call :=
  if !state.timeout then state.newCall client else state

/-- One turn of the loop; without an outstanding call at that place there is no
such answer. -/
def Loop.turn (state : Loop Source Call) (completion : Completion) : Loop Source Call :=
  if state.reqCnt > 0 then
    match state.calls.outstanding[completion.index]? with
    | none => state
    | some (_, call) => (state.answer client timeDura completion call).refill client
  else state

def Loop.Delivers (state : Loop Source Call) (completion : Completion) : Prop :=
  state.reqCnt > 0 ∧ completion.index < state.calls.outstanding.length

end Loop

/-! ## What the loop keeps -/

structure Accounted {Source Call : Type} (concurrency : Nat) (timeDura : Int)
    (state : Loop Source Call) : Prop where
  held : state.reqCnt = state.calls.outstanding.length
  bounded : state.calls.outstanding.length ≤ concurrency
  full : state.timeout = false → state.calls.outstanding.length = concurrency
  counted : state.count = state.calls.settled.countP fun call => call.2.ok
  failed : state.overlimit = state.calls.settled.countP fun call => !call.2.ok
  late : state.timeout = true → timeDura < state.clock

section Accounting

variable {Source Call : Type} {client : Client Source Call} {timeDura : Int}
  {concurrency : Nat} {state : Loop Source Call} {completion : Completion} {call : Call}

def Client.outcome (client : Client Source Call) (completion : Completion) (call : Call) :
    Outcome Call :=
  { call
    ok := completion.ok
    metered := if completion.ok then client.meterOk call else client.meterFailed }

theorem Loop.answer_eq :
    state.answer client timeDura completion call =
      { source := state.source
        calls := state.calls.settle completion.index (client.outcome completion call)
        reqCnt := state.reqCnt - 1
        count := state.count + completion.ok.toNat
        overlimit := state.overlimit + (!completion.ok).toNat
        rxSize := state.rxSize + if completion.ok then completion.ackSize else 0
        timeout :=
          if timePeriod ≤ state.timeCnt + 1 then
            decide (timeDura < ((state.clock + completion.elapsed : Nat) : Int))
          else state.timeout
        timeCnt := if timePeriod ≤ state.timeCnt + 1 then 0 else state.timeCnt + 1
        clock := state.clock + completion.elapsed } := by
  by_cases ok : completion.ok = true
  · by_cases due : timePeriod ≤ state.timeCnt + 1
    · simp [Loop.answer, Loop.checkTime, Loop.retire, Loop.tally, Client.outcome, ok, due]
    · simp [Loop.answer, Loop.checkTime, Loop.retire, Loop.tally, Client.outcome, ok, due]
  · by_cases due : timePeriod ≤ state.timeCnt + 1
    · simp [Loop.answer, Loop.checkTime, Loop.retire, Loop.tally, Client.outcome, ok, due]
    · simp [Loop.answer, Loop.checkTime, Loop.retire, Loop.tally, Client.outcome, ok, due]

theorem Loop.refill_frame (client : Client Source Call) (state : Loop Source Call) :
    (state.refill client).count = state.count ∧ (state.refill client).timeCnt = state.timeCnt ∧
      (state.refill client).timeout = state.timeout ∧
      (state.refill client).clock = state.clock := by
  unfold Loop.refill
  split
  · exact ⟨rfl, rfl, rfl, rfl⟩
  · exact ⟨rfl, rfl, rfl, rfl⟩

theorem Loop.turn_idle (idle : ¬state.Delivers completion) :
    state.turn client timeDura completion = state := by
  unfold Loop.turn
  split
  · next going =>
      have outside : ¬completion.index < state.calls.outstanding.length := by
        intro inside
        exact idle ⟨going, inside⟩
      rw [List.getElem?_eq_none (Nat.le_of_not_lt outside)]
  · rfl

/-- An answer takes one call from those that are held; it is replaced if the
loop is not timed out. -/
theorem Loop.turn_delivers (client : Client Source Call) (timeDura : Int)
    (delivers : state.Delivers completion) :
    ∃ entry ∈ state.calls.outstanding,
      state.turn client timeDura completion =
        (state.answer client timeDura completion entry.2).refill client := by
  have inside := delivers.2
  refine ⟨state.calls.outstanding[completion.index], List.getElem_mem inside, ?_⟩
  unfold Loop.turn
  rw [if_pos delivers.1, List.getElem?_eq_getElem inside]

/-- The answer to a call that was held keeps the books, but for the one call
that may follow it. -/
theorem Accounted.answer (accounted : Accounted concurrency timeDura state)
    (delivers : state.Delivers completion) (client : Client Source Call) (call : Call)
    (answered : Loop Source Call) (eq : answered = state.answer client timeDura completion call) :
    answered.reqCnt = answered.calls.outstanding.length ∧
      answered.calls.outstanding.length + 1 = state.calls.outstanding.length ∧
      answered.count = answered.calls.settled.countP (fun call => call.2.ok) ∧
      answered.overlimit = answered.calls.settled.countP (fun call => !call.2.ok) ∧
      (answered.timeout = true → timeDura < answered.clock) ∧
      (answered.timeout = false → state.timeout = false) := by
  have inside := delivers.2
  rw [Loop.answer_eq] at eq
  subst eq
  have shorter := Ledger.length_outstanding_settle (client.outcome completion call) inside
  have held := accounted.held
  refine ⟨?_, shorter, ?_, ?_, ?_, ?_⟩
  · simp only
    omega
  · rw [Ledger.settled_settle inside, List.countP_append, accounted.counted]
    cases ok : completion.ok <;> simp [Client.outcome, ok]
  · rw [Ledger.settled_settle inside, List.countP_append, accounted.failed]
    cases ok : completion.ok <;> simp [Client.outcome, ok]
  · intro timedOut
    simp only at timedOut ⊢
    split at timedOut
    · exact of_decide_eq_true timedOut
    · have late := accounted.late timedOut
      omega
  · intro going
    simp only at going
    split at going
    · next due =>
        by_contra timedOut
        have late := accounted.late (by simpa using timedOut)
        have early := of_decide_eq_false going
        omega
    · exact going

theorem Accounted.turn (accounted : Accounted concurrency timeDura state) :
    Accounted concurrency timeDura (state.turn client timeDura completion) := by
  by_cases delivers : state.Delivers completion
  · obtain ⟨⟨_, call⟩, _, turned⟩ := Loop.turn_delivers client timeDura delivers
    obtain ⟨held, shorter, counted, failed, late, going⟩ :=
      accounted.answer delivers client call _ rfl
    have bounded := accounted.bounded
    rw [turned]
    generalize state.answer client timeDura completion call = answered at *
    unfold Loop.refill
    cases timedOut : answered.timeout with
    | true =>
        constructor
        case held => exact held
        case bounded =>
          show answered.calls.outstanding.length ≤ concurrency
          omega
        case full =>
          intro contra
          exact absurd (timedOut.symm.trans contra) (by simp)
        case counted => exact counted
        case failed => exact failed
        case late => exact late
    | false =>
        have full := accounted.full (going timedOut)
        have longer := answered.calls.length_outstanding_issue
          (client.generate answered.source).1
        constructor
        case held =>
          show answered.reqCnt + 1 =
            (answered.calls.issue (client.generate answered.source).1).outstanding.length
          omega
        case bounded =>
          show (answered.calls.issue (client.generate answered.source).1).outstanding.length ≤ _
          omega
        case full =>
          intro _
          show (answered.calls.issue (client.generate answered.source).1).outstanding.length = _
          omega
        case counted => exact counted
        case failed => exact failed
        case late => exact late
  · rw [Loop.turn_idle delivers]
    exact accounted

structure Fresh (issued : Nat) (state : Loop Source Call) : Prop where
  held : state.reqCnt = state.calls.outstanding.length
  issued : state.calls.outstanding.length = issued
  unsettled : state.calls.settled = []
  uncounted : state.count = 0 ∧ state.overlimit = 0
  going : state.timeout = false
  unchecked : state.timeCnt = 0 ∧ state.clock = 0

theorem Fresh.issueMany (client : Client Source Call) (more : Nat) :
    ∀ (issued : Nat) (state : Loop Source Call), Fresh issued state →
      Fresh (issued + more) (Loop.issueMany client more state) := by
  induction more with
  | zero =>
      intro issued state fresh
      exact fresh
  | succ more ih =>
      intro issued state fresh
      have longer := state.calls.length_outstanding_issue (client.generate state.source).1
      have next : Fresh (issued + 1) (state.newCall client) := by
        have held := fresh.held
        have issuedEq := fresh.issued
        constructor
        case held =>
          show state.reqCnt + 1 =
            (state.calls.issue (client.generate state.source).1).outstanding.length
          omega
        case issued =>
          show (state.calls.issue (client.generate state.source).1).outstanding.length = _
          omega
        case unsettled => exact fresh.unsettled
        case uncounted => exact fresh.uncounted
        case going => exact fresh.going
        case unchecked => exact fresh.unchecked
      have later := ih (issued + 1) (state.newCall client) next
      rw [Nat.add_assoc, Nat.add_comm 1 more] at later
      exact later

theorem fresh_start (client : Client Source Call) (concurrency : Int32) (source : Source) :
    Fresh concurrency.toInt.toNat (Loop.start client concurrency source) := by
  have fresh : Fresh (0 + concurrency.toInt.toNat) (Loop.start client concurrency source) := by
    apply Fresh.issueMany
    exact ⟨rfl, rfl, rfl, ⟨rfl, rfl⟩, rfl, ⟨rfl, rfl⟩⟩
  rw [Nat.zero_add] at fresh
  exact fresh

theorem accounted_start (client : Client Source Call) (timeDura : Int) (concurrency : Int32)
    (source : Source) :
    Accounted concurrency.toInt.toNat timeDura (Loop.start client concurrency source) := by
  have fresh := fresh_start client concurrency source
  constructor
  case held => exact fresh.held
  case bounded => exact Nat.le_of_eq fresh.issued
  case full =>
    intro _
    exact fresh.issued
  case counted => rw [fresh.uncounted.1, fresh.unsettled, List.countP_nil]
  case failed => rw [fresh.uncounted.2, fresh.unsettled, List.countP_nil]
  case late =>
    intro timedOut
    exact absurd (fresh.going.symm.trans timedOut) (by simp)

theorem accounted_run (client : Client Source Call) (timeDura : Int) (concurrency : Int32)
    (source : Source) (completions : List Completion) :
    Accounted concurrency.toInt.toNat timeDura
      (run (Loop.turn client timeDura) (Loop.start client concurrency source) completions) := by
  apply run_invariant
  · intro state completion accounted
    exact accounted.turn
  · exact accounted_start client timeDura concurrency source

/-- A turn of a loop that is timed out, or that finds the deadline passed. -/
theorem Accounted.turn_late (accounted : Accounted concurrency timeDura state)
    (client : Client Source Call) (delivers : state.Delivers completion)
    (late : state.timeout = true ∨ timePeriod ≤ state.timeCnt + 1 ∧
      timeDura < ((state.clock + completion.elapsed : Nat) : Int)) :
    (state.turn client timeDura completion).timeout = true ∧
      (state.turn client timeDura completion).calls.issued = state.calls.issued ∧
      (state.turn client timeDura completion).reqCnt = state.reqCnt - 1 := by
  obtain ⟨⟨_, call⟩, _, turned⟩ := Loop.turn_delivers client timeDura delivers
  have timedOut : (state.answer client timeDura completion call).timeout = true := by
    rw [Loop.answer_eq]
    simp only
    split
    · apply decide_eq_true
      cases late with
      | inl timedOut =>
          have passed := accounted.late timedOut
          omega
      | inr due => exact due.2
    · next notDue =>
        cases late with
        | inl timedOut => exact timedOut
        | inr due => exact absurd due.1 notDue
  rw [turned, Loop.refill, timedOut]
  simp only [Bool.not_true, Bool.false_eq_true, if_false]
  refine ⟨timedOut, ?_, ?_⟩
  · rw [Loop.answer_eq, Ledger.issued_settle]
  · rw [Loop.answer_eq]

/-- Once timed out the loop only drains. -/
theorem drains (client : Client Source Call) (timeDura : Int) (concurrency : Nat)
    (after : List Completion) :
    ∀ state : Loop Source Call, Accounted concurrency timeDura state → state.timeout = true →
      Along (Loop.turn client timeDura) Loop.Delivers state after →
      (run (Loop.turn client timeDura) state after).calls.issued = state.calls.issued ∧
        (run (Loop.turn client timeDura) state after).reqCnt = state.reqCnt - after.length := by
  induction after with
  | nil =>
      intro state _ _ _
      constructor
      · rfl
      · simp
  | cons completion after ih =>
      intro state accounted timedOut along
      obtain ⟨still, issued, fewer⟩ := accounted.turn_late client along.1 (Or.inl timedOut)
      obtain ⟨issued', fewer'⟩ := ih _ accounted.turn still along.2
      rw [run_cons, issued', fewer', issued, fewer]
      refine ⟨rfl, ?_⟩
      rw [List.length_cons]
      omega

end Accounting

/-- The law of the closed loop, for every order of completions, every mix of
statuses and every clock. -/
structure ClosedLoopLaw {Source Call : Type} (client : Client Source Call) (concurrency : Int32)
    (timeDura : Int) (source : Source) : Prop where
  /-- at each loop test -/
  balanced : ∀ completions,
    let state := run (Loop.turn client timeDura) (Loop.start client concurrency source) completions
    state.reqCnt = state.calls.outstanding.length ∧
      state.reqCnt ≤ max concurrency.toInt 0 ∧
      (state.timeout = false → state.reqCnt = max concurrency.toInt 0) ∧
      (state.calls.issued : Int) = state.count + state.overlimit + state.reqCnt
  /-- from a clock check past the deadline on: no call is issued, and the loop
  goes on for exactly as many completions as there are calls left -/
  drains : ∀ before completion after,
    let state := run (Loop.turn client timeDura) (Loop.start client concurrency source) before
    let checked := state.turn client timeDura completion
    let later := run (Loop.turn client timeDura) checked after
    state.Delivers completion → timePeriod ≤ state.timeCnt + 1 →
    timeDura < ((state.clock + completion.elapsed : Nat) : Int) →
    Along (Loop.turn client timeDura) Loop.Delivers checked after →
    later.calls.issued = state.calls.issued ∧ after.length ≤ checked.reqCnt ∧
      (later.reqCnt = 0 ↔ (after.length : Int) = checked.reqCnt)
  /-- at the exit -/
  settled : ∀ completions,
    let state := run (Loop.turn client timeDura) (Loop.start client concurrency source) completions
    ¬state.reqCnt > 0 →
    state.calls.outstanding = [] ∧
      (state.calls.settled.map Prod.fst).Perm (List.range state.calls.issued) ∧
      state.count = (state.calls.settled.countP fun call => call.2.ok) ∧
      state.overlimit = state.calls.settled.countP fun call => !call.2.ok

section Law

variable {Source Call : Type}

theorem countP_ok_add_failed (settled : List (Nat × Outcome Call)) :
    (settled.countP fun call => call.2.ok) + (settled.countP fun call => !call.2.ok) =
      settled.length := by
  rw [List.length_eq_countP_add_countP fun call => call.2.ok]
  simp only [Bool.not_eq_true, Bool.decide_eq_false]

theorem closedLoop_law (client : Client Source Call) (concurrency : Int32) (timeDura : Int)
    (source : Source) : ClosedLoopLaw client concurrency timeDura source := by
  have accounted := accounted_run client timeDura concurrency source
  constructor
  case balanced =>
    intro completions state
    have books : Accounted concurrency.toInt.toNat timeDura state := accounted completions
    have total := state.calls.length_add_length
    have kinds := countP_ok_add_failed state.calls.settled
    have held := books.held
    have bounded := books.bounded
    have counted := books.counted
    have failed := books.failed
    refine ⟨held, ?_, ?_, ?_⟩
    · omega
    · intro going
      have full := books.full going
      omega
    · omega
  case drains =>
    intro before completion after state checked later delivers due passed along
    have books : Accounted concurrency.toInt.toNat timeDura state := accounted before
    obtain ⟨timedOut, issued, _⟩ := books.turn_late client delivers (Or.inr ⟨due, passed⟩)
    have booksChecked : Accounted concurrency.toInt.toNat timeDura checked := books.turn
    obtain ⟨issued', left⟩ :=
      drains client timeDura concurrency.toInt.toNat after checked booksChecked timedOut along
    have booksLater : Accounted concurrency.toInt.toNat timeDura later := by
      apply run_invariant (Loop.turn client timeDura) _ _ after checked booksChecked
      intro state completion accounted
      exact accounted.turn
    have held := booksLater.held
    change later.reqCnt = _ at left
    refine ⟨issued'.trans issued, ?_, ?_⟩
    · omega
    · omega
  case settled =>
    intro completions state ended
    have books : Accounted concurrency.toInt.toNat timeDura state := accounted completions
    have held := books.held
    have none_left : state.calls.outstanding = [] := by
      apply List.eq_nil_of_length_eq_zero
      omega
    exact ⟨none_left, state.calls.settled_perm none_left, books.counted, books.failed⟩

end Law

/-! ## A run of one period -/

section FirstPeriod

variable {Source Call : Type} {state : Loop Source Call} {completion : Completion}

theorem Loop.count_turn (client : Client Source Call) (timeDura : Int)
    (delivers : state.Delivers completion) :
    (state.turn client timeDura completion).count = state.count + completion.ok.toNat := by
  obtain ⟨entry, _, turned⟩ := Loop.turn_delivers client timeDura delivers
  rw [turned, (Loop.refill_frame client _).1, Loop.answer_eq]

theorem Loop.turn_early (client : Client Source Call) (timeDura : Int)
    (delivers : state.Delivers completion) (early : state.timeCnt + 1 < timePeriod) :
    (state.turn client timeDura completion).timeCnt = state.timeCnt + 1 ∧
      (state.turn client timeDura completion).timeout = state.timeout ∧
      (state.turn client timeDura completion).clock = state.clock + completion.elapsed := by
  obtain ⟨entry, _, turned⟩ := Loop.turn_delivers client timeDura delivers
  obtain ⟨_, timeCnt, timeout, clock⟩ :=
    Loop.refill_frame client (state.answer client timeDura completion entry.2)
  have notDue : ¬timePeriod ≤ state.timeCnt + 1 := Nat.not_le_of_lt early
  rw [turned, timeCnt, timeout, clock, Loop.answer_eq, if_neg notDue, if_neg notDue]
  exact ⟨rfl, rfl, rfl⟩

def prompt (elapsed : Nat) : Completion := { index := 0, ok := true, ackSize := 0, elapsed }

/-- The calls come back in the order in which they were made, before the first
look at the clock. -/
theorem first_period (client : Client Source Call) (timeDura : Int) {concurrency : Int32}
    (positive : 0 < concurrency.toInt.toNat) (source : Source) (elapsed turns : Nat)
    (early : turns < timePeriod) :
    ∃ state, state = run (Loop.turn client timeDura) (Loop.start client concurrency source)
        (List.replicate turns (prompt elapsed)) ∧
      state.Delivers (prompt elapsed) ∧ state.timeCnt = turns ∧ state.timeout = false ∧
      state.clock = turns * elapsed := by
  have delivers : ∀ completions,
      (run (Loop.turn client timeDura) (Loop.start client concurrency source)
        completions).timeout = false →
      (run (Loop.turn client timeDura) (Loop.start client concurrency source)
        completions).Delivers (prompt elapsed) := by
    intro completions going
    have books := accounted_run client timeDura concurrency source completions
    have full := books.full going
    have held := books.held
    constructor
    · omega
    · change 0 < _
      omega
  induction turns with
  | zero =>
      have fresh := fresh_start client concurrency source
      refine ⟨_, rfl, delivers [] fresh.going, fresh.unchecked.1, fresh.going, ?_⟩
      rw [Nat.zero_mul]
      exact fresh.unchecked.2
  | succ turns ih =>
      obtain ⟨state, reached, delivered, timeCnt, going, clock⟩ := ih (by omega)
      have early' : state.timeCnt + 1 < timePeriod := by rw [timeCnt]; exact early
      obtain ⟨timeCnt', going', clock'⟩ :=
        Loop.turn_early client timeDura delivered early'
      have next : run (Loop.turn client timeDura) (Loop.start client concurrency source)
          (List.replicate (turns + 1) (prompt elapsed)) =
            state.turn client timeDura (prompt elapsed) := by
        rw [List.replicate_succ', run_append, ← reached]
        rfl
      refine ⟨_, rfl, delivers _ ?_, ?_, ?_, ?_⟩
      · rw [next, going', going]
      · rw [next, timeCnt', timeCnt]
      · rw [next, going', going]
      · rw [next, clock', clock, Nat.add_mul, Nat.one_mul]
        rfl

/-- The completion with which the clock is looked at, behind the deadline. -/
theorem period_due (client : Client Source Call) (timeDura : Int) (concurrency : Int32)
    (positive : 0 < concurrency.toInt.toNat) (source : Source) (elapsed : Nat)
    (passed : timeDura < ((timePeriod * elapsed : Nat) : Int)) :
    ∃ state, state = run (Loop.turn client timeDura) (Loop.start client concurrency source)
        (List.replicate 999 (prompt elapsed)) ∧
      state.Delivers (prompt elapsed) ∧ state.timeout = false ∧
      timePeriod ≤ state.timeCnt + 1 ∧
      timeDura < ((state.clock + (prompt elapsed).elapsed : Nat) : Int) := by
  obtain ⟨state, reached, delivers, timeCnt, going, clock⟩ :=
    first_period client timeDura positive source elapsed 999 (by decide)
  refine ⟨state, reached, delivers, going, ?_, ?_⟩
  · rw [timeCnt]
    exact Nat.le_refl 1000
  · have sum : 999 * elapsed + (prompt elapsed).elapsed = timePeriod * elapsed :=
      (Nat.succ_mul 999 elapsed).symm
    rw [clock, sum]
    exact passed

end FirstPeriod

end RpcBench.Grpc
