import RpcBench.Lib.Windows
import RpcBench.Metering.RoundUp

/-! # The windows of a meter

The log of a session is cut at the reports.  A window is then the calls since
the report before it, with the report that the last of them printed; the calls
after the last report are still held. -/
set_option autoImplicit false

namespace RpcBench.Metering

open Windows

def bytesOf (calls : List (Call × Int)) : Int := (calls.map fun call => call.1.bytes.toInt).sum

def qpsOf (calls : List (Call × Int)) : Int := (calls.map fun call => call.1.qps.toInt).sum

def windows (session : Session) : List (List (Call × Int) × Report) × List (Call × Int) :=
  cut session.log

def OneKind (calls : List (Call × Int)) : Prop :=
  ∃ ofQps, ∀ call ∈ calls, call.1.ofQps = ofQps

def Adds (session : Session) (call : Call × Int) : Prop :=
  session.meter.bytes.toBitVec.saddOverflow call.1.bytes.toBitVec = false ∧
    session.meter.qps.toBitVec.saddOverflow call.1.qps.toBitVec = false

/-- The windows are adjacent from construction on, and every report is that of the
last call of its window. -/
structure Adjacent (constructed : Int) (session : Session) : Prop where
  times : (windows session).1.map (fun window => window.2.since) ++ [session.meter.tp] =
    constructed :: (windows session).1.map (fun window => window.2.now)
  closed : ∀ window ∈ (windows session).1,
    window.1.getLast?.map Prod.snd = some window.2.now
  spaced : ∀ window ∈ (windows session).1,
    session.meter.intervalNs ≤ window.2.now - window.2.since

structure Exact (session : Session) : Prop where
  bytes : ∀ window ∈ (windows session).1, window.2.bytes.toInt = bytesOf window.1
  qps : ∀ window ∈ (windows session).1, (window.2.qps.getD 0).toInt = qpsOf window.1
  heldBytes : session.meter.bytes.toInt = bytesOf (windows session).2
  heldQps : session.meter.qps.toInt = qpsOf (windows session).2

theorem bytesOf_concat (calls : List (Call × Int)) (call : Call × Int) :
    bytesOf (calls ++ [call]) = bytesOf calls + call.1.bytes.toInt := by
  simp [bytesOf]

theorem qpsOf_concat (calls : List (Call × Int)) (call : Call × Int) :
    qpsOf (calls ++ [call]) = qpsOf calls + call.1.qps.toInt := by
  simp [qpsOf]

theorem windows_step_held {session : Session} {call : Call × Int}
    (held : (session.meter.call call.1 call.2).2.report = none) :
    windows (session.step call) = ((windows session).1, (windows session).2 ++ [call]) := by
  change cut (session.log ++ [(call, (session.meter.call call.1 call.2).2.report)]) = _
  rw [held, cut_concat_none]
  rfl

theorem windows_step_printed {session : Session} {call : Call × Int} {report : Report}
    (printed : (session.meter.call call.1 call.2).2.report = some report) :
    windows (session.step call) =
      ((windows session).1 ++ [((windows session).2 ++ [call], report)], []) := by
  change cut (session.log ++ [(call, (session.meter.call call.1 call.2).2.report)]) = _
  rw [printed, cut_concat_some]
  rfl

/-- A step of an enabled meter: the call is held, or it closes a window. -/
theorem step_windows {session : Session} (enabled : session.meter.disable = 0)
    (call : Call × Int) :
    ((session.step call).meter = session.meter.added call.1 ∧
      windows (session.step call) = ((windows session).1, (windows session).2 ++ [call])) ∨
    ((session.meter.added call.1).due call.2 ∧
      (session.step call).meter = (session.meter.added call.1).reset call.1 call.2 ∧
      windows (session.step call) =
        ((windows session).1 ++ [((windows session).2 ++ [call],
          (session.meter.added call.1).window call.1 call.2)], [])) := by
  have meter : (session.step call).meter = (session.meter.call call.1 call.2).1 := rfl
  rcases Meter.call_cases enabled call.1 call.2 with ⟨_, same⟩ | ⟨_, same⟩ | ⟨_, due, same⟩
  · refine Or.inl ⟨by rw [meter, same], windows_step_held ?_⟩
    rw [same]
    rfl
  · refine Or.inl ⟨by rw [meter, same], windows_step_held ?_⟩
    rw [same]
    rfl
  · refine Or.inr ⟨due, by rw [meter, same], windows_step_printed ?_⟩
    rw [same]
    rfl

theorem step_frame {session : Session} (enabled : session.meter.disable = 0)
    (call : Call × Int) :
    (session.step call).meter.disable = 0 ∧
      (session.step call).meter.interval = session.meter.interval := by
  rcases step_windows enabled call with ⟨meter, _⟩ | ⟨_, meter, _⟩
  · rw [meter]
    exact ⟨enabled, rfl⟩
  · rw [meter]
    exact ⟨enabled, rfl⟩

theorem Adjacent.start (meter : Meter) : Adjacent meter.tp (Session.start meter) := by
  constructor
  case times => rfl
  case closed => intro window member; cases member
  case spaced => intro window member; cases member

theorem Adjacent.step {constructed : Int} {session : Session}
    (enabled : session.meter.disable = 0) (call : Call × Int)
    (adjacent : Adjacent constructed session) :
    Adjacent constructed (session.step call) := by
  have interval : (session.step call).meter.intervalNs = session.meter.intervalNs := by
    rw [Meter.intervalNs, (step_frame enabled call).2]
    rfl
  rcases step_windows enabled call with ⟨meter, step⟩ | ⟨due, meter, step⟩
  · constructor
    case times =>
      rw [step, meter]
      exact adjacent.times
    case closed =>
      rw [step]
      exact adjacent.closed
    case spaced =>
      rw [step, interval]
      exact adjacent.spaced
  · constructor
    case times =>
      rw [step, meter]
      simp only [List.map_append, List.map_cons, List.map_nil]
      have since : ((session.meter.added call.1).window call.1 call.2).since = session.meter.tp :=
        rfl
      rw [since, adjacent.times]
      rfl
    case closed =>
      rw [step, List.forall_mem_append, List.forall_mem_singleton]
      refine ⟨adjacent.closed, ?_⟩
      simp [Meter.window]
    case spaced =>
      rw [step, interval, List.forall_mem_append, List.forall_mem_singleton]
      exact ⟨adjacent.spaced, due⟩

theorem toInt_add_of_fits {x y : Int64} (fits : x.toBitVec.saddOverflow y.toBitVec = false) :
    (x + y).toInt = x.toInt + y.toInt := by
  simp only [BitVec.saddOverflow, Int64.toInt_toBitVec, Bool.or_eq_false_iff,
    decide_eq_false_iff_not] at fits
  rw [Int64.toInt_add, Int.bmod_eq_of_le (by omega) (by omega)]

theorem qps_of_not_ofQps {call : Call} (kind : call.ofQps = false) : call.qps = 0 := by
  cases call with
  | addBytes add => rfl
  | addQps bytesAdd qpsAdd => cases kind

/-- The sums are exact, and without calls of `AddQps` there are no operations. -/
structure Sums (ofQps : Bool) (session : Session) : Prop where
  exact : Exact session
  none_counted : ofQps = false → session.meter.qps = 0

theorem Sums.start {meter : Meter} (ofQps : Bool) (bytes : meter.bytes = 0)
    (qps : meter.qps = 0) : Sums ofQps (Session.start meter) := by
  constructor
  case exact =>
    constructor
    case bytes => intro window member; cases member
    case qps => intro window member; cases member
    case heldBytes =>
      simp only [Session.start, bytes]
      rfl
    case heldQps =>
      simp only [Session.start, qps]
      rfl
  case none_counted => intro _; exact qps

theorem Sums.step {ofQps : Bool} {session : Session} (enabled : session.meter.disable = 0)
    (call : Call × Int) (kind : call.1.ofQps = ofQps) (adds : Adds session call)
    (sums : Sums ofQps session) : Sums ofQps (session.step call) := by
  obtain ⟨⟨bytes, qps, heldBytes, heldQps⟩, noneCounted⟩ := sums
  have addedBytes : (session.meter.added call.1).bytes.toInt =
      bytesOf ((windows session).2 ++ [call]) := by
    rw [bytesOf_concat, ← heldBytes]
    exact toInt_add_of_fits adds.1
  have addedQps : (session.meter.added call.1).qps.toInt =
      qpsOf ((windows session).2 ++ [call]) := by
    rw [qpsOf_concat, ← heldQps]
    exact toInt_add_of_fits adds.2
  have addedNone : ofQps = false → (session.meter.added call.1).qps = 0 := by
    intro bytesOnly
    change session.meter.qps + call.1.qps = 0
    rw [noneCounted bytesOnly, qps_of_not_ofQps (kind.trans bytesOnly)]
    rfl
  rcases step_windows enabled call with ⟨meter, step⟩ | ⟨_, meter, step⟩
  · constructor
    case exact =>
      constructor
      case bytes => rw [step]; exact bytes
      case qps => rw [step]; exact qps
      case heldBytes => rw [step, meter]; exact addedBytes
      case heldQps => rw [step, meter]; exact addedQps
    case none_counted => rw [meter]; exact addedNone
  · have resetQps : ((session.meter.added call.1).reset call.1 call.2).qps = 0 := by
      change (if call.1.ofQps then 0 else (session.meter.added call.1).qps) = 0
      by_cases counts : call.1.ofQps = true
      · exact if_pos counts
      · rw [if_neg counts]
        exact addedNone (kind.symm.trans (Bool.eq_false_iff.mpr counts))
    constructor
    case exact =>
      constructor
      case bytes =>
        rw [step, List.forall_mem_append, List.forall_mem_singleton]
        exact ⟨bytes, addedBytes⟩
      case qps =>
        rw [step, List.forall_mem_append, List.forall_mem_singleton]
        refine ⟨qps, ?_⟩
        rw [← addedQps]
        simp only [Meter.window]
        by_cases counts : call.1.ofQps = true
        · rw [if_pos counts]
          rfl
        · rw [if_neg counts, addedNone (kind.symm.trans (Bool.eq_false_iff.mpr counts))]
          rfl
      case heldBytes =>
        rw [step, meter]
        rfl
      case heldQps =>
        rw [step, meter, resetQps]
        rfl
    case none_counted =>
      intro _
      rw [meter]
      exact resetQps

/-! ## Runs -/

/-- The state of a meter that is not disabled, in a run from its construction. -/
structure Running (constructed : Int) (interval : Int64) (session : Session) : Prop where
  enabled : session.meter.disable = 0
  interval_eq : session.meter.interval = interval
  adjacent : Adjacent constructed session

theorem Running.step {constructed : Int} {interval : Int64} {session : Session}
    (call : Call × Int) (running : Running constructed interval session) :
    Running constructed interval (session.step call) := by
  obtain ⟨enabled, interval'⟩ := step_frame running.enabled call
  constructor
  case enabled => exact enabled
  case interval_eq => exact interval'.trans running.interval_eq
  case adjacent => exact running.adjacent.step running.enabled call

theorem Running.run {constructed : Int} {interval : Int64} {session : Session}
    (running : Running constructed interval session) (calls : List (Call × Int)) :
    Running constructed interval (Machine.run Session.step session calls) :=
  Machine.run_invariant Session.step (Running constructed interval)
    (fun _ call running => running.step call) calls session running

theorem Sums.run {constructed : Int} {interval : Int64} {ofQps : Bool} :
    ∀ (calls : List (Call × Int)) (session : Session), Running constructed interval session →
      Sums ofQps session → (∀ call ∈ calls, call.1.ofQps = ofQps) →
      Machine.Along Session.step Adds session calls →
      Sums ofQps (Machine.run Session.step session calls) := by
  intro calls
  induction calls with
  | nil => intro session _ sums _ _; exact sums
  | cons call rest ih =>
      intro session running sums kind along
      apply ih (session.step call) (running.step call)
      · exact sums.step running.enabled call (kind call List.mem_cons_self) along.1
      · intro other member
        exact kind other (List.mem_cons_of_mem _ member)
      · exact along.2

theorem intervalNs_eq {meter : Meter} {intervalMs : UInt64}
    (interval : meter.interval = intervalMs.toInt64)
    (fits : intervalMs.toNat ≤ 9223372036854) :
    meter.intervalNs = intervalMs.toNat * 1000000 := by
  have value : intervalMs.toInt64.toInt = intervalMs.toNat := by
    rw [toInt_bits]
    change (if intervalMs.toNat < 2 ^ 63 then (intervalMs.toNat : Int) else _) = _
    rw [if_pos (by omega)]
  have million : (1000000 : Int64).toInt = 1000000 := by decide
  rw [Meter.intervalNs, interval, Int64.toInt_mul, value, million,
    Int.bmod_eq_of_le (by omega) (by omega)]

/-- What has been reported and what is held are what has been added. -/
theorem Exact.conserved {session : Session} (exact' : Exact session) :
    ((windows session).1.map fun window => window.2.bytes.toInt).sum +
        session.meter.bytes.toInt = bytesOf (session.log.map Prod.fst) ∧
      ((windows session).1.map fun window => (window.2.qps.getD 0).toInt).sum +
        session.meter.qps.toInt = qpsOf (session.log.map Prod.fst) := by
  constructor
  · rw [exact'.heldBytes, List.map_congr_left exact'.bytes]
    exact sum_cut (fun call : Call × Int => call.1.bytes.toInt) session.log
  · rw [exact'.heldQps, List.map_congr_left exact'.qps]
    exact sum_cut (fun call : Call × Int => call.1.qps.toInt) session.log

structure MeterSound (intervalMs : UInt64) (constructed : Int) (meter : Meter)
    (calls : List (Call × Int)) : Prop where
  adjacent : Adjacent constructed (Session.run meter calls)
  whole : ((windows (Session.run meter calls)).1.map Prod.fst).flatten ++
    (windows (Session.run meter calls)).2 = calls
  apart : intervalMs.toNat ≤ 9223372036854 →
    (windows (Session.run meter calls)).1.Pairwise fun window later =>
      (intervalMs.toNat * 1000000 : Int) ≤ later.2.now - window.2.now
  exact : Machine.Along Session.step Adds (Session.start meter) calls →
    Exact (Session.run meter calls) ∧
    ((windows (Session.run meter calls)).1.map fun window => window.2.bytes.toInt).sum +
      (Session.run meter calls).meter.bytes.toInt = bytesOf calls ∧
    ((windows (Session.run meter calls)).1.map fun window =>
      (window.2.qps.getD 0).toInt).sum +
      (Session.run meter calls).meter.qps.toInt = qpsOf calls

/-- For every constructed meter that is not disabled and every sequence of calls of one
kind: nothing is lost or counted twice as long as no sum overflows. -/
theorem meter_sound (build : Build) (intervalMs : UInt64) (_sample : Int32) (now : Int)
    (meter : Meter) (calls : List (Call × Int)) (kind : OneKind calls)
    (constructed : Meter.new build intervalMs _sample 0 now = some meter) :
    MeterSound intervalMs now meter calls := by
  obtain ⟨sample, _, fresh⟩ := new_cases constructed
  have tp : meter.tp = now := by rw [fresh]
  have start : Running now intervalMs.toInt64 (Session.start meter) := by
    constructor
    case enabled => rw [fresh]; rfl
    case interval_eq => rw [fresh]; rfl
    case adjacent =>
      rw [← tp]
      exact Adjacent.start meter
  have running := start.run calls
  constructor
  case adjacent => exact running.adjacent
  case whole =>
    rw [windows, flatten_cut]
    exact Session.log_run meter calls
  case apart =>
    intro fits
    have interval := intervalNs_eq running.interval_eq fits
    have spaced := running.adjacent.spaced
    rw [interval] at spaced
    exact (apart_of_adjacent _ _ (by omega) _ _ _ running.adjacent.times spaced).2
  case exact =>
    intro along
    obtain ⟨ofQps, same⟩ := kind
    have zeroBytes : meter.bytes = 0 := by rw [fresh]
    have zeroQps : meter.qps = 0 := by rw [fresh]
    have sums := Sums.run calls _ start (Sums.start ofQps zeroBytes zeroQps) same along
    have conserved := sums.exact.conserved
    have log : (Machine.run Session.step (Session.start meter) calls).log.map Prod.fst = calls :=
      Session.log_run meter calls
    rw [log] at conserved
    exact ⟨sums.exact, conserved⟩

def eager : Meter :=
  { sample := 0, cnt := 0, bytes := 0, qps := 0, tp := 0, interval := 1, disable := 0 }

theorem meter_sound_eager :
    MeterSound 1 0 eager [(.addQps 64 1, 5), (.addQps 64 1, 1000000)] :=
  meter_sound .debug 1 0 0 eager [(.addQps 64 1, 5), (.addQps 64 1, 1000000)]
    ⟨true, by decide⟩ rfl

/-- Two additions of `2 ^ 62` are held as `- 2 ^ 63`; and an interval too long for
nanoseconds is no interval. -/
theorem sum_and_interval_overflow :
    (¬∀ (build : Build) (intervalMs : UInt64) (_sample : Int32) (now : Int) (meter : Meter)
      (calls : List (Call × Int)), OneKind calls →
      Meter.new build intervalMs _sample 0 now = some meter →
      ((windows (Session.run meter calls)).1.map fun window => window.2.bytes.toInt).sum +
        (Session.run meter calls).meter.bytes.toInt = bytesOf calls) ∧
    ¬∀ (build : Build) (intervalMs : UInt64) (_sample : Int32) (now : Int) (meter : Meter)
      (calls : List (Call × Int)), OneKind calls →
      Meter.new build intervalMs _sample 0 now = some meter →
      (windows (Session.run meter calls)).1.Pairwise fun window later =>
        (intervalMs.toNat * 1000000 : Int) ≤ later.2.now - window.2.now := by
  constructor
  · intro always
    have conserved := always .release 1 0 0 eager
      [(.addBytes 4611686018427387904, 0), (.addBytes 4611686018427387904, 0)]
      ⟨false, by decide⟩ rfl
    exact absurd conserved (by decide)
  · intro always
    have apart := always .release 9223372036855 0 0
      { eager with interval := 9223372036855 } [(.addBytes 1, 0), (.addBytes 1, 0)]
      ⟨false, by decide⟩ rfl
    exact absurd apart (by decide)

end RpcBench.Metering
