import RpcBench.Lib.Ledger
import RpcBench.Lib.Run
import Mathlib.Algebra.Ring.Nat

/-! # `run_bench` of the Rust clients

`client.rs` of `rpc_bench_tonic` and of `rpc_bench_volo` have this function in
common, up to the macro that prints.  A `usize` is a number below 2^64, an
`Instant` the `u64` that it holds; durations are nanoseconds.  The result of a
call is not looked at, so it is not modelled. -/
set_option autoImplicit false

namespace RpcBench.RpcHello

structure Args where
  logLatency : Bool
  reqSize : Nat
  concurrency : Nat
  totalIters : Nat
  warmup : Nat
  duration : Option Nat
  interval : Option Nat
  provisionCount : Nat
  deriving DecidableEq, Repr

namespace Args

/-- `total_iters`, or `usize::MAX / 2` when there is a duration. -/
def iterations (args : Args) : Nat :=
  match args.duration with
  | some _ => 2 ^ 63 - 1
  | none => args.totalIters

/-- The duration, or `u64::MAX` milliseconds. -/
def timeout (args : Args) : Nat :=
  match args.duration with
  | some duration => duration
  | none => (2 ^ 64 - 1) * 1000000

def limit (args : Args) : Nat := (args.iterations + args.warmup) % 2 ^ 64

end Args

/-- The values that `hdrhistogram` can record when it is made for 60 s. -/
structure Histogram where
  recordable : Nat → Bool
  within : ∀ value, value ≤ 60000000000 → recordable value = true

structure RpcCall where
  start : UInt64
  reqSize : Nat
  message : Nat
  deriving DecidableEq, Repr

structure Counted where
  latency : Nat
  reqSize : Nat
  deriving DecidableEq, Repr

/-- A periodic report; with `log_latency` it reads the histogram. -/
structure Report where
  responses : Nat
  bytes : Nat
  lastDura : Nat
  latencies : Option (List Nat)
  deriving DecidableEq, Repr

inductive Outcome where
  | running
  | done
  | panicked
  deriving DecidableEq, Repr

/-- The locals of `run_bench`, and the indices that `make_call` was given. -/
structure Bench where
  replyFutures : Ledger RpcCall Counted
  requested : List Nat
  scnt : Nat
  rcnt : Nat
  nbytes : Nat
  lastRcnt : Nat
  lastNbytes : Nat
  lastTs : UInt64
  warmupEnd : UInt64
  hist : List Nat
  reports : List Report
  outcome : Outcome

structure Prologue where
  lastTs : UInt64
  start : UInt64
  warmupEnd : UInt64
  issue : Nat → UInt64

/-- A turn of the loop: which future is ready, and the readings of the clock in
the order of the source. -/
structure Turn where
  index : Nat
  check : UInt64
  reply : UInt64
  warmupEnd : UInt64
  issue : UInt64
  report : UInt64
  reset : UInt64

/-- `Instant::elapsed` of the crate `minstant`, which is not part of the repository.
Assumed of it: an instant counts nanoseconds, and a clock that has gone back gives 0. -/
def elapsed (since now : UInt64) : Nat := now.toNat - since.toNat

/-- `left - right` as the release build has it. -/
def wrappingSub (left right : Nat) : Nat := (left + 2 ^ 64 - right) % 2 ^ 64

/-- `reqs[scnt % args.provision_count]` panics without a message. -/
def makeCall (args : Args) (scnt : Nat) (now : UInt64) : Option RpcCall :=
  if args.provisionCount = 0 then none
  else some { start := now, reqSize := args.reqSize, message := scnt % args.provisionCount }

namespace Bench

def issue (args : Args) (now : UInt64) (bench : Bench) : Bench :=
  match makeCall args bench.scnt now with
  | none => { bench with outcome := .panicked }
  | some call =>
    { bench with
      replyFutures := bench.replyFutures.issue call
      requested := bench.requested ++ [bench.scnt]
      scnt := bench.scnt + 1 }

/-- The loop before the loop, which ends after `concurrency` turns. -/
def sendFirst (args : Args) (clock : Prologue) : Nat → Bench → Bench
  | 0, bench => bench
  | fuel + 1, bench =>
    if bench.outcome = .running ∧ bench.scnt < args.concurrency ∧ bench.scnt < args.limit then
      sendFirst args clock fuel (bench.issue args (clock.issue bench.scnt))
    else bench

def start (args : Args) (clock : Prologue) : Bench :=
  sendFirst args clock args.concurrency
    { replyFutures := .empty, requested := [], scnt := 0, rcnt := 0, nbytes := 0, lastRcnt := 0
      lastNbytes := 0, lastTs := clock.lastTs, warmupEnd := clock.warmupEnd, hist := []
      reports := [], outcome := .running }

/-- The test behind `next()`. -/
def leaves (args : Args) (clock : Prologue) (turn : Turn) (bench : Bench) : Prop :=
  bench.rcnt ≥ args.limit ∨ elapsed clock.start turn.check > args.timeout

instance (args : Args) (clock : Prologue) (turn : Turn) (bench : Bench) :
    Decidable (bench.leaves args clock turn) :=
  inferInstanceAs (Decidable (_ ∨ _))

def record (args : Args) (histogram : Histogram) (latency : Nat) (bench : Bench) : Bench :=
  if bench.rcnt ≥ args.warmup ∧ histogram.recordable latency = true then
    { bench with hist := bench.hist ++ [latency] }
  else bench

def count (args : Args) (turn : Turn) (latency reqSize : Nat) (bench : Bench) : Bench :=
  let bench :=
    { bench with
      replyFutures := bench.replyFutures.settle turn.index { latency, reqSize }
      nbytes := (bench.nbytes + reqSize) % 2 ^ 64
      rcnt := bench.rcnt + 1 }
  if bench.rcnt = args.warmup then { bench with warmupEnd := turn.warmupEnd } else bench

def refill (args : Args) (turn : Turn) (bench : Bench) : Bench :=
  if bench.scnt < args.limit then bench.issue args turn.issue else bench

/-- The report proper, which clears the histogram after reading it. -/
def print (args : Args) (lastDura : Nat) (bench : Bench) : Bench :=
  if bench.rcnt > args.warmup then
    let report :=
      { responses := wrappingSub bench.rcnt bench.lastRcnt
        bytes := wrappingSub bench.nbytes bench.lastNbytes
        lastDura
        latencies := if args.logLatency then some bench.hist else none }
    { bench with
      reports := bench.reports ++ [report]
      hist := if args.logLatency then [] else bench.hist }
  else bench

def report (args : Args) (turn : Turn) (bench : Bench) : Bench :=
  match args.interval with
  | none => bench
  | some interval =>
    let lastDura := elapsed bench.lastTs turn.report
    if lastDura > interval then
      { bench.print args lastDura with
        lastTs := turn.reset, lastRcnt := bench.rcnt, lastNbytes := bench.nbytes }
    else bench

def receive (args : Args) (histogram : Histogram) (turn : Turn) (call : RpcCall) (bench : Bench) :
    Bench :=
  let latency := elapsed call.start turn.reply
  (((bench.record args histogram latency).count args turn latency call.reqSize).refill args
    turn).report args turn

/-- One `select!`.  An empty set of futures yields `None` once, and then either
the loop is left or `unwrap` panics: the branch `complete` is never taken. -/
def turn (args : Args) (histogram : Histogram) (clock : Prologue) (bench : Bench) (turn : Turn) :
    Bench :=
  if bench.outcome = .running then
    if bench.replyFutures.outstanding = [] then
      if bench.leaves args clock turn then { bench with outcome := .done }
      else { bench with outcome := .panicked }
    else
      match bench.replyFutures.outstanding[turn.index]? with
      | none => bench
      | some (_, call) =>
        if bench.leaves args clock turn then { bench with outcome := .done }
        else bench.receive args histogram turn call
  else bench

end Bench

def runBench (args : Args) (histogram : Histogram) (clock : Prologue) (turns : List Turn) :
    Bench :=
  Machine.run (Bench.turn args histogram clock) (Bench.start args clock) turns

end RpcBench.RpcHello
