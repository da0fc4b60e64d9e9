import RpcBench.Lib.LowBit
import RpcBench.Lib.Run

/-! # `meter.h`: the throughput meter

`int` is `Int32`, `long` and `ssize_t` are `Int64`; the readings of the clock
are nanoseconds.  What a report prints is a function of its two sums and its
two times; the name and the time stamp beside them are left out. -/
set_option autoImplicit false

namespace RpcBench.Metering

/-- `make DEBUG=1` traps on signed overflow and keeps the assertions. -/
inductive Build where
  | debug
  | release
  deriving DecidableEq, Repr

def addInt (build : Build) (x y : Int32) : Option Int32 :=
  if build = .debug ∧ x.toBitVec.saddOverflow y.toBitVec then none else some (x + y)

/-- `Meter::Lowbit`; none where `-x` overflows. -/
def lowbit (x : Int64) : Option Int64 :=
  if x.toBitVec.negOverflow then none else some (x &&& -x)

/-- `Meter::RoundUpPower2`, of which the condition is evaluated at most `fuel`
times; none where a sum overflows. -/
def roundUpPower2 : Nat → Int64 → Option Int64
  | 0, _ => none
  | fuel + 1, x =>
    match lowbit x with
    | none => none
    | some low =>
      if x = low then some x
      else if x.toBitVec.saddOverflow low.toBitVec then none
      else roundUpPower2 fuel (x + low)

/-- Once for each bit of a `long`, and once more. -/
def rounds : Nat := 65

structure Meter where
  sample : Int32
  cnt : Int32
  bytes : Int64
  qps : Int64
  tp : Int
  interval : Int64
  disable : Int32
  deriving DecidableEq, Repr

namespace Meter

/-- `assert(sample + 1 == Lowbit(sample + 1))`, where assertions are kept. -/
def assertSample (build : Build) (sample : Int32) : Option Unit :=
  match build with
  | .release => some ()
  | .debug =>
    match addInt build sample 1 with
    | none => none
    | some next => if lowbit next.toInt64 = some next.toInt64 then some () else none

/-- The interval constructor; none where it traps or its assertion fails. `now` is
the clock, `disable` the environment variable. -/
def new (build : Build) (intervalMs : UInt64) (_sample disable : Int32) (now : Int) :
    Option Meter :=
  match addInt build _sample 1 with
  | none => none
  | some next =>
    match roundUpPower2 rounds next.toInt64 with
    | none => none
    | some rounded =>
      let sample := (rounded - 1).toInt32
      match assertSample build sample with
      | none => none
      | some () =>
        some { sample, cnt := 0, bytes := 0, qps := 0, tp := now
               interval := intervalMs.toInt64, disable }

/-- `interval` in the unit of the clock, to which `>=` converts it. -/
def intervalNs (meter : Meter) : Int := (meter.interval * 1000000).toInt

end Meter

/-- A printed window: its sums and the time it covers.  `AddBytes` prints no
operations. -/
structure Report where
  bytes : Int64
  qps : Option Int64
  since : Int
  now : Int
  deriving DecidableEq, Repr

inductive Outcome where
  /-- the clock is not read -/
  | silent
  /-- it is too early for a report -/
  | early
  | printed (report : Report)
  deriving DecidableEq, Repr

def Outcome.report : Outcome → Option Report
  | .printed report => some report
  | _ => none

def Outcome.consults : Outcome → Bool
  | .silent => false
  | _ => true

namespace Meter

def addBytes (meter : Meter) (add : Int64) (now : Int) : Meter × Outcome :=
  if meter.disable ≠ 0 then (meter, .silent)
  else
    let meter := { meter with bytes := meter.bytes + add, cnt := meter.cnt + 1 }
    if meter.cnt &&& meter.sample = meter.sample then
      if now - meter.tp ≥ meter.intervalNs then
        ({ meter with bytes := 0, tp := now },
          .printed { bytes := meter.bytes, qps := none, since := meter.tp, now })
      else (meter, .early)
    else (meter, .silent)

def addQps (meter : Meter) (bytesAdd qpsAdd : Int64) (now : Int) : Meter × Outcome :=
  if meter.disable ≠ 0 then (meter, .silent)
  else
    let meter := { meter with
      bytes := meter.bytes + bytesAdd, qps := meter.qps + qpsAdd, cnt := meter.cnt + 1 }
    if meter.cnt &&& meter.sample = meter.sample then
      if now - meter.tp ≥ meter.intervalNs then
        ({ meter with bytes := 0, qps := 0, tp := now },
          .printed { bytes := meter.bytes, qps := some meter.qps, since := meter.tp, now })
      else (meter, .early)
    else (meter, .silent)

end Meter

inductive Call where
  | addBytes (add : Int64)
  | addQps (bytesAdd qpsAdd : Int64)
  deriving DecidableEq, Repr

namespace Call

def bytes : Call → Int64
  | .addBytes add => add
  | .addQps bytesAdd _ => bytesAdd

def qps : Call → Int64
  | .addBytes _ => 0
  | .addQps _ qpsAdd => qpsAdd

def ofQps : Call → Bool
  | .addBytes _ => false
  | .addQps _ _ => true

end Call

def Meter.call (meter : Meter) (call : Call) (now : Int) : Meter × Outcome :=
  match call with
  | .addBytes add => meter.addBytes add now
  | .addQps bytesAdd qpsAdd => meter.addQps bytesAdd qpsAdd now

/-- A meter with the log of its calls, each with the clock at the call and with the
report that it printed, and with the ordinals of those that read the clock. -/
structure Session where
  meter : Meter
  log : List ((Call × Int) × Option Report)
  consulted : List Nat
  deriving DecidableEq, Repr

namespace Session

def start (meter : Meter) : Session := { meter, log := [], consulted := [] }

def step (session : Session) (call : Call × Int) : Session :=
  let (meter, outcome) := session.meter.call call.1 call.2
  { meter
    log := session.log ++ [(call, outcome.report)]
    consulted := session.consulted ++
      if outcome.consults then [session.log.length + 1] else [] }

def run (meter : Meter) (calls : List (Call × Int)) : Session :=
  Machine.run step (start meter) calls

end Session

theorem Session.length_step (session : Session) (call : Call × Int) :
    (session.step call).log.length = session.log.length + 1 := by
  simp only [Session.step, List.length_append, List.length_singleton]

theorem Session.log_run (meter : Meter) (calls : List (Call × Int)) :
    (run meter calls).log.map Prod.fst = calls := by
  have all : ∀ (calls : List (Call × Int)) (session : Session),
      (Machine.run step session calls).log.map Prod.fst = session.log.map Prod.fst ++ calls := by
    intro calls
    induction calls with
    | nil => intro session; exact (List.append_nil _).symm
    | cons call rest ih =>
        intro session
        rw [Machine.run_cons, ih, step, List.map_append, List.append_assoc]
        rfl
  exact all calls (start meter)

/-! ## What a call does -/

namespace Meter

variable {meter : Meter}

def added (meter : Meter) (call : Call) : Meter :=
  { meter with
    bytes := meter.bytes + call.bytes, qps := meter.qps + call.qps, cnt := meter.cnt + 1 }

def window (meter : Meter) (call : Call) (now : Int) : Report :=
  { bytes := meter.bytes
    qps := if call.ofQps then some meter.qps else none
    since := meter.tp
    now }

/-- The sums start again; `AddBytes` leaves `qps`. -/
def reset (meter : Meter) (call : Call) (now : Int) : Meter :=
  { meter with
    bytes := 0, qps := if call.ofQps then 0 else meter.qps, tp := now }

def sampled (meter : Meter) : Prop := meter.cnt &&& meter.sample = meter.sample

instance : Decidable meter.sampled :=
  inferInstanceAs (Decidable (meter.cnt &&& meter.sample = meter.sample))

def due (meter : Meter) (now : Int) : Prop := now - meter.tp ≥ meter.intervalNs

instance (now : Int) : Decidable (meter.due now) :=
  inferInstanceAs (Decidable (now - meter.tp ≥ meter.intervalNs))

theorem added_addBytes (meter : Meter) (add : Int64) :
    meter.added (.addBytes add) =
      { meter with bytes := meter.bytes + add, cnt := meter.cnt + 1 } := by
  have same : meter.qps + 0 = meter.qps := by
    apply Int64.toBitVec_inj.mp
    simp
  simp only [added, Call.bytes, Call.qps, same]

theorem call_enabled (enabled : meter.disable = 0) (call : Call) (now : Int) :
    meter.call call now =
      if (meter.added call).sampled then
        if (meter.added call).due now then
          ((meter.added call).reset call now, .printed ((meter.added call).window call now))
        else (meter.added call, .early)
      else (meter.added call, .silent) := by
  have notDisabled : ¬meter.disable ≠ 0 := fun disabled => disabled enabled
  cases call with
  | addBytes add =>
      rw [added_addBytes]
      exact if_neg notDisabled
  | addQps bytesAdd qpsAdd => exact if_neg notDisabled

theorem call_disabled (disabled : meter.disable ≠ 0) (call : Call) (now : Int) :
    meter.call call now = (meter, .silent) := by
  cases call with
  | addBytes add => exact if_pos disabled
  | addQps bytesAdd qpsAdd => exact if_pos disabled

/-- Such a call is not sampled, or it comes too early, or it prints. -/
theorem call_cases (enabled : meter.disable = 0) (call : Call) (now : Int) :
    (¬(meter.added call).sampled ∧ meter.call call now = (meter.added call, .silent)) ∨
    ((meter.added call).sampled ∧ meter.call call now = (meter.added call, .early)) ∨
    ((meter.added call).sampled ∧ (meter.added call).due now ∧
      meter.call call now = ((meter.added call).reset call now,
        .printed ((meter.added call).window call now))) := by
  rw [call_enabled enabled]
  by_cases sampled : (meter.added call).sampled
  · rw [if_pos sampled]
    by_cases due : (meter.added call).due now
    · rw [if_pos due]
      exact Or.inr (Or.inr ⟨sampled, due, rfl⟩)
    · rw [if_neg due]
      exact Or.inr (Or.inl ⟨sampled, rfl⟩)
  · rw [if_neg sampled]
    exact Or.inl ⟨sampled, rfl⟩

end Meter

end RpcBench.Metering
