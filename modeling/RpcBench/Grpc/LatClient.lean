import RpcBench.Grpc.Clients
import RpcBench.Grpc.LatApp

/-! # `GrpcLatClientApp::Run`

One call at a time.  A failed call touches neither `last` nor `timeout`, so
its time goes into the next sample, and the loop does not end with it.  Times
are nanoseconds since `start`. -/
set_option autoImplicit false

namespace RpcBench.Grpc.GrpcLatClientApp

open Machine

/-- `1e6 * diff.count()`, where `diff` holds seconds. -/
def micros (diff : Nat) : ℚ := Double.round (1000000 * Double.round (Double.round diff / 1000000000))

/-- One turn: the status of the call, the time until it completes, and the time
from there to the next turn, with `push_back` in it. -/
structure Call where
  ok : Bool
  rpc : Nat
  rest : Nat
  deriving DecidableEq, Repr

/-- What is pushed to `latencies`, with the completions of the call and of the
one before it. -/
structure Sample where
  diff : Nat
  completion : Nat
  previous : Nat
  deriving DecidableEq, Repr

structure State where
  latencies : List Sample
  overlimit : Nat
  timeout : Bool
  last : Nat
  clock : Nat
  /-- the completion of the call before, `start` for the first one -/
  previous : Nat
  deriving DecidableEq, Repr

def start : State where
  latencies := []
  overlimit := 0
  timeout := false
  last := 0
  clock := 0
  previous := 0

def turn (timeDura : Int) (state : State) (call : Call) : State :=
  if state.timeout then state
  else
    let completion := state.clock + call.rpc
    let clock := completion + call.rest
    if call.ok then
      let now := completion
      let diff := now - state.last
      { state with
        latencies := state.latencies ++ [{ diff, completion, previous := state.previous }]
        timeout := decide ((now : Int) > timeDura)
        last := clock
        clock
        previous := completion }
    else { state with overlimit := state.overlimit + 1, clock, previous := completion }

def print (state : State) : Option LatClientApp.Summary :=
  LatClientApp.print (state.latencies.map fun sample => micros sample.diff)

/-! ## Samples -/

section Samples

variable {timeDura : Int} {state : State} {call : Call}

structure Ordered (state : State) : Prop where
  last : state.last ≤ state.clock
  previous : state.previous ≤ state.clock

theorem Ordered.turn (ordered : Ordered state) : Ordered (turn timeDura state call) := by
  have last := ordered.last
  unfold GrpcLatClientApp.turn
  split
  · exact ordered
  · split
    · constructor
      · exact Nat.le_refl _
      · exact Nat.le_add_right _ _
    · constructor
      · simp only
        omega
      · exact Nat.le_add_right _ _

theorem previous_le_last (going : state.timeout = false) (ok : call.ok = true) :
    (turn timeDura state call).previous ≤ (turn timeDura state call).last := by
  unfold turn
  rw [going]
  simp only [Bool.false_eq_true, if_false, ok, if_true]
  exact Nat.le_add_right _ _

theorem last_lt_previous (ordered : Ordered state) (going : state.timeout = false)
    (failed : call.ok = false) (took : 0 < call.rpc) :
    (turn timeDura state call).last < (turn timeDura state call).previous := by
  have last := ordered.last
  unfold turn
  rw [going]
  simp only [Bool.false_eq_true, if_false, failed]
  omega

end Samples

def InTime (timeDura : Int) (state : State) (call : Call) : Prop :=
  ((state.clock + call.rpc : Nat) : Int) ≤ timeDura

instance (timeDura : Int) (state : State) (call : Call) : Decidable (InTime timeDura state call) :=
  inferInstanceAs (Decidable (_ ≤ _))

section Deadline

variable {timeDura : Int} {state : State} {call : Call}

theorem turn_inTime (going : state.timeout = false) (inTime : InTime timeDura state call) :
    (turn timeDura state call).timeout = false ∧
      (turn timeDura state call).latencies.length = state.latencies.length + call.ok.toNat := by
  unfold InTime at inTime
  unfold turn
  rw [going]
  cases ok : call.ok with
  | true =>
      constructor
      · simp only [Bool.false_eq_true, if_false, if_true]
        exact decide_eq_false (not_lt.mpr inTime)
      · simp
  | false =>
      constructor
      · simp
      · simp

/-- Before the deadline every call is made, and each success leaves a sample. -/
theorem run_inTime (timeDura : Int) (calls : List Call) :
    ∀ state, state.timeout = false → Along (turn timeDura) (InTime timeDura) state calls →
      (run (turn timeDura) state calls).timeout = false ∧
        (run (turn timeDura) state calls).latencies.length =
          state.latencies.length + calls.countP (·.ok) := by
  induction calls with
  | nil =>
      intro state going _
      exact ⟨going, rfl⟩
  | cons call calls ih =>
      intro state going along
      obtain ⟨going', length⟩ := turn_inTime going along.1
      obtain ⟨still, total⟩ := ih _ going' along.2
      refine ⟨still, ?_⟩
      rw [run_cons, total, length, List.countP_cons]
      cases call.ok with
      | true => simp only [Bool.toNat_true, if_true]; omega
      | false => simp only [Bool.toNat_false, Bool.false_eq_true, if_false]; omega

theorem turn_late (going : state.timeout = false) (late : ¬InTime timeDura state call) :
    (turn timeDura state call).timeout = call.ok ∧
      (turn timeDura state call).latencies.length = state.latencies.length + call.ok.toNat := by
  unfold InTime at late
  unfold turn
  rw [going]
  cases ok : call.ok with
  | true =>
      constructor
      · simp only [Bool.false_eq_true, if_false, if_true]
        exact decide_eq_true (not_le.mp late)
      · simp
  | false =>
      constructor
      · simp
      · simp

end Deadline

theorem print_isSome_iff (state : State) :
    (print state).isSome = true ↔
      0 < state.latencies.length ∧ state.latencies.length ≤ LatClientApp.maxSamples := by
  rw [print, LatClientApp.print_isSome_iff, List.length_map]

/-- For every run whose calls complete before the deadline up to a last one that
does not: the loop has ended with it, and the figures can be printed, if and
only if that call succeeds and the samples are not too many for the casts. -/
theorem ends_on_time_iff (timeDura : Int) (before : List Call) (late : Call)
    (early : Along (turn timeDura) (InTime timeDura) start before)
    (passed : ¬InTime timeDura (run (turn timeDura) start before) late) :
    ((run (turn timeDura) start (before ++ [late])).timeout = true ∧
        (print (run (turn timeDura) start (before ++ [late]))).isSome = true) ↔
      late.ok = true ∧ before.countP (·.ok) + 1 ≤ LatClientApp.maxSamples := by
  obtain ⟨going, samples⟩ := run_inTime timeDura before start rfl early
  obtain ⟨timeout, length⟩ := turn_late going passed
  have none_before : start.latencies.length = 0 := rfl
  rw [run_append, run_cons, run_nil, print_isSome_iff, timeout, length, samples, none_before]
  cases late.ok with
  | true => simp only [Bool.toNat_true, true_and]; omega
  | false => simp

/-- A success in time and a success behind the deadline. -/
theorem late_success_ends :
    (run (turn 10) start ([{ ok := true, rpc := 3, rest := 1 }] ++
        [{ ok := true, rpc := 20, rest := 0 }])).timeout = true ∧
      (print (run (turn 10) start ([{ ok := true, rpc := 3, rest := 1 }] ++
        [{ ok := true, rpc := 20, rest := 0 }]))).isSome = true := by
  apply (ends_on_time_iff 10 [{ ok := true, rpc := 3, rest := 1 }]
    { ok := true, rpc := 20, rest := 0 } ⟨by decide, trivial⟩ (by decide)).mpr
  exact ⟨rfl, by decide⟩

/-- The call behind the deadline fails, and the loop goes on. -/
theorem late_failure_goes_on :
    ¬∀ (timeDura : Int) (before : List Call) (late : Call),
      Along (turn timeDura) (InTime timeDura) start before →
      ¬InTime timeDura (run (turn timeDura) start before) late →
      (run (turn timeDura) start (before ++ [late])).timeout = true ∧
        (print (run (turn timeDura) start (before ++ [late]))).isSome = true := by
  intro always
  have ended := (always 10 [{ ok := true, rpc := 3, rest := 1 }]
    { ok := false, rpc := 20, rest := 0 } ⟨by decide, trivial⟩ (by decide)).1
  exact absurd ended (by decide)

end RpcBench.Grpc.GrpcLatClientApp
