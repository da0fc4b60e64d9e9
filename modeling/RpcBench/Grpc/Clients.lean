import RpcBench.Bandwidth.BwApp
import RpcBench.Grpc.ClosedLoop
import RpcBench.Grpc.Workload
import Mathlib.Algebra.Ring.Nat

/-! # The asynchronous clients

The two instances of the loop, and the bytes behind the summary that follows
it.  The duration comes from `std::stoi`, so the products with 1e6 are exact;
not modelled are the channel, the stubs and the printed rates. -/
set_option autoImplicit false

namespace RpcBench.Grpc

open ByteList Machine Acl

/-- The fields of `CommandOpts` that the clients read. -/
structure CommandOpts where
  concurrency : Int32
  dataSize : UInt64
  timeDurationSec : Int32
  deriving DecidableEq, Repr

namespace GrpcTputClientApp

/-- The payload of each call; the constructor of `std::string` throws when the
size is larger than a string can be. -/
def data (opts : CommandOpts) : Option Bytes :=
  if opts.dataSize.toNat ≤ Bandwidth.stringMaxSize then
    some (List.replicate opts.dataSize.toNat 97)
  else none

/-- In nanoseconds, from microseconds. -/
def timeDura (opts : CommandOpts) : Int := opts.timeDurationSec.toInt * 1000000 * 1000

def client (opts : CommandOpts) (data : Bytes) : Client Unit Bytes where
  generate := fun _ => (data, ())
  meterOk := fun _ => some { bytesAdd := opts.dataSize.toNat, qpsAdd := 1 }
  meterFailed := none

/-- `Job`, up to a loop test. -/
def job (opts : CommandOpts) (data : Bytes) (completions : List Completion) : Loop Unit Bytes :=
  run (Loop.turn (client opts data) (timeDura opts))
    (Loop.start (client opts data) opts.concurrency ()) completions

/-- The bytes behind `tx_gbps`. -/
def txBytes (opts : CommandOpts) (state : Loop Unit Bytes) : Nat :=
  state.count * opts.dataSize.toNat

end GrpcTputClientApp

namespace HotelReservationClientApp

/-- In nanoseconds, from seconds. -/
def timeDura (opts : CommandOpts) : Int := opts.timeDurationSec.toInt * 1000000000

def client (byteSizeLong : Request → Nat) : Client UInt32 (Request × Nat) where
  generate := generateWorkload byteSizeLong
  meterOk := fun call => some { bytesAdd := call.2, qpsAdd := 1 }
  meterFailed := some { bytesAdd := 0, qpsAdd := 0 }

/-- `Run`, up to a loop test. -/
def run (byteSizeLong : Request → Nat) (opts : CommandOpts) (gSeed : UInt32)
    (completions : List Completion) : Loop UInt32 (Request × Nat) :=
  Machine.run (Loop.turn (client byteSizeLong) (timeDura opts))
    (Loop.start (client byteSizeLong) opts.concurrency gSeed) completions

def txBytes (opts : CommandOpts) (state : Loop UInt32 (Request × Nat)) : Nat :=
  state.count * opts.dataSize.toNat

end HotelReservationClientApp

/-- Both clients keep the law of the closed loop. -/
theorem clients_closedLoop (opts : CommandOpts) (data : Bytes) (byteSizeLong : Request → Nat)
    (gSeed : UInt32) :
    ClosedLoopLaw (GrpcTputClientApp.client opts data) opts.concurrency
        (GrpcTputClientApp.timeDura opts) () ∧
      ClosedLoopLaw (HotelReservationClientApp.client byteSizeLong) opts.concurrency
        (HotelReservationClientApp.timeDura opts) gSeed := by
  constructor
  · exact closedLoop_law _ _ _ _
  · exact closedLoop_law _ _ _ _

def twoCalls : CommandOpts := { concurrency := 2, dataSize := 1, timeDurationSec := 0 }

/-- Two calls at a time: the look at the clock finds the deadline passed, and the
loop ends with the other call. -/
theorem clients_closedLoop_period :
    ∃ state later : Loop Unit Bytes,
      state = GrpcTputClientApp.job twoCalls [97] (List.replicate 999 (prompt 1)) ∧
      later = GrpcTputClientApp.job twoCalls [97]
        (List.replicate 999 (prompt 1) ++ [prompt 1, prompt 1]) ∧
      state.reqCnt = 2 ∧ later.calls.issued = state.calls.issued ∧ later.reqCnt = 0 ∧
      later.calls.outstanding = [] ∧
      (later.calls.settled.map Prod.fst).Perm (List.range later.calls.issued) := by
  have law := (clients_closedLoop twoCalls [97] (fun _ => 0) 0).1
  have period := period_due (GrpcTputClientApp.client twoCalls [97])
    (GrpcTputClientApp.timeDura twoCalls) twoCalls.concurrency (by decide) () 1 (by decide)
  simp only [GrpcTputClientApp.job]
  generalize GrpcTputClientApp.client twoCalls [97] = client at *
  generalize GrpcTputClientApp.timeDura twoCalls = timeDura at *
  generalize List.replicate 999 (prompt 1) = before at *
  obtain ⟨state, reached, delivers, going, due, passed⟩ := period
  have balanced := law.balanced before
  have drains := law.drains before (prompt 1) [prompt 1]
  have settled := law.settled (before ++ [prompt 1, prompt 1])
  have books := accounted_run client timeDura twoCalls.concurrency () before
  simp only [run_append] at settled ⊢
  rw [← reached] at balanced drains settled books ⊢
  have full : state.reqCnt = 2 := balanced.2.2.1 going
  obtain ⟨_, _, left⟩ := books.turn_late client delivers (Or.inr ⟨due, passed⟩)
  have turned : Accounted _ timeDura (state.turn client timeDura (prompt 1)) := books.turn
  have held := turned.held
  rw [left, full] at held
  have other : (state.turn client timeDura (prompt 1)).Delivers (prompt 1) := by
    constructor
    · rw [left, full]
      decide
    · change 0 < _
      omega
  obtain ⟨issued, _, ended⟩ := drains delivers due passed ⟨other, trivial⟩
  have atEnd := ended.mpr (by rw [left, full]; rfl)
  obtain ⟨none_left, numbers, _⟩ := settled (fun more => absurd atEnd (Int.ne_of_gt more))
  exact ⟨state, _, rfl, rfl, full, issued, atEnd, none_left, numbers⟩

end RpcBench.Grpc
