import RpcBench.RpcHello.Accounting
import Mathlib.Data.List.FinRange

/-! # The threads of both Rust programs

`client.rs` and `server.rs` start a thread for each `tid`, and a client thread
connects to one server thread by its port.  A call is handled there, or fails
before that or on its way back; nobody says why.  Which thread is next is open. -/
set_option autoImplicit false

namespace RpcBench.RpcHello

structure ServerArgs where
  port : UInt16
  replySize : Nat
  provisionCount : Nat
  numServerThreads : Nat
  deriving DecidableEq, Repr

structure MyGreeter where
  replies : List (List UInt8)
  count : UInt64
  deriving DecidableEq, Repr

/-- The remainder panics without a provisioned reply; the call is counted. -/
def MyGreeter.sayHello (args : ServerArgs) (greeter : MyGreeter) :
    Option (List UInt8) × MyGreeter :=
  let myCount := greeter.count.toNat
  (if args.provisionCount = 0 then none else greeter.replies[myCount % args.provisionCount]?,
    { greeter with count := greeter.count + 1 })

def runServer (args : ServerArgs) : MyGreeter where
  replies := List.replicate args.provisionCount (List.replicate args.replySize 43)
  count := 0

structure Setup where
  args : Args
  port : UInt16
  numClientThreads : Nat
  numServerThreads : Nat
  server : ServerArgs
  deriving DecidableEq, Repr

namespace Setup

/-- `main` runs thread 0 in any case. -/
def clients (setup : Setup) : Nat := max 1 setup.numClientThreads

def servers (setup : Setup) : Nat := max 1 setup.server.numServerThreads

/-- `args.port + tid as u16`, as the release build has it. -/
def listenPort (setup : Setup) (tid : Fin setup.servers) : UInt16 :=
  setup.server.port + UInt16.ofNat tid

def connectPort (setup : Setup) (tid : Fin setup.clients) : UInt16 :=
  setup.port + UInt16.ofNat (tid % setup.numServerThreads)

/-- The server thread that a client thread finds.  Nobody can be found at port 0. -/
def connect (setup : Setup) (tid : Fin setup.clients) : Option (Fin setup.servers) :=
  if setup.connectPort tid = 0 then none
  else (List.finRange setup.servers).find? fun server =>
    setup.listenPort server = setup.connectPort tid

end Setup

/-- How far a call is.  A number that was not issued yet counts as sent. -/
inductive Place where
  | sent
  | replied (message : List UInt8)
  | failed
  deriving DecidableEq, Repr

structure Deployment (setup : Setup) where
  benches : Fin setup.clients → Bench
  greeters : Fin setup.servers → MyGreeter
  place : Fin setup.clients → Nat → Place
  /-- the calls that a server thread got, in order -/
  handled : Fin setup.servers → List (Fin setup.clients × Nat)

/-- A call is handled, or fails; `select!` of a client thread wakes. -/
inductive Event (setup : Setup) where
  | handle (thread : Fin setup.clients) (number : Nat)
  | fail (thread : Fin setup.clients) (number : Nat)
  | turn (thread : Fin setup.clients) (turn : Turn)

/-- A thread that does not get a connection: `unwrap` panics before `run_bench`. -/
def unconnected : Bench where
  replyFutures := .empty
  requested := []
  scnt := 0
  rcnt := 0
  nbytes := 0
  lastRcnt := 0
  lastNbytes := 0
  lastTs := 0
  warmupEnd := 0
  hist := []
  reports := []
  outcome := .panicked

namespace Deployment

variable {setup : Setup}

def init (setup : Setup) (clock : Fin setup.clients → Prologue) : Deployment setup where
  benches := fun thread =>
    if (setup.connect thread).isSome then Bench.start setup.args (clock thread) else unconnected
  greeters := fun _ => runServer setup.server
  place := fun _ _ => .sent
  handled := fun _ => []

def Holds (state : Deployment setup) (thread : Fin setup.clients) (number : Nat) : Prop :=
  number ∈ (state.benches thread).replyFutures.outstanding.map Prod.fst

instance (state : Deployment setup) (thread : Fin setup.clients) (number : Nat) :
    Decidable (state.Holds thread number) :=
  inferInstanceAs (Decidable (_ ∈ _))

/-- The future at the index is ready, or there is none left. -/
def woken (state : Deployment setup) (thread : Fin setup.clients) (turn : Turn) : Bool :=
  match (state.benches thread).replyFutures.outstanding[turn.index]? with
  | some (number, _) => state.place thread number ≠ .sent
  | none => (state.benches thread).replyFutures.outstanding.isEmpty

def put (thread : Fin setup.clients) (number : Nat) (place : Place) (state : Deployment setup) :
    Deployment setup :=
  { state with
    place := fun thread' number' =>
      if thread' = thread ∧ number' = number then place else state.place thread' number' }

/-- What becomes of a call that `say_hello` is done with. -/
def outcome : Option (List UInt8) → Place
  | some message => .replied message
  | none => .failed

def serve (server : Fin setup.servers) (thread : Fin setup.clients) (number : Nat)
    (state : Deployment setup) : Deployment setup :=
  let (reply, greeter) := (state.greeters server).sayHello setup.server
  { state with
    greeters := fun server' => if server' = server then greeter else state.greeters server'
    handled := fun server' =>
      if server' = server then state.handled server ++ [(thread, number)]
      else state.handled server' }.put thread number (outcome reply)

def step (histogram : Histogram) (clock : Fin setup.clients → Prologue)
    (state : Deployment setup) : Event setup → Deployment setup
  | .handle thread number =>
    match setup.connect thread with
    | none => state
    | some server =>
      if state.Holds thread number ∧ state.place thread number = .sent then
        state.serve server thread number
      else state
  | .fail thread number =>
    if state.Holds thread number then state.put thread number .failed else state
  | .turn thread turn =>
    if state.woken thread turn = true then
      { state with
        benches := fun thread' =>
          if thread' = thread then
            (state.benches thread).turn setup.args histogram (clock thread) turn
          else state.benches thread' }
    else state

end Deployment

end RpcBench.RpcHello
