import RpcBench.Lib.Heap
import RpcBench.Lib.Run

/-! # `AsyncServerCall`: a call that drives itself

The servers `GrpcLatServerApp` and `HotelReservationServerApp` share this
object; they differ in the messages.  A tag is the address of an object, and
an address may be used again.  The serial numbers, and the logs, are the
model's own. -/
set_option autoImplicit false

namespace RpcBench.Grpc

inductive CallStatus where
  | create
  | process
  | finish
  deriving DecidableEq, Repr

/-- The fields of the object; `request` is written by the library. -/
structure AsyncServerCall (Request Reply : Type) where
  serial : Nat
  cq : Nat
  status : CallStatus
  request : Option Request
  result : Reply

inductive OpKind where
  | request
  | finish
  deriving DecidableEq, Repr

/-- A registration or a `Finish`, from the call to the delivery of its tag. -/
structure Op where
  kind : OpKind
  cq : Nat
  tag : Nat
  serial : Nat
  deriving DecidableEq, Repr

structure Server (Request Reply : Type) where
  heap : Heap (AsyncServerCall Request Reply)
  /-- registrations that wait for an RPC -/
  registered : List Op
  /-- replies on their way -/
  replying : List Op
  /-- events on the completion queues -/
  events : List Op
  /-- the queues whose thread runs -/
  threads : List Nat
  made : Nat
  /-- RPCs by the call that they were matched to -/
  matched : List (Nat × Request)
  /-- calls of `Finish` -/
  finished : List (Nat × Reply)
  /-- tags that `Next` returned -/
  delivered : List Op
  deleted : List Nat
  /-- an object was used after its deletion -/
  fault : Bool

namespace Server

variable {Request Reply : Type}

def init : Server Request Reply where
  heap := .empty
  registered := []
  replying := []
  events := []
  threads := []
  made := 0
  matched := []
  finished := []
  delivered := []
  deleted := []
  fault := false

/-- The case `CREATE` of `Proceed`. -/
def arm (this : Nat) (server : Server Request Reply) : Server Request Reply :=
  match server.heap.get? this with
  | none => { server with fault := true }
  | some call =>
    { server with
      heap := server.heap.set this { call with status := .process }
      registered := server.registered ++
        [{ kind := .request, cq := call.cq, tag := this, serial := call.serial }] }

def allocate (result : Reply) (cq this : Nat) (server : Server Request Reply) :
    Server Request Reply :=
  { server with
    heap := server.heap.alloc this
      { serial := server.made, cq, status := .create, request := none, result }
    made := server.made + 1 }

/-- `new AsyncServerCall`; the constructor ends with `Proceed`. -/
def construct (result : Reply) (cq this : Nat) (server : Server Request Reply) :
    Server Request Reply :=
  (server.allocate result cq this).arm this

/-- `responder_.Finish`, with the status set before. -/
def finish (this : Nat) (server : Server Request Reply) : Server Request Reply :=
  match server.heap.get? this with
  | none => { server with fault := true }
  | some call =>
    { server with
      heap := server.heap.set this { call with status := .finish }
      replying := server.replying ++
        [{ kind := .finish, cq := call.cq, tag := this, serial := call.serial }]
      finished := server.finished ++ [(call.serial, call.result)] }

/-- `Proceed`; `fresh` is the address of a successor. -/
def proceed (result : Reply) (fresh this : Nat) (server : Server Request Reply) :
    Server Request Reply :=
  match server.heap.get? this with
  | none => { server with fault := true }
  | some call =>
    match call.status with
    | .create => server.arm this
    | .process => (server.construct result call.cq fresh).finish this
    | .finish =>
      { server with heap := server.heap.free this, deleted := server.deleted ++ [call.serial] }

/-- What happens: a thread starts on its queue, an RPC comes in for a
registration, a reply has gone out, or a thread takes an event from its
queue.  The last number is an address that the allocator would return. -/
inductive Input (Request : Type) where
  | start (cq fresh : Nat)
  | incoming (index : Nat) (request : Request)
  | sent (index : Nat)
  | next (cq fresh : Nat)

def receive (op : Op) (request : Request) (server : Server Request Reply) :
    Server Request Reply :=
  match server.heap.get? op.tag with
  | none => { server with fault := true }
  | some call =>
    { server with
      heap := server.heap.set op.tag { call with request := some request }
      matched := server.matched ++ [(op.serial, request)] }

def step (result : Reply) (server : Server Request Reply) :
    Input Request → Server Request Reply
  | .start cq fresh =>
    if cq ∈ server.threads ∨ ¬server.heap.Fresh fresh then server
    else ({ server with threads := server.threads ++ [cq] }).construct result cq fresh
  | .incoming index request =>
    match server.registered[index]? with
    | none => server
    | some op =>
      ({ server with
        registered := server.registered.eraseIdx index
        events := server.events ++ [op] }).receive op request
  | .sent index =>
    match server.replying[index]? with
    | none => server
    | some op =>
      { server with
        replying := server.replying.eraseIdx index
        events := server.events ++ [op] }
  | .next cq fresh =>
    if ¬server.heap.Fresh fresh then server
    else
      match server.events.find? (·.cq == cq) with
      | none => server
      | some op =>
        ({ server with
          events := server.events.eraseP (·.cq == cq)
          delivered := server.delivered ++ [op] }).proceed result fresh op.tag

def outstanding (server : Server Request Reply) : List Op :=
  server.registered ++ server.replying ++ server.events

end Server

end RpcBench.Grpc
