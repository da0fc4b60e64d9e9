import RpcBench.Grpc.Servers

/-! # Clients, the network and a server

The threads of an asynchronous client and one asynchronous server, with the
library between them.  A call is handed to one armed object of the server, or
is answered by a filter in front of it, or fails; the library does not say why.
Which thread runs next, and which call and which object come next, is open. -/
set_option autoImplicit false

namespace RpcBench.Grpc

/-- How far a call is.  A number that was not issued yet counts as sent. -/
inductive Place (Reply : Type) where
  | sent
  | serving (serial : Nat)
  | answered (reply : Option Reply)
  deriving DecidableEq, Repr

/-- What the parties are made of.  `passes` is the filter, whose verdict may differ
between calls that are alike. -/
structure Service (threads : Nat) (Source Call Request Reply : Type) where
  client : Client Source Call
  timeDura : Int
  request : Call → Request
  passes : Fin threads → Nat → Call → Bool
  result : Reply
  byteSizeLong : Reply → UInt64

structure Deployment (threads : Nat) (Source Call Request Reply : Type) where
  clients : Fin threads → Loop Source Call
  server : Server Request Reply
  place : Fin threads → Nat → Place Reply
  /-- the thread and the number of the call that an object serves -/
  caller : Nat → Option (Fin threads × Nat)

/-- A thread of the server starts or takes an event from its queue; a reply goes
out; an armed object gets a call; the filter refuses one; one fails; `Next` of
a client returns one.  `position` is a place among the calls that the client
holds, `index` one among the registrations or the replies. -/
inductive Event (threads : Nat) where
  | start (cq fresh : Nat)
  | next (cq fresh : Nat)
  | reply (index : Nat)
  | deliver (thread : Fin threads) (position index : Nat)
  | refuse (thread : Fin threads) (position : Nat)
  | fail (thread : Fin threads) (position : Nat)
  | complete (thread : Fin threads) (position elapsed : Nat)

namespace Deployment

variable {threads : Nat} {Source Call Request Reply : Type}

def init (service : Service threads Source Call Request Reply) (concurrency : Int32)
    (source : Fin threads → Source) : Deployment threads Source Call Request Reply where
  clients := fun thread => Loop.start service.client concurrency (source thread)
  server := Server.init
  place := fun _ _ => .sent
  caller := fun _ => none

def put (thread : Fin threads) (number : Nat) (place : Place Reply)
    (state : Deployment threads Source Call Request Reply) :
    Deployment threads Source Call Request Reply :=
  { state with
    place := fun thread' number' =>
      if thread' = thread ∧ number' = number then place else state.place thread' number' }

variable [DecidableEq Reply]

def answer (serial : Nat) (state : Deployment threads Source Call Request Reply) :
    Deployment threads Source Call Request Reply :=
  match state.caller serial with
  | none => state
  | some (thread, number) =>
    if state.place thread number = .serving serial then
      state.put thread number (.answered (state.server.finished.lookup serial))
    else state

/-- What `Next` of a client says about a call that is answered. -/
def completion (service : Service threads Source Call Request Reply) (position elapsed : Nat)
    (reply : Option Reply) : Completion where
  index := position
  ok := reply.isSome
  ackSize := (reply.map service.byteSizeLong).getD 0
  elapsed := elapsed

def step (service : Service threads Source Call Request Reply)
    (state : Deployment threads Source Call Request Reply) :
    Event threads → Deployment threads Source Call Request Reply
  | .start cq fresh =>
    { state with server := state.server.step service.result (.start cq fresh) }
  | .next cq fresh =>
    { state with server := state.server.step service.result (.next cq fresh) }
  | .reply index =>
    match state.server.replying[index]? with
    | none => state
    | some op =>
      ({ state with server := state.server.step service.result (.sent index) }).answer op.serial
  | .deliver thread position index =>
    match (state.clients thread).calls.outstanding[position]?,
        state.server.registered[index]? with
    | some (number, call), some op =>
      if state.place thread number = .sent ∧ service.passes thread number call = true then
        ({ state with
          server := state.server.step service.result (.incoming index (service.request call))
          caller := fun serial =>
            if serial = op.serial then some (thread, number) else state.caller serial }).put
          thread number (.serving op.serial)
      else state
    | _, _ => state
  | .refuse thread position =>
    match (state.clients thread).calls.outstanding[position]? with
    | some (number, call) =>
      if state.place thread number = .sent ∧ service.passes thread number call = false then
        state.put thread number (.answered none)
      else state
    | none => state
  | .fail thread position =>
    match (state.clients thread).calls.outstanding[position]? with
    | some (number, _) =>
      match state.place thread number with
      | .answered _ => state
      | _ => state.put thread number (.answered none)
    | none => state
  | .complete thread position elapsed =>
    match (state.clients thread).calls.outstanding[position]? with
    | some (number, _) =>
      match state.place thread number with
      | .answered reply =>
        { state with
          clients := fun thread' =>
            if thread' = thread then
              (state.clients thread).turn service.client service.timeDura
                (completion service position elapsed reply)
            else state.clients thread' }
      | _ => state
    | none => state

end Deployment

open ByteList

/-- `GrpcTputClientApp` and its server; `byteSizeLong` is that of the `Ack`. -/
def throughput (threads : Nat) (opts : CommandOpts) (data ack : Bytes)
    (byteSizeLong : Bytes → UInt64) : Service threads Unit Bytes Bytes Bytes where
  client := GrpcTputClientApp.client opts data
  timeDura := GrpcTputClientApp.timeDura opts
  request := id
  passes := fun _ _ _ => true
  result := ack
  byteSizeLong := byteSizeLong

end RpcBench.Grpc
