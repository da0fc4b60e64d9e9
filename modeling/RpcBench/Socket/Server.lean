import RpcBench.Lib.Run
import RpcBench.Socket.Host

/-! # `SocketBwServerApp`: the event loop with all its connections

One step of the server handles one event of the current batch, or calls
`PollUntil` for the next one.  Between them clients connect, connections break
and the kernel queues notifications.  `accept` succeeds while the backlog is
not empty and returns a number that is not open; `make_shared` returns an
address that is not in use.

An endpoint object lives as long as the map holds it.  Not modelled are the
log lines, the time a poll may take, and `fcntl`, `getsockopt` and `epoll_wait`
themselves failing. -/
set_option autoImplicit false

namespace RpcBench.Socket

open Fallible BwServerEndpoint

structure Server where
  /-- `listener_.sockfd` -/
  listener : RawFd
  maxEvents : Nat
  mem : Memory
  /-- the endpoint objects, by address -/
  object : Token → Option BwServerEndpoint
  /-- `endpoints_` -/
  endpoints : RawFd → Option Token
  /-- the events of the current batch that have not been handled -/
  batch : List Event
  sys : Host

inductive Process where
  | running (server : Server)
  /-- the process is gone -/
  | stopped (reason : Stop)

structure Pick where
  fd : RawFd
  input : Bool
  output : Bool
  deriving DecidableEq, Repr

/-- What the handling of one event meets: the number and the address of a new
endpoint and its `getpeername`, or the answers to `OnRecvReady` and to
`OnSendReady`. -/
structure Handling where
  fd : RawFd
  address : Token
  peername : Outcome
  answers : Answers Outcome
  sends : List Outcome

inductive Input where
  | connect
  /-- the other end of a connection closes or resets it -/
  | hangUp (fd : RawFd) (reset : Bool)
  /-- the same before the connection is accepted -/
  | hangUpQueued (index : Nat) (reset : Bool)
  /-- bytes have arrived, or there is send space again -/
  | ready (fd : RawFd)
  | pollUntil (picks : List Pick)
  | handle (handling : Handling)

namespace Server

def listenerToken (s : Server) : Token := s.listener.toNat

/-! ## Objects -/

/-- The destructors of the two owners. -/
def freeBuffers (ep : BwServerEndpoint) (mem : Memory) : Memory :=
  let mem := ep.headerBufferOwner.elim mem fun owner => owner.destroy mem
  ep.dataBufferOwner.elim mem fun owner => owner.destroy mem

/-- `~BwServerEndpoint()`, when the last `shared_ptr` goes. -/
def destroy (token : Token) (s : Server) : Server :=
  match s.object token with
  | none => s
  | some ep =>
    { s with
      object := Function.update s.object token none
      mem := freeBuffers ep s.mem
      sys := if ep.sock = INVALID_SOCKET then s.sys else Host.kernel.close ep.sock s.sys }

def erase (key : RawFd) (s : Server) : Server :=
  match s.endpoints key with
  | none => s
  | some token =>
    let s := s.destroy token
    { s with endpoints := Function.update s.endpoints key none }

/-- `endpoints_[key] = endpoint`; an endpoint that was there is dropped. -/
def assign (key : RawFd) (token : Token) (s : Server) : Server :=
  let s := (s.endpoints key).elim s fun old => s.destroy old
  { s with endpoints := Function.update s.endpoints key (some token) }

def context (token : Token) (ep : BwServerEndpoint) (s : Server) : Context Host :=
  { this := token, ep, mem := s.mem, sys := s.sys }

def store (ctx : Context Host) (s : Server) : Server :=
  { s with
    object := Function.update s.object ctx.this (some ctx.ep), mem := ctx.mem, sys := ctx.sys }

/-! ## The loop -/

/-- `accept` takes the first connection of the backlog. -/
def accept (fd : RawFd) (sys : Host) : Option Host :=
  match sys.backlog with
  | [] => none
  | peer :: backlog =>
    some { sys with sock := Function.update sys.sock fd (some { peer, item := none }), backlog }

def handleNewConnection (handling : Handling) (s : Server) : Except Stop Server :=
  match accept handling.fd s.sys with
  | none => .error .abort
  | some sys => do
    let s := { s with sys }
    let ctx ← onAccepted Host.kernel handling.peername
      (s.context handling.address (BwServerEndpoint.create handling.fd))
    return (s.store ctx).assign ctx.ep.sock handling.address

/-- `if (ev.IsReadable())`, and the two tests after it. -/
def testReadable (event : Event) (answers : Answers Outcome) (ctx : Context Host) :
    Except Stop (Context Host) :=
  if event.isReadable then onRecvReady Host.kernel.toKernel answers ctx else .ok ctx

def testWritable (event : Event) (choices : List Outcome) (ctx : Context Host) :
    Except Stop (Context Host) :=
  if event.isWritable then onSendReady Host.kernel.toKernel choices ctx else .ok ctx

def testClosing (event : Event) (ctx : Context Host) : Except Stop (Context Host) :=
  if event.isClosing then onError Host.kernel ctx else .ok ctx

/-- A data event, up to `OnError`. -/
def dispatch (event : Event) (handling : Handling) (ctx : Context Host) :
    Except Stop (Context Host) := do
  let ctx ← testReadable event handling.answers ctx
  let ctx ← testWritable event handling.sends ctx
  testClosing event ctx

/-- The body of the inner loop of `Run`. -/
def handleEvent (event : Event) (handling : Handling) (s : Server) : Except Stop Server :=
  if event.token = s.listenerToken then
    if event.isReadable then handleNewConnection handling s else .error .abort
  else
    match s.object event.token with
    | none => .error .badAccess
    | some ep => do
      let ctx ← dispatch event handling (s.context event.token ep)
      let s := s.store ctx
      return if event.isClosing then s.erase ctx.ep.sock else s

def lookListening (s : Server) : Server :=
  if s.sys.listening.queued then
    let event := s.sys.listening.reported .up (!s.sys.backlog.isEmpty) false
    { s with
      sys := { s.sys with listening := { s.sys.listening with queued := false } }
      batch := if event.isReadable then s.batch ++ [event] else s.batch }
  else s

def lookSock (pick : Pick) (s : Server) : Server :=
  match s.sys.sock pick.fd with
  | some ⟨peer, some item⟩ =>
    if item.queued then
      let event := item.reported peer pick.input pick.output
      { s with
        sys := s.sys.modify pick.fd Sock.seen
        batch := if event.events = {} then s.batch else s.batch ++ [event] }
    else s
  | _ => s

/-- `epoll_wait` looks at one descriptor: a queued notification is consumed,
and reported if one of its bits is ready. -/
def look (s : Server) (pick : Pick) : Server :=
  if pick.fd = s.listener then s.lookListening else s.lookSock pick

/-- `PollUntil`, when the inner loop has ended. -/
def pollUntil (picks : List Pick) (s : Server) : Server :=
  if s.batch = [] then (picks.take s.maxEvents).foldl look s else s

def Fresh (handling : Handling) (s : Server) : Prop :=
  s.sys.sock handling.fd = none ∧ 0 ≤ handling.fd ∧ handling.fd ≠ s.listener ∧
    s.object handling.address = none ∧ handling.address ≠ s.listenerToken

instance (handling : Handling) (s : Server) : Decidable (s.Fresh handling) :=
  haveI : Decidable (s.sys.sock handling.fd = none) :=
    decidable_of_iff _ Option.isNone_iff_eq_none
  haveI : Decidable (s.object handling.address = none) :=
    decidable_of_iff _ Option.isNone_iff_eq_none
  inferInstanceAs (Decidable (_ ∧ _ ∧ _ ∧ _ ∧ _))

/-- The next event is handled; a call that has not returned is no step. -/
def next (handling : Handling) (s : Server) : Process :=
  match s.batch with
  | [] => .running s
  | event :: batch =>
    if event.token = s.listenerToken ∧ ¬s.Fresh handling then .running s
    else
      match handleEvent event handling { s with batch } with
      | .ok s' => .running s'
      | .error .pending => .running s
      | .error reason => .stopped reason

def step (s : Server) : Input → Process
  | .connect =>
    .running
      { s with
        sys :=
          { s.sys with
            backlog := s.sys.backlog ++ [.up]
            listening := { s.sys.listening with queued := true } } }
  | .hangUp fd reset => .running { s with sys := s.sys.modify fd (Sock.hangUp reset) }
  | .hangUpQueued index reset =>
    .running { s with sys := { s.sys with backlog := s.sys.backlog.set index (.down reset) } }
  | .ready fd => .running { s with sys := s.sys.modify fd Sock.notify }
  | .pollUntil picks => .running (s.pollUntil picks)
  | .handle handling => s.next handling

def init (listener : RawFd) (maxEvents : Nat) (mem : Memory) : Server :=
  { listener, maxEvents, mem
    object := fun _ => none
    endpoints := fun _ => none
    batch := []
    sys :=
      { sock := fun _ => none
        listening := { event := registration listener.toNat Interest.READABLE, queued := false }
        backlog := [] } }

def smooth (fd : RawFd) (address : Token) : Handling :=
  { fd, address
    peername := .moves []
    answers := { recvs := [.moves []], header := .moves [], data := .moves [], sends := [] }
    sends := [] }

def emptyMemory : Memory := { block := fun _ => none, next := 0, stale := 0 }

def oneClient : List Input :=
  [.connect, .pollUntil [⟨3, true, false⟩], .handle (smooth 5 100), .hangUp 5 false,
    .pollUntil [⟨5, false, false⟩]]

end Server

namespace Process

def step (process : Process) (input : Input) : Process :=
  match process with
  | .running s => s.step input
  | .stopped reason => .stopped reason

/-- `holds` of the server, if the process still runs. -/
def Holds (holds : Server → Prop) : Process → Prop
  | .running s => holds s
  | .stopped _ => True

end Process

end RpcBench.Socket
