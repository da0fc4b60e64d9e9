import RpcBench.Socket.Client
import RpcBench.Socket.Served

/-! # One TCP connection between the client and an endpoint

Bytes go from the client through the wire into the receive queue of the
endpoint's socket, and replies through its send queue back.  The client, the
wire and the send space move by themselves (`Outside` steps), between handler
calls and behind every system call of a handler. -/
set_option autoImplicit false

namespace RpcBench.Socket

open ByteList Bandwidth Fallible BwServerEndpoint

inductive Outside where
  /-- a step of the client, with up to `count` bytes granted -/
  | client (count : Nat)
  /-- up to `count` bytes on the wire reach the receive queue -/
  | arrive (count : Nat)
  /-- there is room in the send queue again -/
  | space
  deriving DecidableEq, Repr

structure Connection where
  client : Client
  inFlight : Bytes
  receiveQueue : Bytes
  sendQueue : Bytes
  history : History
  /-- room in the send queue, and whether a `send` has failed for want of it -/
  room : Bool
  noSpace : Bool
  /-- an event for the socket is queued in the epoll instance -/
  edge : Bool
  deriving DecidableEq, Repr

/-- What decides the outcome of a system call: how many bytes it may move
(`none` is a would-block), whether room is left, and what happens before the
next call. -/
structure Choice where
  count : Option Nat
  room : Bool
  later : List Outside

namespace Connection

def wantsIn (c : Connection) : Bool :=
  c.history.registered.any fun event => event.events.epollin

def wantsOut (c : Connection) : Bool :=
  c.history.registered.any fun event => event.events.epollout

def ready (c : Connection) : Bool :=
  c.wantsIn && !c.receiveQueue.isEmpty || c.wantsOut && c.room

def outside (codec : HeaderCodec) (c : Connection) : Outside → Connection
  | .client count =>
    let after := c.client.step codec count c.sendQueue
    { c with client := after.1, inFlight := c.inFlight ++ after.2.1, sendQueue := after.2.2 }
  | .arrive count =>
    let bytes := c.inFlight.take count
    { c with
      inFlight := c.inFlight.drop count
      receiveQueue := c.receiveQueue ++ bytes
      edge := c.edge || (c.wantsIn && !bytes.isEmpty) }
  | .space =>
    { c with room := true, noSpace := false, edge := c.edge || (c.wantsOut && c.noSpace) }

def outsides (codec : HeaderCodec) (steps : List Outside) (c : Connection) : Connection :=
  steps.foldl (outside codec) c

def taken (nbytes : Nat) (c : Connection) : Connection :=
  { c with
    receiveQueue := c.receiveQueue.drop nbytes
    history := c.history.received (c.receiveQueue.take nbytes) }

/-- How much a `recv` returns.  With `greedy` that is all it can,
`min(requested, available)`; otherwise the choice may cut it short. -/
def recvCount (greedy : Bool) (choice : Choice) (len : Nat) (c : Connection) : Nat :=
  if greedy then min len c.receiveQueue.length
  else min len (min (choice.count.getD 0) c.receiveQueue.length)

def recv (codec : HeaderCodec) (greedy : Bool) (choice : Choice) (_fd : RawFd) (len : Nat)
    (c : Connection) : RecvResult × Connection :=
  let nbytes := recvCount greedy choice len c
  if nbytes = 0 ∧ len ≠ 0 ∨ greedy = false ∧ choice.count = none then
    (.error .EAGAIN, c.outsides codec choice.later)
  else (.count (c.receiveQueue.take nbytes), (c.taken nbytes).outsides codec choice.later)

/-- How much a `send` takes: any part of the bytes, if there is room. -/
def sendCount (choice : Choice) (bytes : Bytes) (c : Connection) : Nat :=
  if c.room then min (choice.count.getD 0) bytes.length else 0

/-- `send`; that there was no room is remembered until there is. -/
def send (codec : HeaderCodec) (choice : Choice) (_fd : RawFd) (bytes : Bytes) (c : Connection) :
    SendResult × Connection :=
  let nbytes := sendCount choice bytes c
  if nbytes = 0 ∧ bytes ≠ [] ∨ choice.count = none then
    (.error .EAGAIN, ({ c with room := false, noSpace := true }).outsides codec choice.later)
  else
    (.count nbytes,
      ({ c with
          sendQueue := c.sendQueue ++ bytes.take nbytes
          history := c.history.sent (bytes.take nbytes)
          room := choice.room }).outsides codec choice.later)

/-- `EPOLL_CTL_ADD` and `EPOLL_CTL_MOD` queue an event if the socket is ready. -/
def register (event : Event) (c : Connection) : Connection :=
  let registered := { c with history := { c.history with registered := some event } }
  { registered with edge := c.edge || registered.ready }

/-! ## Steps outside -/

section Outside

variable {codec : HeaderCodec}

@[simp] theorem outsides_nil (c : Connection) : c.outsides codec [] = c := rfl

@[simp] theorem outsides_cons (step : Outside) (steps : List Outside) (c : Connection) :
    c.outsides codec (step :: steps) = (c.outside codec step).outsides codec steps := rfl

theorem outsides_rule (Inv : Connection → Prop)
    (preserved : ∀ c step, Inv c → Inv (c.outside codec step)) (steps : List Outside) :
    ∀ c, Inv c → Inv (c.outsides codec steps) := by
  induction steps with
  | nil => intro c inv; exact inv
  | cons step steps ih =>
      intro c inv
      exact ih (c.outside codec step) (preserved c step inv)

@[simp] theorem outside_history (c : Connection) (step : Outside) :
    (c.outside codec step).history = c.history := by
  cases step <;> rfl

@[simp] theorem outsides_history (c : Connection) (steps : List Outside) :
    (c.outsides codec steps).history = c.history := by
  refine outsides_rule (fun after => after.history = c.history) ?_ steps c rfl
  intro after step same
  rw [outside_history, same]

end Outside

/-! ## The two transfers -/

theorem recvCount_le (greedy : Bool) (choice : Choice) (len : Nat) (c : Connection) :
    recvCount greedy choice len c ≤ len ∧
      recvCount greedy choice len c ≤ c.receiveQueue.length := by
  unfold recvCount
  split <;> omega

theorem recvCount_greedy (choice : Choice) (len : Nat) (c : Connection) :
    recvCount true choice len c = min len c.receiveQueue.length := rfl

theorem sendCount_le (choice : Choice) (bytes : Bytes) (c : Connection) :
    sendCount choice bytes c ≤ bytes.length := by
  unfold sendCount
  split <;> omega

theorem recv_cases (codec : HeaderCodec) (greedy : Bool) (choice : Choice) (fd : RawFd)
    (len : Nat) (c : Connection) :
    (recv codec greedy choice fd len c = (.error .EAGAIN, c.outsides codec choice.later) ∧
      (greedy = true → c.receiveQueue = [])) ∨
    ∃ nbytes, nbytes ≤ len ∧ nbytes ≤ c.receiveQueue.length ∧ (nbytes = 0 → len = 0) ∧
      (greedy = true → nbytes = min len c.receiveQueue.length) ∧
      recv codec greedy choice fd len c =
        (.count (c.receiveQueue.take nbytes), (c.taken nbytes).outsides codec choice.later) := by
  unfold recv
  simp only
  split
  · next blocked =>
      refine Or.inl ⟨rfl, ?_⟩
      intro greedyEq
      rcases blocked with ⟨zero, some⟩ | ⟨notGreedy, _⟩
      · rw [greedyEq, recvCount_greedy] at zero
        exact List.eq_nil_of_length_eq_zero (by omega)
      · rw [greedyEq] at notGreedy
        cases notGreedy
  · next granted =>
      obtain ⟨lenLe, queueLe⟩ := recvCount_le greedy choice len c
      refine Or.inr ⟨_, lenLe, queueLe, ?_, ?_, rfl⟩
      · intro zero
        by_contra some
        exact granted (Or.inl ⟨zero, some⟩)
      · intro greedyEq
        rw [greedyEq, recvCount_greedy]

theorem send_cases (codec : HeaderCodec) (choice : Choice) (fd : RawFd) (bytes : Bytes)
    (c : Connection) :
    send codec choice fd bytes c =
      (.error .EAGAIN, ({ c with room := false, noSpace := true }).outsides codec choice.later) ∨
    ∃ nbytes, nbytes ≤ bytes.length ∧ (nbytes = 0 → bytes = []) ∧
      send codec choice fd bytes c =
        (.count nbytes,
          ({ c with
              sendQueue := c.sendQueue ++ bytes.take nbytes
              history := c.history.sent (bytes.take nbytes)
              room := choice.room }).outsides codec choice.later) := by
  unfold send
  simp only
  split
  · exact Or.inl rfl
  · next granted =>
      refine Or.inr ⟨_, sendCount_le choice bytes c, ?_, rfl⟩
      intro zero
      by_contra some
      exact granted (Or.inl ⟨zero, some⟩)

def kernel (codec : HeaderCodec) (greedy : Bool) : ConnectionKernel Connection Choice where
  recv := recv codec greedy
  send := send codec
  epollCtlMod := fun _ event c =>
    if c.history.registered.isSome then some (c.register event) else none
  getpeername := fun choice _ c => some (c.outsides codec choice.later)
  epollCtlAdd := fun _ event c =>
    if c.history.registered.isSome then none else some (c.register event)
  epollCtlDel := fun _ c =>
    if c.history.registered.isSome then
      some { c with history := { c.history with registered := none }, edge := false }
    else none
  close := fun _ c => c
  recv_le := by
    intro choice fd len c bytes c' received
    rcases recv_cases codec greedy choice fd len c with ⟨blocked, _⟩ | ⟨nbytes, fits, _, _, _, moved⟩
    · rw [blocked] at received
      simp at received
    · rw [moved] at received
      simp only [Prod.mk.injEq, RecvResult.count.injEq] at received
      rw [← received.1, List.length_take]
      omega
  send_le := by
    intro choice fd bytes c nbytes c' sent
    rcases send_cases codec choice fd bytes c with blocked | ⟨count, fits, _, moved⟩
    · rw [blocked] at sent
      simp at sent
    · rw [moved] at sent
      simp only [Prod.mk.injEq, SendResult.count.injEq] at sent
      omega

def wire (codec : HeaderCodec) (greedy : Bool) : Wire (kernel codec greedy).toKernel where
  history := Connection.history
  drained := fun _ => False
  recv_count := by
    intro choice fd len c bytes c' received
    change recv codec greedy choice fd len c = _ at received
    rcases recv_cases codec greedy choice fd len c with
      ⟨blocked, _⟩ | ⟨nbytes, _, fits, some, _, moved⟩
    · rw [blocked] at received
      simp at received
    · rw [moved] at received
      simp only [Prod.mk.injEq, RecvResult.count.injEq] at received
      obtain ⟨rfl, rfl⟩ := received
      refine ⟨by simp [taken], False.elim, ?_⟩
      intro nothing asked
      apply asked
      apply some
      have := congrArg List.length nothing
      rw [List.length_take, List.length_nil] at this
      omega
  recv_error := by
    intro choice fd len c errno c' received
    change recv codec greedy choice fd len c = _ at received
    rcases recv_cases codec greedy choice fd len c with
      ⟨blocked, _⟩ | ⟨nbytes, _, fits, some, _, moved⟩
    · rw [blocked] at received
      simp only [Prod.mk.injEq, RecvResult.error.injEq] at received
      obtain ⟨rfl, rfl⟩ := received
      exact ⟨rfl, outsides_history _ _, id⟩
    · rw [moved] at received
      simp at received
  send_count := by
    intro choice fd bytes c nbytes c' sent
    change send codec choice fd bytes c = _ at sent
    rcases send_cases codec choice fd bytes c with blocked | ⟨count, _, _, moved⟩
    · rw [blocked] at sent
      simp at sent
    · rw [moved] at sent
      simp only [Prod.mk.injEq, SendResult.count.injEq] at sent
      obtain ⟨rfl, rfl⟩ := sent
      exact ⟨outsides_history _ _, id⟩
  send_error := by
    intro choice fd bytes c errno c' sent
    change send codec choice fd bytes c = _ at sent
    rcases send_cases codec choice fd bytes c with blocked | ⟨count, _, _, moved⟩
    · rw [blocked] at sent
      simp only [Prod.mk.injEq, SendResult.error.injEq] at sent
      obtain ⟨rfl, rfl⟩ := sent
      exact ⟨rfl, outsides_history _ _, id⟩
    · rw [moved] at sent
      simp at sent
  mod := by
    intro fd event c registered
    exact ⟨c.register event, if_pos registered, rfl, id⟩

/-! ## Conservation -/

/-- Every byte the client has sent was taken by the endpoint, waits in its
receive queue or is on the wire; every byte of a reply was taken by the client
or waits in the send queue. -/
def Conserves (codec : HeaderCodec) (messages : List BwMessage) (c : Connection) : Prop :=
  ∃ pushed received, InOrder codec messages c.client pushed received ∧
    pushed = c.history.consumed ++ (c.receiveQueue ++ c.inFlight) ∧
    c.history.written = received ++ c.sendQueue

section Conservation

variable {codec : HeaderCodec} {messages : List BwMessage}

theorem Conserves.outside {c : Connection} (fits : Fits codec messages)
    (conserves : Conserves codec messages c) (step : Outside) :
    Conserves codec messages (c.outside codec step) := by
  obtain ⟨pushed, received, inOrder, pushedEq, writtenEq⟩ := conserves
  cases step with
  | client count =>
      obtain ⟨taken, split, inOrder'⟩ := Client.step_spec count c.sendQueue fits inOrder
      refine ⟨_, _, inOrder', ?_, ?_⟩
      · simp [Connection.outside, pushedEq]
      · simp only [Connection.outside, writtenEq]
        rw [List.append_assoc, ← split]
  | arrive count =>
      refine ⟨pushed, received, inOrder, ?_, writtenEq⟩
      simp [Connection.outside, pushedEq]
  | space => exact ⟨pushed, received, inOrder, pushedEq, writtenEq⟩

theorem Conserves.outsides (fits : Fits codec messages) (steps : List Outside) (c : Connection)
    (conserves : Conserves codec messages c) : Conserves codec messages (c.outsides codec steps) :=
  outsides_rule _ (fun _ step holds => holds.outside fits step) steps c conserves

theorem keeps_conserves (greedy : Bool) (this : Token) (fd : RawFd) (fits : Fits codec messages) :
    Keeps (kernel codec greedy).toKernel this fd (fun _ => Conserves codec messages) where
  recv := by
    intro choice len _ c conserves
    change Conserves codec messages (recv codec greedy choice fd len c).2
    rcases recv_cases codec greedy choice fd len c with
      ⟨blocked, _⟩ | ⟨nbytes, _, _, _, _, moved⟩
    · rw [blocked]
      exact conserves.outsides fits _ _
    · rw [moved]
      apply Conserves.outsides fits
      obtain ⟨pushed, received, inOrder, pushedEq, writtenEq⟩ := conserves
      refine ⟨pushed, received, inOrder, ?_, writtenEq⟩
      simp only [taken, History.received, List.append_assoc]
      rw [← List.append_assoc (List.take _ _), List.take_append_drop]
      exact pushedEq
  send := by
    intro choice bytes _ c conserves
    change Conserves codec messages (send codec choice fd bytes c).2
    rcases send_cases codec choice fd bytes c with blocked | ⟨nbytes, _, _, moved⟩
    · rw [blocked]
      exact Conserves.outsides fits _ _ conserves
    · rw [moved]
      apply Conserves.outsides fits
      obtain ⟨pushed, received, inOrder, pushedEq, writtenEq⟩ := conserves
      refine ⟨pushed, received, inOrder, pushedEq, ?_⟩
      simp [History.sent, writtenEq]
  mod := by
    intro _ interest c c' conserves moved
    change (if _ then some (c.register _) else none) = some c' at moved
    simp only [Option.ite_none_right_eq_some, Option.some.injEq] at moved
    rw [← moved.2]
    exact conserves

end Conservation

/-! ## The endpoint on the connection -/

def fresh (messages : List BwMessage) : Connection :=
  { client := Client.init messages
    inFlight := [], receiveQueue := [], sendQueue := []
    history := { consumed := [], written := [], registered := none }
    room := true, noSpace := false, edge := false }

def accepted (codec : HeaderCodec) (this : Token) (fd : RawFd) (mem : Memory)
    (messages : List BwMessage) (early : List Outside) : Context Connection :=
  { this, mem
    ep := BwServerEndpoint.create fd
    sys := ((fresh messages).outsides codec early).register
      (registration this (BwServerEndpoint.create fd).interest) }

theorem onAccepted_accepted (codec : HeaderCodec) (greedy : Bool) (this : Token) (fd : RawFd)
    (mem : Memory) (messages : List BwMessage) (early : List Outside) :
    onAccepted (kernel codec greedy) { count := none, room := true, later := early }
        { this, mem, ep := BwServerEndpoint.create fd, sys := fresh messages } =
      .ok (accepted codec this fd mem messages early) := by
  have unregistered : ((fresh messages).outsides codec early).history.registered = none := by
    rw [outsides_history]
    rfl
  simp only [onAccepted, kernel, BwServerEndpoint.create, unregistered, Option.isSome_none]
  rfl

structure Running (codec : HeaderCodec) (greedy : Bool) (messages : List BwMessage)
    (this : Token) (fd : RawFd) (s : Context Connection) (p : Session) : Prop where
  live : Live (wire codec greedy) this fd s p
  conserves : Conserves codec messages s.sys

section Running

variable {codec : HeaderCodec} {greedy : Bool} {messages : List BwMessage} {this : Token}
  {fd : RawFd}

theorem fresh_conserves : Conserves codec messages (fresh messages) :=
  ⟨[], [], Client.init_inOrder codec messages, rfl, rfl⟩

theorem accepted_running (fits : Fits codec messages) (mem : Memory) (early : List Outside) :
    Running codec greedy messages this fd (accepted codec this fd mem messages early)
      Session.fresh := by
  have histEq : ((fresh messages).outsides codec early).history = (fresh messages).history :=
    outsides_history _ _
  have conserves := fresh_conserves.outsides fits early
  refine ⟨⟨⟨rfl, rfl, rfl, ⟨rfl, ?_⟩, ⟨rfl, rfl⟩, Footprint.refl _ _⟩, ⟨rfl, ?_⟩, ?_⟩, conserves⟩
  · exact ⟨rfl, rfl, rfl, rfl, rfl, rfl, rfl, rfl⟩
  · change Traffic _ ((fresh messages).outsides codec early).history.consumed
      ((fresh messages).outsides codec early).history.written _
    rw [histEq]
    exact ⟨[], [], rfl, by simp, fun torn => absurd rfl torn, Served.nil, rfl⟩
  · exact Session.Armed.of_stage (by simp [Session.fresh])

theorem Running.outside {s : Context Connection} {p : Session} (fits : Fits codec messages)
    (running : Running codec greedy messages this fd s p) (step : Outside) :
    Running codec greedy messages this fd { s with sys := s.sys.outside codec step } p := by
  obtain ⟨⟨tracks, serves, armed⟩, conserves⟩ := running
  have histEq : (s.sys.outside codec step).history = s.sys.history := outside_history _ _
  refine ⟨⟨⟨tracks.this_eq, tracks.sock_eq, rfl, tracks.represents, tracks.sound,
    Footprint.refl _ _⟩, ⟨?_, ?_⟩, armed⟩, conserves.outside fits step⟩
  · change (s.sys.outside codec step).history.registered = _
    rw [histEq]
    exact serves.registered
  · change Traffic p (s.sys.outside codec step).history.consumed
      (s.sys.outside codec step).history.written False
    rw [histEq]
    exact serves.traffic

theorem Running.handle {s : Context Connection} {p : Session} (fits : Fits codec messages)
    (running : Running codec greedy messages this fd s p) (call : Call Choice) :
    Sat (BwServerEndpoint.handle (kernel codec greedy).toKernel s call) (· = .pending)
      (fun s' => ∃ p', Running codec greedy messages this fd s' p') := by
  have kept := handle_kept (keeps_conserves greedy this fd fits) s call
    ⟨running.live.tracks.this_eq, running.live.tracks.sock_eq, running.conserves⟩
  refine ((handle_live (wire codec greedy) running.live call).and kept).mono
    (fun _ both => both.1) ?_
  intro s' kept
  obtain ⟨⟨⟨p', live⟩, _⟩, kept'⟩ := kept
  exact ⟨p', live, kept'.inv⟩

end Running

end Connection

end RpcBench.Socket
