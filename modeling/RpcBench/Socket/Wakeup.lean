import RpcBench.Bandwidth.HeaderWire
import RpcBench.Socket.Awake

/-! # No lost wake-up

The loop of `SocketBwServerApp::Run`, as far as it concerns one connection:
`epoll_wait` may deliver the queued event, and its bits decide which handlers
run.  The client keeps its side open, so no event asks for `OnError`. -/
set_option autoImplicit false

namespace RpcBench.Socket

open ByteList Bandwidth Fallible BwServerEndpoint

inductive Hand where
  /-- no event is in hand; the loop may call `PollUntil` -/
  | polling
  /-- delivered, `IsReadable` has not been tested -/
  | received (event : Event)
  /-- `IsWritable` has not been tested -/
  | recvDone (event : Event)

structure Loop where
  ctx : Context Connection
  hand : Hand

inductive LoopStep where
  | outside (step : Outside)
  /-- `epoll_wait` looks at the connection -/
  | deliver
  /-- the loop goes on; `answers` are for the handler it calls, if any -/
  | dispatch (answers : Answers Choice)

namespace Hand

def readable : Hand → Bool
  | .received event => event.isReadable
  | _ => false

def writable : Hand → Bool
  | .received event => event.isWritable
  | .recvDone event => event.isWritable
  | .polling => false

end Hand

namespace Connection

def reported (c : Connection) (token : Token) : Event :=
  { events :=
      { epollin := c.wantsIn && !c.receiveQueue.isEmpty
        epollout := c.wantsOut && c.room }
    token }

end Connection

namespace Loop

/-- A delivery consumes the queued event; it reports nothing if the socket is
not ready any more. -/
def deliver (loop : Loop) : Loop :=
  let c := loop.ctx.sys
  if c.edge then
    { ctx := { loop.ctx with sys := { c with edge := false } }
      hand := if c.ready then .received (c.reported loop.ctx.this) else .polling }
  else loop

def step (codec : HeaderCodec) (loop : Loop) : LoopStep → Except Stop Loop
  | .outside step =>
    .ok { loop with ctx := { loop.ctx with sys := loop.ctx.sys.outside codec step } }
  | .deliver =>
    match loop.hand with
    | .polling => .ok loop.deliver
    | _ => .ok loop
  | .dispatch answers =>
    match loop.hand with
    | .polling => .ok loop
    | .received event =>
      if event.isReadable then do
        let ctx ← handle (Connection.kernel codec true).toKernel loop.ctx (.recvReady answers)
        return { ctx, hand := .recvDone event }
      else .ok { loop with hand := .recvDone event }
    | .recvDone event =>
      if event.isWritable then do
        let ctx ←
          handle (Connection.kernel codec true).toKernel loop.ctx (.sendReady answers.sends)
        return { ctx, hand := .polling }
      else .ok { loop with hand := .polling }

def start (codec : HeaderCodec) (this : Token) (fd : RawFd) (mem : Memory)
    (messages : List BwMessage) (early : List Outside) : Loop :=
  { ctx := Connection.accepted codec this fd mem messages early, hand := .polling }

/-- An event that leads to `OnRecvReady`, or to `OnSendReady`, is queued or in
hand. -/
def Notified (loop : Loop) : Prop :=
  (loop.ctx.ep.state ∈ [.NEW_RPC, .META_RECVED, .HEADER_RECVED] →
      loop.ctx.sys.receiveQueue ≠ [] →
      loop.ctx.sys.edge = true ∨ loop.hand.readable = true) ∧
    (loop.ctx.ep.txQueue ≠ [] → loop.ctx.sys.room = true →
      loop.ctx.sys.edge = true ∨ loop.hand.writable = true)

end Loop

/-! ## The invariant -/

section Invariant

open Connection

variable {codec : HeaderCodec} {message : BwMessage} {n : Nat} {this : Token} {fd : RawFd}

/-- Some session runs on the connection and is awake up to what is in hand. -/
def Attentive (codec : HeaderCodec) (messages : List BwMessage) (this : Token) (fd : RawFd)
    (readable writable : Bool) (s : Context Connection) : Prop :=
  ∃ p, Running codec true messages this fd s p ∧ Awake readable writable p.stage s.sys

theorem Attentive.of_call {s : Context Connection} {p : Session} {call : Call Choice}
    {readable writable : Bool} {result : Except Stop (Session × Connection)}
    (repeats : Repeats codec message)
    (running : Running codec true (List.replicate n message) this fd s p)
    (agree : Agree (Tracks this fd s.ep s.mem) (handle (kernel codec true).toKernel s call) result)
    (settled : Sat result (· = .pending) (Settled (wire codec true) this))
    (awake : Sat result (· = .pending)
      (fun after => Awake readable writable after.1.stage after.2)) :
    Sat (handle (kernel codec true).toKernel s call) (· = .pending)
      (Attentive codec (List.replicate n message) this fd readable writable) := by
  have kept := handle_kept (keeps_conserves true this fd (repeats.fits_replicate n)) s call
    ⟨running.live.tracks.this_eq, running.live.tracks.sock_eq, running.conserves⟩
  apply ((agree.sat (settled.and awake)).and kept).mono (fun _ stopped => stopped.1.1)
  intro s' kept
  obtain ⟨⟨ps, tracks, settled', awake'⟩, kept'⟩ := kept
  refine ⟨ps.1, ⟨Live.of_tracks _ tracks settled', kept'.inv⟩, ?_⟩
  rw [tracks.sys_eq]
  exact awake'

theorem recvReady_attentive {s : Context Connection} {writable : Bool}
    (repeats : Repeats codec message)
    (attentive : Attentive codec (List.replicate n message) this fd true writable s)
    (answers : Answers Choice) :
    Sat (handle (kernel codec true).toKernel s (.recvReady answers)) (· = .pending)
      (Attentive codec (List.replicate n message) this fd false writable) := by
  obtain ⟨p, running, awake⟩ := attentive
  exact Attentive.of_call repeats running (onRecvReady_agree _ answers running.live.tracks)
    (onRecvReady_settled _ fd answers s.mem.stale p s.sys running.live.settled
      running.live.tracks.sound)
    (session_onRecvReady_awake repeats answers s.mem.stale writable p s.sys running.live.settled
      running.live.tracks.sound running.conserves awake)

theorem sendReady_attentive {s : Context Connection} {writable : Bool}
    (repeats : Repeats codec message)
    (attentive : Attentive codec (List.replicate n message) this fd false writable s)
    (choices : List Choice) :
    Sat (handle (kernel codec true).toKernel s (.sendReady choices)) (· = .pending)
      (Attentive codec (List.replicate n message) this fd false false) := by
  obtain ⟨p, running, awake⟩ := attentive
  exact Attentive.of_call repeats running (onSendReady_agree _ choices s _ running.live.tracks)
    (onSendReady_settled _ fd choices p s.sys running.live.settled running.live.tracks.sound)
    (session_onSendReady_awake repeats choices writable p s.sys running.live.settled
      running.live.tracks.sound running.conserves awake)

theorem outside_attentive {s : Context Connection} {readable writable : Bool}
    (repeats : Repeats codec message)
    (attentive : Attentive codec (List.replicate n message) this fd readable writable s)
    (step : Outside) :
    Attentive codec (List.replicate n message) this fd readable writable
      { s with sys := s.sys.outside codec step } := by
  obtain ⟨p, running, awake⟩ := attentive
  have wants := (Registered.of_serves running.live.settled.1 running.live.tracks.sound.1).wantsIn
  exact ⟨p, running.outside (repeats.fits_replicate n) step, awake.outside wants step⟩

/-- Taking the event out of the queue changes nothing that a session sees. -/
theorem Connection.Running.delivered {s : Context Connection} {p : Session} {messages : List BwMessage}
    (running : Running codec true messages this fd s p) :
    Running codec true messages this fd { s with sys := { s.sys with edge := false } } p := by
  obtain ⟨⟨tracks, settled⟩, conserves⟩ := running
  exact ⟨⟨⟨tracks.this_eq, tracks.sock_eq, rfl, tracks.represents, tracks.sound,
    Footprint.refl _ _⟩, ⟨⟨settled.1.registered, settled.1.traffic⟩, settled.2⟩⟩, conserves⟩

theorem Loop.deliver_cases (loop : Loop) :
    loop.ctx.sys.edge = false ∧ loop.deliver = loop ∨
      loop.deliver =
        { ctx := { loop.ctx with sys := { loop.ctx.sys with edge := false } }
          hand :=
            if loop.ctx.sys.ready then .received (loop.ctx.sys.reported loop.ctx.this)
            else .polling } := by
  cases edge : loop.ctx.sys.edge with
  | false => exact Or.inl ⟨rfl, by simp only [Loop.deliver, edge, Bool.false_eq_true, if_false]⟩
  | true => exact Or.inr (by simp only [Loop.deliver, edge, if_true])

theorem deliver_attentive {loop : Loop} (polling : loop.hand = .polling)
    (attentive : Attentive codec (List.replicate n message) this fd false false loop.ctx) :
    Attentive codec (List.replicate n message) this fd loop.deliver.hand.readable
      loop.deliver.hand.writable loop.deliver.ctx := by
  rcases loop.deliver_cases with ⟨_, quiet⟩ | delivered
  · rw [quiet, polling]
    exact attentive
  rw [delivered]
  obtain ⟨p, running, awake⟩ := attentive
  refine ⟨p, running.delivered, ?_⟩
  have wants := (Registered.of_serves running.live.settled.1 running.live.tracks.sound.1).wantsIn
  have readableOf : loop.ctx.sys.receiveQueue ≠ [] →
      (loop.ctx.sys.wantsIn && !loop.ctx.sys.receiveQueue.isEmpty) = true := by
    intro queued
    cases queue : loop.ctx.sys.receiveQueue with
    | nil => exact absurd queue queued
    | cons byte bytes => simp [wants]
  have writableOf : loop.ctx.sys.wantsOut = true → loop.ctx.sys.room = true →
      (loop.ctx.sys.wantsOut && loop.ctx.sys.room) = true := by
    intro wantsOut room
    rw [wantsOut, room, Bool.true_and]
  cases isReady : loop.ctx.sys.ready with
  | false =>
      simp only [Connection.ready, Bool.or_eq_false_iff] at isReady
      have inbound : Inbound false { loop.ctx.sys with edge := false } := by
        intro queued
        exact absurd (isReady.1.symm.trans (readableOf queued)) (by simp)
      cases stage : p.stage with
      | idle held => exact inbound
      | receiving headerDone header data => exact inbound
      | replying header data rest =>
          rw [stage] at awake
          obtain ⟨owing, wantsOut, outbound⟩ := awake
          refine ⟨owing, wantsOut, ?_, outbound.remembered⟩
          intro room
          exact absurd (isReady.2.symm.trans (writableOf wantsOut room)) (by simp)
  | true =>
      have inbound : Inbound (loop.ctx.sys.reported loop.ctx.this).isReadable
          { loop.ctx.sys with edge := false } := fun queued => Or.inr (readableOf queued)
      cases stage : p.stage with
      | idle held => exact inbound
      | receiving headerDone header data => exact inbound
      | replying header data rest =>
          rw [stage] at awake
          obtain ⟨owing, wantsOut, outbound⟩ := awake
          exact ⟨owing, wantsOut, fun room => Or.inr (writableOf wantsOut room),
            outbound.remembered⟩

def Loop.Inv (codec : HeaderCodec) (messages : List BwMessage) (this : Token) (fd : RawFd)
    (loop : Loop) : Prop :=
  Attentive codec messages this fd loop.hand.readable loop.hand.writable loop.ctx

theorem Loop.step_inv {loop : Loop} (repeats : Repeats codec message) (input : LoopStep)
    (inv : loop.Inv codec (List.replicate n message) this fd) :
    Sat (loop.step codec input) (· = .pending)
      (Loop.Inv codec (List.replicate n message) this fd) := by
  obtain ⟨ctx, hand⟩ := loop
  cases input with
  | outside step => exact outside_attentive repeats inv step
  | deliver =>
      cases hand with
      | polling => exact deliver_attentive rfl inv
      | received event => exact inv
      | recvDone event => exact inv
  | dispatch answers =>
      cases hand with
      | polling => exact inv
      | received event =>
          change Attentive codec _ this fd event.isReadable event.isWritable ctx at inv
          cases readable : event.isReadable with
          | false =>
              rw [readable] at inv
              simp only [Loop.step, readable, Bool.false_eq_true, if_false]
              exact inv
          | true =>
              rw [readable] at inv
              simp only [Loop.step, readable, if_true]
              apply (recvReady_attentive repeats inv answers).bind
              intro ctx' inv'
              exact inv'
      | recvDone event =>
          change Attentive codec _ this fd false event.isWritable ctx at inv
          cases writable : event.isWritable with
          | false =>
              rw [writable] at inv
              simp only [Loop.step, writable, Bool.false_eq_true, if_false]
              exact inv
          | true =>
              simp only [Loop.step, writable, if_true]
              apply (sendReady_attentive repeats inv answers.sends).bind
              intro ctx' inv'
              exact inv'

theorem Loop.start_inv (repeats : Repeats codec message) (mem : Memory) (early : List Outside) :
    (start codec this fd mem (List.replicate n message) early).Inv codec
      (List.replicate n message) this fd := by
  refine ⟨Session.fresh, accepted_running (repeats.fits_replicate n) mem early, ?_⟩
  -- registering for readable queues an event for what has arrived early
  intro queued
  refine Or.inl ?_
  change ((fresh _).outsides codec early).receiveQueue ≠ [] at queued
  cases queue : ((fresh (List.replicate n message)).outsides codec early).receiveQueue with
  | nil => exact absurd queue queued
  | cons byte bytes =>
      simp [start, accepted, register, Connection.ready, Connection.wantsIn, queue,
        BwServerEndpoint.create, Interest.add, Interest.READABLE]

theorem Loop.Inv.notified {loop : Loop} {messages : List BwMessage}
    (inv : loop.Inv codec messages this fd) : loop.Notified := by
  obtain ⟨p, running, awake⟩ := inv
  have rep := running.live.tracks.represents
  constructor
  · intro waiting queued
    have state := rep.state_eq
    cases stage : p.stage with
    | idle held =>
        rw [stage] at awake
        exact awake queued
    | receiving headerDone header data =>
        rw [stage] at awake
        exact awake queued
    | replying header data rest =>
        rw [state, stage] at waiting
        simp [Stage.state] at waiting
  · intro some room
    cases stage : p.stage with
    | idle held => exact absurd (rep.queue_eq (by simp [stage])) some
    | receiving headerDone header data => exact absurd (rep.queue_eq (by simp [stage])) some
    | replying header data rest =>
        rw [stage] at awake
        exact awake.2.2.noticed room

end Invariant

/-- Whatever the payload size, the chunking and the interleaving: between two
handler calls the endpoint never waits for bytes it has, nor for send space it
has, without an event on its way. -/
theorem no_lost_wakeup (codec : HeaderCodec) (dataSize : Int32) (message : BwMessage)
    (run : runMessage dataSize = some message) (header : codec.headerBytes message ≠ [])
    (fits : (codec.headerBytes message).length + 8 ≤ kDefaultBufferSize) (n : Nat)
    (this : Token) (fd : RawFd) (mem : Memory) (early : List Outside) (steps : List LoopStep) :
    Sat
      (steps.foldlM (Loop.step codec)
        (Loop.start codec this fd mem (List.replicate n message) early))
      (· = .pending) Loop.Notified := by
  have repeats : Repeats codec message := ⟨header, fits, by
    have := runMessage_payload run
    omega⟩
  have preserved : ∀ (loop : Loop) (input : LoopStep),
      loop.Inv codec (List.replicate n message) this fd →
      Sat (loop.step codec input) (· = .pending)
        (Loop.Inv codec (List.replicate n message) this fd) :=
    fun loop input inv => Loop.step_inv repeats input inv
  apply (Sat.foldlM preserved steps _ (Loop.start_inv repeats mem early)).mono (fun _ => id)
  intro loop inv
  exact inv.notified

/-- Part of a request arrives, is delivered and read; the rest arrives. -/
theorem no_lost_wakeup_split_request :
    Sat
      (([.outside (.client 0), .outside (.client 30), .outside (.client 3), .outside (.arrive 12),
          .deliver,
          .dispatch
            { recvs := [⟨none, true, []⟩], header := ⟨none, true, [.arrive 30]⟩
              data := ⟨none, true, []⟩, sends := [] },
          .dispatch { recvs := [], header := ⟨none, true, []⟩, data := ⟨none, true, []⟩, sends := [] }]
        : List LoopStep).foldlM (Loop.step wireCodec)
        (Loop.start wireCodec 7 5 { block := fun _ => none, next := 0, stale := 0 }
          (List.replicate 2
            { header := { field1 := 1, field2 := true, field3 := [115, 116, 117, 102, 102] }
              data := [0, 0, 0] }) []))
      (· = .pending) Loop.Notified :=
  no_lost_wakeup wireCodec 3 _ (by decide) (by decide) (by decide) 2 7 5 _ [] _

end RpcBench.Socket
