import RpcBench.Socket.Acks
import RpcBench.Socket.FrameLimits
import RpcBench.Socket.Wakeup

/-! # A run can always be completed

Every byte of the requests and replies goes through a few places in a fixed
order, and every state short of the end has some event that moves one on.  What
this needs of the server is that it never sleeps with work to do. -/
set_option autoImplicit false

namespace RpcBench.Socket

open ByteList Bandwidth Fallible BwServerEndpoint

def Client.pending (client : Client) : List BwMessage :=
  match client.phase with
  | .sending message _ _ => message :: client.todo
  | .receiving message _ => message :: client.todo
  | _ => client.todo

def Client.moves (client : Client) : Nat :=
  3 * client.todo.length +
    match client.phase with
    | .sending _ _ _ => 2
    | .receiving _ _ => 1
    | _ => 0

namespace Connection

def missing (codec : HeaderCodec) (c : Connection) : Nat :=
  (headers codec c.client.pending).length - c.client.got.length

/-- A byte of a request is to be pushed, to arrive and to be received; one of a
reply is to be sent and to be taken. -/
def togo (codec : HeaderCodec) (c : Connection) : Nat :=
  3 * (c.client.unsent.length + (frames codec c.client.todo).length) + 2 * c.inFlight.length +
    c.receiveQueue.length + (2 * c.missing codec - c.sendQueue.length) + c.client.moves

variable {codec : HeaderCodec} {messages : List BwMessage} {message : BwMessage} {n : Nat}
  {this : Token} {fd : RawFd}

/-! ## The client -/

theorem finished_pending {client : Client} {pushed received : Bytes}
    (inOrder : InOrder codec messages client pushed received) :
    client.finished ++ client.pending = messages := by
  rw [← inOrder.messages_eq]
  unfold Client.pending Client.started
  cases client.phase with
  | ready => rfl
  | sending message buffer data => simp
  | receiving message got => simp
  | overrun => rfl

theorem Running.sendQueue_le {greedy : Bool} {s : Context Connection} {p : Session}
    (running : Running codec greedy messages this fd s p)
    (growing : Growing codec messages.dropLast) (small : Small codec messages) :
    s.sys.sendQueue.length ≤ s.sys.missing codec := by
  obtain ⟨done, started, _, written⟩ := running.answered growing small
  obtain ⟨pushed, received, inOrder, _, writtenEq⟩ := running.conserves
  have upTo : done <+: messages := started.trans ⟨_, inOrder.messages_eq⟩
  obtain ⟨later, split⟩ := upTo
  have lengths := written.length_le
  have whole := congrArg (fun messages => (headers codec messages).length)
    (split.trans (finished_pending inOrder).symm)
  simp only [headers_append, List.length_append] at whole
  rw [writtenEq, List.length_append, inOrder.received_length] at lengths
  unfold missing
  omega

/-- The client goes on unless it waits for bytes of its reply that have not been
sent. -/
theorem client_progress {c : Connection} (conserves : Conserves codec messages c)
    (fits : Fits codec messages) (sendQueueLe : c.sendQueue.length ≤ c.missing codec)
    (unfinished : c.client.finished ≠ messages) :
    (∃ count, (c.outside codec (.client count)).togo codec < c.togo codec) ∨
      c.sendQueue = [] ∧ ∃ message got, c.client.phase = .receiving message got ∧
        got.length < (codec.headerBytes message).length := by
  obtain ⟨pushed, received, inOrder, _, _⟩ := conserves
  obtain ⟨client, inFlight, receiveQueue, sendQueue, history, room, noSpace, edge⟩ := c
  obtain ⟨finished, phase, todo, acks⟩ := client
  cases phase with
  | ready =>
      cases todo with
      | nil =>
          have whole := finished_pending inOrder
          simp only [Client.pending, List.append_nil] at whole
          exact absurd whole unfinished
      | cons message todo =>
          have member : message ∈ messages := by
            rw [← inOrder.messages_eq]
            simp
          apply Or.inl
          refine ⟨0, ?_⟩
          simp only [Connection.outside, step_start 0 sendQueue (fits message member), togo,
            missing, Client.unsent, Client.pending, Client.moves, Client.got, frames_cons,
            frameBytes, List.length_append, List.length_cons, List.length_nil]
          omega
  | sending message buffer data =>
      apply Or.inl
      cases buffer with
      | nil =>
          cases data with
          | nil =>
              refine ⟨0, ?_⟩
              simp only [Connection.outside, step_sent, togo, missing, Client.unsent,
                Client.pending, Client.moves, Client.got, List.length_append, List.length_nil]
              omega
          | cons byte data =>
              refine ⟨1, ?_⟩
              simp only [Connection.outside, Client.step, togo, missing, Client.unsent,
                Client.pending, Client.moves, Client.got, List.length_append, List.length_nil,
                List.length_cons, List.take_succ_cons, List.take_zero, List.drop_succ_cons,
                List.drop_zero]
              omega
      | cons byte buffer =>
          refine ⟨1, ?_⟩
          simp only [Connection.outside, Client.step, togo, missing, Client.unsent,
            Client.pending, Client.moves, Client.got, List.length_append, List.length_nil,
            List.length_cons, List.take_succ_cons, List.take_zero, List.drop_succ_cons,
            List.drop_zero]
          omega
  | receiving message got =>
      by_cases short : got.length < (codec.headerBytes message).length
      · cases sendQueue with
        | nil => exact Or.inr ⟨rfl, message, got, rfl, short⟩
        | cons byte sendQueue =>
            apply Or.inl
            refine ⟨1, ?_⟩
            have one : min 1 ((codec.headerBytes message).length - got.length) = 1 := by omega
            simp only [missing, Client.pending, Client.got, headers_cons, List.length_append,
              List.length_cons] at sendQueueLe
            simp only [Connection.outside, Client.step, short, if_true, one, togo, missing,
              Client.unsent, Client.pending, Client.moves, Client.got, headers_cons,
              List.length_append, List.length_nil, List.length_cons, List.take_succ_cons,
              List.take_zero, List.drop_succ_cons, List.drop_zero]
            omega
      · apply Or.inl
        refine ⟨0, ?_⟩
        have whole := inOrder.got_le message got rfl
        simp only [Connection.outside, Client.step, short, if_false, togo, missing, Client.unsent,
          Client.pending, Client.moves, Client.got, headers_cons, List.length_append,
          List.length_nil]
        omega
  | overrun => exact absurd rfl inOrder.running

/-! ## Nothing on its way -/

structure Quiet (codec : HeaderCodec) (c : Connection) : Prop where
  waiting : ∃ message got, c.client.phase = .receiving message got ∧
    got.length < (codec.headerBytes message).length
  inFlight : c.inFlight = []
  sendQueue : c.sendQueue = []

theorem Quiet.missing_pos {c : Connection} (quiet : Quiet codec c) : 0 < c.missing codec := by
  obtain ⟨message, got, phase, short⟩ := quiet.waiting
  unfold missing
  simp only [Client.pending, Client.got, phase, headers_cons, List.length_append]
  omega

/-- Behind the frames that were answered the endpoint has the whole of the next
one, partly in its receive queue. -/
theorem Quiet.next_frame {c : Connection} {served : Nat} (quiet : Quiet codec c)
    (conserves : Conserves codec (List.replicate n message) c) (repeats : Repeats codec message)
    (written : c.history.written = headers codec (List.replicate served message)) :
    c.history.consumed ++ c.receiveQueue =
      frames codec (List.replicate served message) ++ frameBytes codec message := by
  obtain ⟨current, got, phase, short⟩ := quiet.waiting
  obtain ⟨pushed, received, inOrder, pushedEq, writtenEq⟩ := conserves
  have started := inOrder.messages_eq
  have pushedAll := inOrder.pushed_eq
  have receivedLen := inOrder.received_length
  simp only [Client.started, Client.unsent, phase, List.append_nil] at started pushedAll
  simp only [Client.got, phase] at receivedLen
  have finishedRep := (List.append_eq_replicate_iff.mp
    ((List.append_assoc _ _ _).symm.trans started)).2.1
  obtain rfl : current = message := by
    apply List.eq_of_mem_replicate (n := n)
    rw [← started]
    simp
  have nonempty := List.length_pos_iff.mpr repeats.header
  have writtenLen := congrArg List.length (writtenEq.symm.trans written)
  rw [quiet.sendQueue, List.append_nil, headers_replicate, receivedLen, finishedRep,
    headers_replicate] at writtenLen
  have same : c.client.finished.length = served := by
    have below : c.client.finished.length ≤ served := by
      by_contra above
      have := Nat.mul_le_mul_right (codec.headerBytes current).length (Nat.not_le.mp above)
      rw [Nat.succ_mul] at this
      omega
    have above : served ≤ c.client.finished.length := by
      by_contra below
      have := Nat.mul_le_mul_right (codec.headerBytes current).length (Nat.not_le.mp below)
      rw [Nat.succ_mul] at this
      omega
    omega
  rw [quiet.inFlight, List.append_nil] at pushedEq
  rw [← pushedEq, pushedAll, frames_append, frames_singleton, finishedRep, same]

theorem Quiet.idle {s : Context Connection} {p : Session} {held : Option (Bytes × Bytes)}
    (quiet : Quiet codec s.sys) (repeats : Repeats codec message)
    (running : Running codec true (List.replicate n message) this fd s p)
    (stage : p.stage = .idle held) :
    s.sys.receiveQueue = frameBytes codec message ∧
      growLimits p.limits (metaBytes codec message) = sizes codec message := by
  have traffic := running.live.settled.1.traffic
  change Traffic p s.sys.history.consumed s.sys.history.written _ at traffic
  simp only [Traffic, stage] at traffic
  obtain ⟨earlier, torn, consumedEq, _, tornDrained, served, _⟩ := traffic
  obtain rfl : torn = [] := by
    by_contra some
    exact tornDrained some
  rw [List.append_nil] at consumedEq
  subst consumedEq
  obtain ⟨done, next, split, consumedEq, writtenEq, limitsEq⟩ := served.exact
    (growing_replicate codec message n) (repeats.small n) running.conserves.consumed_prefix
  obtain ⟨_, doneRep, _⟩ := List.append_eq_replicate_iff.mp split.symm
  rw [doneRep] at writtenEq consumedEq
  have frame := quiet.next_frame running.conserves repeats writtenEq
  rw [consumedEq] at frame
  refine ⟨List.append_cancel_left frame, ?_⟩
  rw [limitsEq, doneRep]
  have same : List.replicate done.length message ++ [message] =
      List.replicate (done.length + 1) message := List.replicate_succ'.symm
  apply growLimits_growing
  · rw [same]
    exact growing_replicate codec message _
  · rw [same]
    exact repeats.small _

theorem Quiet.receiving {s : Context Connection} {p : Session} {headerDone : Bool}
    {header data : Bytes} (quiet : Quiet codec s.sys) (repeats : Repeats codec message)
    (running : Running codec true (List.replicate n message) this fd s p)
    (stage : p.stage = .receiving headerDone header data) :
    ∃ limits, p.limits = some limits ∧
      header.length + data.length + s.sys.receiveQueue.length = limits.1 + limits.2 := by
  have traffic := running.live.settled.1.traffic
  change Traffic p s.sys.history.consumed s.sys.history.written _ at traffic
  simp only [Traffic, stage] at traffic
  obtain ⟨earlier, limits₀, prefixBytes, frame, served⟩ := traffic
  obtain ⟨done, message', later, split, earlierEq, writtenEq, current, prefixEq, _⟩ :=
    frame.exact served (growing_replicate codec message n) (repeats.small n)
      running.conserves.consumed_prefix
  obtain ⟨_, doneRep, laterRep⟩ := List.append_eq_replicate_iff.mp split.symm
  obtain rfl : message' = message := List.eq_of_mem_replicate (laterRep ▸ List.mem_cons_self)
  rw [doneRep] at writtenEq earlierEq
  have next := quiet.next_frame running.conserves repeats writtenEq
  rw [frame.consumed_eq, earlierEq, List.append_assoc] at next
  have lengths := congrArg List.length (List.append_cancel_left next)
  simp only [frameBytes, List.length_append, frame.prefixFull, metaBytes_length] at lengths
  refine ⟨sizes codec message', current, ?_⟩
  simp only [sizes]
  omega

/-! ## Handlers that are granted everything -/

section Granted

variable {p : Session} {c : Connection}

def grants (count : Nat) : Answers Choice :=
  { recvs := [grant count], header := grant count, data := grant count, sends := [grant count] }

theorem readData_grant (codec : HeaderCodec) (fd : RawFd) (this : Token) (count : Nat)
    {limits : Nat × Nat} (headerDone : Bool) {header : Bytes} (data : Bytes)
    (whole : header.length = limits.1) (rest : data.length + c.receiveQueue.length = limits.2)
    (enough : c.receiveQueue.length ≤ count) (fits : limits.1 ≤ count) (room : c.room = true)
    (registered : c.history.registered.isSome = true) :
    ∃ p' c', Session.readData (kernel codec true).toKernel fd this (grants count) limits headerDone
        header data p c = .ok (p', c') ∧ Moved c [] header c' := by
  rw [Session.readData]
  by_cases empty : limits.2 = 0
  · simp only [empty, if_true]
    have drained : c.receiveQueue = [] := List.eq_nil_of_length_eq_zero (by omega)
    obtain ⟨p', c', sent, _, moved⟩ := @sendReply_grant true
      { p with stage := .replying header data header } c codec fd this count _ _ _ rfl (by omega)
      room registered
    exact ⟨p', c', sent, moved.client, moved.inFlight, moved.receiveQueue.trans drained,
      moved.sendQueue, moved.room⟩
  · simp only [empty, if_false]
    have missing : limits.2 - data.length = c.receiveQueue.length := by omega
    have asked : c.receiveQueue ≠ [] ∨ limits.2 - data.length = 0 := by
      cases queue : c.receiveQueue with
      | nil =>
          apply Or.inr
          rw [missing, queue]
          rfl
      | cons byte bytes => exact Or.inl (by simp)
    have filled := @fill_grant true codec fd c count limits.2 data enough asked
    rw [missing, List.take_length, Nat.min_self] at filled
    have complete : (data ++ c.receiveQueue).length = limits.2 := by
      rw [List.length_append]
      exact rest
    change ∃ p' c', (Session.fill (kernel codec true).toKernel fd (grant count) limits.2 data c >>=
      _) = Except.ok (p', c') ∧ _
    rw [filled]
    simp only [ok_bind, complete, if_true]
    obtain ⟨p', c', sent, _, moved⟩ := @sendReply_grant true
      { p with stage := .replying header (data ++ c.receiveQueue) header }
      (c.taken c.receiveQueue.length) codec fd this count _ _ _ rfl (by omega) room registered
    refine ⟨p', c', sent, moved.client, moved.inFlight, ?_, moved.sendQueue, moved.room⟩
    rw [moved.receiveQueue]
    exact List.drop_length

theorem readHeader_grant (codec : HeaderCodec) (fd : RawFd) (this : Token) (count : Nat)
    {limits : Nat × Nat} {header data : Bytes} (headerLe : header.length ≤ limits.1)
    (dataLe : data.length ≤ limits.2)
    (rest : header.length + data.length + c.receiveQueue.length = limits.1 + limits.2)
    (enough : c.receiveQueue.length ≤ count) (fits : limits.1 ≤ count) (room : c.room = true)
    (registered : c.history.registered.isSome = true) :
    ∃ p' c' sent, Session.readHeader (kernel codec true).toKernel fd this (grants count) limits
        header data p c = .ok (p', c') ∧ Moved c [] sent c' := by
  rw [Session.readHeader]
  have missing : min (limits.1 - header.length) c.receiveQueue.length =
      limits.1 - header.length := by omega
  have asked : c.receiveQueue ≠ [] ∨ limits.1 - header.length = 0 := by
    cases queue : c.receiveQueue with
    | nil =>
        rw [queue] at missing
        exact Or.inr (by simpa using missing.symm)
    | cons byte bytes => exact Or.inl (by simp)
  have filled := @fill_grant true codec fd c count limits.1 header enough asked
  rw [missing] at filled
  have complete : (header ++ c.receiveQueue.take (limits.1 - header.length)).length = limits.1 := by
    rw [List.length_append, List.length_take]
    omega
  have left : (c.taken (limits.1 - header.length)).receiveQueue.length =
      c.receiveQueue.length - (limits.1 - header.length) := List.length_drop
  change ∃ p' c' sent, (Session.fill (kernel codec true).toKernel fd (grant count) limits.1 header
    c >>= _) = Except.ok (p', c') ∧ _
  rw [filled]
  simp only [ok_bind, complete, if_true]
  obtain ⟨p', c', replied, moved⟩ := readData_grant (p := p)
    (c := c.taken (limits.1 - header.length)) codec fd this count true data complete (by omega)
    (by omega) fits room registered
  exact ⟨p', c', _, replied, moved.client, moved.inFlight, moved.receiveQueue, moved.sendQueue,
    moved.room⟩

end Granted

theorem Moved.togo_lt_of_queue {c c' : Connection} {queue sent : Bytes}
    (moved : Moved c queue sent c') (fewer : queue.length < c.receiveQueue.length) :
    c'.togo codec < c.togo codec := by
  unfold togo missing
  rw [moved.client, moved.inFlight, moved.receiveQueue, moved.sendQueue, List.length_append]
  omega

theorem Moved.togo_lt_of_sent {c c' : Connection} {sent : Bytes}
    (moved : Moved c c.receiveQueue sent c') (some : sent ≠ []) (quiet : Quiet codec c) :
    c'.togo codec < c.togo codec := by
  have missing_pos := quiet.missing_pos
  have sent_pos := List.length_pos_iff.mpr some
  unfold togo missing at *
  rw [moved.client, moved.inFlight, moved.receiveQueue, moved.sendQueue, quiet.sendQueue,
    List.nil_append, List.length_nil]
  omega

/-- A session that does not reply takes all there is, and there is some. -/
theorem Quiet.received {s : Context Connection} {p : Session} (quiet : Quiet codec s.sys)
    (repeats : Repeats codec message)
    (running : Running codec true (List.replicate n message) this fd s p)
    (room : s.sys.room = true)
    (waits : ∀ header data rest, p.stage ≠ .replying header data rest) :
    s.sys.receiveQueue ≠ [] ∧ ∃ count p' c' sent,
      Session.onRecvReady (kernel codec true).toKernel fd this s.mem.stale (grants count)
        (p, s.sys) = .ok (p', c') ∧ Moved s.sys [] sent c' := by
  have registered := running.registered
  have sound := running.live.tracks.sound
  obtain ⟨limits, stage, interest⟩ := p
  cases stage with
  | idle held =>
      obtain ⟨queue, grown⟩ := quiet.idle repeats running rfl
      have parts : s.sys.receiveQueue =
          metaBytes codec message ++ (codec.headerBytes message ++ message.data) := by
        rw [queue, frameBytes, List.append_assoc]
      constructor
      · rw [queue]
        apply List.ne_nil_of_length_pos
        rw [frameBytes, List.length_append, List.length_append, metaBytes_length]
        omega
      · obtain ⟨p', c', received, _, moved⟩ := onRecvReady_grant s.mem.stale rfl parts
          (metaBytes_length codec message) grown (le_refl _) room registered
        exact ⟨_, p', c', _, received, moved⟩
  | receiving headerDone header data =>
      obtain ⟨limits', limitsEq, rest⟩ := quiet.receiving repeats running rfl
      obtain ⟨phase, done⟩ := sound.receiving rfl limitsEq
      simp only at limitsEq
      subst limitsEq
      constructor
      · apply List.ne_nil_of_length_pos
        rcases phase with ⟨short, rfl⟩ | ⟨_, short⟩
        · rw [List.length_nil] at rest
          omega
        · omega
      · have headerLe : header.length ≤ limits'.1 := by omega
        cases headerDone with
        | false =>
            have dataLe : data.length ≤ limits'.2 := by
              rcases phase with ⟨_, rfl⟩ | ⟨_, short⟩
              · exact Nat.zero_le _
              · exact Nat.le_of_lt short
            obtain ⟨p', c', sent, received, moved⟩ := readHeader_grant
              (p := { limits := some limits', stage := .receiving false header data, interest })
              codec fd this (s.sys.receiveQueue.length + limits'.1) headerLe dataLe rest
              (by omega) (by omega) room registered
            exact ⟨_, p', c', sent, received, moved⟩
        | true =>
            have whole := done rfl
            obtain ⟨p', c', received, moved⟩ := readData_grant
              (p := { limits := some limits', stage := .receiving true header data, interest })
              codec fd this (s.sys.receiveQueue.length + limits'.1) true data whole (by omega)
              (by omega) (by omega) room registered
            exact ⟨_, p', c', _, received, moved⟩
  | replying header data rest => exact absurd rfl (waits header data rest)

/-! ## The loop around them -/

theorem Awake.inbound {readable writable : Bool} {stage : Stage} {c : Connection}
    (awake : Awake readable writable stage c)
    (waits : ∀ header data rest, stage ≠ .replying header data rest) : Inbound readable c := by
  cases stage with
  | idle held => exact awake
  | receiving headerDone header data => exact awake
  | replying header data rest => exact absurd rfl (waits header data rest)

theorem Awake.of_inbound {readable writable : Bool} {stage : Stage} {c : Connection}
    (inbound : Inbound readable c)
    (waits : ∀ header data rest, stage ≠ .replying header data rest) :
    Awake readable writable stage c := by
  cases stage with
  | idle held => exact inbound
  | receiving headerDone header data => exact inbound
  | replying header data rest => exact absurd rfl (waits header data rest)

end Connection

namespace Loop

open Connection

variable {codec : HeaderCodec} {message : BwMessage} {n : Nat} {this : Token} {fd : RawFd}

def togo (codec : HeaderCodec) (loop : Loop) : Nat :=
  loop.ctx.sys.togo codec

def Advances (codec : HeaderCodec) (budget : Nat) (loop : Loop) : Prop :=
  ∃ (steps : List LoopStep) (after : Loop), steps.length ≤ budget ∧
    steps.foldlM (Loop.step codec) loop = .ok after ∧ after.togo codec < loop.togo codec

theorem Advances.mono {budget budget' : Nat} {loop : Loop} (advances : loop.Advances codec budget)
    (more : budget ≤ budget') : loop.Advances codec budget' := by
  obtain ⟨steps, after, short, ran, less⟩ := advances
  exact ⟨steps, after, Nat.le_trans short more, ran, less⟩

theorem Advances.after {budget : Nat} {loop loop' : Loop} (input : LoopStep)
    (stepped : loop.step codec input = .ok loop') (same : loop'.togo codec = loop.togo codec)
    (advances : loop'.Advances codec budget) : loop.Advances codec (budget + 1) := by
  obtain ⟨steps, after, short, ran, less⟩ := advances
  refine ⟨input :: steps, after, Nat.succ_le_succ short, ?_, same ▸ less⟩
  rw [List.foldlM_cons, stepped]
  exact ran

theorem Advances.of_step {loop : Loop} (input : LoopStep) (loop' : Loop)
    (stepped : loop.step codec input = .ok loop') (less : loop'.togo codec < loop.togo codec) :
    loop.Advances codec 1 := by
  refine ⟨[input], loop', le_refl _, ?_, less⟩
  rw [List.foldlM_cons, stepped]
  rfl

/-- The endpoint's turn: the client waits, there is room, and the session is
awake up to the event in hand. -/
structure Turned (codec : HeaderCodec) (message : BwMessage) (n : Nat) (this : Token) (fd : RawFd)
    (loop : Loop) (p : Session) : Prop where
  running : Running codec true (List.replicate n message) this fd loop.ctx p
  awake : Awake loop.hand.readable loop.hand.writable p.stage loop.ctx.sys
  quiet : Quiet codec loop.ctx.sys
  room : loop.ctx.sys.room = true

section Turned

variable {loop : Loop} {p : Session} {event : Event}

/-- A handler call that leaves the session and the connection alone. -/
theorem Turned.unmoved (turned : Turned codec message n this fd loop p) {ctx : Context Connection}
    (tracks : Tracks this fd loop.ctx.ep loop.ctx.mem ctx (p, loop.ctx.sys)) (hand : Hand)
    (awake : Awake hand.readable hand.writable p.stage loop.ctx.sys) :
    Turned codec message n this fd { ctx, hand } p ∧
      Loop.togo codec { ctx, hand } = loop.togo codec := by
  have same : ctx.sys = loop.ctx.sys := tracks.sys_eq
  have live := Live.of_tracks (wire codec true) tracks turned.running.live.settled
  constructor
  · constructor
    case running => exact ⟨live, same ▸ turned.running.conserves⟩
    case awake =>
      change Awake hand.readable hand.writable p.stage ctx.sys
      rw [same]
      exact awake
    case quiet =>
      change Quiet codec ctx.sys
      rw [same]
      exact turned.quiet
    case room =>
      change ctx.sys.room = true
      rw [same]
      exact turned.room
  · unfold Loop.togo
    rw [same]

/-- An event that is not for `OnRecvReady`, or an endpoint that replies. -/
theorem Turned.skipRecv (turned : Turned codec message n this fd loop p)
    (hand : loop.hand = .received event)
    (skips : event.isReadable = false ∨ ∃ header data rest, p.stage = .replying header data rest) :
    ∃ after, loop.step codec (.dispatch (grants 0)) = .ok after ∧ after.hand = .recvDone event ∧
      Turned codec message n this fd after p ∧ after.togo codec = loop.togo codec := by
  have tracks := turned.running.live.tracks
  have awake : Awake (Hand.recvDone event).readable (Hand.recvDone event).writable p.stage
      loop.ctx.sys := by
    have before := turned.awake
    rw [hand] at before
    rcases skips with deaf | ⟨header, data, rest, stage⟩
    · simp only [Hand.readable, Hand.writable, deaf] at before ⊢
      exact before
    · rw [stage] at before ⊢
      exact before
  cases readable : event.isReadable with
  | false =>
      obtain ⟨turned', same⟩ := turned.unmoved tracks (.recvDone event) awake
      refine ⟨{ ctx := loop.ctx, hand := .recvDone event }, ?_, rfl, turned', same⟩
      simp only [Loop.step, hand, readable, Bool.false_eq_true, if_false]
  | true =>
      obtain ⟨header, data, rest, stage⟩ := skips.resolve_left (by simp [readable])
      have waited : Session.onRecvReady (kernel codec true).toKernel fd this loop.ctx.mem.stale
          (grants 0) (p, loop.ctx.sys) = .ok (p, loop.ctx.sys) := by
        rw [Session.onRecvReady]
        simp only [stage]
        rfl
      obtain ⟨ctx, called, tracks'⟩ := (onRecvReady_agree _ (grants 0) tracks).of_right waited
      obtain ⟨turned', same⟩ := turned.unmoved tracks' (.recvDone event) awake
      refine ⟨{ ctx, hand := .recvDone event }, ?_, rfl, turned', same⟩
      simp only [Loop.step, hand, readable, if_true, handle, called]
      rfl

/-- An event that is not for `OnSendReady`, or an endpoint without a reply. -/
theorem Turned.skipSend (turned : Turned codec message n this fd loop p)
    (hand : loop.hand = .recvDone event)
    (skips : event.isWritable = false ∨ ∀ header data rest, p.stage ≠ .replying header data rest) :
    ∃ after, loop.step codec (.dispatch (grants 0)) = .ok after ∧ after.hand = .polling ∧
      Turned codec message n this fd after p ∧ after.togo codec = loop.togo codec := by
  have tracks := turned.running.live.tracks
  have awake : Awake Hand.polling.readable Hand.polling.writable p.stage loop.ctx.sys := by
    have before := turned.awake
    rw [hand] at before
    rcases skips with deaf | waits
    · simp only [Hand.readable, Hand.writable, deaf] at before ⊢
      exact before
    · exact Awake.of_inbound (before.inbound waits) waits
  cases writable : event.isWritable with
  | false =>
      obtain ⟨turned', same⟩ := turned.unmoved tracks .polling awake
      refine ⟨{ ctx := loop.ctx, hand := .polling }, ?_, rfl, turned', same⟩
      simp only [Loop.step, hand, writable, Bool.false_eq_true, if_false]
  | true =>
      have waits := skips.resolve_left (by simp [writable])
      have idled : Session.sendReply (kernel codec true).toKernel fd this (grants 0).sends
          (p, loop.ctx.sys) = .ok (p, loop.ctx.sys) := by
        rw [Session.sendReply]
        cases stage : p.stage with
        | idle held => rfl
        | receiving headerDone header data => rfl
        | replying header data rest => exact absurd stage (waits header data rest)
      obtain ⟨ctx, called, tracks'⟩ :=
        (onSendReady_agree _ (grants 0).sends loop.ctx _ tracks).of_right idled
      obtain ⟨turned', same⟩ := turned.unmoved tracks' .polling awake
      refine ⟨{ ctx, hand := .polling }, ?_, rfl, turned', same⟩
      simp only [Loop.step, hand, writable, if_true, handle, called]
      rfl

/-- What `epoll_wait` reports to an endpoint that has something to do. -/
structure Wakes (loop : Loop) (p : Session) (event : Event) : Prop where
  edge : loop.ctx.sys.edge = true
  ready : loop.ctx.sys.ready = true
  readable : (∀ header data rest, p.stage ≠ .replying header data rest) → event.isReadable = true
  writable : (∃ header data rest, p.stage = .replying header data rest) → event.isWritable = true
  awake : Awake event.isReadable event.isWritable p.stage { loop.ctx.sys with edge := false }

theorem Turned.wakes (turned : Turned codec message n this fd loop p)
    (repeats : Repeats codec message) (polling : loop.hand = .polling) :
    loop.Wakes p (loop.ctx.sys.reported loop.ctx.this) := by
  have awake := turned.awake
  rw [polling] at awake
  by_cases replies : ∃ header data rest, p.stage = .replying header data rest
  · obtain ⟨header, data, rest, stage⟩ := replies
    rw [stage] at awake
    obtain ⟨owing, wantsOut, outbound⟩ := awake
    have writable : (loop.ctx.sys.wantsOut && loop.ctx.sys.room) = true := by
      rw [wantsOut, turned.room]
      rfl
    constructor
    case edge => exact (outbound.noticed turned.room).resolve_right (by simp [Hand.writable])
    case ready => rw [Connection.ready, writable, Bool.or_true]
    case readable =>
      intro waits
      exact absurd stage (waits header data rest)
    case writable => exact fun _ => writable
    case awake =>
      rw [stage]
      exact ⟨owing, wantsOut, fun _ => Or.inr writable, outbound.remembered⟩
  · have waits : ∀ header data rest, p.stage ≠ .replying header data rest :=
      fun header data rest stage => replies ⟨header, data, rest, stage⟩
    have some := (turned.quiet.received repeats turned.running turned.room waits).1
    have wantsIn := (Registered.of_serves turned.running.live.settled.1
      turned.running.live.tracks.sound.1).wantsIn
    have readable : (loop.ctx.sys.wantsIn && !loop.ctx.sys.receiveQueue.isEmpty) = true := by
      cases queue : loop.ctx.sys.receiveQueue with
      | nil => exact absurd queue some
      | cons byte bytes => simp [wantsIn]
    constructor
    case edge => exact (awake.inbound waits some).resolve_right (by simp [Hand.readable])
    case ready => rw [Connection.ready, readable, Bool.true_or]
    case readable => exact fun _ => readable
    case writable =>
      intro replies'
      exact absurd replies' replies
    case awake => exact Awake.of_inbound (fun _ => Or.inr readable) waits

theorem Turned.receive (turned : Turned codec message n this fd loop p)
    (repeats : Repeats codec message) (hand : loop.hand = .received event)
    (readable : event.isReadable = true)
    (waits : ∀ header data rest, p.stage ≠ .replying header data rest) :
    loop.Advances codec 1 := by
  obtain ⟨some, count, p', c', sent, received, moved⟩ :=
    turned.quiet.received repeats turned.running turned.room waits
  obtain ⟨ctx, called, tracks⟩ :=
    (onRecvReady_agree _ (grants count) turned.running.live.tracks).of_right received
  apply Advances.of_step (.dispatch (grants count)) { ctx, hand := .recvDone event }
  · simp only [Loop.step, hand, readable, if_true, handle, called]
    rfl
  · unfold Loop.togo
    rw [tracks.sys_eq]
    exact moved.togo_lt_of_queue (List.length_pos_iff.mpr some)

theorem Turned.reply (turned : Turned codec message n this fd loop p) {header data rest : Bytes}
    (hand : loop.hand = .recvDone event) (writable : event.isWritable = true)
    (stage : p.stage = .replying header data rest) : loop.Advances codec 1 := by
  have awake := turned.awake
  rw [stage] at awake
  obtain ⟨p', c', sent, _, moved⟩ := @sendReply_grant true p loop.ctx.sys codec fd this rest.length
    _ _ _ stage (le_refl _) turned.room turned.running.registered
  obtain ⟨ctx, called, tracks⟩ := (onSendReady_agree _ (grants rest.length).sends loop.ctx _
    turned.running.live.tracks).of_right sent
  apply Advances.of_step (.dispatch (grants rest.length)) { ctx, hand := .polling }
  · simp only [Loop.step, hand, writable, if_true, handle, called]
    rfl
  · unfold Loop.togo
    rw [tracks.sys_eq]
    exact moved.togo_lt_of_sent awake.1 turned.quiet

theorem Turned.wanted (turned : Turned codec message n this fd loop p)
    (repeats : Repeats codec message) (hand : loop.hand = .received event)
    (readable : (∀ header data rest, p.stage ≠ .replying header data rest) →
      event.isReadable = true)
    (writable : (∃ header data rest, p.stage = .replying header data rest) →
      event.isWritable = true) : loop.Advances codec 2 := by
  by_cases replies : ∃ header data rest, p.stage = .replying header data rest
  · obtain ⟨after, stepped, hand', turned', same⟩ := turned.skipRecv hand (Or.inr replies)
    obtain ⟨header, data, rest, stage⟩ := replies
    exact (turned'.reply hand' (writable ⟨header, data, rest, stage⟩) stage).after _ stepped same
  · have waits : ∀ header data rest, p.stage ≠ .replying header data rest :=
      fun header data rest stage => replies ⟨header, data, rest, stage⟩
    exact (turned.receive repeats hand (readable waits) waits).mono (by omega)

theorem Turned.polled (turned : Turned codec message n this fd loop p)
    (repeats : Repeats codec message) (polling : loop.hand = .polling) :
    loop.Advances codec 3 := by
  have wakes := turned.wakes repeats polling
  have turned' : Turned codec message n this fd
      { ctx := { loop.ctx with sys := { loop.ctx.sys with edge := false } }
        hand := .received (loop.ctx.sys.reported loop.ctx.this) } p := by
    constructor
    case running => exact turned.running.delivered
    case awake => exact wakes.awake
    case quiet => exact ⟨turned.quiet.waiting, turned.quiet.inFlight, turned.quiet.sendQueue⟩
    case room => exact turned.room
  apply Advances.after .deliver _ _ (turned'.wanted repeats rfl wakes.readable wakes.writable)
  · simp only [Loop.step, polling, Loop.deliver, wakes.edge, wakes.ready, if_true]
  · rfl

theorem Turned.advances (turned : Turned codec message n this fd loop p)
    (repeats : Repeats codec message) : loop.Advances codec 5 := by
  have afterRecv : ∀ {loop : Loop} {event : Event}, Turned codec message n this fd loop p →
      loop.hand = .recvDone event → loop.Advances codec 4 := by
    intro loop event turned hand
    by_cases wanted : event.isWritable = true ∧
        ∃ header data rest, p.stage = .replying header data rest
    · obtain ⟨writable, header, data, rest, stage⟩ := wanted
      exact (turned.reply hand writable stage).mono (by omega)
    · have skips : event.isWritable = false ∨
          ∀ header data rest, p.stage ≠ .replying header data rest := by
        cases writable : event.isWritable with
        | false => exact Or.inl rfl
        | true =>
            exact Or.inr fun header data rest stage => wanted ⟨writable, header, data, rest, stage⟩
      obtain ⟨after, stepped, polling, turned', same⟩ := turned.skipSend hand skips
      exact (turned'.polled repeats polling).after _ stepped same
  cases hand : loop.hand with
  | polling => exact (turned.polled repeats hand).mono (by omega)
  | recvDone event => exact (afterRecv turned hand).mono (by omega)
  | received event =>
      by_cases wanted : event.isReadable = true ∧
          ∀ header data rest, p.stage ≠ .replying header data rest
      · exact (turned.receive repeats hand wanted.1 wanted.2).mono (by omega)
      · have skips : event.isReadable = false ∨
            ∃ header data rest, p.stage = .replying header data rest := by
          cases readable : event.isReadable with
          | false => exact Or.inl rfl
          | true =>
              apply Or.inr
              by_contra waits
              exact wanted ⟨readable,
                fun header data rest stage => waits ⟨header, data, rest, stage⟩⟩
        obtain ⟨after, stepped, hand', turned', same⟩ := turned.skipRecv hand skips
        exact (afterRecv turned' hand').after _ stepped same

end Turned

theorem Inv.advances {loop : Loop} (repeats : Repeats codec message)
    (inv : loop.Inv codec (List.replicate n message) this fd)
    (unfinished : loop.ctx.sys.client.finished ≠ List.replicate n message) :
    loop.Advances codec 6 := by
  obtain ⟨p, running, awake⟩ := inv
  have growing := growing_replicate codec message n
  have waited := running.sendQueue_le (growing.sublist (List.dropLast_sublist _)) (repeats.small n)
  rcases client_progress running.conserves (repeats.fits_replicate n) waited unfinished with
    ⟨count, less⟩ | ⟨empty, current, got, phase, short⟩
  · exact (Advances.of_step (.outside (.client count)) _ rfl less).mono (by omega)
  · cases inFlight : loop.ctx.sys.inFlight with
    | nil =>
        have wants := (Registered.of_serves running.live.settled.1
          running.live.tracks.sound.1).wantsIn
        have turned : Turned codec message n this fd
            { loop with ctx := { loop.ctx with sys := loop.ctx.sys.outside codec .space } } p := by
          constructor
          case running => exact running.outside (repeats.fits_replicate n) .space
          case awake =>
            have awake' : Awake loop.hand.readable loop.hand.writable p.stage
                (loop.ctx.sys.outside codec .space) := awake.outside wants .space
            exact awake'
          case quiet => exact ⟨⟨current, got, phase, short⟩, inFlight, empty⟩
          case room => rfl
        exact (turned.advances repeats).after (.outside .space) rfl rfl
    | cons byte rest =>
        apply Advances.mono (Advances.of_step (.outside (.arrive 1)) _ rfl _) (by omega)
        simp only [Loop.togo, Connection.togo, Connection.outside, missing, inFlight,
          List.length_append, List.take_succ_cons, List.take_zero, List.drop_succ_cons,
          List.drop_zero, List.length_cons, List.length_nil]
        omega

/-! ## The end -/

/-- Every call has returned with its own header, and the endpoint has taken the
frames and written the headers, all of them and nothing else. -/
structure Completed (codec : HeaderCodec) (message : BwMessage) (n : Nat) (loop : Loop) : Prop where
  finished : loop.ctx.sys.client.finished = List.replicate n message
  acks : loop.ctx.sys.client.acks = List.replicate n { header := message.header, success := true }
  consumed : loop.ctx.sys.history.consumed = frames codec (List.replicate n message)
  written : loop.ctx.sys.history.written = headers codec (List.replicate n message)

structure Sound (codec : HeaderCodec) (message : BwMessage) (n : Nat) (this : Token) (fd : RawFd)
    (loop : Loop) : Prop where
  inv : loop.Inv codec (List.replicate n message) this fd
  acknowledged : Acknowledged codec loop.ctx.sys

theorem Sound.step {loop : Loop} (repeats : Repeats codec message)
    (sound : Sound codec message n this fd loop) (input : LoopStep) :
    Sat (loop.step codec input) (· = .pending) (Sound codec message n this fd) := by
  have inv := Loop.step_inv repeats input sound.inv
  have acknowledged : Sat (loop.step codec input) (fun _ => True)
      (fun after => Acknowledged codec after.ctx.sys) := by
    obtain ⟨p, running, _⟩ := sound.inv
    have called : ∀ call, Sat (handle (kernel codec true).toKernel loop.ctx call) (fun _ => True)
        (Kept this fd (fun _ => Acknowledged codec)) :=
      fun call => handle_kept (keeps_acknowledged codec true this fd) loop.ctx call
        ⟨running.live.tracks.this_eq, running.live.tracks.sock_eq, sound.acknowledged⟩
    cases input with
    | outside step => exact sound.acknowledged.outside step
    | deliver =>
        cases hand : loop.hand with
        | polling =>
            simp only [Loop.step, hand]
            rcases loop.deliver_cases with ⟨_, quiet⟩ | delivered
            · rw [quiet]
              exact sound.acknowledged
            · rw [delivered]
              exact sound.acknowledged
        | received event =>
            simp only [Loop.step, hand]
            exact sound.acknowledged
        | recvDone event =>
            simp only [Loop.step, hand]
            exact sound.acknowledged
    | dispatch answers =>
        cases hand : loop.hand with
        | polling =>
            simp only [Loop.step, hand]
            exact sound.acknowledged
        | received event =>
            simp only [Loop.step, hand]
            split
            · exact (called (.recvReady answers)).bind fun _ kept => kept.inv
            · exact sound.acknowledged
        | recvDone event =>
            simp only [Loop.step, hand]
            split
            · exact (called (.sendReady answers.sends)).bind fun _ kept => kept.inv
            · exact sound.acknowledged
  apply (inv.and acknowledged).mono
  · intro reason both
    exact both.1
  · intro after both
    exact ⟨both.1, both.2⟩

theorem Sound.start (repeats : Repeats codec message) (mem : Memory) (early : List Outside) :
    Sound codec message n this fd
      (Loop.start codec this fd mem (List.replicate n message) early) := by
  have acking : Acking codec true (List.replicate n message) this fd
      (accepted codec this fd mem (List.replicate n message) early) :=
    accepted_acking (repeats.fits_replicate n) mem early
  exact ⟨Loop.start_inv repeats mem early, acking.2⟩

theorem Sound.completed {loop : Loop} (repeats : Repeats codec message)
    (sound : Sound codec message n this fd loop)
    (finished : loop.ctx.sys.client.finished = List.replicate n message) :
    Completed codec message n loop := by
  obtain ⟨⟨p, running, _⟩, acknowledged⟩ := sound
  have growing : Growing codec (List.replicate n message).dropLast :=
    (growing_replicate codec message n).sublist (List.dropLast_sublist _)
  have honoured := Acking.allHonoured ⟨⟨p, running⟩, acknowledged⟩ growing (repeats.small n)
  obtain ⟨done, started, consumed, upTo⟩ := running.answered growing (repeats.small n)
  obtain ⟨pushed, received, inOrder, pushedEq, writtenEq⟩ := running.conserves
  obtain ⟨later, startedEq⟩ : loop.ctx.sys.client.started <+: List.replicate n message :=
    ⟨_, inOrder.messages_eq⟩
  obtain ⟨next, doneEq⟩ := started
  -- all headers have been received, so all of them were written
  have whole : done = List.replicate n message := by
    have split : done ++ (next ++ later) = List.replicate n message := by
      rw [← List.append_assoc, doneEq, startedEq]
    obtain ⟨_, doneRep, _⟩ := List.append_eq_replicate_iff.mp split
    have many := congrArg List.length split
    rw [List.length_append, List.length_replicate] at many
    have lengths := upTo.length_le
    rw [writtenEq, List.length_append, inOrder.received_length, finished, headers_replicate,
      doneRep, headers_replicate] at lengths
    have some := List.length_pos_iff.mpr repeats.header
    have enough : n ≤ done.length := by
      by_contra fewer
      have := Nat.mul_le_mul_right (codec.headerBytes message).length (Nat.not_le.mp fewer)
      rw [Nat.succ_mul] at this
      omega
    have same : done.length = n := by omega
    rw [doneRep, same]
  constructor
  case finished => exact finished
  case acks =>
    apply List.eq_replicate_iff.mpr
    constructor
    · rw [honoured.acks_length, finished, List.length_replicate]
    · intro ack member
      obtain ⟨index, bound, found⟩ := List.getElem_of_mem member
      have many : loop.ctx.sys.client.acks.length = n := by
        rw [honoured.acks_length, finished, List.length_replicate]
      have split : loop.ctx.sys.client.finished =
          List.replicate index message ++ message :: List.replicate (n - index - 1) message := by
        rw [finished, ← List.replicate_succ, List.replicate_append_replicate]
        congr 1
        omega
      have success : ack.success = true := by
        obtain ⟨parts, _, acked, _⟩ := acknowledged
        rw [acked.acks_eq] at member
        obtain ⟨part, _, rfl⟩ := List.mem_map.mp member
        rfl
      have own := (honoured.honoured _ _ _ ack split
        (by rw [List.length_replicate, List.getElem?_eq_getElem bound, found]) success).2
      obtain ⟨header, success'⟩ := ack
      simp only at own success
      rw [own, success]
  case consumed =>
    rw [whole] at consumed
    have both := running.conserves.consumed_prefix.length_le
    exact (consumed.eq_of_length_le both).symm
  case written =>
    rw [whole] at upTo
    apply upTo.eq_of_length_le
    rw [writtenEq, List.length_append, inOrder.received_length, finished]
    omega

/-- By strong induction on what is still to be moved. -/
theorem Sound.completes (repeats : Repeats codec message) (togo : Nat) :
    ∀ loop : Loop, loop.togo codec ≤ togo → Sound codec message n this fd loop →
      ∃ (more : List LoopStep) (after : Loop), more.length ≤ 6 * togo ∧
        more.foldlM (Loop.step codec) loop = .ok after ∧ Completed codec message n after := by
  induction togo with
  | zero =>
      intro loop small sound
      by_cases finished : loop.ctx.sys.client.finished = List.replicate n message
      · exact ⟨[], loop, Nat.zero_le _, rfl, sound.completed repeats finished⟩
      · obtain ⟨_, _, _, _, less⟩ := Inv.advances repeats sound.inv finished
        omega
  | succ togo ih =>
      intro loop small sound
      by_cases finished : loop.ctx.sys.client.finished = List.replicate n message
      · exact ⟨[], loop, Nat.zero_le _, rfl, sound.completed repeats finished⟩
      · obtain ⟨steps, middle, short, ran, less⟩ := Inv.advances repeats sound.inv finished
        have sound' := (Sat.foldlM (fun loop input sound => Sound.step repeats sound input) steps
          loop sound).of_ok ran
        obtain ⟨more, after, few, ran', completed⟩ := ih middle (by omega) sound'
        refine ⟨steps ++ more, after, ?_, ?_, completed⟩
        · rw [List.length_append]
          omega
        · rw [List.foldlM_append, ran]
          exact ran'

end Loop

/-- In every state that the loop can be in, whatever the payload size, the
chunking and the interleaving so far, some further events complete the run. -/
theorem run_can_complete (codec : HeaderCodec) (dataSize : Int32) (message : BwMessage)
    (run : runMessage dataSize = some message) (header : codec.headerBytes message ≠ [])
    (fits : (codec.headerBytes message).length + 8 ≤ kDefaultBufferSize) (n : Nat)
    (this : Token) (fd : RawFd) (mem : Memory) (early : List Outside) (steps : List LoopStep) :
    Sat
      (steps.foldlM (Loop.step codec)
        (Loop.start codec this fd mem (List.replicate n message) early))
      (· = .pending)
      (fun loop => ∃ (more : List LoopStep) (after : Loop), more.length ≤ 6 * loop.togo codec ∧
        more.foldlM (Loop.step codec) loop = .ok after ∧
        Loop.Completed codec message n after) := by
  have repeats : Repeats codec message := ⟨header, fits, by
    have := runMessage_payload run
    omega⟩
  apply (Sat.foldlM (fun loop input sound => Loop.Sound.step repeats sound input) steps _
    (Loop.Sound.start repeats mem early)).mono (fun _ => id)
  intro loop sound
  exact sound.completes repeats _ loop (le_refl _)

/-- The first of two requests is torn when the run is left to itself. -/
theorem run_can_complete_torn_request :
    Sat
      (([.outside (.client 0), .outside (.client 30), .outside (.client 3), .outside (.arrive 9),
          .deliver,
          .dispatch
            { recvs := [⟨none, true, []⟩], header := ⟨none, true, []⟩
              data := ⟨none, true, []⟩, sends := [] }]
        : List LoopStep).foldlM (Loop.step wireCodec)
        (Loop.start wireCodec 7 5 { block := fun _ => none, next := 0, stale := 0 }
          (List.replicate 2
            { header := { field1 := 1, field2 := true, field3 := [115, 116, 117, 102, 102] }
              data := [0, 0, 0] }) []))
      (· = .pending)
      (fun loop => ∃ (more : List LoopStep) (after : Loop),
        more.length ≤ 6 * loop.togo wireCodec ∧ more.foldlM (Loop.step wireCodec) loop = .ok after ∧
        Loop.Completed wireCodec
          { header := { field1 := 1, field2 := true, field3 := [115, 116, 117, 102, 102] }
            data := [0, 0, 0] } 2 after) :=
  run_can_complete wireCodec 3 _ (by decide) (by decide) (by decide) 2 7 5 _ [] _

end RpcBench.Socket
