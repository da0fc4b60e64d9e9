import Mathlib.Data.List.Induction
import RpcBench.Bandwidth.HeaderWire
import RpcBench.Socket.Frames

/-! # What limits carried across requests do to the framing

`ReceiveMeta` keeps a buffer owner whose recorded length is at least the
announced size, and the views take their length from the owner.  The frames
are taken apart exactly when no message is smaller than an earlier one; behind
the first one that is, the endpoint waits for bytes of the next frame. -/
set_option autoImplicit false

namespace RpcBench.Socket

open ByteList Bandwidth Fallible BwServerEndpoint

inductive Turn where
  | outside (step : Outside)
  | call (call : Call Choice)

namespace Connection

def turn (codec : HeaderCodec) (greedy : Bool) (s : Context Connection) :
    Turn → Except Stop (Context Connection)
  | .outside step => .ok { s with sys := s.sys.outside codec step }
  | .call call => handle (kernel codec greedy).toKernel s call

variable {codec : HeaderCodec} {greedy : Bool} {messages : List BwMessage} {this : Token}
  {fd : RawFd}

theorem turn_running {s : Context Connection} {p : Session} (fits : Fits codec messages)
    (running : Running codec greedy messages this fd s p) (input : Turn) :
    Sat (turn codec greedy s input) (· = .pending)
      (fun s' => ∃ p', Running codec greedy messages this fd s' p') := by
  cases input with
  | outside step => exact ⟨p, running.outside fits step⟩
  | call call => exact running.handle fits call

theorem turns_running (fits : Fits codec messages) (turns : List Turn) {s : Context Connection}
    {p : Session} (running : Running codec greedy messages this fd s p) :
    Sat (turns.foldlM (turn codec greedy) s) (· = .pending)
      (fun s' => ∃ p', Running codec greedy messages this fd s' p') := by
  refine Sat.foldlM ?_ turns s ⟨p, running⟩
  intro s input both
  obtain ⟨p, running⟩ := both
  exact turn_running fits running input

/-! ## One whole round trip -/

/-- The endpoint and the client are between two requests, nothing is under way
and `done` has been pushed. -/
structure AtRest (codec : HeaderCodec) (this : Token) (fd : RawFd) (done next : List BwMessage)
    (s : Context Connection) : Prop where
  running : ∃ p, Running codec false (done ++ next) this fd s p
  state : s.ep.state = .NEW_RPC
  finished : s.sys.client.finished = done
  ready : s.sys.client.phase = .ready
  todo : s.sys.client.todo = next
  inFlight : s.sys.inFlight = []
  receiveQueue : s.sys.receiveQueue = []
  sendQueue : s.sys.sendQueue = []
  room : s.sys.room = true

def grant (count : Nat) : Choice := { count := some count, room := true, later := [] }

def block : Choice := { count := none, room := true, later := [] }

theorem recv_grant (count : Nat) (fd : RawFd) (len : Nat) (c : Connection)
    (enough : c.receiveQueue.length ≤ count) (some : c.receiveQueue ≠ [] ∨ len = 0) :
    (kernel codec greedy).recv (grant count) fd len c =
      (.count (c.receiveQueue.take len), c.taken (min len c.receiveQueue.length)) := by
  have countEq : recvCount greedy (grant count) len c = min len c.receiveQueue.length := by
    simp only [recvCount, grant, Option.getD_some]
    split <;> omega
  have granted : ¬(min len c.receiveQueue.length = 0 ∧ len ≠ 0 ∨
      greedy = false ∧ (grant count).count = none) := by
    rintro (⟨zero, asked⟩ | ⟨_, none⟩)
    · rcases some with queued | nothing
      · have := List.length_pos_iff.mpr queued
        omega
      · exact asked nothing
    · simp [grant] at none
  have takeEq : c.receiveQueue.take (min len c.receiveQueue.length) = c.receiveQueue.take len := by
    rw [← List.take_take, List.take_length]
  change recv codec greedy (grant count) fd len c = _
  unfold recv
  dsimp only
  rw [countEq, if_neg granted, takeEq]
  rfl

theorem recv_block (fd : RawFd) (len : Nat) (c : Connection) :
    (kernel codec false).recv block fd len c = (.error .EAGAIN, c) := by
  change recv codec false block fd len c = _
  unfold recv
  rw [if_pos (Or.inr ⟨rfl, rfl⟩)]
  rfl

theorem send_grant (codec : HeaderCodec) (count : Nat) (fd : RawFd) (bytes : Bytes) (c : Connection)
    (enough : bytes.length ≤ count) (room : c.room = true) :
    (kernel codec greedy).send (grant count) fd bytes c =
      (.count bytes.length,
        { c with
          sendQueue := c.sendQueue ++ bytes
          history := c.history.sent bytes
          room := true }) := by
  have countEq : sendCount (grant count) bytes c = bytes.length := by
    simp only [sendCount, grant, room, if_true, Option.getD_some]
    omega
  have granted : ¬(bytes.length = 0 ∧ bytes ≠ [] ∨ (grant count).count = none) := by
    rintro (⟨zero, some⟩ | none)
    · exact some (List.eq_nil_of_length_eq_zero zero)
    · simp [grant] at none
  change send codec (grant count) fd bytes c = _
  unfold send
  dsimp only
  rw [countEq, if_neg granted, List.take_length]
  rfl

/-- What a call has done to the connection: left `queue` to receive and put
`sent` into the send queue. -/
structure Moved (c : Connection) (queue sent : Bytes) (c' : Connection) : Prop where
  client : c'.client = c.client
  inFlight : c'.inFlight = c.inFlight
  receiveQueue : c'.receiveQueue = queue
  sendQueue : c'.sendQueue = c.sendQueue ++ sent
  room : c'.room = true

section WholeFrame

variable {p : Session} {c : Connection} {count : Nat}

theorem recvAll_grant (stale : UInt8) {prefixBytes rest : Bytes}
    (queue : c.receiveQueue = prefixBytes ++ rest) (full : prefixBytes.length = 8)
    (enough : c.receiveQueue.length ≤ count) :
    recvAll (kernel codec greedy).toKernel fd 8 [grant count] 0 (List.replicate 8 stale) c =
      .ok (8, prefixBytes, c.taken 8) := by
  have some : c.receiveQueue ≠ [] := by
    intro empty
    rw [empty] at queue
    have := congrArg List.length queue
    rw [List.length_append, full, List.length_nil] at this
    omega
  have received : (kernel codec greedy).recv (grant count) fd (8 - 0) c =
      (.count prefixBytes, c.taken 8) := by
    rw [Nat.sub_zero, recv_grant count fd 8 c enough (Or.inl some), queue, ← full, List.take_left,
      List.length_append, Nat.min_eq_left (Nat.le_add_right _ _)]
  rw [recvAll, if_pos (by omega)]
  simp only [received]
  cases prefixBytes with
  | nil => simp at full
  | cons byte bytes =>
      simp only [full, Nat.zero_add, recvAll, Nat.lt_irrefl, if_false]
      have buffer : overwrite (List.replicate 8 stale) 0 (byte :: bytes) = byte :: bytes := by
        rw [overwrite, full]
        simp
      rw [buffer]

theorem fill_grant (codec : HeaderCodec) (fd : RawFd) (c : Connection) (count limit : Nat)
    (got : Bytes) (enough : c.receiveQueue.length ≤ count)
    (some : c.receiveQueue ≠ [] ∨ limit - got.length = 0) :
    Session.fill (kernel codec greedy).toKernel fd (grant count) limit got c =
      .ok (.some (got ++ c.receiveQueue.take (limit - got.length)),
        c.taken (min (limit - got.length) c.receiveQueue.length)) := by
  rw [Session.fill, recv_grant count fd (limit - got.length) c enough some]

theorem sendReply_grant (codec : HeaderCodec) (fd : RawFd) (this : Token) (count : Nat)
    {header data rest : Bytes} (stage : p.stage = .replying header data rest)
    (enough : rest.length ≤ count) (room : c.room = true)
    (registered : c.history.registered.isSome = true) :
    ∃ p' c', Session.sendReply (kernel codec greedy).toKernel fd this [grant count] (p, c) =
        .ok (p', c') ∧ p'.stage = .idle (some (header, data)) ∧ Moved c c.receiveQueue rest c' := by
  have sent : (kernel codec greedy).send (grant count) fd rest c = _ :=
    send_grant codec count fd rest c enough room
  let after : Connection :=
    { c with sendQueue := c.sendQueue ++ rest, history := c.history.sent rest, room := true }
  cases writable : p.interest.isWritable with
  | false =>
      refine ⟨{ p with stage := .idle (some (header, data)) }, after, ?_, rfl,
        ⟨rfl, rfl, rfl, rfl, rfl⟩⟩
      rw [Session.sendReply]
      simp only [stage, sent, if_true, writable]
      rfl
  | true =>
      refine ⟨{ p with stage := .idle (some (header, data)), interest := Interest.READABLE },
        after.register (registration this Interest.READABLE), ?_, rfl, ⟨rfl, rfl, rfl, rfl, rfl⟩⟩
      have modified : reregister (kernel codec greedy).toKernel fd this Interest.READABLE after =
          .ok (after.register (registration this Interest.READABLE)) := by
        have moved : (kernel codec greedy).epollCtlMod fd
            (registration this Interest.READABLE) after =
            some (after.register (registration this Interest.READABLE)) := if_pos registered
        rw [reregister, moved]
      rw [Session.sendReply]
      simp only [stage, sent, if_true, writable]
      rw [modified]
      rfl

/-- With a whole frame of the right size in the receive queue, one call takes
it and replies. -/
theorem onRecvReady_grant (stale : UInt8) {held : Option (Bytes × Bytes)}
    {prefixBytes header data : Bytes} (stage : p.stage = .idle held)
    (queue : c.receiveQueue = prefixBytes ++ (header ++ data)) (full : prefixBytes.length = 8)
    (limits : growLimits p.limits prefixBytes = (header.length, data.length))
    (enough : c.receiveQueue.length ≤ count) (room : c.room = true)
    (registered : c.history.registered.isSome = true) :
    ∃ p' c', Session.onRecvReady (kernel codec greedy).toKernel fd this stale
        { recvs := [grant count], header := grant count, data := grant count,
          sends := [grant count] } (p, c) = .ok (p', c') ∧
      p'.stage = .idle (some (header, data)) ∧ Moved c [] header c' := by
  have lengths := congrArg List.length queue
  rw [List.length_append, List.length_append] at lengths
  have queue₁ : (c.taken 8).receiveQueue = header ++ data := by
    change c.receiveQueue.drop 8 = _
    rw [queue, ← full, List.drop_left]
  have queue₂ : ((c.taken 8).taken header.length).receiveQueue = data := by
    change (c.taken 8).receiveQueue.drop header.length = _
    rw [queue₁, List.drop_left]
  have answer : ∀ (p₀ : Session) (c₀ : Connection), p₀.stage = .replying header data header →
      c₀.client = c.client → c₀.inFlight = c.inFlight → c₀.receiveQueue = [] →
      c₀.sendQueue = c.sendQueue → c₀.room = true → c₀.history.registered.isSome = true →
      ∃ p' c', Session.sendReply (kernel codec greedy).toKernel fd this [grant count] (p₀, c₀) =
          .ok (p', c') ∧ p'.stage = .idle (some (header, data)) ∧ Moved c [] header c' := by
    intro p₀ c₀ stage₀ client inFlight queue₀ sendQueue room₀ registered₀
    obtain ⟨p', c', sent, stage', moved⟩ :=
      sendReply_grant codec fd this count stage₀ (by omega) room₀ registered₀
    exact ⟨p', c', sent, stage', moved.client.trans client, moved.inFlight.trans inFlight,
      moved.receiveQueue.trans queue₀, by rw [moved.sendQueue, sendQueue], moved.room⟩
  have headerFill : Session.fill (kernel codec greedy).toKernel fd (grant count) header.length []
      (c.taken 8) = .ok (some header, (c.taken 8).taken header.length) := by
    have asked : (c.taken 8).receiveQueue ≠ [] ∨ header.length - ([] : Bytes).length = 0 := by
      cases header with
      | nil => exact Or.inr rfl
      | cons byte rest => exact Or.inl (by simp [queue₁])
    have enough₁ : (c.taken 8).receiveQueue.length ≤ count := by
      rw [queue₁, List.length_append]
      omega
    rw [fill_grant codec fd _ count header.length [] enough₁ asked, queue₁, List.nil_append,
      List.length_nil, Nat.sub_zero, List.take_left, List.length_append,
      Nat.min_eq_left (Nat.le_add_right _ _)]
  rw [Session.onRecvReady]
  simp only [stage, recvAll_grant stale queue full enough, bind, Except.bind, Nat.lt_irrefl,
    if_false, limits, Session.readHeader, headerFill, if_true, Session.readData]
  by_cases empty : data.length = 0
  · obtain rfl : data = [] := List.eq_nil_of_length_eq_zero empty
    simp only [List.length_nil, if_true]
    exact answer _ _ rfl rfl rfl queue₂ rfl room registered
  · have dataFill : Session.fill (kernel codec greedy).toKernel fd (grant count) data.length []
        ((c.taken 8).taken header.length) =
        .ok (some data, ((c.taken 8).taken header.length).taken data.length) := by
      have enough₂ : ((c.taken 8).taken header.length).receiveQueue.length ≤ count := by
        rw [queue₂]
        omega
      have asked : ((c.taken 8).taken header.length).receiveQueue ≠ [] ∨
          data.length - ([] : Bytes).length = 0 := by
        rw [queue₂]
        exact Or.inl (List.ne_nil_of_length_pos (by omega))
      rw [fill_grant codec fd _ count data.length [] enough₂ asked, queue₂, List.nil_append,
        List.length_nil, Nat.sub_zero, List.take_length, Nat.min_self]
    simp only [empty, if_false, dataFill, if_true]
    refine answer _ _ rfl rfl rfl ?_ rfl room registered
    change ((c.taken 8).taken header.length).receiveQueue.drop data.length = []
    rw [queue₂, List.drop_length]

/-- A prefix alone: with limits that are not both zero the session waits. -/
theorem onRecvReady_prefix (codec : HeaderCodec) (fd : RawFd) (this : Token) (stale : UInt8)
    {held : Option (Bytes × Bytes)} {prefixBytes rest : Bytes} {limits : Nat × Nat}
    (stage : p.stage = .idle held) (queue : c.receiveQueue = prefixBytes ++ rest)
    (full : prefixBytes.length = 8)
    (limitsEq : growLimits p.limits prefixBytes = limits) (some : limits.1 ≠ 0 ∨ limits.2 ≠ 0)
    (enough : c.receiveQueue.length ≤ count) :
    Session.onRecvReady (kernel codec false).toKernel fd this stale
        { recvs := [grant count], header := block, data := block, sends := [] } (p, c) =
      .ok ({ p with limits := limits, stage := .receiving false [] [] }, c.taken 8) := by
  have blocked : ∀ limit, Session.fill (kernel codec false).toKernel fd block limit []
      (c.taken 8) = .ok (none, c.taken 8) := by
    intro limit
    rw [Session.fill, recv_block]
    rfl
  rw [Session.onRecvReady]
  simp only [stage, recvAll_grant stale queue full enough, bind, Except.bind, Nat.lt_irrefl,
    if_false, limitsEq, Session.readHeader, blocked, List.length_nil]
  by_cases empty : limits.1 = 0
  · have more : limits.2 ≠ 0 := some.resolve_left fun absent => absent empty
    simp only [empty, if_true, Session.readData, more, if_false, blocked, bind, Except.bind]
    rfl
  · rw [if_neg (fun zero => empty zero.symm)]
    rfl

end WholeFrame

/-! ## The client's part -/

def pushSteps (count : Nat) (message : BwMessage) : List Outside :=
  [.client 0, .client count] ++ (if message.data = [] then [] else [.client count]) ++
    [.client 0, .arrive count]

def takeSteps (codec : HeaderCodec) (count : Nat) (message : BwMessage) : List Outside :=
  (if codec.headerBytes message = [] then [] else [.client count]) ++ [.client 0]

section Steps

variable {message : BwMessage} {done next : List BwMessage} {acks : List BwAck}

theorem step_start (count : Nat) (incoming : Bytes)
    (small : (codec.headerBytes message).length + 8 ≤ kDefaultBufferSize) :
    Client.step codec count ⟨done, .ready, message :: next, acks⟩ incoming =
      (⟨done, .sending message (metaBytes codec message ++ codec.headerBytes message) message.data,
        next, acks⟩, [], incoming) := by
  have fitsBuffer : (metaBytes codec message ++ codec.headerBytes message).length ≤
      kDefaultBufferSize := by
    rw [List.length_append, metaBytes_length]
    omega
  simp only [Client.step, if_pos fitsBuffer]

theorem step_buffer (count : Nat) (data incoming : Bytes) {buffer : Bytes} (some : buffer ≠ [])
    (enough : buffer.length ≤ count) :
    Client.step codec count ⟨done, .sending message buffer data, next, acks⟩ incoming =
      (⟨done, .sending message [] data, next, acks⟩, buffer, incoming) := by
  cases buffer with
  | nil => exact absurd rfl some
  | cons byte buffer =>
      simp only [Client.step, List.take_of_length_le enough, List.drop_eq_nil_of_le enough]

theorem step_data (count : Nat) (incoming : Bytes) {data : Bytes} (some : data ≠ [])
    (enough : data.length ≤ count) :
    Client.step codec count ⟨done, .sending message [] data, next, acks⟩ incoming =
      (⟨done, .sending message [] [], next, acks⟩, data, incoming) := by
  cases data with
  | nil => exact absurd rfl some
  | cons byte data =>
      simp only [Client.step, List.take_of_length_le enough, List.drop_eq_nil_of_le enough]

theorem step_sent (count : Nat) (incoming : Bytes) :
    Client.step codec count ⟨done, .sending message [] [], next, acks⟩ incoming =
      (⟨done, .receiving message [], next, acks⟩, [], incoming) := rfl

theorem step_take {count : Nat} (some : codec.headerBytes message ≠ [])
    (enough : (codec.headerBytes message).length ≤ count) :
    Client.step codec count ⟨done, .receiving message [], next, acks⟩
        (codec.headerBytes message) =
      (⟨done, .receiving message (codec.headerBytes message), next, acks⟩, [], []) := by
  have missing : ([] : Bytes).length < (codec.headerBytes message).length :=
    List.length_pos_iff.mpr some
  have whole : min count ((codec.headerBytes message).length - ([] : Bytes).length) =
      (codec.headerBytes message).length := by
    rw [List.length_nil]
    omega
  simp only [Client.step, if_pos missing, whole, List.take_length, List.drop_length,
    List.nil_append]

theorem step_finish (count : Nat) (incoming : Bytes) {got : Bytes}
    (whole : got = codec.headerBytes message) :
    Client.step codec count ⟨done, .receiving message got, next, acks⟩ incoming =
      (⟨done ++ [message], .ready, next,
        acks ++ [{ header := unpackPbBwHeader (codec.parse (codec.headerBytes message)),
                   success := true }]⟩, [], incoming) := by
  subst whole
  simp only [Client.step, Nat.lt_irrefl, if_false]

theorem outsides_pushSteps {c : Connection} {count : Nat}
    (client : c.client = ⟨done, .ready, message :: next, acks⟩)
    (small : (codec.headerBytes message).length + 8 ≤ kDefaultBufferSize)
    (inFlight : c.inFlight = []) (queue : c.receiveQueue = [])
    (enough : (frameBytes codec message).length ≤ count) :
    ∃ edge, c.outsides codec (pushSteps count message) =
      { c with
        client := ⟨done, .receiving message [], next, acks⟩
        receiveQueue := frameBytes codec message
        edge } := by
  have lengths : (metaBytes codec message ++ codec.headerBytes message).length +
      message.data.length ≤ count := by
    rw [frameBytes, List.length_append] at enough
    exact enough
  have some : metaBytes codec message ++ codec.headerBytes message ≠ [] := by
    intro empty
    have := congrArg List.length empty
    rw [List.length_append, metaBytes_length, List.length_nil] at this
    omega
  refine ⟨c.edge || (c.wantsIn && !(frameBytes codec message).isEmpty), ?_⟩
  by_cases data : message.data = []
  · have frameEq : frameBytes codec message =
        metaBytes codec message ++ codec.headerBytes message := by
      rw [frameBytes, data, List.append_nil]
    have buffer : (metaBytes codec message ++ codec.headerBytes message).length ≤ count := by omega
    simp only [pushSteps, data, if_true, List.append_nil, List.cons_append, List.nil_append,
      outsides_cons, outsides_nil, outside, client, step_start 0 c.sendQueue small,
      step_buffer count [] c.sendQueue some buffer, inFlight, queue, step_sent]
    rw [← frameEq, List.take_of_length_le enough, List.drop_eq_nil_of_le enough]
    rfl
  · have buffer : (metaBytes codec message ++ codec.headerBytes message).length ≤ count := by omega
    have dataLe : message.data.length ≤ count := by omega
    simp only [pushSteps, data, if_false, List.append_nil, List.cons_append, List.nil_append,
      outsides_cons, outsides_nil, outside, client, step_start 0 c.sendQueue small,
      step_buffer count message.data c.sendQueue some buffer,
      step_data count c.sendQueue data dataLe, inFlight, queue, step_sent]
    rw [← frameBytes, List.take_of_length_le enough, List.drop_eq_nil_of_le enough]
    rfl

theorem outsides_takeSteps {c : Connection} {count : Nat}
    (client : c.client = ⟨done, .receiving message [], next, acks⟩)
    (sendQueue : c.sendQueue = codec.headerBytes message)
    (enough : (codec.headerBytes message).length ≤ count) :
    ∃ acks', c.outsides codec (takeSteps codec count message) =
      { c with client := ⟨done ++ [message], .ready, next, acks'⟩, sendQueue := [] } := by
  refine ⟨acks ++ [{ header := unpackPbBwHeader (codec.parse (codec.headerBytes message)),
                     success := true }], ?_⟩
  by_cases empty : codec.headerBytes message = []
  · simp only [takeSteps, empty, if_true, List.nil_append, outsides_cons, outsides_nil, outside,
      client, step_finish 0 [] empty.symm, List.append_nil, sendQueue]
  · simp only [takeSteps, empty, if_false, List.cons_append, List.nil_append, outsides_cons,
      outsides_nil, outside, client, sendQueue, step_take empty enough, step_finish 0 [] rfl,
      List.append_nil]

end Steps

/-! ## Round trips one after another -/

theorem turns_outside (codec : HeaderCodec) (greedy : Bool) (steps : List Outside) :
    ∀ s : Context Connection, (steps.map Turn.outside).foldlM (turn codec greedy) s =
      .ok { s with sys := s.sys.outsides codec steps } := by
  induction steps with
  | nil => intro s; rfl
  | cons step steps ih =>
      intro s
      rw [List.map_cons, List.foldlM_cons]
      exact ih { s with sys := s.sys.outside codec step }

theorem frames_length (codec : HeaderCodec) (messages : List BwMessage) :
    8 * messages.length ≤ (frames codec messages).length := by
  induction messages with
  | nil => exact Nat.zero_le _
  | cons message messages ih =>
      rw [frames_cons, frameBytes, List.length_append, List.length_append, List.length_append,
        metaBytes_length, List.length_cons]
      omega

theorem frames_injective (codec : HeaderCodec) (first : List BwMessage) {rest : List BwMessage}
    (same : frames codec (first ++ rest) = frames codec first) : rest = [] := by
  rw [frames_append] at same
  have lengthEq := congrArg List.length same
  have lengthLe := frames_length codec rest
  rw [List.length_append] at lengthEq
  exact List.eq_nil_of_length_eq_zero (by omega)

section Rounds

variable {done next : List BwMessage} {message : BwMessage} {s : Context Connection}

theorem AtRest.consumed (rest : AtRest codec this fd done next s) :
    s.sys.history.consumed = frames codec done := by
  obtain ⟨p, running⟩ := rest.running
  obtain ⟨pushed, received, inOrder, pushedEq, _⟩ := running.conserves
  have sentAll := inOrder.pushed_eq
  simp only [Client.unsent, Client.started, rest.ready, List.append_nil, rest.finished] at sentAll
  rw [← sentAll, pushedEq, rest.receiveQueue, rest.inFlight, List.append_nil, List.append_nil]

/-- At rest the recorded limits are the sizes of the last message. -/
theorem AtRest.session (rest : AtRest codec this fd done next s) (growing : Growing codec done)
    (small : Small codec done) :
    ∃ p held, Running codec false (done ++ next) this fd s p ∧ p.stage = .idle held ∧
      p.limits = lastSizes codec done := by
  obtain ⟨p, running⟩ := rest.running
  have newRpc : p.stage.state = .NEW_RPC :=
    running.live.tracks.represents.state_eq.symm.trans rest.state
  obtain ⟨held, stage⟩ := Stage.idle_of_state newRpc
  refine ⟨p, held, running, stage, ?_⟩
  have traffic := running.live.settled.1.traffic
  simp only [Traffic, stage] at traffic
  obtain ⟨earlier, torn, consumedEq, _, tornDrained, served, _⟩ := traffic
  obtain rfl : torn = [] := by
    by_contra some
    exact tornDrained some
  rw [List.append_nil] at consumedEq
  have whole : earlier = frames codec done := consumedEq.symm.trans rest.consumed
  obtain ⟨done', next', doneEq, earlierEq, _, limitsEq⟩ :=
    served.exact growing small (whole ▸ List.prefix_refl _)
  obtain rfl : next' = [] := by
    refine frames_injective codec done' ?_
    rw [← doneEq, ← whole, earlierEq]
  rw [List.append_nil] at doneEq
  rw [limitsEq, doneEq]

theorem Running.registered {greedy : Bool} {messages : List BwMessage} {p : Session}
    (running : Running codec greedy messages this fd s p) :
    s.sys.history.registered.isSome = true := by
  have registered := running.live.settled.1.registered
  change s.sys.history.registered = _ at registered
  rw [registered]
  rfl

theorem Running.outsides {greedy : Bool} {messages : List BwMessage} {p : Session}
    (fits : Fits codec messages) (steps : List Outside) :
    ∀ s : Context Connection, Running codec greedy messages this fd s p →
      Running codec greedy messages this fd { s with sys := s.sys.outsides codec steps } p := by
  induction steps with
  | nil => intro s running; exact running
  | cons step steps ih =>
      intro s running
      exact ih _ (running.outside fits step)

theorem turns_between (before after : List Outside) (answers : Answers Choice)
    {s s' : Context Connection}
    (called : onRecvReady (kernel codec false).toKernel answers
      { s with sys := s.sys.outsides codec before } = .ok s') :
    (before.map Turn.outside ++ Turn.call (.recvReady answers) :: after.map Turn.outside).foldlM
        (turn codec false) s = .ok { s' with sys := s'.sys.outsides codec after } := by
  rw [List.foldlM_append, turns_outside]
  change ((Turn.call (.recvReady answers) :: after.map Turn.outside).foldlM (turn codec false)
    { s with sys := s.sys.outsides codec before }) = _
  rw [List.foldlM_cons]
  change (onRecvReady (kernel codec false).toKernel answers
    { s with sys := s.sys.outsides codec before } >>= _) = _
  rw [called]
  exact turns_outside codec false after s'

/-- From rest the client can put the whole next frame into the receive queue. -/
theorem AtRest.pushed (rest : AtRest codec this fd done (message :: next) s)
    (fits : Fits codec (done ++ message :: next)) :
    ∃ edge, s.sys.outsides codec (pushSteps (frameBytes codec message).length message) =
      { s.sys with
        client := ⟨done, .receiving message [], next, s.sys.client.acks⟩
        receiveQueue := frameBytes codec message
        edge } := by
  have client : s.sys.client = ⟨done, .ready, message :: next, s.sys.client.acks⟩ := by
    rw [← rest.finished, ← rest.ready, ← rest.todo]
  exact outsides_pushSteps client (fits message (by simp)) rest.inFlight rest.receiveQueue
    (le_refl _)

theorem AtRest.round (rest : AtRest codec this fd done (message :: next) s)
    (fits : Fits codec (done ++ message :: next)) (small : Small codec (done ++ [message]))
    (growing : Growing codec (done ++ [message])) :
    ∃ (turns : List Turn) (s' : Context Connection),
      turns.foldlM (turn codec false) s = .ok s' ∧
      AtRest codec this fd (done ++ [message]) next s' := by
  obtain ⟨p, held, running, stage, limitsEq⟩ := rest.session
    (growing.sublist (List.sublist_append_left _ _))
    (fun other member => small other (List.mem_append_left _ member))
  have limits : growLimits p.limits (metaBytes codec message) =
      ((codec.headerBytes message).length, message.data.length) := by
    rw [limitsEq]
    exact growLimits_growing growing small
  obtain ⟨edge, pushed⟩ := rest.pushed fits
  have running₁ := running.outsides fits (pushSteps (frameBytes codec message).length message)
  have frame : frameBytes codec message =
      metaBytes codec message ++ (codec.headerBytes message ++ message.data) := by
    rw [frameBytes, List.append_assoc]
  have queue₁ : (s.sys.outsides codec (pushSteps (frameBytes codec message).length
      message)).receiveQueue = metaBytes codec message ++ (codec.headerBytes message ++
      message.data) := by
    rw [pushed]
    exact frame
  have room₁ : (s.sys.outsides codec (pushSteps (frameBytes codec message).length
      message)).room = true := by
    rw [pushed]
    exact rest.room
  obtain ⟨p', c', received, stage', moved⟩ := onRecvReady_grant s.mem.stale stage queue₁
    (metaBytes_length codec message) limits (by rw [queue₁, ← frame]) room₁ running₁.registered
  obtain ⟨s₂, called, tracks⟩ := (onRecvReady_agree _ _ running₁.live.tracks).of_right received
  have sysEq : s₂.sys = c' := tracks.sys_eq
  have headerLe : (codec.headerBytes message).length ≤ (frameBytes codec message).length := by
    rw [frame, List.length_append, List.length_append]
    omega
  have client₂ : s₂.sys.client = ⟨done, .receiving message [], next, s.sys.client.acks⟩ := by
    rw [sysEq, moved.client, pushed]
  have sendQueue₂ : s₂.sys.sendQueue = codec.headerBytes message := by
    rw [sysEq, moved.sendQueue, pushed, rest.sendQueue, List.nil_append]
  obtain ⟨acks, taken⟩ := outsides_takeSteps client₂ sendQueue₂ headerLe
  have turns := turns_between (pushSteps (frameBytes codec message).length message)
    (takeSteps codec (frameBytes codec message).length message) _ called
  have stays := (turns_running fits _ running).of_ok turns
  have messagesEq : done ++ message :: next = (done ++ [message]) ++ next := by simp
  rw [messagesEq] at stays
  refine ⟨_, _, turns, stays, ?_, ?_, ?_, ?_, ?_, ?_, ?_, ?_⟩
  · exact tracks.represents.state_eq.trans (by rw [stage']; rfl)
  all_goals simp only [taken]
  · rw [sysEq, moved.inFlight, pushed]
    exact rest.inFlight
  · rw [sysEq, moved.receiveQueue]
  · rw [sysEq, moved.room]

theorem accepted_atRest (fits : Fits codec next) (mem : Memory) :
    AtRest codec this fd [] next (accepted codec this fd mem next []) :=
  ⟨⟨_, accepted_running fits mem []⟩, rfl, rfl, rfl, rfl, rfl, rfl, rfl, rfl⟩

/-- All messages before the first smaller one come through. -/
theorem rounds (fits : Fits codec messages) (small : Small codec messages) (mem : Memory)
    (done : List BwMessage) :
    ∀ next, messages = done ++ next → Growing codec done →
      ∃ (turns : List Turn) (s : Context Connection),
        turns.foldlM (turn codec false) (accepted codec this fd mem messages []) = .ok s ∧
        AtRest codec this fd done next s := by
  induction done using List.reverseRecOn with
  | nil =>
      intro next messagesEq _
      rw [List.nil_append] at messagesEq
      subst messagesEq
      exact ⟨[], _, rfl, accepted_atRest fits mem⟩
  | append_singleton done message ih =>
      intro next messagesEq growing
      have split : messages = done ++ message :: next := by
        rw [messagesEq, List.append_assoc]
        rfl
      obtain ⟨turns, s, ran, rest⟩ := ih (message :: next) split
        (growing.sublist (List.sublist_append_left _ _))
      have smallDone : Small codec (done ++ [message]) := by
        intro other member
        exact small other (messagesEq ▸ List.mem_append_left next member)
      obtain ⟨more, s', ran', rest'⟩ := rest.round (split ▸ fits) smallDone growing
      refine ⟨turns ++ more, s', ?_, rest'⟩
      rw [List.foldlM_append, ran]
      exact ran'

/-! ## Behind a smaller message -/

theorem exists_smaller (codec : HeaderCodec) (messages : List BwMessage)
    (shrinks : ¬Growing codec messages) :
    ∃ done message next, messages = done ++ message :: next ∧ Growing codec done ∧
      ¬Growing codec (done ++ [message]) := by
  induction messages using List.reverseRecOn with
  | nil => exact absurd List.Pairwise.nil shrinks
  | append_singleton front last ih =>
      by_cases growing : Growing codec front
      · exact ⟨front, last, [], rfl, growing, shrinks⟩
      · obtain ⟨done, message, next, rfl, growing', shrinks'⟩ := ih growing
        exact ⟨done, message, next ++ [last], by simp, growing', shrinks'⟩

/-- The limits a smaller message is received with are not its sizes. -/
theorem growLimits_smaller (growing : Growing codec done)
    (shrinks : ¬Growing codec (done ++ [message]))
    (small : (sizes codec message).1 < 2 ^ 32 ∧ (sizes codec message).2 < 2 ^ 32) :
    (sizes codec message).1 < (growLimits (lastSizes codec done) (metaBytes codec message)).1 ∨
      (sizes codec message).2 < (growLimits (lastSizes codec done) (metaBytes codec message)).2 := by
  obtain ⟨headerEq, dataEq⟩ := fromLE_metaBytes codec message small
  by_contra within
  apply shrinks
  refine List.pairwise_append.mpr ⟨growing, List.pairwise_singleton _ _, ?_⟩
  intro earlier member other otherMember
  obtain rfl := List.mem_singleton.mp otherMember
  obtain ⟨last, lastEq⟩ : ∃ last, done.getLast? = some last :=
    Option.ne_none_iff_exists'.mp (by
      intro none
      rw [List.getLast?_eq_none_iff.mp none] at member
      cases member)
  obtain ⟨front, rfl⟩ := List.getLast?_eq_some_iff.mp lastEq
  have limitsEq : growLimits (lastSizes codec (front ++ [last])) (metaBytes codec other) =
      (max (sizes codec last).1 (sizes codec other).1,
        max (sizes codec last).2 (sizes codec other).2) := by
    simp only [growLimits, lastSizes, lastEq, Option.map_some, headerEq, dataEq]
  rw [limitsEq] at within
  have lastWithin : (sizes codec earlier).1 ≤ (sizes codec last).1 ∧
      (sizes codec earlier).2 ≤ (sizes codec last).2 := by
    rcases List.mem_append.mp member with before | same
    · exact (List.pairwise_append.mp growing).2.2 earlier before last (by simp)
    · obtain rfl := List.mem_singleton.mp same
      exact ⟨le_refl _, le_refl _⟩
  omega

/-- The position of a frame in the stream tells which frame it is. -/
theorem position_unique (codec : HeaderCodec) {done done' next next' : List BwMessage}
    {message message' : BwMessage} (same : done ++ message :: next = done' ++ message' :: next')
    (position : (frames codec done).length = (frames codec done').length) :
    done = done' ∧ message = message' := by
  have aligned : ∀ {front front' later : List BwMessage}, front' = front ++ later →
      (frames codec front).length = (frames codec front').length → later = [] := by
    intro front front' later split lengths
    have laterLe := frames_length codec later
    rw [split, frames_append, List.length_append] at lengths
    exact List.eq_nil_of_length_eq_zero (by omega)
  rcases List.append_eq_append_iff.mp same with ⟨more, doneEq, restEq⟩ | ⟨more, doneEq, restEq⟩
  · obtain rfl := aligned doneEq position
    rw [List.append_nil] at doneEq
    exact ⟨doneEq.symm, (List.cons.inj restEq).1⟩
  · obtain rfl := aligned doneEq position.symm
    rw [List.append_nil] at doneEq
    exact ⟨doneEq, (List.cons.inj restEq).1.symm⟩

theorem collected_nil {mem : Memory} {ptr limit size : Nat} {bytes : Bytes}
    (collected : Collected mem (some (viewOn ptr limit 0)) size bytes) :
    limit = size ∧ bytes = [] := by
  obtain ⟨buffer, bufferEq, size', handled, _⟩ := collected
  cases bufferEq
  exact ⟨size', List.eq_nil_of_length_eq_zero handled.symm⟩

/-- Behind a prefix whose limits are not the message's sizes the frames are
not taken apart exactly. -/
theorem not_framesExact {s : Context Connection} {headerPtr dataPtr : Nat} {limits : Nat × Nat}
    (messagesEq : messages = done ++ message :: next) (state : s.ep.state = .META_RECVED)
    (consumed : s.sys.history.consumed = frames codec done ++ metaBytes codec message)
    (headerView : s.ep.headerBuffer = some (viewOn headerPtr limits.1 0))
    (dataView : s.ep.dataBuffer = some (viewOn dataPtr limits.2 0))
    (differ : limits ≠ sizes codec message) : ¬FramesExact codec messages s.sys.history s := by
  intro both
  obtain ⟨done', next', messagesEq', body⟩ := both
  rw [state] at body
  obtain ⟨message', later, header, data, rfl, consumed', _, _, _, _, headerPart, dataPart⟩ := body
  rw [headerView] at headerPart
  rw [dataView] at dataPart
  obtain ⟨headerLimit, rfl⟩ := collected_nil headerPart
  obtain ⟨dataLimit, rfl⟩ := collected_nil dataPart
  have lengths := congrArg List.length (consumed.symm.trans consumed')
  simp only [List.length_append, metaBytes_length, List.length_nil] at lengths
  obtain ⟨_, rfl⟩ := position_unique codec (messagesEq.symm.trans messagesEq') (by omega)
  exact differ (Prod.ext headerLimit dataLimit)

/-- After a smaller message's prefix the endpoint waits for bytes that the
client has not put into the frame. -/
theorem AtRest.stuck (rest : AtRest codec this fd done (message :: next) s)
    (fits : Fits codec (done ++ message :: next)) (small : Small codec (done ++ message :: next))
    (growing : Growing codec done) (shrinks : ¬Growing codec (done ++ [message])) :
    ∃ (turns : List Turn) (s' : Context Connection),
      turns.foldlM (turn codec false) s = .ok s' ∧
      ¬FramesExact codec (done ++ message :: next) s'.sys.history s' := by
  obtain ⟨p, held, running, stage, limitsEq⟩ := rest.session growing
    (fun other member => small other (List.mem_append_left _ member))
  have larger := growLimits_smaller growing shrinks (small message (by simp))
  rw [← limitsEq] at larger
  generalize grown : growLimits p.limits (metaBytes codec message) = limits at larger
  obtain ⟨edge, pushed⟩ := rest.pushed fits
  have running₁ := running.outsides fits (pushSteps (frameBytes codec message).length message)
  have queue₁ : (s.sys.outsides codec (pushSteps (frameBytes codec message).length
      message)).receiveQueue = metaBytes codec message ++ (codec.headerBytes message ++
      message.data) := by
    rw [pushed, ← List.append_assoc]
    rfl
  have received := onRecvReady_prefix codec fd this s.mem.stale stage queue₁
    (metaBytes_length codec message) grown (by omega) (by rw [pushed])
  obtain ⟨s₂, called, tracks⟩ := (onRecvReady_agree _ _ running₁.live.tracks).of_right received
  have turns := turns_between (pushSteps (frameBytes codec message).length message) [] _ called
  refine ⟨_, _, turns, ?_⟩
  obtain ⟨headerPtr, dataPtr, header, data, frameEq, frame⟩ := tracks.represents.body
  cases frameEq
  apply not_framesExact rfl frame.state _ frame.headerView frame.dataView
  · intro same
    rw [same] at larger
    omega
  · rw [tracks.sys_eq]
    change (s.sys.outsides codec _).history.consumed ++ List.take 8 (Connection.receiveQueue _) = _
    rw [queue₁, outsides_history, rest.consumed, ← metaBytes_length codec message, List.take_left]

end Rounds

/-- Where a message is smaller than an earlier one, some schedule of an
otherwise undisturbed connection takes the frames apart wrongly. -/
theorem exists_stuck (fits : Fits codec messages) (small : Small codec messages)
    (shrinks : ¬Growing codec messages) (this : Token) (fd : RawFd) (mem : Memory) :
    ∃ (turns : List Turn) (s : Context Connection),
      turns.foldlM (turn codec false) (accepted codec this fd mem messages []) = .ok s ∧
      ¬FramesExact codec messages s.sys.history s := by
  obtain ⟨done, message, next, rfl, growing, shrinks'⟩ := exists_smaller codec messages shrinks
  obtain ⟨before, s, ran, rest⟩ := rounds fits small mem done (message :: next) rfl growing
  obtain ⟨after, s', ran', wrong⟩ := rest.stuck fits small growing shrinks'
  refine ⟨before ++ after, s', ?_, wrong⟩
  rw [List.foldlM_append, ran]
  exact ran'

theorem small_of_fits (fits : Fits codec messages)
    (payloads : ∀ message ∈ messages, message.data.length < 2 ^ 32) : Small codec messages := by
  intro message member
  have header := fits message member
  have payload := payloads message member
  simp only [sizes, kDefaultBufferSize] at header ⊢
  omega

/-- What is to hold of every state between two handler calls, whatever the
kernel, the wire and the client do. -/
def AlwaysExact (codec : HeaderCodec) (messages : List BwMessage) : Prop :=
  ∀ (this : Token) (fd : RawFd) (mem : Memory) (early : List Outside) (turns : List Turn),
    Sat (turns.foldlM (turn codec false) (accepted codec this fd mem messages early))
      (· = .pending) (fun s => FramesExact codec messages s.sys.history s)

/-- The endpoint takes the frames apart exactly, under every schedule, if and
only if the sizes on the connection never shrink. -/
theorem always_exact_iff_growing (codec : HeaderCodec) (messages : List BwMessage)
    (fits : Fits codec messages)
    (payloads : ∀ message ∈ messages, message.data.length < 2 ^ 32) :
    AlwaysExact codec messages ↔ Growing codec messages := by
  have small := small_of_fits fits payloads
  constructor
  · intro exact'
    by_contra shrinks
    obtain ⟨turns, s, ran, wrong⟩ :=
      exists_stuck fits small shrinks 0 0 { block := fun _ => none, next := 0, stale := 0 }
    exact wrong ((exact' _ _ _ _ turns).of_ok ran)
  · intro growing this fd mem early turns
    apply (turns_running fits turns (accepted_running fits mem early)).mono (fun _ => id)
    intro s both
    obtain ⟨p, running⟩ := both
    exact running.framesExact growing small

def stuff (payload : Bytes) : BwMessage :=
  { header := { field1 := 1, field2 := true, field3 := [115, 116, 117, 102, 102] }, data := payload }

theorem always_exact_of_growing_sizes :
    AlwaysExact wireCodec [stuff [], stuff [1], stuff [2, 3]] :=
  (always_exact_iff_growing wireCodec [stuff [], stuff [1], stuff [2, 3]]
    (by unfold Fits; decide) (by decide)).mpr (by unfold Growing; decide)

/-- Two payload bytes, then one: the endpoint waits for a second one. -/
theorem not_always_exact_when_shrinking : ¬AlwaysExact wireCodec [stuff [1, 2], stuff [3]] := by
  intro exact'
  have fits : Fits wireCodec [stuff [1, 2], stuff [3]] := by
    unfold Fits
    decide
  obtain ⟨turns, s, ran, wrong⟩ := exists_stuck fits (small_of_fits fits (by decide))
    (by unfold Growing; decide) 0 5 { block := fun _ => none, next := 0, stale := 0 }
  exact wrong ((exact' _ _ _ _ turns).of_ok ran)

end Connection

end RpcBench.Socket
