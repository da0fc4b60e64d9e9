import RpcBench.Socket.Frames

/-! # What the handlers leave to edge-triggered epoll

A client that pushes one message over and over never has two requests under
way.  So a handler that returns has emptied the receive queue or filled the
send queue, and whatever changes afterwards queues an event. -/
set_option autoImplicit false

namespace RpcBench.Socket

open ByteList Bandwidth Fallible BwServerEndpoint

/-- What `PushData` needs of a message that is sent over and over, and a header
to wake up the client. -/
structure Repeats (codec : HeaderCodec) (message : BwMessage) : Prop where
  header : codec.headerBytes message ≠ []
  fits : (codec.headerBytes message).length + 8 ≤ kDefaultBufferSize
  payload : message.data.length < 2 ^ 32

section Repeats

variable {codec : HeaderCodec} {message : BwMessage}

theorem Repeats.fits_replicate (repeats : Repeats codec message) (n : Nat) :
    Fits codec (List.replicate n message) := by
  intro other member
  rw [List.eq_of_mem_replicate member]
  exact repeats.fits

theorem Repeats.small (repeats : Repeats codec message) (n : Nat) :
    Small codec (List.replicate n message) := by
  intro other member
  rw [List.eq_of_mem_replicate member]
  have header := repeats.fits
  have payload := repeats.payload
  simp only [sizes, kDefaultBufferSize] at header ⊢
  omega

end Repeats

namespace Connection

variable {codec : HeaderCodec} {message : BwMessage} {n : Nat} {this : Token} {fd : RawFd}

/-! ## One request at a time -/

section Lockstep

theorem growing_replicate (codec : HeaderCodec) (message : BwMessage) (n : Nat) :
    Growing codec (List.replicate n message) := by
  unfold Growing
  rw [List.pairwise_replicate]
  exact Or.inr ⟨le_refl _, le_refl _⟩

theorem frames_replicate (codec : HeaderCodec) (message : BwMessage) (n : Nat) :
    (frames codec (List.replicate n message)).length = n * (frameBytes codec message).length := by
  unfold frames
  rw [List.length_flatMap, List.map_replicate, List.sum_replicate_nat]

theorem headers_replicate (codec : HeaderCodec) (message : BwMessage) (n : Nat) :
    (headers codec (List.replicate n message)).length =
      n * (codec.headerBytes message).length := by
  unfold headers
  rw [List.length_flatMap, List.map_replicate, List.sum_replicate_nat]

theorem started_finished (client : Client) :
    ∃ current, client.started = client.finished ++ current ∧ current.length ≤ 1 := by
  cases phase : client.phase with
  | ready => exact ⟨[], by simp [Client.started, phase], by simp⟩
  | sending message buffer data => exact ⟨[message], by simp [Client.started, phase], by simp⟩
  | receiving message got => exact ⟨[message], by simp [Client.started, phase], by simp⟩
  | overrun => exact ⟨[], by simp [Client.started, phase], by simp⟩

/-- Whole frames have been taken, and all their headers written but `rest`. -/
def Owes (codec : HeaderCodec) (message : BwMessage) (c : Connection) (rest : Bytes) : Prop :=
  ∃ served, c.history.consumed.length = served * (frameBytes codec message).length ∧
    c.history.written.length + rest.length = served * (codec.headerBytes message).length

/-- As long as a byte of the last reply is missing the client does not begin
the next request. -/
theorem Owes.receiveQueue_eq {c : Connection} {rest : Bytes} (owes : Owes codec message c rest)
    (conserves : Conserves codec (List.replicate n message) c) (some : rest ≠ []) :
    c.receiveQueue = [] := by
  obtain ⟨served, consumedLen, writtenLen⟩ := owes
  obtain ⟨pushed, received, inOrder, pushedEq, writtenEq⟩ := conserves
  obtain ⟨current, startedEq, currentLen⟩ := started_finished c.client
  have startedRep : c.client.started = List.replicate c.client.started.length message :=
    (List.append_eq_replicate_iff.mp inOrder.messages_eq).2.1
  have finishedRep : c.client.finished = List.replicate c.client.finished.length message :=
    (List.append_eq_replicate_iff.mp (startedEq.symm.trans startedRep)).2.1
  have pushedLen := congrArg List.length inOrder.pushed_eq
  have receivedLen := inOrder.received_length
  rw [startedRep, frames_replicate, List.length_append] at pushedLen
  rw [finishedRep, headers_replicate] at receivedLen
  have behind : c.client.finished.length < served := by
    have restLen := List.length_pos_iff.mpr some
    have writtenLen' := congrArg List.length writtenEq
    rw [List.length_append] at writtenLen'
    by_contra enough
    have := Nat.mul_le_mul_right (codec.headerBytes message).length (Nat.not_lt.mp enough)
    omega
  have startedLe : c.client.started.length * (frameBytes codec message).length ≤
      served * (frameBytes codec message).length := by
    apply Nat.mul_le_mul_right
    rw [startedEq, List.length_append]
    omega
  have queueLen := congrArg List.length pushedEq
  rw [List.length_append, List.length_append] at queueLen
  exact List.eq_nil_of_length_eq_zero (by omega)

theorem owes_of_answering {p : Session} {c : Connection} {header data rest : Bytes}
    (repeats : Repeats codec message) (conserves : Conserves codec (List.replicate n message) c)
    (answering : Answering (wire codec true) this p c header data rest) :
    Owes codec message c rest ∧ header.length = (codec.headerBytes message).length := by
  obtain ⟨stage, ⟨headerLimit, dataLimit, limits, headerFull, dataFull⟩, _, traffic⟩ := answering
  have upTo := conserves.consumed_prefix
  change Traffic p c.history.consumed c.history.written _ at traffic
  simp only [Traffic, stage] at traffic
  obtain ⟨earlier, limits₀, prefixBytes, replies, frame, served, split⟩ := traffic
  obtain ⟨done, message', later, messagesEq, earlierEq, repliesEq, current, _, _⟩ :=
    frame.exact served (growing_replicate codec message n) (repeats.small n) upTo
  obtain ⟨_, doneRep, laterRep⟩ := List.append_eq_replicate_iff.mp messagesEq.symm
  obtain rfl : message' = message := List.eq_of_mem_replicate (laterRep ▸ List.mem_cons_self)
  rw [limits] at current
  obtain ⟨rfl, rfl⟩ := Prod.ext_iff.mp (Option.some.inj current)
  have consumedLen := congrArg List.length frame.consumed_eq
  have writtenLen := congrArg List.length split
  rw [earlierEq, doneRep] at consumedLen
  rw [repliesEq, doneRep] at writtenLen
  simp only [List.length_append, frames_replicate, headers_replicate, frame.prefixFull]
    at consumedLen writtenLen
  refine ⟨⟨done.length + 1, ?_, ?_⟩, headerFull⟩
  · rw [consumedLen, headerFull, dataFull, Nat.add_one_mul, frameBytes, List.length_append,
      List.length_append, metaBytes_length]
    rfl
  · rw [writtenLen, headerFull, Nat.add_one_mul]
    rfl

end Lockstep

/-! ## Awake: an event for whatever there is to do -/

/-- Bytes to receive are announced; `inHand` is a delivered event that has not
been handled. -/
def Inbound (inHand : Bool) (c : Connection) : Prop :=
  c.receiveQueue ≠ [] → c.edge = true ∨ inHand = true

structure Outbound (inHand : Bool) (c : Connection) : Prop where
  noticed : c.room = true → c.edge = true ∨ inHand = true
  remembered : c.room = false → c.noSpace = true

def Awake (readable writable : Bool) (stage : Stage) (c : Connection) : Prop :=
  match stage with
  | .replying _ _ rest => rest ≠ [] ∧ c.wantsOut = true ∧ Outbound writable c
  | _ => Inbound readable c

section Awake

variable {inHand : Bool} {c : Connection}

theorem wantsIn_outside (step : Outside) : (c.outside codec step).wantsIn = c.wantsIn := by
  rw [wantsIn, wantsIn, outside_history]

theorem wantsOut_outside (step : Outside) : (c.outside codec step).wantsOut = c.wantsOut := by
  rw [wantsOut, wantsOut, outside_history]

theorem wantsOut_outsides (steps : List Outside) :
    (c.outsides codec steps).wantsOut = c.wantsOut := by
  rw [wantsOut, wantsOut, outsides_history]

theorem Inbound.outside (inbound : Inbound inHand c) (wants : c.wantsIn = true)
    (step : Outside) : Inbound inHand (c.outside codec step) := by
  cases step with
  | client count => exact inbound
  | arrive count =>
      intro queued
      simp only [Connection.outside, wants, Bool.true_and]
      cases bytes : (c.inFlight.take count).isEmpty with
      | false => exact Or.inl (by simp)
      | true =>
          have nothing := List.isEmpty_iff.mp bytes
          simp only [Connection.outside, nothing, List.append_nil] at queued
          simpa using inbound queued
  | space =>
      intro queued
      simp only [Connection.outside, Bool.or_eq_true]
      exact (inbound queued).imp Or.inl id

theorem remembered_outside (remembered : c.room = false → c.noSpace = true) (step : Outside) :
    (c.outside codec step).room = false → (c.outside codec step).noSpace = true := by
  cases step with
  | client count => exact remembered
  | arrive count => exact remembered
  | space => simp [Connection.outside]

theorem Outbound.outside (outbound : Outbound inHand c) (wants : c.wantsOut = true)
    (step : Outside) : Outbound inHand (c.outside codec step) := by
  refine ⟨?_, remembered_outside outbound.remembered step⟩
  cases step with
  | client count => exact outbound.noticed
  | arrive count =>
      intro room
      simp only [Connection.outside, Bool.or_eq_true]
      exact (outbound.noticed room).imp Or.inl id
  | space =>
      intro _
      simp only [Connection.outside, wants, Bool.true_and, Bool.or_eq_true]
      cases room : c.room with
      | true => exact (outbound.noticed room).imp Or.inl id
      | false => exact Or.inl (Or.inr (outbound.remembered room))

theorem Inbound.outsides (inbound : Inbound inHand c) (wants : c.wantsIn = true)
    (steps : List Outside) : Inbound inHand (c.outsides codec steps) := by
  have both : Inbound inHand (c.outsides codec steps) ∧ (c.outsides codec steps).wantsIn = true := by
    apply outsides_rule (fun c => Inbound inHand c ∧ c.wantsIn = true) _ steps c ⟨inbound, wants⟩
    intro c step kept
    obtain ⟨inbound, wants⟩ := kept
    exact ⟨inbound.outside wants step, (wantsIn_outside step).trans wants⟩
  exact both.1

theorem Outbound.outsides (outbound : Outbound inHand c) (wants : c.wantsOut = true)
    (steps : List Outside) : Outbound inHand (c.outsides codec steps) := by
  have both : Outbound inHand (c.outsides codec steps) ∧
      (c.outsides codec steps).wantsOut = true := by
    apply outsides_rule (fun c => Outbound inHand c ∧ c.wantsOut = true) _ steps c ⟨outbound, wants⟩
    intro c step kept
    obtain ⟨outbound, wants⟩ := kept
    exact ⟨outbound.outside wants step, (wantsOut_outside step).trans wants⟩
  exact both.1

theorem Awake.outside {readable writable : Bool} {stage : Stage}
    (awake : Awake readable writable stage c) (wants : c.wantsIn = true) (step : Outside) :
    Awake readable writable stage (c.outside codec step) := by
  cases stage with
  | replying header data rest =>
      obtain ⟨owing, wantsOut, outbound⟩ := awake
      exact ⟨owing, (wantsOut_outside step).trans wantsOut, outbound.outside wantsOut step⟩
  | idle held => exact Inbound.outside awake wants step
  | receiving headerDone header data => exact Inbound.outside awake wants step

theorem Awake.mono {stage : Stage} (awake : Awake false false stage c)
    (readable writable : Bool) : Awake readable writable stage c := by
  have inbound : Inbound false c → Inbound readable c := by
    intro inbound queued
    exact (inbound queued).imp id fun absent => nomatch absent
  cases stage with
  | replying header data rest =>
      obtain ⟨owing, wantsOut, outbound⟩ := awake
      refine ⟨owing, wantsOut, ?_, outbound.remembered⟩
      intro room
      exact (outbound.noticed room).imp id fun absent => nomatch absent
  | idle held => exact inbound awake
  | receiving headerDone header data => exact inbound awake

theorem Inbound.register (inbound : Inbound inHand c) (event : Event) :
    Inbound inHand (c.register event) := by
  intro queued
  simp only [Connection.register, Bool.or_eq_true]
  exact (inbound queued).imp Or.inl id

theorem outbound_register (remembered : c.room = false → c.noSpace = true) {event : Event}
    (wants : event.events.epollout = true) : Outbound false (c.register event) := by
  refine ⟨?_, remembered⟩
  intro room
  refine Or.inl ?_
  change c.room = true at room
  simp [Connection.register, ready, wantsOut, wants, room]

end Awake

/-! ## What the handlers leave behind -/

section Handlers

variable {p : Session} {c : Connection}

structure Registered (this : Token) (p : Session) (c : Connection) : Prop where
  event : c.history.registered = some (registration this p.interest)
  readable : p.interest.readable = true

theorem Registered.wantsIn (registered : Registered this p c) : c.wantsIn = true := by
  unfold Connection.wantsIn
  rw [registered.event]
  simp [registered.readable]

theorem Registered.wantsOut (registered : Registered this p c)
    (writable : p.interest.isWritable = true) : c.wantsOut = true := by
  unfold Connection.wantsOut
  rw [registered.event]
  exact writable

theorem reregister_register (fd : RawFd) (this : Token) (interest : Interest) {c : Connection}
    {event : Event} (registered : c.history.registered = some event) :
    reregister (kernel codec true).toKernel fd this interest c =
      .ok (c.register (registration this interest)) := by
  have moved : (kernel codec true).epollCtlMod fd (registration this interest) c =
      some (c.register (registration this interest)) := if_pos (by rw [registered]; rfl)
  rw [reregister, moved]

/-- A reply that stops short has seen the send queue full; one that ends has
seen an empty receive queue. -/
theorem sendReply_awake (repeats : Repeats codec message) (choices : List Choice) :
    ∀ (p : Session) (c : Connection) (header data rest : Bytes),
      p.stage = .replying header data rest → rest ≠ [] → Owes codec message c rest →
      Conserves codec (List.replicate n message) c → Registered this p c →
      Sat (Session.sendReply (kernel codec true).toKernel fd this choices (p, c)) (· = .pending)
        (fun after => Awake false false after.1.stage after.2) := by
  induction choices with
  | nil =>
      intro p c header data rest stage _ _ _ _
      rw [Session.sendReply]
      simp only [stage]
      rfl
  | cons choice choices ih =>
      intro p c header data rest stage owing owes conserves registered
      have queueEq := owes.receiveQueue_eq conserves owing
      have conserves' := (keeps_conserves true this fd (repeats.fits_replicate n)).send choice rest
        p.interest c conserves
      change Conserves codec _ (send codec choice fd rest c).2 at conserves'
      rw [Session.sendReply]
      simp only [stage]
      rcases send_cases codec choice fd rest c with blocked | ⟨nbytes, fits, moves, moved⟩
      · have blocked' : (kernel codec true).send choice fd rest c = _ := blocked
        rw [blocked']
        let full : Connection := { c with room := false, noSpace := true }
        have fullOutbound : Outbound false full := ⟨by simp [full], fun _ => rfl⟩
        cases writable : p.interest.isWritable with
        | true =>
            have wants : full.wantsOut = true := registered.wantsOut writable
            change Awake false false p.stage (full.outsides codec choice.later)
            rw [stage]
            exact ⟨owing, (wantsOut_outsides _).trans wants, fullOutbound.outsides wants _⟩
        | false =>
            have registered' : (full.outsides codec choice.later).history.registered =
                some (registration this p.interest) := by
              rw [outsides_history]
              exact registered.event
            have remembered : (full.outsides codec choice.later).room = false →
                (full.outsides codec choice.later).noSpace = true :=
              outsides_rule (fun c => c.room = false → c.noSpace = true)
                (fun _ step remembered => remembered_outside remembered step) choice.later full
                fun _ => rfl
            simp only [lastErrorWouldBlock, Bool.not_true, Bool.false_eq_true, if_false,
              Bool.not_false, if_true]
            rw [reregister_register fd this _ registered']
            have wants : (registration this (p.interest.add Interest.WRITABLE)).events.epollout =
                true := by
              simp
            exact ⟨owing, wants, outbound_register remembered wants⟩
      · have moved' : (kernel codec true).send choice fd rest c = _ := moved
        rw [moved] at conserves'
        rw [moved']
        simp only
        let sent : Connection :=
          { c with
            sendQueue := c.sendQueue ++ rest.take nbytes
            history := c.history.sent (rest.take nbytes)
            room := choice.room }
        have registered' : (sent.outsides codec choice.later).history.registered =
            some (registration this p.interest) := by
          rw [outsides_history]
          exact registered.event
        by_cases complete : nbytes = rest.length
        · -- nothing had been queued when the last byte was sent
          have inbound : Inbound false (sent.outsides codec choice.later) := by
            have before : Inbound false sent := fun queued => absurd queueEq queued
            exact before.outsides registered.wantsIn _
          subst complete
          simp only [if_true]
          cases writable : p.interest.isWritable with
          | false => exact inbound
          | true =>
              simp only [if_true]
              rw [reregister_register fd this _ registered']
              exact inbound.register _
        · simp only [complete, if_false]
          apply ih _ _ header data (rest.drop nbytes) rfl
          · intro nothing
            have := List.drop_eq_nil_iff.mp nothing
            omega
          · obtain ⟨served, consumedLen, writtenLen⟩ := owes
            refine ⟨served, ?_, ?_⟩
            · rw [outsides_history]
              exact consumedLen
            · rw [outsides_history]
              simp only [History.sent, List.length_append, List.length_take, List.length_drop]
              omega
          · exact conserves'
          · exact ⟨registered', registered.readable⟩

/-- A part that is not complete after its `recv` has emptied the queue. -/
theorem fill_awake (codec : HeaderCodec) (fd : RawFd) (choice : Choice) (limit : Nat)
    (got : Bytes) (c : Connection) (wants : c.wantsIn = true) (gotLe : got.length ≤ limit) :
    Sat (Session.fill (kernel codec true).toKernel fd choice limit got c) (fun _ => False)
      (fun result => (∃ all, result.1 = some all ∧ all.length = limit) ∨ Inbound false result.2) := by
  rw [Session.fill]
  rcases recv_cases codec true choice fd (limit - got.length) c with
    ⟨blocked, drained⟩ | ⟨nbytes, _, fits, _, most, moved⟩
  · have blocked' : (kernel codec true).recv choice fd (limit - got.length) c = _ := blocked
    rw [blocked']
    simp only [lastErrorWouldBlock, if_true]
    have before : Inbound false c := fun queued => absurd (drained rfl) queued
    exact Or.inr (before.outsides wants _)
  · have moved' : (kernel codec true).recv choice fd (limit - got.length) c = _ := moved
    rw [moved']
    by_cases whole : nbytes = limit - got.length
    · refine Or.inl ⟨got ++ c.receiveQueue.take nbytes, rfl, ?_⟩
      rw [List.length_append, List.length_take]
      omega
    · have before : Inbound false (c.taken nbytes) := by
        intro queued
        have empty : c.receiveQueue.drop nbytes = [] := by
          apply List.drop_eq_nil_of_le
          have := most rfl
          omega
        exact absurd empty queued
      exact Or.inr (before.outsides wants _)

theorem fill_conserves (repeats : Repeats codec message) (choice : Choice) (limit : Nat)
    (got : Bytes) (c : Connection) (conserves : Conserves codec (List.replicate n message) c) :
    Sat (Session.fill (kernel codec true).toKernel fd choice limit got c) (fun _ => True)
      (fun result => Conserves codec (List.replicate n message) result.2) := by
  have kept := (keeps_conserves true 0 fd (repeats.fits_replicate n)).recv choice
    (limit - got.length) Interest.READABLE c conserves
  rw [Session.fill]
  cases received : (kernel codec true).recv choice fd (limit - got.length) c with
  | mk result c' =>
      rw [received] at kept
      cases result with
      | error errno =>
          simp only
          split
          · exact kept
          · trivial
      | count bytes => exact kept

theorem Registered.of_serves (serves : Serves (wire codec true) this p c)
    (readable : p.interest.readable = true) : Registered this p c :=
  ⟨serves.registered, readable⟩

/-- A complete frame is answered, with nothing behind it in the queue. -/
theorem answer_awake (repeats : Repeats codec message) (choices : List Choice)
    {header data : Bytes} (answering : Answering (wire codec true) this p c header data header)
    (conserves : Conserves codec (List.replicate n message) c)
    (readable : p.interest.readable = true) :
    Sat (Session.sendReply (kernel codec true).toKernel fd this choices (p, c)) (· = .pending)
      (fun after => Awake false false after.1.stage after.2) := by
  obtain ⟨owes, full⟩ := owes_of_answering repeats conserves answering
  have some : header ≠ [] := by
    intro empty
    rw [empty] at full
    exact repeats.header (List.eq_nil_of_length_eq_zero full.symm)
  exact sendReply_awake repeats choices p c header data header answering.stage some owes conserves
    (Registered.of_serves answering.serves readable)

theorem readData_awake (repeats : Repeats codec message) (answers : Answers Choice)
    (limits : Nat × Nat) (headerDone : Bool) (header data : Bytes) (p : Session) (c : Connection)
    (serves : Serves (wire codec true) this (p.collecting headerDone header data) c)
    (conserves : Conserves codec (List.replicate n message) c)
    (readable : p.interest.readable = true) (limitsEq : p.limits = some limits)
    (full : header.length = limits.1) (fits : data.length ≤ limits.2) :
    Sat (Session.readData (kernel codec true).toKernel fd this answers limits headerDone header data
      p c) (· = .pending) (fun after => Awake false false after.1.stage after.2) := by
  rw [Session.readData]
  by_cases zero : limits.2 = 0
  · simp only [zero, if_true]
    exact answer_awake repeats answers.sends
      (serves.answering (wire codec true) limitsEq full (by omega)) conserves readable
  · simp only [zero, if_false]
    have wants := (Registered.of_serves serves readable).wantsIn
    have filled := ((fill_spec (wire codec true) answers.data limits.2 data c fits).and
      (fill_conserves repeats answers.data limits.2 data c conserves)).and
      (fill_awake codec fd answers.data limits.2 data c wants fits)
    apply (filled.mono (fun _ absent => absent.2.elim) fun _ => id).bind
    intro result post
    obtain ⟨received, c'⟩ := result
    obtain ⟨⟨⟨bytes, moved, _, result⟩, conserves'⟩, awake⟩ := post
    have advanced := serves.dataReceived (wire codec true) moved
    cases received with
    | none =>
        rcases awake with ⟨all, absent, _⟩ | inbound
        · cases absent
        · exact inbound
    | some got =>
        obtain rfl : got = data ++ bytes := result
        by_cases complete : (data ++ bytes).length = limits.2
        · simp only [complete, if_true]
          exact answer_awake repeats answers.sends
            (advanced.answering (wire codec true) limitsEq full complete) conserves' readable
        · simp only [complete, if_false]
          rcases awake with ⟨all, same, whole⟩ | inbound
          · cases same
            exact absurd whole complete
          · exact inbound

theorem readHeader_awake (repeats : Repeats codec message) (answers : Answers Choice)
    (limits : Nat × Nat) (header data : Bytes) (p : Session) (c : Connection)
    (serves : Serves (wire codec true) this (p.collecting false header data) c)
    (conserves : Conserves codec (List.replicate n message) c)
    (readable : p.interest.readable = true) (limitsEq : p.limits = some limits)
    (phase : header.length ≤ limits.1 ∧ data = [] ∨
      header.length = limits.1 ∧ data.length ≤ limits.2) :
    Sat (Session.readHeader (kernel codec true).toKernel fd this answers limits header data p c)
      (· = .pending) (fun after => Awake false false after.1.stage after.2) := by
  rw [Session.readHeader]
  have fits : header.length ≤ limits.1 := by omega
  have dataFits : data.length ≤ limits.2 := by
    rcases phase with ⟨_, rfl⟩ | ⟨_, dataLe⟩
    · exact Nat.zero_le _
    · exact dataLe
  have wants := (Registered.of_serves serves readable).wantsIn
  have filled := ((fill_spec (wire codec true) answers.header limits.1 header c fits).and
    (fill_conserves repeats answers.header limits.1 header c conserves)).and
    (fill_awake codec fd answers.header limits.1 header c wants fits)
  apply (filled.mono (fun _ absent => absent.2.elim) fun _ => id).bind
  intro result post
  obtain ⟨received, c'⟩ := result
  obtain ⟨⟨⟨bytes, moved, fits', result⟩, conserves'⟩, awake⟩ := post
  cases received with
  | none =>
      obtain rfl : bytes = [] := result
      have advanced : Serves (wire codec true) this (p.collecting false header data) c' := by
        simpa using serves.dataReceived (wire codec true) moved
      by_cases full : header.length = limits.1
      · simp only [full, if_true]
        exact readData_awake repeats answers limits false header data p c' advanced conserves'
          readable limitsEq full dataFits
      · simp only [full, if_false]
        rcases awake with ⟨all, absent, _⟩ | inbound
        · cases absent
        · exact inbound
  | some got =>
      obtain rfl : got = header ++ bytes := result
      have advanced := serves.headerFilled (wire codec true) moved phase fits'
      by_cases full : (header ++ bytes).length = limits.1
      · simp only [full, if_true]
        exact readData_awake repeats answers limits true _ data p c' (advanced true) conserves'
          readable limitsEq full dataFits
      · simp only [full, if_false]
        rcases awake with ⟨all, same, whole⟩ | inbound
        · cases same
          exact absurd whole full
        · exact inbound

/-- After `OnRecvReady` an event is queued for whatever has arrived meanwhile,
whether or not one was there before; a queued reply is left alone. -/
theorem session_onRecvReady_awake (repeats : Repeats codec message) (answers : Answers Choice)
    (stale : UInt8) (writable : Bool) (p : Session) (c : Connection)
    (settled : Settled (wire codec true) this (p, c)) (sound : p.Sound)
    (conserves : Conserves codec (List.replicate n message) c)
    (awake : Awake true writable p.stage c) :
    Sat (Session.onRecvReady (kernel codec true).toKernel fd this stale answers (p, c))
      (· = .pending) (fun after => Awake false writable after.1.stage after.2) := by
  obtain ⟨serves, armed⟩ := settled
  obtain ⟨limits, stage, interest⟩ := p
  have readable : interest.readable = true := sound.1
  have strengthen : ∀ {result : Except Stop (Session × Connection)},
      Sat result (· = .pending) (fun after => Awake false false after.1.stage after.2) →
      Sat result (· = .pending) (fun after => Awake false writable after.1.stage after.2) :=
    fun holds => holds.mono (fun _ => id) fun _ awake => awake.mono false writable
  cases stage with
  | idle held =>
      obtain ⟨registered, earlier, torn, consumedEq, tornShort, tornDrained, served, last⟩ := serves
      obtain rfl : torn = [] := by
        by_contra some
        exact tornDrained some
      rw [List.append_nil] at consumedEq
      rw [Session.onRecvReady]
      have received := (recvAll_spec (wire codec true) 8 answers.recvs 0 (List.replicate 8 stale) c
        (by omega) (by simp)).and
        (recvAll_kept (keeps_conserves true 0 fd (repeats.fits_replicate n)) interest 8
          answers.recvs 0 (List.replicate 8 stale) c conserves)
      apply (received.mono (fun _ stopped => stopped.1) fun _ => id).bind
      intro result post
      obtain ⟨count, buf, c'⟩ := result
      obtain ⟨⟨bytes, moved, countEq, countLe, lengthEq, taken, short, _⟩, conserves'⟩ := post
      have enough : ¬count < 8 := fun few => short few
      simp only [enough, if_false]
      simp only [Nat.zero_add, List.take_zero, List.nil_append] at countEq countLe lengthEq taken
      obtain rfl : bytes = buf := by
        rw [← taken, List.take_of_length_le (by omega)]
      apply strengthen
      exact readHeader_awake repeats answers _ [] [] _ c'
        (prefixReceived (wire codec true) registered (consumedEq ▸ served) moved lengthEq)
        conserves' readable rfl (Or.inl ⟨Nat.zero_le _, rfl⟩)
  | receiving headerDone header data =>
      cases limits with
      | none => exact False.elim sound.2
      | some limits =>
          obtain ⟨phase, done⟩ := sound.2
          apply strengthen
          cases headerDone with
          | false =>
              exact readHeader_awake repeats answers limits header data _ c serves conserves readable
                rfl (phase.imp (fun partly => ⟨by omega, partly.2⟩) fun ready => ⟨ready.1, by omega⟩)
          | true =>
              have full := done rfl
              exact readData_awake repeats answers limits true header data _ c serves conserves
                readable rfl full (by omega)
  | replying header data rest =>
      rw [Session.onRecvReady]
      exact awake

/-- `OnSendReady` on a session: a queued reply goes out or is announced. -/
theorem session_onSendReady_awake (repeats : Repeats codec message) (choices : List Choice)
    (writable : Bool) (p : Session) (c : Connection)
    (settled : Settled (wire codec true) this (p, c)) (sound : p.Sound)
    (conserves : Conserves codec (List.replicate n message) c)
    (awake : Awake false writable p.stage c) :
    Sat (Session.sendReply (kernel codec true).toKernel fd this choices (p, c)) (· = .pending)
      (fun after => Awake false false after.1.stage after.2) := by
  obtain ⟨limits, stage, interest⟩ := p
  cases stage with
  | idle held =>
      rw [Session.sendReply]
      exact awake
  | receiving headerDone header data =>
      rw [Session.sendReply]
      exact awake
  | replying header data rest =>
      cases limits with
      | none => exact False.elim sound.2
      | some limits =>
          have answering : Answering (wire codec true) this _ c header data rest :=
            ⟨rfl, ⟨limits.1, limits.2, rfl, sound.2.1, sound.2.2.1⟩, settled.1⟩
          exact sendReply_awake repeats choices _ c header data rest rfl awake.1
            (owes_of_answering repeats conserves answering).1 conserves
            (Registered.of_serves settled.1 sound.1)

end Handlers

end Connection

end RpcBench.Socket
