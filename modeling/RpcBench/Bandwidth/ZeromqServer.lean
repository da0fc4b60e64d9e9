import RpcBench.Bandwidth.HeaderWire
import RpcBench.Bandwidth.Zeromq
import RpcBench.Lib.Run

/-! # `RunZero` and its REP socket

The two loops of `RunZero` call by call.  A REP socket hands out the parts of a
request, takes one reply, and rejects a send at any other time; a multipart
message arrives whole.  A `zmq_msg_recv` that fails may or may not have emptied
the message. -/
set_option autoImplicit false

namespace RpcBench.Bandwidth

open ByteList Machine

namespace Zeromq

structure Request where
  first : Bytes
  rest : List Bytes
  deriving DecidableEq, Repr

def Request.parts (request : Request) : List Bytes := request.first :: request.rest

inductive Phase where
  | idle
  | within (request : Request) (next : Bytes) (rest : List Bytes)
  | answering
  deriving DecidableEq, Repr

structure Responder where
  waiting : List Request
  phase : Phase
  received : List Request
  replies : List Bytes
  deriving DecidableEq, Repr

namespace Responder

def progress (request : Request) (left : List Bytes) (responder : Responder) : Responder :=
  match left with
  | [] => { responder with phase := .answering, received := responder.received ++ [request] }
  | next :: rest => { responder with phase := .within request next rest }

def recv (responder : Responder) : Option (Msg × Responder) :=
  match responder.phase, responder.waiting with
  | .idle, [] => none
  | .idle, request :: waiting =>
    some ({ data := request.first, more := !request.rest.isEmpty },
      { responder with waiting }.progress request request.rest)
  | .within request next rest, _ =>
    some ({ data := next, more := !rest.isEmpty }, responder.progress request rest)
  | .answering, _ => none

/-- `EFSM` unless a request is to be answered. -/
def send (reply : Bytes) (responder : Responder) : Option Responder :=
  match responder.phase with
  | .answering => some { responder with phase := .idle, replies := responder.replies ++ [reply] }
  | _ => none

end Responder

/-- `pb_header.ByteSizeLong()` of a header that nothing has been written to. -/
def headerSize (codec : HeaderCodec) : Nat := (codec.serialize {}).length

inductive Place where
  | receive
  | reply
  deriving DecidableEq, Repr

structure RunZero where
  place : Place
  zmsg : Msg
  responder : Responder
  server : Server
  deriving DecidableEq, Repr

/-- A request reaches the socket, or the call that the server is in succeeds or
returns -1. -/
inductive Event where
  | arrive (request : Request)
  | done
  | failed (emptied : Bool)
  deriving DecidableEq, Repr

namespace RunZero

/-- `zmq_msg_init(&zmsg)`. -/
def emptyMsg : Msg := { data := [], more := false }

def start : RunZero :=
  { place := .receive, zmsg := emptyMsg
    responder := { waiting := [], phase := .idle, received := [], replies := [] }
    server := { parts := [], added := 0 } }

def afterRecv (bytesRecv : Int) (state : RunZero) : RunZero :=
  let state :=
    if bytesRecv > 0 then
      { state with
        server := { state.server with added := state.server.added + bytesRecv.toNat } }
    else state
  if state.zmsg.more then state else { state with place := .reply }

def recvDone (state : RunZero) : RunZero :=
  match state.responder.recv with
  | none => state
  | some (zmsg, responder) =>
    afterRecv (result zmsg.data)
      { state with
        zmsg, responder
        server := { state.server with parts := state.server.parts ++ [zmsg.data] } }

def recvFailed (emptied : Bool) (state : RunZero) : RunZero :=
  afterRecv (-1) { state with zmsg := if emptied then emptyMsg else state.zmsg }

/-- The reply uses the received data.  A send that the socket rejects fails. -/
def sendDone (codec : HeaderCodec) (state : RunZero) : RunZero :=
  let reply := state.zmsg.data.take (headerSize codec)
  match state.responder.send reply with
  | none => state
  | some responder =>
    if result reply = toInt (headerSize codec) then
      { state with place := .receive, zmsg := emptyMsg, responder }
    else { state with responder }

def step (codec : HeaderCodec) (state : RunZero) : Event → RunZero
  | .arrive request =>
    { state with
      responder := { state.responder with waiting := state.responder.waiting ++ [request] } }
  | .done =>
    match state.place with
    | .receive => state.recvDone
    | .reply => state.sendDone codec
  | .failed emptied =>
    match state.place with
    | .receive => state.recvFailed emptied
    | .reply => state

def Stuck (codec : HeaderCodec) (state : RunZero) : Prop :=
  state.place = .reply ∧
    ∀ events, (run (step codec) state events).responder.replies = state.responder.replies

/-- Request and reply are in step: a reply is attempted only for a whole request
that the server has received and not answered, each request is answered once, and
no send is retried for nothing. -/
structure InStep (codec : HeaderCodec) (state : RunZero) : Prop where
  attempted : state.place = .reply → state.responder.phase = .answering ∧
    state.server.parts = state.responder.received.flatMap Request.parts
  answered : state.responder.received.length =
    state.responder.replies.length + if state.place = .reply then 1 else 0
  accepted : ¬state.Stuck codec

/-- If the call is a `zmq_msg_recv` that fails, then it fails within a request and
leaves the part before in the message. -/
def Survives (state : RunZero) (event : Event) : Prop :=
  ∀ emptied, event = .failed emptied → state.place = .receive →
    state.zmsg.more = true ∧ emptied = false

def Alternates (state : RunZero) : Prop :=
  match state.place, state.responder.phase with
  | .receive, .idle =>
    state.zmsg.more = false ∧ state.responder.received.length = state.responder.replies.length ∧
      state.server.parts = state.responder.received.flatMap Request.parts
  | .receive, .within request next rest =>
    state.zmsg.more = true ∧ state.responder.received.length = state.responder.replies.length ∧
      ∃ taken, request.parts = taken ++ next :: rest ∧
        state.server.parts = state.responder.received.flatMap Request.parts ++ taken
  | .reply, .answering =>
    state.responder.received.length = state.responder.replies.length + 1 ∧
      state.server.parts = state.responder.received.flatMap Request.parts
  | _, _ => False

section Run

variable {codec : HeaderCodec} {state : RunZero}

theorem afterRecv_eq (bytesRecv : Int) (state : RunZero) :
    afterRecv bytesRecv state =
      { state with
        place := if state.zmsg.more then state.place else .reply
        server :=
          { state.server with added := state.server.added + bytesRecv.toNat } } := by
  have nothing : ¬bytesRecv > 0 → bytesRecv.toNat = 0 := by omega
  unfold afterRecv
  by_cases some_bytes : bytesRecv > 0
  · rw [if_pos some_bytes]
    simp only
    by_cases more : state.zmsg.more = true
    · rw [if_pos more, if_pos more]
    · rw [if_neg more, if_neg more]
  · rw [if_neg some_bytes, nothing some_bytes]
    simp only
    by_cases more : state.zmsg.more = true
    · rw [if_pos more, if_pos more]
      rfl
    · rw [if_neg more, if_neg more]
      rfl

/-- A send to a socket that waits for a request changes nothing, and neither does
anything else. -/
theorem step_rejected (place : state.place = .reply) (phase : state.responder.phase ≠ .answering)
    (event : Event) :
    (step codec state event).place = .reply ∧
      (step codec state event).responder.phase ≠ .answering ∧
      (step codec state event).responder.replies = state.responder.replies := by
  cases event with
  | arrive request => exact ⟨place, phase, rfl⟩
  | failed emptied =>
      have same : step codec state (.failed emptied) = state := by simp only [step, place]
      rw [same]
      exact ⟨place, phase, rfl⟩
  | done =>
      have rejected : state.responder.send (state.zmsg.data.take (headerSize codec)) = none := by
        unfold Responder.send
        cases now : state.responder.phase with
        | idle => rfl
        | within request next rest => rfl
        | answering => exact absurd now phase
      have same : step codec state .done = state := by simp only [step, place, sendDone, rejected]
      rw [same]
      exact ⟨place, phase, rfl⟩

theorem stuck_of_rejected (place : state.place = .reply)
    (phase : state.responder.phase ≠ .answering) : state.Stuck codec := by
  refine ⟨place, ?_⟩
  intro events
  have kept : (run (step codec) state events).place = .reply ∧
      (run (step codec) state events).responder.phase ≠ .answering ∧
        (run (step codec) state events).responder.replies = state.responder.replies := by
    apply run_invariant (step codec) fun after =>
      after.place = .reply ∧ after.responder.phase ≠ .answering ∧
        after.responder.replies = state.responder.replies
    · intro after event kept
      obtain ⟨place', phase', replies⟩ := step_rejected kept.1 kept.2.1 event
      exact ⟨place', phase', replies.trans kept.2.2⟩
    · exact ⟨place, phase, rfl⟩
  exact kept.2.2

theorem sendDone_answering (defaultEmpty : codec.serialize {} = [])
    (phase : state.responder.phase = .answering) :
    state.sendDone codec =
      { state with
        place := .receive
        zmsg := emptyMsg
        responder :=
          { state.responder with phase := .idle, replies := state.responder.replies ++ [[]] } } := by
  have zero : headerSize codec = 0 := by rw [headerSize, defaultEmpty, List.length_nil]
  unfold sendDone Responder.send
  rw [zero, List.take_zero, phase]
  rfl

theorem inStep_receiving (place : state.place = .receive)
    (answered : state.responder.received.length = state.responder.replies.length) :
    InStep codec state := by
  have not_replying : state.place ≠ .reply := by
    rw [place]
    exact Place.noConfusion
  constructor
  case attempted =>
    intro replying
    exact absurd replying not_replying
  case answered =>
    rw [if_neg not_replying]
    exact answered
  case accepted =>
    intro stuck
    exact absurd stuck.1 not_replying

theorem Alternates.inStep (defaultEmpty : codec.serialize {} = [])
    (alternates : Alternates state) : InStep codec state := by
  unfold Alternates at alternates
  split at alternates
  · next place _ => exact inStep_receiving place alternates.2.1
  · next place _ => exact inStep_receiving place alternates.2.1
  · next place phase =>
      constructor
      case attempted =>
        intro _
        exact ⟨phase, alternates.2⟩
      case answered =>
        rw [if_pos place]
        exact alternates.1
      case accepted =>
        intro stuck
        have sent := stuck.2 [.done]
        simp only [run_cons, run_nil, step, place, sendDone_answering defaultEmpty phase] at sent
        exact absurd (congrArg List.length sent) (by simp)
  · exact absurd alternates id

/-- A part moves the two on together: to the next part, or to the reply. -/
theorem alternates_progress {request : Request} {part : Bytes} {taken left : List Bytes}
    (responder : Responder) (server : Server)
    (answered : responder.received.length = responder.replies.length)
    (split : request.parts = taken ++ part :: left)
    (parts : server.parts = responder.received.flatMap Request.parts ++ taken) :
    Alternates
      (afterRecv (result part)
        { place := .receive
          zmsg := { data := part, more := !left.isEmpty }
          responder := responder.progress request left
          server := { server with parts := server.parts ++ [part] } }) := by
  rw [afterRecv_eq]
  cases left with
  | nil =>
      refine ⟨?_, ?_⟩
      · exact (List.length_append).trans (congrArg (· + 1) answered)
      · change server.parts ++ [part] = (responder.received ++ [request]).flatMap Request.parts
        rw [parts, List.append_assoc, List.flatMap_append, List.flatMap_singleton, split]
  | cons next rest =>
      refine ⟨rfl, answered, taken ++ [part], ?_, ?_⟩
      · rw [split, List.append_assoc]
        rfl
      · change server.parts ++ [part] = responder.received.flatMap Request.parts ++ (taken ++ [part])
        rw [parts, List.append_assoc]

theorem Alternates.arrive (alternates : Alternates state) (request : Request) :
    Alternates (step codec state (.arrive request)) := alternates

theorem Alternates.recvDone (alternates : Alternates state) (place : state.place = .receive) :
    Alternates state.recvDone := by
  obtain ⟨at_place, zmsg, ⟨waiting, phase, received, replies⟩, server⟩ := state
  cases place
  cases phase with
  | idle =>
      cases waiting with
      | nil => exact alternates
      | cons request waiting =>
          have whole : request.parts = [] ++ request.first :: request.rest := rfl
          exact alternates_progress { waiting, phase := .idle, received, replies } server
            alternates.2.1 whole (alternates.2.2.trans (List.append_nil _).symm)
  | within request next rest =>
      obtain ⟨_, answered, taken, split, parts⟩ := alternates
      exact alternates_progress
        { waiting, phase := .within request next rest, received, replies } server answered split
        parts
  | answering => exact absurd alternates id

theorem Alternates.sendDone (defaultEmpty : codec.serialize {} = [])
    (alternates : Alternates state) (place : state.place = .reply) :
    Alternates (state.sendDone codec) := by
  obtain ⟨at_place, zmsg, ⟨waiting, phase, received, replies⟩, server⟩ := state
  cases place
  cases phase with
  | idle => exact absurd alternates id
  | within request next rest => exact absurd alternates id
  | answering =>
      rw [sendDone_answering defaultEmpty rfl]
      have longer : (replies ++ [[]]).length = replies.length + 1 := List.length_append
      exact ⟨rfl, alternates.1.trans longer.symm, alternates.2⟩

theorem Alternates.recvFailed (alternates : Alternates state) (place : state.place = .receive)
    (emptied : Bool) :
    (state.zmsg.more = true ∧ emptied = false → Alternates (state.recvFailed emptied)) ∧
      (¬(state.zmsg.more = true ∧ emptied = false) →
        (state.recvFailed emptied).place = .reply ∧
          (state.recvFailed emptied).responder.phase ≠ .answering) := by
  unfold RunZero.recvFailed
  rw [afterRecv_eq]
  constructor
  · intro survives
    simp only [survives.1, survives.2, Bool.false_eq_true, if_false, if_true]
    exact alternates
  · intro empty
    have last : (if emptied then emptyMsg else state.zmsg).more = false := by
      cases emptied with
      | true => rfl
      | false =>
          cases more : state.zmsg.more with
          | true => exact absurd ⟨more, rfl⟩ empty
          | false => exact more
    constructor
    · simp only [last, Bool.false_eq_true, if_false]
    · intro answering
      simp only at answering
      unfold Alternates at alternates
      rw [place, answering] at alternates
      exact alternates

theorem Alternates.step (defaultEmpty : codec.serialize {} = []) (alternates : Alternates state)
    (event : Event) :
    (Survives state event → Alternates (step codec state event)) ∧
      (¬Survives state event → (RunZero.step codec state event).Stuck codec) := by
  cases event with
  | arrive request =>
      refine ⟨fun _ => alternates.arrive request, ?_⟩
      intro lost
      exact absurd (fun emptied same => Event.noConfusion same) lost
  | done =>
      constructor
      · intro _
        cases place : state.place with
        | receive =>
            simp only [RunZero.step, place]
            exact alternates.recvDone place
        | reply =>
            simp only [RunZero.step, place]
            exact alternates.sendDone defaultEmpty place
      · intro lost
        exact absurd (fun emptied same => Event.noConfusion same) lost
  | failed emptied =>
      cases place : state.place with
      | reply =>
          simp only [RunZero.step, place]
          refine ⟨fun _ => alternates, ?_⟩
          intro lost
          exact absurd (fun _ _ receiving => absurd (place.symm.trans receiving) Place.noConfusion)
            lost
      | receive =>
          obtain ⟨kept, rejected⟩ := alternates.recvFailed place emptied
          simp only [RunZero.step, place]
          constructor
          · intro survives
            exact kept (survives emptied rfl place)
          · intro lost
            have empty : ¬(state.zmsg.more = true ∧ emptied = false) := by
              intro whole
              apply lost
              intro other same _
              cases same
              exact whole
            obtain ⟨replying, phase⟩ := rejected empty
            exact stuck_of_rejected replying phase

theorem alternates_start : Alternates start := ⟨rfl, rfl, rfl⟩

theorem alternates_run (defaultEmpty : codec.serialize {} = []) (events : List Event)
    (state : RunZero) (alternates : Alternates state)
    (survives : Along (step codec) Survives state events) :
    Alternates (run (step codec) state events) := by
  apply run_invariant_along (step codec) Survives Alternates
  · intro state event alternates survives
    exact (alternates.step defaultEmpty event).1 survives
  · exact alternates
  · exact survives

/-- A run that is in step from the beginning to the end has survived each of its
calls. -/
theorem survives_of_inStep (defaultEmpty : codec.serialize {} = []) (events : List Event) :
    ∀ state, Alternates state →
      (∀ earlier later, events = earlier ++ later →
        InStep codec (run (step codec) state earlier)) →
      Along (step codec) Survives state events := by
  induction events with
  | nil =>
      intro state _ _
      exact trivial
  | cons event events ih =>
      intro state alternates inStep
      have survives : Survives state event := by
        by_contra lost
        have stuck := (alternates.step defaultEmpty event).2 lost
        exact (inStep [event] events rfl).accepted stuck
      refine ⟨survives, ?_⟩
      apply ih _ ((alternates.step defaultEmpty event).1 survives)
      intro earlier later split
      exact inStep (event :: earlier) later (congrArg (event :: ·) split)

end Run

/-! ## A whole turn -/

section Turn

variable {codec : HeaderCodec} {request : Request} {before base : Responder}
  {server server' : Server}

def event : Outcome → Event
  | .done => .done
  | .failed => .failed false

def Hands (request : Request) (incoming : List Bytes) (before base : Responder) : Prop :=
  ∃ part left, incoming = part :: left ∧
    before.recv = some ({ data := part, more := !left.isEmpty }, base.progress request left)

theorem hands_progress (request : Request) (next : Bytes) (rest : List Bytes) (base : Responder) :
    Hands request (next :: rest) (base.progress request (next :: rest)) base := by
  refine ⟨next, rest, rfl, ?_⟩
  cases rest with
  | nil => rfl
  | cons part rest => rfl

theorem run_receiveParts (outcomes : List Outcome) :
    ∀ (incoming : List Bytes) (zmsg zmsg' : Msg) (before : Responder) (server : Server),
      Hands request incoming before base →
      receiveParts outcomes incoming zmsg server = .ok ([], zmsg', server') →
      ∃ used later, outcomes = used ++ later ∧
        run (step codec) { place := .receive, zmsg, responder := before, server } (used.map event) =
          { place := .reply, zmsg := zmsg', responder := base.progress request []
            server := server' } := by
  induction outcomes with
  | nil =>
      intro incoming zmsg zmsg' before server _ returned
      cases returned
  | cons outcome outcomes ih =>
      intro incoming zmsg zmsg' before server hands returned
      obtain ⟨part, left, rfl, gives⟩ := hands
      cases outcome with
      | failed =>
          rw [receiveParts] at returned
          split at returned
          · next more =>
              obtain ⟨used, later, split, runs⟩ :=
                ih _ zmsg zmsg' before server ⟨part, left, rfl, gives⟩ returned
              refine ⟨.failed :: used, later, congrArg (Outcome.failed :: ·) split, ?_⟩
              have same : step codec { place := .receive, zmsg, responder := before, server }
                  (.failed false) = { place := .receive, zmsg, responder := before, server } := by
                simp only [step, recvFailed, afterRecv_eq, Bool.false_eq_true, if_false, more,
                  if_true]
                rfl
              rw [List.map_cons, run_cons, event, same]
              exact runs
          · cases returned
      | done =>
          rw [receiveParts] at returned
          simp only at returned
          have received : step codec { place := .receive, zmsg, responder := before, server } .done =
              { place := if (!left.isEmpty) = true then .receive else .reply
                zmsg := { data := part, more := !left.isEmpty }
                responder := base.progress request left
                server :=
                  { parts := server.parts ++ [part]
                    added := server.added + (result part).toNat } } := by
            simp only [step, recvDone, gives, afterRecv_eq]
          cases left with
          | nil =>
              cases returned
              exact ⟨[.done], outcomes, rfl, received⟩
          | cons next rest =>
              obtain ⟨used, later, split, runs⟩ :=
                ih (next :: rest) _ zmsg' _ _ (hands_progress request next rest base) returned
              refine ⟨.done :: used, later, congrArg (Outcome.done :: ·) split, ?_⟩
              rw [List.map_cons, run_cons, event, received]
              exact runs

theorem run_sendPart (defaultEmpty : codec.serialize {} = []) (zmsg : Msg)
    (phase : before.phase = .answering) (server : Server) (outcomes : List Outcome) :
    sendPart 0 [] outcomes = .ok () →
    ∃ used later, outcomes = used ++ later ∧
      run (step codec) { place := .reply, zmsg, responder := before, server } (used.map event) =
        { place := .receive, zmsg := emptyMsg
          responder := { before with phase := .idle, replies := before.replies ++ [[]] }
          server } := by
  induction outcomes with
  | nil =>
      intro sent
      cases sent
  | cons outcome outcomes ih =>
      intro sent
      cases outcome with
      | failed =>
          obtain ⟨used, later, split, runs⟩ := ih sent
          exact ⟨.failed :: used, later, congrArg (Outcome.failed :: ·) split, runs⟩
      | done => exact ⟨[.done], outcomes, rfl, sendDone_answering defaultEmpty phase⟩

/-- A turn that `runZero` returns from is a run of calls: the request that was
waiting is received, and the reply is the socket's. -/
theorem run_runZero (defaultEmpty : codec.serialize {} = []) {recvs sends : List Outcome}
    {reply : Bytes} {waiting : List Request}
    (idle : before.phase = .idle) (front : before.waiting = request :: waiting)
    (returned : runZero codec recvs sends request.parts server = .ok (reply, server')) :
    ∃ received sent, (∃ later, recvs = received ++ later) ∧ (∃ later, sends = sent ++ later) ∧
      run (step codec) { place := .receive, zmsg := emptyMsg, responder := before, server }
          ((received ++ sent).map event) =
        { place := .receive, zmsg := emptyMsg
          responder :=
            { waiting, phase := .idle, received := before.received ++ [request]
              replies := before.replies ++ [reply] }
          server := server' } := by
  have hands : Hands request request.parts before { before with waiting } := by
    refine ⟨request.first, request.rest, rfl, ?_⟩
    unfold Responder.recv
    rw [idle, front]
  unfold runZero at returned
  simp only [defaultEmpty, List.length_nil, List.take_zero] at returned
  cases received : receiveParts recvs request.parts { data := [], more := false } server with
  | error stop =>
      rw [received] at returned
      cases returned
  | ok result =>
      obtain ⟨incoming, zmsg, after⟩ := result
      rw [received] at returned
      change (if incoming = [] then _ else _) = Except.ok (reply, server') at returned
      by_cases whole : incoming = []
      · rw [if_pos whole] at returned
        subst whole
        obtain ⟨got, later, recvsEq, receives⟩ :=
          run_receiveParts recvs _ emptyMsg zmsg before server hands received
        cases accepted : sendPart 0 [] sends with
        | error stop =>
            change (sendPart 0 [] sends >>= fun _ => _) = Except.ok (reply, server') at returned
            rw [accepted] at returned
            cases returned
        | ok _ =>
            change (sendPart 0 [] sends >>= fun _ => Except.ok ([], after)) =
              Except.ok (reply, server') at returned
            rw [accepted] at returned
            cases returned
            have due : (({ before with waiting } : Responder).progress request []).phase =
                .answering := rfl
            obtain ⟨gone, rest, sendsEq, answers⟩ :=
              run_sendPart defaultEmpty zmsg due server' sends accepted
            refine ⟨got, gone, ⟨later, recvsEq⟩, ⟨rest, sendsEq⟩, ?_⟩
            rw [List.map_append, run_append, receives]
            exact answers
      · rw [if_neg whole] at returned
        cases returned

end Turn

/-- For every sequence of outcomes and arrivals, the server is in step at each
call if and only if no receive fails with an empty message left. -/
theorem run_zero_in_step_iff (codec : HeaderCodec) (defaultEmpty : codec.serialize {} = [])
    (events : List Event) :
    (∀ earlier later, events = earlier ++ later →
        InStep codec (run (step codec) start earlier)) ↔
      Along (step codec) Survives start events := by
  constructor
  · intro inStep
    exact survives_of_inStep defaultEmpty events start alternates_start inStep
  · intro survives earlier later split
    rw [split] at survives
    have along := along_left (step codec) Survives earlier later start survives
    exact (alternates_run defaultEmpty earlier start alternates_start along).inStep defaultEmpty

def retried : List Event :=
  [.arrive { first := [1], rest := [[2, 3]] }, .done, .failed false, .done, .failed false, .done]

theorem run_zero_in_step_retried :
    InStep wireCodec (run (step wireCodec) start retried) ∧
      (run (step wireCodec) start retried).responder.replies = [[]] := by
  have survives : Along (step wireCodec) Survives start retried := by
    refine ⟨?_, ?_, ?_, ?_, ?_, ?_, trivial⟩
    · intro emptied same
      cases same
    · intro emptied same
      cases same
    · intro emptied same _
      cases same
      decide
    · intro emptied same
      cases same
    · intro emptied same receiving
      exact absurd receiving (by decide)
    · intro emptied same
      cases same
  exact ⟨(run_zero_in_step_iff wireCodec rfl retried).mpr survives retried []
    (List.append_nil _).symm, by decide⟩

/-- The first receive is interrupted. -/
theorem interrupted_receive_stuck :
    ¬∀ events earlier later : List Event,
      events = earlier ++ later → InStep wireCodec (run (step wireCodec) start earlier) := by
  intro always
  have inStep := always [.failed false] [.failed false] [] rfl
  have answering := (inStep.attempted (by decide)).1
  exact absurd answering (by decide)

end RunZero

end Zeromq

end RpcBench.Bandwidth
