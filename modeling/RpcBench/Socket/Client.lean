import RpcBench.Bandwidth.BwApp
import RpcBench.Socket.Kernel

/-! # `SocketBwClientApp`: the other side of the connection

`Client.step` is one turn of the loops in `PushData`: a `Send` of `SendAll`,
a `Recv` of `RecvAll`, or the move to the next part.  A step is granted a
number of bytes; none of them is a would-block, on which both loops try
again. -/
set_option autoImplicit false

namespace RpcBench.Socket

open ByteList Bandwidth

def kDefaultBufferSize : Nat := 4194304

/-- The two lengths that `PushData` writes in front of the header, each
through a `uint32_t*`. -/
def metaBytes (codec : HeaderCodec) (message : BwMessage) : Bytes :=
  toLE 4 (codec.headerBytes message).length ++ toLE 4 message.data.length

def frameBytes (codec : HeaderCodec) (message : BwMessage) : Bytes :=
  metaBytes codec message ++ codec.headerBytes message ++ message.data

inductive Phase where
  /-- before the next call -/
  | ready
  /-- in the two `SendAll`; `buffer` is left of `send_buffer_`, `data` of the
  payload -/
  | sending (message : BwMessage) (buffer data : Bytes)
  /-- in `RecvAll` -/
  | receiving (message : BwMessage) (got : Bytes)
  /-- the header did not fit `send_buffer_` -/
  | overrun
  deriving DecidableEq, Repr

structure Client where
  /-- the messages whose `PushData` has returned -/
  finished : List BwMessage
  phase : Phase
  todo : List BwMessage
  acks : List BwAck
  deriving DecidableEq, Repr

namespace Client

/-- A client after `Init`, about to push `messages` one after another. -/
def init (messages : List BwMessage) : Client :=
  { finished := [], phase := .ready, todo := messages, acks := [] }

/-- One step with up to `count` bytes granted; `incoming` has arrived from the
server.  Returns the client, what it sent, and what is left of `incoming`. -/
def step (codec : HeaderCodec) (count : Nat) (client : Client) (incoming : Bytes) :
    Client × Bytes × Bytes :=
  match client.phase with
  | .ready =>
    match client.todo with
    | [] => (client, [], incoming)
    | message :: todo =>
      let buffer := metaBytes codec message ++ codec.headerBytes message
      if buffer.length ≤ kDefaultBufferSize then
        ({ client with todo, phase := .sending message buffer message.data }, [], incoming)
      else ({ client with todo, phase := .overrun }, [], incoming)
  | .sending message [] [] => ({ client with phase := .receiving message [] }, [], incoming)
  | .sending message [] data =>
    ({ client with phase := .sending message [] (data.drop count) }, data.take count, incoming)
  | .sending message buffer data =>
    ({ client with phase := .sending message (buffer.drop count) data }, buffer.take count,
      incoming)
  | .receiving message got =>
    let headerSize := (codec.headerBytes message).length
    if got.length < headerSize then
      let bytes := incoming.take (min count (headerSize - got.length))
      ({ client with phase := .receiving message (got ++ bytes) }, [],
        incoming.drop (min count (headerSize - got.length)))
    else
      let ack := { header := unpackPbBwHeader (codec.parse got), success := true }
      ({ client with
          finished := client.finished ++ [message]
          phase := .ready
          acks := client.acks ++ [ack] }, [], incoming)
  | .overrun => (client, [], incoming)

/-! ## What a client has pushed, in terms of its position -/

def started (client : Client) : List BwMessage :=
  match client.phase with
  | .sending message _ _ => client.finished ++ [message]
  | .receiving message _ => client.finished ++ [message]
  | _ => client.finished

def unsent (client : Client) : Bytes :=
  match client.phase with
  | .sending _ buffer data => buffer ++ data
  | _ => []

def got (client : Client) : Bytes :=
  match client.phase with
  | .receiving _ got => got
  | _ => []

end Client

/-- All frames of a list of messages, and all the headers that answer them. -/
def frames (codec : HeaderCodec) (messages : List BwMessage) : Bytes :=
  messages.flatMap (frameBytes codec)

def headers (codec : HeaderCodec) (messages : List BwMessage) : Bytes :=
  messages.flatMap codec.headerBytes

section Steps

variable {codec : HeaderCodec} {messages : List BwMessage}

def Fits (codec : HeaderCodec) (messages : List BwMessage) : Prop :=
  ∀ message ∈ messages, (codec.headerBytes message).length + 8 ≤ kDefaultBufferSize

theorem metaBytes_length (codec : HeaderCodec) (message : BwMessage) :
    (metaBytes codec message).length = 8 := by
  simp [metaBytes]

theorem frames_append (codec : HeaderCodec) (first second : List BwMessage) :
    frames codec (first ++ second) = frames codec first ++ frames codec second :=
  List.flatMap_append

theorem headers_append (codec : HeaderCodec) (first second : List BwMessage) :
    headers codec (first ++ second) = headers codec first ++ headers codec second :=
  List.flatMap_append

theorem frames_cons (codec : HeaderCodec) (message : BwMessage) (rest : List BwMessage) :
    frames codec (message :: rest) = frameBytes codec message ++ frames codec rest :=
  List.flatMap_cons

theorem headers_cons (codec : HeaderCodec) (message : BwMessage) (rest : List BwMessage) :
    headers codec (message :: rest) = codec.headerBytes message ++ headers codec rest :=
  List.flatMap_cons

theorem headers_singleton (codec : HeaderCodec) (message : BwMessage) :
    headers codec [message] = codec.headerBytes message := by
  rw [headers_cons]
  simp [headers]

theorem frames_singleton (codec : HeaderCodec) (message : BwMessage) :
    frames codec [message] = frameBytes codec message := by
  rw [frames_cons]
  simp [frames]

/-- What a client in order looks like: it pushes the given messages, has sent
`pushed` and has taken `received` from the server. -/
structure InOrder (codec : HeaderCodec) (messages : List BwMessage) (client : Client)
    (pushed received : Bytes) : Prop where
  messages_eq : client.started ++ client.todo = messages
  running : client.phase ≠ .overrun
  pushed_eq : pushed ++ client.unsent = frames codec client.started
  received_length : received.length =
    (headers codec client.finished).length + client.got.length
  got_le : ∀ message got, client.phase = .receiving message got →
    got.length ≤ (codec.headerBytes message).length

theorem Client.init_inOrder (codec : HeaderCodec) (messages : List BwMessage) :
    InOrder codec messages (Client.init messages) [] [] := by
  constructor <;> simp [Client.init, Client.started, Client.unsent, Client.got, frames, headers]

/-- One step of the client: it stays in order, sends on, and takes bytes from
the front of what has arrived. -/
theorem Client.step_spec {client : Client} {pushed received : Bytes} (count : Nat)
    (incoming : Bytes) (fits : Fits codec messages)
    (inOrder : InOrder codec messages client pushed received) :
    ∃ taken, incoming = taken ++ (client.step codec count incoming).2.2 ∧
      InOrder codec messages (client.step codec count incoming).1
        (pushed ++ (client.step codec count incoming).2.1) (received ++ taken) := by
  obtain ⟨messagesEq, running, pushedEq, receivedLength, gotLe⟩ := inOrder
  obtain ⟨finished, phase, todo, acks⟩ := client
  cases phase with
  | ready =>
      cases todo with
      | nil =>
          refine ⟨[], rfl, ?_⟩
          simp only [Client.step, List.append_nil]
          exact ⟨messagesEq, running, pushedEq, receivedLength, gotLe⟩
      | cons message todo =>
          have small : (metaBytes codec message ++ codec.headerBytes message).length ≤
              kDefaultBufferSize := by
            have member : message ∈ messages := by
              rw [← messagesEq]
              simp [Client.started]
            have := fits message member
            rw [List.length_append, metaBytes_length]
            omega
          refine ⟨[], ?_, ?_⟩
          · simp only [Client.step, small, if_true, List.nil_append]
          · simp only [Client.step, small, if_true, List.append_nil]
            refine ⟨?_, by simp, ?_, receivedLength, by simp⟩
            · rw [← messagesEq]
              simp [Client.started]
            · simp only [Client.started, Client.unsent, List.append_nil] at pushedEq ⊢
              rw [frames_append, ← pushedEq, frames_singleton, frameBytes]
  | sending message buffer data =>
      cases buffer with
      | nil =>
          cases data with
          | nil =>
              refine ⟨[], rfl, ?_⟩
              simp only [Client.step, List.append_nil]
              exact ⟨messagesEq, by simp, pushedEq, receivedLength, by simp⟩
          | cons byte data =>
              refine ⟨[], rfl, ?_⟩
              simp only [Client.step, List.append_nil]
              refine ⟨messagesEq, by simp, ?_, receivedLength, by simp⟩
              simp only [Client.unsent, Client.started, List.nil_append] at pushedEq ⊢
              rw [List.append_assoc, List.take_append_drop]
              exact pushedEq
      | cons byte buffer =>
          refine ⟨[], rfl, ?_⟩
          simp only [Client.step, List.append_nil]
          refine ⟨messagesEq, by simp, ?_, receivedLength, by simp⟩
          simp only [Client.unsent, Client.started] at pushedEq ⊢
          rw [List.append_assoc, ← List.append_assoc (List.take _ _), List.take_append_drop]
          exact pushedEq
  | receiving message got =>
      by_cases more : got.length < (codec.headerBytes message).length
      · refine ⟨incoming.take (min count ((codec.headerBytes message).length - got.length)), ?_, ?_⟩
        · simp only [Client.step, if_pos more, List.take_append_drop]
        · simp only [Client.step, if_pos more, List.append_nil]
          refine ⟨messagesEq, by simp, pushedEq, ?_, ?_⟩
          · simp only [Client.got, List.length_append] at receivedLength ⊢
            omega
          · intro message' got' phaseEq
            cases phaseEq
            rw [List.length_append, List.length_take]
            omega
      · have whole : got.length = (codec.headerBytes message).length := by
          have := gotLe message got rfl
          omega
        refine ⟨[], ?_, ?_⟩
        · simp only [Client.step, if_neg more, List.nil_append]
        · simp only [Client.step, if_neg more, List.append_nil]
          refine ⟨messagesEq, by simp, pushedEq, ?_, by simp⟩
          simp only [Client.got, headers_append, headers_singleton, List.length_append,
            List.length_nil] at receivedLength ⊢
          omega
  | overrun => exact absurd rfl running

end Steps

end RpcBench.Socket
