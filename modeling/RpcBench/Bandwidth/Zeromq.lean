import RpcBench.Bandwidth.Rpc
import RpcBench.Lib.Fallible

/-! # `PushData` over ZeroMQ

A request is two message parts, and both programs take the size of the header
part, and of the reply, from a `PbBwHeader` that nothing has been written to.
`zmq_msg_send`, `zmq_msg_recv` and `zmq_recv` take their outcomes from choices;
a REQ and a REP socket send only when it is their turn. -/
set_option autoImplicit false

namespace RpcBench.Bandwidth

open ByteList Fallible

namespace Zeromq

/-- Why a call has no result: it has not returned, or a check has failed. -/
inductive Stop where
  | pending
  | abort
  deriving DecidableEq, Repr

/-- A `zmq_msg_send` or `zmq_msg_recv` succeeds, or returns -1. -/
inductive Outcome where
  | done
  | failed
  deriving DecidableEq, Repr

/-- `(int)size`. -/
def toInt (size : Nat) : Int := (Int32.ofNat size).toInt

/-- What `zmq_msg_send` and `zmq_msg_recv` return for a part. -/
def result (part : Bytes) : Int := min part.length (2 ^ 31 - 1)

/-- `while (true) { if (zmq_msg_send(&msg, ..) == (int)size) break; .. }`.  A
part that was sent is not sent again: every later call fails. -/
def sendPart (size : Nat) (part : Bytes) : List Outcome → Except Stop Unit
  | [] => .error .pending
  | .failed :: outcomes => sendPart size part outcomes
  | .done :: _ => if result part = toInt size then .ok () else .error .pending

/-- A `zmq_msg_t` with its `zmq_msg_more`. -/
structure Msg where
  data : Bytes
  more : Bool
  deriving DecidableEq, Repr

/-- `ZeromqBwServerApp` with what has reached it, and the bytes that it hands to
`AddBytes`.  Its `meter_` is never initialised, so what becomes of them is open. -/
structure Server where
  parts : List Bytes
  added : Nat
  deriving DecidableEq, Repr

/-- The inner loop of `RunZero`; `incoming` is left of the request. -/
def receiveParts : List Outcome → List Bytes → Msg → Server →
    Except Stop (List Bytes × Msg × Server)
  | [], _, _, _ => .error .pending
  | .done :: _, [], _, _ => .error .pending
  | .done :: outcomes, part :: incoming, _, server =>
    let zmsg := { data := part, more := !incoming.isEmpty }
    let server :=
      { parts := server.parts ++ [part], added := server.added + (result part).toNat }
    if zmsg.more then receiveParts outcomes incoming zmsg server
    else .ok (incoming, zmsg, server)
  | .failed :: outcomes, incoming, zmsg, server =>
    if zmsg.more then receiveParts outcomes incoming zmsg server
    else .ok (incoming, zmsg, server)

/-- One turn of `RunZero`.  The responder sends only after a whole request. -/
def runZero (codec : HeaderCodec) (recvs sends : List Outcome) (request : List Bytes)
    (server : Server) : Except Stop (Bytes × Server) := do
  let headerSize := (codec.serialize {}).length
  let (incoming, zmsg, server) ← receiveParts recvs request { data := [], more := false } server
  let reply := zmsg.data.take headerSize
  if incoming = [] then
    sendPart headerSize reply sends
    return (reply, server)
  else .error .pending

structure Exchange where
  headerSends : List Outcome
  dataSends : List Outcome
  recvs : List Outcome
  replySends : List Outcome
  /-- the client's `zmq_recv` -/
  reply : Outcome

/-- `SerializeToArray(header_buf, 100)`; what does not fit is not written. -/
def headerBuf (codec : HeaderCodec) (stale : Bytes) (pbHeader : PbBwHeader) : Bytes :=
  let bytes := codec.serialize pbHeader
  if bytes.length ≤ 100 then overwrite stale 0 bytes else stale

/-- `ZeromqBwClientApp::PushDataZero` against `RunZero`; `stale` is what
`header_buf` holds before. -/
def pushData (codec : HeaderCodec) (stale : Bytes) (exchange : Exchange) (message : BwMessage)
    (server : Server) (ack : BwAck) : Except Stop (BwAck × Server) := do
  let headerSize := (codec.serialize {}).length
  let header := (headerBuf codec stale (packPbBwHeader message.header)).take headerSize
  sendPart headerSize header exchange.headerSends
  sendPart message.data.length message.data exchange.dataSends
  let (reply, server) ←
    runZero codec exchange.recvs exchange.replySends [header, message.data] server
  match exchange.reply with
  | .failed => .error .abort
  | .done =>
    if reply.length = headerSize then return ({ ack with success := true }, server)
    else .error .abort

section Contract

variable {codec : HeaderCodec} {server server' : Server} {message : BwMessage}

def Received (codec : HeaderCodec) (message : BwMessage) (before after : Server) : Prop :=
  ∃ rest, after.parts = before.parts ++ codec.headerBytes message :: rest

theorem receiveParts_parts (outcomes : List Outcome) :
    ∀ (incoming left : List Bytes) (zmsg zmsg' : Msg) (server server' : Server),
      receiveParts outcomes incoming zmsg server = .ok (left, zmsg', server') →
      ∃ taken, incoming = taken ++ left ∧ server'.parts = server.parts ++ taken := by
  induction outcomes with
  | nil =>
      intro incoming left zmsg zmsg' server server' returned
      cases returned
  | cons outcome outcomes ih =>
      intro incoming left zmsg zmsg' server server' returned
      cases outcome with
      | failed =>
          rw [receiveParts] at returned
          split at returned
          · exact ih incoming left zmsg zmsg' server server' returned
          · cases returned
            exact ⟨[], rfl, (List.append_nil _).symm⟩
      | done =>
          cases incoming with
          | nil => cases returned
          | cons part incoming =>
              rw [receiveParts] at returned
              simp only at returned
              split at returned
              · obtain ⟨taken, split, parts⟩ := ih incoming left _ zmsg' _ server' returned
                refine ⟨part :: taken, ?_, ?_⟩
                · rw [split]
                  rfl
                · rw [parts, List.append_assoc]
                  rfl
              · cases returned
                exact ⟨[part], rfl, rfl⟩

theorem runZero_parts {recvs sends : List Outcome} {request : List Bytes} {reply : Bytes}
    (returned : runZero codec recvs sends request server = .ok (reply, server')) :
    server'.parts = server.parts ++ request := by
  unfold runZero at returned
  cases received : receiveParts recvs request { data := [], more := false } server with
  | error stop =>
      rw [received] at returned
      cases returned
  | ok result =>
      obtain ⟨incoming, zmsg, after⟩ := result
      rw [received] at returned
      obtain ⟨taken, split, parts⟩ := receiveParts_parts recvs _ _ _ _ _ _ received
      change (if incoming = [] then _ else _) = Except.ok (reply, server') at returned
      by_cases whole : incoming = []
      · rw [if_pos whole] at returned
        cases sent : sendPart (codec.serialize {}).length
            (zmsg.data.take (codec.serialize {}).length) sends with
        | error stop =>
            simp only [sent, bind, Except.bind] at returned
            cases returned
        | ok _ =>
            simp only [sent, bind, Except.bind] at returned
            cases returned
            rw [whole, List.append_nil] at split
            rw [parts, split]
      · rw [if_neg whole] at returned
        cases returned

/-- A call that returns reports success, leaves the caller's header as it was,
and has sent no byte of the header. -/
theorem pushData_returned (defaultEmpty : codec.serialize {} = []) {stale : Bytes}
    {exchange : Exchange} {ack ack' : BwAck}
    (returned : pushData codec stale exchange message server ack = .ok (ack', server')) :
    ack' = { ack with success := true } ∧
      server'.parts = server.parts ++ [[], message.data] := by
  unfold pushData at returned
  simp only [defaultEmpty, List.length_nil, List.take_zero] at returned
  cases headerSent : sendPart 0 [] exchange.headerSends with
  | error stop =>
      simp only [headerSent, bind, Except.bind] at returned
      cases returned
  | ok _ =>
      cases dataSent : sendPart message.data.length message.data exchange.dataSends with
      | error stop =>
          simp only [headerSent, dataSent, bind, Except.bind] at returned
          cases returned
      | ok _ =>
          simp only [headerSent, dataSent, bind, Except.bind] at returned
          cases answered : runZero codec exchange.recvs exchange.replySends
              [[], message.data] server with
          | error stop =>
              simp only [answered] at returned
              cases returned
          | ok result =>
              obtain ⟨reply, after⟩ := result
              simp only [answered] at returned
              cases received : exchange.reply with
              | failed =>
                  simp only [received] at returned
                  cases returned
              | done =>
                  simp only [received] at returned
                  split at returned
                  · cases returned
                    exact ⟨rfl, runZero_parts answered⟩
                  · cases returned

def defaultHeader : BwHeader := unpackPbBwHeader {}

theorem headerBytes_eq_nil_iff (defaultEmpty : codec.serialize {} = []) :
    codec.headerBytes message = [] ↔ message.header = defaultHeader := by
  constructor
  · intro empty
    have parsed := codec.parse_serialize (packPbBwHeader message.header)
    have parsed' := codec.parse_serialize {}
    rw [HeaderCodec.headerBytes] at empty
    rw [empty] at parsed
    rw [defaultEmpty, parsed] at parsed'
    rw [← unpack_pack message.header, parsed', defaultHeader]
  · intro isDefault
    rw [HeaderCodec.headerBytes, isDefault]
    exact defaultEmpty

/-- Over ZeroMQ the promise is kept if and only if the message has the default
header and the caller's ack had it before. -/
theorem pushData_honoured_iff (defaultEmpty : codec.serialize {} = []) {stale : Bytes}
    {exchange : Exchange} {ack ack' : BwAck}
    (returned : pushData codec stale exchange message server ack = .ok (ack', server')) :
    Honoured message (Received codec message server server') ack' ↔
      message.header = defaultHeader ∧ ack.header = defaultHeader := by
  obtain ⟨rfl, parts⟩ := pushData_returned defaultEmpty returned
  rw [← headerBytes_eq_nil_iff defaultEmpty]
  constructor
  · intro honoured
    obtain ⟨⟨rest, received⟩, header⟩ := honoured rfl
    rw [parts] at received
    have first := List.append_cancel_left received
    rw [List.cons.injEq] at first
    have isDefault := (headerBytes_eq_nil_iff defaultEmpty).mp first.1.symm
    exact ⟨first.1.symm, header.trans isDefault⟩
  · intro both _
    constructor
    · apply Exists.intro [message.data]
      rw [both.1]
      exact parts
    · exact both.2.trans ((headerBytes_eq_nil_iff defaultEmpty).mp both.1).symm

end Contract

end Zeromq

end RpcBench.Bandwidth
