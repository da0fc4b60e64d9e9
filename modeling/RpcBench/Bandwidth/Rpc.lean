import RpcBench.Bandwidth.BwApp

/-! # `PushData` over gRPC and over brpc

Both libraries carry a request message to the service and its reply back, or
fail the call.  A library may hand a request to the service again, and a call
can fail before or after the service has answered.  Not modelled are the log
lines and log ids, the per-call contexts and `StopServer`. -/
set_option autoImplicit false

namespace RpcBench.Bandwidth

open ByteList

structure PbBwMessage where
  header : PbBwHeader := {}
  data : Bytes := []
  deriving DecidableEq

structure PbBwAck where
  header : PbBwHeader := {}
  deriving DecidableEq

structure PbCodec (M : Type) where
  serialize : M → Bytes
  parse : Bytes → Option M
  parse_serialize : ∀ message, parse (serialize message) = some message

def packPbBwMessage (message : BwMessage) : PbBwMessage :=
  { header := packPbBwHeader message.header, data := message.data }

/-- How a library ends a call; the service has handled the request `handled`
times by then. -/
inductive RpcOutcome where
  | ok (retries : Nat)
  | failed (handled : Nat)
  deriving DecidableEq, Repr

/-- `BwServiceImpl`: the headers it has unpacked, and the bytes it has given its meter. -/
structure BwService where
  headers : List BwHeader
  metered : Nat
  deriving DecidableEq, Repr

def repeated (handler : BwService → PbBwAck × BwService) : Nat → BwService → PbBwAck × BwService
  | 0, service => handler service
  | times + 1, service => repeated handler times (handler service).2

/-- The client's end of a call, whatever carries it: what it does with the
reply, and with a failure. -/
def finish (ackCodec : PbCodec PbBwAck) (handler : BwService → PbBwAck × BwService)
    (outcome : RpcOutcome) (service : BwService) (ack : BwAck) : BwAck × BwService :=
  match outcome with
  | .ok retries =>
    let (pbReply, service) := repeated handler retries service
    match ackCodec.parse (ackCodec.serialize pbReply) with
    | some reply => ({ header := unpackPbBwHeader reply.header, success := true }, service)
    | none => ({ ack with success := false }, service)
  | .failed 0 => ({ ack with success := false }, service)
  | .failed (handled + 1) => ({ ack with success := false }, (repeated handler handled service).2)

namespace Grpc

/-- `BwServiceImpl::PushData`. -/
def handle (codec : PbCodec PbBwMessage) (request : PbBwMessage) (service : BwService) :
    PbBwAck × BwService :=
  let header := unpackPbBwHeader request.header
  ({ header := packPbBwHeader header },
    { headers := service.headers ++ [header]
      metered := service.metered + (codec.serialize request).length })

/-- `GrpcBwClientApp::PushData`; a request that does not parse fails the call. -/
def pushData (codec : PbCodec PbBwMessage) (ackCodec : PbCodec PbBwAck) (outcome : RpcOutcome)
    (message : BwMessage) (service : BwService) (ack : BwAck) : BwAck × BwService :=
  match codec.parse (codec.serialize (packPbBwMessage message)) with
  | some request => finish ackCodec (handle codec request) outcome service ack
  | none => ({ ack with success := false }, service)

end Grpc

namespace Brpc

/-- `BwServiceImpl::PushData`; the payload is an attachment. -/
def handle (codec : PbCodec PbBwMessage) (request : PbBwMessage) (attachment : Bytes)
    (service : BwService) : PbBwAck × BwService :=
  let header := unpackPbBwHeader request.header
  ({ header := packPbBwHeader header },
    { headers := service.headers ++ [header]
      metered := service.metered + ((codec.serialize request).length + attachment.length) })

/-- `BrpcBwClientApp::PushData`, with what `IsAskedToQuit()` returns. -/
def pushData (codec : PbCodec PbBwMessage) (ackCodec : PbCodec PbBwAck) (askedToQuit : Bool)
    (outcome : RpcOutcome) (message : BwMessage) (service : BwService) (ack : BwAck) :
    BwAck × BwService :=
  if askedToQuit then ({ ack with success := false }, service)
  else
    match codec.parse (codec.serialize { header := packPbBwHeader message.header }) with
    | some request => finish ackCodec (handle codec request message.data) outcome service ack
    | none => ({ ack with success := false }, service)

end Brpc

section Contract

variable {service : BwService} {ack : BwAck} {message : BwMessage}

def Received (header : BwHeader) (before after : BwService) : Prop :=
  ∃ times, after.headers = before.headers ++ List.replicate (times + 1) header

/-- Handling a request again gives the same reply and receives the same header. -/
theorem repeated_header {handler : BwService → PbBwAck × BwService} {header : BwHeader}
    (replies : ∀ service, (handler service).1 = { header := packPbBwHeader header })
    (receives : ∀ service, (handler service).2.headers = service.headers ++ [header])
    (times : Nat) : ∀ service,
      (repeated handler times service).1 = { header := packPbBwHeader header } ∧
        (repeated handler times service).2.headers =
          service.headers ++ List.replicate (times + 1) header := by
  induction times with
  | zero =>
      intro service
      exact ⟨replies service, receives service⟩
  | succ times ih =>
      intro service
      obtain ⟨reply, headers⟩ := ih (handler service).2
      constructor
      · exact reply
      · rw [repeated, headers, receives service, List.append_assoc]
        rfl

theorem finish_honoured (ackCodec : PbCodec PbBwAck) {handler : BwService → PbBwAck × BwService}
    (replies : ∀ service, (handler service).1 = { header := packPbBwHeader message.header })
    (receives : ∀ service, (handler service).2.headers = service.headers ++ [message.header])
    (outcome : RpcOutcome) :
    Honoured message
      (Received message.header service (finish ackCodec handler outcome service ack).2)
      (finish ackCodec handler outcome service ack).1 := by
  intro success
  cases outcome with
  | ok retries =>
      obtain ⟨replyEq, received⟩ := repeated_header replies receives retries service
      rw [finish]
      simp only [ackCodec.parse_serialize, replyEq]
      exact ⟨⟨retries, received⟩, unpack_pack message.header⟩
  | failed handled =>
      cases handled with
      | zero => cases success
      | succ handled => cases success

theorem Grpc.pushData_honoured (codec : PbCodec PbBwMessage) (ackCodec : PbCodec PbBwAck)
    (outcome : RpcOutcome) (message : BwMessage) (service : BwService) (ack : BwAck) :
    Honoured message
      (Received message.header service
        (Grpc.pushData codec ackCodec outcome message service ack).2)
      (Grpc.pushData codec ackCodec outcome message service ack).1 := by
  unfold Grpc.pushData
  rw [codec.parse_serialize]
  apply finish_honoured
  · intro service
    exact congrArg (fun header => ({ header := packPbBwHeader header } : PbBwAck))
      (unpack_pack message.header)
  · intro service
    exact congrArg (fun header => service.headers ++ [header]) (unpack_pack message.header)

theorem Brpc.pushData_honoured (codec : PbCodec PbBwMessage) (ackCodec : PbCodec PbBwAck)
    (askedToQuit : Bool) (outcome : RpcOutcome) (message : BwMessage) (service : BwService)
    (ack : BwAck) :
    Honoured message
      (Received message.header service
        (Brpc.pushData codec ackCodec askedToQuit outcome message service ack).2)
      (Brpc.pushData codec ackCodec askedToQuit outcome message service ack).1 := by
  unfold Brpc.pushData
  split
  · intro success
    cases success
  · rw [codec.parse_serialize]
    apply finish_honoured
    · intro service
      exact congrArg (fun header => ({ header := packPbBwHeader header } : PbBwAck))
        (unpack_pack message.header)
    · intro service
      exact congrArg (fun header => service.headers ++ [header]) (unpack_pack message.header)

end Contract

end RpcBench.Bandwidth
