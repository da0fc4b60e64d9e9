import RpcBench.Bandwidth.Zeromq
import RpcBench.Bandwidth.HeaderWire
import RpcBench.Socket.Acks

/-! # One contract for four transports

gRPC and brpc keep the promise of `PushData` in every call.  A socket keeps it
while the client and the endpoint agree on where frames end.  ZeroMQ takes the
size of the header before the header is packed, so it sends none. -/
set_option autoImplicit false

namespace RpcBench.Bandwidth

open ByteList ProtoWire Fallible Socket

/-- Which calls of the four transports keep the promise of `PushData`. -/
theorem pushData_honoured_by_transport (codec : HeaderCodec) (messageCodec : PbCodec PbBwMessage)
    (ackCodec : PbCodec PbBwAck) (defaultEmpty : codec.serialize {} = []) :
    (∀ outcome message service ack,
      Honoured message
        (Received message.header service
          (Grpc.pushData messageCodec ackCodec outcome message service ack).2)
        (Grpc.pushData messageCodec ackCodec outcome message service ack).1) ∧
    (∀ askedToQuit outcome message service ack,
      Honoured message
        (Received message.header service
          (Brpc.pushData messageCodec ackCodec askedToQuit outcome message service ack).2)
        (Brpc.pushData messageCodec ackCodec askedToQuit outcome message service ack).1) ∧
    (∀ messages, Fits codec messages → Small codec messages → Growing codec messages.dropLast →
      ∀ (greedy : Bool) (this : Token) (fd : RawFd) (mem : Memory) (early : List Outside)
        (turns : List Turn),
        Sat (turns.foldlM (Connection.turn codec greedy)
            (Connection.accepted codec this fd mem messages early))
          (· = .pending) (Connection.AllHonoured codec)) ∧
    (∀ stale exchange message server server' ack ack',
      Zeromq.pushData codec stale exchange message server ack = .ok (ack', server') →
      (Honoured message (Zeromq.Received codec message server server') ack' ↔
        message.header = Zeromq.defaultHeader ∧ ack.header = Zeromq.defaultHeader)) := by
  constructor
  · intro outcome message service ack
    exact Grpc.pushData_honoured messageCodec ackCodec outcome message service ack
  constructor
  · intro askedToQuit outcome message service ack
    exact Brpc.pushData_honoured messageCodec ackCodec askedToQuit outcome message service ack
  constructor
  · intro messages fits small growing greedy this fd mem early turns
    exact Connection.turns_honoured fits small growing mem early turns
  · intro stale exchange message server server' ack ack' returned
    exact Zeromq.pushData_honoured_iff defaultEmpty returned

/-! ## The messages on the wire -/

/-- `mutable_header()` has set the field, so it is always written. -/
def headerField (pbHeader : PbBwHeader) : Field := (1, .delimited (wireCodec.serialize pbHeader))

theorem merge_headerField (pbHeader : PbBwHeader) :
    merge PbBwHeader.mergeField {} (wireCodec.serialize pbHeader) = some pbHeader := by
  change merge PbBwHeader.mergeField {} (encodeFields pbHeader.fields) = some pbHeader
  rw [merge_encodeFields _ _ _ (PbBwHeader.fields_valid pbHeader), PbBwHeader.merge_fields]

theorem headerField_valid (pbHeader : PbBwHeader) : Valid (headerField pbHeader) :=
  ⟨Nat.one_ne_zero, trivial⟩

namespace PbBwMessage

def fields (message : PbBwMessage) : List Field :=
  headerField message.header :: if message.data = [] then [] else [(2, .delimited message.data)]

def mergeField (message : PbBwMessage) : Field → Option PbBwMessage
  | (1, .delimited bytes) =>
    (merge PbBwHeader.mergeField message.header bytes).map fun header => { message with header }
  | (2, .delimited bytes) => some { message with data := bytes }
  | _ => some message

theorem fields_valid (message : PbBwMessage) : ∀ field ∈ message.fields, Valid field := by
  intro field member
  rcases List.mem_cons.mp member with rfl | data
  · exact headerField_valid message.header
  · split at data
    · cases data
    · obtain rfl := List.mem_singleton.mp data
      exact ⟨by simp, trivial⟩

end PbBwMessage

namespace PbBwAck

def mergeField (ack : PbBwAck) : Field → Option PbBwAck
  | (1, .delimited bytes) =>
    (merge PbBwHeader.mergeField ack.header bytes).map fun header => { ack with header }
  | _ => some ack

end PbBwAck

def wireMessages : PbCodec PbBwMessage where
  serialize := fun message => encodeFields message.fields
  parse := merge PbBwMessage.mergeField {}
  parse_serialize := by
    intro message
    rw [merge_encodeFields _ _ _ message.fields_valid]
    obtain ⟨header, data⟩ := message
    have first := merge_headerField header
    by_cases empty : data = []
    · simp [PbBwMessage.fields, headerField, PbBwMessage.mergeField, first, empty]
    · simp [PbBwMessage.fields, headerField, PbBwMessage.mergeField, first, empty]

def wireAcks : PbCodec PbBwAck where
  serialize := fun ack => encodeFields [headerField ack.header]
  parse := merge PbBwAck.mergeField {}
  parse_serialize := by
    intro ack
    rw [merge_encodeFields]
    · simp [headerField, PbBwAck.mergeField, merge_headerField ack.header]
    · intro field member
      rw [List.mem_singleton.mp member]
      exact headerField_valid ack.header

/-! ## A call of each transport -/

def smooth : Zeromq.Exchange where
  headerSends := [.done]
  dataSends := [.done]
  recvs := [.done, .done]
  replySends := [.done]
  reply := .done

def blank : BwAck := { header := Zeromq.defaultHeader, success := false }

theorem pushData_honoured_by_transport_stuff :
    Honoured (Connection.stuff [1])
      (Received (Connection.stuff [1]).header { headers := [], metered := 0 }
        (Grpc.pushData wireMessages wireAcks (.ok 0) (Connection.stuff [1])
          { headers := [], metered := 0 } blank).2)
      (Grpc.pushData wireMessages wireAcks (.ok 0) (Connection.stuff [1])
        { headers := [], metered := 0 } blank).1 ∧
    (∀ turns : List Turn,
      Sat (turns.foldlM (Connection.turn wireCodec true)
          (Connection.accepted wireCodec 0 5 { block := fun _ => none, next := 0, stale := 0 }
            [Connection.stuff [1], Connection.stuff [2, 3], Connection.stuff []] []))
        (· = .pending) (Connection.AllHonoured wireCodec)) ∧
    Honoured { header := Zeromq.defaultHeader, data := [1] }
      (Zeromq.Received wireCodec { header := Zeromq.defaultHeader, data := [1] }
        { parts := [], added := 0 } { parts := [[], [1]], added := 1 })
      { blank with success := true } := by
  have transports := pushData_honoured_by_transport wireCodec wireMessages wireAcks rfl
  constructor
  · exact transports.1 (.ok 0) (Connection.stuff [1]) { headers := [], metered := 0 } blank
  constructor
  · intro turns
    have fits : Fits wireCodec
        [Connection.stuff [1], Connection.stuff [2, 3], Connection.stuff []] := by
      unfold Fits
      decide
    have growing : Growing wireCodec
        [Connection.stuff [1], Connection.stuff [2, 3], Connection.stuff []].dropLast := by
      unfold Growing
      decide
    exact transports.2.2.1 _ fits (Connection.small_of_fits fits (by decide)) growing true 0 5 _ []
      turns
  · apply (transports.2.2.2 (List.replicate 100 0) smooth _ _ _ blank _ ?_).mpr ⟨rfl, rfl⟩
    decide

/-- The header that `Run` sends does not arrive over ZeroMQ, nor does it come back. -/
theorem zeromq_loses_header :
    ¬∀ (message : BwMessage) (ack ack' : BwAck) (server server' : Zeromq.Server),
      Zeromq.pushData wireCodec (List.replicate 100 0) smooth message server ack =
        .ok (ack', server') →
      Honoured message (Zeromq.Received wireCodec message server server') ack' := by
  intro always
  have honoured := always (Connection.stuff [1]) blank { blank with success := true }
    { parts := [], added := 0 } { parts := [[], [1]], added := 1 } (by decide) rfl
  exact absurd honoured.2 (by decide)

end RpcBench.Bandwidth
