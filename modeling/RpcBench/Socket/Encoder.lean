import RpcBench.Bandwidth.HeaderWire
import RpcBench.Socket.Client
import RpcBench.Socket.Transfer

/-! # `SocketBwClientApp::PushData`, with its buffers

The client of `Client.step` in full: the two buffers of fixed size, each write
into one of them, and the three loops that move bytes. -/
set_option autoImplicit false

namespace RpcBench.Socket

open ByteList Bandwidth Fallible

variable {σ ι : Type}

/-- The client after `Init`, which gives both buffers their size. -/
structure SocketBwClientApp where
  sock : RawFd
  sendBuffer : Bytes
  recvBuffer : Bytes
  send_size : sendBuffer.length = kDefaultBufferSize
  recv_size : recvBuffer.length = kDefaultBufferSize

def writeAt (buffer : Bytes) (offset : Nat) (bytes : Bytes) : Except Stop Bytes :=
  if offset + bytes.length ≤ buffer.length then .ok (overwrite buffer offset bytes)
  else .error .badAccess

def rangeOf (buffer : Bytes) (len : Nat) : Except Stop Bytes :=
  if len ≤ buffer.length then .ok (buffer.take len) else .error .badAccess

/-- `SerializeToArray` with the size of the message, to a place in a buffer.  It writes
nothing when the size is no `int`. -/
def serializeToArray (codec : HeaderCodec) (pbHeader : PbBwHeader) (buffer : Bytes)
    (offset : Nat) : Except Stop Bytes :=
  let bytes := codec.serialize pbHeader
  if bytes.length ≤ 2147483647 then writeAt buffer offset bytes else .ok buffer

structure PushAnswers (ι : Type) where
  header : List ι
  data : List ι
  reply : List ι

/-- Where `PushData` ends: with the ack, or without one where a check failed. -/
structure Pushed (σ : Type) where
  ack : Option BwAck
  sendBuffer : Bytes
  recvBuffer : Bytes
  sys : σ

namespace SocketBwClientApp

def encode (codec : HeaderCodec) (message : BwMessage) (sendBuffer : Bytes) :
    Except Stop Bytes := do
  let headerSize := (codec.headerBytes message).length
  let sendBuffer ← writeAt sendBuffer 0 (toLE 4 headerSize)
  let sendBuffer ← writeAt sendBuffer 4 (toLE 4 message.data.length)
  serializeToArray codec (packPbBwHeader message.header) sendBuffer 8

def pushData (kernel : Kernel σ ι) (codec : HeaderCodec) (message : BwMessage) (bwAck : BwAck)
    (answers : PushAnswers ι) (app : SocketBwClientApp) (sys : σ) :
    Except Stop (Pushed σ) := do
  let headerSize := (codec.headerBytes message).length
  let recvBuffer := app.recvBuffer
  let sendBuffer ← encode codec message app.sendBuffer
  let range ← rangeOf sendBuffer (headerSize + 8)
  let (n, sys) ← sendAll kernel app.sock range answers.header 0 sys
  if headerSize + 8 ≠ n then .ok { ack := none, sendBuffer, recvBuffer, sys }
  else
    let (n, sys) ← sendAll kernel app.sock message.data answers.data 0 sys
    if message.data.length ≠ n then .ok { ack := none, sendBuffer, recvBuffer, sys }
    else
      let _ ← rangeOf recvBuffer headerSize
      let (r, recvBuffer, sys) ← recvAll kernel app.sock headerSize answers.reply 0 recvBuffer sys
      if r < headerSize then
        .ok { ack := some { bwAck with success := false }, sendBuffer, recvBuffer, sys }
      else
        let header := unpackPbBwHeader (codec.parse (recvBuffer.take headerSize))
        .ok { ack := some { header, success := true }, sendBuffer, recvBuffer, sys }

end SocketBwClientApp

/-- A frame: two 32-bit lengths, and a header and a payload of these lengths. -/
def WellFramed (header data frame : Bytes) : Prop :=
  ∃ headerField dataField, frame = headerField ++ dataField ++ header ++ data ∧
    headerField.length = 4 ∧ dataField.length = 4 ∧
    fromLE headerField = header.length ∧ fromLE dataField = data.length

/-- What a call of `PushData` may leave on the connection: nothing, or the beginning
of a frame of the message, and all of it if it returns. -/
def SoundEnd (codec : HeaderCodec) (message : BwMessage) (line : Duplex) (pushed : Pushed Duplex) :
    Prop :=
  ∃ bytes, pushed.sys.sent = line.sent ++ bytes ∧
    (pushed.ack = none ∧ bytes = [] ∨
      ∃ frame, WellFramed (codec.headerBytes message) message.data frame ∧
        bytes <+: frame ∧ (pushed.ack ≠ none → bytes = frame))

/-- Whatever the system answers, `PushData` stays inside its buffers, and what it
sends is the frame of the message. -/
def PushSound (codec : HeaderCodec) (message : BwMessage) : Prop :=
  ∀ (app : SocketBwClientApp) (bwAck : BwAck) (answers : PushAnswers Result) (line : Duplex),
    Sat (app.pushData scripted codec message bwAck answers line) (· = .pending)
      (SoundEnd codec message line)

section Encoding

variable {codec : HeaderCodec} {message : BwMessage}

theorem writeAt_take (buffer known bytes : Bytes) (before : buffer.take known.length = known)
    (fits : known.length + bytes.length ≤ buffer.length) :
    ∃ written, writeAt buffer known.length bytes = .ok written ∧
      written.length = buffer.length ∧
      written.take (known ++ bytes).length = known ++ bytes :=
  ⟨overwrite buffer known.length bytes, if_pos fits, overwrite_length _ _ _ fits,
    overwrite_take _ _ _ before⟩

/-- The two lengths are written, and then the header is serialized. -/
theorem encode_eq (codec : HeaderCodec) (message : BwMessage) (buffer : Bytes)
    (room : 8 ≤ buffer.length) :
    ∃ lengths, lengths.length = buffer.length ∧ lengths.take 8 = metaBytes codec message ∧
      SocketBwClientApp.encode codec message buffer =
        serializeToArray codec (packPbBwHeader message.header) lengths 8 := by
  obtain ⟨first, wrote, length, known⟩ := writeAt_take buffer []
    (toLE 4 (codec.headerBytes message).length) rfl (by rw [toLE_length, List.length_nil]; omega)
  rw [List.nil_append] at known
  obtain ⟨second, wrote', length', known'⟩ := writeAt_take first _
    (toLE 4 message.data.length) known (by rw [toLE_length, toLE_length]; omega)
  rw [toLE_length] at wrote'
  rw [List.length_nil] at wrote
  refine ⟨second, length'.trans length, ?_, ?_⟩
  · have eight := metaBytes_length codec message
    rw [← metaBytes, eight] at known'
    exact known'
  · unfold SocketBwClientApp.encode
    simp only [wrote, wrote', ok_bind]

/-- With room for the header the buffer begins with the lengths and the header. -/
theorem encode_fits (codec : HeaderCodec) (message : BwMessage) (buffer : Bytes)
    (room : (codec.headerBytes message).length + 8 ≤ buffer.length)
    (small : (codec.headerBytes message).length ≤ 2147483647) :
    ∃ sendBuffer, SocketBwClientApp.encode codec message buffer = .ok sendBuffer ∧
      rangeOf sendBuffer ((codec.headerBytes message).length + 8) =
        .ok (metaBytes codec message ++ codec.headerBytes message) := by
  have eight := metaBytes_length codec message
  obtain ⟨lengths, length, known, encoded⟩ := encode_eq codec message buffer (by omega)
  rw [← eight] at known
  obtain ⟨sendBuffer, wrote, length', known'⟩ := writeAt_take lengths _
    (codec.headerBytes message) known (by omega)
  rw [eight] at wrote
  rw [List.length_append, eight, Nat.add_comm] at known'
  refine ⟨sendBuffer, encoded.trans ((if_pos small).trans wrote), ?_⟩
  rw [← known']
  exact if_pos (by omega)

/-- Without room the buffer is left: `SerializeToArray` does, or where it writes
nothing the first `SendAll` does. -/
theorem encode_overruns (codec : HeaderCodec) (message : BwMessage) (buffer : Bytes)
    (room : 8 ≤ buffer.length)
    (large : buffer.length < (codec.headerBytes message).length + 8) :
    SocketBwClientApp.encode codec message buffer = .error .badAccess ∨
      ∃ sendBuffer, SocketBwClientApp.encode codec message buffer = .ok sendBuffer ∧
        rangeOf sendBuffer ((codec.headerBytes message).length + 8) = .error .badAccess := by
  obtain ⟨lengths, length, _, encoded⟩ := encode_eq codec message buffer room
  have same : codec.serialize (packPbBwHeader message.header) = codec.headerBytes message := rfl
  rw [encoded, serializeToArray, same]
  by_cases small : (codec.headerBytes message).length ≤ 2147483647
  · rw [if_pos small]
    exact Or.inl (if_neg (by omega))
  · rw [if_neg small]
    exact Or.inr ⟨lengths, rfl, if_neg (by omega)⟩

/-- The frame that is sent is well formed where both lengths have 32 bits. -/
theorem wellFramed_frameBytes (header : (codec.headerBytes message).length < 256 ^ 4)
    (data : message.data.length < 256 ^ 4) :
    WellFramed (codec.headerBytes message) message.data (frameBytes codec message) := by
  refine ⟨_, _, rfl, toLE_length _ _, toLE_length _ _, ?_, ?_⟩
  · rw [fromLE_toLE, Nat.mod_eq_of_lt header]
  · rw [fromLE_toLE, Nat.mod_eq_of_lt data]

theorem WellFramed.data_lt {header data frame : Bytes} (framed : WellFramed header data frame) :
    data.length < 2 ^ 32 := by
  obtain ⟨headerField, dataField, _, _, length, _, value⟩ := framed
  have bound := fromLE_lt dataField
  rw [length, value] at bound
  omega

end Encoding

section Sound

variable {codec : HeaderCodec} {message : BwMessage}

theorem soundEnd_failed {line : Duplex} {pushed : Pushed Duplex} {bytes frame : Bytes}
    (framed : WellFramed (codec.headerBytes message) message.data frame)
    (failed : pushed.ack = none) (sent : pushed.sys.sent = line.sent ++ bytes)
    (begins : bytes <+: frame) : SoundEnd codec message line pushed :=
  ⟨bytes, sent, Or.inr ⟨frame, framed, begins, fun returned => absurd failed returned⟩⟩

theorem soundEnd_returned {line : Duplex} {pushed : Pushed Duplex} {frame : Bytes}
    (framed : WellFramed (codec.headerBytes message) message.data frame)
    (sent : pushed.sys.sent = line.sent ++ frame) : SoundEnd codec message line pushed :=
  ⟨frame, sent, Or.inr ⟨frame, framed, List.prefix_refl frame, fun _ => rfl⟩⟩

theorem pushSound_of_fits
    (room : (codec.headerBytes message).length + 8 ≤ kDefaultBufferSize)
    (data : message.data.length < 2 ^ 32) : PushSound codec message := by
  intro app bwAck answers line
  have size : kDefaultBufferSize = 4194304 := rfl
  have framed : WellFramed (codec.headerBytes message) message.data (frameBytes codec message) :=
    wellFramed_frameBytes (by omega) (by omega)
  have eight := metaBytes_length codec message
  obtain ⟨sendBuffer, encoded, range⟩ := encode_fits codec message app.sendBuffer
    (by rw [app.send_size]; exact room) (by omega)
  have inside : rangeOf app.recvBuffer (codec.headerBytes message).length =
      .ok (app.recvBuffer.take (codec.headerBytes message).length) :=
    if_pos (by rw [app.recv_size]; omega)
  unfold SocketBwClientApp.pushData
  simp only [encoded, range, inside, ok_bind]
  apply (sendAll_sat app.sock _ line answers.header).bind
  rintro ⟨n, sys⟩ ⟨_, same⟩
  simp only at same
  subst same
  simp only
  by_cases short : (codec.headerBytes message).length + 8 ≠ n
  · rw [if_pos short]
    apply soundEnd_failed framed rfl rfl
    exact (List.take_prefix _ _).trans ⟨message.data, rfl⟩
  · rw [if_neg short]
    have whole : (metaBytes codec message ++ codec.headerBytes message).take n =
        metaBytes codec message ++ codec.headerBytes message := by
      apply List.take_of_length_le
      rw [List.length_append, eight]
      omega
    rw [whole]
    apply (sendAll_sat app.sock message.data _ answers.data).bind
    rintro ⟨n, sys⟩ ⟨_, same⟩
    simp only at same
    subst same
    simp only
    by_cases shortData : message.data.length ≠ n
    · rw [if_pos shortData]
      apply soundEnd_failed framed rfl (List.append_assoc _ _ _)
      exact (List.prefix_append_right_inj _).mpr (List.take_prefix _ _)
    · rw [if_neg shortData]
      have wholeData : message.data.take n = message.data := by
        apply List.take_of_length_le
        omega
      rw [wholeData]
      apply (recvAll_sat app.sock (codec.headerBytes message).length app.recvBuffer _
        answers.reply).bind
      rintro ⟨r, recvBuffer, sys⟩ ⟨_, _, same⟩
      simp only at same
      subst same
      simp only
      by_cases shortReply : r < (codec.headerBytes message).length
      · rw [if_pos shortReply]
        exact soundEnd_returned framed (List.append_assoc _ _ _)
      · rw [if_neg shortReply]
        exact soundEnd_returned framed (List.append_assoc _ _ _)

theorem writeAt_length {buffer bytes written : Bytes} {offset : Nat}
    (wrote : writeAt buffer offset bytes = .ok written) : written.length = buffer.length := by
  unfold writeAt at wrote
  by_cases fits : offset + bytes.length ≤ buffer.length
  · rw [if_pos fits] at wrote
    cases wrote
    exact overwrite_length _ _ _ fits
  · rw [if_neg fits] at wrote
    cases wrote

theorem encode_length {buffer sendBuffer : Bytes} (room : 8 ≤ buffer.length)
    (encoded : SocketBwClientApp.encode codec message buffer = .ok sendBuffer) :
    sendBuffer.length = buffer.length := by
  obtain ⟨lengths, length, _, same⟩ := encode_eq codec message buffer room
  rw [same, serializeToArray] at encoded
  rw [← length]
  split at encoded
  · exact writeAt_length encoded
  · cases encoded
    rfl

/-- Both buffers keep their size, so that the next message finds the client as after
`Init`. -/
theorem pushData_sizes (app : SocketBwClientApp) (bwAck : BwAck)
    (answers : PushAnswers Result) (line : Duplex) :
    Sat (app.pushData scripted codec message bwAck answers line) (fun _ => True)
      (fun pushed => pushed.sendBuffer.length = kDefaultBufferSize ∧
        pushed.recvBuffer.length = kDefaultBufferSize) := by
  unfold SocketBwClientApp.pushData
  cases encoded : SocketBwClientApp.encode codec message app.sendBuffer with
  | error reason => exact trivial
  | ok sendBuffer =>
      have sendSize : sendBuffer.length = kDefaultBufferSize :=
        (encode_length (by rw [app.send_size]; decide) encoded).trans app.send_size
      rw [ok_bind]
      apply (Sat.any (rangeOf sendBuffer ((codec.headerBytes message).length + 8))).bind
      intro range _
      apply ((sendAll_sat app.sock range line answers.header).mono (fun _ _ => trivial)
        (fun _ sent => sent)).bind
      rintro ⟨n, sys⟩ _
      simp only
      by_cases short : (codec.headerBytes message).length + 8 ≠ n
      · rw [if_pos short]
        exact ⟨sendSize, app.recv_size⟩
      rw [if_neg short]
      apply ((sendAll_sat app.sock message.data sys answers.data).mono (fun _ _ => trivial)
        (fun _ sent => sent)).bind
      rintro ⟨n, sys⟩ _
      simp only
      by_cases shortData : message.data.length ≠ n
      · rw [if_pos shortData]
        exact ⟨sendSize, app.recv_size⟩
      rw [if_neg shortData]
      have inside : Sat (rangeOf app.recvBuffer (codec.headerBytes message).length)
          (fun _ => True) (fun _ => (codec.headerBytes message).length ≤ kDefaultBufferSize) := by
        unfold rangeOf
        split
        · next fits => exact app.recv_size ▸ fits
        · exact trivial
      apply inside.bind
      intro _ fits
      apply ((recvAll_sat app.sock (codec.headerBytes message).length app.recvBuffer sys
        answers.reply).mono (fun _ _ => trivial) (fun _ received => received)).bind
      rintro ⟨r, recvBuffer, sys⟩ ⟨le, stored, _⟩
      have recvSize : recvBuffer.length = kDefaultBufferSize := by
        have size := app.recv_size
        simp only at le stored
        rw [stored, List.length_append, List.length_drop, Duplex.length_next]
        omega
      simp only
      split
      · exact ⟨sendSize, recvSize⟩
      · exact ⟨sendSize, recvSize⟩

def cutShort : PushAnswers Result := { header := [.moved 0, .closed], data := [], reply := [] }

def silent : Duplex := { sent := [], stream := fun _ => 0, taken := 0 }

theorem room_of_pushSound (app : SocketBwClientApp) (sound : PushSound codec message) :
    (codec.headerBytes message).length + 8 ≤ kDefaultBufferSize := by
  by_contra large
  have size := app.send_size
  have ends := sound app { header := message.header, success := false } cutShort silent
  unfold SocketBwClientApp.pushData at ends
  rcases encode_overruns codec message app.sendBuffer (by rw [size]; decide)
    (by rw [size]; omega) with overruns | ⟨sendBuffer, encoded, overruns⟩
  · simp only [overruns] at ends
    cases ends
  · simp only [encoded, ok_bind, overruns] at ends
    cases ends

theorem sendAll_cutShort (fd : RawFd) (range : Bytes) (long : 1 < range.length) :
    sendAll scripted fd range cutShort.header 0 silent =
      .ok (1, { silent with sent := range.take 1 }) := by
  have one : min (0 + 1) (range.drop 0).length = 1 := by
    rw [List.drop_zero]
    omega
  simp only [cutShort, sendAll, scripted, one, if_pos (Nat.zero_lt_of_lt long), if_pos long]
  rfl

theorem data_of_pushSound (app : SocketBwClientApp) (sound : PushSound codec message) :
    message.data.length < 2 ^ 32 := by
  have room := room_of_pushSound app sound
  have size := app.send_size
  have limit : kDefaultBufferSize = 4194304 := rfl
  have eight := metaBytes_length codec message
  have ends := sound app { header := message.header, success := false } cutShort silent
  obtain ⟨sendBuffer, encoded, range⟩ := encode_fits codec message app.sendBuffer
    (by rw [size]; exact room) (by omega)
  have long : 1 < (metaBytes codec message ++ codec.headerBytes message).length := by
    rw [List.length_append]
    omega
  unfold SocketBwClientApp.pushData at ends
  simp only [encoded, range, ok_bind, sendAll_cutShort _ _ long] at ends
  rw [if_pos (by omega)] at ends
  obtain ⟨bytes, sent, ⟨_, rfl⟩ | ⟨frame, framed, _⟩⟩ := ends
  · have length := congrArg List.length sent
    simp only [silent, List.append_nil, List.length_nil, List.length_take] at length
    omega
  · exact framed.data_lt

end Sound

def zeroed : SocketBwClientApp where
  sock := 3
  sendBuffer := List.replicate kDefaultBufferSize 0
  recvBuffer := List.replicate kDefaultBufferSize 0
  send_size := List.length_replicate
  recv_size := List.length_replicate

/-- For every message: `PushData` is sound if and only if the header and the two lengths
fit the send buffer and the length of the payload fits its field. -/
theorem pushSound_iff (codec : HeaderCodec) (message : BwMessage) :
    PushSound codec message ↔
      (codec.headerBytes message).length + 8 ≤ kDefaultBufferSize ∧
        message.data.length < 2 ^ 32 := by
  constructor
  · intro sound
    exact ⟨room_of_pushSound zeroed sound, data_of_pushSound zeroed sound⟩
  · intro fits
    exact pushSound_of_fits fits.1 fits.2

/-- A payload of `2 ^ 32` bytes goes out with a length of zero. -/
theorem long_payload_not_refused : ¬∀ codec message, PushSound codec message := by
  intro always
  have data := data_of_pushSound zeroed (always wireCodec
    { header := { field1 := 1, field2 := true, field3 := [] }
      data := List.replicate (2 ^ 32) 0 })
  rw [List.length_replicate] at data
  exact absurd data (Nat.lt_irrefl _)

end RpcBench.Socket
