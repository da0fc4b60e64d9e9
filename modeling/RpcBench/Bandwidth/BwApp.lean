import RpcBench.Lib.ByteList

/-! # `bw_app.{h,cc}` and `bw_app.proto`: messages, packing, and `Run`

The generated protobuf code is a parameter, `HeaderCodec`: what is known of it
is that parsing undoes serialization. -/
set_option autoImplicit false

namespace RpcBench.Bandwidth

open ByteList

structure BwHeader where
  field1 : UInt32
  field2 : Bool
  field3 : Bytes
  deriving DecidableEq, Repr

structure BwMessage where
  header : BwHeader
  data : Bytes
  deriving DecidableEq, Repr

structure BwAck where
  header : BwHeader
  success : Bool
  deriving DecidableEq, Repr

/-- `message PbBwHeader`; `field1` is an `int32`. -/
structure PbBwHeader where
  field1 : Int32 := 0
  field2 : Bool := false
  field3 : Bytes := []
  deriving DecidableEq

def packPbBwHeader (header : BwHeader) : PbBwHeader :=
  { field1 := header.field1.toInt32, field2 := header.field2, field3 := header.field3 }

def unpackPbBwHeader (pbHeader : PbBwHeader) : BwHeader :=
  { field1 := pbHeader.field1.toUInt32, field2 := pbHeader.field2, field3 := pbHeader.field3 }

theorem unpack_pack (header : BwHeader) : unpackPbBwHeader (packPbBwHeader header) = header := by
  cases header with
  | mk field1 field2 field3 =>
      simp only [unpackPbBwHeader, packPbBwHeader, UInt32.toUInt32_toInt32]

/-- `SerializeToArray` and `ParseFromArray` of a `PbBwHeader`; `parse` is the
message that `ParseFromArray` leaves, whatever it returns. -/
structure HeaderCodec where
  serialize : PbBwHeader → Bytes
  parse : Bytes → PbBwHeader
  parse_serialize : ∀ pbHeader, parse (serialize pbHeader) = pbHeader

def HeaderCodec.headerBytes (codec : HeaderCodec) (message : BwMessage) : Bytes :=
  codec.serialize (packPbBwHeader message.header)

/-- The contract of `PushData` for a call that has set `ack`: with success the
server has received the header, and the ack carries a copy of it. -/
def Honoured (message : BwMessage) (received : Prop) (ack : BwAck) : Prop :=
  ack.success = true → received ∧ ack.header = message.header

def stringMaxSize : Nat := 2 ^ 63 - 1

/-- The message that `BwClientApp::Run` sends over and over, for the value
`std::stoi` gave for the option; `data.resize` throws when `size_t` makes it
larger than a string can be. -/
def runMessage (dataSize : Int32) : Option BwMessage :=
  let size := dataSize.toInt64.toUInt64.toNat
  if size ≤ stringMaxSize then
    some
      { header := { field1 := 1, field2 := true, field3 := [115, 116, 117, 102, 102] }
        data := List.replicate size 0 }
  else none

/-- A message that `Run` sends has a payload whose size is an `int32`. -/
theorem runMessage_payload {dataSize : Int32} {message : BwMessage}
    (run : runMessage dataSize = some message) : message.data.length < 2 ^ 31 := by
  simp only [runMessage, Option.ite_none_right_eq_some, Option.some.injEq] at run
  obtain ⟨fits, rfl⟩ := run
  rw [List.length_replicate]
  have valueEq : dataSize.toInt64.toBitVec.toInt = dataSize.toInt := Int32.toInt_toInt64 dataSize
  have valueLt : dataSize.toInt < 2 ^ 31 := Int32.toInt_lt dataSize
  have sizeEq : dataSize.toInt64.toUInt64.toNat = dataSize.toInt64.toBitVec.toNat := rfl
  rw [sizeEq, stringMaxSize] at fits
  rw [BitVec.toInt_eq_toNat_cond] at valueEq
  rw [sizeEq]
  split at valueEq <;> omega

end RpcBench.Bandwidth
