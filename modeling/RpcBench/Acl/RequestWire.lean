import RpcBench.Acl.Filter

/-! # The generated code for `reservation.Request`

protoc's code writes a request and prost's reads it.  Neither is part of the
repository: the first is a parameter `RequestWriter`, the second `RequestCodec`.
What follows them is an instance of both, for the runs on given inputs. -/
set_option autoImplicit false

namespace RpcBench.Acl

open ByteList ProtoWire

/-- The bytes of a `String`. -/
def IsUtf8 (bytes : Bytes) : Prop := ByteArray.IsValidUTF8 ⟨bytes.toArray⟩

structure Request.Legible (request : Request) : Prop where
  customerName : IsUtf8 request.customerName
  hotelId : ∀ hotel ∈ request.hotelId, IsUtf8 hotel
  inDate : IsUtf8 request.inDate
  outDate : IsUtf8 request.outDate

/-- `Request::SerializeToString`, which prost undoes as long as the strings are
UTF-8. -/
structure RequestWriter (codec : RequestCodec) where
  serialize : Request → Bytes
  decode_serialize : ∀ {request : Request}, request.Legible →
    codec.decode (serialize request) = some request

/-! ## Requests on the wire -/

namespace Request

def mergeField (request : Request) : Field → Option Request
  | (1, .delimited bytes) => some { request with customerName := bytes }
  | (2, .delimited bytes) => some { request with hotelId := request.hotelId ++ [bytes] }
  | (3, .delimited bytes) => some { request with inDate := bytes }
  | (4, .delimited bytes) => some { request with outDate := bytes }
  | (5, .varint value) =>
    some { request with roomNumber := (UInt64.ofNat value).toUInt32.toInt32 }
  | (number, _) => if number ≤ 5 then none else some request

def fields (request : Request) : List Field :=
  (if request.customerName = [] then [] else [(1, .delimited request.customerName)]) ++
  request.hotelId.map (fun hotel => (2, .delimited hotel)) ++
  (if request.inDate = [] then [] else [(3, .delimited request.inDate)]) ++
  (if request.outDate = [] then [] else [(4, .delimited request.outDate)]) ++
  (if request.roomNumber = 0 then []
    else [(5, .varint request.roomNumber.toInt64.toUInt64.toNat)])

theorem fields_valid (request : Request) : ∀ field ∈ request.fields, Valid field := by
  intro field member
  simp only [fields, List.mem_append] at member
  rcases member with (((first | second) | third) | fourth) | fifth
  · split at first
    · cases first
    · rw [List.mem_singleton.mp first]
      exact ⟨Nat.succ_ne_zero _, trivial⟩
  · obtain ⟨hotel, _, rfl⟩ := List.mem_map.mp second
    exact ⟨Nat.succ_ne_zero _, trivial⟩
  · split at third
    · cases third
    · rw [List.mem_singleton.mp third]
      exact ⟨Nat.succ_ne_zero _, trivial⟩
  · split at fourth
    · cases fourth
    · rw [List.mem_singleton.mp fourth]
      exact ⟨Nat.succ_ne_zero _, trivial⟩
  · split at fifth
    · cases fifth
    · rw [List.mem_singleton.mp fifth]
      exact ⟨Nat.succ_ne_zero _, trivial⟩

theorem foldlM_optional {absent : Prop} [Decidable absent] {field : Field}
    {request request' : Request} (kept : absent → request = request')
    (merged : mergeField request field = some request') :
    (if absent then [] else [field]).foldlM mergeField request = some request' := by
  by_cases default : absent
  · rw [if_pos default, kept default]
    rfl
  · rw [if_neg default, List.foldlM_cons, merged]
    rfl

theorem foldlM_hotels (hotels : List Bytes) :
    ∀ request : Request,
      (hotels.map fun hotel => ((2, .delimited hotel) : Field)).foldlM mergeField request =
        some { request with hotelId := request.hotelId ++ hotels } := by
  induction hotels with
  | nil =>
      intro request
      rw [List.append_nil]
      rfl
  | cons hotel hotels ih =>
      intro request
      have merged : mergeField request (2, .delimited hotel) =
          some { request with hotelId := request.hotelId ++ [hotel] } := rfl
      rw [List.map_cons, List.foldlM_cons, merged, Option.bind_eq_bind, Option.bind_some, ih]
      simp only [List.append_assoc, List.singleton_append]

theorem roomNumber_roundTrip (roomNumber : Int32) :
    (UInt64.ofNat roomNumber.toInt64.toUInt64.toNat).toUInt32.toInt32 = roomNumber := by
  rw [UInt64.ofNat_toNat]
  apply Int32.toBitVec_inj.mp
  change (roomNumber.toBitVec.signExtend 64).setWidth 32 = roomNumber.toBitVec
  apply BitVec.eq_of_getLsbD_eq
  intro bit small
  rw [BitVec.getLsbD_setWidth, BitVec.getLsbD_signExtend]
  simp [small]
  omega

theorem merge_fields (request : Request) :
    request.fields.foldlM mergeField {} = some request := by
  obtain ⟨customerName, hotelId, inDate, outDate, roomNumber⟩ := request
  simp only [fields, List.foldlM_append]
  have name : (if customerName = [] then [] else [((1, .delimited customerName) : Field)]).foldlM
      mergeField {} = some { customerName } := by
    apply foldlM_optional
    · intro absent
      rw [absent]
    · rfl
  have inD : (if inDate = [] then [] else [((3, .delimited inDate) : Field)]).foldlM
      mergeField { customerName, hotelId } = some { customerName, hotelId, inDate } := by
    apply foldlM_optional
    · intro absent
      rw [absent]
    · rfl
  have outD : (if outDate = [] then [] else [((4, .delimited outDate) : Field)]).foldlM
      mergeField { customerName, hotelId, inDate } =
        some { customerName, hotelId, inDate, outDate } := by
    apply foldlM_optional
    · intro absent
      rw [absent]
    · rfl
  have room : (if roomNumber = 0 then []
      else [((5, .varint roomNumber.toInt64.toUInt64.toNat) : Field)]).foldlM
      mergeField { customerName, hotelId, inDate, outDate } =
        some { customerName, hotelId, inDate, outDate, roomNumber } := by
    apply foldlM_optional
    · intro absent
      rw [absent]
    · simp only [mergeField, roomNumber_roundTrip]
  rw [name, Option.bind_eq_bind, Option.bind_some, foldlM_hotels]
  simp only [List.nil_append, Option.bind_some, inD, outD, room]

end Request

def wireRequests : RequestCodec where
  merge := ProtoWire.merge Request.mergeField
  merge_append := ProtoWire.merge_append Request.mergeField

def wireWriter : RequestWriter wireRequests where
  serialize := fun request => encodeFields request.fields
  decode_serialize := by
    intro request _
    change ProtoWire.merge Request.mergeField {} (encodeFields request.fields) = _
    rw [merge_encodeFields _ _ _ request.fields_valid, request.merge_fields]

end RpcBench.Acl
