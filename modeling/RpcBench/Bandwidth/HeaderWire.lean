import RpcBench.Bandwidth.BwApp
import RpcBench.Lib.ProtoWire

/-! # The wire format of `PbBwHeader`

What the code generated from `bw_app.proto` writes and reads: proto3 fields in
the order of their numbers, default values left out. -/
set_option autoImplicit false

namespace RpcBench.Bandwidth

open ByteList ProtoWire

namespace PbBwHeader

/-- An `int32` goes out as a varint of its 64-bit sign extension. -/
def fields (pbHeader : PbBwHeader) : List Field :=
  (if pbHeader.field1 = 0 then []
    else [(1, .varint pbHeader.field1.toInt64.toUInt64.toNat)]) ++
  (if pbHeader.field2 then [(2, .varint 1)] else []) ++
  (if pbHeader.field3 = [] then [] else [(3, .delimited pbHeader.field3)])

def mergeField (pbHeader : PbBwHeader) : Field → Option PbBwHeader
  | (1, .varint value) => some { pbHeader with field1 := (UInt64.ofNat value).toUInt32.toInt32 }
  | (2, .varint value) => some { pbHeader with field2 := value != 0 }
  | (3, .delimited bytes) => some { pbHeader with field3 := bytes }
  | _ => some pbHeader

theorem fields_valid (pbHeader : PbBwHeader) : ∀ field ∈ pbHeader.fields, Valid field := by
  intro field member
  simp only [fields, List.mem_append] at member
  rcases member with (first | second) | third
  · split at first
    · cases first
    · obtain rfl := List.mem_singleton.mp first
      exact ⟨by simp, trivial⟩
  · split at second
    · obtain rfl := List.mem_singleton.mp second
      exact ⟨by simp, trivial⟩
    · cases second
  · split at third
    · cases third
    · obtain rfl := List.mem_singleton.mp third
      exact ⟨by simp, trivial⟩

theorem field1_roundtrip (value : Int32) :
    value.toInt64.toUInt64.toUInt32.toInt32 = value := by
  apply Int32.toBitVec.inj
  change (value.toBitVec.signExtend 64).setWidth 32 = value.toBitVec
  ext i inside
  simp only [BitVec.getElem_setWidth, BitVec.getLsbD_signExtend, inside,
    show i < 64 by omega, decide_true, Bool.true_and, if_true]
  exact (BitVec.getLsbD_eq_getElem inside)

theorem merge_fields (pbHeader : PbBwHeader) :
    pbHeader.fields.foldlM mergeField {} = some pbHeader := by
  obtain ⟨field1, field2, field3⟩ := pbHeader
  by_cases zero : field1 = 0 <;> cases field2 <;> by_cases empty : field3 = [] <;>
    simp [fields, zero, empty, mergeField, field1_roundtrip]

end PbBwHeader

def wireCodec : HeaderCodec where
  serialize := fun pbHeader => encodeFields pbHeader.fields
  parse := fun bytes => (merge PbBwHeader.mergeField {} bytes).getD {}
  parse_serialize := by
    intro pbHeader
    rw [merge_encodeFields _ _ _ (PbBwHeader.fields_valid pbHeader), PbBwHeader.merge_fields]
    rfl

example : wireCodec.serialize { field1 := 1, field2 := true, field3 := [115, 116] } =
    [8, 1, 16, 1, 26, 2, 115, 116] := by decide

end RpcBench.Bandwidth
