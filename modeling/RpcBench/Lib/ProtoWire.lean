import RpcBench.Lib.ByteList

/-! # The protobuf wire format

Varints, tagged fields and field lists, with their round trips.  A message
type is a function that merges one field into a message; `merge` folds it over
the bytes.  Varints are not cut off at ten bytes, and groups are not read. -/
set_option autoImplicit false

namespace ProtoWire

open ByteList

/-! ## Varints -/

/-- At most `fuel` bytes before the last one. -/
def encodeVarintAux : Nat → Nat → Bytes
  | 0, value => [UInt8.ofNat value]
  | fuel + 1, value =>
    if value < 128 then [UInt8.ofNat value]
    else UInt8.ofNat (value % 128 + 128) :: encodeVarintAux fuel (value / 128)

def encodeVarint (value : Nat) : Bytes := encodeVarintAux value value

def decodeVarint : Bytes → Option (Nat × Bytes)
  | [] => none
  | byte :: rest =>
    if byte.toNat < 128 then some (byte.toNat, rest)
    else (decodeVarint rest).map fun more => (byte.toNat - 128 + 128 * more.1, more.2)

theorem toNat_ofNat_byte {value : Nat} (small : value < 256) :
    (UInt8.ofNat value).toNat = value := by
  rw [UInt8.toNat_ofNat']
  exact Nat.mod_eq_of_lt small

theorem decodeVarint_encodeVarintAux (rest : Bytes) (fuel : Nat) :
    ∀ value, value ≤ fuel →
      decodeVarint (encodeVarintAux fuel value ++ rest) = some (value, rest) := by
  induction fuel with
  | zero =>
      intro value enough
      obtain rfl : value = 0 := by omega
      rfl
  | succ fuel ih =>
      intro value enough
      by_cases last : value < 128
      · simp only [encodeVarintAux, if_pos last, List.cons_append, List.nil_append, decodeVarint,
          toNat_ofNat_byte (show value < 256 by omega)]
      · have byte := toNat_ofNat_byte (show value % 128 + 128 < 256 by omega)
        simp only [encodeVarintAux, if_neg last, List.cons_append, decodeVarint, byte,
          ih (value / 128) (by omega), Option.map_some]
        rw [if_neg (by omega)]
        simp only [Option.some.injEq, Prod.mk.injEq, and_true]
        omega

theorem decodeVarint_encodeVarint (value : Nat) (rest : Bytes) :
    decodeVarint (encodeVarint value ++ rest) = some (value, rest) :=
  decodeVarint_encodeVarintAux rest value value (le_refl _)

/-- A varint ends inside its bytes: what follows does not change it. -/
theorem decodeVarint_append (bytes : Bytes) :
    ∀ {value : Nat} {rest : Bytes}, decodeVarint bytes = some (value, rest) →
      rest.length < bytes.length ∧
      ∀ more, decodeVarint (bytes ++ more) = some (value, rest ++ more) := by
  induction bytes with
  | nil =>
      intro value rest decoded
      simp [decodeVarint] at decoded
  | cons byte bytes ih =>
      intro value rest decoded
      simp only [decodeVarint] at decoded
      by_cases last : byte.toNat < 128
      · rw [if_pos last, Option.some.injEq, Prod.mk.injEq] at decoded
        obtain ⟨rfl, rfl⟩ := decoded
        refine ⟨Nat.lt_succ_self _, fun more => ?_⟩
        simp only [List.cons_append, decodeVarint, if_pos last]
      · rw [if_neg last] at decoded
        obtain ⟨⟨high, rest'⟩, highDecoded, eq⟩ := Option.map_eq_some_iff.mp decoded
        simp only [Prod.mk.injEq] at eq
        obtain ⟨rfl, rfl⟩ := eq
        obtain ⟨shorter, stable⟩ := ih highDecoded
        refine ⟨by rw [List.length_cons]; omega, fun more => ?_⟩
        simp only [List.cons_append, decodeVarint, if_neg last, stable more, Option.map_some]

/-! ## Fields -/

inductive Value where
  | varint (value : Nat)
  | fixed64 (bytes : Bytes)
  | delimited (bytes : Bytes)
  | fixed32 (bytes : Bytes)
  deriving DecidableEq, Repr

abbrev Field := Nat × Value

def Value.wireType : Value → Nat
  | .varint _ => 0
  | .fixed64 _ => 1
  | .delimited _ => 2
  | .fixed32 _ => 5

def Value.encode : Value → Bytes
  | .varint value => encodeVarint value
  | .fixed64 bytes => bytes
  | .delimited bytes => encodeVarint bytes.length ++ bytes
  | .fixed32 bytes => bytes

def encodeField (field : Field) : Bytes :=
  encodeVarint (field.1 * 8 + field.2.wireType) ++ field.2.encode

def decodeValue (wireType : Nat) (bytes : Bytes) : Option (Value × Bytes) :=
  match wireType with
  | 0 => (decodeVarint bytes).map fun read => (.varint read.1, read.2)
  | 1 => (readWhole 8 bytes).map fun read => (.fixed64 read.1, read.2)
  | 2 => (decodeVarint bytes).bind fun len =>
      (readWhole len.1 len.2).map fun read => (.delimited read.1, read.2)
  | 5 => (readWhole 4 bytes).map fun read => (.fixed32 read.1, read.2)
  | _ => none

def decodeField (bytes : Bytes) : Option (Field × Bytes) :=
  (decodeVarint bytes).bind fun tag =>
    if tag.1 / 8 = 0 then none
    else (decodeValue (tag.1 % 8) tag.2).map fun read => ((tag.1 / 8, read.1), read.2)

def Valid (field : Field) : Prop :=
  field.1 ≠ 0 ∧
  match field.2 with
  | .fixed64 bytes => bytes.length = 8
  | .fixed32 bytes => bytes.length = 4
  | _ => True

theorem decodeField_encodeField {field : Field} (valid : Valid field) (rest : Bytes) :
    decodeField (encodeField field ++ rest) = some (field, rest) := by
  obtain ⟨number, value⟩ := field
  obtain ⟨positive, shape⟩ := valid
  have numberEq : (number * 8 + value.wireType) / 8 = number := by
    cases value <;> simp only [Value.wireType] <;> omega
  have typeEq : (number * 8 + value.wireType) % 8 = value.wireType := by
    cases value <;> simp only [Value.wireType] <;> omega
  have valueEq : decodeValue value.wireType (value.encode ++ rest) = some (value, rest) := by
    cases value with
    | varint value =>
        simp only [Value.wireType, Value.encode, decodeValue, decodeVarint_encodeVarint,
          Option.map_some]
    | fixed64 bytes =>
        simp only at shape
        simp only [Value.wireType, Value.encode, decodeValue, ← shape, readWhole_append,
          Option.map_some]
    | delimited bytes =>
        simp only [Value.wireType, Value.encode, decodeValue, List.append_assoc,
          decodeVarint_encodeVarint, Option.bind_some, readWhole_append, Option.map_some]
    | fixed32 bytes =>
        simp only at shape
        simp only [Value.wireType, Value.encode, decodeValue, ← shape, readWhole_append,
          Option.map_some]
  simp only [decodeField, encodeField, List.append_assoc, decodeVarint_encodeVarint,
    Option.bind_some, numberEq, typeEq, valueEq, Option.map_some, if_neg positive]

theorem readWhole_append_more {len : Nat} {bytes front rest : Bytes}
    (read : readWhole len bytes = some (front, rest)) (more : Bytes) :
    readWhole len (bytes ++ more) = some (front, rest ++ more) := by
  obtain ⟨rfl, rfl⟩ := readWhole_eq_append read
  rw [List.append_assoc]
  exact readWhole_append front (rest ++ more)

theorem readWhole_rest_le {len : Nat} {bytes front rest : Bytes}
    (read : readWhole len bytes = some (front, rest)) : rest.length ≤ bytes.length := by
  obtain ⟨rfl, _⟩ := readWhole_eq_append read
  rw [List.length_append]
  omega

theorem decodeValue_append {wireType : Nat} {bytes rest : Bytes} {value : Value}
    (decoded : decodeValue wireType bytes = some (value, rest)) :
    rest.length ≤ bytes.length ∧
      ∀ more, decodeValue wireType (bytes ++ more) = some (value, rest ++ more) := by
  unfold decodeValue at decoded ⊢
  split at decoded
  · obtain ⟨⟨number, rest'⟩, read, eq⟩ := Option.map_eq_some_iff.mp decoded
    simp only [Prod.mk.injEq] at eq
    obtain ⟨rfl, rfl⟩ := eq
    obtain ⟨shorter, stable⟩ := decodeVarint_append bytes read
    exact ⟨by omega, fun more => by simp only [stable more, Option.map_some]⟩
  · obtain ⟨⟨front, rest'⟩, read, eq⟩ := Option.map_eq_some_iff.mp decoded
    simp only [Prod.mk.injEq] at eq
    obtain ⟨rfl, rfl⟩ := eq
    exact ⟨readWhole_rest_le read, fun more => by
      simp only [readWhole_append_more read more, Option.map_some]⟩
  · obtain ⟨⟨len, body⟩, lenRead, bodyRead⟩ := Option.bind_eq_some_iff.mp decoded
    obtain ⟨⟨front, rest'⟩, read, eq⟩ := Option.map_eq_some_iff.mp bodyRead
    simp only [Prod.mk.injEq] at eq
    obtain ⟨rfl, rfl⟩ := eq
    obtain ⟨shorter, stable⟩ := decodeVarint_append bytes lenRead
    simp only at read
    have bodyLe := readWhole_rest_le read
    refine ⟨by omega, fun more => ?_⟩
    simp only [stable more, Option.bind_some, readWhole_append_more read more, Option.map_some]
  · obtain ⟨⟨front, rest'⟩, read, eq⟩ := Option.map_eq_some_iff.mp decoded
    simp only [Prod.mk.injEq] at eq
    obtain ⟨rfl, rfl⟩ := eq
    exact ⟨readWhole_rest_le read, fun more => by
      simp only [readWhole_append_more read more, Option.map_some]⟩
  · cases decoded

theorem decodeField_append {bytes rest : Bytes} {field : Field}
    (decoded : decodeField bytes = some (field, rest)) :
    rest.length < bytes.length ∧
      ∀ more, decodeField (bytes ++ more) = some (field, rest ++ more) := by
  unfold decodeField at decoded ⊢
  obtain ⟨⟨tag, body⟩, tagRead, bodyRead⟩ := Option.bind_eq_some_iff.mp decoded
  obtain ⟨shorter, stable⟩ := decodeVarint_append bytes tagRead
  simp only [Option.ite_none_left_eq_some] at bodyRead
  obtain ⟨positive, valueRead⟩ := bodyRead
  obtain ⟨⟨value, rest'⟩, read, eq⟩ := Option.map_eq_some_iff.mp valueRead
  simp only [Prod.mk.injEq] at eq
  obtain ⟨rfl, rfl⟩ := eq
  obtain ⟨bodyLe, valueStable⟩ := decodeValue_append read
  refine ⟨by omega, fun more => ?_⟩
  simp only [stable more, Option.bind_some, if_neg positive, valueStable more, Option.map_some]

/-! ## Messages -/

def decodeFieldsAux : Nat → Bytes → Option (List Field)
  | _, [] => some []
  | 0, _ :: _ => none
  | fuel + 1, byte :: bytes =>
    (decodeField (byte :: bytes)).bind fun read =>
      (decodeFieldsAux fuel read.2).map fun fields => read.1 :: fields

def decodeFields (bytes : Bytes) : Option (List Field) := decodeFieldsAux bytes.length bytes

def encodeFields (fields : List Field) : Bytes := fields.flatMap encodeField

theorem decodeFieldsAux_fuel (fuel : Nat) :
    ∀ (fuel' : Nat) (bytes : Bytes), bytes.length ≤ fuel → bytes.length ≤ fuel' →
      decodeFieldsAux fuel bytes = decodeFieldsAux fuel' bytes := by
  induction fuel with
  | zero =>
      intro fuel' bytes enough _
      obtain rfl : bytes = [] := List.eq_nil_of_length_eq_zero (by omega)
      cases fuel' <;> rfl
  | succ fuel ih =>
      intro fuel' bytes enough enough'
      cases bytes with
      | nil => cases fuel' <;> rfl
      | cons byte bytes =>
          cases fuel' with
          | zero => simp at enough'
          | succ fuel' =>
              simp only [decodeFieldsAux]
              cases decoded : decodeField (byte :: bytes) with
              | none => rfl
              | some read =>
                  obtain ⟨shorter, _⟩ := decodeField_append decoded
                  simp only [Option.bind_some]
                  rw [ih fuel' read.2 (by omega) (by omega)]

theorem decodeFields_cons {bytes rest : Bytes} {field : Field}
    (decoded : decodeField bytes = some (field, rest)) :
    decodeFields bytes = (decodeFields rest).map fun fields => field :: fields := by
  obtain ⟨shorter, _⟩ := decodeField_append decoded
  cases bytes with
  | nil => simp at shorter
  | cons byte bytes =>
      simp only [decodeFields, List.length_cons, decodeFieldsAux, decoded, Option.bind_some]
      rw [decodeFieldsAux_fuel bytes.length rest.length rest (by simp at shorter; omega) (le_refl _)]

theorem decodeFields_encodeFields (fields : List Field) (valid : ∀ field ∈ fields, Valid field) :
    decodeFields (encodeFields fields) = some fields := by
  induction fields with
  | nil => rfl
  | cons field fields ih =>
      have first := decodeField_encodeField (valid field (by simp)) (encodeFields fields)
      have rest := ih fun other member => valid other (List.mem_cons_of_mem _ member)
      have split : encodeFields (field :: fields) = encodeField field ++ encodeFields fields :=
        List.flatMap_cons
      rw [split, decodeFields_cons first, rest, Option.map_some]

theorem decodeFields_append (fields : List Field) :
    ∀ first second : Bytes, decodeFields first = some fields →
      decodeFields (first ++ second) = (decodeFields second).map fun more => fields ++ more := by
  induction fields with
  | nil =>
      intro first second decoded
      cases first with
      | nil => simp
      | cons byte first =>
          simp only [decodeFields, List.length_cons, decodeFieldsAux] at decoded
          obtain ⟨read, _, none⟩ := Option.bind_eq_some_iff.mp decoded
          obtain ⟨fields, _, eq⟩ := Option.map_eq_some_iff.mp none
          cases eq
  | cons field fields ih =>
      intro first second decoded
      cases one : decodeField first with
      | none =>
          cases first with
          | nil => simp [decodeFields, decodeFieldsAux] at decoded
          | cons byte first => simp [decodeFields, decodeFieldsAux, one] at decoded
      | some read =>
          obtain ⟨field', rest⟩ := read
          rw [decodeFields_cons one] at decoded
          obtain ⟨fields', restDecoded, eq⟩ := Option.map_eq_some_iff.mp decoded
          simp only [List.cons.injEq] at eq
          obtain ⟨rfl, rfl⟩ := eq
          obtain ⟨_, stable⟩ := decodeField_append one
          rw [decodeFields_cons (stable second), ih rest second restDecoded]
          cases decodeFields second <;> simp

variable {M : Type}

def merge (mergeField : M → Field → Option M) (message : M) (bytes : Bytes) : Option M :=
  (decodeFields bytes).bind fun fields => fields.foldlM mergeField message

theorem merge_encodeFields (mergeField : M → Field → Option M) (message : M)
    (fields : List Field) (valid : ∀ field ∈ fields, Valid field) :
    merge mergeField message (encodeFields fields) = fields.foldlM mergeField message := by
  rw [merge, decodeFields_encodeFields fields valid, Option.bind_some]

/-- Bytes behind a message are merged into it. -/
theorem merge_append (mergeField : M → Field → Option M) {message message' : M} {first : Bytes}
    (merged : merge mergeField message first = some message') (second : Bytes) :
    merge mergeField message (first ++ second) = merge mergeField message' second := by
  obtain ⟨fields, decoded, folded⟩ := Option.bind_eq_some_iff.mp merged
  rw [merge, decodeFields_append fields first second decoded, merge]
  cases decodeFields second with
  | none => rfl
  | some more =>
      rw [Option.map_some, Option.bind_some, Option.bind_some, List.foldlM_append, folded]
      rfl

end ProtoWire
