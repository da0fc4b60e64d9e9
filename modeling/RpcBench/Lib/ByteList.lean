import Mathlib.Data.List.Basic
import Mathlib.Tactic.Ring

/-! # Byte strings as lists

Writing into the middle of a byte string, reading from its front, and
fixed-width little-endian numbers. -/
set_option autoImplicit false

namespace ByteList

abbrev Bytes := List UInt8

/-- `source` written over `target` from `offset` on. -/
def overwrite (target : Bytes) (offset : Nat) (source : Bytes) : Bytes :=
  target.take offset ++ source ++ target.drop (offset + source.length)

theorem overwrite_length (target source : Bytes) (offset : Nat)
    (fits : offset + source.length ≤ target.length) :
    (overwrite target offset source).length = target.length := by
  simp only [overwrite, List.length_append, List.length_take, List.length_drop]
  omega

/-- Writing directly behind a known prefix extends the known prefix. -/
theorem overwrite_take (target source known : Bytes)
    (before : target.take known.length = known) :
    (overwrite target known.length source).take (known ++ source).length =
      known ++ source := by
  rw [overwrite, before, List.take_left' rfl]

theorem overwrite_front (front source buffer : Bytes) :
    overwrite (front ++ buffer.drop front.length) front.length source =
      front ++ source ++ buffer.drop (front.length + source.length) := by
  have past : front.length ≤ front.length + source.length := Nat.le_add_right _ _
  rw [overwrite, List.take_left' rfl, List.drop_append, List.drop_eq_nil_of_le past,
    List.nil_append, List.drop_drop, Nat.add_sub_cancel_left]

/-- Exactly `len` bytes from the front, and what is left. -/
def readWhole (len : Nat) (bytes : Bytes) : Option (Bytes × Bytes) :=
  if len ≤ bytes.length then some (bytes.take len, bytes.drop len) else none

theorem readWhole_append (bytes rest : Bytes) :
    readWhole bytes.length (bytes ++ rest) = some (bytes, rest) := by
  simp [readWhole]

theorem readWhole_eq_append {len : Nat} {bytes front rest : Bytes}
    (read : readWhole len bytes = some (front, rest)) :
    bytes = front ++ rest ∧ front.length = len := by
  simp only [readWhole, Option.ite_none_right_eq_some, Option.some.injEq, Prod.mk.injEq] at read
  obtain ⟨fits, rfl, rfl⟩ := read
  exact ⟨(List.take_append_drop len bytes).symm, by rw [List.length_take]; omega⟩

theorem readWhole_short {len : Nat} {bytes : Bytes} (short : bytes.length < len) :
    readWhole len bytes = none :=
  if_neg (by omega)

def toLE : Nat → Nat → Bytes
  | 0, _ => []
  | width + 1, value => UInt8.ofNat value :: toLE width (value / 256)

def fromLE : Bytes → Nat
  | [] => 0
  | byte :: rest => byte.toNat + 256 * fromLE rest

@[simp] theorem toLE_length (width value : Nat) : (toLE width value).length = width := by
  induction width generalizing value with
  | zero => rfl
  | succ width ih => simp [toLE, ih]

theorem fromLE_toLE (width value : Nat) : fromLE (toLE width value) = value % 256 ^ width := by
  induction width generalizing value with
  | zero => simp [toLE, fromLE, Nat.mod_one]
  | succ width ih =>
      have split : value % (256 * 256 ^ width) =
          value % 256 + 256 * (value / 256 % 256 ^ width) := Nat.mod_mul
      simp only [toLE, fromLE, ih, pow_succ, Nat.mul_comm (256 ^ width) 256, split]
      simp [UInt8.toNat_ofNat']

theorem fromLE_lt (bytes : Bytes) : fromLE bytes < 256 ^ bytes.length := by
  induction bytes with
  | nil => simp [fromLE]
  | cons byte rest ih =>
      have small : byte.toNat < 256 := byte.toNat_lt
      simp only [fromLE, List.length_cons, pow_succ]
      omega

end ByteList
