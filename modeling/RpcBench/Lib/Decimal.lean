import RpcBench.Lib.ByteList
import Mathlib.Data.List.TakeWhile

/-! # Decimal numbers in byte strings

`text` is what `printf` writes for a number and `number` what `strtol` reads in
base 10: a sign, and then digits as far as they go. -/
set_option autoImplicit false

namespace Decimal

open ByteList

/-- What `isspace` accepts in the C locale. -/
def isSpace (byte : UInt8) : Bool := byte == 32 || 9 ≤ byte && byte ≤ 13

def isDigit (byte : UInt8) : Bool := 48 ≤ byte && byte ≤ 57

def isSign (byte : UInt8) : Bool := byte == 43 || byte == 45

def text (number : Nat) : Bytes :=
  (Nat.toDigits 10 number).map fun digit => UInt8.ofNat digit.toNat

def signed : Int → Bytes
  | .ofNat number => text number
  | .negSucc number => 45 :: text (number + 1)

def value (digits : Bytes) : Nat :=
  digits.foldl (fun number digit => 10 * number + (digit.toNat - 48)) 0

def sign : Bytes → Bool × Bytes
  | byte :: rest =>
    if byte = 45 then (true, rest) else if byte = 43 then (false, rest) else (false, byte :: rest)
  | [] => (false, [])

def number (input : Bytes) : Option (Int × Bytes) :=
  let (negative, rest) := sign input
  let digits := rest.takeWhile isDigit
  if digits = [] then none
  else some (if negative then -(value digits : Int) else value digits, rest.dropWhile isDigit)

def Ends (rest : Bytes) : Prop := ∀ byte ∈ rest.head?, isDigit byte = false

theorem ends_cons {byte : UInt8} (rest : Bytes) (stop : isDigit byte = false) :
    Ends (byte :: rest) := by
  intro first same
  rw [← Option.some.inj same]
  exact stop

section Digits

theorem digit_toNat {digit : Nat} (small : digit < 10) :
    (UInt8.ofNat digit.digitChar.toNat).toNat = 48 + digit := by
  rw [Nat.toNat_digitChar_of_lt_ten small, UInt8.toNat_ofNat']
  exact Nat.mod_eq_of_lt (by omega)

theorem isDigit_iff {byte : UInt8} :
    isDigit byte = true ↔ 48 ≤ byte.toNat ∧ byte.toNat ≤ 57 := by
  simp only [isDigit, Bool.and_eq_true, decide_eq_true_eq, UInt8.le_iff_toNat_le]
  exact Iff.rfl

theorem isSpace_iff {byte : UInt8} :
    isSpace byte = true ↔ byte.toNat = 32 ∨ 9 ≤ byte.toNat ∧ byte.toNat ≤ 13 := by
  simp only [isSpace, Bool.or_eq_true, Bool.and_eq_true, decide_eq_true_eq, beq_iff_eq,
    UInt8.le_iff_toNat_le, ← UInt8.toNat_inj]
  exact Iff.rfl

theorem isSpace_of_isDigit {byte : UInt8} (digit : isDigit byte = true) :
    isSpace byte = false := by
  rw [isDigit_iff] at digit
  rw [Bool.eq_false_iff, ne_eq, isSpace_iff]
  omega

theorem sign_digit {byte : UInt8} (rest : Bytes) (digit : isDigit byte = true) :
    sign (byte :: rest) = (false, byte :: rest) := by
  rw [isDigit_iff] at digit
  have minus : byte ≠ 45 := by
    intro same
    rw [same] at digit
    exact absurd digit.1 (by decide)
  have plus : byte ≠ 43 := by
    intro same
    rw [same] at digit
    exact absurd digit.1 (by decide)
  simp only [sign]
  rw [if_neg minus, if_neg plus]

theorem text_small {number : Nat} (small : number < 10) :
    text number = [UInt8.ofNat number.digitChar.toNat] := by
  unfold text
  rw [Nat.toDigits_of_lt_base small, List.map_cons, List.map_nil]

theorem text_append {number : Nat} (large : 10 ≤ number) :
    text number = text (number / 10) ++ [UInt8.ofNat (number % 10).digitChar.toNat] := by
  unfold text
  rw [Nat.toDigits_of_base_le (by decide) large, List.map_append, List.map_cons, List.map_nil]

theorem text_ne_nil (number : Nat) : text number ≠ [] := by
  unfold text
  rw [ne_eq, List.map_eq_nil_iff]
  exact Nat.toDigits_ne_nil

theorem text_digits (number : Nat) : ∀ byte ∈ text number, isDigit byte = true := by
  induction number using Nat.strong_induction_on with
  | _ number ih =>
      by_cases small : number < 10
      · intro byte member
        rw [text_small small] at member
        rw [List.mem_singleton.mp member, isDigit_iff, digit_toNat small]
        omega
      · intro byte member
        have last := Nat.mod_lt number (show 0 < 10 by decide)
        rw [text_append (Nat.le_of_not_lt small)] at member
        cases List.mem_append.mp member with
        | inl before => exact ih (number / 10) (by omega) byte before
        | inr here =>
            rw [List.mem_singleton.mp here, isDigit_iff, digit_toNat last]
            omega

theorem value_append (digits : Bytes) (digit : UInt8) :
    value (digits ++ [digit]) = 10 * value digits + (digit.toNat - 48) := by
  unfold value
  rw [List.foldl_append]
  rfl

theorem value_text (number : Nat) : value (text number) = number := by
  induction number using Nat.strong_induction_on with
  | _ number ih =>
      by_cases small : number < 10
      · rw [text_small small]
        change 10 * 0 + ((UInt8.ofNat number.digitChar.toNat).toNat - 48) = number
        rw [digit_toNat small]
        omega
      · have last := Nat.mod_lt number (show 0 < 10 by decide)
        rw [text_append (Nat.le_of_not_lt small), value_append, ih (number / 10) (by omega),
          digit_toNat last]
        omega

end Digits

section Numbers

theorem takeWhile_text (number : Nat) {rest : Bytes} (ends : Ends rest) :
    (text number ++ rest).takeWhile isDigit = text number ∧
      (text number ++ rest).dropWhile isDigit = rest := by
  rw [List.takeWhile_append_of_pos (text_digits number),
    List.dropWhile_append_of_pos (text_digits number)]
  cases rest with
  | nil => exact ⟨List.append_nil _, rfl⟩
  | cons byte rest =>
      have stop : isDigit byte = false := ends byte rfl
      rw [List.takeWhile_cons_of_neg (by rw [stop]; exact Bool.false_ne_true),
        List.dropWhile_cons_of_neg (by rw [stop]; exact Bool.false_ne_true)]
      exact ⟨List.append_nil _, rfl⟩

theorem number_text (value : Nat) {rest : Bytes} (ends : Ends rest) :
    number (text value ++ rest) = some ((value : Int), rest) := by
  obtain ⟨digits, after⟩ := takeWhile_text value ends
  have unsigned : sign (text value ++ rest) = (false, text value ++ rest) := by
    cases shape : text value with
    | nil => exact absurd shape (text_ne_nil value)
    | cons first others =>
        apply sign_digit
        apply text_digits value
        rw [shape]
        exact List.mem_cons_self
  unfold number
  simp only [unsigned, digits, after, if_neg (text_ne_nil value), value_text, Bool.false_eq_true,
    if_false]

theorem number_signed (value : Int) {rest : Bytes} (ends : Ends rest) :
    number (signed value ++ rest) = some (value, rest) := by
  cases value with
  | ofNat value => exact number_text value ends
  | negSucc value =>
      obtain ⟨digits, after⟩ := takeWhile_text (value + 1) ends
      unfold number signed
      simp only [List.cons_append, sign, if_true, digits, after, if_neg (text_ne_nil _),
        value_text]
      rfl

theorem number_length {input rest : Bytes} {value : Int}
    (read : number input = some (value, rest)) :
    ∃ front, front ≠ [] ∧ input = front ++ rest ∧
      ∀ byte ∈ front, isDigit byte = true ∨ isSign byte = true := by
  have signs : ∃ before, input = before ++ (sign input).2 ∧
      ∀ byte ∈ before, isSign byte = true := by
    cases input with
    | nil => exact ⟨[], rfl, by simp⟩
    | cons byte others =>
        simp only [sign]
        by_cases minus : byte = 45
        · rw [if_pos minus]
          refine ⟨[byte], rfl, ?_⟩
          intro other member
          rw [List.mem_singleton.mp member, minus]
          rfl
        · by_cases plus : byte = 43
          · rw [if_neg minus, if_pos plus]
            refine ⟨[byte], rfl, ?_⟩
            intro other member
            rw [List.mem_singleton.mp member, plus]
            rfl
          · rw [if_neg minus, if_neg plus]
            exact ⟨[], rfl, by simp⟩
  obtain ⟨before, split, signs⟩ := signs
  unfold number at read
  simp only at read
  by_cases empty : (sign input).2.takeWhile isDigit = []
  · rw [if_pos empty] at read
    cases read
  · rw [if_neg empty] at read
    obtain ⟨_, after⟩ := Prod.mk.inj (Option.some.inj read)
    refine ⟨before ++ (sign input).2.takeWhile isDigit, ?_, ?_, ?_⟩
    · intro none_read
      exact empty (List.append_eq_nil_iff.mp none_read).2
    · rw [← after, List.append_assoc, List.takeWhile_append_dropWhile]
      exact split
    · intro byte member
      cases List.mem_append.mp member with
      | inl here => exact Or.inr (signs byte here)
      | inr here => exact Or.inl (List.mem_takeWhile_imp here)

end Numbers

end Decimal
