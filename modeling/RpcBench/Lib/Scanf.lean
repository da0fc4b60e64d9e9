import RpcBench.Lib.Decimal

/-! # `fscanf`

The directives of a format against the bytes of a file.  There is no result
where a word is too long for its array: what follows is undefined. -/
set_option autoImplicit false

namespace Scanf

open ByteList Decimal

inductive IntegerType where
  | signed (bits : Nat)
  | unsigned (bits : Nat)
  deriving DecidableEq, Repr

/-- `%d`, `%u`, `%ld` and `%lu` are `integer`, `%s` into an array is `word`. -/
inductive Directive where
  | space
  | literal (byte : UInt8)
  | integer (type : IntegerType)
  | word (size : Nat)
  | char
  deriving DecidableEq, Repr

inductive Value where
  | integer (value : Int)
  | word (bytes : Bytes)
  | char (byte : UInt8)
  deriving DecidableEq, Repr

/-- What is stored for a number that the type may not have: glibc bounds it to 64
bits, as `strtol` and `strtoul` do, and keeps the lower ones. -/
def IntegerType.store : IntegerType → Int → Int
  | .signed bits, value => (max (-2 ^ 63) (min value (2 ^ 63 - 1))).bmod (2 ^ bits)
  | .unsigned bits, value =>
    (if value.natAbs < 2 ^ 64 then value else 2 ^ 64 - 1) % 2 ^ bits

theorem store_signed {bits : Nat} {value : Int} (narrow : bits + 1 ≤ 64)
    (lower : -2 ^ bits ≤ value) (upper : value < 2 ^ bits) :
    (IntegerType.signed (bits + 1)).store value = value := by
  have width : (2 : Int) ^ bits ≤ 2 ^ 63 := by
    exact_mod_cast Nat.pow_le_pow_right Nat.two_pos (Nat.le_of_succ_le_succ narrow)
  have clamped : max (-2 ^ 63) (min value (2 ^ 63 - 1)) = value := by omega
  have double : ((2 ^ (bits + 1) : Nat) : Int) = 2 * 2 ^ bits := by
    push_cast
    rw [pow_succ, mul_comm]
  simp only [IntegerType.store]
  rw [clamped]
  apply Int.bmod_eq_of_le
  · rw [double]
    omega
  · rw [double]
    omega

theorem store_unsigned {bits number : Nat} (narrow : bits ≤ 64) (small : number < 2 ^ bits) :
    (IntegerType.unsigned bits).store number = (number : Int) := by
  have bounded : number < 2 ^ 64 :=
    Nat.lt_of_lt_of_le small (Nat.pow_le_pow_right Nat.two_pos narrow)
  have small' : (number : Int) < 2 ^ bits := by exact_mod_cast small
  simp only [IntegerType.store]
  rw [Int.natAbs_natCast, if_pos bounded, Int.emod_eq_of_lt (Int.natCast_nonneg _) small']

def skip (input : Bytes) : Bytes := input.dropWhile isSpace

/-- The values that are assigned before the first directive that does not match. -/
def scan : List Directive → Bytes → Option (List Value)
  | [], _ => some []
  | .space :: format, input => scan format (skip input)
  | .literal byte :: format, input =>
    if input.head? = some byte then scan format input.tail else some []
  | .integer type :: format, input =>
    match number (skip input) with
    | none => some []
    | some (value, rest) => do
      let values ← scan format rest
      return .integer (type.store value) :: values
  | .word size :: format, input =>
    let bytes := (skip input).takeWhile fun byte => !isSpace byte
    if bytes = [] then some []
    else if bytes.length < size then do
      let values ← scan format ((skip input).dropWhile fun byte => !isSpace byte)
      return .word bytes :: values
    else none
  | .char :: format, input =>
    match input with
    | [] => some []
    | byte :: rest => do
      let values ← scan format rest
      return .char byte :: values

section Skipping

variable {byte : UInt8} {rest input : Bytes}

theorem skip_space (space : isSpace byte = true) : skip (byte :: rest) = skip rest :=
  List.dropWhile_cons_of_pos space

theorem skip_stop (stop : isSpace byte = false) : skip (byte :: rest) = byte :: rest :=
  List.dropWhile_cons_of_neg (by rw [stop]; exact Bool.false_ne_true)

theorem skip_skip (input : Bytes) : skip (skip input) = skip input := by
  induction input with
  | nil => rfl
  | cons first rest ih =>
      by_cases space : isSpace first = true
      · rw [skip_space space, ih]
      · rw [skip_stop (Bool.eq_false_iff.mpr space), skip_stop (Bool.eq_false_iff.mpr space)]

theorem skip_before (front rest : Bytes) (stop : isSpace byte = false) :
    ∃ kept, skip (front ++ byte :: rest) = kept ++ byte :: rest ∧
      kept.length ≤ front.length := by
  induction front with
  | nil => exact ⟨[], skip_stop stop, Nat.le_refl 0⟩
  | cons first front ih =>
      by_cases space : isSpace first = true
      · obtain ⟨kept, same, shorter⟩ := ih
        refine ⟨kept, ?_, Nat.le_succ_of_le shorter⟩
        rw [List.cons_append, skip_space space]
        exact same
      · exact ⟨first :: front, skip_stop (Bool.eq_false_iff.mpr space), Nat.le_refl _⟩

theorem skip_signed (value : Int) (rest : Bytes) :
    skip (signed value ++ rest) = signed value ++ rest := by
  have unsigned : ∀ number : Nat, skip (text number ++ rest) = text number ++ rest := by
    intro number
    cases shape : text number with
    | nil => exact absurd shape (text_ne_nil number)
    | cons first others =>
        apply skip_stop
        apply isSpace_of_isDigit
        apply text_digits number
        rw [shape]
        exact List.mem_cons_self
  cases value with
  | ofNat number => exact unsigned number
  | negSucc number => exact skip_stop rfl

end Skipping

section Scanning

theorem scan_space (format : List Directive) (input : Bytes) :
    scan (.space :: format) input = scan format (skip input) := rfl

theorem scan_literal (format : List Directive) (byte : UInt8) (rest : Bytes) :
    scan (.literal byte :: format) (byte :: rest) = scan format rest := by
  simp only [scan, List.head?_cons, List.tail_cons, if_true]

theorem scan_char (format : List Directive) (byte : UInt8) (rest : Bytes) :
    scan (.char :: format) (byte :: rest) =
      (scan format rest).map fun values => .char byte :: values := by
  simp only [scan]
  cases scan format rest with
  | none => rfl
  | some values => rfl

theorem scan_spaces (format : List Directive) (input : Bytes) :
    scan (.space :: format) (32 :: input) = scan (.space :: format) input := by
  rw [scan_space, scan_space, skip_space rfl]

theorem scan_integer (format : List Directive) {type : IntegerType} {value : Int}
    (fits : type.store value = value) {rest : Bytes} (ends : Ends rest) :
    scan (.integer type :: format) (signed value ++ rest) =
      (scan format rest).map fun values => .integer value :: values := by
  simp only [scan, skip_signed, number_signed value ends, fits]
  cases scan format rest with
  | none => rfl
  | some values => rfl

def integers (types : List IntegerType) : List Directive :=
  types.flatMap fun type => [.space, .integer type]

def line (values : List Int) : Bytes := values.flatMap fun value => 32 :: signed value

theorem line_ends (values : List Int) {rest : Bytes} (ends : Ends rest) :
    Ends (line values ++ rest) := by
  cases values with
  | nil => exact ends
  | cons value values =>
      intro byte first
      rw [← Option.some.inj first]
      rfl

theorem scan_integers (types : List IntegerType) {rest : Bytes} (ends : Ends rest) :
    ∀ values : List Int, List.Forall₂ (fun type value => type.store value = value)
        types values →
      scan (integers types) (line values ++ rest) = some (values.map Value.integer) := by
  induction types with
  | nil =>
      intro values fits
      cases fits
      rfl
  | cons type types ih =>
      intro values fits
      cases fits with
      | @cons _ value _ values fit fits =>
          have next := ih values fits
          have written : line (value :: values) ++ rest =
              32 :: (signed value ++ (line values ++ rest)) := by
            simp only [line, List.flatMap_cons, List.cons_append, List.append_assoc]
          have directives : integers (type :: types) =
              .space :: .integer type :: integers types := rfl
          rw [written, directives, scan_spaces, scan_space, skip_signed,
            scan_integer _ fit (line_ends values ends), next]
          rfl

theorem scan_integers_isSome (types : List IntegerType) :
    ∀ input : Bytes, ∃ values, scan (integers types) input = some values := by
  induction types with
  | nil =>
      intro input
      exact ⟨[], rfl⟩
  | cons type types ih =>
      intro input
      have directives : integers (type :: types) =
          .space :: .integer type :: integers types := rfl
      rw [directives, scan_space]
      simp only [scan]
      cases number (skip (skip input)) with
      | none => exact ⟨[], rfl⟩
      | some found =>
          obtain ⟨values, read⟩ := ih found.2
          exact ⟨.integer (type.store found.1) :: values, by simp only [read]; rfl⟩

/-- Numbers do not get past a byte that is in none, and the bytes before it are
not enough for all of them. -/
theorem scan_blocked {byte : UInt8} (solid : isSpace byte = false)
    (noDigit : isDigit byte = false) (noSign : isSign byte = false) (rest : Bytes)
    (types : List IntegerType) :
    ∀ (front : Bytes) (values : List Value), front.length < types.length →
      scan (integers types) (front ++ byte :: rest) = some values →
      values.length < types.length := by
  induction types with
  | nil =>
      intro front values short _
      exact absurd short (Nat.not_lt_zero _)
  | cons type types ih =>
      intro front values short scanned
      obtain ⟨kept, skipped, shorter⟩ := skip_before front rest solid
      have directives : integers (type :: types) =
          .space :: .integer type :: integers types := rfl
      rw [directives] at scanned
      simp only [scan] at scanned
      rw [skip_skip, skipped] at scanned
      cases read : number (kept ++ byte :: rest) with
      | none =>
          rw [read] at scanned
          rw [← Option.some.inj scanned]
          exact Nat.succ_pos _
      | some found =>
          obtain ⟨value, after⟩ := found
          obtain ⟨taken, nonempty, split, parts⟩ := number_length read
          have positive : 0 < taken.length := List.length_pos_iff.mpr nonempty
          -- the number ends before the byte
          have inside : ∃ left, kept = taken ++ left ∧ after = left ++ byte :: rest := by
            rcases List.append_eq_append_iff.mp split with ⟨middle, past, tail⟩ | ⟨left, here, tail⟩
            · cases middle with
              | nil =>
                  rw [List.append_nil] at past
                  refine ⟨[], ?_, ?_⟩
                  · rw [past, List.append_nil]
                  · exact tail.symm
              | cons first middle =>
                  obtain ⟨same, _⟩ := List.cons.inj tail
                  have member : byte ∈ taken := by
                    rw [past, same]
                    exact List.mem_append_right _ List.mem_cons_self
                  rcases parts byte member with digit | isSigned
                  · rw [noDigit] at digit
                    cases digit
                  · rw [noSign] at isSigned
                    cases isSigned
            · exact ⟨left, here, tail⟩
          obtain ⟨left, keptEq, afterEq⟩ := inside
          rw [read] at scanned
          simp only at scanned
          obtain ⟨others, more, scanned⟩ := Option.bind_eq_some_iff.mp scanned
          rw [afterEq] at more
          have lengths : kept.length = taken.length + left.length := by
            rw [keptEq, List.length_append]
          rw [List.length_cons] at short
          have fewer := ih left others (by omega) more
          rw [← Option.some.inj scanned, List.length_cons, List.length_cons]
          omega

/-- A word ends at the next space, and has to leave room for a zero. -/
theorem scan_word (format : List Directive) (size : Nat) {first space : UInt8}
    {bytes : Bytes} (rest : Bytes) (starts : isSpace first = false)
    (solid : ∀ byte ∈ bytes, isSpace byte = false) (stops : isSpace space = true) :
    scan (.word size :: format) (first :: bytes ++ space :: rest) =
      if bytes.length + 1 < size then
        (scan format (space :: rest)).map fun values => .word (first :: bytes) :: values
      else none := by
  have inside : ∀ byte ∈ first :: bytes, (!isSpace byte) = true := by
    intro byte member
    cases member with
    | head => rw [starts]; rfl
    | tail _ later => rw [solid byte later]; rfl
  have outside : ¬(!isSpace space) = true := by
    rw [stops]
    exact Bool.false_ne_true
  have read : (first :: bytes ++ space :: rest).takeWhile (fun byte => !isSpace byte) =
      first :: bytes := by
    rw [List.takeWhile_append_of_pos inside,
      List.takeWhile_cons_of_neg (p := fun byte => !isSpace byte) outside, List.append_nil]
  have left : (first :: bytes ++ space :: rest).dropWhile (fun byte => !isSpace byte) =
      space :: rest := by
    rw [List.dropWhile_append_of_pos inside,
      List.dropWhile_cons_of_neg (p := fun byte => !isSpace byte) outside]
  have skipped : skip (first :: bytes ++ space :: rest) = first :: bytes ++ space :: rest :=
    skip_stop starts
  simp only [scan]
  rw [skipped, read, left, if_neg (List.cons_ne_nil first bytes), List.length_cons]
  split
  · cases scan format (space :: rest) with
    | none => rfl
    | some values => rfl
  · rfl

end Scanning

end Scanf
