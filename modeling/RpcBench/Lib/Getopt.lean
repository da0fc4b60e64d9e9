import RpcBench.Lib.ByteList
import Mathlib.Data.List.TakeWhile

/-! # `getopt_long`

The words behind the program's name, from left to right: options, their
arguments, and operands, which may stand anywhere as long as `POSIXLY_CORRECT`
is not set.  `scan` is what the calls return one after the other, `Writes` is
the grammar, and the two agree where no call returns `'?'`. -/
set_option autoImplicit false

namespace Getopt

open ByteList

structure Long where
  name : Bytes
  argument : Bool
  val : Nat
  deriving DecidableEq, Repr

structure Table where
  short : List (UInt8 × Bool)
  long : List Long
  deriving DecidableEq, Repr

/-- What a call returns, and `optarg`. -/
inductive Found where
  | option (code : Nat) (argument : Option Bytes)
  | unknown
  deriving DecidableEq, Repr

/-- The name in full, or the only one that starts so. -/
def Table.lookup (table : Table) (name : Bytes) : Option Long :=
  match table.long.find? (fun long => long.name == name) with
  | some long => some long
  | none =>
    match table.long.filter (fun long => name.isPrefixOf long.name) with
    | [long] => some long
    | _ => none

def valueOf (body : Bytes) : Option Bytes :=
  match body.dropWhile (fun byte => byte != 61) with
  | [] => none
  | _ :: value => some value

/-- A word behind `--`: what is found, and the option that awaits the next word. -/
def longWord (table : Table) (body : Bytes) : List Found × Option Nat :=
  match table.lookup (body.takeWhile fun byte => byte != 61) with
  | none => ([.unknown], none)
  | some long =>
    if long.argument then
      match valueOf body with
      | some value => ([.option long.val (some value)], none)
      | none => ([], some long.val)
    else
      match valueOf body with
      | some _ => ([.unknown], none)
      | none => ([.option long.val none], none)

def shortWord (table : Table) : Bytes → List Found × Option Nat
  | [] => ([], none)
  | letter :: rest =>
    match table.short.lookup letter with
    | none =>
      let (found, awaits) := shortWord table rest
      (.unknown :: found, awaits)
    | some false =>
      let (found, awaits) := shortWord table rest
      (.option letter.toNat none :: found, awaits)
    | some true =>
      if rest = [] then ([], some letter.toNat)
      else ([.option letter.toNat (some rest)], none)

inductive Kind where
  | operand
  | terminator
  | long (body : Bytes)
  | short (body : Bytes)
  deriving DecidableEq, Repr

def kind : Bytes → Kind
  | [] => .operand
  | first :: body =>
    if first = 45 then
      match body with
      | [] => .operand
      | second :: name =>
        if second = 45 then (if name = [] then .terminator else .long name)
        else .short (second :: name)
    else .operand

def scan (table : Table) : Option Nat → List Bytes → List Found × List Bytes
  | none, [] => ([], [])
  | some _, [] => ([.unknown], [])
  | some code, word :: words =>
    let (found, operands) := scan table none words
    (.option code (some word) :: found, operands)
  | none, word :: words =>
    match kind word with
    | .operand =>
      let (found, operands) := scan table none words
      (found, word :: operands)
    | .terminator => ([], words)
    | .long body =>
      let (here, awaits) := longWord table body
      let (found, operands) := scan table awaits words
      (here ++ found, operands)
    | .short body =>
      let (here, awaits) := shortWord table body
      let (found, operands) := scan table awaits words
      (here ++ found, operands)

/-! ## The grammar -/

/-- Letters without an argument, and at the end one with its argument or without. -/
inductive Letters (table : Table) : Bytes → List Found → Option Nat → Prop where
  | nil : Letters table [] [] none
  | flag {letter : UInt8} {rest : Bytes} {found : List Found} {awaits : Option Nat} :
      table.short.lookup letter = some false → Letters table rest found awaits →
      Letters table (letter :: rest) (.option letter.toNat none :: found) awaits
  | attached {letter : UInt8} {argument : Bytes} :
      table.short.lookup letter = some true → argument ≠ [] →
      Letters table (letter :: argument) [.option letter.toNat (some argument)] none
  | awaits {letter : UInt8} : table.short.lookup letter = some true →
      Letters table [letter] [] (some letter.toNat)

inductive Name (table : Table) : Bytes → List Found → Option Nat → Prop where
  | flag {name : Bytes} {long : Long} : table.lookup name = some long →
      long.argument = false → 61 ∉ name → Name table name [.option long.val none] none
  | attached {name argument : Bytes} {long : Long} : table.lookup name = some long →
      long.argument = true → 61 ∉ name →
      Name table (name ++ 61 :: argument) [.option long.val (some argument)] none
  | awaits {name : Bytes} {long : Long} : table.lookup name = some long →
      long.argument = true → 61 ∉ name → Name table name [] (some long.val)

/-- The words say these options, in this order, and have these operands. -/
inductive Writes (table : Table) : List Found → List Bytes → List Bytes → Prop where
  | done : Writes table [] [] []
  | terminator {word : Bytes} (operands : List Bytes) : kind word = .terminator →
      Writes table [] operands (word :: operands)
  | operand {word : Bytes} {found : List Found} {operands words : List Bytes} :
      kind word = .operand → Writes table found operands words →
      Writes table found (word :: operands) (word :: words)
  | letters {word body : Bytes} {here found : List Found} {operands words : List Bytes} :
      kind word = .short body → Letters table body here none →
      Writes table found operands words → Writes table (here ++ found) operands (word :: words)
  | lettersApart {word body argument : Bytes} {here found : List Found} {code : Nat}
      {operands words : List Bytes} :
      kind word = .short body → Letters table body here (some code) →
      Writes table found operands words →
      Writes table (here ++ .option code (some argument) :: found) operands
        (word :: argument :: words)
  | name {word body : Bytes} {here found : List Found} {operands words : List Bytes} :
      kind word = .long body → Name table body here none →
      Writes table found operands words → Writes table (here ++ found) operands (word :: words)
  | nameApart {word body argument : Bytes} {here found : List Found} {code : Nat}
      {operands words : List Bytes} :
      kind word = .long body → Name table body here (some code) →
      Writes table found operands words →
      Writes table (here ++ .option code (some argument) :: found) operands
        (word :: argument :: words)

section Grammar

variable {table : Table} {found : List Found} {awaits : Option Nat}

theorem shortWord_of_letters {body : Bytes} (letters : Letters table body found awaits) :
    shortWord table body = (found, awaits) := by
  induction letters with
  | nil => rfl
  | flag known _ ih => simp only [shortWord, known, ih]
  | attached known nonempty => simp only [shortWord, known, if_neg nonempty]
  | awaits known => simp only [shortWord, known, if_true]

/-- The letters are found as they stand, or one of them is unknown. -/
theorem letters_of_shortWord (body : Bytes) :
    ∀ found awaits, shortWord table body = (found, awaits) → Found.unknown ∉ found →
      Letters table body found awaits := by
  induction body with
  | nil =>
      intro found awaits read _
      obtain ⟨rfl, rfl⟩ := Prod.mk.inj read
      exact .nil
  | cons letter rest ih =>
      intro found awaits read clean
      simp only [shortWord] at read
      cases known : table.short.lookup letter with
      | none =>
          rw [known] at read
          obtain ⟨rfl, _⟩ := Prod.mk.inj read
          exact absurd List.mem_cons_self clean
      | some argument =>
          rw [known] at read
          cases argument with
          | false =>
              obtain ⟨rfl, rfl⟩ := Prod.mk.inj read
              apply Letters.flag known
              apply ih _ _ rfl
              intro member
              exact clean (List.mem_cons_of_mem _ member)
          | true =>
              simp only at read
              by_cases last : rest = []
              · rw [if_pos last] at read
                obtain ⟨rfl, rfl⟩ := Prod.mk.inj read
                rw [last]
                exact .awaits known
              · rw [if_neg last] at read
                obtain ⟨rfl, rfl⟩ := Prod.mk.inj read
                exact .attached known last

theorem split_name {name : Bytes} (plain : (61 : UInt8) ∉ name) (rest : Bytes) :
    (name ++ rest).takeWhile (fun byte => byte != 61) =
        name ++ rest.takeWhile (fun byte => byte != 61) ∧
      (name ++ rest).dropWhile (fun byte => byte != 61) =
        rest.dropWhile fun byte => byte != 61 := by
  have inside : ∀ byte ∈ name, (byte != 61) = true := by
    intro byte member
    apply bne_iff_ne.mpr
    intro same
    exact plain (same ▸ member)
  exact ⟨List.takeWhile_append_of_pos inside, List.dropWhile_append_of_pos inside⟩

theorem longWord_of_name {body : Bytes} (written : Name table body found awaits) :
    longWord table body = (found, awaits) := by
  cases written with
  | flag known noArgument plain =>
      obtain ⟨name, value⟩ := split_name plain []
      simp only [List.append_nil, List.takeWhile_nil, List.dropWhile_nil] at name value
      simp only [longWord, valueOf, name, value, known, noArgument, Bool.false_eq_true, if_false]
  | @attached name argument long known takes plain =>
      obtain ⟨front, value⟩ := split_name plain (61 :: argument)
      have stops : ¬((61 : UInt8) != 61) = true := by decide
      rw [List.takeWhile_cons_of_neg (p := fun byte : UInt8 => byte != 61) stops,
        List.append_nil] at front
      rw [List.dropWhile_cons_of_neg (p := fun byte : UInt8 => byte != 61) stops] at value
      simp only [longWord, valueOf, front, value, known, takes, if_true]
  | awaits known takes plain =>
      obtain ⟨name, value⟩ := split_name plain []
      simp only [List.append_nil, List.takeWhile_nil, List.dropWhile_nil] at name value
      simp only [longWord, valueOf, name, value, known, takes, if_true]

theorem name_of_longWord {body : Bytes} (read : longWord table body = (found, awaits))
    (clean : Found.unknown ∉ found) : Name table body found awaits := by
  have plain : (61 : UInt8) ∉ body.takeWhile (fun byte => byte != 61) := by
    intro member
    have kept := List.mem_takeWhile_imp member
    exact absurd kept (by decide)
  have whole := List.takeWhile_append_dropWhile (p := fun byte : UInt8 => byte != 61) (l := body)
  have stop : ∀ first ∈ (body.dropWhile fun byte => byte != 61).head?, first = 61 := by
    intro first same
    have stopped := List.head?_dropWhile_not (fun byte : UInt8 => byte != 61) body
    rw [same] at stopped
    simpa using stopped
  unfold longWord at read
  cases known : table.lookup (body.takeWhile fun byte => byte != 61) with
  | none =>
      rw [known] at read
      obtain ⟨rfl, _⟩ := Prod.mk.inj read
      exact absurd List.mem_cons_self clean
  | some long =>
      rw [known] at read
      simp only [valueOf] at read
      cases rest : body.dropWhile (fun byte => byte != 61) with
      | nil =>
          rw [rest, List.append_nil] at whole
          rw [rest] at read
          rw [whole] at known plain
          cases takes : long.argument with
          | true =>
              rw [takes, if_pos rfl] at read
              obtain ⟨rfl, rfl⟩ := Prod.mk.inj read
              exact .awaits known takes plain
          | false =>
              rw [takes, if_neg Bool.false_ne_true] at read
              obtain ⟨rfl, rfl⟩ := Prod.mk.inj read
              exact .flag known takes plain
      | cons first value =>
          rw [rest] at whole read
          have equals : first = 61 := by
            apply stop
            rw [rest]
            rfl
          rw [equals] at whole
          cases takes : long.argument with
          | true =>
              rw [takes, if_pos rfl] at read
              obtain ⟨rfl, rfl⟩ := Prod.mk.inj read
              rw [← whole]
              exact .attached known takes plain
          | false =>
              rw [takes, if_neg Bool.false_ne_true] at read
              obtain ⟨rfl, rfl⟩ := Prod.mk.inj read
              exact absurd List.mem_cons_self clean

/-- What the grammar has is found. -/
theorem scan_of_writes {operands words : List Bytes}
    (writes : Writes table found operands words) :
    scan table none words = (found, operands) := by
  induction writes with
  | done => rfl
  | terminator operands ends => simp only [scan, ends]
  | operand plain _ ih => simp only [scan, plain, ih]
  | letters short letters _ ih =>
      simp only [scan, short, shortWord_of_letters letters, ih]
  | lettersApart short letters _ ih =>
      simp only [scan, short, shortWord_of_letters letters, ih]
  | name long written _ ih =>
      simp only [scan, long, longWord_of_name written, ih]
  | nameApart long written _ ih =>
      simp only [scan, long, longWord_of_name written, ih]

/-- What is found is in the grammar, an unknown option apart. -/
theorem writes_of_scan (words : List Bytes) :
    (∀ found operands, scan table none words = (found, operands) → Found.unknown ∉ found →
        Writes table found operands words) ∧
      ∀ code found operands, scan table (some code) words = (found, operands) →
        Found.unknown ∉ found →
        ∃ argument rest found', words = argument :: rest ∧
          found = .option code (some argument) :: found' ∧ Writes table found' operands rest := by
  induction words with
  | nil =>
      constructor
      · intro found operands read _
        obtain ⟨rfl, rfl⟩ := Prod.mk.inj read
        exact .done
      · intro code found operands read clean
        obtain ⟨rfl, _⟩ := Prod.mk.inj read
        exact absurd List.mem_cons_self clean
  | cons word words ih =>
      obtain ⟨ih, ihAwaits⟩ := ih
      constructor
      · intro found operands read clean
        simp only [scan] at read
        cases what : kind word with
        | operand =>
            rw [what] at read
            obtain ⟨rfl, rfl⟩ := Prod.mk.inj read
            exact .operand what (ih _ _ rfl clean)
        | terminator =>
            rw [what] at read
            obtain ⟨rfl, rfl⟩ := Prod.mk.inj read
            exact .terminator _ what
        | long body =>
            rw [what] at read
            obtain ⟨rfl, rfl⟩ := Prod.mk.inj read
            have here : Name table body (longWord table body).1 (longWord table body).2 := by
              apply name_of_longWord rfl
              intro member
              exact clean (List.mem_append_left _ member)
            have rest : Found.unknown ∉ (scan table (longWord table body).2 words).1 := by
              intro member
              exact clean (List.mem_append_right _ member)
            cases waits : (longWord table body).2 with
            | none =>
                rw [waits] at here rest
                exact .name what here (ih _ _ rfl rest)
            | some code =>
                rw [waits] at here rest
                obtain ⟨argument, others, found', rfl, same, writes⟩ :=
                  ihAwaits code _ _ rfl rest
                simp only [same]
                exact .nameApart what here writes
        | short body =>
            rw [what] at read
            obtain ⟨rfl, rfl⟩ := Prod.mk.inj read
            have here : Letters table body (shortWord table body).1 (shortWord table body).2 := by
              apply letters_of_shortWord body _ _ rfl
              intro member
              exact clean (List.mem_append_left _ member)
            have rest : Found.unknown ∉ (scan table (shortWord table body).2 words).1 := by
              intro member
              exact clean (List.mem_append_right _ member)
            cases waits : (shortWord table body).2 with
            | none =>
                rw [waits] at here rest
                exact .letters what here (ih _ _ rfl rest)
            | some code =>
                rw [waits] at here rest
                obtain ⟨argument, others, found', rfl, same, writes⟩ :=
                  ihAwaits code _ _ rfl rest
                simp only [same]
                exact .lettersApart what here writes
      · intro code found operands read clean
        simp only [scan] at read
        obtain ⟨rfl, rfl⟩ := Prod.mk.inj read
        refine ⟨word, words, _, rfl, rfl, ih _ _ rfl ?_⟩
        intro member
        exact clean (List.mem_cons_of_mem _ member)

/-- The calls return the options of the grammar, and those of no other line. -/
theorem scan_eq_iff {operands words : List Bytes} (clean : Found.unknown ∉ found) :
    scan table none words = (found, operands) ↔ Writes table found operands words := by
  constructor
  · intro read
    exact (writes_of_scan words).1 found operands read clean
  · intro writes
    exact scan_of_writes writes

end Grammar

end Getopt
