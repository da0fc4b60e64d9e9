import RpcBench.Cpu.CpuStat
import RpcBench.Lib.Scanf

/-! # `CpuSnapshot::Snapshot`

The two formats against what the kernel writes to `/proc/stat` and to
`/proc/self/stat`.  A file name cannot be wrong there, so `fopen` is left out. -/
set_option autoImplicit false

namespace RpcBench.Cpu

open ByteList Decimal Scanf

/-- What is read from `/proc/self/stat`. -/
@[ext] structure SelfStat where
  pid : Int32
  comm : Bytes
  state : UInt8
  ppid : Int32
  pgrp : Int32
  session : Int32
  ttyNr : Int32
  tpgid : Int32
  flag : UInt32
  minflt : UInt64
  cminflt : UInt64
  majflt : UInt64
  cmajflt : UInt64
  utime : UInt64
  stime : UInt64
  cutime : Int64
  cstime : Int64
  deriving DecidableEq, Repr

/-- `" cpu %lu %lu %lu %lu %lu %lu %lu %lu %lu %lu"` -/
def procStatFormat : List Directive :=
  .space :: .literal 99 :: .literal 112 :: .literal 117 ::
    integers (List.replicate 10 (.unsigned 64))

def procSelfStatTypes : List IntegerType :=
  [.signed 32, .signed 32, .signed 32, .signed 32, .signed 32, .unsigned 32, .unsigned 64,
    .unsigned 64, .unsigned 64, .unsigned 64, .unsigned 64, .unsigned 64, .signed 64, .signed 64]

/-- `"%d %s %c %d %d %d %d %d %u %lu %lu %lu %lu %lu %lu %ld %ld"`, with `comm`
an array of 16 + 1. -/
def procSelfStatFormat : List Directive :=
  .integer (.signed 32) :: .space :: .word (16 + 1) :: .space :: .char ::
    integers procSelfStatTypes

inductive Stop where
  /-- a check fails, which aborts the program -/
  | aborted
  /-- bytes behind the end of `comm` are written -/
  | undefined
  deriving DecidableEq, Repr

def fscanf (format : List Directive) (input : Bytes) : Except Stop (List Value) :=
  match scan format input with
  | some values => .ok values
  | none => .error .undefined

/-- `CHECK(nread == 10)` -/
def cpuCounters : List Value → Except Stop CpuSnapshot
  | [.integer user, .integer nice, .integer sys, .integer idle, .integer iowait,
      .integer hardirq, .integer softirq, .integer steal, .integer guest, .integer guestNice] =>
    .ok
      { user := .ofNat user.toNat, nice := .ofNat nice.toNat, sys := .ofNat sys.toNat
        idle := .ofNat idle.toNat, iowait := .ofNat iowait.toNat, hardirq := .ofNat hardirq.toNat
        softirq := .ofNat softirq.toNat, steal := .ofNat steal.toNat, guest := .ofNat guest.toNat
        guestNice := .ofNat guestNice.toNat }
  | _ => .error .aborted

/-- `CHECK(nread == 17)` -/
def selfFields : List Value → Except Stop SelfStat
  | [.integer pid, .word comm, .char state, .integer ppid, .integer pgrp, .integer session,
      .integer ttyNr, .integer tpgid, .integer flag, .integer minflt, .integer cminflt,
      .integer majflt, .integer cmajflt, .integer utime, .integer stime, .integer cutime,
      .integer cstime] =>
    .ok
      { pid := .ofInt pid, comm, state, ppid := .ofInt ppid, pgrp := .ofInt pgrp
        session := .ofInt session, ttyNr := .ofInt ttyNr, tpgid := .ofInt tpgid
        flag := .ofNat flag.toNat, minflt := .ofNat minflt.toNat, cminflt := .ofNat cminflt.toNat
        majflt := .ofNat majflt.toNat, cmajflt := .ofNat cmajflt.toNat
        utime := .ofNat utime.toNat, stime := .ofNat stime.toNat, cutime := .ofInt cutime
        cstime := .ofInt cstime }
  | _ => .error .aborted

def snapshot (procStat procSelfStat : Bytes) : Except Stop (CpuSnapshot × SelfStat) := do
  let counters ← cpuCounters (← fscanf procStatFormat procStat)
  let fields ← selfFields (← fscanf procSelfStatFormat procSelfStat)
  return (counters, fields)

/-! ## What the kernel writes -/

def isLetter (byte : UInt8) : Bool := 65 ≤ byte && byte ≤ 90 || 97 ≤ byte && byte ≤ 122

/-- A process: its name has 15 bytes at most and stands in parentheses, its
state is a letter. -/
structure Task where
  stat : SelfStat
  name : Bytes
  framed : stat.comm = 40 :: (name ++ [41])
  short : name.length ≤ 15
  letter : isLetter stat.state = true

def CpuSnapshot.counters (counters : CpuSnapshot) : List Int :=
  [counters.user.toNat, counters.nice.toNat, counters.sys.toNat, counters.idle.toNat,
    counters.iowait.toNat, counters.hardirq.toNat, counters.softirq.toNat, counters.steal.toNat,
    counters.guest.toNat, counters.guestNice.toNat]

def SelfStat.numbers (stat : SelfStat) : List Int :=
  [stat.ppid.toInt, stat.pgrp.toInt, stat.session.toInt, stat.ttyNr.toInt, stat.tpgid.toInt,
    stat.flag.toNat, stat.minflt.toNat, stat.cminflt.toNat, stat.majflt.toNat,
    stat.cmajflt.toNat, stat.utime.toNat, stat.stime.toNat, stat.cutime.toInt, stat.cstime.toInt]

/-- The line of all processors, with two spaces after its name, and the lines
behind it. -/
def procStat (counters : CpuSnapshot) (others : Bytes) : Bytes :=
  99 :: 112 :: 117 :: 32 :: (line counters.counters ++ 10 :: others)

def procSelfStat (stat : SelfStat) (others : Bytes) : Bytes :=
  signed stat.pid.toInt ++ 32 :: (stat.comm ++ 32 :: stat.state ::
    (line stat.numbers ++ 32 :: others))

section Reading

theorem store_int32 (number : Int32) :
    (IntegerType.signed 32).store number.toInt = number.toInt :=
  store_signed (by decide) number.le_toInt number.toInt_lt

theorem store_int64 (number : Int64) :
    (IntegerType.signed 64).store number.toInt = number.toInt :=
  store_signed (by decide) number.le_toInt number.toInt_lt

theorem scan_procStat (counters : CpuSnapshot) (others : Bytes) :
    scan procStatFormat (procStat counters others) =
      some (counters.counters.map Value.integer) := by
  have fits : List.Forall₂ (fun type value => type.store value = value)
      (List.replicate 10 (IntegerType.unsigned 64)) counters.counters := by
    refine .cons ?_ (.cons ?_ (.cons ?_ (.cons ?_ (.cons ?_ (.cons ?_ (.cons ?_ (.cons ?_
      (.cons ?_ (.cons ?_ .nil)))))))))
    all_goals exact store_unsigned (by decide) (UInt64.toNat_lt _)
  have read := scan_integers (List.replicate 10 (IntegerType.unsigned 64))
    (ends_cons others (show isDigit 10 = false from rfl)) counters.counters fits
  rw [← read]
  unfold procStatFormat procStat
  rw [scan_space, skip_stop (show isSpace 99 = false from rfl), scan_literal, scan_literal,
    scan_literal]
  exact scan_spaces _ _

theorem cpuCounters_counters (counters : CpuSnapshot) :
    cpuCounters (counters.counters.map Value.integer) = .ok counters := by
  simp only [CpuSnapshot.counters, List.map_cons, List.map_nil, cpuCounters, Int.toNat_natCast,
    UInt64.ofNat_toNat]

theorem selfFields_numbers (stat : SelfStat) :
    selfFields (.integer stat.pid.toInt :: .word stat.comm :: .char stat.state ::
      stat.numbers.map Value.integer) = .ok stat := by
  simp only [SelfStat.numbers, List.map_cons, List.map_nil, selfFields, Int.toNat_natCast,
    UInt64.ofNat_toNat, UInt32.ofNat_toNat, Int32.ofInt_toInt, Int64.ofInt_toInt]

theorem selfFields_short {values : List Value} (short : values.length ≠ 17) :
    selfFields values = .error .aborted := by
  unfold selfFields
  split
  · exact absurd rfl short
  · rfl

theorem letter_spec {byte : UInt8} (letter : isLetter byte = true) :
    isSpace byte = false ∧ isDigit byte = false ∧ isSign byte = false := by
  simp only [isLetter, Bool.or_eq_true, Bool.and_eq_true, decide_eq_true_eq,
    UInt8.le_iff_toNat_le] at letter
  have lower : (65 : UInt8).toNat = 65 := rfl
  have small : (97 : UInt8).toNat = 97 := rfl
  refine ⟨?_, ?_, ?_⟩
  · rw [Bool.eq_false_iff, ne_eq, isSpace_iff]
    omega
  · rw [Bool.eq_false_iff, ne_eq, isDigit_iff]
    omega
  · rw [Bool.eq_false_iff]
    intro sign
    simp only [isSign, Bool.or_eq_true, beq_iff_eq, ← UInt8.toNat_inj] at sign
    have plus : (43 : UInt8).toNat = 43 := rfl
    have minus : (45 : UInt8).toNat = 45 := rfl
    omega

theorem scan_pid (stat : SelfStat) {name : Bytes} (framed : stat.comm = 40 :: (name ++ [41]))
    (others : Bytes) :
    scan procSelfStatFormat (procSelfStat stat others) =
      (scan (.word 17 :: .space :: .char :: integers procSelfStatTypes)
        (40 :: (name ++ 41 :: 32 :: stat.state :: (line stat.numbers ++ 32 :: others)))).map
          fun values => .integer stat.pid.toInt :: values := by
  unfold procSelfStatFormat procSelfStat
  rw [scan_integer _ (store_int32 stat.pid) (ends_cons _ rfl), scan_spaces, framed, scan_space]
  simp only [List.cons_append, List.append_assoc, List.nil_append]
  rw [skip_stop (show isSpace 40 = false from rfl)]

/-- A name without a space is read if `comm` has room for it. -/
theorem scan_solid (task : Task) (others : Bytes)
    (solid : ∀ byte ∈ task.name, isSpace byte = false) :
    scan procSelfStatFormat (procSelfStat task.stat others) =
      if task.name.length ≤ 14 then
        some (.integer task.stat.pid.toInt :: .word task.stat.comm :: .char task.stat.state ::
          task.stat.numbers.map Value.integer)
      else none := by
  have fits : List.Forall₂ (fun type value => type.store value = value)
      procSelfStatTypes task.stat.numbers := by
    refine .cons (store_int32 _) (.cons (store_int32 _) (.cons (store_int32 _)
      (.cons (store_int32 _) (.cons (store_int32 _) (.cons ?_ (.cons ?_ (.cons ?_ (.cons ?_
        (.cons ?_ (.cons ?_ (.cons ?_ (.cons (store_int64 _) (.cons (store_int64 _)
          .nil)))))))))))))
    · exact store_unsigned (by decide) (UInt32.toNat_lt _)
    all_goals exact store_unsigned (by decide) (UInt64.toNat_lt _)
  have numbers := scan_integers procSelfStatTypes
    (ends_cons others (show isDigit 32 = false from rfl)) task.stat.numbers fits
  have framed : ∀ byte ∈ task.name ++ [41], isSpace byte = false := by
    intro byte member
    cases List.mem_append.mp member with
    | inl here => exact solid byte here
    | inr last =>
        rw [List.mem_singleton.mp last]
        rfl
  have word := scan_word (.space :: .char :: integers procSelfStatTypes) 17
    (task.stat.state :: (line task.stat.numbers ++ 32 :: others))
    (show isSpace 40 = false from rfl) framed (show isSpace 32 = true from rfl)
  have rest : scan (.space :: .char :: integers procSelfStatTypes)
      (32 :: task.stat.state :: (line task.stat.numbers ++ 32 :: others)) =
      some (.char task.stat.state :: task.stat.numbers.map Value.integer) := by
    rw [scan_spaces, scan_space, skip_stop (letter_spec task.letter).1, scan_char, numbers]
    rfl
  simp only [List.cons_append, List.append_assoc, List.nil_append] at word
  rw [scan_pid task.stat task.framed, word, rest, List.length_append, List.length_singleton,
    task.framed]
  by_cases room : task.name.length ≤ 14
  · rw [if_pos (by omega), if_pos room]
    rfl
  · rw [if_neg (by omega), if_neg room]
    rfl

/-- A name with a space cuts `%s` short, `%c` gets one byte of what is left, and
the numbers do not get past the parenthesis or the state. -/
theorem scan_spaced (task : Task) (others : Bytes)
    (spaced : ∃ byte ∈ task.name, isSpace byte = true) :
    ∃ values, scan procSelfStatFormat (procSelfStat task.stat others) = some values ∧
      values.length ≠ 17 := by
  obtain ⟨space, member, isSpaced⟩ := spaced
  obtain ⟨token, stop, after, split, stops, solid⟩ : ∃ token stop after,
      task.name = token ++ stop :: after ∧ isSpace stop = true ∧
        ∀ byte ∈ token, isSpace byte = false := by
    have some_left : task.name.dropWhile (fun byte => !isSpace byte) ≠ [] := by
      intro none_left
      have all := List.dropWhile_eq_nil_iff.mp none_left space member
      rw [isSpaced] at all
      exact Bool.false_ne_true all
    obtain ⟨stop, after, shape⟩ := List.exists_cons_of_ne_nil some_left
    refine ⟨task.name.takeWhile (fun byte => !isSpace byte), stop, after, ?_, ?_, ?_⟩
    · rw [← shape, List.takeWhile_append_dropWhile]
    · have first := List.head?_dropWhile_not (fun byte => !isSpace byte) task.name
      rw [shape] at first
      simpa using first
    · intro byte inside
      have kept := List.mem_takeWhile_imp inside
      simpa using kept
  have short := task.short
  rw [split, List.length_append, List.length_cons] at short
  have word := scan_word (.space :: .char :: integers procSelfStatTypes) 17
    (after ++ 41 :: 32 :: task.stat.state ::
      (line task.stat.numbers ++ 32 :: others))
    (show isSpace 40 = false from rfl) solid stops
  rw [if_pos (by omega)] at word
  rw [scan_pid task.stat task.framed, split]
  simp only [List.cons_append, List.append_assoc] at word ⊢
  rw [word]
  obtain ⟨kept, skipped, shorter⟩ := skip_before after
    (32 :: task.stat.state :: (line task.stat.numbers ++ 32 :: others))
    (show isSpace 41 = false from rfl)
  rw [scan_space, skip_space stops, skipped]
  have letter := letter_spec task.letter
  have types : procSelfStatTypes.length = 14 := rfl
  cases kept with
  | nil =>
      obtain ⟨numbers, read⟩ := scan_integers_isSome procSelfStatTypes
        (32 :: task.stat.state :: (line task.stat.numbers ++ 32 :: others))
      have fewer := scan_blocked letter.1 letter.2.1 letter.2.2
        (line task.stat.numbers ++ 32 :: others) procSelfStatTypes [32] numbers (by decide)
        read
      rw [List.nil_append, scan_char, read]
      refine ⟨_, rfl, ?_⟩
      simp only [List.length_cons]
      omega
  | cons first kept =>
      rw [List.length_cons] at shorter
      obtain ⟨numbers, read⟩ := scan_integers_isSome procSelfStatTypes
        (kept ++ 41 :: 32 :: task.stat.state :: (line task.stat.numbers ++ 32 :: others))
      have fewer := scan_blocked (show isSpace 41 = false from rfl)
        (show isDigit 41 = false from rfl) (show isSign 41 = false from rfl)
        (32 :: task.stat.state :: (line task.stat.numbers ++ 32 :: others))
        procSelfStatTypes kept numbers (by omega) read
      rw [List.cons_append, scan_char, read]
      refine ⟨_, rfl, ?_⟩
      simp only [List.length_cons]
      omega

end Reading

/-- What a name stops: one with white space cannot be read, one of 15 bytes has
no room in `comm`. -/
def stopOf (name : Bytes) : Option Stop :=
  if name.any isSpace = true then some .aborted
  else if name.length ≤ 14 then none
  else some .undefined

/-- For every process and all counters: the snapshot is what the kernel had, if
and only if the name can be read. -/
theorem snapshot_eq (counters : CpuSnapshot) (task : Task) (stats fields : Bytes) :
    snapshot (procStat counters stats) (procSelfStat task.stat fields) =
      match stopOf task.name with
      | none => .ok (counters, task.stat)
      | some stop => .error stop := by
  unfold snapshot fscanf stopOf
  rw [scan_procStat]
  simp only [bind, Except.bind, cpuCounters_counters]
  by_cases spaced : task.name.any isSpace = true
  · obtain ⟨values, scanned, short⟩ := scan_spaced task fields (List.any_eq_true.mp spaced)
    rw [if_pos spaced, scanned]
    simp only [selfFields_short short]
  · have solid : ∀ byte ∈ task.name, isSpace byte = false := by
      intro byte member
      rw [Bool.eq_false_iff]
      intro space
      exact spaced (List.any_eq_true.mpr ⟨byte, member, space⟩)
    rw [if_neg spaced, scan_solid task fields solid]
    by_cases room : task.name.length ≤ 14
    · rw [if_pos room, if_pos room]
      simp only [selfFields_numbers]
      rfl
    · rw [if_neg room, if_neg room]

end RpcBench.Cpu
