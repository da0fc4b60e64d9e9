import RpcBench.Lib.Decimal
import RpcBench.Lib.Getopt
import RpcBench.Lib.Settings

/-! # `ParseArgument`

The options of `rpc_bench`, with `POSIXLY_CORRECT` unset.  Words are bytes;
`std::stof` and the type of its results are parameters, since nothing here
computes with them. -/
set_option autoImplicit false

namespace RpcBench.Main

open ByteList Decimal Getopt

def ascii (chars : List Char) : Bytes := chars.map fun char => UInt8.ofNat char.toNat

/-- `CommandOpts`.  `time_duration_sec` is a `double` that gets an `int`. -/
structure CommandOpts (Seconds : Type) where
  isServer : Option Bool
  host : Option Bytes
  port : Int32
  app : Option Bytes
  rpc : Option Bytes
  proto : Option Bytes
  dataSize : UInt64
  concurrency : Int32
  thread : Int32
  persistent : Bool
  timeDurationSec : Int32
  monitorTimeSec : Option Seconds
  monitorWarmupSec : Seconds
  deriving DecidableEq, Repr

/-- The constructor; `second` is `kDefaultWarmupTimeSec`. -/
def CommandOpts.new {Seconds : Type} (second : Seconds) : CommandOpts Seconds where
  isServer := none
  host := none
  port := 18000
  app := none
  rpc := none
  proto := none
  dataSize := 0
  concurrency := 32
  thread := 1
  persistent := false
  timeDurationSec := 10
  monitorTimeSec := none
  monitorWarmupSec := second

/-- `"hp:a:r:P:d:C:T:t:"` and `long_options`. -/
def table : Table where
  short :=
    [(104, false), (112, true), (97, true), (114, true), (80, true), (100, true), (67, true),
      (84, true), (116, true)]
  long :=
    [{ name := ascii ['h', 'e', 'l', 'p'], argument := false, val := 104 },
      { name := ascii ['p', 'o', 'r', 't'], argument := true, val := 112 },
      { name := ascii ['a', 'p', 'p'], argument := true, val := 97 },
      { name := ascii ['r', 'p', 'c'], argument := true, val := 114 },
      { name := ascii ['p', 'r', 'o', 't', 'o'], argument := true, val := 80 },
      { name := ascii ['d', 'a', 't', 'a'], argument := true, val := 100 },
      { name := ascii ['c', 'o', 'n', 'c', 'u', 'r', 'r', 'e', 'n', 'c', 'y'], argument := true
        val := 67 },
      { name := ascii ['t', 'h', 'r', 'e', 'a', 'd'], argument := true, val := 84 },
      { name := ascii ['p', 'e', 'r', 's', 'i', 's', 't', 'e', 'n', 't'], argument := false
        val := 1000 },
      { name := ascii ['t', 'i', 'm', 'e'], argument := true, val := 116 },
      { name := ascii ['m', 'o', 'n', 'i', 't', 'o', 'r', '-', 't', 'i', 'm', 'e']
        argument := true, val := 1002 },
      { name := ascii ['w', 'a', 'r', 'm', 'u', 'p'], argument := true, val := 1001 }]

/-- Why the options are not returned: `exit(0)`, the usage and status 1, or an
exception that nobody catches. -/
inductive Stop where
  | help
  | usage
  | exception
  deriving DecidableEq, Repr

inductive Setting (Seconds : Type) where
  | port (value : Int32)
  | app (value : Bytes)
  | rpc (value : Bytes)
  | proto (value : Bytes)
  | data (value : UInt64)
  | concurrency (value : Int32)
  | thread (value : Int32)
  | persistent
  | time (value : Int32)
  | monitorTime (value : Seconds)
  | warmup (value : Seconds)
  deriving DecidableEq, Repr

inductive Field where
  | port
  | app
  | rpc
  | proto
  | dataSize
  | concurrency
  | thread
  | persistent
  | timeDurationSec
  | monitorTimeSec
  | monitorWarmupSec
  deriving DecidableEq, Repr

section Parse

variable {Seconds : Type}

def Setting.field : Setting Seconds → Field
  | .port _ => .port
  | .app _ => .app
  | .rpc _ => .rpc
  | .proto _ => .proto
  | .data _ => .dataSize
  | .concurrency _ => .concurrency
  | .thread _ => .thread
  | .persistent => .persistent
  | .time _ => .timeDurationSec
  | .monitorTime _ => .monitorTimeSec
  | .warmup _ => .monitorWarmupSec

def set (opts : CommandOpts Seconds) : Setting Seconds → CommandOpts Seconds
  | .port value => { opts with port := value }
  | .app value => { opts with app := some value }
  | .rpc value => { opts with rpc := some value }
  | .proto value => { opts with proto := some value }
  | .data value => { opts with dataSize := value }
  | .concurrency value => { opts with concurrency := value }
  | .thread value => { opts with thread := value }
  | .persistent => { opts with persistent := true }
  | .time value => { opts with timeDurationSec := value }
  | .monitorTime value => { opts with monitorTimeSec := some value }
  | .warmup value => { opts with monitorWarmupSec := value }

/-- What follows the number is ignored; it throws without a number, and where an
`int` cannot hold it. -/
def stoi (word : Bytes) : Option Int32 :=
  match number (word.dropWhile isSpace) with
  | none => none
  | some (value, _) =>
    if -(2 ^ 31) ≤ value ∧ value < 2 ^ 31 then some (Int32.ofInt value) else none

def converted {Value : Type} (value : Option Value) (setting : Value → Setting Seconds) :
    Except Stop (Setting Seconds) :=
  match value with
  | some value => .ok (setting value)
  | none => .error .exception

def convert (stof : Bytes → Option Seconds) : Found → Except Stop (Setting Seconds)
  | .option 104 _ => .error .help
  | .option 112 (some optarg) => converted (stoi optarg) .port
  | .option 97 (some optarg) => .ok (.app optarg)
  | .option 114 (some optarg) => .ok (.rpc optarg)
  | .option 80 (some optarg) => .ok (.proto optarg)
  | .option 100 (some optarg) =>
    converted (stoi optarg) fun value => .data (UInt64.ofInt value.toInt)
  | .option 67 (some optarg) => converted (stoi optarg) .concurrency
  | .option 84 (some optarg) => converted (stoi optarg) .thread
  | .option 1000 _ => .ok .persistent
  | .option 1002 (some optarg) => converted (stof optarg) .monitorTime
  | .option 1001 (some optarg) => converted (stof optarg) .warmup
  | .option 116 (some optarg) => converted (stoi optarg) .time
  | _ => .error .usage

def setAll (stof : Bytes → Option Seconds) :
    List Found → CommandOpts Seconds → Except Stop (CommandOpts Seconds)
  | [], opts => .ok opts
  | found :: rest, opts => do
    let setting ← convert stof found
    setAll stof rest (set opts setting)

def withHost (opts : CommandOpts Seconds) : List Bytes → Except Stop (CommandOpts Seconds)
  | [] => .ok { opts with isServer := some true }
  | [host] => .ok { opts with isServer := some false, host := some host }
  | _ => .error .usage

def parseArgument (stof : Bytes → Option Seconds) (second : Seconds) (words : List Bytes) :
    Except Stop (CommandOpts Seconds) := do
  let (found, operands) := scan table none words
  let opts ← setAll stof found (.new second)
  withHost opts operands

def Settings (stof : Bytes → Option Seconds) (found : List Found)
    (settings : List (Setting Seconds)) : Prop :=
  List.Forall₂ (fun found setting => convert stof found = .ok setting) found settings

theorem setAll_eq_iff (stof : Bytes → Option Seconds) (found : List Found) :
    ∀ opts opts', setAll stof found opts = .ok opts' ↔
      ∃ settings, Settings stof found settings ∧ opts' = settings.foldl set opts := by
  induction found with
  | nil =>
      intro opts opts'
      constructor
      · intro same
        injection same with same
        exact ⟨[], .nil, same.symm⟩
      · intro made
        obtain ⟨settings, none_left, same⟩ := made
        cases none_left
        rw [same]
        rfl
  | cons first rest ih =>
      intro opts opts'
      constructor
      · intro done
        simp only [setAll] at done
        cases here : convert stof first with
        | error stop =>
            rw [here] at done
            cases done
        | ok setting =>
            rw [here] at done
            obtain ⟨settings, others, same⟩ := (ih (set opts setting) opts').mp done
            exact ⟨setting :: settings, .cons here others, same⟩
      · intro made
        obtain ⟨settings, all, same⟩ := made
        cases all with
        | @cons _ setting _ settings here others =>
            simp only [setAll, here]
            exact (ih (set opts setting) opts').mpr ⟨settings, others, same⟩

theorem Settings.clean {stof : Bytes → Option Seconds} {found : List Found}
    {settings : List (Setting Seconds)} (made : Settings stof found settings) :
    Found.unknown ∉ found := by
  induction made with
  | nil => exact List.not_mem_nil
  | cons here _ ih =>
      intro member
      cases member with
      | head => cases here
      | tail _ later => exact ih later

/-- The options that are returned are those of a line of the grammar that can be
converted, and has one operand at most. -/
theorem parseArgument_eq_iff (stof : Bytes → Option Seconds) (second : Seconds)
    (words : List Bytes) (opts : CommandOpts Seconds) :
    parseArgument stof second words = .ok opts ↔
      ∃ found operands settings, Writes table found operands words ∧
        Settings stof found settings ∧
        withHost (settings.foldl set (.new second)) operands = .ok opts := by
  unfold parseArgument
  constructor
  · intro parsed
    cases scanned : scan table none words with
    | mk found operands =>
        rw [scanned] at parsed
        cases all : setAll stof found (.new second) with
        | error stop =>
            simp only [all] at parsed
            cases parsed
        | ok opts' =>
            simp only [all] at parsed
            obtain ⟨settings, made, same⟩ := (setAll_eq_iff stof found _ _).mp all
            rw [same] at parsed
            exact ⟨found, operands, settings, (scan_eq_iff made.clean).mp scanned, made, parsed⟩
  · intro written
    obtain ⟨found, operands, settings, writes, made, parsed⟩ := written
    have all := (setAll_eq_iff stof found (.new second) _).mpr ⟨settings, made, rfl⟩
    rw [scan_of_writes writes]
    simp only [all]
    exact parsed

theorem cells : Settings.Cells (@Setting.field Seconds) set := by
  constructor
  case commutes =>
    intro opts first second different
    cases first <;> cases second <;> first
      | rfl
      | exact absurd rfl different
  case overrides =>
    intro opts first second same
    cases first <;> cases second <;> first
      | rfl
      | exact absurd same Field.noConfusion

end Parse

end RpcBench.Main
