import RpcBench.Main.CommandLine

/-! # `App::Create` and `main`

Which application a command line runs, and on which side. -/
set_option autoImplicit false

namespace RpcBench.Main

open ByteList Getopt

inductive Kind where
  | grpcBw
  | socketBw
  | brpcBw
  | zeromqBw
  | grpcLat
  | grpcTput
  | hotelReservation
  deriving DecidableEq, Repr

def bandwidth : Bytes := ascii ['b', 'a', 'n', 'd', 'w', 'i', 'd', 't', 'h']

def latency : Bytes := ascii ['l', 'a', 't', 'e', 'n', 'c', 'y']

def throughput : Bytes := ascii ['t', 'h', 'r', 'o', 'u', 'g', 'h', 'p', 'u', 't']

def hotelReservation : Bytes :=
  ascii ['h', 'o', 't', 'e', 'l', '_', 'r', 'e', 's', 'e', 'r', 'v', 'a', 't', 'i', 'o', 'n']

def grpc : Bytes := ascii ['g', 'r', 'p', 'c']

def socket : Bytes := ascii ['s', 'o', 'c', 'k', 'e', 't']

def brpc : Bytes := ascii ['b', 'r', 'p', 'c']

def zeromq : Bytes := ascii ['z', 'e', 'r', 'o', 'm', 'q']

/-- `CHECK`, the two that are `FATAL`, and `value()` of nothing. -/
inductive Death where
  | check
  | unimplemented
  | unknown (app rpc : Bytes)
  | badAccess
  deriving DecidableEq, Repr

structure App (Seconds : Type) where
  kind : Kind
  isServer : Bool
  opts : CommandOpts Seconds
  deriving DecidableEq, Repr

section Create

variable {Seconds : Type}

def App.new (opts : CommandOpts Seconds) (kind : Kind) : Except Death (Option (App Seconds)) :=
  match opts.isServer with
  | some isServer => .ok (some { kind := kind, isServer := isServer, opts := opts })
  | none => .error .badAccess

/-- `App::Create`; no application is `NULL`. -/
def App.create (opts : CommandOpts Seconds) : Except Death (Option (App Seconds)) :=
  match opts.app, opts.rpc with
  | some app, some rpc =>
    if app = bandwidth then
      if rpc = grpc then App.new opts .grpcBw
      else if rpc = socket then App.new opts .socketBw
      else if rpc = brpc then App.new opts .brpcBw
      else if rpc = zeromq then App.new opts .zeromqBw
      else .ok none
    else if app = latency then
      if rpc = grpc then App.new opts .grpcLat
      else if rpc = socket then .error .unimplemented
      else .error .unimplemented
    else if app = throughput then
      if rpc = grpc then App.new opts .grpcTput
      else .error .unimplemented
    else if app = hotelReservation then
      if rpc = grpc then App.new opts .hotelReservation
      else .error .unimplemented
    else .error (.unknown app rpc)
  | _, _ => .error .check

/-- What becomes of the program; `runs` has the thread of `CpuMonitor` beside it or not. -/
inductive Outcome (Seconds : Type) where
  | exits (status : Nat)
  | terminates
  | aborts (death : Death)
  | runsNull
  | runs (app : App Seconds) (monitor : Bool)
  deriving DecidableEq, Repr

def main (stof : Bytes → Option Seconds) (second : Seconds) (words : List Bytes) :
    Outcome Seconds :=
  match parseArgument stof second words with
  | .error .help => .exits 0
  | .error .usage => .exits 1
  | .error .exception => .terminates
  | .ok opts =>
    match App.create opts with
    | .error death => .aborts death
    | .ok none => .runsNull
    | .ok (some app) => .runs app opts.monitorTimeSec.isSome

def supported : List (Bytes × Bytes × Kind) :=
  [(bandwidth, grpc, .grpcBw), (bandwidth, socket, .socketBw), (bandwidth, brpc, .brpcBw),
    (bandwidth, zeromq, .zeromqBw), (latency, grpc, .grpcLat), (throughput, grpc, .grpcTput),
    (hotelReservation, grpc, .hotelReservation)]

theorem App.new_eq_iff (opts : CommandOpts Seconds) (kind : Kind) (app : App Seconds) :
    App.new opts kind = .ok (some app) ↔
      opts.isServer = some app.isServer ∧ app.opts = opts ∧ app.kind = kind := by
  unfold App.new
  cases opts.isServer with
  | none => simp
  | some isServer =>
      obtain ⟨kind', isServer', opts'⟩ := app
      simp only [Except.ok.injEq, Option.some.injEq, App.mk.injEq]
      constructor
      · rintro ⟨rfl, rfl, rfl⟩
        exact ⟨rfl, rfl, rfl⟩
      · rintro ⟨rfl, rfl, rfl⟩
        exact ⟨rfl, rfl, rfl⟩

theorem App.create_of_supported {opts : CommandOpts Seconds} {app rpc : Bytes} {kind : Kind}
    (named : opts.app = some app) (library : opts.rpc = some rpc)
    (known : (app, rpc, kind) ∈ supported) : App.create opts = App.new opts kind := by
  unfold App.create
  rw [named, library]
  simp only [supported, List.mem_cons, Prod.mk.injEq, List.not_mem_nil, or_false] at known
  rcases known with known | known | known | known | known | known | known
  all_goals
    obtain ⟨rfl, rfl, rfl⟩ := known
    rfl

theorem App.supported_of_create {opts : CommandOpts Seconds} {made : App Seconds}
    (created : App.create opts = .ok (some made)) :
    ∃ app rpc, opts.app = some app ∧ opts.rpc = some rpc ∧ (app, rpc, made.kind) ∈ supported ∧
      App.new opts made.kind = .ok (some made) := by
  have kept : ∀ kind, App.new opts kind = .ok (some made) → made.kind = kind := by
    intro kind built
    exact ((App.new_eq_iff opts kind made).mp built).2.2
  unfold App.create at created
  cases named : opts.app with
  | none =>
      rw [named] at created
      cases created
  | some app =>
      cases library : opts.rpc with
      | none =>
          rw [named, library] at created
          cases created
      | some rpc =>
          rw [named, library] at created
          simp only at created
          refine ⟨app, rpc, rfl, rfl, ?_⟩
          split_ifs at created
          case neg => cases created
          all_goals
            rw [kept _ created]
            subst app rpc
            exact ⟨by simp [supported], created⟩

theorem App.new_ne_none (opts : CommandOpts Seconds) (kind : Kind) :
    App.new opts kind ≠ .ok none := by
  unfold App.new
  cases opts.isServer with
  | none =>
      intro same
      cases same
  | some isServer =>
      intro same
      cases same

theorem App.create_eq_none_iff (opts : CommandOpts Seconds) :
    App.create opts = .ok none ↔
      opts.app = some bandwidth ∧ ∃ rpc, opts.rpc = some rpc ∧
        ∀ kind, (bandwidth, rpc, kind) ∉ supported := by
  constructor
  · intro created
    unfold App.create at created
    cases named : opts.app with
    | none =>
        rw [named] at created
        cases created
    | some app =>
        cases library : opts.rpc with
        | none =>
            rw [named, library] at created
            cases created
        | some rpc =>
            rw [named, library] at created
            simp only at created
            split_ifs at created with band notGrpc notSocket notBrpc notZeromq
            case neg =>
              subst band
              refine ⟨rfl, rpc, rfl, ?_⟩
              intro kind
              simp [supported, notGrpc, notSocket, notBrpc, notZeromq]
            all_goals exact absurd created (App.new_ne_none _ _)
  · rintro ⟨named, rpc, library, unknown⟩
    have others : ∀ name kind, (bandwidth, name, kind) ∈ supported → rpc ≠ name := by
      intro name kind known same
      exact unknown kind (same ▸ known)
    unfold App.create
    rw [named, library]
    simp only [if_true]
    rw [if_neg (others grpc .grpcBw (by simp [supported])),
      if_neg (others socket .socketBw (by simp [supported])),
      if_neg (others brpc .brpcBw (by simp [supported])),
      if_neg (others zeromq .zeromqBw (by simp [supported]))]

theorem host_foldl (settings : List (Setting Seconds)) :
    ∀ opts, (settings.foldl set opts).host = opts.host := by
  induction settings with
  | nil =>
      intro opts
      rfl
  | cons setting settings ih =>
      intro opts
      rw [List.foldl_cons, ih]
      cases setting <;> rfl

section Named

variable {second : Seconds} {settings : List (Setting Seconds)}

theorem app_foldl (name : Bytes) :
    (settings.foldl set (.new second)).app = some name ↔
      Settings.last Setting.field .app settings = some (.app name) := by
  apply Settings.foldl_read
  case own =>
    intro setting here
    cases setting
    case app value => exact ⟨value, rfl⟩
    all_goals cases here
  case written =>
    intro opts value
    rfl
  case kept =>
    intro opts setting other
    cases setting
    case app value => exact absurd rfl other
    all_goals rfl
  case empty => rfl

theorem rpc_foldl (name : Bytes) :
    (settings.foldl set (.new second)).rpc = some name ↔
      Settings.last Setting.field .rpc settings = some (.rpc name) := by
  apply Settings.foldl_read
  case own =>
    intro setting here
    cases setting
    case rpc value => exact ⟨value, rfl⟩
    all_goals cases here
  case written =>
    intro opts value
    rfl
  case kept =>
    intro opts setting other
    cases setting
    case rpc value => exact absurd rfl other
    all_goals rfl
  case empty => rfl

theorem monitorTime_foldl (value : Seconds) :
    (settings.foldl set (.new second)).monitorTimeSec = some value ↔
      Settings.last Setting.field .monitorTimeSec settings = some (.monitorTime value) := by
  apply Settings.foldl_read
  case own =>
    intro setting here
    cases setting
    case monitorTime value => exact ⟨value, rfl⟩
    all_goals cases here
  case written =>
    intro opts value
    rfl
  case kept =>
    intro opts setting other
    cases setting
    case monitorTime value => exact absurd rfl other
    all_goals rfl
  case empty => rfl

end Named

theorem withHost_eq_iff {opts opts' : CommandOpts Seconds} (unset : opts.host = none)
    (operands : List Bytes) :
    withHost opts operands = .ok opts' ↔
      operands = opts'.host.toList ∧
        opts' = { opts with isServer := some opts'.host.isNone, host := opts'.host } := by
  constructor
  · intro set
    match operands with
    | [] =>
        injection set with same
        subst same
        rw [unset]
        exact ⟨rfl, rfl⟩
    | [host] =>
        injection set with same
        subst same
        exact ⟨rfl, rfl⟩
    | first :: second :: rest => cases set
  · rintro ⟨rfl, same⟩
    rw [same]
    cases opts'.host with
    | none =>
        simp only [withHost, Option.toList_none, Option.isNone_none]
        rw [← unset]
    | some host => rfl

/-- The options that are returned: what the line sets, and the side. -/
theorem parsed_iff (stof : Bytes → Option Seconds) (second : Seconds) (words : List Bytes)
    (opts : CommandOpts Seconds) :
    parseArgument stof second words = .ok opts ↔
      ∃ found settings, Writes table found opts.host.toList words ∧
        Settings stof found settings ∧
        opts = { settings.foldl set (.new second) with
          isServer := some opts.host.isNone, host := opts.host } := by
  rw [parseArgument_eq_iff]
  constructor
  · rintro ⟨found, operands, settings, written, converted, hosted⟩
    obtain ⟨rfl, fields⟩ := (withHost_eq_iff (host_foldl settings _) operands).mp hosted
    exact ⟨found, settings, written, converted, fields⟩
  · rintro ⟨found, settings, written, converted, fields⟩
    refine ⟨found, _, settings, written, converted, ?_⟩
    exact (withHost_eq_iff (host_foldl settings _) _).mpr ⟨rfl, fields⟩

theorem main_of_parsed {stof : Bytes → Option Seconds} {second : Seconds} {words : List Bytes}
    {opts : CommandOpts Seconds} (parsed : parseArgument stof second words = .ok opts) :
    main stof second words =
      match App.create opts with
      | .error death => .aborts death
      | .ok none => .runsNull
      | .ok (some app) => .runs app opts.monitorTimeSec.isSome := by
  unfold main
  rw [parsed]

/-- An application, or `NULL`, comes from options that were returned. -/
theorem parsed_of_main {stof : Bytes → Option Seconds} {second : Seconds} {words : List Bytes}
    (went : (∃ app monitor, main stof second words = .runs app monitor) ∨
      main stof second words = .runsNull) :
    ∃ opts, parseArgument stof second words = .ok opts := by
  unfold main at went
  cases parsed : parseArgument stof second words with
  | ok opts => exact ⟨opts, rfl⟩
  | error stop =>
      rw [parsed] at went
      cases stop
      all_goals
        rcases went with ⟨app, monitor, went⟩ | went
        all_goals cases went

/-- The line for an application: its name and its library are the last that are
given, there is one for the two, and the operand is the host of a client. -/
structure Runs (stof : Bytes → Option Seconds) (second : Seconds) (words : List Bytes)
    (app : App Seconds) (monitor : Bool) (found : List Found)
    (settings : List (Setting Seconds)) : Prop where
  written : Writes table found app.opts.host.toList words
  converted : Settings stof found settings
  supported : ∃ name rpc, Settings.last Setting.field .app settings = some (.app name) ∧
    Settings.last Setting.field .rpc settings = some (.rpc rpc) ∧
    (name, rpc, app.kind) ∈ supported
  side : app.isServer = app.opts.host.isNone
  opts : app.opts = { settings.foldl set (.new second) with
    isServer := some app.isServer, host := app.opts.host }
  monitor : monitor = true ↔ ∃ value,
    Settings.last Setting.field .monitorTimeSec settings = some (.monitorTime value)

theorem monitored_iff {second : Seconds} {settings : List (Setting Seconds)}
    {opts : CommandOpts Seconds} {isServer : Option Bool}
    (fields : opts = { settings.foldl set (.new second) with
      isServer := isServer, host := opts.host }) :
    opts.monitorTimeSec.isSome = true ↔ ∃ value,
      Settings.last Setting.field .monitorTimeSec settings = some (.monitorTime value) := by
  have same := congrArg CommandOpts.monitorTimeSec fields
  rw [same, Option.isSome_iff_exists]
  exact exists_congr monitorTime_foldl

theorem main_eq_runs_iff (stof : Bytes → Option Seconds) (second : Seconds) (words : List Bytes)
    (app : App Seconds) (monitor : Bool) :
    main stof second words = .runs app monitor ↔
      ∃ found settings, Runs stof second words app monitor found settings := by
  constructor
  · intro runs
    obtain ⟨opts, parsed⟩ := parsed_of_main (.inl ⟨app, monitor, runs⟩)
    obtain ⟨found, settings, writes, converted, fields⟩ :=
      (parsed_iff stof second words opts).mp parsed
    rw [main_of_parsed parsed] at runs
    cases created : App.create opts with
    | error death =>
        rw [created] at runs
        cases runs
    | ok made =>
        cases made with
        | none =>
            rw [created] at runs
            cases runs
        | some made =>
            rw [created] at runs
            injection runs with same monitored
            subst same monitored
            obtain ⟨name, rpc, named, library, known, built⟩ := App.supported_of_create created
            obtain ⟨sided, kept, _⟩ := (App.new_eq_iff opts made.kind made).mp built
            subst kept
            have side : made.isServer = made.opts.host.isNone :=
              Option.some.inj (sided.symm.trans (congrArg CommandOpts.isServer fields))
            have last_app := (app_foldl name).mp
              ((congrArg CommandOpts.app fields).symm.trans named)
            have last_rpc := (rpc_foldl rpc).mp
              ((congrArg CommandOpts.rpc fields).symm.trans library)
            refine ⟨found, settings, writes, converted, ⟨name, rpc, last_app, last_rpc, known⟩,
              side, ?_, monitored_iff fields⟩
            rw [side]
            exact fields
  · rintro ⟨found, settings, runs⟩
    obtain ⟨name, rpc, last_app, last_rpc, known⟩ := runs.supported
    have parsed : parseArgument stof second words = .ok app.opts := by
      apply (parsed_iff stof second words app.opts).mpr
      refine ⟨found, settings, runs.written, runs.converted, ?_⟩
      rw [← runs.side]
      exact runs.opts
    have named := (congrArg CommandOpts.app runs.opts).trans ((app_foldl name).mpr last_app)
    have library := (congrArg CommandOpts.rpc runs.opts).trans ((rpc_foldl rpc).mpr last_rpc)
    have built : App.new app.opts app.kind = .ok (some app) :=
      (App.new_eq_iff app.opts app.kind app).mpr
        ⟨congrArg CommandOpts.isServer runs.opts, rfl, rfl⟩
    have monitored : app.opts.monitorTimeSec.isSome = monitor := by
      rw [Bool.eq_iff_iff, monitored_iff runs.opts]
      exact runs.monitor.symm
    rw [main_of_parsed parsed, App.create_of_supported named library known, built]
    simp only [monitored]

/-- `NULL` is run where an operand at most is given, and `bandwidth` with a library
that there is no application for. -/
theorem main_eq_runsNull_iff (stof : Bytes → Option Seconds) (second : Seconds)
    (words : List Bytes) :
    main stof second words = .runsNull ↔
      ∃ (host : Option Bytes) (found : List Found) (settings : List (Setting Seconds))
        (rpc : Bytes), Writes table found host.toList words ∧ Settings stof found settings ∧
        Settings.last Setting.field .app settings = some (.app bandwidth) ∧
        Settings.last Setting.field .rpc settings = some (.rpc rpc) ∧
        ∀ kind, (bandwidth, rpc, kind) ∉ supported := by
  constructor
  · intro runs
    obtain ⟨opts, parsed⟩ := parsed_of_main (.inr runs)
    obtain ⟨found, settings, written, converted, fields⟩ :=
      (parsed_iff stof second words opts).mp parsed
    rw [main_of_parsed parsed] at runs
    have created : App.create opts = .ok none := by
      cases created : App.create opts with
      | error death =>
          rw [created] at runs
          cases runs
      | ok made =>
          cases made with
          | none => rfl
          | some made =>
              rw [created] at runs
              cases runs
    obtain ⟨named, rpc, library, unknown⟩ := (App.create_eq_none_iff opts).mp created
    exact ⟨opts.host, found, settings, rpc, written, converted,
      (app_foldl bandwidth).mp ((congrArg CommandOpts.app fields).symm.trans named),
      (rpc_foldl rpc).mp ((congrArg CommandOpts.rpc fields).symm.trans library), unknown⟩
  · rintro ⟨host, found, settings, rpc, written, converted, last_app, last_rpc, unknown⟩
    have parsed := (parsed_iff stof second words { settings.foldl set (.new second) with
      isServer := some host.isNone, host := host }).mpr
        ⟨found, settings, written, converted, rfl⟩
    have created := (App.create_eq_none_iff { settings.foldl set (.new second) with
      isServer := some host.isNone, host := host }).mpr
        ⟨(app_foldl bandwidth).mpr last_app, rpc, (rpc_foldl rpc).mpr last_rpc, unknown⟩
    rw [main_of_parsed parsed, created]

/-- The order of the options, their spelling and what is overridden later do not
matter. -/
theorem main_eq_of_last (stof : Bytes → Option Seconds) (second : Seconds)
    {words words' : List Bytes} {found found' : List Found} {operands : List Bytes}
    {settings settings' : List (Setting Seconds)} (written : Writes table found operands words)
    (written' : Writes table found' operands words') (converted : Settings stof found settings)
    (converted' : Settings stof found' settings')
    (agree : ∀ field, Settings.last Setting.field field settings =
      Settings.last Setting.field field settings') :
    main stof second words = main stof second words' := by
  have same : settings.foldl set (.new second) = settings'.foldl set (.new second) :=
    cells.foldl_eq settings.length settings settings' _ le_rfl agree
  have parsed : parseArgument stof second words = parseArgument stof second words' := by
    unfold parseArgument
    rw [scan_of_writes written, scan_of_writes written']
    have all := (setAll_eq_iff stof found (.new second) _).mpr ⟨settings, converted, rfl⟩
    have all' := (setAll_eq_iff stof found' (.new second) _).mpr ⟨settings', converted', rfl⟩
    simp only [all, all', same]
  unfold main
  rw [parsed]

/-- `-a bandwidth -r grpc -p 5 h` and `h --port=4 --rpc grpc --app=bandwidth --po 5`. -/
theorem main_eq_of_last_spellings :
    main (fun _ => none) 1
        [ascii ['-', 'a'], bandwidth, ascii ['-', 'r'], grpc, ascii ['-', 'p'], ascii ['5'],
          ascii ['h']] =
      main (fun _ => none) (1 : Nat)
        [ascii ['h'], ascii ['-', '-', 'p', 'o', 'r', 't', '=', '4'],
          ascii ['-', '-', 'r', 'p', 'c'], grpc,
          ascii ['-', '-', 'a', 'p', 'p', '='] ++ bandwidth, ascii ['-', '-', 'p', 'o'],
          ascii ['5']] := by
  have written : Writes table
      [.option 97 (some bandwidth), .option 114 (some grpc), .option 112 (some [53])] [[104]]
      [ascii ['-', 'a'], bandwidth, ascii ['-', 'r'], grpc, ascii ['-', 'p'], ascii ['5'],
        ascii ['h']] := (scan_eq_iff (by simp)).mp rfl
  have written' : Writes table
      [.option 112 (some [52]), .option 114 (some grpc), .option 97 (some bandwidth),
        .option 112 (some [53])] [[104]]
      [ascii ['h'], ascii ['-', '-', 'p', 'o', 'r', 't', '=', '4'],
        ascii ['-', '-', 'r', 'p', 'c'], grpc,
        ascii ['-', '-', 'a', 'p', 'p', '='] ++ bandwidth, ascii ['-', '-', 'p', 'o'],
        ascii ['5']] := (scan_eq_iff (by simp)).mp rfl
  apply main_eq_of_last (fun _ => none) 1 written written'
  case converted => exact .cons rfl (.cons rfl (.cons rfl .nil))
  case converted' => exact .cons rfl (.cons rfl (.cons rfl (.cons rfl .nil)))
  case agree =>
    intro field
    cases field <;> rfl

end Create

end RpcBench.Main
