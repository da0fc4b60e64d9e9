import RpcBench.Cpu.Snapshot

/-! # `CpuStats` and `CpuMonitor`

The thread that `--monitor-time` starts: a snapshot before and after the warmup,
then one each second until the time is over.  The warmup itself and `%.2lf` are
left out, a figure is the percentage that is printed. -/
set_option autoImplicit false

namespace RpcBench.Cpu

open ByteList Decimal

structure Files where
  procStat : Bytes
  procSelfStat : Bytes

structure CpuStats where
  prev : CpuSnapshot × SelfStat
  curr : CpuSnapshot × SelfStat

def CpuStats.snapshot (files : Files) (stats : CpuStats) : Except Stop CpuStats := do
  let curr ← Cpu.snapshot files.procStat files.procSelfStat
  return { prev := stats.curr, curr }

/-- The constructor; what it moves to `prev_` was in the memory. -/
def CpuStats.new (memory : CpuSnapshot × SelfStat) (files : Files) : Except Stop CpuStats :=
  CpuStats.snapshot files { prev := memory, curr := memory }

/-- A division of two `uint64_t` as `double`, times the processors. -/
def share (cores : UInt32) (ticks total : Nat) : Option ℚ :=
  if total = 0 then none
  else
    some (Double.round
      (Double.round (Double.round ticks / Double.round total) * cores.toNat))

/-- `CpuUtil`.  It has no value where it divides by zero. -/
def CpuStats.cpuUtil (cores : UInt32) (stats : CpuStats) : Option ℚ :=
  let u := stats.curr.2.utime - stats.prev.2.utime
  let s := stats.curr.2.stime - stats.prev.2.stime
  let t := stats.curr.1.total - stats.prev.1.total
  share cores (u + s).toNat t.toNat

def percent (util : Option ℚ) : Option ℚ := util.map fun util => Double.round (util * 100)

/-- `monitor_ms` in the nanoseconds of the clock, from the seconds as they are
cast.  Beyond some 292 years the product wraps. -/
def monitorNs (seconds : Int64) : Int64 := seconds * 1000 * 1000000

/-- The files when the second is over, and `end - start` in nanoseconds. -/
structure Tick where
  files : Files
  elapsed : Int64

inductive Ended where
  | running
  | timedOut
  | stopped (stop : Stop)
  deriving DecidableEq, Repr

def monitorLoop (cores : UInt32) (seconds : Int64) :
    CpuStats → List Tick → List (Option ℚ) × Ended
  | _, [] => ([], .running)
  | stats, tick :: ticks =>
    match stats.snapshot tick.files with
    | .error stop => ([], .stopped stop)
    | .ok stats =>
      let figure := percent (stats.cpuUtil cores)
      if tick.elapsed > monitorNs seconds then ([figure], .timedOut)
      else
        let (figures, ended) := monitorLoop cores seconds stats ticks
        (figure :: figures, ended)

def cpuMonitor (cores : UInt32) (seconds : Int64) (memory : CpuSnapshot × SelfStat)
    (first warm : Files) (ticks : List Tick) : List (Option ℚ) × Ended :=
  match CpuStats.new memory first with
  | .error stop => ([], .stopped stop)
  | .ok stats =>
    match stats.snapshot warm with
    | .error stop => ([], .stopped stop)
    | .ok stats => monitorLoop cores seconds stats ticks

/-! ## What the kernel counts -/

/-- The state of the kernel at some time, with the lines behind the first. -/
structure Reading where
  counters : CpuSnapshot
  task : Task
  others : Bytes
  fields : Bytes

namespace Reading

def files (reading : Reading) : Files where
  procStat := procStat reading.counters reading.others
  procSelfStat := procSelfStat reading.task.stat reading.fields

def stop (reading : Reading) : Option Stop := stopOf reading.task.name

def fits (reading : Reading) : Bool := reading.stop.isNone

def ticks (prev curr : Reading) : Nat :=
  increase prev.task.stat.utime curr.task.stat.utime +
    increase prev.task.stat.stime curr.task.stat.stime

def total (prev curr : Reading) : Nat :=
  increase prev.counters.user curr.counters.user +
    increase prev.counters.nice curr.counters.nice +
    increase prev.counters.sys curr.counters.sys +
    increase prev.counters.idle curr.counters.idle +
    increase prev.counters.iowait curr.counters.iowait +
    increase prev.counters.hardirq curr.counters.hardirq +
    increase prev.counters.softirq curr.counters.softirq +
    increase prev.counters.steal curr.counters.steal

/-- No counter decreases, and the process has no more time than there was. -/
structure Advances (prev curr : Reading) : Prop where
  counters : Grows prev.counters curr.counters
  utime : prev.task.stat.utime ≤ curr.task.stat.utime
  stime : prev.task.stat.stime ≤ curr.task.stat.stime
  within : prev.ticks curr ≤ prev.total curr
  small : prev.total curr < 2 ^ 64

def figure (cores : UInt32) (prev curr : Reading) : Option ℚ :=
  percent (share cores (prev.ticks curr) (prev.total curr))

end Reading

def heard (seconds : Int64) : List (Reading × Int64) → List Reading
  | [] => []
  | (reading, elapsed) :: ticks =>
    if elapsed > monitorNs seconds then [reading] else reading :: heard seconds ticks

def between {Figure : Type} (figure : Reading → Reading → Figure) :
    Reading → List Reading → List Figure
  | _, [] => []
  | prev, curr :: readings => figure prev curr :: between figure curr readings

def ticksOf (ticks : List (Reading × Int64)) : List Tick :=
  ticks.map fun tick => { files := tick.1.files, elapsed := tick.2 }

def StopsAt (stop : Stop) (readings : List Reading) : Prop :=
  ∃ front reading rest, readings = front ++ reading :: rest ∧
    (∀ other ∈ front, other.fits = true) ∧ reading.stop = some stop

section Stops

variable {reading : Reading} {readings : List Reading} {stop stop' : Stop}

theorem fits_iff : reading.fits = true ↔ reading.stop = none := Option.isNone_iff_eq_none

theorem not_fits (stops : reading.stop = some stop) : reading.fits = false := by
  rw [Reading.fits, stops]
  rfl

theorem takeWhile_stops (stops : reading.stop = some stop) :
    (reading :: readings).takeWhile Reading.fits = [] := by
  apply List.takeWhile_cons_of_neg
  rw [not_fits stops]
  exact Bool.false_ne_true

theorem stopsAt_nil : ¬StopsAt stop [] := by
  intro stops
  obtain ⟨front, reading, rest, empty, _⟩ := stops
  exact absurd empty (by simp)

theorem stopsAt_stop (stops : reading.stop = some stop') :
    StopsAt stop (reading :: readings) ↔ stop' = stop := by
  constructor
  · intro first
    obtain ⟨front, other, rest, same, fits, stopped⟩ := first
    cases front with
    | nil =>
        obtain ⟨rfl, _⟩ := List.cons.inj same
        rw [stops] at stopped
        exact Option.some.inj stopped
    | cons head front =>
        obtain ⟨rfl, _⟩ := List.cons.inj same
        have fit := fits reading List.mem_cons_self
        rw [not_fits stops] at fit
        cases fit
  · intro same
    subst same
    exact ⟨[], reading, readings, rfl, by simp, stops⟩

theorem stopsAt_fits (fits : reading.fits = true) :
    StopsAt stop (reading :: readings) ↔ StopsAt stop readings := by
  constructor
  · intro first
    obtain ⟨front, other, rest, same, others, stopped⟩ := first
    cases front with
    | nil =>
        obtain ⟨rfl, _⟩ := List.cons.inj same
        rw [not_fits stopped] at fits
        cases fits
    | cons head front =>
        obtain ⟨rfl, tail⟩ := List.cons.inj same
        exact ⟨front, other, rest, tail, (List.forall_mem_cons.mp others).2, stopped⟩
  · intro later
    obtain ⟨front, other, rest, rfl, others, stopped⟩ := later
    exact ⟨reading :: front, other, rest, rfl, List.forall_mem_cons.mpr ⟨fits, others⟩, stopped⟩

end Stops

section Figures

variable {prev curr : Reading}

theorem snapshot_files (reading : Reading) (stats : CpuStats) :
    stats.snapshot reading.files =
      match reading.stop with
      | none => .ok { prev := stats.curr, curr := (reading.counters, reading.task.stat) }
      | some stop => .error stop := by
  simp only [CpuStats.snapshot, Reading.files, snapshot_eq, Reading.stop]
  cases stopOf reading.task.name with
  | none => rfl
  | some stop => rfl

theorem Reading.Advances.cpuUtil (advances : prev.Advances curr) (cores : UInt32) :
    percent (CpuStats.cpuUtil cores
      ⟨(prev.counters, prev.task.stat), (curr.counters, curr.task.stat)⟩) =
      prev.figure cores curr := by
  have within := advances.within
  have small := advances.small
  have user := increase_add advances.counters.user
  have nice := increase_add advances.counters.nice
  have sys := increase_add advances.counters.sys
  have idle := increase_add advances.counters.idle
  have iowait := increase_add advances.counters.iowait
  have hardirq := increase_add advances.counters.hardirq
  have softirq := increase_add advances.counters.softirq
  have steal := increase_add advances.counters.steal
  have total : (curr.counters.total - prev.counters.total).toNat = prev.total curr := by
    rw [UInt64.toNat_sub, total_toNat, total_toNat]
    unfold Reading.total at *
    omega
  have utime : (curr.task.stat.utime - prev.task.stat.utime).toNat =
      increase prev.task.stat.utime curr.task.stat.utime := by
    rw [difference_toNat, if_neg (UInt64.not_lt.mpr advances.utime)]
    rfl
  have stime : (curr.task.stat.stime - prev.task.stat.stime).toNat =
      increase prev.task.stat.stime curr.task.stat.stime := by
    rw [difference_toNat, if_neg (UInt64.not_lt.mpr advances.stime)]
    rfl
  unfold CpuStats.cpuUtil Reading.figure
  simp only
  rw [UInt64.toNat_add, utime, stime, total]
  unfold Reading.ticks at *
  rw [Nat.mod_eq_of_lt (by omega)]

theorem share_bounds {cores : UInt32} {ticks total : Nat} (within : ticks ≤ total) {util : ℚ}
    (valued : share cores ticks total = some util) : 0 ≤ util ∧ util ≤ cores.toNat := by
  unfold share at valued
  have few : cores.toNat < 2 ^ 53 := Nat.lt_trans cores.toNat_lt (by decide)
  by_cases zero : total = 0
  · rw [if_pos zero] at valued
    cases valued
  · rw [if_neg zero] at valued
    rw [← Option.some.inj valued]
    refine ⟨Double.round_nonneg _, ?_⟩
    have quotient : Double.round (Double.round ticks / Double.round total) ≤ 1 := by
      rw [← Double.round_one]
      apply Double.round_mono
      apply div_le_one_of_le₀
      · apply Double.round_mono
        exact_mod_cast within
      · exact Double.round_nonneg _
    calc Double.round (Double.round (Double.round ticks / Double.round total) * cores.toNat)
        ≤ Double.round cores.toNat := by
          apply Double.round_mono
          exact mul_le_of_le_one_left (Nat.cast_nonneg cores.toNat) quotient
      _ = cores.toNat := Double.round_natCast few

theorem percent_bounds {cores : UInt32} {ticks total : Nat} (within : ticks ≤ total)
    {figure : ℚ} (printed : percent (share cores ticks total) = some figure) :
    0 ≤ figure ∧ figure ≤ cores.toNat * 100 := by
  obtain ⟨util, valued, rfl⟩ := Option.map_eq_some_iff.mp printed
  obtain ⟨_, bounded⟩ := share_bounds within valued
  have few : cores.toNat * 100 < 2 ^ 53 := by
    have small := cores.toNat_lt
    omega
  refine ⟨Double.round_nonneg _, ?_⟩
  calc Double.round (util * 100) ≤ Double.round ((cores.toNat * 100 : Nat) : ℚ) := by
        apply Double.round_mono
        push_cast
        linarith
    _ = cores.toNat * 100 := by
        rw [Double.round_natCast few]
        push_cast
        rfl

/-- The loop prints the figures of what it reads, and ends with the first name
that it cannot read or with the first reading that is late. -/
theorem monitorLoop_spec (cores : UInt32) (seconds : Int64) (ticks : List (Reading × Int64)) :
    ∀ (reading : Reading) (memory : CpuSnapshot × SelfStat),
      List.IsChain Reading.Advances (reading :: heard seconds ticks) →
      ∃ figures ended,
        monitorLoop cores seconds ⟨memory, (reading.counters, reading.task.stat)⟩
            (ticksOf ticks) = (figures, ended) ∧
          figures = between (Reading.figure cores) reading
            ((heard seconds ticks).takeWhile Reading.fits) ∧
          (∀ stop, ended = .stopped stop ↔ StopsAt stop (heard seconds ticks)) ∧
          (ended = .timedOut ↔ (∀ curr ∈ heard seconds ticks, curr.fits = true) ∧
            ∃ tick ∈ ticks, tick.2 > monitorNs seconds) := by
  induction ticks with
  | nil =>
      intro reading memory _
      refine ⟨[], .running, rfl, rfl, ?_, ?_⟩
      · intro stop
        exact iff_of_false (by simp) stopsAt_nil
      · exact iff_of_false (by simp) (by simp)
  | cons tick ticks ih =>
      intro reading memory chain
      obtain ⟨curr, elapsed⟩ := tick
      simp only [ticksOf, List.map_cons, monitorLoop, snapshot_files]
      have first : (heard seconds ((curr, elapsed) :: ticks)).head? = some curr := by
        simp only [heard]
        split
        · rfl
        · rfl
      obtain ⟨rest, head⟩ : ∃ rest, heard seconds ((curr, elapsed) :: ticks) = curr :: rest :=
        ⟨_, List.eq_cons_of_mem_head? first⟩
      cases stopped : curr.stop with
      | some stop =>
          have unread := not_fits stopped
          refine ⟨[], .stopped stop, rfl, ?_, ?_, ?_⟩
          · rw [head, takeWhile_stops stopped]
            rfl
          · intro stop'
            rw [head, stopsAt_stop stopped, Ended.stopped.injEq]
          · refine iff_of_false (by simp) ?_
            intro both
            have fit := both.1 curr (by rw [head]; exact List.mem_cons_self)
            rw [unread] at fit
            cases fit
      | none =>
          have fit : curr.fits = true := fits_iff.mpr stopped
          by_cases late : elapsed > monitorNs seconds
          · simp only [heard, if_pos late] at chain ⊢
            have advances := (List.isChain_cons_cons.mp chain).1
            refine ⟨_, _, rfl, ?_, ?_, ?_⟩
            · rw [advances.cpuUtil, List.takeWhile_cons_of_pos fit]
              rfl
            · intro stop
              rw [stopsAt_fits fit]
              exact iff_of_false (by simp) stopsAt_nil
            · refine iff_of_true rfl ⟨?_, (curr, elapsed), List.mem_cons_self, late⟩
              intro other member
              rw [List.mem_singleton.mp member]
              exact fit
          · simp only [heard, if_neg late] at chain ⊢
            obtain ⟨advances, later⟩ := List.isChain_cons_cons.mp chain
            obtain ⟨figures, ended, ran, shares, stops, timed⟩ :=
              ih curr (reading.counters, reading.task.stat) later
            simp only [ticksOf] at ran
            rw [ran]
            refine ⟨_, _, rfl, ?_, ?_, ?_⟩
            · rw [advances.cpuUtil, List.takeWhile_cons_of_pos fit, shares]
              rfl
            · intro stop
              rw [stopsAt_fits fit]
              exact stops stop
            · rw [timed, List.forall_mem_cons, List.exists_mem_cons_iff]
              simp [fit, late]

/-- Windows that are differences tile the time between the first reading and the last. -/
theorem sum_between (window : Reading → Reading → Nat) (clock : Reading → Nat)
    (differs : ∀ prev curr : Reading, prev.Advances curr →
      window prev curr + clock prev = clock curr)
    (readings : List Reading) :
    ∀ reading, List.IsChain Reading.Advances (reading :: readings) →
      (between window reading readings).sum + clock reading =
        clock ((reading :: readings).getLast (List.cons_ne_nil _ _)) := by
  induction readings with
  | nil =>
      intro reading _
      exact Nat.zero_add _
  | cons curr readings ih =>
      intro reading chain
      obtain ⟨advances, rest⟩ := List.isChain_cons_cons.mp chain
      have first := differs reading curr advances
      have others := ih curr rest
      rw [List.getLast_cons (List.cons_ne_nil curr readings), ← others]
      simp only [between, List.sum_cons]
      omega

theorem mem_between {Figure : Type} {figure : Reading → Reading → Figure} {printed : Figure}
    (readings : List Reading) :
    ∀ reading, List.IsChain Reading.Advances (reading :: readings) →
      printed ∈ between figure reading readings →
      ∃ prev curr, prev.Advances curr ∧ printed = figure prev curr := by
  induction readings with
  | nil =>
      intro reading _ member
      cases member
  | cons curr readings ih =>
      intro reading chain member
      obtain ⟨advances, rest⟩ := List.isChain_cons_cons.mp chain
      cases member with
      | head => exact ⟨reading, curr, advances, rfl⟩
      | tail _ later => exact ih curr rest later

end Figures

namespace Reading

def used (reading : Reading) : Nat :=
  reading.task.stat.utime.toNat + reading.task.stat.stime.toNat

def counted (reading : Reading) : Nat :=
  reading.counters.user.toNat + reading.counters.nice.toNat + reading.counters.sys.toNat +
    reading.counters.idle.toNat + reading.counters.iowait.toNat +
    reading.counters.hardirq.toNat + reading.counters.softirq.toNat +
    reading.counters.steal.toNat

theorem Advances.used {prev curr : Reading} (advances : prev.Advances curr) :
    prev.ticks curr + prev.used = curr.used := by
  have utime := increase_add advances.utime
  have stime := increase_add advances.stime
  unfold ticks Reading.used
  omega

theorem Advances.counted {prev curr : Reading} (advances : prev.Advances curr) :
    prev.total curr + prev.counted = curr.counted := by
  have user := increase_add advances.counters.user
  have nice := increase_add advances.counters.nice
  have sys := increase_add advances.counters.sys
  have idle := increase_add advances.counters.idle
  have iowait := increase_add advances.counters.iowait
  have hardirq := increase_add advances.counters.hardirq
  have softirq := increase_add advances.counters.softirq
  have steal := increase_add advances.counters.steal
  unfold total Reading.counted
  omega

end Reading

def read (seconds : Int64) (first warm : Reading) (ticks : List (Reading × Int64)) :
    List Reading :=
  ((first :: warm :: heard seconds ticks).takeWhile Reading.fits).drop 2

structure Monitored (cores : UInt32) (seconds : Int64) (first warm : Reading)
    (ticks : List (Reading × Int64)) (figures : List (Option ℚ)) (ended : Ended) : Prop where
  /-- a figure for each second, from the differences to the second before it -/
  shares : figures = between (Reading.figure cores) warm (read seconds first warm ticks)
  bounded : ∀ figure ∈ figures, ∀ percentage, figure = some percentage →
    0 ≤ percentage ∧ percentage ≤ cores.toNat * 100
  /-- the numerators and the denominators add up to the time after the warmup -/
  used : (between Reading.ticks warm (read seconds first warm ticks)).sum + warm.used =
    ((warm :: read seconds first warm ticks).getLast (List.cons_ne_nil _ _)).used
  counted : (between Reading.total warm (read seconds first warm ticks)).sum + warm.counted =
    ((warm :: read seconds first warm ticks).getLast (List.cons_ne_nil _ _)).counted
  stopped : ∀ stop, ended = .stopped stop ↔
    StopsAt stop (first :: warm :: heard seconds ticks)
  timedOut : ended = .timedOut ↔
    (∀ reading ∈ first :: warm :: heard seconds ticks, reading.fits = true) ∧
      ∃ tick ∈ ticks, tick.2 > monitorNs seconds

/-- The readings before a name that cannot be read are a course of the counters too. -/
theorem isChain_takeWhile (readings : List Reading) :
    ∀ reading, List.IsChain Reading.Advances (reading :: readings) →
      List.IsChain Reading.Advances (reading :: readings.takeWhile Reading.fits) := by
  induction readings with
  | nil =>
      intro reading chain
      exact chain
  | cons curr readings ih =>
      intro reading chain
      obtain ⟨advances, rest⟩ := List.isChain_cons_cons.mp chain
      by_cases fit : curr.fits = true
      · rw [List.takeWhile_cons_of_pos fit]
        exact List.isChain_cons_cons.mpr ⟨advances, ih curr rest⟩
      · rw [List.takeWhile_cons_of_neg fit]
        exact List.IsChain.singleton reading

section Read

variable {seconds : Int64} {first warm : Reading} {ticks : List (Reading × Int64)}

theorem read_fits (firstFits : first.fits = true) (warmFits : warm.fits = true) :
    read seconds first warm ticks = (heard seconds ticks).takeWhile Reading.fits := by
  rw [read, List.takeWhile_cons_of_pos firstFits, List.takeWhile_cons_of_pos warmFits]
  rfl

theorem read_chain (chain : List.IsChain Reading.Advances (warm :: heard seconds ticks)) :
    List.IsChain Reading.Advances (warm :: read seconds first warm ticks) := by
  by_cases firstFits : first.fits = true
  · by_cases warmFits : warm.fits = true
    · rw [read_fits firstFits warmFits]
      exact isChain_takeWhile _ _ chain
    · rw [read, List.takeWhile_cons_of_pos firstFits, List.takeWhile_cons_of_neg warmFits]
      exact List.IsChain.singleton warm
  · rw [read, List.takeWhile_cons_of_neg firstFits]
    exact List.IsChain.singleton warm

theorem stopped_early {readings : List Reading} {reading : Reading} {stop : Stop}
    (member : reading ∈ readings) (stops : reading.stop = some stop) {elapsed : Prop} :
    ¬((∀ other ∈ readings, other.fits = true) ∧ elapsed) := by
  intro both
  have fit := both.1 reading member
  rw [not_fits stops] at fit
  cases fit

end Read

/-- For every course of the counters the monitor prints a percentage for each
second until its time is over, and the seconds add up; it is stopped if and only
if it reads a name that `Snapshot` cannot, and by that. -/
theorem cpuMonitor_run (cores : UInt32) (seconds : Int64) (memory : CpuSnapshot × SelfStat)
    (first warm : Reading) (ticks : List (Reading × Int64))
    (chain : List.IsChain Reading.Advances (warm :: heard seconds ticks)) :
    ∃ figures ended,
      cpuMonitor cores seconds memory first.files warm.files (ticksOf ticks) =
          (figures, ended) ∧
        Monitored cores seconds first warm ticks figures ended := by
  have readChain : List.IsChain Reading.Advances (warm :: read seconds first warm ticks) :=
    read_chain chain
  have bounded : ∀ figure ∈ between (Reading.figure cores) warm (read seconds first warm ticks),
      ∀ percentage, figure = some percentage →
        0 ≤ percentage ∧ percentage ≤ cores.toNat * 100 := by
    intro figure member percentage printed
    obtain ⟨prev, curr, advances, same⟩ := mem_between _ _ readChain member
    rw [same] at printed
    exact percent_bounds advances.within printed
  have used := sum_between Reading.ticks Reading.used (fun _ _ advances => advances.used) _ _
    readChain
  have counted := sum_between Reading.total Reading.counted
    (fun _ _ advances => advances.counted) _ _ readChain
  unfold cpuMonitor CpuStats.new
  simp only [snapshot_files]
  cases firstStop : first.stop with
  | some stop =>
      have empty : read seconds first warm ticks = [] := by
        rw [read, takeWhile_stops firstStop]
        rfl
      refine ⟨[], .stopped stop, rfl, by rw [empty]; rfl, by simp, used, counted, ?_, ?_⟩
      · intro stop'
        rw [stopsAt_stop firstStop, Ended.stopped.injEq]
      · exact iff_of_false (by simp) (stopped_early List.mem_cons_self firstStop)
  | none =>
      have firstFits := fits_iff.mpr firstStop
      cases warmStop : warm.stop with
      | some stop =>
          have empty : read seconds first warm ticks = [] := by
            rw [read, List.takeWhile_cons_of_pos firstFits, takeWhile_stops warmStop]
            rfl
          refine ⟨[], .stopped stop, rfl, by rw [empty]; rfl, by simp, used, counted, ?_, ?_⟩
          · intro stop'
            rw [stopsAt_fits firstFits, stopsAt_stop warmStop, Ended.stopped.injEq]
          · exact iff_of_false (by simp)
              (stopped_early (List.mem_cons_of_mem _ List.mem_cons_self) warmStop)
      | none =>
          have warmFits := fits_iff.mpr warmStop
          obtain ⟨figures, ended, ran, shares, stops, timed⟩ :=
            monitorLoop_spec cores seconds ticks warm (first.counters, first.task.stat) chain
          rw [← read_fits firstFits warmFits] at shares
          refine ⟨figures, ended, ran, shares, ?_, used, counted, ?_, ?_⟩
          · rw [shares]
            exact bounded
          · intro stop
            rw [stopsAt_fits firstFits, stopsAt_fits warmFits]
            exact stops stop
          · rw [timed, List.forall_mem_cons, List.forall_mem_cons]
            simp only [firstFits, warmFits, true_and]

def bench (utime : UInt64) : Task where
  stat :=
    { pid := 7, comm := [40, 98, 101, 110, 99, 104, 41], state := 83, ppid := 1, pgrp := 7
      session := 7, ttyNr := 0, tpgid := -1, flag := 0, minflt := 0, cminflt := 0, majflt := 0
      cmajflt := 0, utime, stime := 1, cutime := 0, cstime := 0 }
  name := [98, 101, 110, 99, 104]
  framed := rfl
  short := by decide
  letter := rfl

def reading (counters : CpuSnapshot) (utime : UInt64) : Reading where
  counters
  task := bench utime
  others := []
  fields := []

theorem advances_bench : (reading before 1).Advances (reading after 2) := by
  constructor
  case counters =>
    constructor
    all_goals decide
  case utime => decide
  case stime => decide
  case within => decide
  case small => decide

/-- A monitor of a second, which the clock finds over. -/
theorem cpuMonitor_run_second :
    ∃ figures, cpuMonitor 4 1 (before, (bench 0).stat) (reading before 0).files
        (reading before 1).files (ticksOf [(reading after 2, 1000000001)]) = (figures, .timedOut) ∧
      figures.length = 1 := by
  have chain : List.IsChain Reading.Advances
      (reading before 1 :: heard 1 [(reading after 2, 1000000001)]) :=
    List.isChain_cons_cons.mpr ⟨advances_bench, List.IsChain.singleton _⟩
  obtain ⟨figures, ended, ran, monitored⟩ := cpuMonitor_run 4 1 (before, (bench 0).stat)
    (reading before 0) (reading before 1) [(reading after 2, 1000000001)] chain
  have late : ended = .timedOut := by
    refine monitored.timedOut.mpr ⟨?_, _, List.mem_cons_self, by decide⟩
    decide
  rw [late] at ran
  refine ⟨figures, ran, ?_⟩
  rw [monitored.shares]
  rfl

end RpcBench.Cpu
