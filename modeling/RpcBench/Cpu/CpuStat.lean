import RpcBench.Lib.Double

/-! # `cpu_stat.{h,cc}`: the interval between two snapshots

The counters of `/proc/stat` and the differences between them are `uint64_t`
and wrap.  Of a snapshot only these counters are modelled; what is read from
`/proc/self/stat` has no part in the interval. -/
set_option autoImplicit false

namespace RpcBench.Cpu

@[ext] structure CpuSnapshot where
  user : UInt64
  nice : UInt64
  sys : UInt64
  idle : UInt64
  iowait : UInt64
  hardirq : UInt64
  softirq : UInt64
  steal : UInt64
  guest : UInt64
  guestNice : UInt64
  deriving DecidableEq, Repr

/-- `guest` and `guest_nice` are in `user` and `nice` already. -/
def CpuSnapshot.total (snapshot : CpuSnapshot) : UInt64 :=
  snapshot.user + snapshot.nice + snapshot.sys + snapshot.idle + snapshot.iowait +
    snapshot.hardirq + snapshot.softirq + snapshot.steal

/-- The update of `ishift` for a counter and the guest counter that it includes. -/
def guestShift (prev prevGuest curr currGuest ishift : UInt64) : UInt64 :=
  if curr - currGuest < prev - prevGuest then
    ishift + ((prev - prevGuest) - (curr - currGuest))
  else ishift

def getCpuInterval (prev curr : CpuSnapshot) : UInt64 :=
  let ishift := guestShift prev.user prev.guest curr.user curr.guest 0
  let ishift := guestShift prev.nice prev.guestNice curr.nice curr.guestNice ishift
  curr.total - prev.total + ishift

/-- `AverageIdle`.  It has no value where the check fails, and none where it
divides by zero. -/
def averageIdle (prev curr : CpuSnapshot) : Option ℚ :=
  if curr.idle = 0 then none
  else if curr.idle < prev.idle then some 0
  else if getCpuInterval prev curr = 0 then none
  else
    some (Double.round (Double.round (curr.idle - prev.idle).toNat /
      Double.round (getCpuInterval prev curr).toNat))

def increase (prev curr : UInt64) : Nat := curr.toNat - prev.toNat

structure Grows (prev curr : CpuSnapshot) : Prop where
  user : prev.user ≤ curr.user
  nice : prev.nice ≤ curr.nice
  sys : prev.sys ≤ curr.sys
  idle : prev.idle ≤ curr.idle
  iowait : prev.iowait ≤ curr.iowait
  hardirq : prev.hardirq ≤ curr.hardirq
  softirq : prev.softirq ≤ curr.softirq
  steal : prev.steal ≤ curr.steal
  guest : prev.guest ≤ curr.guest
  guestNice : prev.guestNice ≤ curr.guestNice

/-- What the eight counters have gained, with the greater of two where one is
to include the other. -/
def elapsed (prev curr : CpuSnapshot) : Nat :=
  max (increase prev.user curr.user) (increase prev.guest curr.guest) +
    max (increase prev.nice curr.nice) (increase prev.guestNice curr.guestNice) +
    increase prev.sys curr.sys + increase prev.idle curr.idle +
    increase prev.iowait curr.iowait + increase prev.hardirq curr.hardirq +
    increase prev.softirq curr.softirq + increase prev.steal curr.steal

def Aligned (prev prevGuest curr currGuest : UInt64) : Prop :=
  prev < prevGuest ↔ curr < currGuest

instance (prev prevGuest curr currGuest : UInt64) :
    Decidable (Aligned prev prevGuest curr currGuest) :=
  inferInstanceAs (Decidable (_ ↔ _))

/-- What the code counts for a counter and the guest counter that it includes. -/
def counted (prev prevGuest curr currGuest : UInt64) : Nat :=
  if Aligned prev prevGuest curr currGuest then
    max (increase prev curr) (increase prevGuest currGuest)
  else min (increase prev curr) (increase prevGuest currGuest)

section Interval

variable {prev curr : CpuSnapshot}

theorem difference_toNat (left right : UInt64) :
    (left - right).toNat =
      if left < right then left.toNat + 2 ^ 64 - right.toNat else left.toNat - right.toNat := by
  have leftLt := left.toNat_lt
  have rightLt := right.toNat_lt
  rw [UInt64.toNat_sub]
  split
  · next wraps =>
      have less := UInt64.lt_iff_toNat_lt.mp wraps
      omega
  · next stays =>
      have notLess := mt UInt64.lt_iff_toNat_lt.mpr stays
      omega

/-- The shift grows by what the first difference is above the second. -/
theorem guestShift_toNat (prev prevGuest curr currGuest ishift : UInt64) :
    (guestShift prev prevGuest curr currGuest ishift).toNat =
      (ishift.toNat + ((prev - prevGuest).toNat - (curr - currGuest).toNat)) % 2 ^ 64 := by
  unfold guestShift
  split
  · next less =>
      have notLess : ¬prev - prevGuest < curr - currGuest := UInt64.lt_asymm less
      rw [UInt64.toNat_add, difference_toNat (prev - prevGuest), if_neg notLess]
  · next notLess =>
      have none_above := mt UInt64.lt_iff_toNat_lt.mpr notLess
      rw [Nat.sub_eq_zero_of_le (Nat.le_of_not_lt none_above), Nat.add_zero,
        Nat.mod_eq_of_lt ishift.toNat_lt]

/-- With the shift the increase of the counter is what is counted. -/
theorem guestShift_spec {prev prevGuest curr currGuest : UInt64} (ishift : UInt64)
    (grows : prev ≤ curr) (guestGrows : prevGuest ≤ currGuest) :
    (increase prev curr + (guestShift prev prevGuest curr currGuest ishift).toNat) % 2 ^ 64 =
      (counted prev prevGuest curr currGuest + ishift.toNat) % 2 ^ 64 := by
  have currLt := curr.toNat_lt
  have currGuestLt := currGuest.toNat_lt
  rw [UInt64.le_iff_toNat_le] at grows guestGrows
  rw [guestShift_toNat, Nat.add_mod_mod, difference_toNat, difference_toNat]
  unfold counted increase
  by_cases prevAhead : prev < prevGuest
  · have ahead := UInt64.lt_iff_toNat_lt.mp prevAhead
    rw [if_pos prevAhead]
    by_cases currAhead : curr < currGuest
    · have ahead' := UInt64.lt_iff_toNat_lt.mp currAhead
      have aligned : Aligned prev prevGuest curr currGuest := iff_of_true prevAhead currAhead
      rw [if_pos currAhead, if_pos aligned]
      congr 1
      omega
    · have behind' := mt UInt64.lt_iff_toNat_lt.mpr currAhead
      have skewed : ¬Aligned prev prevGuest curr currGuest :=
        fun aligned => currAhead (aligned.mp prevAhead)
      rw [if_neg currAhead, if_neg skewed]
      omega
  · have behind := mt UInt64.lt_iff_toNat_lt.mpr prevAhead
    rw [if_neg prevAhead]
    by_cases currAhead : curr < currGuest
    · have ahead' := UInt64.lt_iff_toNat_lt.mp currAhead
      have skewed : ¬Aligned prev prevGuest curr currGuest :=
        fun aligned => prevAhead (aligned.mpr currAhead)
      rw [if_pos currAhead, if_neg skewed]
      congr 1
      omega
    · have behind' := mt UInt64.lt_iff_toNat_lt.mpr currAhead
      have aligned : Aligned prev prevGuest curr currGuest := iff_of_false prevAhead currAhead
      rw [if_neg currAhead, if_pos aligned]
      congr 1
      omega

theorem counted_le (prev prevGuest curr currGuest : UInt64) :
    counted prev prevGuest curr currGuest ≤
      max (increase prev curr) (increase prevGuest currGuest) := by
  unfold counted
  split
  · exact Nat.le_refl _
  · exact Nat.le_trans (Nat.min_le_left _ _) (Nat.le_max_left _ _)

/-- The greater increase is counted if and only if neither counter has passed the
other. -/
theorem counted_eq_max_iff {prev prevGuest curr currGuest : UInt64} (grows : prev ≤ curr)
    (guestGrows : prevGuest ≤ currGuest) :
    counted prev prevGuest curr currGuest =
        max (increase prev curr) (increase prevGuest currGuest) ↔
      Aligned prev prevGuest curr currGuest := by
  unfold counted
  by_cases aligned : Aligned prev prevGuest curr currGuest
  · rw [if_pos aligned]
    exact iff_of_true rfl aligned
  · rw [if_neg aligned]
    refine iff_of_false ?_ aligned
    intro same
    apply aligned
    unfold Aligned
    rw [UInt64.le_iff_toNat_le] at grows guestGrows
    rw [UInt64.lt_iff_toNat_lt, UInt64.lt_iff_toNat_lt]
    unfold increase at same
    omega

theorem increase_add {prev curr : UInt64} (grows : prev ≤ curr) :
    prev.toNat + increase prev curr = curr.toNat :=
  Nat.add_sub_of_le (UInt64.le_iff_toNat_le.mp grows)

theorem total_toNat (snapshot : CpuSnapshot) :
    snapshot.total.toNat =
      (snapshot.user.toNat + snapshot.nice.toNat + snapshot.sys.toNat + snapshot.idle.toNat +
        snapshot.iowait.toNat + snapshot.hardirq.toNat + snapshot.softirq.toNat +
        snapshot.steal.toNat) % 2 ^ 64 := by
  simp only [CpuSnapshot.total, UInt64.toNat_add, Nat.mod_add_mod]

def countedInterval (prev curr : CpuSnapshot) : Nat :=
  counted prev.user prev.guest curr.user curr.guest +
    counted prev.nice prev.guestNice curr.nice curr.guestNice +
    increase prev.sys curr.sys + increase prev.idle curr.idle +
    increase prev.iowait curr.iowait + increase prev.hardirq curr.hardirq +
    increase prev.softirq curr.softirq + increase prev.steal curr.steal

theorem getCpuInterval_toNat (grows : Grows prev curr) :
    (getCpuInterval prev curr).toNat = countedInterval prev curr % 2 ^ 64 := by
  have user := guestShift_spec 0 grows.user grows.guest
  have nice := guestShift_spec (guestShift prev.user prev.guest curr.user curr.guest 0)
    grows.nice grows.guestNice
  have zero : (0 : UInt64).toNat = 0 := rfl
  rw [zero, Nat.add_zero] at user
  have userGrows := increase_add grows.user
  have niceGrows := increase_add grows.nice
  have sysGrows := increase_add grows.sys
  have idleGrows := increase_add grows.idle
  have iowaitGrows := increase_add grows.iowait
  have hardirqGrows := increase_add grows.hardirq
  have softirqGrows := increase_add grows.softirq
  have stealGrows := increase_add grows.steal
  unfold getCpuInterval countedInterval
  simp only
  generalize guestShift prev.user prev.guest curr.user curr.guest 0 = ishift at *
  generalize guestShift prev.nice prev.guestNice curr.nice curr.guestNice ishift = ishift' at *
  rw [UInt64.toNat_add, UInt64.toNat_sub, total_toNat, total_toNat]
  omega

theorem countedInterval_le (prev curr : CpuSnapshot) :
    countedInterval prev curr ≤ elapsed prev curr := by
  have user := counted_le prev.user prev.guest curr.user curr.guest
  have nice := counted_le prev.nice prev.guestNice curr.nice curr.guestNice
  unfold countedInterval elapsed
  omega

/-- The interval is what has elapsed if and only if no guest counter has passed, or
been passed by, the counter that is to include it. -/
theorem getCpuInterval_eq_iff (grows : Grows prev curr) (fits : elapsed prev curr < 2 ^ 64) :
    (getCpuInterval prev curr).toNat = elapsed prev curr ↔
      Aligned prev.user prev.guest curr.user curr.guest ∧
        Aligned prev.nice prev.guestNice curr.nice curr.guestNice := by
  have user := counted_le prev.user prev.guest curr.user curr.guest
  have nice := counted_le prev.nice prev.guestNice curr.nice curr.guestNice
  have le := countedInterval_le prev curr
  rw [getCpuInterval_toNat grows, Nat.mod_eq_of_lt (Nat.lt_of_le_of_lt le fits),
    ← counted_eq_max_iff grows.user grows.guest, ← counted_eq_max_iff grows.nice grows.guestNice]
  unfold countedInterval elapsed
  constructor
  · intro same
    constructor
    · omega
    · omega
  · intro both
    rw [both.1, both.2]

theorem idle_le_elapsed (prev curr : CpuSnapshot) :
    increase prev.idle curr.idle ≤ elapsed prev curr := by
  unfold elapsed
  omega

theorem eq_of_increase {prev curr : UInt64} (grows : prev ≤ curr)
    (still : increase prev curr = 0) : prev = curr := by
  have sum := increase_add grows
  apply UInt64.toNat_inj.mp
  omega

theorem elapsed_pos (grows : Grows prev curr) (advanced : prev ≠ curr) :
    0 < elapsed prev curr := by
  apply Nat.pos_of_ne_zero
  intro none_elapsed
  apply advanced
  unfold elapsed at none_elapsed
  apply CpuSnapshot.ext
  case user => exact eq_of_increase grows.user (by omega)
  case nice => exact eq_of_increase grows.nice (by omega)
  case sys => exact eq_of_increase grows.sys (by omega)
  case idle => exact eq_of_increase grows.idle (by omega)
  case iowait => exact eq_of_increase grows.iowait (by omega)
  case hardirq => exact eq_of_increase grows.hardirq (by omega)
  case softirq => exact eq_of_increase grows.softirq (by omega)
  case steal => exact eq_of_increase grows.steal (by omega)
  case guest => exact eq_of_increase grows.guest (by omega)
  case guestNice => exact eq_of_increase grows.guestNice (by omega)

theorem averageIdle_share (grows : Grows prev curr) (snapped : curr.idle ≠ 0)
    (covers : increase prev.idle curr.idle ≤ (getCpuInterval prev curr).toNat)
    (positive : 0 < (getCpuInterval prev curr).toNat) :
    ∃ share, averageIdle prev curr = some share ∧ 0 ≤ share ∧ share ≤ 1 := by
  have nonzero : getCpuInterval prev curr ≠ 0 := by
    intro zero
    rw [zero] at positive
    exact absurd positive (Nat.lt_irrefl 0)
  have difference : (curr.idle - prev.idle).toNat = increase prev.idle curr.idle := by
    rw [difference_toNat, if_neg (UInt64.not_lt.mpr grows.idle)]
    rfl
  unfold averageIdle
  rw [if_neg snapped, if_neg (UInt64.not_lt.mpr grows.idle), if_neg nonzero, difference]
  refine ⟨_, rfl, Double.round_nonneg _, ?_⟩
  rw [← Double.round_one]
  apply Double.round_mono
  apply div_le_one_of_le₀
  · apply Double.round_mono
    exact_mod_cast covers
  · exact Double.round_nonneg _

end Interval

/-- The interval is exact, covers the idle time, and the share of the idle time
is one. -/
structure IntervalSound (prev curr : CpuSnapshot) : Prop where
  exact : (getCpuInterval prev curr).toNat = elapsed prev curr
  covers : increase prev.idle curr.idle ≤ (getCpuInterval prev curr).toNat
  share : prev ≠ curr → ∃ share, averageIdle prev curr = some share ∧ 0 ≤ share ∧ share ≤ 1

/-- For every two snapshots between which no counter decreases: the interval is
sound if and only if the guest counters are ahead in both or in neither, and the
check on `idle` holds where it counts. -/
theorem intervalSound_iff (prev curr : CpuSnapshot) (grows : Grows prev curr)
    (fits : elapsed prev curr < 2 ^ 64) :
    IntervalSound prev curr ↔
      Aligned prev.user prev.guest curr.user curr.guest ∧
        Aligned prev.nice prev.guestNice curr.nice curr.guestNice ∧
        (curr.idle ≠ 0 ∨ prev = curr) := by
  have interval := getCpuInterval_eq_iff grows fits
  constructor
  · intro sound
    obtain ⟨user, nice⟩ := interval.mp sound.exact
    refine ⟨user, nice, ?_⟩
    by_cases snapped : curr.idle = 0
    · apply Or.inr
      by_contra advanced
      obtain ⟨share, value, _⟩ := sound.share advanced
      unfold averageIdle at value
      rw [if_pos snapped] at value
      cases value
    · exact Or.inl snapped
  · intro aligned
    have exact' := interval.mpr ⟨aligned.1, aligned.2.1⟩
    have covers : increase prev.idle curr.idle ≤ (getCpuInterval prev curr).toNat := by
      rw [exact']
      exact idle_le_elapsed prev curr
    constructor
    case exact => exact exact'
    case covers => exact covers
    case share =>
      intro advanced
      rcases aligned.2.2 with snapped | same
      · apply averageIdle_share grows snapped covers
        rw [exact']
        exact elapsed_pos grows advanced
      · exact absurd same advanced

def before : CpuSnapshot :=
  { user := 10, nice := 0, sys := 5, idle := 100, iowait := 0, hardirq := 0, softirq := 0
    steal := 0, guest := 10, guestNice := 0 }

def after : CpuSnapshot := { before with user := 12, idle := 101, guest := 11 }

theorem intervalSound_busy_guest : IntervalSound before after := by
  have grows : Grows before after := by
    constructor <;> decide
  apply (intervalSound_iff before after grows (by decide)).mpr
  exact ⟨by decide, by decide, Or.inl (by decide)⟩

/-- The guest counter gets one jiffy ahead, and the jiffy is missing. -/
theorem guest_ahead_not_counted :
    ¬∀ prev curr, Grows prev curr → elapsed prev curr < 2 ^ 64 → IntervalSound prev curr := by
  intro always
  have grows : Grows before { before with idle := 101, guest := 11 } := by
    constructor <;> decide
  have sound := always before { before with idle := 101, guest := 11 } grows (by decide)
  exact absurd sound.exact (by decide)

end RpcBench.Cpu
