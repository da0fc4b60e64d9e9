import RpcBench.Grpc.Clients

/-! # The summary against the meter

The bytes behind `tx_gbps` are a product taken after the loop; the meter has
been given the size of each call.  The hotel client multiplies with the
`data_size` option, which no request of its workload looks at. -/
set_option autoImplicit false

namespace RpcBench.Grpc

open ByteList Machine Acl

section Metered

variable {Source Call : Type} {client : Client Source Call} {timeDura : Int}
  {Made : Call → Prop} {state : Loop Source Call} {completion : Completion}

def Loop.meteredBytes (state : Loop Source Call) : Int :=
  ((state.calls.settled.filter fun call => call.2.ok).map fun call =>
    (call.2.metered.map AddQps.bytesAdd).getD 0).sum

/-- All calls are as the client makes them, and the meter knows of those that
are gone. -/
structure Metered (client : Client Source Call) (Made : Call → Prop)
    (state : Loop Source Call) : Prop where
  held : ∀ entry ∈ state.calls.outstanding, Made entry.2
  gone : ∀ entry ∈ state.calls.settled, Made entry.2.call ∧
    (entry.2.ok = true → entry.2.metered = client.meterOk entry.2.call)

theorem Metered.newCall (makes : ∀ source, Made (client.generate source).1)
    (metered : Metered client Made state) : Metered client Made (state.newCall client) := by
  constructor
  case held =>
    intro entry member
    cases List.mem_append.mp member with
    | inl old => exact metered.held entry old
    | inr new =>
        rw [List.mem_singleton.mp new]
        exact makes state.source
  case gone => exact metered.gone

theorem Metered.issueMany (makes : ∀ source, Made (client.generate source).1) (more : Nat) :
    ∀ state : Loop Source Call, Metered client Made state →
      Metered client Made (Loop.issueMany client more state) := by
  induction more with
  | zero =>
      intro state metered
      exact metered
  | succ more ih =>
      intro state metered
      exact ih (state.newCall client) (metered.newCall makes)

theorem Metered.answer (metered : Metered client Made state) (delivers : state.Delivers completion)
    {entry : Nat × Call} (present : entry ∈ state.calls.outstanding) :
    Metered client Made (state.answer client timeDura completion entry.2) := by
  rw [Loop.answer_eq]
  constructor
  case held =>
    intro other member
    exact metered.held other (List.mem_of_mem_eraseIdx member)
  case gone =>
    intro other member
    rw [Ledger.settled_settle delivers.2] at member
    cases List.mem_append.mp member with
    | inl old => exact metered.gone other old
    | inr new =>
        rw [List.mem_singleton.mp new]
        refine ⟨metered.held entry present, ?_⟩
        intro ok
        exact if_pos ok

theorem Metered.turn (makes : ∀ source, Made (client.generate source).1)
    (metered : Metered client Made state) :
    Metered client Made (state.turn client timeDura completion) := by
  by_cases delivers : state.Delivers completion
  · obtain ⟨entry, present, turned⟩ := Loop.turn_delivers client timeDura delivers
    have answered : Metered client Made (state.answer client timeDura completion entry.2) :=
      metered.answer delivers present
    rw [turned, Loop.refill]
    split
    · exact answered.newCall makes
    · exact answered
  · rw [Loop.turn_idle delivers]
    exact metered

theorem metered_run (makes : ∀ source, Made (client.generate source).1) (timeDura : Int)
    (concurrency : Int32) (source : Source) (completions : List Completion) :
    Metered client Made
      (run (Loop.turn client timeDura) (Loop.start client concurrency source) completions) := by
  apply run_invariant
  · intro state completion metered
    exact metered.turn makes
  · apply Metered.issueMany makes
    constructor
    case held =>
      intro entry member
      cases member
    case gone =>
      intro entry member
      cases member

theorem meteredBytes_eq (size : Call → Int)
    (sized : ∀ call, Made call → client.meterOk call = some { bytesAdd := size call, qpsAdd := 1 })
    (metered : Metered client Made state) :
    state.meteredBytes =
      ((state.calls.settled.filter fun call => call.2.ok).map fun call => size call.2.call).sum := by
  unfold Loop.meteredBytes
  congr 1
  apply List.map_congr_left
  intro entry member
  obtain ⟨present, ok⟩ := List.mem_filter.mp member
  obtain ⟨made, given⟩ := metered.gone entry present
  rw [given ok, sized entry.2.call made]
  rfl

end Metered

/-! ## The two clients -/

/-- Each successful call of the throughput client counts the option's value. -/
theorem GrpcTputClientApp.metered (opts : CommandOpts) (data : Bytes)
    (completions : List Completion) :
    (GrpcTputClientApp.job opts data completions).meteredBytes =
      GrpcTputClientApp.txBytes opts (GrpcTputClientApp.job opts data completions) := by
  have metered : Metered (GrpcTputClientApp.client opts data) (fun _ => True)
      (GrpcTputClientApp.job opts data completions) :=
    metered_run (fun _ => trivial) _ _ _ _
  have accounted : Accounted _ _ (GrpcTputClientApp.job opts data completions) :=
    accounted_run _ (GrpcTputClientApp.timeDura opts) opts.concurrency () completions
  have total := meteredBytes_eq (fun _ => (opts.dataSize.toNat : Int)) (fun _ _ => rfl) metered
  rw [List.map_const', List.sum_replicate_int, ← List.countP_eq_length_filter, ← accounted.counted]
    at total
  rw [total, GrpcTputClientApp.txBytes, Int.natCast_mul]

namespace HotelReservationClientApp

def succeeded (index : Fin 2) (state : Loop UInt32 (Request × Nat)) : Nat :=
  state.calls.settled.countP fun call => call.2.ok && call.2.call.1 == workload index

/-- The calls that `GenerateWorkload` makes. -/
def Made (byteSizeLong : Request → Nat) (call : Request × Nat) : Prop :=
  ∃ index, call = (workload index, byteSizeLong (workload index))

variable {byteSizeLong : Request → Nat}

theorem workload_ne : workload 0 ≠ workload 1 := by decide

theorem sum_sizes (danyangs : byteSizeLong (workload 0) = 40)
    (matts : byteSizeLong (workload 1) = 37) (settled : List (Nat × Outcome (Request × Nat)))
    (made : ∀ entry ∈ settled, Made byteSizeLong entry.2.call) :
    ((settled.filter fun call => call.2.ok).map fun call => (call.2.call.2 : Int)).sum =
        40 * (settled.countP fun call => call.2.ok && call.2.call.1 == workload 0) +
          37 * (settled.countP fun call => call.2.ok && call.2.call.1 == workload 1) ∧
      (settled.countP fun call => call.2.ok) =
        (settled.countP fun call => call.2.ok && call.2.call.1 == workload 0) +
          settled.countP fun call => call.2.ok && call.2.call.1 == workload 1 := by
  induction settled with
  | nil =>
      constructor
      · rfl
      · rfl
  | cons entry settled ih =>
      obtain ⟨sum, count⟩ := ih fun other member => made other (List.mem_cons_of_mem _ member)
      obtain ⟨serial, call, ok, metered⟩ := entry
      rw [List.filter_cons, List.countP_cons, List.countP_cons, List.countP_cons]
      cases ok with
      | false =>
          simp only [Bool.false_eq_true, if_false, Bool.false_and, Nat.add_zero]
          exact ⟨sum, count⟩
      | true =>
          obtain ⟨index, drawn⟩ := made (serial, { call, ok := true, metered }) List.mem_cons_self
          have call' : call = (workload index, byteSizeLong (workload index)) := drawn
          subst call'
          match index with
          | 0 =>
              have other : (workload 0 == workload 1) = false := beq_false_of_ne workload_ne
              simp only [if_true, List.map_cons, List.sum_cons, Bool.true_and, beq_self_eq_true,
                other, Bool.false_eq_true, if_false]
              rw [sum, danyangs]
              constructor
              · push_cast
                omega
              · omega
          | 1 =>
              have other : (workload 1 == workload 0) = false := beq_false_of_ne workload_ne.symm
              simp only [if_true, List.map_cons, List.sum_cons, Bool.true_and, beq_self_eq_true,
                other, Bool.false_eq_true, if_false]
              rw [sum, matts]
              constructor
              · push_cast
                omega
              · omega

/-- When the product with one size is the sum of the sizes 40 and 37. -/
def SizeFits (dataSize danyangs matts : Nat) : Prop :=
  danyangs = 0 ∧ matts = 0 ∨ dataSize = 37 ∧ danyangs = 0 ∨ dataSize = 38 ∧ matts = 2 * danyangs ∨
    dataSize = 39 ∧ danyangs = 2 * matts ∨ dataSize = 40 ∧ matts = 0

theorem sizeFits_iff (dataSize danyangs matts : Nat) :
    (danyangs + matts) * dataSize = 40 * danyangs + 37 * matts ↔
      SizeFits dataSize danyangs matts := by
  unfold SizeFits
  by_cases below : dataSize < 37
  · have less := Nat.mul_le_mul_left (danyangs + matts) (Nat.le_of_lt_succ below)
    omega
  · by_cases above : 40 < dataSize
    · have more := Nat.mul_le_mul_left (danyangs + matts) (show 41 ≤ dataSize by omega)
      constructor
      · intro same
        omega
      · intro fits
        obtain ⟨rfl, rfl⟩ : danyangs = 0 ∧ matts = 0 := by omega
        simp
    · have sizes : dataSize = 37 ∨ dataSize = 38 ∨ dataSize = 39 ∨ dataSize = 40 := by omega
      rcases sizes with rfl | rfl | rfl | rfl
      · omega
      · omega
      · omega
      · omega

theorem metered (danyangs : byteSizeLong (workload 0) = 40)
    (matts : byteSizeLong (workload 1) = 37) (opts : CommandOpts) (gSeed : UInt32)
    (completions : List Completion) :
    (run byteSizeLong opts gSeed completions).meteredBytes =
        40 * succeeded 0 (run byteSizeLong opts gSeed completions) +
          37 * succeeded 1 (run byteSizeLong opts gSeed completions) ∧
      (run byteSizeLong opts gSeed completions).count =
        succeeded 0 (run byteSizeLong opts gSeed completions) +
          succeeded 1 (run byteSizeLong opts gSeed completions) := by
  have metered : Metered (client byteSizeLong) (Made byteSizeLong)
      (run byteSizeLong opts gSeed completions) :=
    metered_run (generateWorkload_cases byteSizeLong) _ _ _ _
  have accounted : Accounted _ _ (run byteSizeLong opts gSeed completions) :=
    accounted_run _ (timeDura opts) opts.concurrency gSeed completions
  obtain ⟨sum, count⟩ := sum_sizes danyangs matts
    (run byteSizeLong opts gSeed completions).calls.settled
    fun entry member => (metered.gone entry member).1
  constructor
  · rw [meteredBytes_eq (fun call => (call.2 : Int)) (fun _ _ => rfl) metered, sum]
    rfl
  · rw [accounted.counted, count]
    rfl

end HotelReservationClientApp

/-- The summary agrees with the meter in every run of the throughput client,
and in a run of the hotel client if and only if the option fits the calls that
succeeded. -/
theorem summary_matches_meter_iff (opts : CommandOpts) (data : Bytes)
    (byteSizeLong : Request → Nat) (danyangs : byteSizeLong (workload 0) = 40)
    (matts : byteSizeLong (workload 1) = 37) (gSeed : UInt32) (completions : List Completion) :
    (GrpcTputClientApp.txBytes opts (GrpcTputClientApp.job opts data completions) : Int) =
        (GrpcTputClientApp.job opts data completions).meteredBytes ∧
      ((HotelReservationClientApp.txBytes opts
            (HotelReservationClientApp.run byteSizeLong opts gSeed completions) : Int) =
          (HotelReservationClientApp.run byteSizeLong opts gSeed completions).meteredBytes ↔
        HotelReservationClientApp.SizeFits opts.dataSize.toNat
          (HotelReservationClientApp.succeeded 0
            (HotelReservationClientApp.run byteSizeLong opts gSeed completions))
          (HotelReservationClientApp.succeeded 1
            (HotelReservationClientApp.run byteSizeLong opts gSeed completions))) := by
  constructor
  · exact (GrpcTputClientApp.metered opts data completions).symm
  · obtain ⟨given, count⟩ :=
      HotelReservationClientApp.metered danyangs matts opts gSeed completions
    rw [given, HotelReservationClientApp.txBytes, count, ← HotelReservationClientApp.sizeFits_iff]
    exact_mod_cast Iff.rfl

def wireSize (request : Request) : Nat := (wireWriter.serialize request).length

def oneCall (dataSize : UInt64) : CommandOpts :=
  { concurrency := 1, dataSize, timeDurationSec := 1 }

/-- Two calls of matt, which the option happens to fit. -/
theorem summary_matches_meter_matt :
    (HotelReservationClientApp.run wireSize (oneCall 37) 0 [prompt 1, prompt 1]).count = 2 ∧
      (HotelReservationClientApp.txBytes (oneCall 37)
          (HotelReservationClientApp.run wireSize (oneCall 37) 0 [prompt 1, prompt 1]) : Int) =
        (HotelReservationClientApp.run wireSize (oneCall 37) 0 [prompt 1, prompt 1]).meteredBytes :=
  ⟨by decide,
    (summary_matches_meter_iff (oneCall 37) [] wireSize (by decide) (by decide) 0
      [prompt 1, prompt 1]).2.mpr (Or.inr (Or.inl (by decide)))⟩

/-! ## A run of one period -/

section FirstPeriod

variable {Source Call : Type}

theorem one_period_ends (client : Client Source Call) (timeDura : Int) (source : Source)
    (elapsed : Nat) (passed : timeDura < ((timePeriod * elapsed : Nat) : Int)) :
    ∃ state, state = run (Loop.turn client timeDura) (Loop.start client 1 source)
        (List.replicate timePeriod (prompt elapsed)) ∧
      state.reqCnt = 0 ∧ 0 < state.count := by
  obtain ⟨state, reached, delivers, _, due, late⟩ :=
    period_due client timeDura 1 (by decide) source elapsed passed
  have books : Accounted (1 : Int32).toInt.toNat timeDura state := by
    rw [reached]
    exact accounted_run client timeDura 1 source _
  obtain ⟨_, _, left⟩ := books.turn_late client delivers (Or.inr ⟨due, late⟩)
  have counted := Loop.count_turn client timeDura delivers
  have bounded := books.bounded
  have held := books.held
  have going := delivers.1
  have one : (1 : Int32).toInt.toNat = 1 := by decide
  refine ⟨state.turn client timeDura (prompt elapsed), ?_, ?_, ?_⟩
  · have whole : List.replicate timePeriod (prompt elapsed) =
        List.replicate 999 (prompt elapsed) ++ [prompt elapsed] := List.replicate_succ'
    rw [whole, run_append, ← reached, run_cons, run_nil]
  · omega
  · rw [counted]
    exact Nat.succ_pos state.count

end FirstPeriod

/-- The default size 0, and one period of successful calls. -/
theorem hotel_summary_disagrees :
    ¬∀ (opts : CommandOpts) (byteSizeLong : Request → Nat),
      byteSizeLong (workload 0) = 40 → byteSizeLong (workload 1) = 37 →
      ∀ (gSeed : UInt32) (completions : List Completion),
        ¬(HotelReservationClientApp.run byteSizeLong opts gSeed completions).reqCnt > 0 →
        (HotelReservationClientApp.txBytes opts
            (HotelReservationClientApp.run byteSizeLong opts gSeed completions) : Int) =
          (HotelReservationClientApp.run byteSizeLong opts gSeed completions).meteredBytes := by
  intro always
  have danyangs : wireSize (workload 0) = 40 := by decide
  have matts : wireSize (workload 1) = 37 := by decide
  obtain ⟨state, reached, ended, counted⟩ :=
    one_period_ends (HotelReservationClientApp.client wireSize) 1000000000 0 2000000 (by decide)
  have reached' : state = HotelReservationClientApp.run wireSize (oneCall 0) 0
      (List.replicate timePeriod (prompt 2000000)) := reached
  obtain ⟨given, count⟩ := HotelReservationClientApp.metered danyangs matts (oneCall 0) 0
    (List.replicate timePeriod (prompt 2000000))
  have agreed := always (oneCall 0) wireSize danyangs matts 0
    (List.replicate timePeriod (prompt 2000000))
  rw [← reached'] at given count agreed
  have sent : HotelReservationClientApp.txBytes (oneCall 0) state = 0 := Nat.mul_zero _
  rw [given, sent] at agreed
  have none_metered := agreed (by omega)
  omega

end RpcBench.Grpc
