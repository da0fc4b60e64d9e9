import RpcBench.Acl.Vm
import RpcBench.Grpc.AtMostOnce
import RpcBench.Grpc.Drain
import RpcBench.Grpc.Mix
import RpcBench.Grpc.Servers
import RpcBench.Grpc.Summary

/-! # The reservations

The reservation client and its server, with the access control between them. -/
set_option autoImplicit false

namespace RpcBench.Grpc

open ByteList Machine ProtoWire Acl Deployment

/-- The generated code, and the chunks in which the host has the body of a call. -/
structure Surroundings where
  codec : RequestCodec
  writer : RequestWriter codec
  byteSizeLong : Request → Nat
  resultSize : HotelReservationServerApp.Result → UInt64
  body : Nat → Request → Body
  framed : ∀ number request, (body number request).whole = frame (writer.serialize request)

def forwards (codec : RequestCodec) (body : Body) : Bool :=
  match Acl.request codec body.numOfHeaders body.front body.last with
  | .ok (actions, stream) => actions.getLast? = some .Continue && stream.replies.isEmpty
  | .error _ => false

/-- `HotelReservationClientApp` and its server, with the filter between them. -/
def reservations (outside : Surroundings) (opts : CommandOpts) :
    Service 1 UInt32 (Request × Nat) Request HotelReservationServerApp.Result where
  client := HotelReservationClientApp.client outside.byteSizeLong
  timeDura := HotelReservationClientApp.timeDura opts
  request := Prod.fst
  passes := fun _ number call => forwards outside.codec (outside.body number call.1)
  result := HotelReservationServerApp.result
  byteSizeLong := outside.resultSize

def reserve (outside : Surroundings) (opts : CommandOpts) (gSeed : UInt32)
    (events : List (Event 1)) :
    Deployment 1 UInt32 (Request × Nat) Request HotelReservationServerApp.Result :=
  run (step (reservations outside opts))
    (init (reservations outside opts) opts.concurrency fun _ => gSeed) events

/-- However the frame is cut, the message in it decides. -/
theorem forwards_iff {codec : RequestCodec} {body : Body} {message : Bytes}
    (framed : body.whole = frame message) :
    forwards codec body = true ↔ ¬NamesDanyang (codec.decode message) := by
  have called : Acl.request codec body.numOfHeaders body.front body.last =
      deliverAll codec body.front body.last
        { requestBody := [], responseHeaders := [], replies := [] } := rfl
  have whole : ([] : Bytes) ++ (body.front.flatten ++ body.last) = frame message := framed
  have decided : deliver codec (body.front.flatten ++ body.last) true
      { requestBody := [], responseHeaders := [], replies := [] } =
        .ok (judge codec message
          { requestBody := frame message, responseHeaders := [], replies := [] }) :=
    deliver_frame whole
  rw [forwards, called, deliverAll_eq, decided]
  rcases judge_cases codec message
    { requestBody := frame message, responseHeaders := [], replies := [] } with
    ⟨named, judged⟩ | ⟨unnamed, judged⟩
  · simp [judged, named, Except.map]
  · simp [judged, unnamed, Except.map]

section Draws

variable (outside : Surroundings)

theorem forwards_workload (number : Nat) (index : Fin 2) :
    forwards outside.codec (outside.body number (workload index)) = decide (index = 1) := by
  have decoded := outside.writer.decode_serialize (workload_legible index)
  rw [Bool.eq_iff_iff, forwards_iff (outside.framed number (workload index)), decoded]
  match index with
  | 0 => simp [NamesDanyang, workload]
  | 1 => simp [NamesDanyang, workload, danyang]

def reservation (byteSizeLong : Request → Nat) (gSeed : UInt32) (number : Nat) : Request × Nat :=
  (generateWorkload byteSizeLong (nextSeed^[number] gSeed)).1

theorem reservation_cases (byteSizeLong : Request → Nat) (gSeed : UInt32) (number : Nat) :
    (reservation byteSizeLong gSeed number).1 = workload 0 ∨
      (reservation byteSizeLong gSeed number).1 = workload 1 := by
  obtain ⟨index, drawn⟩ := generateWorkload_cases byteSizeLong (nextSeed^[number] gSeed)
  rw [reservation, drawn]
  exact workload_cases index

theorem passes_reservation (opts : CommandOpts) (gSeed : UInt32) (thread : Fin 1)
    (number : Nat) :
    (reservations outside opts).passes thread number
        (reservation outside.byteSizeLong gSeed number) =
      !decide ((reservation outside.byteSizeLong gSeed number).1 = workload 0) := by
  have stops := forwards_workload outside number 0
  have passes := forwards_workload outside number 1
  simp only [reservations]
  rcases reservation_cases outside.byteSizeLong gSeed number with first | second
  · rw [first, stops]
    simp
  · rw [second, passes]
    simp [danyang_ne_matt.symm]

theorem drawn_reserve (opts : CommandOpts) (gSeed : UInt32) (events : List (Event 1)) :
    ((reserve outside opts gSeed events).clients 0).Drawn
      (HotelReservationClientApp.client outside.byteSizeLong) gSeed := by
  apply loops_run (reservations outside opts) opts.concurrency (fun _ => gSeed)
    fun _ loop => loop.Drawn (HotelReservationClientApp.client outside.byteSizeLong) gSeed
  · intro thread loop completion drawn
    exact drawn.turn _ completion
  · intro thread
    exact Loop.drawn_start _ opts.concurrency gSeed

theorem count_danyang_periods (byteSizeLong : Request → Nat) (gSeed : UInt32) (periods : Nat) :
    Nat.count (fun number => (reservation byteSizeLong gSeed number).1 = workload 0)
      (periods * 2 ^ 32) = periods * (328 * 2 ^ 17) := by
  induction periods with
  | zero => rw [Nat.zero_mul, Nat.zero_mul, Nat.count_zero]
  | succ periods ih =>
      have one_mod_four : 214013 % 4 = 1 := by decide
      have odd : 2531011 % 2 = 1 := by decide
      have small : (nextSeed^[periods * 2 ^ 32 + 1] gSeed).toNat < 2 ^ 32 := UInt32.toNat_lt _
      have shares := Lcg.count_iterate_next one_mod_four odd small
        fun gSeed => gSeed / 2 ^ 16 % 2 ^ 15 % 100 = 0
      have later : Nat.count (fun number =>
          (reservation byteSizeLong gSeed (periods * 2 ^ 32 + number)).1 = workload 0) (2 ^ 32) =
            328 * 2 ^ 17 := by
        rw [← count_danyang, ← shares]
        apply Lcg.count_congr
        intro number _
        have order : Nat.succ (periods * 2 ^ 32 + number) = number + (periods * 2 ^ 32 + 1) := by
          omega
        rw [reservation, generateWorkload_danyang_iff, ← Function.iterate_succ_apply' nextSeed,
          ← iterate_nextSeed_toNat, ← Function.iterate_add_apply, order]
      rw [Nat.succ_mul, Nat.count_add, ih, later]
      exact (Nat.succ_mul periods (328 * 2 ^ 17)).symm

/-- In every run the server sees no request of danyang, and the client counts no
such call. -/
theorem danyang_never_served (opts : CommandOpts) (gSeed : UInt32) (events : List (Event 1)) :
    (∀ serial request, (serial, request) ∈ (reserve outside opts gSeed events).server.matched →
      request = workload 1) ∧
    ∀ number outcome,
      (number, outcome) ∈ ((reserve outside opts gSeed events).clients 0).calls.settled →
      outcome.ok = true → outcome.call.1 = workload 1 := by
  have linked := linked_run (reservations outside opts) opts.concurrency (fun _ => gSeed) events
  have drawn := drawn_reserve outside opts gSeed events
  have matts : ∀ thread number call,
      ((reserve outside opts gSeed events).clients 0).Issued number call →
      (reservations outside opts).passes thread number call = true → call.1 = workload 1 := by
    intro thread number call issued passes
    have own : call = reservation outside.byteSizeLong gSeed number :=
      drawn.calls number call issued
    rw [own, passes_reservation] at passes
    rw [own]
    rcases reservation_cases outside.byteSizeLong gSeed number with first | second
    · simp [first] at passes
    · exact second
  constructor
  · intro serial request member
    obtain ⟨thread, number, call, _, issued, rfl, passes⟩ := linked.matched serial request member
    rw [Fin.fin_one_eq_zero thread] at issued
    exact matts thread number call issued passes
  · intro number outcome gone ok
    obtain ⟨passes, _⟩ := linked.atMostOnce.counted 0 number outcome gone ok
    exact matts 0 number outcome.call (Or.inr ⟨outcome, gone, rfl⟩) passes

end Draws

structure Reserved (outside : Surroundings) (gSeed : UInt32)
    (state : Deployment 1 UInt32 (Request × Nat) Request HotelReservationServerApp.Result) :
    Prop where
  /-- the calls are numbered as they are made, and each is the draw of its number -/
  numbers : ((state.clients 0).calls.outstanding.map Prod.fst ++
    (state.clients 0).calls.settled.map Prod.fst).Perm (List.range (state.clients 0).calls.issued)
  draws : ∀ number call, (state.clients 0).Issued number call →
    call = reservation outside.byteSizeLong gSeed number
  overlimit : (state.clients 0).overlimit =
    (state.clients 0).calls.settled.countP fun call => call.2.call.1 = workload 0
  count : (state.clients 0).count =
    (state.clients 0).calls.settled.countP fun call => call.2.call.1 = workload 1
  received : (state.clients 0).rxSize =
    UInt64.ofNat (state.clients 0).count * outside.resultSize HotelReservationServerApp.result
  /-- at the end the figures depend on the seed and on the number of calls only -/
  ended : (state.clients 0).reqCnt = 0 →
    (state.clients 0).overlimit =
        Nat.count (fun number => (reservation outside.byteSizeLong gSeed number).1 = workload 0)
          (state.clients 0).calls.issued ∧
      (state.clients 0).count + (state.clients 0).overlimit = (state.clients 0).calls.issued ∧
      state.server.finished.length = (state.clients 0).count
  /-- whole periods of the generator -/
  mix : (state.clients 0).reqCnt = 0 → ∀ periods,
    (state.clients 0).calls.issued = periods * 2 ^ 32 →
    (state.clients 0).overlimit = periods * (328 * 2 ^ 17)

section Exact

variable {outside : Surroundings} {opts : CommandOpts} {gSeed : UInt32}
  {state : Deployment 1 UInt32 (Request × Nat) Request HotelReservationServerApp.Result}

theorem countP_settled_passes (opts : CommandOpts)
    (drawn : (state.clients 0).Drawn (HotelReservationClientApp.client outside.byteSizeLong)
      gSeed) :
    ((state.clients 0).calls.settled.countP fun call =>
        !(reservations outside opts).passes 0 call.1 call.2.call) =
      ((state.clients 0).calls.settled.countP fun call => call.2.call.1 = workload 0) ∧
    ((state.clients 0).calls.settled.countP fun call =>
        (reservations outside opts).passes 0 call.1 call.2.call) =
      (state.clients 0).calls.settled.countP fun call => call.2.call.1 = workload 1 := by
  have own : ∀ call ∈ (state.clients 0).calls.settled,
      call.2.call = reservation outside.byteSizeLong gSeed call.1 := by
    intro call member
    exact drawn.calls call.1 call.2.call (Or.inr ⟨call.2, member, rfl⟩)
  constructor
  · apply List.countP_congr
    intro call member
    rw [own call member, passes_reservation, Bool.not_not]
  · apply List.countP_congr
    intro call member
    rw [own call member, passes_reservation]
    rcases reservation_cases outside.byteSizeLong gSeed call.1 with first | second
    · simp [first, danyang_ne_matt]
    · simp [second, danyang_ne_matt.symm]

theorem reserved_of_exact {concurrency : Nat}
    (linked : Linked (reservations outside opts) concurrency state)
    (exact : Exact (reservations outside opts) state)
    (drawn : (state.clients 0).Drawn (HotelReservationClientApp.client outside.byteSizeLong)
      gSeed) :
    Reserved outside gSeed state := by
  have accounted := linked.accounted 0
  obtain ⟨stopped, passed⟩ := countP_settled_passes opts drawn
  have atEnd : (state.clients 0).reqCnt = 0 → (state.clients 0).calls.outstanding = [] := by
    intro ended
    have held := accounted.held
    apply List.eq_nil_of_length_eq_zero
    omega
  have overlimit : (state.clients 0).reqCnt = 0 → (state.clients 0).overlimit =
      Nat.count (fun number => (reservation outside.byteSizeLong gSeed number).1 = workload 0)
        (state.clients 0).calls.issued := by
    intro ended
    rw [(exact.counts 0).2, stopped, drawn.countP_settled (atEnd ended) fun call =>
      decide (call.1 = workload 0)]
    rfl
  constructor
  case numbers => exact (state.clients 0).calls.balanced
  case draws =>
    intro number call issued
    exact drawn.calls number call issued
  case overlimit => rw [(exact.counts 0).2, stopped]
  case count => rw [(exact.counts 0).1, passed]
  case received => exact linked.received 0
  case ended =>
    intro ended
    refine ⟨overlimit ended, ?_, ?_⟩
    · have total := (state.clients 0).calls.length_add_length
      have kinds := countP_ok_add_failed (state.clients 0).calls.settled
      rw [atEnd ended, List.length_nil, Nat.zero_add] at total
      rw [accounted.counted, accounted.failed, kinds, total]
    · have drained := (exact.drained (by
        intro thread
        rw [Fin.fin_one_eq_zero thread]
        exact ended)).2
      rw [drained]
      simp [totalCount, List.finRange_succ]
  case mix =>
    intro ended periods whole
    rw [overlimit ended, whole, count_danyang_periods]

end Exact

/-- Without failures the client counts the requests of matt and the filter stops
those of danyang, whatever the order of what happens. -/
theorem reservations_exact (outside : Surroundings) (opts : CommandOpts) (gSeed : UInt32)
    (events : List (Event 1))
    (reliable : Along (step (reservations outside opts)) Reliable
      (init (reservations outside opts) opts.concurrency fun _ => gSeed) events) :
    Reserved outside gSeed (reserve outside opts gSeed events) := by
  have linked := linked_run (reservations outside opts) opts.concurrency (fun _ => gSeed) events
  have exact := (lossless_run (reservations outside opts) opts.concurrency (fun _ => gSeed) events
    reliable).exact linked
  exact reserved_of_exact linked exact (drawn_reserve outside opts gSeed events)

def halves : Surroundings where
  codec := wireRequests
  writer := wireWriter
  byteSizeLong := wireSize
  resultSize := fun result =>
    UInt64.ofNat
      (encodeFields (result.hotelId.map fun hotel => (1, .delimited hotel))).length
  body := fun _ request => halved (wireWriter.serialize request)
  framed := fun _ request => by
    simp [Body.whole, halved]

/-- One call of matt from end to end. -/
theorem reservations_exact_round :
    Reserved halves 0 (reserve halves (oneCall 0) 0
      [.start 0 0, .deliver 0 0 0, .next 0 1, .reply 0, .complete 0 0 5]) ∧
    ((reserve halves (oneCall 0) 0
      [.start 0 0, .deliver 0 0 0, .next 0 1, .reply 0, .complete 0 0 5]).clients 0).count = 1 :=
  ⟨reservations_exact halves (oneCall 0) 0
      [.start 0 0, .deliver 0 0 0, .next 0 1, .reply 0, .complete 0 0 5]
      ⟨trivial, trivial, trivial, trivial, trivial, trivial⟩, by decide⟩

end RpcBench.Grpc
