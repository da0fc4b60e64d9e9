import RpcBench.Grpc.Linked
import Mathlib.Algebra.Ring.Nat
import Mathlib.Data.List.FinRange
import Mathlib.Data.List.Perm.Subperm

/-! # What the clients count is what the server did

A call that is counted was served by one object, with its own request.  When no
call fails in the network, the calls that are counted are those that pass the
filter, and when all clients have drained the server has served just these. -/
set_option autoImplicit false

namespace RpcBench.Grpc.Deployment

open Machine

variable {threads : Nat} {Source Call Request Reply : Type}

def totalCount (state : Deployment threads Source Call Request Reply) : Nat :=
  ((List.finRange threads).map fun thread => (state.clients thread).count).sum

structure AtMostOnce (service : Service threads Source Call Request Reply)
    (state : Deployment threads Source Call Request Reply) : Prop where
  /-- a call that is counted passed the filter and has its reply from an object
  that got its own request -/
  counted : ∀ thread number outcome, (number, outcome) ∈ (state.clients thread).calls.settled →
    outcome.ok = true → service.passes thread number outcome.call = true ∧
      ∃ serial, state.caller serial = some (thread, number) ∧
        (serial, service.request outcome.call) ∈ state.server.matched ∧
        (serial, service.result) ∈ state.server.finished
  /-- an RPC is a call of a client that passes the filter -/
  served : ∀ serial request, (serial, request) ∈ state.server.matched →
    ∃ thread number call, state.caller serial = some (thread, number) ∧
      (state.clients thread).Issued number call ∧ request = service.request call ∧
      service.passes thread number call = true
  /-- no call has two objects, and no object has two calls -/
  once : (state.server.matched.map fun rpc => state.caller rpc.1).Nodup
  total : state.totalCount ≤ state.server.finished.length
  received : ∀ thread, (state.clients thread).rxSize =
    UInt64.ofNat (state.clients thread).count * service.byteSizeLong service.result

def Reliable (_state : Deployment threads Source Call Request Reply) :
    Event threads → Prop
  | .fail _ _ => False
  | _ => True

structure Exact (service : Service threads Source Call Request Reply)
    (state : Deployment threads Source Call Request Reply) : Prop where
  counts : ∀ thread,
    (state.clients thread).count =
        ((state.clients thread).calls.settled.countP fun call =>
          service.passes thread call.1 call.2.call) ∧
      (state.clients thread).overlimit =
        (state.clients thread).calls.settled.countP fun call =>
          !service.passes thread call.1 call.2.call
  /-- once every loop has ended -/
  drained : (∀ thread, (state.clients thread).reqCnt = 0) →
    state.server.matched.length = state.totalCount ∧
      state.server.finished.length = state.totalCount

variable {service : Service threads Source Call Request Reply} {concurrency : Nat}
  {state : Deployment threads Source Call Request Reply}

def okCalls (state : Deployment threads Source Call Request Reply) : List (Fin threads × Nat) :=
  (List.finRange threads).flatMap fun thread =>
    ((state.clients thread).calls.settled.filter fun call => call.2.ok).map
      fun call => (thread, call.1)

theorem mem_okCalls {thread : Fin threads} {number : Nat} :
    (thread, number) ∈ state.okCalls ↔
      ∃ outcome, (number, outcome) ∈ (state.clients thread).calls.settled ∧ outcome.ok = true := by
  unfold okCalls
  rw [List.mem_flatMap]
  constructor
  · intro present
    obtain ⟨thread', _, inside⟩ := present
    obtain ⟨⟨number', outcome⟩, kept, same⟩ := List.mem_map.mp inside
    obtain ⟨rfl, rfl⟩ := Prod.mk.inj same
    obtain ⟨member, ok⟩ := List.mem_filter.mp kept
    exact ⟨outcome, member, ok⟩
  · intro present
    obtain ⟨outcome, member, ok⟩ := present
    refine ⟨thread, List.mem_finRange thread, List.mem_map.mpr ⟨(number, outcome), ?_, rfl⟩⟩
    exact List.mem_filter.mpr ⟨member, ok⟩

theorem nodup_okCalls (state : Deployment threads Source Call Request Reply) :
    state.okCalls.Nodup := by
  unfold okCalls
  rw [List.nodup_flatMap]
  constructor
  · intro thread _
    have distinct := (List.nodup_append.mp (state.clients thread).calls.numbers_nodup).2.1
    have kept := (List.filter_sublist (p := fun call => call.2.ok)
      (l := (state.clients thread).calls.settled)).map Prod.fst
    have numbers := kept.nodup distinct
    have pairs := numbers.map (f := fun number => (thread, number)) (by
      intro number number' same
      exact (Prod.mk.inj same).2)
    rw [List.map_map] at pairs
    exact pairs
  · apply (List.nodup_finRange threads).imp
    intro thread thread' different key here there
    obtain ⟨_, _, same⟩ := List.mem_map.mp here
    obtain ⟨_, _, same'⟩ := List.mem_map.mp there
    exact different (Prod.mk.inj (same.trans same'.symm)).1

theorem Linked.length_okCalls (linked : Linked service concurrency state) :
    state.okCalls.length = state.totalCount := by
  unfold okCalls totalCount
  rw [List.length_flatMap]
  congr 1
  apply List.map_congr_left
  intro thread _
  rw [List.length_map, ← List.countP_eq_length_filter, (linked.accounted thread).counted]

theorem Linked.once_matched (linked : Linked service concurrency state) :
    (state.server.matched.map fun rpc => state.caller rpc.1).Nodup := by
  have distinct := Server.Books.matched_nodup linked.sound
  have called := List.Nodup.map_on (f := state.caller) (by
    intro serial member serial' _ same
    obtain ⟨⟨_, request⟩, present, rfl⟩ := List.mem_map.mp member
    obtain ⟨thread, number, _, caller, _⟩ := linked.matched _ request present
    exact linked.once _ _ (thread, number) caller (same ▸ caller)) distinct
  rw [List.map_map] at called
  exact called

theorem Linked.request_of_finished (linked : Linked service concurrency state)
    {thread : Fin threads} {number serial : Nat} {outcome : Outcome Call}
    (called : state.caller serial = some (thread, number))
    (gone : (number, outcome) ∈ (state.clients thread).calls.settled) :
    service.passes thread number outcome.call = true ∧
      (serial, service.request outcome.call) ∈ state.server.matched := by
  obtain ⟨⟨_, request⟩, member, rfl⟩ :=
    List.mem_map.mp (linked.called serial thread number called).2
  obtain ⟨thread', number', call, caller, issued, same, passes⟩ :=
    linked.matched _ request member
  rw [called] at caller
  obtain ⟨rfl, rfl⟩ := Prod.mk.inj (Option.some.inj caller)
  have own := issued.unique gone
  rw [same] at member
  rw [own]
  exact ⟨passes, member⟩

theorem Linked.finished_result (linked : Linked service concurrency state) {serial : Nat}
    (member : serial ∈ state.server.finished.map Prod.fst) :
    (serial, service.result) ∈ state.server.finished := by
  obtain ⟨⟨serial', reply⟩, present, rfl⟩ := List.mem_map.mp member
  have carried := linked.sound.replied _ present
  rw [← carried]
  exact present

theorem Linked.served_ok (linked : Linked service concurrency state) {thread : Fin threads}
    {number : Nat} {outcome : Outcome Call}
    (gone : (number, outcome) ∈ (state.clients thread).calls.settled) (ok : outcome.ok = true) :
    ∃ serial, state.caller serial = some (thread, number) ∧
      serial ∈ state.server.finished.map Prod.fst := by
  obtain ⟨reply, answered, status⟩ := linked.settled thread number outcome gone
  rw [ok] at status
  obtain ⟨reply, rfl⟩ := Option.isSome_iff_exists.mp status.symm
  exact (linked.answered thread number reply answered).2

theorem Linked.okCalls_subset (linked : Linked service concurrency state) :
    state.okCalls.map some ⊆ (state.server.finished.map Prod.fst).map state.caller := by
  intro key member
  obtain ⟨⟨thread, number⟩, counted, rfl⟩ := List.mem_map.mp member
  obtain ⟨outcome, gone, ok⟩ := mem_okCalls.mp counted
  obtain ⟨serial, called, finished⟩ := linked.served_ok gone ok
  exact List.mem_map.mpr ⟨serial, finished, called⟩

theorem nodup_okCalls_some (state : Deployment threads Source Call Request Reply) :
    (state.okCalls.map some).Nodup :=
  state.nodup_okCalls.map (Option.some_injective _)

theorem Linked.atMostOnce (linked : Linked service concurrency state) :
    AtMostOnce service state := by
  constructor
  case counted =>
    intro thread number outcome gone ok
    obtain ⟨serial, called, finished⟩ := linked.served_ok gone ok
    obtain ⟨passes, matched⟩ := linked.request_of_finished called gone
    exact ⟨passes, serial, called, matched, linked.finished_result finished⟩
  case served => exact linked.matched
  case once => exact linked.once_matched
  case total =>
    have fewer := (List.Nodup.subperm state.nodup_okCalls_some linked.okCalls_subset).length_le
    rw [List.length_map, List.length_map, List.length_map, linked.length_okCalls] at fewer
    exact fewer
  case received => exact linked.received

/-! ## Without failures -/

section Reliable

variable [DecidableEq Reply]

theorem answer_denied {serial : Nat} {thread : Fin threads} {number : Nat}
    (found : state.server.finished.lookup serial = some service.result)
    (denied : (state.answer serial).place thread number = .answered none) :
    state.place thread number = .answered none := by
  unfold answer at denied
  split at denied
  · exact denied
  · split at denied
    · rw [place_put, found] at denied
      split at denied
      · cases denied
      · exact denied
    · exact denied

theorem Lossless.step (lossless : Lossless service state)
    (linked : Linked service concurrency state) (event : Event threads)
    (reliable : state.Reliable event) : Lossless service (state.step service event) := by
  intro thread number denied
  cases event with
  | start cq fresh => exact lossless thread number denied
  | next cq fresh => exact lossless thread number denied
  | reply index =>
      simp only [Deployment.step] at denied ⊢
      cases found : state.server.replying[index]? with
      | none =>
          rw [found] at denied
          exact lossless thread number denied
      | some op =>
          rw [found] at denied
          have lookup := linked.sound.lookup_finished
            (linked.sound.finished_of_replying (List.mem_of_getElem? found))
          have same : (state.server.step service.result (.sent index)).finished =
              state.server.finished := by
            simp only [Server.step, found]
          rw [← same] at lookup
          have before := answer_denied lookup denied
          simp only [clients_answer]
          exact lossless thread number before
  | deliver thread' position index =>
      simp only [Deployment.step] at denied ⊢
      cases found : (state.clients thread').calls.outstanding[position]? with
      | none =>
          rw [found] at denied
          exact lossless thread number denied
      | some entry =>
          cases armed : state.server.registered[index]? with
          | none =>
              rw [found, armed] at denied
              exact lossless thread number denied
          | some op =>
              simp only [found, armed] at denied ⊢
              split at denied
              · next free =>
                  rw [if_pos free]
                  rw [place_put] at denied
                  split at denied
                  · cases denied
                  · exact lossless thread number denied
              · next busy =>
                  rw [if_neg busy]
                  exact lossless thread number denied
  | refuse thread' position =>
      simp only [Deployment.step] at denied ⊢
      cases found : (state.clients thread').calls.outstanding[position]? with
      | none =>
          rw [found] at denied
          exact lossless thread number denied
      | some entry =>
          simp only [found] at denied ⊢
          split at denied
          · next refused =>
              rw [if_pos refused]
              rw [place_put] at denied
              split at denied
              · next here =>
                  obtain ⟨rfl, rfl⟩ := here
                  exact ⟨entry.2, Or.inl (List.mem_of_getElem? found), refused.2⟩
              · exact lossless thread number denied
          · next kept =>
              rw [if_neg kept]
              exact lossless thread number denied
  | fail thread' position => exact reliable.elim
  | complete thread' position elapsed =>
      simp only [Deployment.step] at denied ⊢
      cases found : (state.clients thread').calls.outstanding[position]? with
      | none =>
          rw [found] at denied
          exact lossless thread number denied
      | some entry =>
          simp only [found] at denied ⊢
          cases place : state.place thread' entry.1 with
          | sent =>
              rw [place] at denied
              exact lossless thread number denied
          | serving serial =>
              rw [place] at denied
              exact lossless thread number denied
          | answered reply =>
              rw [place] at denied
              obtain ⟨call, issued, refused⟩ := lossless thread number denied
              refine ⟨call, ?_, refused⟩
              simp only
              split
              · next here =>
                  subst here
                  exact issued.turn service.client service.timeDura (linked.going found) found
              · exact issued

theorem lossless_run (service : Service threads Source Call Request Reply) (concurrency : Int32)
    (source : Fin threads → Source) (events : List (Event threads))
    (reliable : Along (step service) Reliable (init service concurrency source) events) :
    Lossless service (run (step service) (init service concurrency source) events) := by
  have both := run_invariant_along (step service) Reliable
    (fun state => Linked service concurrency.toInt.toNat state ∧ Lossless service state)
    (by
      intro state event holds reliable
      exact ⟨holds.1.step event, holds.2.step holds.1 event reliable⟩)
    events (init service concurrency source)
    ⟨linked_init service concurrency source, by
      intro thread number denied
      cases denied⟩ reliable
  exact both.2

end Reliable

theorem Lossless.ok_eq_passes (lossless : Lossless service state)
    (linked : Linked service concurrency state) {thread : Fin threads} {number : Nat}
    {outcome : Outcome Call}
    (gone : (number, outcome) ∈ (state.clients thread).calls.settled) :
    outcome.ok = service.passes thread number outcome.call := by
  cases ok : outcome.ok with
  | true =>
      obtain ⟨serial, called, _⟩ := linked.served_ok gone ok
      exact (linked.request_of_finished called gone).1.symm
  | false =>
      obtain ⟨reply, answered, status⟩ := linked.settled thread number outcome gone
      rw [ok] at status
      have absent : reply = none := by
        apply Option.not_isSome_iff_eq_none.mp
        simp [← status]
      rw [absent] at answered
      obtain ⟨call, issued, refused⟩ := lossless thread number answered
      rw [issued.unique gone]
      exact refused.symm

/-- With no call left, each object that has an RPC has answered a call that was
counted. -/
theorem Lossless.drained (lossless : Lossless service state)
    (linked : Linked service concurrency state)
    (ended : ∀ thread, (state.clients thread).reqCnt = 0) {serial : Nat}
    (member : serial ∈ state.server.matched.map Prod.fst) :
    serial ∈ state.server.finished.map Prod.fst ∧
      state.caller serial ∈ state.okCalls.map some := by
  obtain ⟨⟨_, request⟩, present, rfl⟩ := List.mem_map.mp member
  obtain ⟨thread, number, call, called, issued, _, passes⟩ := linked.matched _ request present
  have none_left : (state.clients thread).calls.outstanding = [] := by
    have held := (linked.accounted thread).held
    apply List.eq_nil_of_length_eq_zero
    have empty := ended thread
    omega
  cases issued with
  | inl held =>
      rw [none_left] at held
      cases held
  | inr gone =>
      obtain ⟨outcome, settled, same⟩ := gone
      have ok := lossless.ok_eq_passes linked settled
      rw [same, passes] at ok
      obtain ⟨serial', called', finished⟩ := linked.served_ok settled ok
      have equal := linked.once _ _ (thread, number) called called'
      rw [← equal] at finished
      refine ⟨finished, ?_⟩
      rw [called]
      exact List.mem_map_of_mem (mem_okCalls.mpr ⟨outcome, settled, ok⟩)

theorem Lossless.exact (lossless : Lossless service state)
    (linked : Linked service concurrency state) : Exact service state := by
  constructor
  case counts =>
    intro thread
    have accounted := linked.accounted thread
    rw [accounted.counted, accounted.failed]
    constructor
    · apply List.countP_congr
      intro call gone
      rw [lossless.ok_eq_passes linked gone]
    · apply List.countP_congr
      intro call gone
      rw [lossless.ok_eq_passes linked gone]
  case drained =>
    intro ended
    have serials : (state.server.matched.map fun rpc => state.caller rpc.1) ⊆
        state.okCalls.map some := by
      intro key member
      obtain ⟨rpc, present, rfl⟩ := List.mem_map.mp member
      exact (lossless.drained linked ended (List.mem_map_of_mem present)).2
    have fewer := (List.Nodup.subperm linked.once_matched serials).length_le
    have answered := (List.Nodup.subperm (Server.Books.matched_nodup linked.sound) (by
      intro serial member
      exact (lossless.drained linked ended member).1)).length_le
    have total := linked.atMostOnce.total
    have served := linked.sound.served.length_eq
    simp only [List.length_map, List.length_append] at fewer answered served
    rw [linked.length_okCalls] at fewer
    constructor
    · omega
    · omega

/-- For every order of deliveries, replies, failures and completions, a call that
a client counts was served by exactly one object of the server, with its own
request. -/
theorem deployment_atMostOnce [DecidableEq Reply]
    (service : Service threads Source Call Request Reply) (concurrency : Int32)
    (source : Fin threads → Source) (events : List (Event threads)) :
    AtMostOnce service (run (step service) (init service concurrency source) events) :=
  (linked_run service concurrency source events).atMostOnce

/-- When no call fails in the network, the clients count exactly the calls that
pass the filter, and at the end the server has served just these. -/
theorem deployment_exact [DecidableEq Reply]
    (service : Service threads Source Call Request Reply) (concurrency : Int32)
    (source : Fin threads → Source) (events : List (Event threads))
    (reliable : Along (step service) Reliable (init service concurrency source) events) :
    Exact service (run (step service) (init service concurrency source) events) :=
  (lossless_run service concurrency source events reliable).exact
    (linked_run service concurrency source events)

def short (threads : Nat) (seconds : Int32) :
    Service threads Unit ByteList.Bytes ByteList.Bytes ByteList.Bytes :=
  throughput threads { concurrency := 2, dataSize := 1, timeDurationSec := seconds } [97] [98]
    fun ack => UInt64.ofNat (2 + ack.length)

/-- Two threads of the client; a call of the second comes and goes before those
of the first. -/
theorem deployment_exact_round :
    Exact (short 2 1)
      (run (step (short 2 1)) (init (short 2 1) 2 fun _ => ())
        [.start 0 0, .start 1 1, .deliver 1 1 1, .deliver 0 0 0, .next 1 2, .reply 0,
          .complete 1 1 7]) :=
  deployment_exact _ 2 (fun _ => ()) _
    ⟨trivial, trivial, trivial, trivial, trivial, trivial, trivial, trivial⟩

end RpcBench.Grpc.Deployment
