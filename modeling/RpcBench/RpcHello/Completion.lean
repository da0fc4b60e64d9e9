import RpcBench.RpcHello.Handled
import RpcBench.Lib.Weights

/-! # A run without a duration completes

Every event lowers a rank that is known before the run: an unsent call has three
events before it, and each thread leaves its loop once.  A client thread that
runs can always be brought on, so the benchmark ends, and it ends with the same
count whether the calls fail or not. -/
set_option autoImplicit false

namespace RpcBench.RpcHello

open Machine

def Place.weight : Place → Nat
  | .sent => 3
  | .replied _ => 2
  | .failed => 1

theorem Place.weight_pos (place : Place) : 0 < place.weight := by
  cases place with
  | sent => exact Nat.succ_pos 2
  | replied message => exact Nat.succ_pos 1
  | failed => exact Nat.succ_pos 0

namespace Deployment

variable {setup : Setup}

def Enabled (state : Deployment setup) : Event setup → Prop
  | .handle thread number => (setup.connect thread).isSome = true ∧
      state.Holds thread number ∧ state.place thread number = .sent
  | .fail thread number => state.Holds thread number ∧ state.place thread number ≠ .failed
  | .turn thread turn => (state.benches thread).outcome = .running ∧
      state.woken thread turn = true

instance (state : Deployment setup) (event : Event setup) : Decidable (state.Enabled event) :=
  match event with
  | .handle _ _ => inferInstanceAs (Decidable (_ ∧ _))
  | .fail _ _ => inferInstanceAs (Decidable (_ ∧ _))
  | .turn _ _ => inferInstanceAs (Decidable (_ ∧ _))

def loopRank (outcome : Outcome) : Nat := if outcome = .running then 1 else 0

def rankOf (state : Deployment setup) (thread : Fin setup.clients) : Nat :=
  3 * (setup.args.limit - (state.benches thread).scnt) +
    (state.benches thread).replyFutures.weight (fun number =>
      (state.place thread number).weight) +
    loopRank (state.benches thread).outcome

def rank (state : Deployment setup) : Nat :=
  ((List.finRange setup.clients).map state.rankOf).sum

variable {state state' : Deployment setup} {histogram : Histogram}
  {clock : Fin setup.clients → Prologue}

theorem rank_lt (thread : Fin setup.clients)
    (same : ∀ other, other ≠ thread → state'.rankOf other = state.rankOf other)
    (fallen : state'.rankOf thread < state.rankOf thread) : state'.rank < state.rank := by
  have changed := List.sum_map_change (List.nodup_finRange setup.clients)
    (List.mem_finRange thread) state.rankOf state'.rankOf (by
      intro other _ different
      exact same other different)
  unfold rank
  omega

theorem rank_put {thread : Fin setup.clients} {number : Nat}
    (holds : state.Holds thread number) {place : Place}
    (closer : place.weight < (state.place thread number).weight) :
    (state.put thread number place).rank < state.rank := by
  apply rank_lt thread
  · intro other different
    unfold rankOf
    simp only [benches_put, place_put, different, false_and, if_false]
  · have moved := Ledger.weight_change holds (fun other => (state.place thread other).weight)
      (fun other => ((state.put thread number place).place thread other).weight) (by
        intro other different
        simp only [place_put, different, and_false, if_false])
    have written : (state.put thread number place).place thread number = place :=
      if_pos ⟨rfl, rfl⟩
    simp only [written] at moved
    unfold rankOf
    simp only [benches_put]
    omega

theorem Linked.rank_turned (linked : Linked state) (histogram : Histogram)
    (clock : Fin setup.clients → Prologue) {thread : Fin setup.clients} {turn : Turn}
    (running : (state.benches thread).outcome = .running)
    (woken : state.woken thread turn = true) :
    ({ state with
      benches := fun thread' =>
        if thread' = thread then
          (state.benches thread).turn setup.args histogram (clock thread) turn
        else state.benches thread' } : Deployment setup).rank < state.rank := by
  apply rank_lt thread
  · intro other different
    unfold rankOf
    simp only [different, if_false]
  · obtain ⟨ready, _⟩ := woken_spec woken
    have unissued := linked.unissued thread _ (Nat.le_refl _)
    have going : loopRank (state.benches thread).outcome = 1 := if_pos running
    have ending : loopRank ((state.benches thread).turn setup.args histogram (clock thread)
        turn).outcome ≤ 1 := by
      unfold loopRank
      split
      · exact Nat.le_refl 1
      · exact Nat.zero_le 1
    unfold rankOf
    simp only [if_true]
    rcases Bench.turn_futures (linked.kept thread) histogram (clock thread) turn with
      ⟨futures, scnt, stops⟩ | ⟨_, inside, counted, ⟨futures, scnt⟩ | ⟨next, more, futures, scnt⟩⟩
    · have stopped : loopRank ((state.benches thread).turn setup.args histogram (clock thread)
          turn).outcome = 0 := if_neg (stops ready)
      rw [futures, scnt]
      omega
    · have settled := Ledger.weight_settle (fun number => (state.place thread number).weight)
        counted inside
      have weighs := (state.place thread
        (state.benches thread).replyFutures.outstanding[turn.index].1).weight_pos
      rw [futures, scnt]
      omega
    · have settled := Ledger.weight_settle (fun number => (state.place thread number).weight)
        counted inside
      have weighs := (state.place thread
        (state.benches thread).replyFutures.outstanding[turn.index].1).weight_pos
      have added : (state.place thread (state.benches thread).replyFutures.issued).weight = 3 := by
        rw [unissued]
        rfl
      rw [futures, scnt, Ledger.weight_issue, Ledger.issued_settle]
      omega

theorem Linked.rank_step (linked : Linked state) (histogram : Histogram)
    (clock : Fin setup.clients → Prologue) (event : Event setup) (enabled : state.Enabled event) :
    (state.step histogram clock event).rank < state.rank := by
  cases event with
  | handle thread number =>
      obtain ⟨found, holds, waits⟩ := enabled
      obtain ⟨server, connected⟩ := Option.isSome_iff_exists.mp found
      simp only [Deployment.step, connected]
      rw [if_pos ⟨holds, waits⟩]
      have lighter : (outcome ((state.greeters server).sayHello setup.server).1).weight < 3 := by
        rw [(sayHello_spec (linked.replies server)).2]
        split
        · exact Nat.lt_succ_of_lt (Nat.lt_succ_self 1)
        · exact Nat.lt_succ_self 2
      have moved : (state.put thread number
          (outcome ((state.greeters server).sayHello setup.server).1)).rank < state.rank := by
        apply rank_put holds
        rw [waits]
        exact lighter
      exact moved
  | fail thread number =>
      obtain ⟨holds, whole⟩ := enabled
      simp only [Deployment.step]
      rw [if_pos holds]
      apply rank_put holds
      cases place : state.place thread number with
      | sent => exact Nat.lt_succ_of_lt (Nat.lt_succ_self 1)
      | replied message => exact Nat.lt_succ_self 1
      | failed => exact absurd place whole
  | turn thread turn =>
      simp only [Deployment.step]
      rw [if_pos enabled.2]
      exact linked.rank_turned histogram clock enabled.1 enabled.2

theorem rank_init (setup : Setup) (clock : Fin setup.clients → Prologue) :
    (init setup clock).rank ≤ setup.clients * (3 * setup.args.limit + 1) := by
  have each : ∀ thread, (init setup clock).rankOf thread ≤ 3 * setup.args.limit + 1 := by
    intro thread
    have kept := (linked_init setup clock).kept thread
    have weight : ((init setup clock).benches thread).replyFutures.weight (fun number =>
        ((init setup clock).place thread number).weight) =
        3 * ((init setup clock).benches thread).replyFutures.outstanding.length := by
      change (((init setup clock).benches thread).replyFutures.outstanding.map fun _ =>
        3).sum = _
      rw [List.map_const', List.sum_replicate_nat, Nat.mul_comm]
    have ending : loopRank ((init setup clock).benches thread).outcome ≤ 1 := by
      unfold loopRank
      split
      · exact Nat.le_refl 1
      · exact Nat.zero_le 1
    have held := kept.held
    have sent := kept.sent
    unfold rankOf
    rw [weight]
    omega
  have total := List.sum_le_card_nsmul ((List.finRange setup.clients).map (init setup clock).rankOf)
    (3 * setup.args.limit + 1) (by
      intro rank member
      obtain ⟨thread, _, rfl⟩ := List.mem_map.mp member
      exact each thread)
  rw [List.length_map, List.length_finRange, Nat.nsmul_eq_mul] at total
  exact total

/-! ## Something can happen -/

theorem Linked.progress (matched : setup.Matched) {thread : Fin setup.clients}
    (running : (state.benches thread).outcome = .running) :
    ∃ event, state.Enabled event ∧ state.Reliable event := by
  let turn : Turn :=
    { index := 0, check := 0, reply := 0, warmupEnd := 0, issue := 0, report := 0, reset := 0 }
  cases waiting : (state.benches thread).replyFutures.outstanding with
  | nil =>
      refine ⟨.turn thread turn, ⟨running, ?_⟩, trivial⟩
      simp only [woken, waiting, List.getElem?_nil, List.isEmpty_nil]
  | cons entry rest =>
      have holds : state.Holds thread entry.1 := by
        unfold Holds
        rw [waiting, List.map_cons]
        exact List.mem_cons_self
      by_cases sent : state.place thread entry.1 = .sent
      · exact ⟨.handle thread entry.1, ⟨matched.connects thread, holds, sent⟩, trivial⟩
      · refine ⟨.turn thread turn, ⟨running, ?_⟩, trivial⟩
        simp only [woken, waiting, turn, List.getElem?_cons_zero]
        exact decide_eq_true sent

structure Going (state : Deployment setup) : Prop where
  linked : Linked state
  finishes : ∀ thread, Finishes setup.args (state.benches thread)

theorem going_init (matched : setup.Matched) (provisioned : 0 < setup.args.provisionCount)
    (clock : Fin setup.clients → Prologue) : Going (init setup clock) := by
  constructor
  case linked => exact linked_init setup clock
  case finishes =>
    intro thread
    simp only [init, if_pos (matched.connects thread)]
    exact finishes_start provisioned (clock thread)

theorem Going.step (going : Going state) (unlimited : setup.args.duration = none)
    (provisioned : 0 < setup.args.provisionCount) (busy : 0 < setup.args.concurrency)
    (event : Event setup) : Going (state.step histogram clock event) := by
  constructor
  case linked => exact going.linked.step event
  case finishes =>
    intro thread
    cases event with
    | handle thread' number =>
        simp only [Deployment.step]
        split
        · exact going.finishes thread
        · split
          · exact going.finishes thread
          · exact going.finishes thread
    | fail thread' number =>
        simp only [Deployment.step]
        split
        · exact going.finishes thread
        · exact going.finishes thread
    | turn thread' turn =>
        simp only [Deployment.step]
        split
        · simp only
          split
          · have before := going.finishes thread'
            by_cases running : (state.benches thread').outcome = .running
            · exact (before.progress unlimited provisioned busy running histogram
                (clock thread') turn).1
            · rw [Bench.turn_stopped running]
              exact before
          · exact going.finishes thread
        · exact going.finishes thread

structure Completes (state : Deployment setup) (events : List (Event setup)) : Prop where
  bounded : events.length ≤
    setup.clients * (3 * (setup.args.totalIters + setup.args.warmup) + 1)
  /-- while a client thread runs, more can happen without a failure -/
  progress : (∃ thread, (state.benches thread).outcome = .running) →
    ∃ event, state.Enabled event ∧ state.Reliable event
  /-- the thread counts as many responses with failures as without -/
  ended : ∀ thread, (state.benches thread).outcome ≠ .running →
    (state.benches thread).outcome = .done ∧
      (state.benches thread).rcnt = setup.args.totalIters + setup.args.warmup

/-- In every interleaving a run without a duration ends after so many events,
with each client thread at the full count; if nothing failed, each server
thread has handled the same share. -/
theorem deployment_completes (setup : Setup) (matched : setup.Matched)
    (unlimited : setup.args.duration = none) (provisioned : 0 < setup.args.provisionCount)
    (busy : 0 < setup.args.concurrency)
    (fits : setup.args.totalIters + setup.args.warmup < 2 ^ 64) (histogram : Histogram)
    (clock : Fin setup.clients → Prologue) (events : List (Event setup))
    (enabled : Along (step histogram clock) Enabled (init setup clock) events) :
    Completes (run (step histogram clock) (init setup clock) events) events ∧
      (0 < setup.server.provisionCount →
        Along (step histogram clock) Reliable (init setup clock) events →
        (∀ thread, ((run (step histogram clock) (init setup clock) events).benches
          thread).outcome ≠ .running) →
        ∀ server, ((run (step histogram clock) (init setup clock) events).handled server).length =
          setup.numClientThreads / setup.numServerThreads *
            (setup.args.totalIters + setup.args.warmup)) := by
  have limit : setup.args.limit = setup.args.totalIters + setup.args.warmup := by
    unfold Args.limit Args.iterations
    rw [unlimited]
    exact Nat.mod_eq_of_lt fits
  have going : Going (run (step histogram clock) (init setup clock) events) := by
    apply run_invariant (step histogram clock) Going _ events _
      (going_init matched provisioned clock)
    intro state event going
    exact going.step unlimited provisioned busy event
  have ended : ∀ thread, ((run (step histogram clock) (init setup clock) events).benches
      thread).outcome ≠ .running →
      ((run (step histogram clock) (init setup clock) events).benches thread).outcome = .done ∧
        ((run (step histogram clock) (init setup clock) events).benches thread).rcnt =
          setup.args.limit ∧
        ((run (step histogram clock) (init setup clock) events).benches thread).scnt =
          setup.args.limit := by
    intro thread stopped
    have finishes := going.finishes thread
    cases outcome : ((run (step histogram clock) (init setup clock) events).benches
        thread).outcome with
    | running => exact absurd outcome stopped
    | panicked => exact absurd outcome finishes.whole
    | done => exact ⟨rfl, finishes.finished outcome⟩
  constructor
  · constructor
    case bounded =>
      have steps := length_add_rank_le (step histogram clock) Enabled Linked rank
        (by
          intro state event linked enabled
          exact ⟨linked.step event, linked.rank_step histogram clock event enabled⟩)
        events (init setup clock) (linked_init setup clock) enabled
      have first := rank_init setup clock
      rw [limit] at first
      omega
    case progress =>
      intro running
      obtain ⟨thread, running⟩ := running
      exact Linked.progress matched running
    case ended =>
      intro thread stopped
      obtain ⟨done, rcnt, _⟩ := ended thread stopped
      exact ⟨done, rcnt.trans limit⟩
  · intro replies reliable stopped server
    have whole := whole_run setup histogram clock events replies reliable
    have linked := going.linked
    rw [linked.length_handled server, ← length_clientsOf matched server, ← limit]
    have same : ∀ calls ∈ (clientsOf setup server).map fun thread =>
        ((run (step histogram clock) (init setup clock) events).callsOf server thread).length,
        calls = setup.args.limit := by
      intro calls member
      obtain ⟨thread, client, rfl⟩ := List.mem_map.mp member
      have connected := of_decide_eq_true (List.mem_filter.mp client).2
      have counted := linked.rcnt_le matched whole connected
      have made := linked.callsOf_le server thread
      obtain ⟨_, rcnt, scnt⟩ := ended thread (stopped thread)
      omega
    rw [List.eq_replicate_of_mem same, List.sum_replicate_nat, List.length_map]

def crossed : List (Event pairOfThreads) :=
  [.handle ⟨1, by decide⟩ 0, .handle ⟨0, by decide⟩ 0, .turn ⟨1, by decide⟩ (turnAt 0 5),
    .turn ⟨0, by decide⟩ (turnAt 0 6), .turn ⟨0, by decide⟩ (turnAt 0 7),
    .turn ⟨1, by decide⟩ (turnAt 0 8)]

theorem deployment_completes_crossed :
    Completes (run (step minuteHistogram fun _ => zeroClock)
        (init pairOfThreads fun _ => zeroClock) crossed) crossed ∧
      ∀ server, ((run (step minuteHistogram fun _ => zeroClock)
        (init pairOfThreads fun _ => zeroClock) crossed).handled server).length = 1 := by
  have completed := deployment_completes pairOfThreads matched_pairOfThreads rfl (by decide)
    (by decide) (by decide) minuteHistogram (fun _ => zeroClock) crossed
    ⟨by decide, by decide, by decide, by decide, by decide, by decide, trivial⟩
  exact ⟨completed.1, completed.2 (by decide)
    ⟨trivial, trivial, trivial, trivial, trivial, trivial, trivial⟩ (by decide)⟩

end Deployment

end RpcBench.RpcHello
