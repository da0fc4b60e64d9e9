import RpcBench.RpcHello.Served
import Mathlib.Algebra.BigOperators.Group.Finset.Basic
import Mathlib.Algebra.Order.BigOperators.Group.List
import Mathlib.Data.Int.CardIntervalMod

/-! # What the counters say

A call is handled once at most, by the server thread of its client.  The
counters of the server threads are what their clients sent, failures apart, and
`run_bench` does not tell a failure from a reply. -/
set_option autoImplicit false

namespace RpcBench.RpcHello

open Machine

namespace Deployment

variable {setup : Setup} {state : Deployment setup} {histogram : Histogram}
  {clock : Fin setup.clients → Prologue}

def clientsOf (setup : Setup) (server : Fin setup.servers) : List (Fin setup.clients) :=
  (List.finRange setup.clients).filter fun thread => setup.connect thread = some server

def callsOf (state : Deployment setup) (server : Fin setup.servers)
    (thread : Fin setup.clients) : List Nat :=
  ((state.handled server).filter fun call => call.1 = thread).map Prod.snd

def Reliable (_state : Deployment setup) : Event setup → Prop
  | .fail _ _ => False
  | _ => True

structure Served (state : Deployment setup) : Prop where
  /-- no call is handled twice -/
  once : ∀ server, (state.handled server).Nodup
  /-- a call is handled by the server thread of the remainder, and was made -/
  routed : ∀ server thread number, (thread, number) ∈ state.handled server →
    (server : Nat) = (thread : Nat) % setup.numServerThreads ∧
      number < (state.benches thread).scnt
  count : ∀ server,
    (state.greeters server).count.toNat = (state.handled server).length % 2 ^ 64
  /-- a counted call failed, or was handled and has a provisioned reply -/
  counted : ∀ thread number counted,
    (number, counted) ∈ (state.benches thread).replyFutures.settled →
      state.place thread number = .failed ∨
        state.place thread number =
            .replied (List.replicate setup.server.replySize 43) ∧
          ∃ server, (thread, number) ∈ state.handled server
  /-- a server thread is ahead of its clients by their windows at most -/
  ahead : ∀ server, (state.handled server).length ≤
    ((clientsOf setup server).map fun thread => (state.benches thread).rcnt).sum +
      setup.numClientThreads / setup.numServerThreads * setup.args.concurrency

theorem length_clientsOf (matched : setup.Matched) (server : Fin setup.servers) :
    (clientsOf setup server).length = setup.numClientThreads / setup.numServerThreads := by
  have inside : (server : Nat) < setup.numServerThreads := by
    rw [← matched.servers_eq]
    exact server.isLt
  have residues := Nat.count_modEq_card setup.clients matched.some_server (server : Nat)
  have whole : setup.clients % setup.numServerThreads = 0 := by
    rw [matched.clients_eq]
    exact Nat.mod_eq_zero_of_dvd matched.divides
  rw [whole, if_neg (Nat.not_lt_zero _), Nat.add_zero, matched.clients_eq,
    Nat.count_eq_card_filter_range] at residues
  rw [← residues, ← matched.clients_eq]
  have listed : (clientsOf setup server).map Fin.val =
      (List.range setup.clients).filter fun tid =>
        tid ≡ (server : Nat) [MOD setup.numServerThreads] := by
    rw [← List.map_coe_finRange_eq_range, List.filter_map]
    unfold clientsOf
    congr 1
    apply List.filter_congr
    intro thread _
    apply decide_eq_decide.mpr
    rw [matched.connect_iff]
    unfold Nat.ModEq
    rw [Nat.mod_eq_of_lt inside]
    exact eq_comm
  have lengths := congrArg List.length listed
  rw [List.length_map] at lengths
  exact lengths

/-- Each call that a server thread handled is one of its clients'. -/
theorem Linked.length_handled (linked : Linked state) (server : Fin setup.servers) :
    (state.handled server).length =
      ((clientsOf setup server).map fun thread => (state.callsOf server thread).length).sum := by
  have clients : ∀ thread ∈ (state.handled server).map Prod.fst,
      thread ∈ clientsOf setup server := by
    intro thread member
    obtain ⟨⟨thread', number⟩, handled, same⟩ := List.mem_map.mp member
    subst same
    refine List.mem_filter.mpr ⟨List.mem_finRange thread', ?_⟩
    exact decide_eq_true (linked.routed server thread' number handled).1
  have distinct : (clientsOf setup server).Nodup := (List.nodup_finRange _).filter _
  have total := Multiset.sum_count_eq_card (s := (clientsOf setup server).toFinset)
    (m := ((state.handled server).map Prod.fst : List (Fin setup.clients))) (by
      intro thread member
      exact List.mem_toFinset.mpr (clients thread member))
  rw [List.sum_toFinset _ distinct] at total
  have lengths : ((state.handled server).map Prod.fst).length = (state.handled server).length :=
    List.length_map _
  rw [← lengths]
  refine Eq.trans total.symm ?_
  congr 1
  apply List.map_congr_left
  intro thread _
  rw [Multiset.coe_count]
  unfold callsOf
  rw [List.length_map, List.count_eq_countP, List.countP_map, ← List.countP_eq_length_filter]
  apply List.countP_congr
  intro call _
  simp

theorem Linked.callsOf_nodup (linked : Linked state) (server : Fin setup.servers)
    (thread : Fin setup.clients) : (state.callsOf server thread).Nodup := by
  unfold callsOf
  apply List.Nodup.map_on _ ((linked.once server).filter _)
  intro call member call' member' same
  have here := of_decide_eq_true (List.mem_filter.mp member).2
  have here' := of_decide_eq_true (List.mem_filter.mp member').2
  exact Prod.ext (here.trans here'.symm) same

theorem mem_callsOf {server : Fin setup.servers} {thread : Fin setup.clients} {number : Nat} :
    number ∈ state.callsOf server thread ↔ (thread, number) ∈ state.handled server := by
  unfold callsOf
  constructor
  · intro member
    obtain ⟨⟨thread', number'⟩, kept, same⟩ := List.mem_map.mp member
    obtain ⟨handled, here⟩ := List.mem_filter.mp kept
    have here := of_decide_eq_true here
    subst here same
    exact handled
  · intro handled
    exact List.mem_map.mpr ⟨(thread, number), List.mem_filter.mpr ⟨handled, by simp⟩, rfl⟩

theorem Linked.lt_scnt (linked : Linked state) {server : Fin setup.servers}
    {thread : Fin setup.clients} {number : Nat}
    (handled : (thread, number) ∈ state.handled server) :
    number < (state.benches thread).scnt := by
  have moved := (linked.routed server thread number handled).2
  rw [← (linked.kept thread).issued]
  by_contra unissued
  exact moved (linked.unissued thread number (Nat.le_of_not_lt unissued))

theorem Linked.callsOf_le (linked : Linked state) (server : Fin setup.servers)
    (thread : Fin setup.clients) :
    (state.callsOf server thread).length ≤ (state.benches thread).scnt := by
  have subset : state.callsOf server thread ⊆ List.range (state.benches thread).scnt := by
    intro number member
    exact List.mem_range.mpr (linked.lt_scnt (mem_callsOf.mp member))
  have shorter := ((linked.callsOf_nodup server thread).subperm subset).length_le
  rw [List.length_range] at shorter
  exact shorter

theorem Linked.served (linked : Linked state) (matched : setup.Matched) : Served state := by
  constructor
  case once => exact linked.once
  case routed =>
    intro server thread number handled
    have connected := (linked.routed server thread number handled).1
    exact ⟨(matched.connect_iff thread server).mp connected, linked.lt_scnt handled⟩
  case count => exact linked.count
  case counted =>
    intro thread number counted member
    cases place : state.place thread number with
    | sent => exact absurd place (linked.settled thread number counted member)
    | failed => exact Or.inl rfl
    | replied message =>
        obtain ⟨same, handled⟩ := linked.replied thread number message place
        rw [same]
        exact Or.inr ⟨rfl, handled⟩
  case ahead =>
    intro server
    rw [linked.length_handled server, ← length_clientsOf matched server]
    generalize clientsOf setup server = threads
    induction threads with
    | nil => exact Nat.zero_le _
    | cons thread threads ih =>
        have calls := linked.callsOf_le server thread
        have held := (linked.kept thread).held
        have window := (linked.kept thread).window
        rw [List.map_cons, List.sum_cons, List.map_cons, List.sum_cons, List.length_cons,
          Nat.succ_mul]
        omega

def Whole (state : Deployment setup) : Prop :=
  ∀ thread number, state.place thread number ≠ .failed

theorem Whole.step (whole : Whole state) (linked : Linked state)
    (provisioned : 0 < setup.server.provisionCount) (event : Event setup)
    (reliable : state.Reliable event) : Whole (state.step histogram clock event) := by
  intro thread number
  cases event with
  | handle thread' number' =>
      simp only [Deployment.step]
      split
      · exact whole thread number
      · next server _ =>
          split
          · simp only [serve, place_put]
            split
            · rw [(sayHello_spec (linked.replies server)).2, if_neg (Nat.ne_of_gt provisioned)]
              exact Place.noConfusion
            · exact whole thread number
          · exact whole thread number
  | fail thread' number' => exact reliable.elim
  | turn thread' turn =>
      simp only [Deployment.step]
      split
      · exact whole thread number
      · exact whole thread number

theorem whole_run (setup : Setup) (histogram : Histogram)
    (clock : Fin setup.clients → Prologue) (events : List (Event setup))
    (provisioned : 0 < setup.server.provisionCount)
    (reliable : Along (step histogram clock) Reliable (init setup clock) events) :
    Whole (run (step histogram clock) (init setup clock) events) := by
  have both := run_invariant_along (step histogram clock) Reliable
    (fun state : Deployment setup => Linked state ∧ Whole state)
    (by
      intro state event holds reliable
      exact ⟨holds.1.step event, holds.2.step holds.1 provisioned event reliable⟩)
    events (init setup clock) ⟨linked_init setup clock, fun _ _ => Place.noConfusion⟩ reliable
  exact both.2

/-- Without failures a thread has the calls handled that it counted. -/
theorem Linked.rcnt_le (linked : Linked state) (matched : setup.Matched) (whole : Whole state)
    {server : Fin setup.servers} {thread : Fin setup.clients}
    (connected : setup.connect thread = some server) :
    (state.benches thread).rcnt ≤ (state.callsOf server thread).length := by
  have numbers := (List.nodup_append.mp (state.benches thread).replyFutures.numbers_nodup).2.1
  have subset : (state.benches thread).replyFutures.settled.map Prod.fst ⊆
      state.callsOf server thread := by
    intro number member
    obtain ⟨⟨number', counted⟩, settled, same⟩ := List.mem_map.mp member
    subst same
    rcases (linked.served matched).counted thread number' counted settled with
      failed | ⟨_, server', handled⟩
    · exact absurd failed (whole thread number')
    · have connected' := (linked.routed server' thread number' handled).1
      rw [connected] at connected'
      rw [← Option.some.inj connected'] at handled
      exact mem_callsOf.mpr handled
  have shorter := (numbers.subperm subset).length_le
  have lengths := (state.benches thread).replyFutures.length_add_length
  have held := (linked.kept thread).held
  have issued := (linked.kept thread).issued
  rw [List.length_map] at shorter
  omega

/-- For every interleaving of the threads a call is handled once at most, by the
server thread of its client, and without failures each server thread has
handled at least what its clients counted. -/
theorem deployment_served (setup : Setup) (matched : setup.Matched) (histogram : Histogram)
    (clock : Fin setup.clients → Prologue) (events : List (Event setup)) :
    Served (run (step histogram clock) (init setup clock) events) ∧
      (0 < setup.server.provisionCount →
        Along (step histogram clock) Reliable (init setup clock) events →
        ∀ server,
          ((clientsOf setup server).map fun thread =>
              ((run (step histogram clock) (init setup clock) events).benches thread).rcnt).sum ≤
            ((run (step histogram clock) (init setup clock) events).handled server).length) := by
  have linked := linked_run setup histogram clock events
  refine ⟨linked.served matched, ?_⟩
  intro provisioned reliable server
  have whole := whole_run setup histogram clock events provisioned reliable
  rw [linked.length_handled server]
  apply List.sum_le_sum
  intro thread member
  exact linked.rcnt_le matched whole (of_decide_eq_true (List.mem_filter.mp member).2)

def pairOfThreads : Setup where
  args := { threeCalls with concurrency := 1, totalIters := 1, warmup := 0 }
  port := 5000
  numClientThreads := 2
  numServerThreads := 2
  server := { port := 5000, replySize := 1, provisionCount := 1, numServerThreads := 2 }

theorem matched_pairOfThreads : pairOfThreads.Matched := by
  constructor
  case ports => rfl
  case threads => rfl
  case divides => exact Nat.dvd_refl 2
  case some_client => exact Nat.succ_pos 1
  case some_server => exact Nat.succ_pos 1
  case some_port => decide
  case room => decide

theorem deployment_served_one :
    Served (run (step minuteHistogram fun _ => zeroClock) (init pairOfThreads fun _ => zeroClock)
        [.handle ⟨1, by decide⟩ 0, .turn ⟨1, by decide⟩ (turnAt 0 5)]) ∧
      ∀ server, ((clientsOf pairOfThreads server).map fun thread =>
          ((run (step minuteHistogram fun _ => zeroClock) (init pairOfThreads fun _ => zeroClock)
            [.handle ⟨1, by decide⟩ 0, .turn ⟨1, by decide⟩ (turnAt 0 5)]).benches
              thread).rcnt).sum ≤
        ((run (step minuteHistogram fun _ => zeroClock) (init pairOfThreads fun _ => zeroClock)
          [.handle ⟨1, by decide⟩ 0, .turn ⟨1, by decide⟩ (turnAt 0 5)]).handled
            server).length := by
  have served := deployment_served pairOfThreads matched_pairOfThreads minuteHistogram
    (fun _ => zeroClock) [.handle ⟨1, by decide⟩ 0, .turn ⟨1, by decide⟩ (turnAt 0 5)]
  exact ⟨served.1, served.2 (by decide) ⟨trivial, trivial, trivial⟩⟩

end Deployment

end RpcBench.RpcHello
