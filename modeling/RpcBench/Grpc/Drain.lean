import RpcBench.Grpc.AtMostOnce
import RpcBench.Lib.Weights
import Mathlib.Algebra.BigOperators.Ring.List
import Mathlib.Algebra.Order.BigOperators.Group.List
import Mathlib.Algebra.Order.Ring.Nat
import Mathlib.Data.List.FinRange

/-! # The drain ends

Some event other than a failure can happen as long as a client holds a call.
Once the clients are timed out every event that happens lowers a rank, so the
loops end after a number of events that is known beforehand. -/
set_option autoImplicit false

namespace RpcBench.Grpc

open Machine

def Place.weight {Reply : Type} : Place Reply → Nat
  | .sent => 6
  | .serving _ => 2
  | .answered _ => 1

namespace Server

variable {Request Reply : Type} {result : Reply} {server : Server Request Reply}

def load (server : Server Request Reply) : Nat :=
  3 * (server.events.countP fun op => op.kind = .request) +
    (server.events.countP fun op => op.kind = .finish) + 2 * server.replying.length

theorem load_le (server : Server Request Reply) :
    server.load ≤ 3 * (server.events.length + server.replying.length) := by
  unfold load
  have kinds : (server.events.countP fun op => op.kind = .request) +
      (server.events.countP fun op => op.kind = .finish) = server.events.length := by
    rw [List.length_eq_countP_add_countP (fun op => decide (op.kind = .request))]
    congr 1
    apply List.countP_congr
    intro op _
    cases op.kind with
    | request => simp
    | finish => simp
  omega

theorem Sound.load_next (sound : Sound result server) {cq fresh : Nat}
    (ready : server.Ready cq fresh) :
    (server.step result (.next cq fresh)).load + 1 = server.load := by
  obtain ⟨op, front, back, split, events, _, _, kinds⟩ := sound.next_spec ready
  unfold load
  rw [events, split]
  simp only [List.countP_append, List.countP_cons]
  rcases kinds with ⟨kind, replying, _⟩ | ⟨kind, replying, _⟩
  · rw [replying, List.length_append, List.length_singleton]
    simp only [kind]
    simp
    omega
  · rw [replying]
    simp only [kind]
    simp
    omega

theorem Sound.load_sent (sound : Sound result server) {index : Nat}
    (inside : index < server.replying.length) :
    (server.step result (.sent index)).load + 1 = server.load := by
  have found := List.getElem?_eq_getElem inside
  have kind := sound.replies _ (List.getElem_mem inside)
  have shorter := List.length_eraseIdx_of_lt inside
  simp only [Server.step, found, load, List.countP_append, List.countP_singleton, kind, shorter]
  simp
  omega

theorem Sound.load_incoming (sound : Sound result server) {index : Nat} {op : Op}
    (found : server.registered[index]? = some op) (request : Request) :
    (server.step result (.incoming index request)).load = server.load + 3 := by
  obtain ⟨events, replying, _⟩ := sound.incoming_spec found request
  have kind := sound.requests op (List.mem_of_getElem? found)
  simp only [load, events, replying, List.countP_append, List.countP_singleton, kind]
  simp
  omega

end Server

namespace Deployment

variable {threads : Nat} {Source Call Request Reply : Type}

def Enabled (service : Service threads Source Call Request Reply)
    (state : Deployment threads Source Call Request Reply) : Event threads → Prop
  | .start _ _ => False
  | .next cq fresh => state.server.Ready cq fresh
  | .reply index => index < state.server.replying.length
  | .deliver thread position index => ∃ number call op,
      (state.clients thread).calls.outstanding[position]? = some (number, call) ∧
        state.server.registered[index]? = some op ∧
        state.place thread number = .sent ∧ service.passes thread number call = true
  | .refuse thread position => ∃ number call,
      (state.clients thread).calls.outstanding[position]? = some (number, call) ∧
        state.place thread number = .sent ∧ service.passes thread number call = false
  | .fail thread position => ∃ number call,
      (state.clients thread).calls.outstanding[position]? = some (number, call) ∧
        ∀ reply, state.place thread number ≠ .answered reply
  | .complete thread position _ => ∃ number call reply,
      (state.clients thread).calls.outstanding[position]? = some (number, call) ∧
        state.place thread number = .answered reply

def pendingOf (state : Deployment threads Source Call Request Reply) (thread : Fin threads) : Nat :=
  ((state.clients thread).calls.outstanding.map fun entry =>
    (state.place thread entry.1).weight).sum

def pending (state : Deployment threads Source Call Request Reply) : Nat :=
  ((List.finRange threads).map state.pendingOf).sum

def totalHeld (state : Deployment threads Source Call Request Reply) : Nat :=
  ((List.finRange threads).map fun thread =>
    (state.clients thread).calls.outstanding.length).sum

def rank (state : Deployment threads Source Call Request Reply) : Nat :=
  state.pending + state.server.load

variable {service : Service threads Source Call Request Reply} {concurrency : Nat}
  {state state' : Deployment threads Source Call Request Reply}

theorem pending_change (state state' : Deployment threads Source Call Request Reply)
    (thread : Fin threads)
    (same : ∀ other, other ≠ thread → state'.pendingOf other = state.pendingOf other) :
    state'.pending + state.pendingOf thread = state.pending + state'.pendingOf thread := by
  apply List.sum_map_change (List.nodup_finRange threads) (List.mem_finRange thread)
  intro other _ different
  exact same other different

theorem pending_put (state : Deployment threads Source Call Request Reply) {thread : Fin threads}
    {position number : Nat} {call : Call}
    (found : (state.clients thread).calls.outstanding[position]? = some (number, call))
    (place : Place Reply) :
    (state.put thread number place).pending + (state.place thread number).weight =
      state.pending + place.weight := by
  have changed := pending_change state (state.put thread number place) thread (by
      intro other different
      unfold pendingOf
      simp only [clients_put, place_put, different, false_and, if_false])
  have here : (state.put thread number place).pendingOf thread +
      (state.place thread number).weight = state.pendingOf thread + place.weight := by
    have moved := Ledger.weight_change (List.mem_map_of_mem (List.mem_of_getElem? found))
      (fun other => (state.place thread other).weight)
      (fun other => ((state.put thread number place).place thread other).weight) (by
        intro other different
        simp only [place_put, different, and_false, if_false])
    have written : (state.put thread number place).place thread number = place :=
      if_pos ⟨rfl, rfl⟩
    simp only [written] at moved
    exact moved
  omega

theorem pending_le (clients : state'.clients = state.clients)
    (closer : ∀ thread number,
      (state'.place thread number).weight ≤ (state.place thread number).weight) :
    state'.pending ≤ state.pending := by
  apply List.sum_le_sum
  intro thread _
  unfold pendingOf
  rw [clients]
  apply List.sum_le_sum
  intro entry _
  exact closer thread entry.1

theorem pending_bounds (state : Deployment threads Source Call Request Reply) :
    state.totalHeld ≤ state.pending ∧ state.pending ≤ 6 * state.totalHeld := by
  have weights : ∀ place : Place Reply, 1 ≤ place.weight ∧ place.weight ≤ 6 := by
    intro place
    cases place with
    | sent => exact ⟨by simp [Place.weight], by simp [Place.weight]⟩
    | serving serial => exact ⟨by simp [Place.weight], by simp [Place.weight]⟩
    | answered reply => exact ⟨by simp [Place.weight], by simp [Place.weight]⟩
  constructor
  · apply List.sum_le_sum
    intro thread _
    have each := List.card_nsmul_le_sum ((state.clients thread).calls.outstanding.map fun entry =>
      (state.place thread entry.1).weight) 1 (by
        intro weight member
        obtain ⟨entry, _, rfl⟩ := List.mem_map.mp member
        exact (weights _).1)
    rw [List.length_map, Nat.nsmul_eq_mul, Nat.mul_one] at each
    exact each
  · unfold totalHeld
    rw [← List.sum_map_mul_left]
    apply List.sum_le_sum
    intro thread _
    have each := List.sum_le_card_nsmul ((state.clients thread).calls.outstanding.map fun entry =>
      (state.place thread entry.1).weight) 6 (by
        intro weight member
        obtain ⟨entry, _, rfl⟩ := List.mem_map.mp member
        exact (weights _).2)
    rw [List.length_map, Nat.nsmul_eq_mul, Nat.mul_comm] at each
    exact each

/-! ## The rank falls -/

def Late (state : Deployment threads Source Call Request Reply) : Prop :=
  ∀ thread, (state.clients thread).timeout = true

section Falls

variable [DecidableEq Reply]

theorem rank_answer (state : Deployment threads Source Call Request Reply) (serial : Nat) :
    (state.answer serial).pending ≤ state.pending ∧
      (state.answer serial).server = state.server := by
  unfold answer
  split
  · exact ⟨Nat.le_refl _, rfl⟩
  · next key called =>
      split
      · next serving =>
          refine ⟨pending_le rfl ?_, rfl⟩
          intro thread number
          rw [place_put]
          split
          · next here =>
              obtain ⟨rfl, rfl⟩ := here
              rw [serving]
              exact Nat.le_succ 1
          · exact Nat.le_refl _
      · exact ⟨Nat.le_refl _, rfl⟩

omit [DecidableEq Reply] in
/-- A call that is returned leaves its thread, and none follows it. -/
theorem Linked.pending_completed (linked : Linked service concurrency state) (late : state.Late)
    {thread : Fin threads} {position number : Nat} {call : Call} {reply : Option Reply}
    (found : (state.clients thread).calls.outstanding[position]? = some (number, call))
    (answered : state.place thread number = .answered reply) (elapsed : Nat) :
    ({ state with
        clients := fun thread' =>
          if thread' = thread then
            (state.clients thread).turn service.client service.timeDura
              (completion service position elapsed reply)
          else state.clients thread' } :
      Deployment threads Source Call Request Reply).pending + 1 = state.pending ∧
    ((state.clients thread).turn service.client service.timeDura
      (completion service position elapsed reply)).timeout = true := by
  have going := linked.going found
  obtain ⟨inside, entry⟩ := List.getElem?_eq_some_iff.mp found
  have delivers : (state.clients thread).Delivers (completion service position elapsed reply) :=
    ⟨going, inside⟩
  have timedOut := ((linked.accounted thread).turn_late service.client delivers
    (Or.inl (late thread))).1
  obtain ⟨_, outstanding, _⟩ := Loop.turn_spec service.client service.timeDura
    (completion service position elapsed reply) going found
  rw [timedOut, if_pos rfl, List.append_nil] at outstanding
  refine ⟨?_, timedOut⟩
  let after : Deployment threads Source Call Request Reply :=
    { state with
      clients := fun thread' =>
        if thread' = thread then
          (state.clients thread).turn service.client service.timeDura
            (completion service position elapsed reply)
        else state.clients thread' }
  have changed := pending_change state after thread (by
    intro other different
    unfold pendingOf
    simp only [after, different, if_false])
  have here : after.pendingOf thread + 1 = state.pendingOf thread := by
    have split := ((List.getElem_cons_eraseIdx_perm inside).map fun entry =>
      (state.place thread entry.1).weight).sum_eq
    rw [entry, List.map_cons, List.sum_cons, answered] at split
    unfold pendingOf
    simp only [after, if_true, outstanding]
    rw [← split, Nat.add_comm]
    rfl
  change after.pending + 1 = state.pending
  omega

theorem Linked.rank_step (linked : Linked service concurrency state) (late : state.Late)
    (event : Event threads) (enabled : state.Enabled service event) :
    (state.step service event).Late ∧ (state.step service event).rank < state.rank := by
  unfold rank
  cases event with
  | start cq fresh => exact enabled.elim
  | next cq fresh =>
      refine ⟨late, ?_⟩
      have load := linked.sound.load_next enabled
      change state.pending + (state.server.step service.result (.next cq fresh)).load < _
      omega
  | reply index =>
      have found := List.getElem?_eq_getElem
        (show index < state.server.replying.length from enabled)
      have load := linked.sound.load_sent enabled
      let sent : Deployment threads Source Call Request Reply :=
        { state with server := state.server.step service.result (.sent index) }
      let serial := state.server.replying[index].serial
      obtain ⟨closer, server⟩ := sent.rank_answer serial
      have same : sent.pending = state.pending := rfl
      have moved : state.step service (.reply index) = sent.answer serial := by
        simp only [Deployment.step, found]
        rfl
      rw [moved]
      constructor
      · intro thread
        rw [clients_answer]
        exact late thread
      · rw [server]
        change _ + (state.server.step service.result (.sent index)).load < _
        omega
  | deliver thread position index =>
      obtain ⟨number, call, op, found, armed, sent, passes⟩ := enabled
      simp only [Deployment.step, found, armed, sent, passes, and_self, if_true]
      refine ⟨late, ?_⟩
      let served : Deployment threads Source Call Request Reply :=
        { state with
          server := state.server.step service.result (.incoming index (service.request call))
          caller := fun serial =>
            if serial = op.serial then some (thread, number) else state.caller serial }
      have load := linked.sound.load_incoming armed (service.request call)
      have moved := served.pending_put found (.serving op.serial)
      have before : (served.place thread number).weight = 6 := congrArg Place.weight sent
      have same : served.pending = state.pending := rfl
      have server : (served.put thread number (.serving op.serial)).server.load =
          (state.server.step service.result (.incoming index (service.request call))).load := rfl
      change (served.put thread number (.serving op.serial)).pending +
        (served.put thread number (.serving op.serial)).server.load < _
      rw [before, same] at moved
      rw [server]
      simp only [Place.weight] at moved
      omega
  | refuse thread position =>
      obtain ⟨number, call, found, sent, refused⟩ := enabled
      simp only [Deployment.step, found, sent, refused, and_self, if_true]
      refine ⟨late, ?_⟩
      have moved := state.pending_put found (.answered none)
      rw [sent] at moved
      simp only [Place.weight] at moved
      rw [server_put]
      omega
  | fail thread position =>
      obtain ⟨number, call, found, waits⟩ := enabled
      have moved := state.pending_put found (.answered none)
      simp only [Deployment.step, found]
      cases place : state.place thread number with
      | answered reply => exact absurd place (waits reply)
      | sent =>
          refine ⟨late, ?_⟩
          rw [place] at moved
          simp only [Place.weight, server_put] at moved ⊢
          omega
      | serving serial =>
          refine ⟨late, ?_⟩
          rw [place] at moved
          simp only [Place.weight, server_put] at moved ⊢
          omega
  | complete thread position elapsed =>
      obtain ⟨number, call, reply, found, answered⟩ := enabled
      obtain ⟨fewer, timedOut⟩ := linked.pending_completed late found answered elapsed
      simp only [Deployment.step, found, answered]
      constructor
      · intro thread'
        simp only
        split
        · exact timedOut
        · exact late thread'
      · omega

end Falls

/-! ## Something can happen -/

section Progress

theorem exists_fresh {Cell : Type} (heap : Heap Cell) : ∃ address, heap.Fresh address := by
  refine ⟨(heap.cells.map Prod.fst).sum + 1, ?_⟩
  intro used
  have bound := List.single_le_sum (fun _ _ => Nat.zero_le _) _ used
  omega

/-- Each running thread of the server has an armed object, or its RPC waits in
the queue. -/
theorem Linked.armed (linked : Linked service concurrency state) {cq : Nat}
    (started : cq ∈ state.server.threads) :
    (∃ (index : Nat) (op : Op), state.server.registered[index]? = some op) ∨
      ∃ op ∈ state.server.events, op.cq = cq := by
  obtain ⟨this, call, member, queue, status, _⟩ := Server.Books.one_armed linked.sound started
  have outstanding : opOf (this, call) ∈ state.server.outstanding :=
    linked.sound.paired.mem_iff.mpr (List.mem_map_of_mem member)
  cases List.mem_append.mp outstanding with
  | inl waiting =>
      cases List.mem_append.mp waiting with
      | inl registered =>
          obtain ⟨index, found⟩ := List.mem_iff_getElem?.mp registered
          exact Or.inl ⟨index, _, found⟩
      | inr replying =>
          have kind := linked.sound.replies _ replying
          simp [opOf, status] at kind
  | inr event => exact Or.inr ⟨_, event, queue⟩

theorem Linked.enabled (linked : Linked service concurrency state)
    (started : ∃ cq, cq ∈ state.server.threads) (thread : Fin threads) {number : Nat} {call : Call}
    (held : (number, call) ∈ (state.clients thread).calls.outstanding) :
    ∃ event, state.Enabled service event ∧ state.Reliable event := by
  obtain ⟨fresh, unused⟩ := exists_fresh state.server.heap
  obtain ⟨position, found⟩ := List.mem_iff_getElem?.mp held
  cases place : state.place thread number with
  | answered reply =>
      exact ⟨.complete thread position 0, ⟨number, call, reply, found, place⟩, trivial⟩
  | serving serial =>
      cases (linked.serving thread number serial place).2 with
      | inl event =>
          obtain ⟨op, member, _⟩ := event
          exact ⟨.next op.cq fresh, ⟨unused, op, member, rfl⟩, trivial⟩
      | inr reply =>
          obtain ⟨op, member, _⟩ := reply
          obtain ⟨index, inside, _⟩ := List.mem_iff_getElem.mp member
          exact ⟨.reply index, inside, trivial⟩
  | sent =>
      cases passes : service.passes thread number call with
      | false =>
          exact ⟨.refuse thread position, ⟨number, call, found, place, passes⟩, trivial⟩
      | true =>
          obtain ⟨cq, running⟩ := started
          cases linked.armed running with
          | inl registered =>
              obtain ⟨index, op, armed⟩ := registered
              exact ⟨.deliver thread position index,
                ⟨number, call, op, found, armed, place, passes⟩, trivial⟩
          | inr event => exact ⟨.next cq fresh, ⟨unused, event⟩, trivial⟩

/-- While a client is in its loop something other than a failure can happen. -/
theorem Linked.progress (linked : Linked service concurrency state)
    (started : ∃ cq, cq ∈ state.server.threads) {thread : Fin threads}
    (going : (state.clients thread).reqCnt ≠ 0) :
    ∃ event, state.Enabled service event ∧ state.Reliable event := by
  have counted := (linked.accounted thread).held
  cases calls : (state.clients thread).calls.outstanding with
  | nil =>
      rw [calls] at counted
      exact absurd counted going
  | cons entry rest =>
      apply linked.enabled started thread
      rw [calls]
      exact List.mem_cons_self

theorem threads_step [DecidableEq Reply]
    (state : Deployment threads Source Call Request Reply) (event : Event threads) {cq : Nat}
    (running : cq ∈ state.server.threads) :
    cq ∈ (state.step service event).server.threads := by
  have kept : ∀ input, cq ∈ (state.server.step service.result input).threads := by
    intro input
    exact (Server.mem_threads_step state.server input cq).mpr (Or.inl running)
  cases event with
  | start cq' fresh => exact kept _
  | next cq' fresh => exact kept _
  | reply index =>
      simp only [Deployment.step]
      split
      · exact running
      · next op _ =>
          rw [(rank_answer _ op.serial).2]
          exact kept _
  | deliver thread position index =>
      simp only [Deployment.step]
      split
      · split
        · rw [server_put]
          exact kept _
        · exact running
      · exact running
  | refuse thread position =>
      simp only [Deployment.step]
      split
      · split
        · exact running
        · exact running
      · exact running
  | fail thread position =>
      simp only [Deployment.step]
      split
      · split
        · exact running
        · exact running
      · exact running
  | complete thread position elapsed =>
      simp only [Deployment.step]
      split
      · split
        · exact running
        · exact running
      · exact running

end Progress

variable [DecidableEq Reply]

/-- In every state that can be reached with a thread of the server running, a
client that has not ended can be brought on without a failure. -/
theorem deployment_progress (service : Service threads Source Call Request Reply) (concurrency : Int32)
    (source : Fin threads → Source) (events : List (Event threads))
    (started : ∃ cq, cq ∈ (run (step service) (init service concurrency source)
      events).server.threads)
    (thread : Fin threads)
    (going : ((run (step service) (init service concurrency source) events).clients
      thread).reqCnt ≠ 0) :
    ∃ event, (run (step service) (init service concurrency source) events).Enabled service event ∧
      (run (step service) (init service concurrency source) events).Reliable event :=
  (linked_run service concurrency source events).progress started going

/-- The object of a new call has its RPC, and no event was taken yet. -/
theorem deployment_progress_serving :
    ∃ event,
      (run (step (short 1 1)) (init (short 1 1) 1 fun _ => ())
        [.start 0 0, .deliver 0 0 0]).Enabled (short 1 1) event ∧
      (run (step (short 1 1)) (init (short 1 1) 1 fun _ => ())
        [.start 0 0, .deliver 0 0 0]).Reliable event :=
  deployment_progress _ 1 (fun _ => ()) [.start 0 0, .deliver 0 0 0] ⟨0, by decide⟩ 0 (by decide)

structure Draining (service : Service threads Source Call Request Reply) (concurrency : Nat)
    (state : Deployment threads Source Call Request Reply) : Prop where
  linked : Linked service concurrency state
  late : state.Late
  started : ∃ cq, cq ∈ state.server.threads

theorem Draining.step (draining : Draining service concurrency state) (event : Event threads)
    (enabled : state.Enabled service event) :
    Draining service concurrency (state.step service event) ∧
      (state.step service event).rank < state.rank := by
  obtain ⟨late, fallen⟩ := draining.linked.rank_step draining.late event enabled
  obtain ⟨cq, running⟩ := draining.started
  exact ⟨⟨draining.linked.step event, late, cq, state.threads_step event running⟩,
    fallen⟩

structure Drains (service : Service threads Source Call Request Reply)
    (state : Deployment threads Source Call Request Reply) (after : List (Event threads)) :
    Prop where
  bounded : after.length ≤
    6 * state.totalHeld + 3 * (state.server.events.length + state.server.replying.length)
  /-- where no more can happen, failures apart, every loop has ended -/
  ended : (∀ event, (run (step service) state after).Enabled service event →
      ¬(run (step service) state after).Reliable event) →
    ∀ thread, ((run (step service) state after).clients thread).reqCnt = 0

/-- After the last time-out only so many events can happen, whatever their
order, and they end with every loop. -/
theorem deployment_drains (service : Service threads Source Call Request Reply) (concurrency : Int32)
    (source : Fin threads → Source) (before after : List (Event threads))
    (started : ∃ cq, cq ∈ (run (step service) (init service concurrency source)
      before).server.threads)
    (late : (run (step service) (init service concurrency source) before).Late)
    (enabled : Along (step service) (Enabled service)
      (run (step service) (init service concurrency source) before) after) :
    Drains service (run (step service) (init service concurrency source) before) after := by
  have draining : Draining service concurrency.toInt.toNat
      (run (step service) (init service concurrency source) before) :=
    ⟨linked_run service concurrency source before, late, started⟩
  generalize run (step service) (init service concurrency source) before = state at *
  constructor
  case bounded =>
    have steps := length_add_rank_le (step service) (Enabled service)
      (Draining service concurrency.toInt.toNat) rank
      (by
        intro state event draining enabled
        exact draining.step event enabled)
      after state draining enabled
    have calls := state.pending_bounds.2
    have server := state.server.load_le
    unfold rank at steps
    omega
  case ended =>
    intro stuck thread
    have later : Draining service concurrency.toInt.toNat (run (step service) state after) := by
      apply run_invariant_along (step service) (Enabled service) _ _ after state draining enabled
      intro state event draining enabled
      exact (draining.step event enabled).1
    by_contra going
    obtain ⟨event, possible, reliable⟩ := later.linked.progress later.started going
    exact stuck event possible reliable

/-! ## A run past the deadline -/

def outage : Nat → List (Event 1)
  | 0 => [.start 0 0]
  | turns + 1 => outage turns ++ [.fail 0 0, .complete 0 0 1]

structure Spinning (service : Service 1 Source Call Request Reply) (turns : Nat)
    (state : Deployment 1 Source Call Request Reply) : Prop where
  linked : Linked service 2 state
  started : 0 ∈ state.server.threads
  clock : (state.clients 0).timeCnt = turns ∧ (state.clients 0).clock = turns
  issued : (state.clients 0).calls.issued = turns + 2
  held : (state.clients 0).calls.outstanding.map Prod.fst = [turns, turns + 1]
  going : (state.clients 0).timeout = false
  waits : state.place 0 turns = .sent ∧ state.place 0 (turns + 1) = .sent

section Outage

variable {service : Service 1 Source Call Request Reply} {turns : Nat}
  {state : Deployment 1 Source Call Request Reply}

omit [DecidableEq Reply] in
theorem Spinning.calls (spinning : Spinning service turns state) :
    ∃ call call', (state.clients 0).calls.outstanding = [(turns, call), (turns + 1, call')] := by
  obtain ⟨first, rest, calls, oldest, behind⟩ := List.map_eq_cons_iff.mp spinning.held
  obtain ⟨second, rest', calls', newest, none_left⟩ := List.map_eq_cons_iff.mp behind
  obtain ⟨number, call⟩ := first
  obtain ⟨number', call'⟩ := second
  simp only at oldest newest
  subst oldest newest
  rw [calls, calls', List.map_eq_nil_iff.mp none_left]
  exact ⟨call, call', rfl⟩

theorem Spinning.fails (spinning : Spinning service turns state) :
    run (step service) state [.fail 0 0, .complete 0 0 1] =
      { state.put 0 turns (.answered none) with
        clients := fun thread =>
          if thread = 0 then
            (state.clients 0).turn service.client service.timeDura (completion service 0 1 none)
          else state.clients thread } := by
  obtain ⟨call, call', calls⟩ := spinning.calls
  have found : (state.clients 0).calls.outstanding[0]? = some (turns, call) := by
    rw [calls]
    rfl
  have failed : state.step service (.fail 0 0) = state.put 0 turns (.answered none) := by
    simp only [Deployment.step, found, spinning.waits.1]
  have answered : (state.put 0 turns (.answered none)).place 0 turns = .answered none :=
    if_pos ⟨rfl, rfl⟩
  rw [run_cons, run_cons, run_nil, failed]
  simp only [Deployment.step, clients_put, found, answered]

structure Stopped (turns : Nat) (state : Deployment 1 Source Call Request Reply) : Prop where
  late : state.Late
  started : 0 ∈ state.server.threads
  left : ∃ call, (state.clients 0).calls.outstanding = [(turns, call)]
  waits : state.place 0 turns = .sent

theorem Spinning.step (spinning : Spinning service turns state) :
    (turns + 1 < timePeriod →
      Spinning service (turns + 1) (run (step service) state [.fail 0 0, .complete 0 0 1])) ∧
    (turns + 1 = timePeriod → service.timeDura < (timePeriod : Int) →
      Stopped (turns + 1) (run (step service) state [.fail 0 0, .complete 0 0 1])) := by
  obtain ⟨call, call', calls⟩ := spinning.calls
  have found : (state.clients 0).calls.outstanding[0]? = some (turns, call) := by
    rw [calls]
    rfl
  have inLoop := spinning.linked.going found
  obtain ⟨_, outstanding, issued⟩ := Loop.turn_spec service.client service.timeDura
    (completion service 0 1 none) inLoop found
  obtain ⟨timeCnt, clock, timeout⟩ := Loop.turn_clock service.client service.timeDura
    (completion service 0 1 none) inLoop found
  have elapsed : (completion service 0 1 none).elapsed = 1 := rfl
  rw [spinning.clock.1] at timeCnt timeout
  rw [spinning.clock.2, elapsed] at clock timeout
  have linked : Linked service 2 (run (Deployment.step service) state
      [.fail 0 0, .complete 0 0 1]) := by
    rw [run_cons, run_cons, run_nil]
    exact (spinning.linked.step _).step _
  rw [spinning.fails] at linked ⊢
  have behind : ({ state.put 0 turns (.answered none) with
      clients := fun thread =>
        if thread = 0 then
          (state.clients 0).turn service.client service.timeDura (completion service 0 1 none)
        else state.clients thread } : Deployment 1 Source Call Request Reply).place 0 (turns + 1) =
      .sent := by
    change (if (0 : Fin 1) = 0 ∧ turns + 1 = turns then _ else state.place 0 (turns + 1)) = _
    rw [if_neg (by omega)]
    exact spinning.waits.2
  constructor
  · intro early
    have notDue : ¬timePeriod ≤ turns + 1 := Nat.not_le.mpr early
    rw [if_neg notDue] at timeCnt timeout
    rw [spinning.going] at timeout
    rw [timeout, spinning.issued] at issued
    rw [timeout, calls, spinning.issued] at outstanding
    constructor
    case linked => exact linked
    case started => exact spinning.started
    case clock => exact ⟨timeCnt, clock⟩
    case issued => exact issued
    case held =>
      simp only [if_true, outstanding]
      rfl
    case going => exact timeout
    case waits =>
      constructor
      · exact behind
      · change (if (0 : Fin 1) = 0 ∧ turns + 1 + 1 = turns then _ else
          state.place 0 (turns + 1 + 1)) = _
        rw [if_neg (by omega)]
        apply spinning.linked.unissued 0
        rw [spinning.issued]
  · intro due passed
    rw [if_pos (Nat.le_of_eq due.symm)] at timeout
    have late : ((state.clients 0).turn service.client service.timeDura
        (completion service 0 1 none)).timeout = true := by
      rw [timeout]
      apply decide_eq_true
      rw [due]
      exact passed
    constructor
    case late =>
      intro thread
      simp only [Fin.fin_one_eq_zero thread, if_true, late]
    case started => exact spinning.started
    case left =>
      refine ⟨call', ?_⟩
      rw [late, calls] at outstanding
      simp only [if_true, outstanding]
      rfl
    case waits => exact behind

omit [DecidableEq Reply] in
theorem Stopped.enabled (stopped : Stopped turns state) : state.Enabled service (.fail 0 0) := by
  obtain ⟨call, left⟩ := stopped.left
  refine ⟨turns, call, ?_, ?_⟩
  · rw [left]
    rfl
  · intro reply
    rw [stopped.waits]
    simp

end Outage

theorem spinning_outage (seconds : Int32) (turns : Nat) :
    turns < timePeriod → Spinning (short 1 seconds) turns
      (run (step (short 1 seconds)) (init (short 1 seconds) 2 fun _ => ()) (outage turns)) := by
  induction turns with
  | zero =>
      intro _
      constructor
      case linked => exact linked_run (short 1 seconds) 2 (fun _ => ()) [.start 0 0]
      case started => exact List.mem_cons_self
      case clock => exact ⟨rfl, rfl⟩
      case issued => rfl
      case held => rfl
      case going => rfl
      case waits => exact ⟨rfl, rfl⟩
  | succ turns ih =>
      intro early
      have before := ih (Nat.lt_of_succ_lt early)
      rw [outage, run_append]
      exact before.step.1 early

theorem stopped_outage (seconds : Int32)
    (early : (short 1 seconds).timeDura < (timePeriod : Int)) :
    Stopped timePeriod
      (run (step (short 1 seconds)) (init (short 1 seconds) 2 fun _ => ())
        (outage timePeriod)) := by
  have spinning := spinning_outage seconds (timePeriod - 1) (by decide)
  have stopped := spinning.step.2 rfl early
  rw [← run_append] at stopped
  exact stopped

/-- After a thousand failures the client is left with one call, which fails. -/
theorem deployment_drains_outage :
    Drains (short 1 0)
      (run (step (short 1 0)) (init (short 1 0) 2 fun _ => ()) (outage timePeriod))
      [.fail 0 0] := by
  have stopped := stopped_outage 0 (by decide)
  exact deployment_drains _ 2 (fun _ => ()) (outage timePeriod) [.fail 0 0]
    ⟨0, stopped.started⟩ stopped.late ⟨stopped.enabled, trivial⟩

end Deployment

end RpcBench.Grpc
