import RpcBench.RpcHello.Deployment

/-! # Each call and the server thread that gets it

The ports take a client thread to the server thread of its remainder, and the
two sides agree about every call: the invariant of a deployment. -/
set_option autoImplicit false

namespace RpcBench.RpcHello

open Machine

namespace Bench

variable {args : Args} {bench : Bench}

theorem receive_futures (args : Args) (histogram : Histogram) (turn : Turn) (call : RpcCall)
    (bench : Bench) : ∃ counted : Counted,
    ((bench.receive args histogram turn call).replyFutures =
        bench.replyFutures.settle turn.index counted ∧
      (bench.receive args histogram turn call).scnt = bench.scnt) ∨
    ∃ next, bench.scnt < args.limit ∧
      (bench.receive args histogram turn call).replyFutures =
        (bench.replyFutures.settle turn.index counted).issue next ∧
      (bench.receive args histogram turn call).scnt = bench.scnt + 1 := by
  unfold receive
  simp only
  generalize elapsed call.start turn.reply = latency
  refine ⟨{ latency, reqSize := call.reqSize }, ?_⟩
  have recorded := record_same args histogram latency bench
  rw [← recorded.replyFutures, ← recorded.scnt]
  generalize bench.record args histogram latency = before
  have counted := count_core args turn latency call.reqSize before
  have reported := report_same args turn
    ((before.count args turn latency call.reqSize).refill args turn)
  rw [reported.replyFutures, reported.scnt]
  unfold refill
  split
  · next more =>
      rw [counted.scnt] at more
      rcases issue_cases args turn.issue (before.count args turn latency call.reqSize) with
        ⟨_, panicked⟩ | ⟨_, next, _, issued⟩
      · rw [panicked]
        exact Or.inl ⟨counted.replyFutures, counted.scnt⟩
      · rw [issued]
        refine Or.inr ⟨next, more, ?_, ?_⟩
        · simp only [counted.replyFutures]
        · simp only [counted.scnt]
  · exact Or.inl ⟨counted.replyFutures, counted.scnt⟩

theorem turn_futures (kept : Kept args bench) (histogram : Histogram) (clock : Prologue)
    (turn : Turn) :
    ((bench.turn args histogram clock turn).replyFutures = bench.replyFutures ∧
      (bench.turn args histogram clock turn).scnt = bench.scnt ∧
      (bench.Ready turn → (bench.turn args histogram clock turn).outcome ≠ .running)) ∨
    bench.outcome = .running ∧ turn.index < bench.replyFutures.outstanding.length ∧
      ∃ counted : Counted,
        ((bench.turn args histogram clock turn).replyFutures =
            bench.replyFutures.settle turn.index counted ∧
          (bench.turn args histogram clock turn).scnt = bench.scnt) ∨
        ∃ next, bench.scnt < args.limit ∧
          (bench.turn args histogram clock turn).replyFutures =
            (bench.replyFutures.settle turn.index counted).issue next ∧
          (bench.turn args histogram clock turn).scnt = bench.scnt + 1 := by
  by_cases running : bench.outcome = .running
  · rcases turn_cases kept running histogram clock turn with
      ⟨waiting, same⟩ | ⟨_, same⟩ | ⟨_, _, same⟩ | ⟨_, inside, entry, _, _, _, same⟩
    · rw [same]
      exact Or.inl ⟨rfl, rfl, fun ready => absurd ready waiting⟩
    · rw [same]
      exact Or.inl ⟨rfl, rfl, fun _ => Outcome.noConfusion⟩
    · rw [same]
      exact Or.inl ⟨rfl, rfl, fun _ => Outcome.noConfusion⟩
    · rw [same]
      exact Or.inr ⟨running, inside, receive_futures args histogram turn entry.2 bench⟩
  · rw [turn_stopped running]
    exact Or.inl ⟨rfl, rfl, fun _ => running⟩

theorem kept_unconnected (args : Args) : Kept args unconnected := by
  constructor
  case held => rfl
  case window => exact Nat.zero_le _
  case sent => exact Nat.zero_le _
  case refilled => exact Or.inl rfl
  case bytes => exact (congrArg (· % 2 ^ 64) (Nat.zero_mul args.reqSize)).symm
  case requested => rfl
  case issued => rfl
  case sizes =>
    intro entry member
    cases member
  case counted =>
    intro entry member
    cases member

end Bench

/-! ## The ports -/

namespace Setup

/-- How the two programs are meant to be started, and what `main` asserts. -/
structure Matched (setup : Setup) : Prop where
  ports : setup.port = setup.server.port
  threads : setup.numServerThreads = setup.server.numServerThreads
  divides : setup.numServerThreads ∣ setup.numClientThreads
  some_client : 0 < setup.numClientThreads
  some_server : 0 < setup.numServerThreads
  some_port : 0 < setup.port.toNat
  room : setup.port.toNat + setup.numServerThreads ≤ 2 ^ 16

variable {setup : Setup}

theorem Matched.clients_eq (matched : setup.Matched) : setup.clients = setup.numClientThreads :=
  Nat.max_eq_right matched.some_client

theorem Matched.servers_eq (matched : setup.Matched) : setup.servers = setup.numServerThreads := by
  unfold servers
  rw [← matched.threads]
  exact Nat.max_eq_right matched.some_server

theorem toNat_port (port : UInt16) {tid : Nat} (room : port.toNat + tid < 2 ^ 16) :
    (port + UInt16.ofNat tid).toNat = port.toNat + tid := by
  have small : tid % 2 ^ 16 = tid := Nat.mod_eq_of_lt (by omega)
  rw [UInt16.toNat_add, UInt16.toNat_ofNat', small]
  exact Nat.mod_eq_of_lt room

theorem Matched.connect_iff (matched : setup.Matched) (thread : Fin setup.clients)
    (server : Fin setup.servers) :
    setup.connect thread = some server ↔
      (server : Nat) = (thread : Nat) % setup.numServerThreads := by
  have room := matched.room
  have positive := matched.some_port
  have servers := matched.servers_eq
  have remainder := Nat.mod_lt (thread : Nat) matched.some_server
  have listening : ∀ other : Fin setup.servers,
      (setup.listenPort other).toNat = setup.port.toNat + other := by
    intro other
    unfold listenPort
    rw [← matched.ports]
    exact toNat_port _ (by omega)
  have calling : (setup.connectPort thread).toNat =
      setup.port.toNat + (thread : Nat) % setup.numServerThreads :=
    toNat_port _ (by omega)
  have here : ∀ other : Fin setup.servers,
      setup.listenPort other = setup.connectPort thread ↔
        (other : Nat) = (thread : Nat) % setup.numServerThreads := by
    intro other
    rw [← UInt16.toNat_inj, listening, calling]
    omega
  have open_port : setup.connectPort thread ≠ 0 := by
    intro zero
    rw [zero] at calling
    have none_there : (0 : UInt16).toNat = 0 := rfl
    omega
  unfold connect
  rw [if_neg open_port]
  constructor
  · intro found
    have same := List.find?_some found
    exact (here server).mp (of_decide_eq_true same)
  · intro same
    have exists_one : ((List.finRange setup.servers).find? fun other =>
        setup.listenPort other = setup.connectPort thread).isSome = true := by
      rw [List.find?_isSome]
      exact ⟨server, List.mem_finRange server, decide_eq_true ((here server).mpr same)⟩
    obtain ⟨other, found⟩ := Option.isSome_iff_exists.mp exists_one
    have listens := List.find?_some found
    have first := (here other).mp (of_decide_eq_true listens)
    rw [found]
    exact congrArg some (Fin.ext (first.trans same.symm))

theorem Matched.connects (matched : setup.Matched) (thread : Fin setup.clients) :
    (setup.connect thread).isSome = true := by
  have inside : (thread : Nat) % setup.numServerThreads < setup.servers := by
    rw [matched.servers_eq]
    exact Nat.mod_lt _ matched.some_server
  rw [(matched.connect_iff thread ⟨_, inside⟩).mpr rfl]
  rfl

end Setup

/-! ## The invariant -/

namespace Deployment

variable {setup : Setup}

structure Linked (state : Deployment setup) : Prop where
  kept : ∀ thread, Bench.Kept setup.args (state.benches thread)
  unissued : ∀ thread number, (state.benches thread).replyFutures.issued ≤ number →
    state.place thread number = .sent
  settled : ∀ thread number counted,
    (number, counted) ∈ (state.benches thread).replyFutures.settled →
      state.place thread number ≠ .sent
  replies : ∀ server, (state.greeters server).replies = (runServer setup.server).replies
  count : ∀ server,
    (state.greeters server).count.toNat = (state.handled server).length % 2 ^ 64
  routed : ∀ server thread number, (thread, number) ∈ state.handled server →
    setup.connect thread = some server ∧ state.place thread number ≠ .sent
  once : ∀ server, (state.handled server).Nodup
  replied : ∀ thread number message, state.place thread number = .replied message →
    message = List.replicate setup.server.replySize 43 ∧
      ∃ server, (thread, number) ∈ state.handled server

variable {state : Deployment setup} {histogram : Histogram}
  {clock : Fin setup.clients → Prologue}

@[simp] theorem place_put (thread : Fin setup.clients) (number : Nat) (place : Place)
    (state : Deployment setup) (thread' : Fin setup.clients) (number' : Nat) :
    (state.put thread number place).place thread' number' =
      if thread' = thread ∧ number' = number then place else state.place thread' number' := rfl

@[simp] theorem benches_put (thread : Fin setup.clients) (number : Nat) (place : Place)
    (state : Deployment setup) : (state.put thread number place).benches = state.benches := rfl

@[simp] theorem handled_put (thread : Fin setup.clients) (number : Nat) (place : Place)
    (state : Deployment setup) : (state.put thread number place).handled = state.handled := rfl

theorem linked_init (setup : Setup) (clock : Fin setup.clients → Prologue) :
    Linked (init setup clock) := by
  constructor
  case kept =>
    intro thread
    simp only [init]
    split
    · exact Bench.kept_start setup.args (clock thread)
    · exact Bench.kept_unconnected setup.args
  case unissued =>
    intro thread number _
    rfl
  case settled =>
    intro thread number counted member
    have none_counted : ((init setup clock).benches thread).rcnt = 0 := by
      simp only [init]
      split
      · exact (start_outcome setup.args (clock thread)).1
      · rfl
    have kept : Bench.Kept setup.args ((init setup clock).benches thread) := by
      simp only [init]
      split
      · exact Bench.kept_start setup.args (clock thread)
      · exact Bench.kept_unconnected setup.args
    have lengths := ((init setup clock).benches thread).replyFutures.length_add_length
    have held := kept.held
    have issued := kept.issued
    have positive := List.length_pos_of_mem member
    omega
  case replies =>
    intro server
    rfl
  case count =>
    intro server
    rfl
  case routed =>
    intro server thread number member
    cases member
  case once =>
    intro server
    exact List.nodup_nil
  case replied =>
    intro thread number message replied
    cases replied

theorem Holds.spec {thread : Fin setup.clients} {number : Nat}
    (holds : state.Holds thread number) :
    number < (state.benches thread).replyFutures.issued ∧
      ∀ counted, (number, counted) ∉ (state.benches thread).replyFutures.settled := by
  obtain ⟨⟨number', call⟩, member, same⟩ := List.mem_map.mp holds
  subst same
  refine ⟨Ledger.lt_of_outstanding member, ?_⟩
  intro counted gone
  exact Ledger.not_outstanding_of_settled gone member

theorem Linked.failed (linked : Linked state) {thread : Fin setup.clients} {number : Nat}
    (holds : state.Holds thread number) : Linked (state.put thread number .failed) := by
  constructor
  case kept => exact linked.kept
  case unissued =>
    intro thread' number' unissued
    have other : ¬(thread' = thread ∧ number' = number) := by
      intro here
      obtain ⟨rfl, rfl⟩ := here
      exact absurd holds.spec.1 (Nat.not_lt.mpr unissued)
    rw [place_put, if_neg other]
    exact linked.unissued thread' number' unissued
  case settled =>
    intro thread' number' counted member
    rw [place_put]
    split
    · exact Place.noConfusion
    · exact linked.settled thread' number' counted member
  case replies => exact linked.replies
  case count => exact linked.count
  case routed =>
    intro server thread' number' member
    obtain ⟨connected, moved⟩ := linked.routed server thread' number' member
    refine ⟨connected, ?_⟩
    rw [place_put]
    split
    · exact Place.noConfusion
    · exact moved
  case once => exact linked.once
  case replied =>
    intro thread' number' message replied
    rw [place_put] at replied
    split at replied
    · cases replied
    · exact linked.replied thread' number' message replied

/-- The counter goes up, and the reply, if there is one, is a provisioned one. -/
theorem sayHello_spec {greeter : MyGreeter}
    (replies : greeter.replies = (runServer setup.server).replies) :
    (greeter.sayHello setup.server).2 = { greeter with count := greeter.count + 1 } ∧
      outcome (greeter.sayHello setup.server).1 =
        if setup.server.provisionCount = 0 then .failed
        else .replied (List.replicate setup.server.replySize 43) := by
  unfold MyGreeter.sayHello
  refine ⟨rfl, ?_⟩
  by_cases empty : setup.server.provisionCount = 0
  · simp only [if_pos empty, outcome]
  · have inside := Nat.mod_lt greeter.count.toNat (Nat.pos_of_ne_zero empty)
    simp only [if_neg empty, replies, runServer, List.getElem?_replicate, if_pos inside, outcome]

theorem Linked.handles (linked : Linked state) {server : Fin setup.servers}
    {thread : Fin setup.clients} {number : Nat} (connected : setup.connect thread = some server)
    (holds : state.Holds thread number) (waits : state.place thread number = .sent) :
    Linked (state.serve server thread number) := by
  obtain ⟨counts, result⟩ := sayHello_spec (linked.replies server)
  have new : (thread, number) ∉ state.handled server := by
    intro member
    exact (linked.routed server thread number member).2 waits
  have moved : outcome ((state.greeters server).sayHello setup.server).1 ≠ .sent := by
    rw [result]
    split
    · exact Place.noConfusion
    · exact Place.noConfusion
  constructor
  case kept => exact linked.kept
  case unissued =>
    intro thread' number' unissued
    have other : ¬(thread' = thread ∧ number' = number) := by
      intro here
      obtain ⟨rfl, rfl⟩ := here
      exact absurd holds.spec.1 (Nat.not_lt.mpr unissued)
    simp only [serve, place_put, if_neg other]
    exact linked.unissued thread' number' unissued
  case settled =>
    intro thread' number' counted member
    simp only [serve, place_put]
    split
    · exact moved
    · exact linked.settled thread' number' counted member
  case replies =>
    intro server'
    simp only [serve]
    change (if server' = server then ((state.greeters server).sayHello setup.server).2
      else state.greeters server').replies = _
    split
    · rw [counts]
      exact linked.replies server
    · exact linked.replies server'
  case count =>
    intro server'
    simp only [serve]
    change (if server' = server then ((state.greeters server).sayHello setup.server).2
      else state.greeters server').count.toNat = _
    simp only [handled_put]
    split
    · have before := linked.count server
      rw [counts, List.length_append, List.length_singleton, UInt64.toNat_add, before]
      exact Nat.mod_add_mod _ _ _
    · exact linked.count server'
  case routed =>
    intro server' thread' number' member
    simp only [serve, handled_put, place_put] at member ⊢
    by_cases here : thread' = thread ∧ number' = number
    · obtain ⟨rfl, rfl⟩ := here
      rw [if_pos ⟨rfl, rfl⟩]
      refine ⟨?_, moved⟩
      split at member
      · next same => rw [same, connected]
      · exact absurd waits (linked.routed server' thread' number' member).2
    · rw [if_neg here]
      split at member
      · next same =>
          rw [same]
          cases List.mem_append.mp member with
          | inl old => exact linked.routed server thread' number' old
          | inr last => exact absurd (Prod.mk.inj (List.mem_singleton.mp last)) here
      · exact linked.routed server' thread' number' member
  case once =>
    intro server'
    simp only [serve, handled_put]
    split
    · exact List.nodup_append_comm.mp (List.nodup_cons.mpr ⟨new, linked.once server⟩)
    · exact linked.once server'
  case replied =>
    intro thread' number' message replied
    simp only [serve, place_put, handled_put] at replied ⊢
    by_cases here : thread' = thread ∧ number' = number
    · obtain ⟨rfl, rfl⟩ := here
      rw [if_pos ⟨rfl, rfl⟩, result] at replied
      split at replied
      · cases replied
      · injection replied with same
        refine ⟨same.symm, server, ?_⟩
        rw [if_pos rfl]
        exact List.mem_append_right _ (List.mem_singleton_self _)
    · rw [if_neg here] at replied
      obtain ⟨same, server', member⟩ := linked.replied thread' number' message replied
      refine ⟨same, server', ?_⟩
      split
      · next same =>
          rw [same] at member
          exact List.mem_append_left _ member
      · exact member

theorem woken_spec {thread : Fin setup.clients} {turn : Turn}
    (woken : state.woken thread turn = true) :
    (state.benches thread).Ready turn ∧
      ∀ (inside : turn.index < (state.benches thread).replyFutures.outstanding.length),
        state.place thread (state.benches thread).replyFutures.outstanding[turn.index].1 ≠
          .sent := by
  unfold Deployment.woken at woken
  constructor
  · intro _
    by_cases inside : turn.index < (state.benches thread).replyFutures.outstanding.length
    · exact Or.inr inside
    · rw [List.getElem?_eq_none (Nat.le_of_not_lt inside)] at woken
      exact Or.inl (List.isEmpty_iff.mp woken)
  · intro inside
    rw [List.getElem?_eq_getElem inside] at woken
    exact of_decide_eq_true woken

theorem Linked.turned (linked : Linked state) (histogram : Histogram)
    (clock : Fin setup.clients → Prologue) {thread : Fin setup.clients} {turn : Turn}
    (woken : state.woken thread turn = true) :
    Linked { state with
      benches := fun thread' =>
        if thread' = thread then
          (state.benches thread).turn setup.args histogram (clock thread) turn
        else state.benches thread' } := by
  have answered := (woken_spec woken).2
  have futures := Bench.turn_futures (linked.kept thread) histogram (clock thread) turn
  constructor
  case kept =>
    intro thread'
    simp only
    split
    · exact (linked.kept thread).select
    · exact linked.kept thread'
  case unissued =>
    intro thread' number unissued
    simp only at unissued
    split at unissued
    · next here =>
        subst here
        apply linked.unissued thread' number
        rcases futures with ⟨same, _⟩ | ⟨_, _, _, ⟨same, _⟩ | ⟨_, _, same, _⟩⟩
        · rw [same] at unissued
          exact unissued
        · rw [same] at unissued
          exact unissued
        · rw [same] at unissued
          exact Nat.le_of_succ_le unissued
    · exact linked.unissued thread' number unissued
  case settled =>
    intro thread' number counted member
    simp only at member
    split at member
    · next here =>
        subst here
        have before : (number, counted) ∈ (state.benches thread').replyFutures.settled ∨
            ∃ inside : turn.index < (state.benches thread').replyFutures.outstanding.length,
              number = (state.benches thread').replyFutures.outstanding[turn.index].1 := by
          rcases futures with ⟨same, _⟩ | ⟨_, inside, _, ⟨same, _⟩ | ⟨_, _, same, _⟩⟩
          · rw [same] at member
            exact Or.inl member
          · rw [same, Ledger.settled_settle inside] at member
            cases List.mem_append.mp member with
            | inl old => exact Or.inl old
            | inr new =>
                exact Or.inr ⟨inside, (Prod.mk.inj (List.mem_singleton.mp new)).1⟩
          · rw [same, Ledger.settled_issue, Ledger.settled_settle inside] at member
            cases List.mem_append.mp member with
            | inl old => exact Or.inl old
            | inr new =>
                exact Or.inr ⟨inside, (Prod.mk.inj (List.mem_singleton.mp new)).1⟩
        rcases before with old | ⟨inside, same⟩
        · exact linked.settled thread' number counted old
        · rw [same]
          exact answered inside
    · exact linked.settled thread' number counted member
  case replies => exact linked.replies
  case count => exact linked.count
  case routed => exact linked.routed
  case once => exact linked.once
  case replied => exact linked.replied

theorem Linked.step (linked : Linked state) (event : Event setup) :
    Linked (state.step histogram clock event) := by
  cases event with
  | handle thread number =>
      simp only [Deployment.step]
      split
      · exact linked
      · next server connected =>
          split
          · next ready => exact linked.handles connected ready.1 ready.2
          · exact linked
  | fail thread number =>
      simp only [Deployment.step]
      split
      · next holds => exact linked.failed holds
      · exact linked
  | turn thread turn =>
      simp only [Deployment.step]
      split
      · next woken => exact linked.turned histogram clock woken
      · exact linked

theorem linked_run (setup : Setup) (histogram : Histogram)
    (clock : Fin setup.clients → Prologue) (events : List (Event setup)) :
    Linked (run (step histogram clock) (init setup clock) events) := by
  apply run_invariant
  · intro state event linked
    exact linked.step event
  · exact linked_init setup clock

end Deployment

end RpcBench.RpcHello
