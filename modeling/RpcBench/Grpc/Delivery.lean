import RpcBench.Grpc.Deployment
import Mathlib.Logic.Function.Iterate

/-! # What the parties do to each other

The steps of the server and the turns of a client, as the other side sees them,
and the invariant that ties a call to the object that serves it. -/
set_option autoImplicit false

namespace RpcBench.Grpc

open Machine

/-! ## The server -/

namespace Server

variable {Request Reply : Type} {result : Reply} {server : Server Request Reply}

def Pending (serial : Nat) (server : Server Request Reply) : Prop :=
  (∃ op ∈ server.events, op.kind = .request ∧ op.serial = serial) ∨
    ∃ op ∈ server.replying, op.serial = serial

def Ready (cq fresh : Nat) (server : Server Request Reply) : Prop :=
  server.heap.Fresh fresh ∧ ∃ op ∈ server.events, op.cq = cq

theorem step_next_idle {cq fresh : Nat} (idle : ¬server.Ready cq fresh) :
    server.step result (.next cq fresh) = server := by
  simp only [step]
  split
  · rfl
  · next usable =>
      have none_found : server.events.find? (·.cq == cq) = none := by
        apply List.find?_eq_none.mpr
        intro op member mine
        exact idle ⟨not_not.mp usable, op, member, by simpa using mine⟩
      rw [none_found]

/-- An event of an RPC gives its reply, one of a reply is the last. -/
theorem Sound.next_spec (sound : Sound result server) {cq fresh : Nat}
    (ready : server.Ready cq fresh) :
    ∃ op front back, server.events = front ++ op :: back ∧
      (server.step result (.next cq fresh)).events = front ++ back ∧
      (server.step result (.next cq fresh)).matched = server.matched ∧
      (server.step result (.next cq fresh)).threads = server.threads ∧
      ((op.kind = .request ∧
          (server.step result (.next cq fresh)).replying =
            server.replying ++ [{ op with kind := .finish }] ∧
          (server.step result (.next cq fresh)).finished =
            server.finished ++ [(op.serial, result)]) ∨
        (op.kind = .finish ∧
          (server.step result (.next cq fresh)).replying = server.replying ∧
          (server.step result (.next cq fresh)).finished = server.finished)) := by
  obtain ⟨unused, present⟩ := ready
  cases found : server.events.find? (·.cq == cq) with
  | none =>
      obtain ⟨op, member, mine⟩ := present
      have other := List.find?_eq_none.mp found op member
      exact absurd (by simpa using mine) other
  | some op =>
      obtain ⟨front, back, split, erased⟩ := events_split found
      have outstanding : op ∈ server.outstanding := by
        apply List.mem_append_right
        rw [split]
        exact List.mem_append_right _ List.mem_cons_self
      obtain ⟨call, member, same⟩ := sound.owner outstanding
      refine ⟨op, front, back, split, ?_⟩
      have taken : server.step result (.next cq fresh) =
          proceed result fresh op.tag
            { server with events := front ++ back, delivered := server.delivered ++ [op] } := by
        simp only [Server.step, found, erased, not_not.mpr unused, if_false]
      rw [taken]
      cases status : call.status with
      | create => exact absurd status (sound.proceeded (op.tag, call) member)
      | process =>
          obtain ⟨heap, proceeded, _⟩ := proceed_process
            { server with events := front ++ back, delivered := server.delivered ++ [op] }
            member status unused result
          have kind : op.kind = .request := by
            rw [← same]
            simp [opOf, status]
          have reply : ({ op with kind := .finish } : Op) =
              { kind := .finish, cq := call.cq, tag := op.tag, serial := call.serial } := by
            rw [← same]
            rfl
          have serial : op.serial = call.serial := by rw [← same]; rfl
          have carried : call.result = result := sound.results (op.tag, call) member
          rw [proceeded, reply, serial, carried]
          exact ⟨rfl, rfl, rfl, Or.inl ⟨kind, rfl, rfl⟩⟩
      | finish =>
          have kind : op.kind = .finish := by
            rw [← same]
            simp [opOf, status]
          rw [proceed_finish
            { server with events := front ++ back, delivered := server.delivered ++ [op] }
            member status]
          exact ⟨rfl, rfl, rfl, Or.inr ⟨kind, rfl, rfl⟩⟩

theorem step_start (server : Server Request Reply) (result : Reply) (cq fresh : Nat) :
    (server.step result (.start cq fresh)).events = server.events ∧
      (server.step result (.start cq fresh)).replying = server.replying ∧
      (server.step result (.start cq fresh)).matched = server.matched ∧
      (server.step result (.start cq fresh)).finished = server.finished := by
  simp only [step]
  split
  · exact ⟨rfl, rfl, rfl, rfl⟩
  · next usable =>
      obtain ⟨_, unused⟩ := not_or.mp usable
      obtain ⟨heap, constructed, _⟩ := construct_spec
        { server with threads := server.threads ++ [cq] } result cq (not_not.mp unused)
      rw [constructed]
      exact ⟨rfl, rfl, rfl, rfl⟩

theorem Sound.incoming_spec (sound : Sound result server) {index : Nat} {op : Op}
    (found : server.registered[index]? = some op) (request : Request) :
    (server.step result (.incoming index request)).events = server.events ++ [op] ∧
      (server.step result (.incoming index request)).replying = server.replying ∧
      (server.step result (.incoming index request)).matched =
        server.matched ++ [(op.serial, request)] ∧
      (server.step result (.incoming index request)).finished = server.finished ∧
      (server.step result (.incoming index request)).threads = server.threads := by
  have outstanding : op ∈ server.outstanding :=
    List.mem_append_left _ (List.mem_append_left _ (List.mem_of_getElem? found))
  obtain ⟨call, member, _⟩ := sound.owner outstanding
  simp only [Server.step, found, receive, Heap.get?_eq_some_iff.mpr member, and_self]

/-- The serials that are finished, that have an RPC, or that wait for one. -/
theorem Sound.serials_once (sound : Sound result server) :
    (server.matched.map Prod.fst ++ server.registered.map Op.serial).Nodup := by
  have waiting : ((server.events.filter fun op => op.kind = .request).map Op.serial ++
        server.registered.map Op.serial).Perm
      ((server.registered ++ server.events).filter (fun op => op.kind = .request)
        |>.map Op.serial) := by
    have all : (server.registered.filter fun op => decide (op.kind = .request)) =
        server.registered := by
      apply List.filter_eq_self.mpr
      intro op member
      exact decide_eq_true (sound.requests op member)
    rw [List.filter_append, List.map_append, all]
    exact List.perm_append_comm
  have kept : ((server.registered ++ server.events).filter (fun op => op.kind = .request)
        |>.map Op.serial).Sublist
      ((server.outstanding.filter fun op => op.kind = .request).map Op.serial) :=
    (((List.sublist_append_left _ _).append_right _).filter _).map _
  have both : (server.finished.map Prod.fst ++
      (server.outstanding.filter fun op => op.kind = .request).map Op.serial).Perm
        (server.heap.cells.map (fun cell => cell.2.serial) ++ server.deleted) := by
    have cells := (List.filter_append_perm answering server.heap.cells).map
      fun cell => cell.2.serial
    apply (sound.answered.append (Books.requests_perm sound)).trans
    apply List.perm_iff_count.mpr
    intro serial
    have counts := List.perm_iff_count.mp cells serial
    simp only [List.map_append, List.count_append] at counts ⊢
    omega
  have nodup := both.nodup_iff.mpr (Books.serials_nodup sound)
  have order := sound.served.append_right (server.registered.map Op.serial)
  rw [List.append_assoc] at order
  exact (order.trans (waiting.append_left _)).nodup_iff.mpr ((kept.append_left _).nodup nodup)

theorem Sound.unmatched (sound : Sound result server) {op : Op} (member : op ∈ server.registered) :
    op.serial ∉ server.matched.map Prod.fst := by
  intro also
  have disjoint := (List.nodup_append.mp sound.serials_once).2.2
  exact disjoint op.serial also op.serial (List.mem_map_of_mem member) rfl

theorem Sound.finished_of_replying (sound : Sound result server) {op : Op}
    (member : op ∈ server.replying) : op.serial ∈ server.finished.map Prod.fst := by
  have outstanding : op ∈ server.outstanding :=
    List.mem_append_left _ (List.mem_append_right _ member)
  obtain ⟨call, present, same⟩ := sound.owner outstanding
  have kind := sound.replies op member
  rw [← same] at kind
  have finishing : call.status = .finish := by
    by_contra other
    simp [opOf, other] at kind
  have serial : op.serial = call.serial := by rw [← same]; rfl
  rw [serial]
  apply sound.answered.mem_iff.mpr
  apply List.mem_append_left
  apply List.mem_map.mpr
  refine ⟨(op.tag, call), List.mem_filter.mpr ⟨present, ?_⟩, rfl⟩
  exact decide_eq_true finishing

theorem Sound.lookup_finished (sound : Sound result server) {serial : Nat}
    (member : serial ∈ server.finished.map Prod.fst) :
    server.finished.lookup serial = some result := by
  cases found : server.finished.lookup serial with
  | none =>
      obtain ⟨entry, present, same⟩ := List.mem_map.mp member
      have other := List.lookup_eq_none_iff.mp found entry present
      exact absurd same.symm (bne_iff_ne.mp other)
  | some reply =>
      obtain ⟨front, back, split, _⟩ := List.lookup_eq_some_iff.mp found
      have carried := sound.replied (serial, reply) (by
        rw [split]
        exact List.mem_append_right _ List.mem_cons_self)
      rw [← carried]

theorem Sound.pending_next (sound : Sound result server) (cq fresh : Nat) {serial : Nat}
    (pending : server.Pending serial) :
    (server.step result (.next cq fresh)).Pending serial := by
  by_cases ready : server.Ready cq fresh
  · obtain ⟨op, front, back, split, events, _, _, kinds⟩ := sound.next_spec ready
    cases pending with
    | inl event =>
        obtain ⟨other, member, request, same⟩ := event
        rw [split] at member
        cases List.mem_cons.mp (List.perm_middle.mem_iff.mp member) with
        | inl here =>
            subst here
            rcases kinds with ⟨_, replying, _⟩ | ⟨finish, _⟩
            · refine Or.inr ⟨{ other with kind := .finish }, ?_, same⟩
              rw [replying]
              exact List.mem_append_right _ (List.mem_singleton_self _)
            · rw [request] at finish
              cases finish
        | inr left =>
            refine Or.inl ⟨other, ?_, request, same⟩
            rw [events]
            exact left
    | inr reply =>
        obtain ⟨other, member, same⟩ := reply
        refine Or.inr ⟨other, ?_, same⟩
        rcases kinds with ⟨_, replying, _⟩ | ⟨_, replying, _⟩
        · rw [replying]
          exact List.mem_append_left _ member
        · rw [replying]
          exact member
  · rw [step_next_idle ready]
    exact pending

theorem pending_sent {index : Nat} {op : Op} (found : server.replying[index]? = some op)
    {serial : Nat} (pending : server.Pending serial) (other : serial ≠ op.serial) :
    (server.step result (.sent index)).Pending serial := by
  simp only [step, found]
  cases pending with
  | inl event =>
      obtain ⟨op', member, rest⟩ := event
      exact Or.inl ⟨op', List.mem_append_left _ member, rest⟩
  | inr reply =>
      obtain ⟨op', member, same⟩ := reply
      obtain ⟨inside, rfl⟩ := List.getElem?_eq_some_iff.mp found
      refine Or.inr ⟨op', ?_, same⟩
      have split := (List.getElem_cons_eraseIdx_perm inside).mem_iff.mpr member
      cases List.mem_cons.mp split with
      | inl here => exact absurd (same.symm.trans (congrArg Op.serial here)) other
      | inr left => exact left

end Server

/-! ## The client -/

section Client

variable {Source Call : Type} {client : Client Source Call} {timeDura : Int}
  {loop : Loop Source Call} {completion : Completion}

/-- A turn is an answer, and a new call if the loop is not timed out. -/
theorem Loop.turn_refill (client : Client Source Call) (timeDura : Int) (completion : Completion)
    {number : Nat} {call : Call} (going : loop.reqCnt > 0)
    (found : loop.calls.outstanding[completion.index]? = some (number, call)) :
    ∃ answered, loop.turn client timeDura completion = answered.refill client ∧
      answered = loop.answer client timeDura completion call ∧
      answered.source = loop.source ∧ answered.calls.issued = loop.calls.issued ∧
      answered.calls.settled = loop.calls.settled ++ [(number, client.outcome completion call)] ∧
      answered.calls.outstanding = loop.calls.outstanding.eraseIdx completion.index := by
  obtain ⟨inside, entry⟩ := List.getElem?_eq_some_iff.mp found
  refine ⟨loop.answer client timeDura completion call, ?_, rfl, ?_⟩
  · unfold Loop.turn
    rw [if_pos going, found]
  · rw [Loop.answer_eq]
    refine ⟨rfl, rfl, ?_, rfl⟩
    rw [Ledger.settled_settle inside, entry]

theorem Loop.turn_spec (client : Client Source Call) (timeDura : Int) (completion : Completion)
    {number : Nat} {call : Call} (going : loop.reqCnt > 0)
    (found : loop.calls.outstanding[completion.index]? = some (number, call)) :
    (loop.turn client timeDura completion).calls.settled =
        loop.calls.settled ++ [(number, client.outcome completion call)] ∧
      (loop.turn client timeDura completion).calls.outstanding =
        loop.calls.outstanding.eraseIdx completion.index ++
          (if (loop.turn client timeDura completion).timeout then []
            else [(loop.calls.issued, (client.generate loop.source).1)]) ∧
      (loop.turn client timeDura completion).calls.issued =
        loop.calls.issued + (!(loop.turn client timeDura completion).timeout).toNat := by
  obtain ⟨answered, turned, _, source, issued, settled, outstanding⟩ :=
    Loop.turn_refill client timeDura completion going found
  have timeout := (Loop.refill_frame client answered).2.2.1
  rw [turned, timeout]
  unfold Loop.refill
  cases late : answered.timeout with
  | true =>
      refine ⟨settled, ?_, issued⟩
      rw [if_pos rfl, List.append_nil]
      exact outstanding
  | false =>
      refine ⟨settled, ?_, ?_⟩
      · rw [← outstanding, ← issued, ← source]
        rfl
      · rw [← issued]
        rfl

theorem Loop.turn_clock (client : Client Source Call) (timeDura : Int) (completion : Completion)
    {number : Nat} {call : Call} (going : loop.reqCnt > 0)
    (found : loop.calls.outstanding[completion.index]? = some (number, call)) :
    (loop.turn client timeDura completion).timeCnt =
        (if timePeriod ≤ loop.timeCnt + 1 then 0 else loop.timeCnt + 1) ∧
      (loop.turn client timeDura completion).clock = loop.clock + completion.elapsed ∧
      (loop.turn client timeDura completion).timeout =
        if timePeriod ≤ loop.timeCnt + 1 then
          decide (timeDura < ((loop.clock + completion.elapsed : Nat) : Int))
        else loop.timeout := by
  obtain ⟨answered, turned, eq, _⟩ := Loop.turn_refill client timeDura completion going found
  obtain ⟨_, timeCnt, timeout, clock⟩ := Loop.refill_frame client answered
  rw [turned, timeCnt, timeout, clock, eq, Loop.answer_eq]
  exact ⟨rfl, rfl, rfl⟩

/-- The bytes that the client has received are those of the calls it counts. -/
theorem Loop.turn_received (client : Client Source Call) (timeDura : Int) {number : Nat}
    {size : UInt64} {call : Call} (going : loop.reqCnt > 0)
    (found : loop.calls.outstanding[completion.index]? = some (number, call))
    (sized : completion.ok = true → completion.ackSize = size)
    (received : loop.rxSize = UInt64.ofNat loop.count * size) :
    (loop.turn client timeDura completion).rxSize =
      UInt64.ofNat (loop.turn client timeDura completion).count * size := by
  obtain ⟨answered, turned, eq, _⟩ := Loop.turn_refill client timeDura completion going found
  have kept : (answered.refill client).rxSize = answered.rxSize := by
    unfold Loop.refill
    split
    · rfl
    · rfl
  rw [turned, kept, (Loop.refill_frame client answered).1, eq, Loop.answer_eq]
  cases ok : completion.ok with
  | true => simp [received, sized ok, UInt64.add_mul]
  | false => simp [received]

theorem Loop.start_received (client : Client Source Call) (concurrency : Int32) (seed : Source) :
    (Loop.start client concurrency seed).rxSize = 0 ∧
      (Loop.start client concurrency seed).count = 0 := by
  have issueMany : ∀ (more : Nat) (loop : Loop Source Call),
      (Loop.issueMany client more loop).rxSize = loop.rxSize ∧
        (Loop.issueMany client more loop).count = loop.count := by
    intro more
    induction more with
    | zero =>
        intro loop
        exact ⟨rfl, rfl⟩
    | succ more ih =>
        intro loop
        exact ih (loop.newCall client)
  exact issueMany _ _

def Loop.Issued (number : Nat) (call : Call) (loop : Loop Source Call) : Prop :=
  (number, call) ∈ loop.calls.outstanding ∨
    ∃ outcome, (number, outcome) ∈ loop.calls.settled ∧ outcome.call = call

theorem Loop.Issued.unique {number : Nat} {call : Call} {outcome : Outcome Call}
    (issued : loop.Issued number call) (gone : (number, outcome) ∈ loop.calls.settled) :
    outcome.call = call := by
  cases issued with
  | inl held => exact absurd held (Ledger.not_outstanding_of_settled gone)
  | inr also =>
      obtain ⟨other, member, same⟩ := also
      have distinct := (List.nodup_append.mp loop.calls.numbers_nodup).2.1
      have equal := List.inj_on_of_nodup_map distinct gone member rfl
      rw [← same, (Prod.mk.inj equal).2]

theorem Loop.Issued.turn {number : Nat} {call : Call} (issued : loop.Issued number call)
    (client : Client Source Call) (timeDura : Int) {number' : Nat} {call' : Call}
    (going : loop.reqCnt > 0)
    (found : loop.calls.outstanding[completion.index]? = some (number', call')) :
    (loop.turn client timeDura completion).Issued number call := by
  obtain ⟨settled, outstanding, _⟩ := Loop.turn_spec client timeDura completion going found
  obtain ⟨inside, entry⟩ := List.getElem?_eq_some_iff.mp found
  cases issued with
  | inl held =>
      have split := (List.getElem_cons_eraseIdx_perm inside).mem_iff.mpr held
      rw [entry] at split
      cases List.mem_cons.mp split with
      | inl here =>
          obtain ⟨rfl, rfl⟩ := Prod.mk.inj here
          refine Or.inr ⟨client.outcome completion call, ?_, rfl⟩
          rw [settled]
          exact List.mem_append_right _ (List.mem_singleton_self _)
      | inr other =>
          refine Or.inl ?_
          rw [outstanding]
          exact List.mem_append_left _ other
  | inr gone =>
      obtain ⟨outcome, member, same⟩ := gone
      refine Or.inr ⟨outcome, ?_, same⟩
      rw [settled]
      exact List.mem_append_left _ member

def Client.next (client : Client Source Call) (source : Source) : Source :=
  (client.generate source).2

def Client.draw (client : Client Source Call) (seed : Source) (number : Nat) : Call :=
  (client.generate (client.next^[number] seed)).1

/-- The calls are what the generator draws, in the order of their numbers. -/
structure Loop.Drawn (client : Client Source Call) (seed : Source) (loop : Loop Source Call) :
    Prop where
  source : loop.source = client.next^[loop.calls.issued] seed
  calls : ∀ number call, loop.Issued number call → call = client.draw seed number

theorem Loop.Drawn.newCall {seed : Source} (drawn : loop.Drawn client seed) :
    (loop.newCall client).Drawn client seed := by
  constructor
  case source =>
    show client.next loop.source = client.next^[loop.calls.issued + 1] seed
    rw [drawn.source, Function.iterate_succ_apply']
  case calls =>
    intro number call issued
    cases issued with
    | inl held =>
        cases List.mem_append.mp held with
        | inl old => exact drawn.calls number call (Or.inl old)
        | inr new =>
            obtain ⟨rfl, rfl⟩ := Prod.mk.inj (List.mem_singleton.mp new)
            rw [Client.draw, drawn.source]
    | inr gone => exact drawn.calls number call (Or.inr gone)

theorem Loop.Drawn.issueMany {seed : Source} (more : Nat) :
    ∀ loop : Loop Source Call, loop.Drawn client seed →
      (Loop.issueMany client more loop).Drawn client seed := by
  induction more with
  | zero =>
      intro loop drawn
      exact drawn
  | succ more ih =>
      intro loop drawn
      exact ih (loop.newCall client) drawn.newCall

theorem Loop.Drawn.turn {seed : Source} (drawn : loop.Drawn client seed) (timeDura : Int)
    (completion : Completion) : (loop.turn client timeDura completion).Drawn client seed := by
  by_cases delivers : loop.Delivers completion
  · have found := List.getElem?_eq_getElem delivers.2
    obtain ⟨answered, turned, _, source, issued, settled, outstanding⟩ :=
      Loop.turn_refill client timeDura completion delivers.1 found
    have kept : answered.Drawn client seed := by
      constructor
      case source => rw [source, issued, drawn.source]
      case calls =>
        intro number call made
        apply drawn.calls number call
        cases made with
        | inl held =>
            rw [outstanding] at held
            exact Or.inl (List.mem_of_mem_eraseIdx held)
        | inr gone =>
            obtain ⟨outcome, member, same⟩ := gone
            rw [settled] at member
            cases List.mem_append.mp member with
            | inl old => exact Or.inr ⟨outcome, old, same⟩
            | inr new =>
                obtain ⟨rfl, rfl⟩ := Prod.mk.inj (List.mem_singleton.mp new)
                subst same
                exact Or.inl (List.getElem_mem delivers.2)
    rw [turned]
    unfold Loop.refill
    split
    · exact kept.newCall
    · exact kept
  · rw [Loop.turn_idle delivers]
    exact drawn

theorem Loop.drawn_start (client : Client Source Call) (concurrency : Int32) (seed : Source) :
    (Loop.start client concurrency seed).Drawn client seed := by
  apply Loop.Drawn.issueMany
  constructor
  case source => rfl
  case calls =>
    intro number call issued
    cases issued with
    | inl held => cases held
    | inr gone =>
        obtain ⟨_, member, _⟩ := gone
        cases member

theorem Loop.Drawn.countP_settled {seed : Source} (drawn : loop.Drawn client seed)
    (ended : loop.calls.outstanding = []) (counts : Call → Bool) :
    (loop.calls.settled.countP fun call => counts call.2.call) =
      (List.range loop.calls.issued).countP fun number => counts (client.draw seed number) := by
  have numbers := (loop.calls.settled_perm ended).countP_eq
    fun number => counts (client.draw seed number)
  rw [← numbers, List.countP_map]
  apply List.countP_congr
  intro call member
  have own := drawn.calls call.1 call.2.call (Or.inr ⟨call.2, member, rfl⟩)
  rw [Function.comp_apply, ← own]

end Client

end RpcBench.Grpc
