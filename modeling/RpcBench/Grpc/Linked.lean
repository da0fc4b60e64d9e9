import RpcBench.Grpc.Delivery

/-! # Each call and the object that serves it

The invariant of a deployment: the books of every client and of the server,
and between them a call for every object that has an RPC. -/
set_option autoImplicit false

namespace RpcBench.Grpc

open Machine

variable {threads : Nat} {Source Call Request Reply : Type}

namespace Deployment

structure Linked (service : Service threads Source Call Request Reply) (concurrency : Nat)
    (state : Deployment threads Source Call Request Reply) : Prop where
  sound : Server.Sound service.result state.server
  accounted : ∀ thread, Accounted concurrency service.timeDura (state.clients thread)
  unissued : ∀ thread number, (state.clients thread).calls.issued ≤ number →
    state.place thread number = .sent
  once : ∀ serial serial' call, state.caller serial = some call →
    state.caller serial' = some call → serial = serial'
  called : ∀ serial thread number, state.caller serial = some (thread, number) →
    state.place thread number ≠ .sent ∧ serial ∈ state.server.matched.map Prod.fst
  serving : ∀ thread number serial, state.place thread number = .serving serial →
    state.caller serial = some (thread, number) ∧ state.server.Pending serial
  answered : ∀ thread number reply, state.place thread number = .answered (some reply) →
    reply = service.result ∧ ∃ serial, state.caller serial = some (thread, number) ∧
      serial ∈ state.server.finished.map Prod.fst
  matched : ∀ serial request, (serial, request) ∈ state.server.matched →
    ∃ thread number call, state.caller serial = some (thread, number) ∧
      (state.clients thread).Issued number call ∧ request = service.request call ∧
      service.passes thread number call = true
  settled : ∀ thread number outcome, (number, outcome) ∈ (state.clients thread).calls.settled →
    ∃ reply, state.place thread number = .answered reply ∧ outcome.ok = reply.isSome
  received : ∀ thread, (state.clients thread).rxSize =
    UInt64.ofNat (state.clients thread).count * service.byteSizeLong service.result

def Lossless (service : Service threads Source Call Request Reply)
    (state : Deployment threads Source Call Request Reply) : Prop :=
  ∀ thread number, state.place thread number = .answered none →
    ∃ call, (state.clients thread).Issued number call ∧ service.passes thread number call = false

variable {service : Service threads Source Call Request Reply} {concurrency : Nat}
  {state : Deployment threads Source Call Request Reply}

@[simp] theorem place_put (thread : Fin threads) (number : Nat) (place : Place Reply)
    (state : Deployment threads Source Call Request Reply) (thread' : Fin threads)
    (number' : Nat) :
    (state.put thread number place).place thread' number' =
      if thread' = thread ∧ number' = number then place else state.place thread' number' := rfl

@[simp] theorem server_put (thread : Fin threads) (number : Nat) (place : Place Reply)
    (state : Deployment threads Source Call Request Reply) :
    (state.put thread number place).server = state.server := rfl

@[simp] theorem clients_put (thread : Fin threads) (number : Nat) (place : Place Reply)
    (state : Deployment threads Source Call Request Reply) :
    (state.put thread number place).clients = state.clients := rfl

@[simp] theorem caller_put (thread : Fin threads) (number : Nat) (place : Place Reply)
    (state : Deployment threads Source Call Request Reply) :
    (state.put thread number place).caller = state.caller := rfl

theorem clients_answer [DecidableEq Reply] (serial : Nat)
    (state : Deployment threads Source Call Request Reply) :
    (state.answer serial).clients = state.clients := by
  unfold answer
  split
  · rfl
  · split
    · rfl
    · rfl

theorem linked_init (service : Service threads Source Call Request Reply) (concurrency : Int32)
    (source : Fin threads → Source) :
    Linked service concurrency.toInt.toNat (init service concurrency source) := by
  constructor
  case sound => exact Server.sound_init
  case accounted =>
    intro thread
    exact accounted_start service.client service.timeDura concurrency (source thread)
  case unissued =>
    intro thread number _
    rfl
  case once =>
    intro serial serial' call called
    cases called
  case called =>
    intro serial thread number called
    cases called
  case serving =>
    intro thread number serial serving
    cases serving
  case answered =>
    intro thread number reply answered
    cases answered
  case matched =>
    intro serial request member
    cases member
  case settled =>
    intro thread number outcome member
    have empty : ((init service concurrency source).clients thread).calls.settled = [] :=
      (fresh_start service.client concurrency (source thread)).unsettled
    rw [empty] at member
    cases member
  case received =>
    intro thread
    obtain ⟨rxSize, count⟩ := Loop.start_received service.client concurrency (source thread)
    have both : ((init service concurrency source).clients thread).rxSize = 0 ∧
        ((init service concurrency source).clients thread).count = 0 := ⟨rxSize, count⟩
    rw [both.1, both.2]
    exact UInt64.zero_mul.symm

/-! ## What each event preserves -/

theorem Linked.going (linked : Linked service concurrency state) {thread : Fin threads}
    {position : Nat} {entry : Nat × Call}
    (found : (state.clients thread).calls.outstanding[position]? = some entry) :
    (state.clients thread).reqCnt > 0 := by
  have held := (linked.accounted thread).held
  obtain ⟨inside, _⟩ := List.getElem?_eq_some_iff.mp found
  omega

/-- The server moves; a call stays where it is, or gets the reply that it
waits for. -/
theorem Linked.moves (linked : Linked service concurrency state)
    {server : Server Request Reply} {place : Fin threads → Nat → Place Reply}
    (sound : Server.Sound service.result server)
    (matched : server.matched = state.server.matched)
    (finished : ∀ serial ∈ state.server.finished.map Prod.fst,
      serial ∈ server.finished.map Prod.fst)
    (places : ∀ thread number,
      (place thread number = state.place thread number ∧
        ∀ serial, state.place thread number = .serving serial → server.Pending serial) ∨
      ∃ serial, state.place thread number = .serving serial ∧
        place thread number = .answered (some service.result) ∧
        serial ∈ server.finished.map Prod.fst) :
    Linked service concurrency { state with server, place } := by
  constructor
  case sound => exact sound
  case accounted => exact linked.accounted
  case unissued =>
    intro thread number unissued
    have sent := linked.unissued thread number unissued
    rcases places thread number with ⟨same, _⟩ | ⟨serial, serving, _⟩
    · exact same.trans sent
    · rw [sent] at serving
      cases serving
  case once => exact linked.once
  case called =>
    intro serial thread number called
    obtain ⟨moved, member⟩ := linked.called serial thread number called
    simp only [matched]
    refine ⟨?_, member⟩
    rcases places thread number with ⟨same, _⟩ | ⟨_, _, answered, _⟩
    · rw [same]
      exact moved
    · rw [answered]
      simp
  case serving =>
    intro thread number serial serving
    rcases places thread number with ⟨same, pending⟩ | ⟨_, _, answered, _⟩
    · have before := same.symm.trans serving
      exact ⟨(linked.serving thread number serial before).1, pending serial before⟩
    · have contra := answered.symm.trans serving
      cases contra
  case answered =>
    intro thread number reply answered
    rcases places thread number with ⟨same, _⟩ | ⟨serial, serving, here, member⟩
    · obtain ⟨carried, serial, caller, member⟩ :=
        linked.answered thread number reply (same.symm.trans answered)
      exact ⟨carried, serial, caller, finished serial member⟩
    · have equal := here.symm.trans answered
      injection equal with equal
      injection equal with equal
      exact ⟨equal.symm, serial, (linked.serving thread number serial serving).1, member⟩
  case matched =>
    simp only [matched]
    exact linked.matched
  case settled =>
    intro thread number outcome member
    obtain ⟨reply, answered, ok⟩ := linked.settled thread number outcome member
    refine ⟨reply, ?_, ok⟩
    rcases places thread number with ⟨same, _⟩ | ⟨_, serving, _⟩
    · exact same.trans answered
    · rw [answered] at serving
      cases serving
  case received => exact linked.received

theorem Linked.denied (linked : Linked service concurrency state) {thread : Fin threads}
    {position number : Nat} {call : Call}
    (found : (state.clients thread).calls.outstanding[position]? = some (number, call)) :
    Linked service concurrency (state.put thread number (.answered none)) := by
  have held : (number, call) ∈ (state.clients thread).calls.outstanding :=
    List.mem_of_getElem? found
  constructor
  case sound => exact linked.sound
  case accounted => exact linked.accounted
  case unissued =>
    intro thread' number' unissued
    have other : ¬(thread' = thread ∧ number' = number) := by
      intro here
      obtain ⟨rfl, rfl⟩ := here
      exact absurd (Ledger.lt_of_outstanding held) (Nat.not_lt.mpr unissued)
    rw [place_put, if_neg other]
    exact linked.unissued thread' number' unissued
  case once => exact linked.once
  case called =>
    intro serial thread' number' called
    obtain ⟨moved, member⟩ := linked.called serial thread' number' called
    refine ⟨?_, member⟩
    rw [place_put]
    split
    · simp
    · exact moved
  case serving =>
    intro thread' number' serial serving
    rw [place_put] at serving
    split at serving
    · cases serving
    · exact linked.serving thread' number' serial serving
  case answered =>
    intro thread' number' reply answered
    rw [place_put] at answered
    split at answered
    · cases answered
    · exact linked.answered thread' number' reply answered
  case matched => exact linked.matched
  case settled =>
    intro thread' number' outcome member
    have other : ¬(thread' = thread ∧ number' = number) := by
      intro here
      obtain ⟨rfl, rfl⟩ := here
      exact Ledger.not_outstanding_of_settled member held
    rw [place_put, if_neg other]
    exact linked.settled thread' number' outcome member
  case received => exact linked.received

theorem Linked.delivered (linked : Linked service concurrency state) {thread : Fin threads}
    {position index number : Nat} {call : Call} {op : Op}
    (found : (state.clients thread).calls.outstanding[position]? = some (number, call))
    (armed : state.server.registered[index]? = some op)
    (waits : state.place thread number = .sent) (passes : service.passes thread number call = true) :
    Linked service concurrency
      (({ state with
        server := state.server.step service.result (.incoming index (service.request call))
        caller := fun serial =>
          if serial = op.serial then some (thread, number) else state.caller serial } :
        Deployment threads Source Call Request Reply).put thread number (.serving op.serial)) := by
  have held : (number, call) ∈ (state.clients thread).calls.outstanding :=
    List.mem_of_getElem? found
  have registered : op ∈ state.server.registered := List.mem_of_getElem? armed
  have unmatched := linked.sound.unmatched registered
  obtain ⟨events, replying, matched, finished, _⟩ :=
    linked.sound.incoming_spec armed (service.request call)
  -- the object served nobody, and nobody served the call
  have unused : ∀ serial thread' number', state.caller serial = some (thread', number') →
      serial ≠ op.serial ∧ ¬(thread' = thread ∧ number' = number) := by
    intro serial thread' number' called
    obtain ⟨moved, member⟩ := linked.called serial thread' number' called
    constructor
    · intro same
      exact unmatched (same ▸ member)
    · intro here
      obtain ⟨rfl, rfl⟩ := here
      exact moved waits
  constructor
  case sound => exact linked.sound.step _
  case accounted => exact linked.accounted
  case unissued =>
    intro thread' number' unissued
    have other : ¬(thread' = thread ∧ number' = number) := by
      intro here
      obtain ⟨rfl, rfl⟩ := here
      exact absurd (Ledger.lt_of_outstanding held) (Nat.not_lt.mpr unissued)
    rw [place_put, if_neg other]
    exact linked.unissued thread' number' unissued
  case once =>
    intro serial serial' key called called'
    simp only [caller_put] at called called'
    split at called
    · next here =>
        split at called'
        · next here' => exact here.trans here'.symm
        · obtain rfl := Option.some.inj called
          exact absurd ⟨rfl, rfl⟩ (unused serial' thread number called').2
    · split at called'
      · obtain rfl := Option.some.inj called'
        exact absurd ⟨rfl, rfl⟩ (unused serial thread number called).2
      · exact linked.once serial serial' key called called'
  case called =>
    intro serial thread' number' called
    simp only [caller_put] at called
    simp only [place_put, server_put, matched, List.map_append, List.map_cons, List.map_nil,
      List.mem_append, List.mem_singleton]
    split at called
    · next here =>
        obtain ⟨rfl, rfl⟩ := Prod.mk.inj (Option.some.inj called)
        rw [if_pos ⟨rfl, rfl⟩]
        exact ⟨by simp, Or.inr here⟩
    · obtain ⟨moved, member⟩ := linked.called serial thread' number' called
      rw [if_neg (unused serial thread' number' called).2]
      exact ⟨moved, Or.inl member⟩
  case serving =>
    intro thread' number' serial serving
    simp only [place_put] at serving
    simp only [caller_put, server_put, Server.Pending, events, replying]
    split at serving
    · next here =>
        obtain ⟨rfl, rfl⟩ := here
        injection serving with same
        rw [if_pos same.symm]
        refine ⟨rfl, Or.inl ⟨op, ?_, linked.sound.requests op registered, same⟩⟩
        exact List.mem_append_right _ (List.mem_singleton_self _)
    · obtain ⟨called, pending⟩ := linked.serving thread' number' serial serving
      rw [if_neg (unused serial thread' number' called).1]
      refine ⟨called, ?_⟩
      cases pending with
      | inl event =>
          obtain ⟨other, member, kind⟩ := event
          exact Or.inl ⟨other, List.mem_append_left _ member, kind⟩
      | inr reply => exact Or.inr reply
  case answered =>
    intro thread' number' reply answered
    simp only [place_put] at answered
    simp only [caller_put, server_put, finished]
    split at answered
    · cases answered
    · obtain ⟨carried, serial, called, member⟩ :=
        linked.answered thread' number' reply answered
      refine ⟨carried, serial, ?_, member⟩
      rw [if_neg (unused serial thread' number' called).1]
      exact called
  case matched =>
    intro serial request member
    simp only [server_put, matched] at member
    simp only [caller_put, clients_put]
    cases List.mem_append.mp member with
    | inl old =>
        obtain ⟨thread', number', call', called, rest⟩ := linked.matched serial request old
        refine ⟨thread', number', call', ?_, rest⟩
        rw [if_neg (unused serial thread' number' called).1]
        exact called
    | inr new =>
        obtain ⟨rfl, rfl⟩ := Prod.mk.inj (List.mem_singleton.mp new)
        exact ⟨thread, number, call, if_pos rfl, Or.inl held, rfl, passes⟩
  case settled =>
    intro thread' number' outcome member
    have other : ¬(thread' = thread ∧ number' = number) := by
      intro here
      obtain ⟨rfl, rfl⟩ := here
      exact Ledger.not_outstanding_of_settled member held
    rw [place_put, if_neg other]
    exact linked.settled thread' number' outcome member
  case received => exact linked.received

theorem Linked.completed [DecidableEq Reply] (linked : Linked service concurrency state)
    {thread : Fin threads} {position number : Nat} {call : Call} {reply : Option Reply}
    (found : (state.clients thread).calls.outstanding[position]? = some (number, call))
    (answered : state.place thread number = .answered reply) (elapsed : Nat) :
    Linked service concurrency
      { state with
        clients := fun thread' =>
          if thread' = thread then
            (state.clients thread).turn service.client service.timeDura
              (completion service position elapsed reply)
          else state.clients thread' } := by
  have going := linked.going found
  obtain ⟨settled, _, issued⟩ := Loop.turn_spec service.client service.timeDura
    (completion service position elapsed reply) going found
  constructor
  case sound => exact linked.sound
  case accounted =>
    intro thread'
    simp only
    split
    · exact (linked.accounted thread).turn
    · exact linked.accounted thread'
  case unissued =>
    intro thread' number' unissued
    simp only at unissued
    split at unissued
    · next here =>
        subst here
        apply linked.unissued thread' number'
        omega
    · exact linked.unissued thread' number' unissued
  case once => exact linked.once
  case called => exact linked.called
  case serving => exact linked.serving
  case answered => exact linked.answered
  case matched =>
    intro serial request member
    obtain ⟨thread', number', call', called, made, rest⟩ := linked.matched serial request member
    refine ⟨thread', number', call', called, ?_, rest⟩
    simp only
    split
    · next here =>
        subst here
        exact made.turn service.client service.timeDura going found
    · exact made
  case settled =>
    intro thread' number' outcome member
    simp only at member
    split at member
    · next here =>
        subst here
        rw [settled] at member
        cases List.mem_append.mp member with
        | inl old => exact linked.settled thread' number' outcome old
        | inr new =>
            obtain ⟨rfl, rfl⟩ := Prod.mk.inj (List.mem_singleton.mp new)
            exact ⟨reply, answered, rfl⟩
    · exact linked.settled thread' number' outcome member
  case received =>
    intro thread'
    simp only
    split
    · apply Loop.turn_received service.client service.timeDura going found _
        (linked.received thread)
      intro ok
      obtain ⟨reply, rfl⟩ := Option.isSome_iff_exists.mp ok
      have carried := (linked.answered thread number reply answered).1
      exact congrArg service.byteSizeLong carried
    · exact linked.received thread'

theorem Linked.replied [DecidableEq Reply] (linked : Linked service concurrency state)
    {index : Nat} {op : Op} (found : state.server.replying[index]? = some op) :
    Linked service concurrency
      (({ state with server := state.server.step service.result (.sent index) } :
        Deployment threads Source Call Request Reply).answer op.serial) := by
  have sound := linked.sound.step (.sent index)
  have member := linked.sound.finished_of_replying (List.mem_of_getElem? found)
  have lookup := linked.sound.lookup_finished member
  have same : (state.server.step service.result (.sent index)).finished =
      state.server.finished := by
    simp only [Server.step, found]
  have matched : (state.server.step service.result (.sent index)).matched =
      state.server.matched := by
    simp only [Server.step, found]
  have finished : ∀ serial ∈ state.server.finished.map Prod.fst,
      serial ∈ (state.server.step service.result (.sent index)).finished.map Prod.fst := by
    rw [same]
    exact fun serial member => member
  -- a call that waits for another object goes on to wait
  have others : ∀ thread number, state.place thread number ≠ .serving op.serial →
      ∀ serial, state.place thread number = .serving serial →
        (state.server.step service.result (.sent index)).Pending serial := by
    intro thread number notMine serial serving
    apply Server.pending_sent found (linked.serving thread number serial serving).2
    intro mine
    rw [mine] at serving
    exact notMine serving
  unfold answer
  cases called : state.caller op.serial with
  | none =>
      apply linked.moves sound matched finished
      intro thread number
      refine Or.inl ⟨rfl, others thread number ?_⟩
      intro serving
      have caller := (linked.serving thread number op.serial serving).1
      rw [called] at caller
      cases caller
  | some key =>
      obtain ⟨thread, number⟩ := key
      have alone : ∀ thread' number', state.place thread' number' = .serving op.serial →
          thread' = thread ∧ number' = number := by
        intro thread' number' serving
        have caller := (linked.serving thread' number' op.serial serving).1
        rw [called] at caller
        obtain ⟨rfl, rfl⟩ := Prod.mk.inj (Option.some.inj caller)
        exact ⟨rfl, rfl⟩
      simp only
      split
      · next serving =>
          apply linked.moves sound matched finished
          intro thread' number'
          by_cases here : thread' = thread ∧ number' = number
          · obtain ⟨rfl, rfl⟩ := here
            refine Or.inr ⟨op.serial, serving, ?_, finished op.serial member⟩
            rw [if_pos ⟨rfl, rfl⟩, same, lookup]
          · refine Or.inl ⟨if_neg here, others thread' number' ?_⟩
            intro serving'
            exact here (alone thread' number' serving')
      · next waiting =>
          apply linked.moves sound matched finished
          intro thread' number'
          refine Or.inl ⟨rfl, others thread' number' ?_⟩
          intro serving'
          obtain ⟨rfl, rfl⟩ := alone thread' number' serving'
          exact waiting serving'

theorem Linked.step [DecidableEq Reply] (linked : Linked service concurrency state)
    (event : Event threads) : Linked service concurrency (state.step service event) := by
  cases event with
  | start cq fresh =>
      obtain ⟨events, replying, matched, finished⟩ :=
        state.server.step_start service.result cq fresh
      apply linked.moves (linked.sound.step _) matched
      · rw [finished]
        exact fun serial member => member
      · intro thread number
        refine Or.inl ⟨rfl, ?_⟩
        intro serial serving
        have pending := (linked.serving thread number serial serving).2
        unfold Server.Pending
        rw [events, replying]
        exact pending
  | next cq fresh =>
      have pending : ∀ thread number, state.place thread number = state.place thread number ∧
          ∀ serial, state.place thread number = .serving serial →
            (state.server.step service.result (.next cq fresh)).Pending serial := by
        intro thread number
        refine ⟨rfl, ?_⟩
        intro serial serving
        exact linked.sound.pending_next cq fresh (linked.serving thread number serial serving).2
      by_cases ready : state.server.Ready cq fresh
      · obtain ⟨op, _, _, _, _, matched, _, kinds⟩ := linked.sound.next_spec ready
        apply linked.moves (linked.sound.step _) matched
        · intro serial member
          rcases kinds with ⟨_, _, finished⟩ | ⟨_, _, finished⟩
          · rw [finished, List.map_append]
            exact List.mem_append_left _ member
          · rw [finished]
            exact member
        · intro thread number
          exact Or.inl (pending thread number)
      · simp only [Deployment.step, Server.step_next_idle ready]
        exact linked
  | reply index =>
      simp only [Deployment.step]
      cases found : state.server.replying[index]? with
      | none => exact linked
      | some op => exact linked.replied found
  | deliver thread position index =>
      simp only [Deployment.step]
      cases found : (state.clients thread).calls.outstanding[position]? with
      | none => exact linked
      | some entry =>
          cases armed : state.server.registered[index]? with
          | none => exact linked
          | some op =>
              simp only
              split
              · next free => exact linked.delivered found armed free.1 free.2
              · exact linked
  | refuse thread position =>
      simp only [Deployment.step]
      cases found : (state.clients thread).calls.outstanding[position]? with
      | none => exact linked
      | some entry =>
          simp only
          split
          · exact linked.denied found
          · exact linked
  | fail thread position =>
      simp only [Deployment.step]
      cases found : (state.clients thread).calls.outstanding[position]? with
      | none => exact linked
      | some entry =>
          simp only
          split
          · exact linked
          · exact linked.denied found
  | complete thread position elapsed =>
      simp only [Deployment.step]
      cases found : (state.clients thread).calls.outstanding[position]? with
      | none => exact linked
      | some entry =>
          simp only
          split
          · next answered => exact linked.completed found answered elapsed
          · exact linked

theorem linked_run [DecidableEq Reply] (service : Service threads Source Call Request Reply)
    (concurrency : Int32) (source : Fin threads → Source) (events : List (Event threads)) :
    Linked service concurrency.toInt.toNat
      (run (step service) (init service concurrency source) events) := by
  apply run_invariant
  · intro state event linked
    exact linked.step event
  · exact linked_init service concurrency source

/-- What every turn keeps is kept by every loop of the deployment. -/
theorem loops_step [DecidableEq Reply] {Inv : Fin threads → Loop Source Call → Prop}
    (turn : ∀ thread loop completion, Inv thread loop →
      Inv thread (loop.turn service.client service.timeDura completion))
    (holds : ∀ thread, Inv thread (state.clients thread)) (event : Event threads)
    (thread : Fin threads) : Inv thread ((state.step service event).clients thread) := by
  cases event with
  | start cq fresh => exact holds thread
  | next cq fresh => exact holds thread
  | reply index =>
      simp only [Deployment.step]
      split
      · exact holds thread
      · rw [clients_answer]
        exact holds thread
  | deliver thread' position index =>
      simp only [Deployment.step]
      split
      · split
        · exact holds thread
        · exact holds thread
      · exact holds thread
  | refuse thread' position =>
      simp only [Deployment.step]
      split
      · split
        · exact holds thread
        · exact holds thread
      · exact holds thread
  | fail thread' position =>
      simp only [Deployment.step]
      split
      · split
        · exact holds thread
        · exact holds thread
      · exact holds thread
  | complete thread' position elapsed =>
      simp only [Deployment.step]
      split
      · split
        · simp only
          split
          · next here =>
              subst here
              exact turn thread _ _ (holds thread)
          · exact holds thread
        · exact holds thread
      · exact holds thread

theorem loops_run [DecidableEq Reply] (service : Service threads Source Call Request Reply)
    (concurrency : Int32) (source : Fin threads → Source)
    (Inv : Fin threads → Loop Source Call → Prop)
    (turn : ∀ thread loop completion, Inv thread loop →
      Inv thread (loop.turn service.client service.timeDura completion))
    (start : ∀ thread, Inv thread (Loop.start service.client concurrency (source thread)))
    (events : List (Event threads)) :
    ∀ thread, Inv thread
      ((run (step service) (init service concurrency source) events).clients thread) := by
  apply run_invariant (step service) fun state => ∀ thread, Inv thread (state.clients thread)
  · intro state event holds
    exact loops_step turn holds event
  · exact start

end Deployment

end RpcBench.Grpc
