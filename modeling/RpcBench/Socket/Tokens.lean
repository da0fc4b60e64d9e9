import RpcBench.Socket.Events

/-! # Tokens and entries

A token is an address that the loop turns back into a pointer.  It always
denotes an endpoint that the map holds.  The converse question, whether the
map holds nothing but open connections, has another answer: `OnError` runs
before the key is read, so its endpoint stays behind. -/
set_option autoImplicit false

namespace RpcBench.Socket

open Fallible BwServerEndpoint

namespace Server

def Holding (s : Server) (token : Token) : Prop :=
  ∃ fd ep, s.endpoints fd = some token ∧ s.object token = some ep

def Registered (s : Server) (token : Token) : Prop :=
  ∃ fd peer item, s.sys.sock fd = some ⟨peer, some item⟩ ∧ item.event.token = token

structure NoStaleToken (s : Server) : Prop where
  registered : ∀ token, s.Registered token → s.Holding token
  delivered : ∀ event ∈ s.batch, event.token ≠ s.listenerToken → s.Holding event.token
  /-- what a new connection drops, if it finds an entry under its number -/
  dropped : ∀ handling old, s.Fresh handling → s.endpoints handling.fd = some old →
    (∃ ep, s.object old = some ep ∧ ep.sock = INVALID_SOCKET) ∧ ¬s.Registered old ∧
      ∀ event ∈ s.batch, event.token ≠ old

theorem Registry.noStaleToken {s : Server} (registry : Registry s) : NoStaleToken s := by
  have holding : ∀ token ep, s.object token = some ep → s.Holding token := by
    intro token ep object
    obtain ⟨_, fd, entry⟩ := registry.owned token ep object
    exact ⟨fd, ep, entry, object⟩
  have registered : ∀ token, s.Registered token →
      ∃ ep, s.object token = some ep ∧ ep.sock ≠ INVALID_SOCKET := by
    intro token both
    obtain ⟨fd, peer, item, found, rfl⟩ := both
    obtain ⟨token, ep, _, _, object, _, open', entryEq⟩ := registry.of_sock found
    cases entryEq
    exact ⟨ep, object, open'⟩
  constructor
  case registered =>
    intro token entry
    obtain ⟨ep, object, _⟩ := registered token entry
    exact holding token ep object
  case delivered =>
    intro event member notListener
    rcases registry.batch event member with ⟨listener, _⟩ | ⟨ep, object, _⟩
    · exact absurd listener notListener
    · exact holding event.token ep object
  case dropped =>
    intro handling old fresh entry
    obtain ⟨ep, object, closed⟩ := registry.leftover fresh.1 entry
    refine ⟨⟨ep, object, closed⟩, ?_, ?_⟩
    · intro entry'
      obtain ⟨ep', object', open'⟩ := registered old entry'
      rw [object] at object'
      cases object'
      exact open' closed
    · intro event member same
      subst same
      rcases registry.batch event member with ⟨listener, _⟩ | ⟨ep', object', open'⟩
      · exact (registry.owned _ ep object).1 listener
      · rw [object] at object'
        cases object'
        exact open' closed

/-- In every run each token that the loop converts is a held endpoint's, and
a new connection drops only endpoints that nothing refers to.  The process
never follows a dangling pointer. -/
theorem tokens_never_stale (listener : RawFd) (maxEvents : Nat) (mem : Memory)
    (inputs : List Input) :
    match Machine.run Process.step (.running (init listener maxEvents mem)) inputs with
    | .running s => NoStaleToken s
    | .stopped reason => reason = .abort := by
  have always := Machine.run_invariant Process.step
    (fun process => process.Holds Registry ∧ ∀ reason, process = .stopped reason → reason = .abort)
    ?_ inputs (.running (init listener maxEvents mem)) ⟨init_registry listener maxEvents mem, ?_⟩
  · cases ended : Machine.run Process.step (.running (init listener maxEvents mem)) inputs with
    | running s =>
        rw [ended] at always
        exact Registry.noStaleToken always.1
    | stopped reason => exact always.2 reason ended
  · intro process input both
    obtain ⟨holds, aborted⟩ := both
    cases process with
    | stopped reason => exact ⟨holds, aborted⟩
    | running s =>
        refine ⟨step_registry holds input, ?_⟩
        intro reason stopped
        change s.step input = .stopped reason at stopped
        cases input with
        | handle handling =>
            have next := next_cases holds handling
            change s.next handling = .stopped reason at stopped
            rw [stopped] at next
            cases next with
            | refused => rfl
            | failed => rfl
        | connect => cases stopped
        | hangUp fd reset => cases stopped
        | hangUpQueued index reset => cases stopped
        | ready fd => cases stopped
        | pollUntil picks => cases stopped
  · intro reason absent
    cases absent

/-! ## The registry of connections -/

/-- `endpoints_` holds exactly the open connections, each under its number. -/
structure Exact (s : Server) : Prop where
  entries : ∀ fd token, s.endpoints fd = some token →
    ∃ ep peer item, s.object token = some ep ∧ ep.sock = fd ∧
      s.sys.sock fd = some ⟨peer, some item⟩ ∧ item.event.token = token
  connections : ∀ fd sock, s.sys.sock fd = some sock → ∃ token, s.endpoints fd = some token

def AllOpen (s : Server) : Prop :=
  ∀ token ep, s.object token = some ep → ep.sock ≠ INVALID_SOCKET

theorem Registry.exact {s : Server} (registry : Registry s) (allOpen : AllOpen s) : Exact s := by
  constructor
  · intro fd token entry
    obtain ⟨_, ep, object, rfl | closed⟩ := registry.held fd token entry
    · obtain ⟨peer, queued, found⟩ := registry.sock_of_open object (allOpen token ep object)
      exact ⟨ep, peer, _, object, rfl, found, rfl⟩
    · exact absurd closed (allOpen token ep object)
  · intro fd sock found
    obtain ⟨_, token, _, entry, _⟩ := registry.opened fd sock found
    exact ⟨token, entry⟩

/-- The event handled next, if any, leads to no `OnError`. -/
def NoOnError (s : Server) : Input → Prop
  | .handle _ => ∀ event ∈ s.batch.head?, event.isClosing = false
  | _ => True

theorem Next.allOpen {s : Server} {handling : Handling} {process : Process}
    (next : Next s handling process) (registry : Registry s) (allOpen : AllOpen s)
    (quiet : s.NoOnError (.handle handling)) : process.Holds AllOpen := by
  cases next with
  | idle => exact allOpen
  | @accepted event rest peer backlog accepting tolerable =>
      -- without closed endpoints there is no leftover entry
      have vacant : s.endpoints handling.fd = none := by
        cases entry : s.endpoints handling.fd with
        | none => rfl
        | some old =>
            obtain ⟨ep, object, closed⟩ := registry.leftover accepting.fresh.1 entry
            exact absurd closed (allOpen old ep object)
      intro token ep object
      rw [Server.accepted, erase_vacant (s := { s with batch := rest }) vacant] at object
      change Function.update s.object handling.address _ token = some ep at object
      by_cases same : token = handling.address
      · subst same
        rw [Function.update_self] at object
        cases object
        exact ne_invalid accepting.fresh.2.1
      · rw [Function.update_of_ne same] at object
        exact allOpen token ep object
  | refused accepting broken => trivial
  | @served event rest ep ctx serving done =>
      have left := done.left
      rw [Left, quiet event (by rw [serving.batch]; rfl)] at left
      intro token ep' object
      change Function.update s.object ctx.this (some ctx.ep) token = some ep' at object
      by_cases same : token = ctx.this
      · subst same
        rw [Function.update_self] at object
        cases object
        exact fun closed => serving.open' (left.1.symm.trans closed)
      · rw [Function.update_of_ne same] at object
        exact allOpen token ep' object
  | failed serving broken => trivial

theorem step_allOpen {s : Server} (registry : Registry s) (allOpen : AllOpen s) (input : Input)
    (quiet : s.NoOnError input) : (s.step input).Holds AllOpen := by
  cases input with
  | connect => exact allOpen
  | hangUp fd reset => exact allOpen
  | hangUpQueued index reset => exact allOpen
  | ready fd => exact allOpen
  | pollUntil picks =>
      intro token ep object
      rw [(pollUntil_objects s picks).1] at object
      exact allOpen token ep object
  | handle handling => exact (next_cases registry handling).allOpen registry allOpen quiet

theorem run_exact (listener : RawFd) (maxEvents : Nat) (mem : Memory) (inputs : List Input)
    (quiet : Machine.Along Process.step
      (fun process input => process.Holds fun s => s.NoOnError input)
      (.running (init listener maxEvents mem)) inputs) :
    (Machine.run Process.step (.running (init listener maxEvents mem)) inputs).Holds Exact := by
  have always := Machine.run_invariant_along Process.step
    (fun process input => process.Holds fun s => s.NoOnError input)
    (fun process => process.Holds fun s => Registry s ∧ AllOpen s) ?_ inputs
    (.running (init listener maxEvents mem)) ⟨init_registry listener maxEvents mem, ?_⟩ quiet
  · cases ended : Machine.run Process.step (.running (init listener maxEvents mem)) inputs with
    | running s =>
        rw [ended] at always
        exact Registry.exact always.1 always.2
    | stopped reason => trivial
  · intro process input holds quiet
    cases process with
    | stopped reason => trivial
    | running s =>
        have registry := step_registry holds.1 input
        have allOpen := step_allOpen holds.1 holds.2 input quiet
        change (s.step input).Holds _
        cases after : s.step input with
        | stopped reason => trivial
        | running s' =>
            rw [after] at registry allOpen
            exact ⟨registry, allOpen⟩
  · intro token ep absent
    cases absent

theorem handled_closing {s s' : Server} {handling : Handling} {event : Event} {rest : List Event}
    (registry : Registry s) (batch : s.batch = event :: rest)
    (connection : event.token ≠ s.listenerToken) (closing : event.isClosing = true)
    (returned : s.next handling = .running s') (handled : s'.batch = rest) : ¬Exact s' := by
  have next := next_cases registry handling
  rw [returned] at next
  intro exact'
  cases next with
  | idle =>
      rw [batch] at handled
      exact absurd (congrArg List.length handled) (by simp)
  | accepted accepting tolerable =>
      have same := accepting.batch
      rw [batch] at same
      cases same
      exact connection accepting.listener
  | @served event' rest' ep ctx serving done =>
      have same := serving.batch
      rw [batch] at same
      cases same
      have left := done.left
      rw [Left, if_pos closing] at left
      obtain ⟨ep', _, _, object, sock, _⟩ :=
        exact'.entries ep.sock event.token (registry.held_of_open serving.object serving.open')
      have token : ctx.this = event.token := done.this
      change Function.update s.object ctx.this (some ctx.ep) event.token = some ep' at object
      rw [token, Function.update_self] at object
      cases object
      exact serving.open' (sock.symm.trans left.1)

/-- As long as no event with an error or close flag has been handled the
registry is exact; handling one leaves a registry that is not. -/
theorem registry_exact_until_onError (listener : RawFd) (maxEvents : Nat) (mem : Memory)
    (inputs : List Input) :
    (Machine.Along Process.step (fun process input => process.Holds fun s => s.NoOnError input)
        (.running (init listener maxEvents mem)) inputs →
      (Machine.run Process.step (.running (init listener maxEvents mem)) inputs).Holds Exact) ∧
    ∀ s s' handling event rest,
      Machine.run Process.step (.running (init listener maxEvents mem)) inputs = .running s →
      s.batch = event :: rest → event.token ≠ s.listenerToken → event.isClosing = true →
      s.step (.handle handling) = .running s' → s'.batch = rest → ¬Exact s' := by
  refine ⟨run_exact listener maxEvents mem inputs, ?_⟩
  intro s s' handling event rest reached batch connection closing returned handled
  have registry := run_registry listener maxEvents mem inputs
  rw [reached] at registry
  exact handled_closing registry batch connection closing returned handled

theorem registry_exact_until_onError_one_client :
    (Machine.run Process.step (.running (init 3 8 emptyMemory)) oneClient).Holds Exact ∧
      ((Machine.run Process.step (.running (init 3 8 emptyMemory)) oneClient).step
        (.handle (smooth 6 101))).Holds fun s => ¬Exact s := by
  have both := registry_exact_until_onError 3 8 emptyMemory oneClient
  constructor
  · apply both.1
    refine ⟨trivial, trivial, ?_, trivial, trivial, trivial⟩
    intro event head
    cases head
    rfl
  · exact both.2 _ _ (smooth 6 101) _ _ rfl rfl (by decide) rfl rfl rfl

/-- The entry of the closed connection stays. -/
theorem entry_left_after_close :
    ¬∀ inputs, (Machine.run Process.step (.running (init 3 8 emptyMemory)) inputs).Holds Exact := by
  intro always
  have after := always (oneClient ++ [.handle (smooth 6 101)])
  obtain ⟨ep, _, _, object, sock, _⟩ := after.entries 5 100 rfl
  cases object
  exact absurd sock (by decide)

end Server

end RpcBench.Socket
