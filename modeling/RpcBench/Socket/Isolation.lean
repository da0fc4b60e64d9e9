import RpcBench.Socket.Events

/-! # One failing connection and the others

`GetPeerAddr`, `ReceiveHeader`, `ReceiveData` and `OnSendReady` abort the
process on any error other than would-block.  Where none of these calls meets
such an error, a connection that fails is closed through `OnError`, and no
other endpoint notices. -/
set_option autoImplicit false

namespace RpcBench.Socket

open BwServerEndpoint

namespace Server

/-- The calls of the step that check their error meet none but would-block. -/
def Calm (s : Server) : Input → Prop
  | .handle handling =>
    ∀ event ∈ s.batch.head?,
      if event.token = s.listenerToken then handling.peername.tolerable = true
      else handling.Tolerable event
  | _ => True

def Concerns (s : Server) (token : Token) : Input → Prop
  | .handle _ => ∃ event ∈ s.batch.head?, event.token = token
  | _ => False

/-- An endpoint that a step leaves as it is: its state with the queued reply,
its buffers and its registration. -/
structure Unchanged (token : Token) (ep : BwServerEndpoint) (s s' : Server) : Prop where
  object : s'.object token = some ep
  buffers : ∀ ptr ∈ ep.blocks, s'.mem.block ptr = s.mem.block ptr
  held : s'.endpoints ep.sock = some token
  registered : ∃ peer queued, s'.sys.sock ep.sock =
    some ⟨peer, some ⟨registration token ep.interest, queued⟩⟩

/-! ## The other endpoints -/

section Others

variable {s s' : Server} {token : Token} {ep : BwServerEndpoint}

theorem accepted_others {handling : Handling} {event : Event} {rest : List Event} {peer : Peer}
    {backlog : List Peer} (registry : Registry s)
    (accepting : Accepting s handling event rest peer backlog) (object : s.object token = some ep)
    (open' : ep.sock ≠ INVALID_SOCKET) :
    (s.accepted handling rest peer backlog).object token = some ep ∧
      ∀ ptr ∈ ep.blocks,
        (s.accepted handling rest peer backlog).mem.block ptr = s.mem.block ptr := by
  have fresh := accepting.fresh
  have notNew : token ≠ handling.address := by
    intro same
    subst same
    rw [fresh.2.2.2.1] at object
    cases object
  have enrolled : (s.accepted handling rest peer backlog).object token =
      (({ s with batch := rest } : Server).erase handling.fd).object token :=
    Function.update_of_ne notNew _ _
  rw [enrolled]
  change _ ∧ ∀ ptr ∈ ep.blocks,
    (({ s with batch := rest } : Server).erase handling.fd).mem.block ptr = s.mem.block ptr
  cases entry : s.endpoints handling.fd with
  | none =>
      rw [erase_vacant (s := { s with batch := rest }) entry]
      exact ⟨object, fun _ _ => rfl⟩
  | some old =>
      obtain ⟨ep', object', closed⟩ := registry.leftover fresh.1 entry
      have notOld : token ≠ old := by
        intro same
        subst same
        rw [object] at object'
        cases object'
        exact open' closed
      rw [erase_leftover (s := { s with batch := rest }) entry object' closed]
      constructor
      · exact (Function.update_of_ne notOld _ _).trans object
      · intro ptr member
        exact freeBuffers_block ep' s.mem
          (registry.apart token old ep ep' notOld object object' ptr member)

theorem served_others {event : Event} {rest : List Event} {served : BwServerEndpoint}
    {ctx : Context Host} (registry : Registry s) (serving : Serving s event rest served)
    (done : Dispatched event (!event.isClosing) (s.context event.token served) ctx)
    (object : s.object token = some ep) (other : token ≠ event.token) :
    (({ s with batch := rest } : Server).store ctx).object token = some ep ∧
      ∀ ptr ∈ ep.blocks,
        (({ s with batch := rest } : Server).store ctx).mem.block ptr = s.mem.block ptr := by
  have this : ctx.this = event.token := done.this
  constructor
  · change Function.update s.object ctx.this (some ctx.ep) token = some ep
    rw [this, Function.update_of_ne other]
    exact object
  · intro ptr member
    exact done.footprint.foreign ptr (registry.allocated token ep object ptr member)
      (registry.apart token event.token ep served other object serving.object ptr member)

theorem step_others (registry : Registry s) (input : Input) (returned : s.step input = .running s')
    (object : s.object token = some ep) (open' : ep.sock ≠ INVALID_SOCKET)
    (other : ¬s.Concerns token input) :
    s'.object token = some ep ∧ ∀ ptr ∈ ep.blocks, s'.mem.block ptr = s.mem.block ptr := by
  cases input with
  | connect =>
      cases returned
      exact ⟨object, fun _ _ => rfl⟩
  | hangUp fd reset =>
      cases returned
      exact ⟨object, fun _ _ => rfl⟩
  | hangUpQueued index reset =>
      cases returned
      exact ⟨object, fun _ _ => rfl⟩
  | ready fd =>
      cases returned
      exact ⟨object, fun _ _ => rfl⟩
  | pollUntil picks =>
      cases returned
      obtain ⟨object', _, mem'⟩ := pollUntil_objects s picks
      rw [object', mem']
      exact ⟨object, fun _ _ => rfl⟩
  | handle handling =>
      have next := next_cases registry handling
      change s.next handling = .running s' at returned
      rw [returned] at next
      cases next with
      | idle => exact ⟨object, fun _ _ => rfl⟩
      | accepted accepting tolerable => exact accepted_others registry accepting object open'
      | @served event rest served ctx serving done =>
          apply served_others registry serving done object
          intro same
          subst same
          exact other ⟨event, by rw [serving.batch]; rfl, rfl⟩

theorem step_unchanged (registry : Registry s) (input : Input)
    (returned : s.step input = .running s') (object : s.object token = some ep)
    (open' : ep.sock ≠ INVALID_SOCKET) (other : ¬s.Concerns token input) :
    Unchanged token ep s s' := by
  obtain ⟨object', buffers⟩ := step_others registry input returned object open' other
  have registry' := step_registry registry input
  rw [returned] at registry'
  exact ⟨object', buffers, Registry.held_of_open registry' object' open',
    Registry.sock_of_open registry' object' open'⟩

end Others

/-! ## No step stops the process -/

theorem step_continues {s : Server} (registry : Registry s) (input : Input)
    (calm : s.Calm input) : ∃ s', s.step input = .running s' := by
  cases input with
  | connect => exact ⟨_, rfl⟩
  | hangUp fd reset => exact ⟨_, rfl⟩
  | hangUpQueued index reset => exact ⟨_, rfl⟩
  | ready fd => exact ⟨_, rfl⟩
  | pollUntil picks => exact ⟨_, rfl⟩
  | handle handling =>
      have next := next_cases registry handling
      change ∃ s', s.next handling = .running s'
      generalize s.next handling = process at next ⊢
      cases next with
      | idle => exact ⟨_, rfl⟩
      | accepted accepting tolerable => exact ⟨_, rfl⟩
      | @refused event rest peer backlog accepting broken =>
          have tolerable := calm event (by rw [accepting.batch]; rfl)
          rw [if_pos accepting.listener, broken] at tolerable
          cases tolerable
      | served serving done => exact ⟨_, rfl⟩
      | @failed event rest ep serving broken =>
          have tolerable := calm event (by rw [serving.batch]; rfl)
          rw [if_neg (serving.notListener registry)] at tolerable
          exact absurd tolerable broken

/-! ## The end of a connection is delivered -/

section Delivery

variable {s : Server} {token : Token} {ep : BwServerEndpoint}

theorem not_announced (s : Server) (token : Token) : s.announced token = false ↔
    ∃ event ∈ s.batch, event.token = token ∧ event.isClosing = true := by
  simp [announced]

theorem look_batch (registry : Registry s) (pick : Pick) :
    ∃ more, (s.look pick).batch = s.batch ++ more := by
  unfold look
  split
  · cases queued : s.sys.listening.queued with
    | false => exact ⟨[], by rw [lookListening_quiet queued, List.append_nil]⟩
    | true =>
        obtain ⟨event, _, _, looked⟩ := lookListening_queued registry queued
        exact ⟨[event], by rw [looked]⟩
  · have looked := lookSock_cases registry pick
    generalize s.lookSock pick = s' at looked ⊢
    cases looked with
    | nothing quiet => exact ⟨[], (List.append_nil _).symm⟩
    | silent queued => exact ⟨[], (List.append_nil _).symm⟩
    | reported queued token_eq closing => exact ⟨[_], rfl⟩

theorem look_ending (registry : Registry s) (pick : Pick) (ending : s.announced token = false) :
    (s.look pick).announced token = false := by
  obtain ⟨event, member, found⟩ := (not_announced s token).mp ending
  obtain ⟨more, batch⟩ := look_batch registry pick
  refine (not_announced _ token).mpr ⟨event, ?_, found⟩
  rw [batch]
  exact List.mem_append_left _ member

theorem look_down (registry : Registry s) (pick : Pick) {fd : RawFd} {reset : Bool}
    (down : ∃ item, s.sys.sock fd = some ⟨.down reset, item⟩) :
    ∃ item, (s.look pick).sys.sock fd = some ⟨.down reset, item⟩ := by
  obtain ⟨item, found⟩ := down
  have seen : ∃ item, (s.sys.modify pick.fd Sock.seen).sock fd = some ⟨.down reset, item⟩ := by
    by_cases same : fd = pick.fd
    · subst same
      rw [Host.modify_same, found]
      exact ⟨_, rfl⟩
    · rw [Host.modify_other _ _ same]
      exact ⟨item, found⟩
  unfold look
  split
  · unfold lookListening
    split <;> exact ⟨item, found⟩
  · have looked := lookSock_cases registry pick
    generalize s.lookSock pick = s' at looked ⊢
    cases looked with
    | nothing quiet => exact ⟨item, found⟩
    | silent queued => exact seen
    | reported queued token_eq closing => exact seen

theorem look_finds (registry : Registry s) (pick : Pick) (object : s.object token = some ep)
    (open' : ep.sock ≠ INVALID_SOCKET) {reset : Bool} {item : Option Item}
    (down : s.sys.sock ep.sock = some ⟨.down reset, item⟩) (looked : pick.fd = ep.sock) :
    (s.look pick).announced token = false := by
  cases ending : s.announced token with
  | false => exact look_ending registry pick ending
  | true =>
      have notListener := (registry.opened _ _ down).1
      obtain ⟨peer, queued, found, waiting⟩ := (registry.healthy token ep object open').watched.entry
      have waiting : queued = true := by
        rw [down] at found
        cases found
        exact waiting ending nofun
      subst waiting
      unfold look
      rw [if_neg (looked ▸ notListener)]
      have result := lookSock_cases registry pick
      rw [looked] at result
      generalize s.lookSock pick = s' at result ⊢
      cases result with
      | nothing quiet => exact absurd (quiet _ _ found) (by simp)
      | silent other =>
          have same := other.found
          rw [down] at same
          cases same
      | @reported token' ep' peer' event other token_eq closing =>
          have same : token = token' := by
            by_contra differ
            exact registry.sock_ne differ object other.object open' other.sock.symm
          have ended : event.isClosing = true := by
            apply closing
            have both := other.found
            rw [down] at both
            cases both
            nofun
          refine (not_announced _ token).mpr ⟨event, ?_, token_eq.trans same.symm, ended⟩
          exact List.mem_append_right _ List.mem_cons_self

/-- The next poll that looks at a connection that has ended delivers the end. -/
theorem pollUntil_delivers (registry : Registry s) (object : s.object token = some ep)
    (open' : ep.sock ≠ INVALID_SOCKET) {reset : Bool} {item : Option Item}
    (down : s.sys.sock ep.sock = some ⟨.down reset, item⟩) (waiting : s.batch = [])
    {picks : List Pick} (picked : ∃ pick ∈ picks.take s.maxEvents, pick.fd = ep.sock) :
    ∃ event ∈ (s.pollUntil picks).batch, event.token = token ∧ event.isClosing = true := by
  have unreported : Unreported s := by
    constructor <;> simp [waiting]
  apply (not_announced _ token).mp
  unfold pollUntil
  rw [if_pos waiting]
  generalize picks.take s.maxEvents = looks at picked ⊢
  clear waiting
  -- the end is in the batch, or one of the remaining looks will find it
  have due : s.announced token = false ∨ ∃ pick ∈ looks, pick.fd = ep.sock := Or.inr picked
  have down' : ∃ item, s.sys.sock ep.sock = some ⟨.down reset, item⟩ := ⟨item, down⟩
  clear picked down
  induction looks generalizing s with
  | nil =>
      rcases due with ending | ⟨_, absent, _⟩
      · exact ending
      · cases absent
  | cons pick looks ih =>
      rw [List.foldl_cons]
      obtain ⟨registry', unreported'⟩ := look_registry pick registry unreported
      have object' : (s.look pick).object token = some ep := by
        rw [(look_objects s pick).1]
        exact object
      apply ih registry' object' unreported' _ (look_down registry pick down')
      rcases due with ending | ⟨found, member, same⟩
      · exact Or.inl (look_ending registry pick ending)
      · rcases List.mem_cons.mp member with rfl | later
        · obtain ⟨item, down⟩ := down'
          exact Or.inl (look_finds registry found object open' down same)
        · exact Or.inr ⟨found, later, same⟩

end Delivery

/-! ## A delivered end is handled -/

/-- `OnError` has run: the endpoint is closed, its socket is gone with its entry. -/
def Closed (token : Token) (fd : RawFd) : Process → Prop
  | .running s =>
    (∃ ep, s.object token = some ep ∧ ep.sock = INVALID_SOCKET) ∧ s.sys.sock fd = none
  | .stopped _ => False

def completes (process : Process) (input : Input) : Bool :=
  match process, input with
  | .running s, .handle handling =>
    match s.next handling with
    | .running s' => s'.batch.length < s.batch.length
    | .stopped _ => false
  | _, _ => false

/-- An event that closes the endpoint is in the batch behind `rank` others. -/
def Ending (token : Token) (fd : RawFd) (rank : Nat) : Process → Prop
  | .running s =>
    Registry s ∧ ∃ ep before event after, s.object token = some ep ∧ ep.sock = fd ∧
      s.batch = before ++ event :: after ∧ event.token = token ∧ event.isClosing = true ∧
      before.length = rank
  | .stopped _ => False

section Ending

variable {s s' : Server} {token : Token} {fd : RawFd} {rank : Nat}

theorem Registry.open_of_event (registry : Registry s) {event : Event} {ep : BwServerEndpoint}
    (member : event ∈ s.batch) (object : s.object event.token = some ep) :
    ep.sock ≠ INVALID_SOCKET := by
  rcases registry.batch event member with ⟨listener, _⟩ | ⟨ep', object', open'⟩
  · exact absurd listener (registry.owned _ ep object).1
  · rw [object] at object'
    cases object'
    exact open'

theorem ending_of_batch (registry : Registry s) (ending : Ending token fd rank (.running s))
    (input : Input) (returned : s.step input = .running s') (batch : s'.batch = s.batch)
    (other : ¬s.Concerns token input ∨ s' = s) : Ending token fd rank (.running s') := by
  rcases other with other | rfl
  · obtain ⟨_, ep, before, event, after, object, sock, split, rfl, closing, length⟩ := ending
    have member : event ∈ s.batch := by
      rw [split]
      exact List.mem_append_right _ List.mem_cons_self
    have registry' := step_registry registry input
    rw [returned] at registry'
    exact ⟨registry', ep, before, event, after,
      (step_others registry input returned object (registry.open_of_event member object) other).1,
      sock, batch.trans split, rfl, closing, length⟩
  · exact ending

theorem ending_of_rest {input : Input} {front event : Event} {before after : List Event}
    {ep : BwServerEndpoint} (registry : Registry s) (returned : s.step input = .running s')
    (object : s.object event.token = some ep) (sock : ep.sock = fd)
    (batch : s.batch = front :: (before ++ event :: after)) (rest : s'.batch = before ++ event :: after)
    (closing : event.isClosing = true) :
    Ending event.token fd before.length (.running s') := by
  have member : event ∈ before ++ event :: after := List.mem_append_right _ List.mem_cons_self
  have other : ¬s.Concerns event.token input := by
    intro concerns
    cases input with
    | handle handling =>
        obtain ⟨found, head, same⟩ := concerns
        rw [batch] at head
        cases head
        exact not_mem_rest registry batch member same.symm
    | connect => exact concerns
    | hangUp fd reset => exact concerns
    | hangUpQueued index reset => exact concerns
    | ready fd => exact concerns
    | pollUntil picks => exact concerns
  have open' := registry.open_of_event (batch ▸ List.mem_cons_of_mem front member) object
  have registry' := step_registry registry input
  rw [returned] at registry'
  exact ⟨registry', ep, before, event, after,
    (step_others registry input returned object open' other).1, sock, rest, rfl, closing, rfl⟩

theorem closed_of_head {event : Event} {rest : List Event} {ep : BwServerEndpoint}
    {ctx : Context Host}
    (done : Dispatched event (!event.isClosing) (s.context event.token ep) ctx)
    (closing : event.isClosing = true) :
    Closed event.token ep.sock (.running (({ s with batch := rest } : Server).store ctx)) := by
  have left := done.left
  rw [Left, if_pos closing] at left
  have this : ctx.this = event.token := done.this
  refine ⟨⟨ctx.ep, ?_, left.1⟩, left.2⟩
  change Function.update s.object ctx.this (some ctx.ep) event.token = some ctx.ep
  rw [this, Function.update_self]

theorem handle_falls {handling : Handling} (ending : Ending token fd rank (.running s))
    (returned : s.step (.handle handling) = .running s') :
    Closed token fd (.running s') ∨
      ∃ rank', rank' + (completes (.running s) (.handle handling)).toNat ≤ rank ∧
        Ending token fd rank' (.running s') := by
  obtain ⟨registry, ep, before, event, after, object, sock, batch, rfl, closing, rfl⟩ := ending
  have next := next_cases registry handling
  have returned' : s.next handling = .running s' := returned
  rw [returned'] at next
  cases next with
  | idle =>
      refine Or.inr ⟨before.length, ?_, registry, ep, before, event, after, object, sock, batch,
        rfl, closing, rfl⟩
      simp [completes, returned']
  | @accepted front rest peer backlog accepting tolerable =>
      have same := batch
      rw [accepting.batch] at same
      cases before with
      | nil =>
          cases same
          exact absurd accepting.listener (registry.owned _ ep object).1
      | cons front' before =>
          cases same
          refine Or.inr ⟨before.length, Nat.add_le_add_left (Bool.toNat_le _) _, ?_⟩
          exact ending_of_rest registry returned object sock batch (erase_keeps _ _).1 closing
  | @served front rest served ctx serving done =>
      have same := batch
      rw [serving.batch] at same
      cases before with
      | nil =>
          cases same
          have objects := serving.object
          rw [object] at objects
          cases objects
          exact Or.inl (sock ▸ closed_of_head done closing)
      | cons front' before =>
          cases same
          refine Or.inr ⟨before.length, Nat.add_le_add_left (Bool.toNat_le _) _, ?_⟩
          exact ending_of_rest registry returned object sock batch rfl closing

theorem ending_falls (process : Process) (input : Input) (ending : Ending token fd rank process)
    (calm : process.Holds fun s => s.Calm input) :
    Closed token fd (process.step input) ∨
      ∃ rank', rank' + (completes process input).toNat ≤ rank ∧
        Ending token fd rank' (process.step input) := by
  cases process with
  | stopped reason => exact absurd ending id
  | running s =>
      have registry := ending.1
      obtain ⟨s', returned⟩ := step_continues registry input calm
      change Closed token fd (s.step input) ∨ ∃ rank', _ ∧ Ending token fd rank' (s.step input)
      rw [returned]
      have keeps : s'.batch = s.batch → (¬s.Concerns token input ∨ s' = s) →
          Ending token fd rank (.running s') :=
        ending_of_batch registry ending input returned
      cases input with
      | handle handling => exact handle_falls ending returned
      | connect =>
          cases returned
          exact Or.inr ⟨rank, le_rfl, keeps rfl (Or.inl id)⟩
      | hangUp other reset =>
          cases returned
          exact Or.inr ⟨rank, le_rfl, keeps rfl (Or.inl id)⟩
      | hangUpQueued index reset =>
          cases returned
          exact Or.inr ⟨rank, le_rfl, keeps rfl (Or.inl id)⟩
      | ready other =>
          cases returned
          exact Or.inr ⟨rank, le_rfl, keeps rfl (Or.inl id)⟩
      | pollUntil picks =>
          obtain ⟨_, ep, before, event, after, _, _, batch, _⟩ := ending
          have same : s' = s := by
            cases returned
            unfold pollUntil
            apply if_neg
            rw [batch]
            simp
          exact Or.inr ⟨rank, le_rfl, keeps (by rw [same]) (Or.inr same)⟩

end Ending

def CalmRun (process : Process) (inputs : List Input) : Prop :=
  Machine.Along Process.step (fun process input => process.Holds fun s => s.Calm input) process
    inputs

/-- A delivered end is handled: the endpoint is closed before as many further
events have been handled as the batch has. -/
theorem ending_closes {s : Server} (registry : Registry s) {token : Token} {ep : BwServerEndpoint}
    (object : s.object token = some ep)
    (ending : ∃ event ∈ s.batch, event.token = token ∧ event.isClosing = true)
    {later : List Input} (calm : CalmRun (.running s) later)
    (handled : s.batch.length ≤ Machine.tally Process.step completes (.running s) later) :
    Machine.Passes Process.step (Closed token ep.sock) (.running s) later := by
  obtain ⟨event, member, rfl, closing⟩ := ending
  obtain ⟨before, after, batch⟩ := List.append_of_mem member
  refine Machine.passes_of_rank Process.step _ completes _ (Ending event.token ep.sock)
    (fun rank process input => ending_falls process input) later before.length (.running s)
    ⟨registry, ep, before, event, after, object, rfl, batch, rfl, closing, rfl⟩ calm ?_
  have length := congrArg List.length batch
  rw [List.length_append, List.length_cons] at length
  omega

structure Isolated (s : Server) : Prop where
  /-- the process goes on, and only the endpoint of the event may change -/
  steps : ∀ input, s.Calm input → ∃ s', s.step input = .running s' ∧
    ∀ token ep, s.object token = some ep → ep.sock ≠ INVALID_SOCKET →
      ¬s.Concerns token input → Unchanged token ep s s'
  /-- the next poll that looks at a connection that has ended delivers the end -/
  delivers : ∀ token ep reset item picks, s.object token = some ep → ep.sock ≠ INVALID_SOCKET →
    s.sys.sock ep.sock = some ⟨.down reset, item⟩ → s.batch = [] →
    (∃ pick ∈ picks.take s.maxEvents, pick.fd = ep.sock) →
    ∃ event ∈ (s.pollUntil picks).batch, event.token = token ∧ event.isClosing = true
  /-- an end that has been delivered closes and deregisters the endpoint -/
  closes : ∀ token ep later, s.object token = some ep →
    (∃ event ∈ s.batch, event.token = token ∧ event.isClosing = true) →
    CalmRun (.running s) later →
    s.batch.length ≤ Machine.tally Process.step completes (.running s) later →
    Machine.Passes Process.step (Closed token ep.sock) (.running s) later

theorem Registry.isolated {s : Server} (registry : Registry s) : Isolated s := by
  constructor
  case steps =>
    intro input calm
    obtain ⟨s', returned⟩ := step_continues registry input calm
    exact ⟨s', returned, fun token ep object open' other =>
      step_unchanged registry input returned object open' other⟩
  case delivers =>
    intro token ep reset item picks object open' down waiting picked
    exact pollUntil_delivers registry object open' down waiting picked
  case closes =>
    intro token ep later object ending calm handled
    exact ending_closes registry object ending calm handled

/-- In every run in which no checked call meets a hard error the process goes
on, and a connection that fails is isolated. -/
theorem failure_isolated (listener : RawFd) (maxEvents : Nat) (mem : Memory) (inputs : List Input)
    (calm : CalmRun (.running (init listener maxEvents mem)) inputs) :
    ∃ s, Machine.run Process.step (.running (init listener maxEvents mem)) inputs = .running s ∧
      Isolated s := by
  have always := Machine.run_invariant_along Process.step
    (fun process input => process.Holds fun s => s.Calm input)
    (fun process => ∃ s, process = .running s ∧ Registry s) ?_ inputs
    (.running (init listener maxEvents mem))
    ⟨_, rfl, init_registry listener maxEvents mem⟩ calm
  · obtain ⟨s, reached, registry⟩ := always
    exact ⟨s, reached, Registry.isolated registry⟩
  · intro process input both calm
    obtain ⟨s, rfl, registry⟩ := both
    obtain ⟨s', returned⟩ := step_continues registry input calm
    have registry' := step_registry registry input
    rw [returned] at registry'
    exact ⟨s', returned, registry'⟩

/-- The client that leaves is closed when its end is handled. -/
theorem failure_isolated_one_client :
    ∃ s, Machine.run Process.step (.running (init 3 8 emptyMemory)) oneClient = .running s ∧
      Machine.Passes Process.step (Closed 100 5) (.running s) [.handle (smooth 6 101)] := by
  have isolated := failure_isolated 3 8 emptyMemory oneClient
    ⟨trivial, trivial, by rintro event ⟨⟩; rfl, trivial, trivial, trivial⟩
  obtain ⟨s, reached, isolated⟩ := isolated
  refine ⟨s, reached, ?_⟩
  cases reached
  refine isolated.closes 100 _ _ rfl ⟨_, List.mem_cons_self, rfl, rfl⟩ ?_ (by decide)
  refine ⟨?_, trivial⟩
  rintro event ⟨⟩
  exact ⟨fun _ => ⟨rfl, rfl, by rintro choice ⟨⟩⟩, by rintro _ choice ⟨⟩⟩

/-- A client resets its connection before it is accepted; `GetPeerAddr` aborts
the process. -/
theorem reset_before_accepted :
    ¬∀ inputs, ∃ s,
      Machine.run Process.step (.running (init 3 8 emptyMemory)) inputs = .running s := by
  intro always
  obtain ⟨s, reached⟩ := always
    [.connect, .hangUpQueued 0 true, .pollUntil [⟨3, true, false⟩],
      .handle { smooth 5 100 with peername := .fails .ENOTCONN }]
  cases reached

end Server

end RpcBench.Socket
