import RpcBench.Socket.Dispatch

/-! # What every reachable server state looks like

The map owns the objects, the epoll instance knows them by address, and the
kernel knows their sockets by number.  `Registry` says how the three fit: a
connection is held under its number as long as it is open, and an entry whose
endpoint has been closed is a leftover that nothing refers to. -/
set_option autoImplicit false

namespace RpcBench.Socket

open Fallible BwServerEndpoint

namespace Server

/-- No event of the batch will close the endpoint. -/
def announced (token : Token) (s : Server) : Bool :=
  !s.batch.any fun event => event.token == token && event.isClosing

/-- Connections that a queued or delivered notification stands for. -/
def owed (s : Server) : Nat :=
  s.sys.listening.queued.toNat + s.batch.countP fun event => event.token == s.listenerToken

structure Registry (s : Server) : Prop where
  listening : s.sys.listening.event = registration s.listenerToken Interest.READABLE
  /-- an entry's key is its endpoint's socket, or the endpoint is closed -/
  held : ∀ fd token, s.endpoints fd = some token →
    0 ≤ fd ∧ ∃ ep, s.object token = some ep ∧ (ep.sock = fd ∨ ep.sock = INVALID_SOCKET)
  owned : ∀ token ep, s.object token = some ep →
    token ≠ s.listenerToken ∧ ∃ fd, s.endpoints fd = some token
  single : ∀ fd fd' token, s.endpoints fd = some token → s.endpoints fd' = some token → fd = fd'
  opened : ∀ fd sock, s.sys.sock fd = some sock → fd ≠ s.listener ∧
    ∃ token ep, s.endpoints fd = some token ∧ s.object token = some ep ∧ ep.sock = fd
  healthy : ∀ token ep, s.object token = some ep → ep.sock ≠ INVALID_SOCKET →
    Healthy token (s.announced token) ep s.mem s.sys
  allocated : ∀ token ep, s.object token = some ep → ∀ ptr ∈ ep.blocks, ptr < s.mem.next
  apart : ∀ token token' ep ep', token ≠ token' → s.object token = some ep →
    s.object token' = some ep' → ∀ ptr ∈ ep.blocks, ptr ∉ ep'.blocks
  /-- an event of the batch is for the listener or for an open endpoint -/
  batch : ∀ event ∈ s.batch, event.token = s.listenerToken ∧ event.isReadable = true ∨
    ∃ ep, s.object event.token = some ep ∧ ep.sock ≠ INVALID_SOCKET
  once : (s.batch.map Event.token).Nodup
  accepts : s.owed ≤ s.sys.backlog.length

section Registry

variable {s : Server}

theorem Registry.held_of_open (registry : Registry s) {token : Token} {ep : BwServerEndpoint}
    (object : s.object token = some ep) (open' : ep.sock ≠ INVALID_SOCKET) :
    s.endpoints ep.sock = some token := by
  obtain ⟨_, fd, entry⟩ := registry.owned token ep object
  obtain ⟨_, ep', object', sockEq⟩ := registry.held fd token entry
  rw [object] at object'
  obtain rfl := Option.some.inj object'
  rcases sockEq with same | closed
  · rw [same]
    exact entry
  · exact absurd closed open'

theorem Registry.sock_of_open (registry : Registry s) {token : Token} {ep : BwServerEndpoint}
    (object : s.object token = some ep) (open' : ep.sock ≠ INVALID_SOCKET) :
    ∃ peer queued, s.sys.sock ep.sock =
      some ⟨peer, some ⟨registration token ep.interest, queued⟩⟩ := by
  obtain ⟨peer, queued, found, _⟩ := (registry.healthy token ep object open').watched.entry
  exact ⟨peer, queued, found⟩

theorem ne_invalid {fd : RawFd} (valid : 0 ≤ fd) : fd ≠ INVALID_SOCKET := by
  intro same
  subst same
  exact absurd valid (by decide)

/-- Every open socket is an endpoint's, with the entry that it asked for. -/
theorem Registry.of_sock (registry : Registry s) {fd : RawFd} {sock : Sock}
    (found : s.sys.sock fd = some sock) :
    ∃ token ep peer queued, s.object token = some ep ∧ ep.sock = fd ∧ ep.sock ≠ INVALID_SOCKET ∧
      sock = ⟨peer, some ⟨registration token ep.interest, queued⟩⟩ := by
  obtain ⟨_, token, ep, entry, object, rfl⟩ := registry.opened fd sock found
  have open' := ne_invalid (registry.held _ token entry).1
  obtain ⟨peer, queued, found'⟩ := registry.sock_of_open object open'
  rw [found] at found'
  exact ⟨token, ep, peer, queued, object, rfl, open', Option.some.inj found'⟩

theorem Registry.sock_ne (registry : Registry s) {token token' : Token}
    {ep ep' : BwServerEndpoint} (differ : token ≠ token') (object : s.object token = some ep)
    (object' : s.object token' = some ep') (open' : ep.sock ≠ INVALID_SOCKET) :
    ep.sock ≠ ep'.sock := by
  intro same
  have first := registry.held_of_open object open'
  have second := registry.held_of_open object' (same ▸ open')
  rw [← same, first] at second
  exact differ (Option.some.inj second)

/-- A key of the map is a valid number, so erasing the invalid one does nothing. -/
theorem Registry.erase_invalid (registry : Registry s) : s.erase INVALID_SOCKET = s := by
  unfold erase
  cases entry : s.endpoints INVALID_SOCKET with
  | none => rfl
  | some token =>
      have valid := (registry.held _ token entry).1
      simp [INVALID_SOCKET] at valid

theorem init_registry (listener : RawFd) (maxEvents : Nat) (mem : Memory) :
    Registry (init listener maxEvents mem) := by
  constructor <;> simp [init, listenerToken, owed]

end Registry

/-! ## Outside the process -/

section Outside

variable {s : Server}

theorem connect_registry (registry : Registry s) : Registry
    { s with
      sys :=
        { s.sys with
          backlog := s.sys.backlog ++ [.up]
          listening := { s.sys.listening with queued := true } } } := by
  refine { registry with healthy := ?_, accepts := ?_ }
  · intro token ep object open'
    obtain ⟨session, entry⟩ := registry.healthy token ep object open'
    exact ⟨session, ⟨entry.entry⟩⟩
  · have before := registry.accepts
    unfold owed at before ⊢
    change 1 + s.batch.countP (fun event => event.token == s.listenerToken) ≤
      (s.sys.backlog ++ [Peer.up]).length
    rw [List.length_append]
    simp only [List.length_singleton]
    omega

theorem hangUpQueued_registry (registry : Registry s) (index : Nat) (reset : Bool) : Registry
    { s with sys := { s.sys with backlog := s.sys.backlog.set index (.down reset) } } := by
  refine { registry with healthy := ?_, accepts := ?_ }
  · intro token ep object open'
    obtain ⟨session, entry⟩ := registry.healthy token ep object open'
    exact ⟨session, ⟨entry.entry⟩⟩
  · have before := registry.accepts
    change s.owed ≤ (s.sys.backlog.set index (.down reset)).length
    rw [List.length_set]
    exact before

theorem modify_registry (registry : Registry s) (fd : RawFd) (change : Sock → Sock)
    (keeps : ∀ token interest, Host.Watched token fd (s.announced token) interest s.sys →
      Host.Watched token fd (s.announced token) interest (s.sys.modify fd change)) :
    Registry { s with sys := s.sys.modify fd change } := by
  refine { registry with opened := ?_, healthy := ?_ }
  · intro other sock found
    by_cases same : other = fd
    · subst same
      cases before : s.sys.sock other with
      | none => simp [before] at found
      | some old => exact registry.opened other old before
    · change (s.sys.modify fd change).sock other = some sock at found
      rw [Host.modify_other change s.sys same] at found
      exact registry.opened other sock found
  · intro token ep object open'
    obtain ⟨session, watched⟩ := registry.healthy token ep object open'
    refine ⟨session, ?_⟩
    by_cases same : ep.sock = fd
    · subst same
      exact keeps _ _ watched
    · obtain ⟨peer, queued, found, announced⟩ := watched.entry
      refine ⟨peer, queued, ?_, announced⟩
      rw [← found]
      exact Host.modify_other change s.sys same

end Outside

/-! ## `PollUntil` -/

section Polling

variable {s : Server}

structure Unreported (s : Server) : Prop where
  listening : s.sys.listening.queued = true → s.listenerToken ∉ s.batch.map Event.token
  sock : ∀ fd peer item, s.sys.sock fd = some ⟨peer, some item⟩ → item.queued = true →
    item.event.token ∉ s.batch.map Event.token

theorem announced_append (batch : List Event) (event : Event) (token : Token) :
    announced token { s with batch := batch ++ [event] } =
      (announced token { s with batch } && !(event.token == token && event.isClosing)) := by
  simp [announced]

theorem reported_registry (registry : Registry s) {sys : Host} {event : Event}
    (valid : event.token = s.listenerToken ∧ event.isReadable = true ∨
      ∃ ep, s.object event.token = some ep ∧ ep.sock ≠ INVALID_SOCKET)
    (unseen : event.token ∉ s.batch.map Event.token)
    (listening : sys.listening.event = s.sys.listening.event)
    (opened : ∀ fd sock, sys.sock fd = some sock → ∃ before, s.sys.sock fd = some before)
    (watched : ∀ token ep, s.object token = some ep → ep.sock ≠ INVALID_SOCKET →
      Host.Watched token ep.sock (s.announced token && !(event.token == token && event.isClosing))
        ep.interest sys)
    (accepts : owed { s with sys, batch := s.batch ++ [event] } ≤ sys.backlog.length) :
    Registry { s with sys, batch := s.batch ++ [event] } := by
  refine { registry with
    listening := listening.trans registry.listening, opened := ?_, healthy := ?_, batch := ?_
    once := ?_, accepts := accepts }
  · intro fd sock found
    obtain ⟨before, found'⟩ := opened fd sock found
    exact registry.opened fd before found'
  · intro token ep object open'
    refine ⟨(registry.healthy token ep object open').session, ?_⟩
    have after := watched token ep object open'
    rw [← announced_append s.batch event token] at after
    exact after
  · intro other member
    rcases List.mem_append.mp member with old | new
    · exact registry.batch other old
    · obtain rfl := List.mem_singleton.mp new
      exact valid
  · change ((s.batch ++ [event]).map Event.token).Nodup
    rw [List.map_append, List.map_singleton]
    refine List.nodup_append.mpr ⟨registry.once, by simp, ?_⟩
    intro token member other otherMember same
    subst same
    obtain rfl := List.mem_singleton.mp otherMember
    exact unseen member

/-- A look at the listening socket with a queued notification: it stands for a
connection that is still there, so it is reported. -/
theorem lookListening_queued (registry : Registry s) (queued : s.sys.listening.queued = true) :
    ∃ event : Event, event.token = s.listenerToken ∧ event.isReadable = true ∧
      s.lookListening =
        { s with
          sys := { s.sys with listening := { s.sys.listening with queued := false } }
          batch := s.batch ++ [event] } := by
  have accepts := registry.accepts
  have readable : (s.sys.listening.reported .up (!s.sys.backlog.isEmpty) false).isReadable =
      true := by
    cases backlog : s.sys.backlog with
    | nil => simp [owed, queued, backlog] at accepts
    | cons peer rest =>
        simp [Item.reported, registry.listening, Event.isReadable, Interest.READABLE]
  refine ⟨_, ?_, readable, ?_⟩
  · simp only [Item.reported, registry.listening]
    rfl
  · simp only [lookListening, queued, readable, if_true]

theorem lookListening_quiet (quiet : s.sys.listening.queued = false) : s.lookListening = s := by
  rw [lookListening, quiet]
  exact if_neg Bool.false_ne_true

theorem reported_closing (token : Token) {interest : Interest} (queued : Bool) {peer : Peer}
    (readable : interest.readable = true) (down : peer ≠ .up) (input output : Bool) :
    (Item.reported ⟨registration token interest, queued⟩ peer input output).isClosing = true := by
  cases peer with
  | up => exact absurd rfl down
  | down reset =>
      simp [Item.reported, Event.isClosing, Event.isReadClosed, registration, interestToEpoll,
        Interest.isReadable, readable]

/-- A socket that is still queued after one has been looked at is another one. -/
theorem seen_queued {sys : Host} {looked fd : RawFd} {peer : Peer} {item : Item}
    (found : (sys.modify looked Sock.seen).sock fd = some ⟨peer, some item⟩)
    (queued : item.queued = true) : fd ≠ looked ∧ sys.sock fd = some ⟨peer, some item⟩ := by
  by_cases same : fd = looked
  · subst same
    rw [Host.modify_same] at found
    obtain ⟨before, _, changed⟩ := Option.map_eq_some_iff.mp found
    simp only [Sock.seen, Sock.mk.injEq, Option.map_eq_some_iff] at changed
    obtain ⟨_, item', _, rfl⟩ := changed
    cases queued
  · rw [Host.modify_other _ _ same] at found
    exact ⟨same, found⟩

structure Queued (s : Server) (fd : RawFd) (token : Token) (ep : BwServerEndpoint) (peer : Peer) :
    Prop where
  object : s.object token = some ep
  sock : ep.sock = fd
  open' : ep.sock ≠ INVALID_SOCKET
  found : s.sys.sock fd = some ⟨peer, some ⟨registration token ep.interest, true⟩⟩

/-- Everything that a look at one connection can do.  An end of the connection
is never passed over, as every interest includes reading. -/
inductive Look (s : Server) (fd : RawFd) : Server → Prop where
  | nothing (quiet : ∀ peer item, s.sys.sock fd = some ⟨peer, some item⟩ → item.queued = false) :
      Look s fd s
  | silent {token : Token} {ep : BwServerEndpoint} (queued : Queued s fd token ep .up) :
      Look s fd { s with sys := s.sys.modify fd Sock.seen }
  | reported {token : Token} {ep : BwServerEndpoint} {peer : Peer} {event : Event}
      (queued : Queued s fd token ep peer) (token_eq : event.token = token)
      (closing : peer ≠ .up → event.isClosing = true) :
      Look s fd { s with sys := s.sys.modify fd Sock.seen, batch := s.batch ++ [event] }

theorem lookSock_cases (registry : Registry s) (pick : Pick) :
    Look s pick.fd (s.lookSock pick) := by
  unfold lookSock
  cases found : s.sys.sock pick.fd with
  | none =>
      apply Look.nothing
      intro peer item found'
      rw [found] at found'
      cases found'
  | some sock =>
      obtain ⟨token, ep, peer, queued, object, sockEq, open', rfl⟩ := registry.of_sock found
      obtain ⟨p, rep, sound⟩ := (registry.healthy token ep object open').session
      have readable : ep.interest.readable = true := by
        rw [rep.interest]
        exact sound.1
      cases queued with
      | false =>
          apply Look.nothing
          intro peer item found'
          rw [found] at found'
          cases found'
          rfl
      | true =>
          have waiting : Queued s pick.fd token ep peer := ⟨object, sockEq, open', found⟩
          have closing := fun down : peer ≠ .up =>
            reported_closing token true readable down pick.input pick.output
          simp only [if_true]
          split
          · next silent =>
              have up : peer = .up := by
                by_contra down
                have closes := closing down
                simp [Event.isClosing, Event.isError, Event.isReadClosed, Event.isWriteClosed,
                  silent] at closes
              subst up
              exact Look.silent waiting
          · exact Look.reported waiting rfl closing

/-- A look takes no connection off the backlog, and what it delivers it reports. -/
theorem look_owed (registry : Registry s) (pick : Pick) :
    (s.look pick).owed = s.owed ∧ (s.look pick).sys.backlog = s.sys.backlog := by
  unfold look
  split
  · cases queued : s.sys.listening.queued with
    | false =>
        rw [lookListening_quiet queued]
        exact ⟨rfl, rfl⟩
    | true =>
        obtain ⟨event, token, _, looked⟩ := lookListening_queued registry queued
        rw [looked]
        refine ⟨?_, rfl⟩
        unfold owed
        rw [queued]
        change 0 + (s.batch ++ [event]).countP (fun event => event.token == s.listenerToken) = _
        rw [List.countP_append, List.countP_singleton, token]
        simp only [beq_self_eq_true, if_true, Bool.toNat_true]
        omega
  · have looked := lookSock_cases registry pick
    generalize s.lookSock pick = s' at looked ⊢
    cases looked with
    | nothing quiet => exact ⟨rfl, rfl⟩
    | silent queued => exact ⟨rfl, rfl⟩
    | @reported token ep peer event queued token_eq closing =>
        refine ⟨?_, rfl⟩
        have notListener := (registry.owned token ep queued.object).1
        unfold owed
        change s.sys.listening.queued.toNat +
          (s.batch ++ [event]).countP (fun event => event.token == s.listenerToken) = _
        rw [List.countP_append, List.countP_singleton, token_eq,
          beq_eq_false_iff_ne.mpr notListener]
        rfl

theorem lookListening_registry (registry : Registry s) (unreported : Unreported s)
    (accepts : s.lookListening.owed ≤ s.lookListening.sys.backlog.length) :
    Registry s.lookListening ∧ Unreported s.lookListening := by
  cases queued : s.sys.listening.queued with
  | false =>
      rw [lookListening_quiet queued]
      exact ⟨registry, unreported⟩
  | true =>
      obtain ⟨event, token, readable, looked⟩ := lookListening_queued registry queued
      rw [looked] at accepts ⊢
      have unseen : event.token ∉ s.batch.map Event.token := by
        rw [token]
        exact unreported.listening queued
      refine ⟨reported_registry registry (Or.inl ⟨token, readable⟩) unseen rfl
        (fun fd sock found => ⟨sock, found⟩) ?_ accepts, ?_⟩
      · intro other ep object open'
        have differs : event.token ≠ other := by
          rw [token]
          exact (registry.owned other ep object).1.symm
        have watched := (registry.healthy other ep object open').watched
        simp only [beq_eq_false_iff_ne.mpr differs, Bool.false_and, Bool.not_false, Bool.and_true]
        exact ⟨watched.entry⟩
      · refine ⟨by simp, ?_⟩
        intro fd peer item found itemQueued
        change item.event.token ∉ (s.batch ++ [event]).map Event.token
        rw [List.map_append, List.mem_append]
        rintro (old | new)
        · exact unreported.sock fd peer item found itemQueued old
        · obtain ⟨other, ep, _, _, object, _, _, sockEq⟩ := registry.of_sock found
          cases sockEq
          simp only [List.map_singleton, List.mem_singleton, token] at new
          exact (registry.owned other ep object).1 new

theorem Queued.looked {fd : RawFd} {token : Token} {ep : BwServerEndpoint} {peer : Peer}
    (queued : Queued s fd token ep peer) : (s.sys.modify fd Sock.seen).sock fd =
      some ⟨peer, some ⟨registration token ep.interest, false⟩⟩ := by
  rw [Host.modify_same, queued.found]
  rfl

theorem silent_registry {fd : RawFd} {token : Token} {ep : BwServerEndpoint}
    (registry : Registry s) (unreported : Unreported s) (queued : Queued s fd token ep .up) :
    Registry { s with sys := s.sys.modify fd Sock.seen } ∧
      Unreported { s with sys := s.sys.modify fd Sock.seen } := by
  refine ⟨modify_registry registry fd Sock.seen ?_, unreported.listening, ?_⟩
  · intro token' interest entry
    obtain ⟨peer', queued', found', _⟩ := entry
    simp only [queued.found, Option.some.injEq, Sock.mk.injEq, Item.mk.injEq] at found'
    refine ⟨.up, false, ?_, fun _ down => absurd rfl down⟩
    rw [queued.looked, found'.2.1]
  · intro fd peer' item' found' queued'
    obtain ⟨_, before⟩ := seen_queued found' queued'
    exact unreported.sock fd peer' item' before queued'

theorem delivered_registry {fd : RawFd} {token : Token} {ep : BwServerEndpoint} {peer : Peer}
    {event : Event} (registry : Registry s) (unreported : Unreported s)
    (queued : Queued s fd token ep peer) (token_eq : event.token = token)
    (closing : peer ≠ .up → event.isClosing = true)
    (accepts : owed { s with sys := s.sys.modify fd Sock.seen, batch := s.batch ++ [event] } ≤
      s.sys.backlog.length) :
    Registry { s with sys := s.sys.modify fd Sock.seen, batch := s.batch ++ [event] } ∧
      Unreported { s with sys := s.sys.modify fd Sock.seen, batch := s.batch ++ [event] } := by
  subst token_eq
  obtain ⟨object, sockEq, open', found⟩ := queued
  have looked := Queued.looked ⟨object, sockEq, open', found⟩
  have notListener := (registry.owned _ ep object).1
  have unseen : event.token ∉ s.batch.map Event.token :=
    unreported.sock _ _ _ found rfl
  refine ⟨reported_registry registry (Or.inr ⟨ep, object, open'⟩) unseen rfl ?_ ?_ accepts,
    ?_, ?_⟩
  · intro fd' sock after
    by_cases same : fd' = fd
    · exact ⟨_, same ▸ found⟩
    · rw [Host.modify_other _ _ same] at after
      exact ⟨sock, after⟩
  · intro token' ep' object' open''
    by_cases same : token' = event.token
    · subst same
      rw [object] at object'
      cases object'
      rw [sockEq]
      refine ⟨peer, false, looked, ?_⟩
      intro quiet down
      rw [closing down] at quiet
      simp at quiet
    · have apart := registry.sock_ne (Ne.symm same) object object' open'
      obtain ⟨peer', queued', found', rest⟩ :=
        (registry.healthy token' ep' object' open'').watched.entry
      rw [sockEq] at apart
      simp only [beq_eq_false_iff_ne.mpr (Ne.symm same), Bool.false_and, Bool.not_false,
        Bool.and_true]
      refine ⟨peer', queued', ?_, rest⟩
      rw [Host.modify_other _ _ apart.symm]
      exact found'
  · intro queued'
    change s.listenerToken ∉ (s.batch ++ [event]).map Event.token
    rw [List.map_append, List.mem_append]
    rintro (old | new)
    · exact unreported.listening queued' old
    · simp only [List.map_singleton, List.mem_singleton] at new
      exact notListener new.symm
  · intro fd' peer' item' found' queued'
    obtain ⟨differs, before⟩ := seen_queued found' queued'
    change item'.event.token ∉ (s.batch ++ [event]).map Event.token
    rw [List.map_append, List.mem_append]
    rintro (old | new)
    · exact unreported.sock fd' peer' item' before queued' old
    · obtain ⟨token', ep', _, _, object', sockEq', _, entryEq⟩ := registry.of_sock before
      cases entryEq
      simp only [List.map_singleton, List.mem_singleton] at new
      change token' = event.token at new
      subst new
      rw [object] at object'
      cases object'
      exact differs (sockEq'.symm.trans sockEq)

theorem look_registry (pick : Pick) (registry : Registry s) (unreported : Unreported s) :
    Registry (s.look pick) ∧ Unreported (s.look pick) := by
  have accepts : (s.look pick).owed ≤ (s.look pick).sys.backlog.length := by
    obtain ⟨owedEq, backlogEq⟩ := look_owed registry pick
    rw [owedEq, backlogEq]
    exact registry.accepts
  unfold look at accepts ⊢
  split
  · next isListener =>
      rw [if_pos isListener] at accepts
      exact lookListening_registry registry unreported accepts
  · next notListener =>
      rw [if_neg notListener] at accepts
      have looked := lookSock_cases registry pick
      generalize s.lookSock pick = s' at accepts looked ⊢
      cases looked with
      | nothing quiet => exact ⟨registry, unreported⟩
      | silent queued => exact silent_registry registry unreported queued
      | reported queued token_eq closing =>
          exact delivered_registry registry unreported queued token_eq closing accepts

/-- What one look keeps, a poll keeps; `Unreported` holds while it lasts. -/
theorem pollUntil_rule (Inv : Server → Prop) (picks : List Pick) (registry : Registry s)
    (look_inv : ∀ s pick, Registry s → Unreported s → Inv s → Inv (s.look pick)) (inv : Inv s) :
    Registry (s.pollUntil picks) ∧ Inv (s.pollUntil picks) := by
  unfold pollUntil
  split
  · next idle =>
      have unreported : Unreported s := by
        constructor <;> simp [idle]
      clear idle
      generalize picks.take s.maxEvents = looks
      induction looks generalizing s with
      | nil => exact ⟨registry, inv⟩
      | cons pick looks ih =>
          rw [List.foldl_cons]
          obtain ⟨registry', unreported'⟩ := look_registry pick registry unreported
          exact ih registry' (look_inv s pick registry unreported inv) unreported'
  · exact ⟨registry, inv⟩

theorem look_objects (s : Server) (pick : Pick) :
    (s.look pick).object = s.object ∧ (s.look pick).endpoints = s.endpoints ∧
      (s.look pick).mem = s.mem := by
  unfold look lookListening lookSock
  split
  · split <;> exact ⟨rfl, rfl, rfl⟩
  · split
    · split <;> exact ⟨rfl, rfl, rfl⟩
    · exact ⟨rfl, rfl, rfl⟩

theorem pollUntil_objects (s : Server) (picks : List Pick) :
    (s.pollUntil picks).object = s.object ∧ (s.pollUntil picks).endpoints = s.endpoints ∧
      (s.pollUntil picks).mem = s.mem := by
  unfold pollUntil
  split
  · generalize picks.take s.maxEvents = looks
    clear * -
    induction looks generalizing s with
    | nil => exact ⟨rfl, rfl, rfl⟩
    | cons pick looks ih =>
        obtain ⟨object, endpoints, mem⟩ := look_objects s pick
        obtain ⟨object', endpoints', mem'⟩ := ih (s.look pick)
        rw [List.foldl_cons]
        exact ⟨object'.trans object, endpoints'.trans endpoints, mem'.trans mem⟩
  · exact ⟨rfl, rfl, rfl⟩

theorem pollUntil_registry (registry : Registry s) (picks : List Pick) :
    Registry (s.pollUntil picks) :=
  (pollUntil_rule (fun _ => True) picks registry (fun _ _ _ _ => id) trivial).1

end Polling

end Server

end RpcBench.Socket
