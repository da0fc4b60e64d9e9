import RpcBench.Socket.Registry

/-! # Handling one event keeps the registry

A data event changes its own endpoint and nothing else.  A new connection may
drop an entry of the map, but only a leftover one. -/
set_option autoImplicit false

namespace RpcBench.Socket

open Fallible BwServerEndpoint

namespace Server

/-! ## The rest of the batch -/

section Batch

variable {s : Server} {event : Event} {rest : List Event}

theorem announced_other {token : Token} (batch : s.batch = event :: rest)
    (differs : token ≠ event.token) :
    announced token { s with batch := rest } = s.announced token := by
  have apart : (event.token == token) = false := beq_eq_false_iff_ne.mpr differs.symm
  simp [announced, batch, apart]

theorem not_mem_rest (registry : Registry s) (batch : s.batch = event :: rest) {other : Event}
    (member : other ∈ rest) : other.token ≠ event.token := by
  have once := registry.once
  rw [batch, List.map_cons, List.nodup_cons] at once
  intro same
  exact once.1 (List.mem_map.mpr ⟨other, member, same⟩)

theorem announced_rest (registry : Registry s) (batch : s.batch = event :: rest) :
    announced event.token { s with batch := rest } = true := by
  simp only [announced, Bool.not_eq_true', List.any_eq_false, Bool.and_eq_true, beq_iff_eq, not_and]
  intro other member same
  exact absurd same (not_mem_rest registry batch member)

theorem announced_event (registry : Registry s) (batch : s.batch = event :: rest) :
    s.announced event.token = !event.isClosing := by
  have restQuiet := announced_rest registry batch
  simp only [announced, Bool.not_eq_true'] at restQuiet ⊢
  rw [batch, List.any_cons, restQuiet]
  simp

theorem owed_cons (batch : s.batch = event :: rest) :
    s.owed = owed { s with batch := rest } + if event.token = s.listenerToken then 1 else 0 := by
  unfold owed
  rw [batch, List.countP_cons]
  simp only [beq_iff_eq]
  change _ = _ + List.countP (fun event => event.token == s.listenerToken) rest + _
  omega

end Batch

/-! ## A data event -/

section Data

variable {s : Server} {event : Event} {rest : List Event} {ep : BwServerEndpoint}
  {ctx : Context Host}

theorem handled_registry (registry : Registry s) (batch : s.batch = event :: rest)
    (object : s.object event.token = some ep) (open' : ep.sock ≠ INVALID_SOCKET)
    (done : Dispatched event (!event.isClosing) (s.context event.token ep) ctx) :
    Registry ({ s with batch := rest }.store ctx) := by
  obtain ⟨this, footprint, allocated, outside, left⟩ := done
  change ctx.this = event.token at this
  change Host.SameOutside ep.sock s.sys ctx.sys at outside
  have entry := registry.held_of_open object open'
  have notListener := (registry.owned _ _ object).1
  have objectSelf : ({ s with batch := rest }.store ctx).object event.token = some ctx.ep := by
    simp [store, this]
  have objectOther : ∀ token, token ≠ event.token →
      ({ s with batch := rest }.store ctx).object token = s.object token := by
    intro token differs
    simp [store, this, Function.update_of_ne differs]
  have sockEq : ctx.ep.sock = ep.sock ∨ ctx.ep.sock = INVALID_SOCKET := by
    unfold Left at left
    split at left
    · exact Or.inr left.1
    · exact Or.inl left.1
  have footprint' : Footprint ep s.mem ctx.ep ctx.mem := footprint
  constructor
  case listening =>
    change ctx.sys.listening.event = _
    rw [outside.listening]
    exact registry.listening
  case held =>
    intro fd token found
    obtain ⟨valid, ep', object', sock'⟩ := registry.held fd token found
    refine ⟨valid, ?_⟩
    by_cases same : token = event.token
    · subst same
      have fdEq : fd = ep.sock := registry.single fd ep.sock event.token found entry
      exact ⟨ctx.ep, objectSelf, fdEq ▸ sockEq⟩
    · exact ⟨ep', (objectOther token same).trans object', sock'⟩
  case owned =>
    intro token ep' found
    by_cases same : token = event.token
    · subst same
      exact ⟨notListener, ep.sock, entry⟩
    · rw [objectOther token same] at found
      exact registry.owned token ep' found
  case single => exact registry.single
  case opened =>
    intro fd sock found
    change ctx.sys.sock fd = some sock at found
    by_cases same : fd = ep.sock
    · subst same
      obtain ⟨peer, queued, before⟩ := registry.sock_of_open object open'
      refine ⟨(registry.opened _ _ before).1, event.token, ctx.ep, entry, objectSelf, ?_⟩
      unfold Left at left
      split at left
      · exact absurd (left.2.symm.trans found) (by simp)
      · exact left.1
    · rw [outside.sock fd same] at found
      obtain ⟨differs, token, ep', entry', object', sockEq'⟩ := registry.opened fd sock found
      refine ⟨differs, token, ep', entry', ?_, sockEq'⟩
      rw [objectOther token ?_]
      · exact object'
      · intro same
        subst same
        rw [object] at object'
        cases object'
        exact same sockEq'.symm
  case healthy =>
    intro token ep' found openNow
    by_cases same : token = event.token
    · subst same
      rw [objectSelf] at found
      cases found
      unfold Left at left
      split at left
      · exact absurd left.1 openNow
      · next closing =>
          have healthy := left.2
          rw [Bool.not_eq_true] at closing
          rw [closing] at healthy
          change Healthy event.token (announced event.token { s with batch := rest }) ctx.ep ctx.mem
            ctx.sys
          rw [announced_rest registry batch]
          exact healthy
    · rw [objectOther token same] at found
      obtain ⟨⟨p, rep, sound⟩, watched⟩ := registry.healthy token ep' found openNow
      have apart : ep'.sock ≠ ep.sock := registry.sock_ne same found object openNow
      refine ⟨⟨p, rep.frame footprint'.grows ?_, sound⟩, ?_⟩
      · intro ptr member
        exact footprint'.foreign ptr (registry.allocated token ep' found ptr member)
          (registry.apart token event.token ep' ep same found object ptr member)
      · obtain ⟨peer, queued, before, quiet⟩ := watched.entry
        refine ⟨peer, queued, (outside.sock _ apart).trans before, ?_⟩
        intro announcedNow
        exact quiet (announced_other batch same ▸ announcedNow)
  case allocated =>
    intro token ep' found ptr member
    by_cases same : token = event.token
    · subst same
      rw [objectSelf] at found
      cases found
      exact allocated ptr member
    · rw [objectOther token same] at found
      exact lt_of_lt_of_le (registry.allocated token ep' found ptr member) footprint'.grows
  case apart =>
    -- the endpoint's blocks are its old ones or newly allocated
    have others : ∀ token ep', token ≠ event.token → s.object token = some ep' →
        ∀ ptr ∈ ctx.ep.blocks, ptr ∉ ep'.blocks := by
      intro token ep' differs found ptr member
      rcases footprint'.owned ptr member with old | fresh
      · exact registry.apart event.token token ep ep' differs.symm object found ptr old
      · intro member'
        have := registry.allocated token ep' found ptr member'
        omega
    intro token token' ep₁ ep₂ differ found₁ found₂ ptr member
    by_cases first : token = event.token
    · subst first
      rw [objectSelf] at found₁
      cases found₁
      rw [objectOther token' differ.symm] at found₂
      exact others token' ep₂ differ.symm found₂ ptr member
    · rw [objectOther token first] at found₁
      by_cases second : token' = event.token
      · subst second
        rw [objectSelf] at found₂
        cases found₂
        exact fun member' => others token ep₁ first found₁ ptr member' member
      · rw [objectOther token' second] at found₂
        exact registry.apart token token' ep₁ ep₂ differ found₁ found₂ ptr member
  case batch =>
    intro other member
    have differs := not_mem_rest registry batch member
    rcases registry.batch other (batch ▸ List.mem_cons_of_mem _ member) with listening | data
    · exact Or.inl listening
    · obtain ⟨ep', found, openNow⟩ := data
      exact Or.inr ⟨ep', (objectOther _ differs).trans found, openNow⟩
  case once =>
    have once := registry.once
    rw [batch, List.map_cons] at once
    exact once.of_cons
  case accepts =>
    have accepts := registry.accepts
    rw [owed_cons batch, if_neg notListener] at accepts
    change ctx.sys.listening.queued.toNat + _ ≤ ctx.sys.backlog.length
    rw [outside.listening, outside.backlog]
    exact accepts

end Data

/-! ## A leftover entry goes -/

section Drop

variable {s : Server} {fd : RawFd} {old : Token} {ep : BwServerEndpoint}

theorem destroy_next (owner : Buffer) (mem : Memory) : (owner.destroy mem).next = mem.next := by
  unfold Buffer.destroy
  split <;> rfl

theorem destroy_block (owner : Buffer) (mem : Memory) {ptr : Nat} (differs : ptr ≠ owner.ptr) :
    (owner.destroy mem).block ptr = mem.block ptr := by
  unfold Buffer.destroy
  split
  · exact Function.update_of_ne differs _ _
  · rfl

theorem freeBuffers_next (ep : BwServerEndpoint) (mem : Memory) :
    (freeBuffers ep mem).next = mem.next := by
  unfold freeBuffers
  cases ep.headerBufferOwner <;> cases ep.dataBufferOwner <;> simp [destroy_next]

theorem freeBuffers_block (ep : BwServerEndpoint) (mem : Memory) {ptr : Nat}
    (foreign : ptr ∉ ep.blocks) : (freeBuffers ep mem).block ptr = mem.block ptr := by
  unfold freeBuffers
  unfold BwServerEndpoint.blocks at foreign
  cases header : ep.headerBufferOwner with
  | none =>
      cases data : ep.dataBufferOwner with
      | none => rfl
      | some owner =>
          simp only [header, data, Option.map_none, Option.map_some, Option.toList_none,
            Option.toList_some, List.nil_append, List.mem_singleton] at foreign
          exact destroy_block owner mem foreign
  | some headerOwner =>
      cases data : ep.dataBufferOwner with
      | none =>
          simp only [header, data, Option.map_none, Option.map_some, Option.toList_none,
            Option.toList_some, List.append_nil, List.mem_singleton] at foreign
          exact destroy_block headerOwner mem foreign
      | some owner =>
          simp only [header, data, Option.map_some, Option.toList_some, List.cons_append,
            List.nil_append, List.mem_cons, List.not_mem_nil, or_false, not_or] at foreign
          simp only [Option.elim]
          rw [destroy_block owner _ foreign.2, destroy_block headerOwner mem foreign.1]

theorem erase_keeps (key : RawFd) (s : Server) :
    (s.erase key).batch = s.batch ∧ (s.erase key).listener = s.listener := by
  unfold erase
  cases entry : s.endpoints key with
  | none => exact ⟨rfl, rfl⟩
  | some token =>
      simp only [destroy]
      split <;> exact ⟨rfl, rfl⟩

theorem destroy_closed (object : s.object old = some ep) (closed : ep.sock = INVALID_SOCKET) :
    s.destroy old =
      { s with
        object := Function.update s.object old none
        mem := freeBuffers ep s.mem } := by
  unfold destroy
  rw [object]
  simp only [closed, if_true]

theorem erase_vacant (vacant : s.endpoints fd = none) : s.erase fd = s := by
  rw [erase, vacant]

theorem erase_leftover (entry : s.endpoints fd = some old) (object : s.object old = some ep)
    (closed : ep.sock = INVALID_SOCKET) :
    s.erase fd =
      { s with
        object := Function.update s.object old none
        mem := freeBuffers ep s.mem
        endpoints := Function.update s.endpoints fd none } := by
  rw [erase, entry]
  simp only
  rw [destroy_closed object closed]

theorem erase_registry (registry : Registry s) (entry : s.endpoints fd = some old)
    (object : s.object old = some ep) (closed : ep.sock = INVALID_SOCKET) :
    Registry (s.erase fd) := by
  rw [erase_leftover entry object closed]
  have keptObject : ∀ token ep', Function.update s.object old none token = some ep' →
      token ≠ old ∧ s.object token = some ep' := by
    intro token ep' found
    by_cases same : token = old
    · subst same
      simp at found
    · rw [Function.update_of_ne same] at found
      exact ⟨same, found⟩
  have keptEntry : ∀ fd' token, Function.update s.endpoints fd none fd' = some token →
      fd' ≠ fd ∧ s.endpoints fd' = some token := by
    intro fd' token found
    by_cases same : fd' = fd
    · subst same
      simp at found
    · rw [Function.update_of_ne same] at found
      exact ⟨same, found⟩
  constructor
  case listening => exact registry.listening
  case held =>
    intro fd' token found
    obtain ⟨differs, found'⟩ := keptEntry fd' token found
    obtain ⟨valid, ep', object', sock⟩ := registry.held fd' token found'
    refine ⟨valid, ep', ?_, sock⟩
    have apart : token ≠ old := by
      intro same
      subst same
      exact differs (registry.single fd' fd token found' entry)
    exact (Function.update_of_ne apart _ _).trans object'
  case owned =>
    intro token ep' found
    obtain ⟨differs, found'⟩ := keptObject token ep' found
    obtain ⟨notListener, fd', entry'⟩ := registry.owned token ep' found'
    refine ⟨notListener, fd', ?_⟩
    have apart : fd' ≠ fd := by
      intro same
      subst same
      rw [entry] at entry'
      exact differs (Option.some.inj entry').symm
    exact (Function.update_of_ne apart _ _).trans entry'
  case single =>
    intro fd₁ fd₂ token found₁ found₂
    exact registry.single fd₁ fd₂ token (keptEntry fd₁ token found₁).2 (keptEntry fd₂ token found₂).2
  case opened =>
    intro fd' sock found
    obtain ⟨notListener, token, ep', entry', object', rfl⟩ := registry.opened fd' sock found
    have differs : token ≠ old := by
      intro same
      subst same
      rw [object] at object'
      cases object'
      exact ne_invalid (registry.held _ _ entry').1 closed
    refine ⟨notListener, token, ep', ?_, (Function.update_of_ne differs _ _).trans object', rfl⟩
    have apart : ep'.sock ≠ fd := by
      intro same
      subst same
      rw [entry] at entry'
      exact differs (Option.some.inj entry').symm
    exact (Function.update_of_ne apart _ _).trans entry'
  case healthy =>
    intro token ep' found open'
    obtain ⟨differs, found'⟩ := keptObject token ep' found
    obtain ⟨⟨p, rep, sound⟩, watched⟩ := registry.healthy token ep' found' open'
    refine ⟨⟨p, rep.frame (le_of_eq (freeBuffers_next ep s.mem).symm) ?_, sound⟩, watched⟩
    intro ptr member
    exact freeBuffers_block ep s.mem
      (registry.apart token old ep' ep differs found' object ptr member)
  case allocated =>
    intro token ep' found ptr member
    change ptr < (freeBuffers ep s.mem).next
    rw [freeBuffers_next]
    exact registry.allocated token ep' (keptObject token ep' found).2 ptr member
  case apart =>
    intro token token' ep₁ ep₂ differ found₁ found₂
    exact registry.apart token token' ep₁ ep₂ differ (keptObject token ep₁ found₁).2
      (keptObject token' ep₂ found₂).2
  case batch =>
    intro event member
    rcases registry.batch event member with listening | ⟨ep', found, open'⟩
    · exact Or.inl listening
    · refine Or.inr ⟨ep', ?_, open'⟩
      have differs : event.token ≠ old := by
        intro same
        rw [same, object] at found
        cases found
        exact open' closed
      exact (Function.update_of_ne differs _ _).trans found
  case once => exact registry.once
  case accepts => exact registry.accepts

end Drop

/-! ## A new connection -/

section Accept

variable {s : Server} {event : Event} {rest : List Event} {handling : Handling} {peer : Peer}
  {backlog : List Peer}

/-- The kernel after `accept` and `EPOLL_CTL_ADD`. -/
def acceptedHost (handling : Handling) (peer : Peer) (backlog : List Peer) (sys : Host) : Host :=
  Host.watch handling.fd
    (registration handling.address (BwServerEndpoint.create handling.fd).interest)
    { sys with
      sock := Function.update sys.sock handling.fd (some { peer, item := none }), backlog }

def enroll (handling : Handling) (sys : Host) (s : Server) : Server :=
  { s with
    sys
    object :=
      Function.update s.object handling.address (some (BwServerEndpoint.create handling.fd))
    endpoints := Function.update s.endpoints handling.fd (some handling.address) }

theorem acceptedHost_self (handling : Handling) (peer : Peer) (backlog : List Peer) (sys : Host) :
    (acceptedHost handling peer backlog sys).sock handling.fd =
      some ⟨peer, some ⟨registration handling.address
        (BwServerEndpoint.create handling.fd).interest, true⟩⟩ := by
  unfold acceptedHost Host.watch
  rw [Host.modify_same]
  simp

theorem acceptedHost_other (handling : Handling) (peer : Peer) (backlog : List Peer) (sys : Host)
    {fd : RawFd} (differs : fd ≠ handling.fd) :
    (acceptedHost handling peer backlog sys).sock fd = sys.sock fd := by
  unfold acceptedHost Host.watch
  rw [Host.modify_other _ _ differs]
  exact Function.update_of_ne differs _ _

theorem enroll_registry (registry : Registry s) (batch : s.batch = event :: rest)
    (isListener : event.token = s.listenerToken) (fresh : s.Fresh handling)
    (vacant : s.endpoints handling.fd = none) (queue : s.sys.backlog = peer :: backlog) :
    Registry (({ s with batch := rest } : Server).enroll handling
      (acceptedHost handling peer backlog s.sys)) := by
  obtain ⟨closed, valid, notListener, unused, notToken⟩ := fresh
  let endpoint := BwServerEndpoint.create handling.fd
  have open' := ne_invalid valid
  have objectNew : Function.update s.object handling.address (some endpoint) handling.address =
      some endpoint := Function.update_self _ _ _
  have entryNew : Function.update s.endpoints handling.fd (some handling.address) handling.fd =
      some handling.address := Function.update_self _ _ _
  have objectCases : ∀ token ep,
      Function.update s.object handling.address (some endpoint) token = some ep →
      token = handling.address ∧ ep = endpoint ∨
        token ≠ handling.address ∧ s.object token = some ep := by
    intro token ep found
    by_cases same : token = handling.address
    · subst same
      rw [objectNew] at found
      exact Or.inl ⟨rfl, (Option.some.inj found).symm⟩
    · rw [Function.update_of_ne same] at found
      exact Or.inr ⟨same, found⟩
  have entryCases : ∀ fd token,
      Function.update s.endpoints handling.fd (some handling.address) fd = some token →
      fd = handling.fd ∧ token = handling.address ∨
        fd ≠ handling.fd ∧ token ≠ handling.address ∧ s.endpoints fd = some token := by
    intro fd token found
    by_cases same : fd = handling.fd
    · subst same
      rw [entryNew] at found
      exact Or.inl ⟨rfl, (Option.some.inj found).symm⟩
    · rw [Function.update_of_ne same] at found
      refine Or.inr ⟨same, ?_, found⟩
      intro same
      subst same
      obtain ⟨_, ep, object, _⟩ := registry.held fd _ found
      rw [unused] at object
      cases object
  have keepsObject : ∀ token ep, s.object token = some ep →
      Function.update s.object handling.address (some endpoint) token = some ep := by
    intro token ep found
    have differs : token ≠ handling.address := by
      intro same
      subst same
      rw [unused] at found
      cases found
    exact (Function.update_of_ne differs _ _).trans found
  have keepsEntry : ∀ fd token, s.endpoints fd = some token →
      Function.update s.endpoints handling.fd (some handling.address) fd = some token := by
    intro fd token found
    have differs : fd ≠ handling.fd := by
      intro same
      subst same
      rw [vacant] at found
      cases found
    exact (Function.update_of_ne differs _ _).trans found
  constructor
  case listening => exact registry.listening
  case held =>
    intro fd token found
    rcases entryCases fd token found with ⟨rfl, rfl⟩ | ⟨_, _, found'⟩
    · exact ⟨valid, endpoint, objectNew, Or.inl rfl⟩
    · obtain ⟨valid', ep, object, sock⟩ := registry.held fd token found'
      exact ⟨valid', ep, keepsObject token ep object, sock⟩
  case owned =>
    intro token ep found
    rcases objectCases token ep found with ⟨rfl, rfl⟩ | ⟨_, found'⟩
    · exact ⟨notToken, handling.fd, entryNew⟩
    · obtain ⟨differs, fd, entry⟩ := registry.owned token ep found'
      exact ⟨differs, fd, keepsEntry fd token entry⟩
  case single =>
    intro fd fd' token found found'
    rcases entryCases fd token found with ⟨rfl, rfl⟩ | ⟨_, old, entry⟩
    · rcases entryCases fd' _ found' with ⟨rfl, _⟩ | ⟨_, old', _⟩
      · rfl
      · exact absurd rfl old'
    · rcases entryCases fd' token found' with ⟨_, new⟩ | ⟨_, _, entry'⟩
      · exact absurd new old
      · exact registry.single fd fd' token entry entry'
  case opened =>
    intro fd sock found
    by_cases same : fd = handling.fd
    · subst same
      exact ⟨notListener, handling.address, endpoint, entryNew, objectNew, rfl⟩
    · change (acceptedHost handling peer backlog s.sys).sock fd = some sock at found
      rw [acceptedHost_other _ _ _ _ same] at found
      obtain ⟨differs, token, ep, entry, object, sockEq⟩ := registry.opened fd sock found
      exact ⟨differs, token, ep, keepsEntry fd token entry, keepsObject token ep object, sockEq⟩
  case healthy =>
    intro token ep found openNow
    rcases objectCases token ep found with ⟨rfl, rfl⟩ | ⟨_, found'⟩
    · refine ⟨⟨Session.fresh, ⟨rfl, ?_⟩, ⟨rfl, rfl⟩⟩, ?_⟩
      · exact ⟨rfl, rfl, rfl, rfl, rfl, rfl, rfl, rfl⟩
      · exact ⟨peer, true, acceptedHost_self handling peer backlog s.sys, fun _ _ => rfl⟩
    · obtain ⟨session, watched⟩ := registry.healthy token ep found' openNow
      refine ⟨session, ?_⟩
      obtain ⟨peer', queued, before, quiet⟩ := watched.entry
      have apart : ep.sock ≠ handling.fd := by
        intro same
        rw [same, closed] at before
        cases before
      refine ⟨peer', queued, (acceptedHost_other _ _ _ _ apart).trans before, ?_⟩
      intro announcedNow
      have differs : token ≠ event.token := by
        rw [isListener]
        exact (registry.owned token ep found').1
      exact quiet (announced_other batch differs ▸ announcedNow)
  case allocated =>
    intro token ep found ptr member
    rcases objectCases token ep found with ⟨rfl, rfl⟩ | ⟨_, found'⟩
    · cases member
    · exact registry.allocated token ep found' ptr member
  case apart =>
    intro token token' ep ep' differ found found' ptr member
    rcases objectCases token ep found with ⟨_, rfl⟩ | ⟨_, old⟩
    · cases member
    · rcases objectCases token' ep' found' with ⟨_, rfl⟩ | ⟨_, old'⟩
      · intro absent
        cases absent
      · exact registry.apart token token' ep ep' differ old old' ptr member
  case batch =>
    intro other member
    rcases registry.batch other (batch ▸ List.mem_cons_of_mem _ member) with listening | data
    · exact Or.inl listening
    · obtain ⟨ep, found, openNow⟩ := data
      exact Or.inr ⟨ep, keepsObject _ ep found, openNow⟩
  case once =>
    have once := registry.once
    rw [batch, List.map_cons] at once
    exact once.of_cons
  case accepts =>
    have accepts := registry.accepts
    rw [owed_cons batch, if_pos isListener, queue, List.length_cons] at accepts
    exact Nat.le_of_succ_le_succ accepts

theorem Registry.leftover (registry : Registry s) {fd : RawFd} (closed : s.sys.sock fd = none)
    {old : Token} (entry : s.endpoints fd = some old) :
    ∃ ep, s.object old = some ep ∧ ep.sock = INVALID_SOCKET := by
  obtain ⟨valid, ep, object, sock⟩ := registry.held fd old entry
  refine ⟨ep, object, ?_⟩
  rcases sock with rfl | done
  · obtain ⟨peer, queued, found⟩ := registry.sock_of_open object (ne_invalid valid)
    rw [closed] at found
    cases found
  · exact done

theorem onAccepted_ok (handling : Handling) (mem : Memory) (sys : Host) (peer : Peer)
    (backlog : List Peer) (tolerable : handling.peername.tolerable = true) :
    onAccepted Host.kernel handling.peername
        { this := handling.address
          ep := BwServerEndpoint.create handling.fd
          mem
          sys :=
            { sys with
              sock := Function.update sys.sock handling.fd (some { peer, item := none }), backlog } } =
      .ok
        { this := handling.address
          ep := BwServerEndpoint.create handling.fd
          mem
          sys := acceptedHost handling peer backlog sys } := by
  simp only [onAccepted, Host.kernel, tolerable, if_true, BwServerEndpoint.create, Host.watched,
    Function.update_self, Option.bind_some, Option.isSome_none, Option.isSome_some, Bool.not_false,
    Bool.and_true]
  rfl

/-- `HandleNewConnection` puts the new endpoint in the place of a leftover one. -/
theorem handleNewConnection_ok (fresh : s.Fresh handling) (queue : s.sys.backlog = peer :: backlog)
    (tolerable : handling.peername.tolerable = true)
    (leftover : ∀ old, s.endpoints handling.fd = some old →
      ∃ ep, s.object old = some ep ∧ ep.sock = INVALID_SOCKET) :
    handleNewConnection handling s =
      .ok ((s.erase handling.fd).enroll handling (acceptedHost handling peer backlog s.sys)) := by
  have accepted : accept handling.fd s.sys = some
      { s.sys with
        sock := Function.update s.sys.sock handling.fd (some { peer, item := none }), backlog } := by
    rw [accept, queue]
  have put : handleNewConnection handling s =
      .ok ((({ s with
          object :=
            Function.update s.object handling.address (some (BwServerEndpoint.create handling.fd))
          sys := acceptedHost handling peer backlog s.sys } : Server).assign handling.fd
        handling.address)) := by
    rw [handleNewConnection, accepted]
    simp only [context]
    rw [onAccepted_ok handling s.mem s.sys peer backlog tolerable]
    rfl
  rw [put]
  congr 1
  cases entry : s.endpoints handling.fd with
  | none =>
      rw [erase_vacant entry]
      simp only [assign, entry, Option.elim]
      rfl
  | some old =>
      obtain ⟨ep, object, closed⟩ := leftover old entry
      have differs : old ≠ handling.address := by
        intro same
        subst same
        rw [fresh.2.2.2.1] at object
        cases object
      have objectNow : ({ s with
          object :=
            Function.update s.object handling.address (some (BwServerEndpoint.create handling.fd))
          sys := acceptedHost handling peer backlog s.sys } : Server).object old = some ep :=
        (Function.update_of_ne differs _ _).trans object
      simp only [assign, entry, Option.elim]
      rw [destroy_closed objectNow closed, erase_leftover entry object closed]
      simp only [enroll, Function.update_idem]
      rw [Function.update_comm differs]

theorem handleNewConnection_abort (queue : s.sys.backlog = peer :: backlog)
    (broken : handling.peername.tolerable = false) :
    handleNewConnection handling s = .error .abort := by
  have accepted : accept handling.fd s.sys = some
      { s.sys with
        sock := Function.update s.sys.sock handling.fd (some { peer, item := none }), backlog } := by
    rw [accept, queue]
  have failed : ∀ ctx : Context Host,
      onAccepted Host.kernel handling.peername ctx = .error .abort := by
    intro ctx
    simp only [onAccepted, Host.kernel, broken, Bool.false_eq_true, if_false]
  rw [handleNewConnection, accepted]
  simp only [failed]
  rfl

end Accept

/-! ## One step -/

section Step

variable {s : Server} {handling : Handling}

structure Accepting (s : Server) (handling : Handling) (event : Event) (rest : List Event)
    (peer : Peer) (backlog : List Peer) : Prop where
  batch : s.batch = event :: rest
  listener : event.token = s.listenerToken
  fresh : s.Fresh handling
  queue : s.sys.backlog = peer :: backlog

def accepted (s : Server) (handling : Handling) (rest : List Event) (peer : Peer)
    (backlog : List Peer) : Server :=
  (({ s with batch := rest } : Server).erase handling.fd).enroll handling
    (acceptedHost handling peer backlog s.sys)

structure Serving (s : Server) (event : Event) (rest : List Event) (ep : BwServerEndpoint) :
    Prop where
  batch : s.batch = event :: rest
  object : s.object event.token = some ep
  open' : ep.sock ≠ INVALID_SOCKET

inductive Next (s : Server) (handling : Handling) : Process → Prop where
  | idle : Next s handling (.running s)
  | accepted {event : Event} {rest : List Event} {peer : Peer} {backlog : List Peer}
      (accepting : Accepting s handling event rest peer backlog)
      (tolerable : handling.peername.tolerable = true) :
      Next s handling (.running (s.accepted handling rest peer backlog))
  | refused {event : Event} {rest : List Event} {peer : Peer} {backlog : List Peer}
      (accepting : Accepting s handling event rest peer backlog)
      (broken : handling.peername.tolerable = false) : Next s handling (.stopped .abort)
  | served {event : Event} {rest : List Event} {ep : BwServerEndpoint} {ctx : Context Host}
      (serving : Serving s event rest ep)
      (done : Dispatched event (!event.isClosing) (s.context event.token ep) ctx) :
      Next s handling (.running (({ s with batch := rest } : Server).store ctx))
  | failed {event : Event} {rest : List Event} {ep : BwServerEndpoint}
      (serving : Serving s event rest ep) (broken : ¬handling.Tolerable event) :
      Next s handling (.stopped .abort)

theorem Serving.notListener {event : Event} {rest : List Event} {ep : BwServerEndpoint}
    (serving : Serving s event rest ep) (registry : Registry s) : event.token ≠ s.listenerToken :=
  (registry.owned _ _ serving.object).1

theorem handleEvent_listener {event : Event} (listener : event.token = s.listenerToken)
    (readable : event.isReadable = true) :
    handleEvent event handling s = handleNewConnection handling s := by
  rw [handleEvent, if_pos listener, if_pos readable]

theorem handleEvent_data {event : Event} {ep : BwServerEndpoint}
    (notListener : event.token ≠ s.listenerToken) (object : s.object event.token = some ep) :
    handleEvent event handling s =
      (dispatch event handling (s.context event.token ep) >>= fun ctx =>
        return if event.isClosing then (s.store ctx).erase ctx.ep.sock else s.store ctx) := by
  rw [handleEvent, if_neg notListener, object]

theorem serving_next {event : Event} {rest : List Event} {ep : BwServerEndpoint}
    (registry : Registry s) (serving : Serving s event rest ep) :
    Next s handling (s.next handling) := by
  have notListener := serving.notListener registry
  obtain ⟨batch, object, open'⟩ := serving
  have healthy := registry.healthy _ _ object open'
  rw [announced_event registry batch] at healthy
  have spec := dispatch_spec event handling (s := s.context event.token ep) healthy open'
  unfold next
  rw [batch]
  simp only
  rw [if_neg (fun both => notListener both.1),
    handleEvent_data (s := { s with batch := rest }) notListener object]
  have sameContext : ({ s with batch := rest } : Server).context event.token ep =
      s.context event.token ep := rfl
  rw [sameContext]
  cases dispatched : dispatch event handling (s.context event.token ep) with
  | error reason =>
      rw [dispatched] at spec
      rcases spec with rfl | ⟨rfl, broken⟩
      · exact Next.idle
      · exact Next.failed ⟨batch, object, open'⟩ broken
  | ok ctx =>
      rw [dispatched] at spec
      have registry' := handled_registry registry batch object open' spec
      have after : (if event.isClosing = true then
          (({ s with batch := rest } : Server).store ctx).erase ctx.ep.sock
          else ({ s with batch := rest } : Server).store ctx) =
          ({ s with batch := rest } : Server).store ctx := by
        split
        · next closing =>
            have left := spec.left
            rw [Left, if_pos closing] at left
            rw [left.1]
            exact registry'.erase_invalid
        · rfl
      change Next s handling (.running (if event.isClosing = true then _ else _))
      rw [after]
      exact Next.served ⟨batch, object, open'⟩ spec

theorem next_cases (registry : Registry s) (handling : Handling) :
    Next s handling (s.next handling) := by
  cases batch : s.batch with
  | nil =>
      unfold next
      rw [batch]
      exact Next.idle
  | cons event rest =>
      rcases registry.batch event (batch ▸ List.mem_cons_self) with ⟨listener, readable⟩ | data
      · by_cases fresh : s.Fresh handling
        · have accepts := registry.accepts
          rw [owed_cons batch, if_pos listener] at accepts
          obtain ⟨peer, backlog, queue⟩ := List.exists_cons_of_length_pos
            (lt_of_lt_of_le (Nat.succ_pos _) accepts)
          have accepting : Accepting s handling event rest peer backlog :=
            ⟨batch, listener, fresh, queue⟩
          unfold next
          rw [batch]
          simp only
          rw [if_neg (fun both => both.2 fresh),
            handleEvent_listener (s := { s with batch := rest }) listener readable]
          cases tolerable : handling.peername.tolerable with
          | false =>
              rw [handleNewConnection_abort (s := { s with batch := rest }) queue tolerable]
              exact Next.refused accepting tolerable
          | true =>
              rw [handleNewConnection_ok (s := { s with batch := rest }) fresh queue tolerable
                fun old entry => registry.leftover fresh.1 entry]
              exact Next.accepted accepting tolerable
        · unfold next
          rw [batch]
          simp only
          rw [if_pos ⟨listener, fresh⟩]
          exact Next.idle
      · obtain ⟨ep, object, open'⟩ := data
        exact serving_next registry ⟨batch, object, open'⟩

theorem accepted_registry {event : Event} {rest : List Event} {peer : Peer} {backlog : List Peer}
    (registry : Registry s) (accepting : Accepting s handling event rest peer backlog) :
    Registry (s.accepted handling rest peer backlog) := by
  obtain ⟨batch, listener, fresh, queue⟩ := accepting
  unfold accepted
  cases entry : s.endpoints handling.fd with
  | none =>
      rw [erase_vacant (s := { s with batch := rest }) entry]
      exact enroll_registry registry batch listener fresh entry queue
  | some old =>
      obtain ⟨ep, object, closed⟩ := registry.leftover fresh.1 entry
      have registry' := erase_registry registry entry object closed
      rw [erase_leftover entry object closed] at registry'
      rw [erase_leftover (s := { s with batch := rest }) entry object closed]
      have differs : handling.address ≠ old := by
        intro same
        subst same
        rw [fresh.2.2.2.1] at object
        cases object
      have fresh' : Fresh handling
          { s with
            object := Function.update s.object old none
            mem := freeBuffers ep s.mem
            endpoints := Function.update s.endpoints handling.fd none } :=
        ⟨fresh.1, fresh.2.1, fresh.2.2.1,
          (Function.update_of_ne differs _ _).trans fresh.2.2.2.1, fresh.2.2.2.2⟩
      exact enroll_registry registry' batch listener fresh' (Function.update_self _ _ _) queue

theorem Next.registry {process : Process} (next : Next s handling process)
    (registry : Registry s) : process.Holds Registry := by
  cases next with
  | idle => exact registry
  | accepted accepting tolerable => exact accepted_registry registry accepting
  | refused accepting broken => trivial
  | served serving done =>
      exact handled_registry registry serving.batch serving.object serving.open' done
  | failed serving broken => trivial

theorem step_registry (registry : Registry s) (input : Input) :
    (s.step input).Holds Registry := by
  cases input with
  | connect => exact connect_registry registry
  | hangUp fd reset =>
      exact modify_registry registry fd _ fun token interest watched => watched.hangUp reset
  | hangUpQueued index reset => exact hangUpQueued_registry registry index reset
  | ready fd => exact modify_registry registry fd _ fun token interest watched => watched.notify
  | pollUntil picks => exact pollUntil_registry registry picks
  | handle handling => exact (next_cases registry handling).registry registry

/-- Every state the server reaches is in good order. -/
theorem run_registry (listener : RawFd) (maxEvents : Nat) (mem : Memory) (inputs : List Input) :
    (Machine.run Process.step (.running (init listener maxEvents mem)) inputs).Holds Registry := by
  apply Machine.run_invariant Process.step (fun process => process.Holds Registry)
  · intro process input holds
    cases process with
    | running s => exact step_registry holds input
    | stopped reason => trivial
  · exact init_registry listener maxEvents mem

end Step

end Server

end RpcBench.Socket
