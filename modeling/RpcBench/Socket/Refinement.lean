import RpcBench.Socket.Session

/-! # The endpoint refines the frame reader

`Represents` relates the object, its owners, views and memory to a session;
every handler takes related states to related states, stops exactly when the
session stops, and touches no memory block of anyone else. -/
set_option autoImplicit false

namespace RpcBench.Socket

open ByteList Fallible

variable {σ ι : Type}

/-! ## Owners, views and the bytes behind them -/

def ownerOn (ptr limit : Nat) : Buffer :=
  { ptr, size := limit, msgLength := limit, bytesHandled := 0, isOwner := true }

def viewOn (ptr limit handled : Nat) : Buffer :=
  { ptr, size := limit, msgLength := limit, bytesHandled := handled, isOwner := false }

/-- Block `ptr` is allocated with `limit` bytes and begins with `known`. -/
def Holds (mem : Memory) (ptr limit : Nat) (known : Bytes) : Prop :=
  ∃ content, mem.block ptr = some content ∧ content.length = limit ∧
    content.take known.length = known

theorem Holds.length_le {mem : Memory} {ptr limit : Nat} {known : Bytes}
    (holds : Holds mem ptr limit known) : known.length ≤ limit := by
  obtain ⟨content, _, lengthEq, known_eq⟩ := holds
  have taken := congrArg List.length known_eq
  rw [List.length_take] at taken
  omega

theorem Holds.of_block_eq {mem mem' : Memory} {ptr limit : Nat} {known : Bytes}
    (holds : Holds mem ptr limit known) (same : mem'.block ptr = mem.block ptr) :
    Holds mem' ptr limit known := by
  obtain ⟨content, found, rest⟩ := holds
  exact ⟨content, same.trans found, rest⟩

theorem Holds.nil {mem : Memory} {ptr limit : Nat} {known : Bytes}
    (holds : Holds mem ptr limit known) : Holds mem ptr limit [] := by
  obtain ⟨content, found, lengthEq, _⟩ := holds
  exact ⟨content, found, lengthEq, rfl⟩

theorem ofBuffer_ownerOn (ptr limit : Nat) :
    (ownerOn ptr limit).ofBuffer = viewOn ptr limit 0 := rfl

theorem ofBuffer_viewOn (ptr limit handled : Nat) :
    (viewOn ptr limit handled).ofBuffer = viewOn ptr limit 0 := rfl

theorem isClear_viewOn (ptr limit handled : Nat) :
    (viewOn ptr limit handled).isClear = decide (handled = limit) := by
  rw [Buffer.isClear, Bool.eq_iff_iff]
  simpa [viewOn] using eq_comm

theorem getRemainSize_viewOn (ptr limit handled : Nat) (fits : handled ≤ limit)
    (small : limit < 2 ^ 32) : (viewOn ptr limit handled).getRemainSize = limit - handled := by
  simp only [Buffer.getRemainSize, viewOn]
  omega

theorem markHandled_viewOn (ptr limit handled nbytes : Nat) (fits : handled + nbytes ≤ limit)
    (small : limit < 2 ^ 32) :
    (viewOn ptr limit handled).markHandled nbytes = viewOn ptr limit (handled + nbytes) := by
  simp only [Buffer.markHandled, viewOn, Buffer.mk.injEq, true_and, and_true]
  omega

/-- Receiving behind the known prefix of a block extends the prefix. -/
theorem write_behind {mem : Memory} {ptr limit : Nat} {known : Bytes} (bytes : Bytes)
    (holds : Holds mem ptr limit known) (fits : known.length + bytes.length ≤ limit) :
    ∃ mem', mem.write ptr known.length bytes = some mem' ∧ mem'.next = mem.next ∧
      mem'.stale = mem.stale ∧ Holds mem' ptr limit (known ++ bytes) ∧
      ∀ other, other ≠ ptr → mem'.block other = mem.block other := by
  obtain ⟨content, found, lengthEq, known_eq⟩ := holds
  have room : known.length + bytes.length ≤ content.length := by omega
  let after := Function.update mem.block ptr (some (overwrite content known.length bytes))
  refine ⟨{ mem with block := after }, ?_, rfl, rfl, ?_, ?_⟩
  · simp only [Memory.write, found, if_pos room, after]
  · refine ⟨overwrite content known.length bytes, by simp [after], ?_, ?_⟩
    · rw [overwrite_length content bytes known.length room, lengthEq]
    · exact overwrite_take content bytes known known_eq
  · intro other differs
    exact Function.update_of_ne differs _ _

/-- What is left of a reply view is the rest of the bytes behind it. -/
theorem remaining_viewOn {mem : Memory} {ptr limit : Nat} {header rest : Bytes}
    (holds : Holds mem ptr limit header) (full : header.length = limit)
    (suffix : rest <:+ header) (small : limit < 2 ^ 32) :
    (viewOn ptr limit (limit - rest.length)).remaining mem = some rest := by
  obtain ⟨content, found, lengthEq, known_eq⟩ := holds
  have contentEq : content = header := by
    rw [full, ← lengthEq, List.take_length] at known_eq
    exact known_eq
  subst contentEq
  have restLe := suffix.length_le
  obtain ⟨sent, split⟩ := suffix
  have sentLength : sent.length = limit - rest.length := by
    have := congrArg List.length split
    rw [List.length_append] at this
    omega
  rw [Buffer.remaining, getRemainSize_viewOn ptr limit _ (by omega) small]
  have size : limit - (limit - rest.length) = rest.length := by omega
  simp only [viewOn, Memory.read, found, size]
  rw [if_pos (by omega), ← split, ← sentLength, List.drop_left, List.take_length]

/-! ## The representation -/

def Stage.state : Stage → BwServerEndpoint.State
  | .idle _ => .NEW_RPC
  | .receiving headerDone _ _ => if headerDone then .HEADER_RECVED else .META_RECVED
  | .replying _ _ _ => .REPLYING

def Stage.frame : Stage → Option (Bytes × Bytes)
  | .idle held => held
  | .receiving _ header data => some (header, data)
  | .replying header data _ => some (header, data)

def Stage.queue (ptr limit : Nat) : Stage → List BufferPtr
  | .replying _ _ rest => [some (viewOn ptr limit (limit - rest.length))]
  | _ => []

/-- The object after its first prefix, with the owners' blocks and limits. -/
structure RepresentsFrame (ep : BwServerEndpoint) (mem : Memory) (stage : Stage)
    (headerPtr headerLimit dataPtr dataLimit : Nat) (header data : Bytes) : Prop where
  headerOwner : ep.headerBufferOwner = some (ownerOn headerPtr headerLimit)
  dataOwner : ep.dataBufferOwner = some (ownerOn dataPtr dataLimit)
  distinct : headerPtr ≠ dataPtr
  headerOld : headerPtr < mem.next
  dataOld : dataPtr < mem.next
  headerSmall : headerLimit < 2 ^ 32
  dataSmall : dataLimit < 2 ^ 32
  headerView : ep.headerBuffer = some (viewOn headerPtr headerLimit header.length)
  dataView : ep.dataBuffer = some (viewOn dataPtr dataLimit data.length)
  headerHolds : Holds mem headerPtr headerLimit header
  dataHolds : Holds mem dataPtr dataLimit data
  state : ep.state = stage.state
  queue : ep.txQueue = stage.queue headerPtr headerLimit
  noReply : ep.replyBuffer = none

structure Represents (ep : BwServerEndpoint) (mem : Memory) (p : Session) : Prop where
  interest : ep.interest = p.interest
  body : match p.limits with
    | none => ep.headerBufferOwner = none ∧ ep.dataBufferOwner = none ∧
        ep.state = p.stage.state ∧ ep.txQueue = [] ∧ p.stage = .idle none ∧
        ep.headerBuffer = none ∧ ep.dataBuffer = none ∧ ep.replyBuffer = none
    | some (headerLimit, dataLimit) => ∃ headerPtr dataPtr header data,
        p.stage.frame = some (header, data) ∧
        RepresentsFrame ep mem p.stage headerPtr headerLimit dataPtr dataLimit header data

theorem Represents.state_eq {ep : BwServerEndpoint} {mem : Memory} {p : Session}
    (rep : Represents ep mem p) : ep.state = p.stage.state := by
  have body := rep.body
  cases limits : p.limits with
  | none =>
      rw [limits] at body
      exact body.2.2.1
  | some pair =>
      rw [limits] at body
      obtain ⟨_, _, _, _, _, frame⟩ := body
      exact frame.state

theorem Stage.idle_of_state {stage : Stage} (newRpc : stage.state = .NEW_RPC) :
    ∃ held, stage = .idle held := by
  cases stage with
  | idle held => exact ⟨held, rfl⟩
  | receiving headerDone header data => cases headerDone <;> simp [Stage.state] at newRpc
  | replying header data rest => simp [Stage.state] at newRpc

def BwServerEndpoint.blocks (ep : BwServerEndpoint) : List Nat :=
  (ep.headerBufferOwner.map Buffer.ptr).toList ++ (ep.dataBufferOwner.map Buffer.ptr).toList

/-- Between `before` and `after` only blocks of the endpoint and newly
allocated ones have changed, and the endpoint owns no other block. -/
structure Footprint (ep : BwServerEndpoint) (before : Memory) (ep' : BwServerEndpoint)
    (after : Memory) : Prop where
  grows : before.next ≤ after.next
  stale : after.stale = before.stale
  foreign : ∀ ptr, ptr < before.next → ptr ∉ ep.blocks → after.block ptr = before.block ptr
  owned : ∀ ptr ∈ ep'.blocks, ptr ∈ ep.blocks ∨ before.next ≤ ptr

theorem Footprint.refl (ep : BwServerEndpoint) (mem : Memory) : Footprint ep mem ep mem :=
  ⟨le_refl _, rfl, fun _ _ _ => rfl, fun _ member => Or.inl member⟩

theorem Footprint.trans {ep ep' ep'' : BwServerEndpoint} {m m' m'' : Memory}
    (first : Footprint ep m ep' m') (second : Footprint ep' m' ep'' m'') :
    Footprint ep m ep'' m'' := by
  refine ⟨le_trans first.grows second.grows, second.stale.trans first.stale, ?_, ?_⟩
  · intro ptr old notOwned
    have notLater : ptr ∉ ep'.blocks := by
      intro member
      rcases first.owned ptr member with before | fresh
      · exact notOwned before
      · omega
    rw [second.foreign ptr (lt_of_lt_of_le old first.grows) notLater]
    exact first.foreign ptr old notOwned
  · intro ptr member
    rcases second.owned ptr member with before | fresh
    · exact first.owned ptr before
    · exact Or.inr (le_trans first.grows fresh)

theorem Footprint.of_blocks_eq {ep ep' : BwServerEndpoint} {mem : Memory}
    (same : ep'.blocks = ep.blocks) : Footprint ep mem ep' mem := by
  refine ⟨le_refl _, rfl, fun _ _ _ => rfl, ?_⟩
  intro ptr member
  rw [same] at member
  exact Or.inl member

/-- A representation lives in the blocks the endpoint owns. -/
theorem Represents.frame {ep : BwServerEndpoint} {mem mem' : Memory} {p : Session}
    (rep : Represents ep mem p) (grows : mem.next ≤ mem'.next)
    (same : ∀ ptr ∈ ep.blocks, mem'.block ptr = mem.block ptr) : Represents ep mem' p := by
  refine ⟨rep.interest, ?_⟩
  have body := rep.body
  cases limits : p.limits with
  | none =>
      rw [limits] at body
      exact body
  | some pair =>
      obtain ⟨headerLimit, dataLimit⟩ := pair
      rw [limits] at body
      obtain ⟨headerPtr, dataPtr, header, data, frameEq, frame⟩ := body
      have headerOwned : headerPtr ∈ ep.blocks := by
        simp [BwServerEndpoint.blocks, frame.headerOwner, ownerOn]
      have dataOwned : dataPtr ∈ ep.blocks := by
        simp [BwServerEndpoint.blocks, frame.dataOwner, ownerOn]
      exact ⟨headerPtr, dataPtr, header, data, frameEq,
        { frame with
          headerOld := lt_of_lt_of_le frame.headerOld grows
          dataOld := lt_of_lt_of_le frame.dataOld grows
          headerHolds := frame.headerHolds.of_block_eq (same _ headerOwned)
          dataHolds := frame.dataHolds.of_block_eq (same _ dataOwned) }⟩

theorem Represents.blocks_lt {ep : BwServerEndpoint} {mem : Memory} {p : Session}
    (rep : Represents ep mem p) : ∀ ptr ∈ ep.blocks, ptr < mem.next := by
  have body := rep.body
  cases limits : p.limits with
  | none =>
      rw [limits] at body
      simp [BwServerEndpoint.blocks, body.1, body.2.1]
  | some pair =>
      rw [limits] at body
      obtain ⟨headerPtr, dataPtr, header, data, frameEq, frame⟩ := body
      intro ptr member
      simp only [BwServerEndpoint.blocks, frame.headerOwner, frame.dataOwner, ownerOn,
        Option.map_some, Option.toList_some, List.cons_append, List.nil_append, List.mem_cons,
        List.not_mem_nil, or_false] at member
      rcases member with rfl | rfl
      · exact frame.headerOld
      · exact frame.dataOld

end RpcBench.Socket
