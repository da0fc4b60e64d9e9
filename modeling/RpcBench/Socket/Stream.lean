import RpcBench.Socket.Served

/-! # An endpoint on an arbitrary byte stream

The kernel of this file has one connection.  It holds the bytes that have
still to be received, hands them out in any portions and takes replies in any
portions; `none` as a choice is a would-block. -/
set_option autoImplicit false

namespace RpcBench.Socket

open ByteList Fallible BwServerEndpoint

structure Stream where
  input : Bytes
  /-- The peer closes its side behind `input`. -/
  ended : Bool
  history : History
  deriving DecidableEq, Repr

namespace Stream

/-- A choice grants up to `count` bytes; at least one, or the call blocks. -/
def recv (choice : Option Nat) (_fd : RawFd) (len : Nat) (sys : Stream) : RecvResult × Stream :=
  match choice with
  | none => (.error .EAGAIN, sys)
  | some count =>
    let nbytes := min count (min len sys.input.length)
    if nbytes = 0 ∧ len ≠ 0 ∧ ¬(sys.input = [] ∧ sys.ended = true) then (.error .EAGAIN, sys)
    else
      (.count (sys.input.take nbytes),
        { sys with
          input := sys.input.drop nbytes
          history := sys.history.received (sys.input.take nbytes) })

def send (choice : Option Nat) (_fd : RawFd) (bytes : Bytes) (sys : Stream) :
    SendResult × Stream :=
  match choice with
  | none => (.error .EAGAIN, sys)
  | some count =>
    let nbytes := min count bytes.length
    if nbytes = 0 ∧ bytes ≠ [] then (.error .EWOULDBLOCK, sys)
    else (.count nbytes, { sys with history := sys.history.sent (bytes.take nbytes) })

def register (event : Event) (sys : Stream) : Stream :=
  { sys with history := { sys.history with registered := some event } }

def epollCtlMod (_fd : RawFd) (event : Event) (sys : Stream) : Option Stream :=
  if sys.history.registered.isSome then some (sys.register event) else none

def kernel : ConnectionKernel Stream (Option Nat) where
  recv := recv
  send := send
  epollCtlMod := epollCtlMod
  getpeername := fun _ _ sys => some sys
  epollCtlAdd := fun _ event sys =>
    if sys.history.registered.isSome then none else some (sys.register event)
  epollCtlDel := fun _ sys =>
    if sys.history.registered.isSome then
      some { sys with history := { sys.history with registered := none } }
    else none
  close := fun _ sys => sys
  recv_le := by
    intro choice fd len sys bytes sys' received
    cases choice with
    | none => simp [recv] at received
    | some count =>
        simp only [recv] at received
        split at received
        · simp at received
        · simp only [Prod.mk.injEq, RecvResult.count.injEq] at received
          rw [← received.1, List.length_take]
          omega
  send_le := by
    intro choice fd bytes sys nbytes sys' sent
    cases choice with
    | none => simp [send] at sent
    | some count =>
        simp only [send] at sent
        split at sent
        · simp at sent
        · simp only [Prod.mk.injEq, SendResult.count.injEq] at sent
          omega

theorem recv_cases (choice : Option Nat) (fd : RawFd) (len : Nat) (sys : Stream) :
    recv choice fd len sys = (.error .EAGAIN, sys) ∨
    ∃ nbytes, nbytes ≤ sys.input.length ∧
      (nbytes = 0 → len ≠ 0 → sys.input = [] ∧ sys.ended = true) ∧
      recv choice fd len sys =
        (.count (sys.input.take nbytes),
          { sys with
            input := sys.input.drop nbytes
            history := sys.history.received (sys.input.take nbytes) }) := by
  cases choice with
  | none => exact Or.inl rfl
  | some count =>
      by_cases blocked : min count (min len sys.input.length) = 0 ∧ len ≠ 0 ∧
          ¬(sys.input = [] ∧ sys.ended = true)
      · exact Or.inl (by simp only [recv, if_pos blocked])
      · refine Or.inr ⟨min count (min len sys.input.length), by omega, ?_, ?_⟩
        · intro zero some
          by_contra more
          exact blocked ⟨zero, some, more⟩
        · simp only [recv, if_neg blocked]

theorem send_cases (choice : Option Nat) (fd : RawFd) (bytes : Bytes) (sys : Stream) :
    (∃ errno, lastErrorWouldBlock errno = true ∧ send choice fd bytes sys = (.error errno, sys)) ∨
    ∃ nbytes, send choice fd bytes sys =
      (.count nbytes, { sys with history := sys.history.sent (bytes.take nbytes) }) := by
  cases choice with
  | none => exact Or.inl ⟨.EAGAIN, rfl, rfl⟩
  | some count =>
      by_cases blocked : min count bytes.length = 0 ∧ bytes ≠ []
      · exact Or.inl ⟨.EWOULDBLOCK, rfl, by simp only [send, if_pos blocked]⟩
      · exact Or.inr ⟨min count bytes.length, by simp only [send, if_neg blocked]⟩

def wire : Wire kernel.toKernel where
  history := Stream.history
  drained := fun sys => sys.input = [] ∧ sys.ended = true
  recv_count := by
    intro choice fd len sys bytes sys' received
    change recv choice fd len sys = _ at received
    rcases recv_cases choice fd len sys with blocked | ⟨nbytes, fits, ended, moved⟩
    · rw [blocked] at received
      simp at received
    · rw [moved] at received
      simp only [Prod.mk.injEq, RecvResult.count.injEq] at received
      obtain ⟨rfl, rfl⟩ := received
      refine ⟨rfl, ?_, ?_⟩
      · intro both
        obtain ⟨empty, closed⟩ := both
        simp [empty, closed]
      · intro nothing some
        have zero : nbytes = 0 := by
          have := congrArg List.length nothing
          rw [List.length_take, List.length_nil] at this
          omega
        obtain ⟨empty, closed⟩ := ended zero some
        simp [empty, closed]
  recv_error := by
    intro choice fd len sys errno sys' received
    change recv choice fd len sys = _ at received
    rcases recv_cases choice fd len sys with blocked | ⟨nbytes, fits, ended, moved⟩
    · rw [blocked] at received
      simp only [Prod.mk.injEq, RecvResult.error.injEq] at received
      obtain ⟨rfl, rfl⟩ := received
      exact ⟨rfl, rfl, id⟩
    · rw [moved] at received
      simp at received
  send_count := by
    intro choice fd bytes sys nbytes sys' sent
    change send choice fd bytes sys = _ at sent
    rcases send_cases choice fd bytes sys with ⟨errno, _, blocked⟩ | ⟨taken, moved⟩
    · rw [blocked] at sent
      simp at sent
    · rw [moved] at sent
      simp only [Prod.mk.injEq, SendResult.count.injEq] at sent
      obtain ⟨rfl, rfl⟩ := sent
      exact ⟨rfl, id⟩
  send_error := by
    intro choice fd bytes sys errno sys' sent
    change send choice fd bytes sys = _ at sent
    rcases send_cases choice fd bytes sys with ⟨errno, wouldBlock, blocked⟩ | ⟨taken, moved⟩
    · rw [blocked] at sent
      simp only [Prod.mk.injEq, SendResult.error.injEq] at sent
      obtain ⟨rfl, rfl⟩ := sent
      exact ⟨wouldBlock, rfl, id⟩
    · rw [moved] at sent
      simp at sent
  mod := by
    intro fd event sys registered
    exact ⟨sys.register event, if_pos registered, rfl, id⟩

/-- A new endpoint after `OnAccepted`, in front of the bytes `input`. -/
def accepted (this : Token) (fd : RawFd) (mem : Memory) (input : Bytes) (ended : Bool) :
    Context Stream :=
  { this, mem
    ep := BwServerEndpoint.create fd
    sys :=
      { input, ended
        history :=
          { consumed := [], written := []
            registered := some (registration this (BwServerEndpoint.create fd).interest) } } }

theorem onAccepted_accepted (this : Token) (fd : RawFd) (mem : Memory) (input : Bytes)
    (ended : Bool) (choice : Option Nat) :
    onAccepted kernel choice
        { accepted this fd mem input ended with
          sys := { input, ended, history := { consumed := [], written := [], registered := none } } } =
      .ok (accepted this fd mem input ended) := rfl

theorem keeps_whole (this : Token) (fd : RawFd) (whole : Bytes) :
    Keeps kernel.toKernel this fd (fun _ sys => sys.history.consumed ++ sys.input = whole) where
  recv := by
    intro choice len _ sys split
    change (recv choice fd len sys).2.history.consumed ++ (recv choice fd len sys).2.input = whole
    rcases recv_cases choice fd len sys with blocked | ⟨nbytes, _, _, moved⟩
    · rw [blocked]
      exact split
    · rw [moved, ← split]
      simp [History.received]
  send := by
    intro choice bytes _ sys split
    change (send choice fd bytes sys).2.history.consumed ++ (send choice fd bytes sys).2.input =
      whole
    rcases send_cases choice fd bytes sys with ⟨errno, _, blocked⟩ | ⟨nbytes, moved⟩
    · rw [blocked]
      exact split
    · rw [moved]
      exact split
  mod := by
    intro _ interest sys sys' split moved
    change epollCtlMod fd _ sys = some sys' at moved
    simp only [epollCtlMod, Option.ite_none_right_eq_some, Option.some.injEq] at moved
    rw [← moved.2]
    exact split

structure Running (this : Token) (fd : RawFd) (whole : Bytes) (s : Context Stream) : Prop where
  live : ∃ p, Live wire this fd s p
  whole : s.sys.history.consumed ++ s.sys.input = whole

theorem accepted_running (this : Token) (fd : RawFd) (mem : Memory) (input : Bytes)
    (ended : Bool) : Running this fd input (accepted this fd mem input ended) := by
  refine ⟨⟨Session.fresh, ⟨rfl, rfl, rfl, ⟨rfl, ?_⟩, ⟨rfl, rfl⟩, Footprint.refl _ _⟩, ⟨rfl, ?_⟩, ?_⟩,
    rfl⟩
  · exact ⟨rfl, rfl, rfl, rfl, rfl, rfl, rfl, rfl⟩
  · exact ⟨[], [], rfl, by simp, fun torn => absurd rfl torn, Served.nil, rfl⟩
  · exact Session.Armed.of_stage (by simp [Session.fresh])

theorem handle_running {this : Token} {fd : RawFd} {whole : Bytes} {s : Context Stream}
    (running : Running this fd whole s) (call : Call (Option Nat)) :
    Sat (handle kernel.toKernel s call) (· = .pending)
      (fun s' => Running this fd whole s' ∧ Footprint s.ep s.mem s'.ep s'.mem) := by
  obtain ⟨⟨p, live⟩, split⟩ := running
  have kept := handle_kept (keeps_whole this fd whole) s call
    ⟨live.tracks.this_eq, live.tracks.sock_eq, split⟩
  refine ((handle_live wire live call).and kept).mono (fun _ both => both.1) ?_
  intro s' kept
  obtain ⟨⟨live', footprint⟩, kept'⟩ := kept
  exact ⟨⟨live', kept'.inv⟩, footprint⟩

theorem calls_running (this : Token) (fd : RawFd) (mem : Memory) (input : Bytes) (ended : Bool)
    (calls : List (Call (Option Nat))) :
    Sat (calls.foldlM (handle kernel.toKernel) (accepted this fd mem input ended)) (· = .pending)
      (Running this fd input) := by
  refine Sat.foldlM ?_ calls _ (accepted_running this fd mem input ended)
  intro s call running
  exact (handle_running running call).mono (fun _ => id) fun _ both => both.1

end Stream

end RpcBench.Socket
