import RpcBench.Socket.Server

/-! # One event of one connection

The handlers that an event leads to, on the kernel of the whole process: what
they leave of the endpoint and of its socket, what they cannot touch, and the
only reason for which they abort. -/
set_option autoImplicit false

namespace RpcBench.Socket

open Fallible BwServerEndpoint Host

/-- An endpoint in good order: a session behind its buffers, and the entry in
the epoll instance that it asked for. -/
structure Healthy (token : Token) (announced : Bool) (ep : BwServerEndpoint) (mem : Memory)
    (sys : Host) : Prop where
  session : ∃ p, Represents ep mem p ∧ p.Sound
  watched : Watched token ep.sock announced ep.interest sys

structure Handling.Tolerable (event : Event) (handling : Handling) : Prop where
  answers : event.isReadable = true → Host.Tolerable handling.answers
  sends : event.isWritable = true → ∀ choice ∈ handling.sends, choice.tolerable = true

structure Confined (s s' : Context Host) : Prop where
  this : s'.this = s.this
  sock : s'.ep.sock = s.ep.sock
  footprint : Footprint s.ep s.mem s'.ep s'.mem
  outside : SameOutside s.ep.sock s.sys s'.sys

theorem Confined.refl (s : Context Host) : Confined s s :=
  ⟨rfl, rfl, Footprint.refl _ _, SameOutside.refl _ _⟩

theorem Confined.trans {first second third : Context Host} (front : Confined first second)
    (back : Confined second third) : Confined first third := by
  refine ⟨back.this.trans front.this, back.sock.trans front.sock,
    front.footprint.trans back.footprint, front.outside.trans ?_⟩
  have outside := back.outside
  rw [front.sock] at outside
  exact outside

section Calls

variable {announced : Bool} {s : Context Host}

theorem call_healthy (call : Call Outcome)
    {result : Except Stop (Session × Host)} {tolerable : Prop}
    (watched : Watched s.this s.ep.sock announced s.ep.interest s.sys)
    (agree : Agree (Tracks s.this s.ep.sock s.ep s.mem) (handle kernel.toKernel s call) result)
    (stopped : Sat result (Stopped tolerable) (fun _ => True)) :
    Sat (handle kernel.toKernel s call) (Stopped tolerable)
      (fun s' => Confined s s' ∧ Healthy s.this announced s'.ep s'.mem s'.sys) := by
  have kept := handle_kept (keeps_watched s.this s.ep.sock announced s.sys) s call
    ⟨rfl, rfl, watched, SameOutside.refl _ _⟩
  apply ((agree.sat stopped).and kept).mono (fun _ both => both.1)
  intro s' kept
  obtain ⟨⟨ps, tracks, _⟩, kept'⟩ := kept
  refine ⟨⟨tracks.this_eq, tracks.sock_eq, tracks.footprint, kept'.inv.2⟩,
    ⟨ps.1, tracks.represents, tracks.sound⟩, ?_⟩
  rw [tracks.sock_eq]
  exact kept'.inv.1

theorem tracks_self {p : Session} (represents : Represents s.ep s.mem p) (sound : p.Sound) :
    Tracks s.this s.ep.sock s.ep s.mem s (p, s.sys) :=
  ⟨rfl, rfl, rfl, represents, sound, Footprint.refl _ _⟩

theorem recvReady_healthy (answers : Answers Outcome)
    (healthy : Healthy s.this announced s.ep s.mem s.sys) :
    Sat (onRecvReady kernel.toKernel answers s) (Stopped (Host.Tolerable answers))
      (fun s' => Confined s s' ∧ Healthy s.this announced s'.ep s'.mem s'.sys) := by
  obtain ⟨⟨p, represents, sound⟩, watched⟩ := healthy
  exact call_healthy (.recvReady answers) watched
    (onRecvReady_agree _ answers (tracks_self represents sound))
    (session_onRecvReady_stopped s.mem.stale answers p s.sys watched.isWatched)

theorem sendReady_healthy (choices : List Outcome)
    (healthy : Healthy s.this announced s.ep s.mem s.sys) :
    Sat (onSendReady kernel.toKernel choices s)
      (Stopped (∀ choice ∈ choices, choice.tolerable = true))
      (fun s' => Confined s s' ∧ Healthy s.this announced s'.ep s'.mem s'.sys) := by
  obtain ⟨⟨p, represents, sound⟩, watched⟩ := healthy
  exact call_healthy (.sendReady choices) watched
    (onSendReady_agree _ choices s _ (tracks_self represents sound))
    (sendReply_stopped choices p s.sys watched.isWatched)

theorem onError_spec (open' : s.ep.sock ≠ INVALID_SOCKET)
    (watched : s.sys.watched s.ep.sock = true) :
    onError kernel s = .ok
      { s with
        sys := kernel.close s.ep.sock (s.sys.modify s.ep.sock fun sock => { sock with item := none })
        ep := { s.ep with sock := INVALID_SOCKET } } := by
  have removed : kernel.epollCtlDel s.ep.sock s.sys =
      some (s.sys.modify s.ep.sock fun sock => { sock with item := none }) := if_pos watched
  rw [onError, removed]
  exact if_neg open'

/-- What an event leaves of its endpoint: closed and deregistered after an
error or a close, in good order otherwise. -/
def Left (event : Event) (announced : Bool) (s s' : Context Host) : Prop :=
  if event.isClosing then
    s'.ep.sock = INVALID_SOCKET ∧ s'.sys.sock s.ep.sock = none
  else s'.ep.sock = s.ep.sock ∧ Healthy s.this announced s'.ep s'.mem s'.sys

/-- What the handling of an event does with its endpoint, and that it does
nothing else. -/
structure Dispatched (event : Event) (announced : Bool) (s s' : Context Host) : Prop where
  this : s'.this = s.this
  footprint : Footprint s.ep s.mem s'.ep s'.mem
  allocated : ∀ ptr ∈ s'.ep.blocks, ptr < s'.mem.next
  outside : SameOutside s.ep.sock s.sys s'.sys
  left : Left event announced s s'

theorem dispatch_spec (event : Event) (handling : Handling) {announced : Bool} {s : Context Host}
    (healthy : Healthy s.this announced s.ep s.mem s.sys) (open' : s.ep.sock ≠ INVALID_SOCKET) :
    Sat (Server.dispatch event handling s) (Stopped (handling.Tolerable event))
      (Dispatched event announced s) := by
  have received : Sat (Server.testReadable event handling.answers s)
      (Stopped (handling.Tolerable event))
      (fun s' => Confined s s' ∧ Healthy s.this announced s'.ep s'.mem s'.sys) := by
    unfold Server.testReadable
    split
    · next readable =>
        exact (recvReady_healthy handling.answers healthy).mono
          (fun _ => Stopped.mono fun tolerable => tolerable.answers readable) fun _ => id
    · exact ⟨Confined.refl s, healthy⟩
  unfold Server.dispatch
  apply received.bind
  intro s₁ kept
  obtain ⟨confined₁, healthy₁⟩ := kept
  rw [← confined₁.this] at healthy₁
  have sent : Sat (Server.testWritable event handling.sends s₁)
      (Stopped (handling.Tolerable event))
      (fun s' => Confined s₁ s' ∧ Healthy s₁.this announced s'.ep s'.mem s'.sys) := by
    unfold Server.testWritable
    split
    · next writable =>
        exact (sendReady_healthy handling.sends healthy₁).mono
          (fun _ => Stopped.mono fun tolerable => tolerable.sends writable) fun _ => id
    · exact ⟨Confined.refl s₁, healthy₁⟩
  apply sent.bind
  intro s₂ kept
  obtain ⟨confined₂, healthy₂⟩ := kept
  have confined := confined₁.trans confined₂
  obtain ⟨p, rep, _⟩ := healthy₂.session
  unfold Server.testClosing
  cases closing : event.isClosing with
  | false =>
      simp only [Bool.false_eq_true, if_false]
      refine ⟨confined.this, confined.footprint, rep.blocks_lt, confined.outside, ?_⟩
      rw [Left, closing]
      rw [confined₁.this] at healthy₂
      exact ⟨confined.sock, healthy₂⟩
  | true =>
      simp only [if_true]
      have open₂ : s₂.ep.sock ≠ INVALID_SOCKET := by
        rw [confined.sock]
        exact open'
      rw [onError_spec open₂ healthy₂.watched.isWatched]
      refine ⟨confined.this, ?_, rep.blocks_lt, ?_, ?_⟩
      · exact confined.footprint.trans (Footprint.of_blocks_eq rfl)
      · refine ⟨?_, confined.outside.listening, confined.outside.backlog⟩
        intro other differs
        rw [← confined.outside.sock other differs]
        change Function.update (Host.sock _) s₂.ep.sock none other = _
        rw [confined.sock, Function.update_of_ne differs]
        exact modify_other _ _ differs
      · rw [Left, closing]
        refine ⟨rfl, ?_⟩
        change Function.update (Host.sock _) s₂.ep.sock none s.ep.sock = none
        rw [confined.sock, Function.update_self]

end Calls

end RpcBench.Socket
