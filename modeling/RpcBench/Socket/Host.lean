import RpcBench.Socket.Simulation

/-! # The operating system under the server

All sockets of the process with their entries in the epoll instance.  What the
peers send is left open: a choice says what one call moves or how it fails, a
delivery which bits are ready.  A call that fails hard has met a connection
that is reset. -/
set_option autoImplicit false

namespace RpcBench.Socket

open ByteList Fallible BwServerEndpoint

inductive Peer where
  | up
  | down (reset : Bool)
  deriving DecidableEq, Repr

/-- An entry of the epoll instance; `queued` is an undelivered notification. -/
structure Item where
  event : Event
  queued : Bool
  deriving DecidableEq, Repr

structure Sock where
  peer : Peer
  item : Option Item
  deriving DecidableEq, Repr

structure Host where
  sock : RawFd → Option Sock
  /-- the entry of the listening socket -/
  listening : Item
  /-- established connections that have not been accepted -/
  backlog : List Peer

inductive Outcome where
  | moves (bytes : Bytes)
  | wouldBlock
  | fails (errno : Errno)
  deriving DecidableEq, Repr

def Outcome.tolerable : Outcome → Bool
  | .fails errno => lastErrorWouldBlock errno
  | _ => true

namespace Item

/-- What `epoll_wait` reports for an entry; the two Booleans are the readiness
of an undisturbed connection. -/
def reported (item : Item) (peer : Peer) (input output : Bool) : Event :=
  let down := peer != .up
  let reset := peer == .down true
  { events :=
      { epollin := item.event.events.epollin && (input || down)
        epollrdhup := item.event.events.epollrdhup && down
        epollout := item.event.events.epollout && (output || reset)
        epollerr := reset
        epollhup := reset }
    token := item.event.token }

end Item

namespace Sock

/-- Something has happened to a socket; if it is watched an event is queued. -/
def notify (sock : Sock) : Sock :=
  { sock with item := sock.item.map fun item => { item with queued := true } }

def seen (sock : Sock) : Sock :=
  { sock with item := sock.item.map fun item => { item with queued := false } }

def hangUp (reset : Bool) (sock : Sock) : Sock :=
  notify { sock with peer := .down reset }

end Sock

namespace Host

def modify (fd : RawFd) (change : Sock → Sock) (sys : Host) : Host :=
  { sys with sock := Function.update sys.sock fd ((sys.sock fd).map change) }

@[simp] theorem modify_same (fd : RawFd) (change : Sock → Sock) (sys : Host) :
    (sys.modify fd change).sock fd = (sys.sock fd).map change := by
  simp [modify]

@[simp] theorem modify_other {fd other : RawFd} (change : Sock → Sock) (sys : Host)
    (differs : other ≠ fd) : (sys.modify fd change).sock other = sys.sock other := by
  simp [modify, Function.update_of_ne differs]

def recv (choice : Outcome) (fd : RawFd) (len : Nat) (sys : Host) : RecvResult × Host :=
  match choice with
  | .moves bytes => (.count (bytes.take len), sys)
  | .wouldBlock => (.error .EAGAIN, sys)
  | .fails errno =>
    (.error errno, if lastErrorWouldBlock errno then sys else sys.modify fd (Sock.hangUp true))

def send (choice : Outcome) (fd : RawFd) (bytes : Bytes) (sys : Host) : SendResult × Host :=
  match choice with
  | .moves moved => (.count (min moved.length bytes.length), sys)
  | .wouldBlock => (.error .EAGAIN, sys)
  | .fails errno =>
    (.error errno, if lastErrorWouldBlock errno then sys else sys.modify fd (Sock.hangUp true))

def watched (fd : RawFd) (sys : Host) : Bool :=
  ((sys.sock fd).bind Sock.item).isSome

def watch (fd : RawFd) (event : Event) (sys : Host) : Host :=
  sys.modify fd fun sock => { sock with item := some { event, queued := true } }

def kernel : ConnectionKernel Host Outcome where
  recv := recv
  send := send
  epollCtlMod := fun fd event sys =>
    if sys.watched fd then some (sys.watch fd event) else none
  getpeername := fun choice _ sys => if choice.tolerable then some sys else none
  epollCtlAdd := fun fd event sys =>
    if (sys.sock fd).isSome && !sys.watched fd then some (sys.watch fd event) else none
  epollCtlDel := fun fd sys =>
    if sys.watched fd then some (sys.modify fd fun sock => { sock with item := none }) else none
  close := fun fd sys => { sys with sock := Function.update sys.sock fd none }
  recv_le := by
    intro choice fd len sys bytes sys' received
    cases choice with
    | moves moved =>
        simp only [recv, Prod.mk.injEq, RecvResult.count.injEq] at received
        rw [← received.1, List.length_take]
        omega
    | wouldBlock => simp [recv] at received
    | fails errno => simp [recv] at received
  send_le := by
    intro choice fd bytes sys nbytes sys' sent
    cases choice with
    | moves moved =>
        simp only [send, Prod.mk.injEq, SendResult.count.injEq] at sent
        omega
    | wouldBlock => simp [send] at sent
    | fails errno => simp [send] at sent

/-! ## What one connection's calls leave alone -/

/-- The socket is open with the entry that the endpoint asked for; with
`announced`, an end of the connection is queued. -/
structure Watched (this : Token) (fd : RawFd) (announced : Bool) (interest : Interest)
    (sys : Host) : Prop where
  entry : ∃ peer queued, sys.sock fd = some ⟨peer, some ⟨registration this interest, queued⟩⟩ ∧
    (announced = true → peer ≠ .up → queued = true)

/-- Apart from the socket `fd` the two states are the same. -/
structure SameOutside (fd : RawFd) (before after : Host) : Prop where
  sock : ∀ other, other ≠ fd → after.sock other = before.sock other
  listening : after.listening = before.listening
  backlog : after.backlog = before.backlog

theorem SameOutside.refl (fd : RawFd) (sys : Host) : SameOutside fd sys sys :=
  ⟨fun _ _ => rfl, rfl, rfl⟩

theorem SameOutside.trans {fd : RawFd} {first second third : Host}
    (front : SameOutside fd first second) (back : SameOutside fd second third) :
    SameOutside fd first third :=
  ⟨fun other differs => (back.sock other differs).trans (front.sock other differs),
    back.listening.trans front.listening, back.backlog.trans front.backlog⟩

theorem modify_sameOutside (fd : RawFd) (change : Sock → Sock) (sys : Host) :
    SameOutside fd sys (sys.modify fd change) :=
  ⟨fun _ differs => modify_other change sys differs, rfl, rfl⟩

section Keeping

variable {this : Token} {fd : RawFd} {announced : Bool} {interest : Interest} {sys : Host}

theorem Watched.hangUp (watched : Watched this fd announced interest sys) (reset : Bool) :
    Watched this fd announced interest (sys.modify fd (Sock.hangUp reset)) := by
  obtain ⟨peer, queued, found, _⟩ := watched.entry
  refine ⟨.down reset, true, ?_, fun _ _ => rfl⟩
  rw [modify_same, found]
  rfl

theorem Watched.notify (watched : Watched this fd announced interest sys) :
    Watched this fd announced interest (sys.modify fd Sock.notify) := by
  obtain ⟨peer, queued, found, _⟩ := watched.entry
  refine ⟨peer, true, ?_, fun _ _ => rfl⟩
  rw [modify_same, found]
  rfl

theorem Watched.isWatched (watched : Watched this fd announced interest sys) :
    sys.watched fd = true := by
  obtain ⟨peer, queued, found, _⟩ := watched.entry
  rw [Host.watched, found]
  rfl

theorem Watched.rewatch (watched : Watched this fd announced interest sys) (interest' : Interest) :
    Watched this fd announced interest' (sys.watch fd (registration this interest')) := by
  obtain ⟨peer, queued, found, _⟩ := watched.entry
  refine ⟨peer, true, ?_, fun _ _ => rfl⟩
  rw [watch, modify_same, found]
  rfl

theorem keeps_watched (this : Token) (fd : RawFd) (announced : Bool) (before : Host) :
    Keeps kernel.toKernel this fd
      (fun interest sys => Watched this fd announced interest sys ∧ SameOutside fd before sys) where
  recv := by
    intro choice len interest sys both
    obtain ⟨watched, same⟩ := both
    cases choice with
    | moves bytes => exact ⟨watched, same⟩
    | wouldBlock => exact ⟨watched, same⟩
    | fails errno =>
        change Watched this fd announced interest (ite _ _ _) ∧ SameOutside fd before (ite _ _ _)
        split
        · exact ⟨watched, same⟩
        · exact ⟨watched.hangUp true, same.trans (modify_sameOutside _ _ _)⟩
  send := by
    intro choice bytes interest sys both
    obtain ⟨watched, same⟩ := both
    cases choice with
    | moves moved => exact ⟨watched, same⟩
    | wouldBlock => exact ⟨watched, same⟩
    | fails errno =>
        change Watched this fd announced interest (ite _ _ _) ∧ SameOutside fd before (ite _ _ _)
        split
        · exact ⟨watched, same⟩
        · exact ⟨watched.hangUp true, same.trans (modify_sameOutside _ _ _)⟩
  mod := by
    intro interest interest' sys sys' both moved
    obtain ⟨watched, same⟩ := both
    change (if _ then some (sys.watch fd _) else none) = some sys' at moved
    simp only [Option.ite_none_right_eq_some, Option.some.injEq] at moved
    obtain ⟨_, rfl⟩ := moved
    exact ⟨watched.rewatch interest', same.trans (modify_sameOutside _ _ _)⟩

end Keeping

/-! ## Why a handler call stops -/

/-- Without a hard error where none is tolerated, only for want of choices. -/
def Stopped (tolerable : Prop) (reason : Stop) : Prop :=
  reason = .pending ∨ reason = .abort ∧ ¬tolerable

theorem Stopped.mono {tolerable tolerable' : Prop} {reason : Stop} (weaker : tolerable' → tolerable)
    (stopped : Stopped tolerable reason) : Stopped tolerable' reason :=
  stopped.imp id fun aborted => ⟨aborted.1, fun holds => aborted.2 (weaker holds)⟩

section Stopping

variable {this : Token} {fd : RawFd}

theorem watched_modify (other : RawFd) (change : Sock → Sock)
    (keeps : ∀ sock, (change sock).item.isSome = sock.item.isSome) (sys : Host) :
    (sys.modify other change).watched fd = sys.watched fd := by
  unfold watched
  by_cases same : fd = other
  · subst same
    rw [modify_same]
    cases found : sys.sock fd with
    | none => rfl
    | some sock => exact keeps sock
  · rw [modify_other change sys same]

theorem watched_hangUp (other : RawFd) (reset : Bool) (sys : Host) :
    (sys.modify other (Sock.hangUp reset)).watched fd = sys.watched fd :=
  watched_modify other _ (fun sock => by simp [Sock.hangUp, Sock.notify]) sys

theorem recv_watched (choice : Outcome) (len : Nat) (sys : Host) :
    (recv choice fd len sys).2.watched fd = sys.watched fd := by
  cases choice with
  | moves bytes => rfl
  | wouldBlock => rfl
  | fails errno =>
      simp only [recv]
      split
      · rfl
      · exact watched_hangUp fd true sys

theorem send_watched (choice : Outcome) (bytes : Bytes) (sys : Host) :
    (send choice fd bytes sys).2.watched fd = sys.watched fd := by
  cases choice with
  | moves moved => rfl
  | wouldBlock => rfl
  | fails errno =>
      simp only [send]
      split
      · rfl
      · exact watched_hangUp fd true sys

theorem recv_error {choice : Outcome} {len : Nat} {sys sys' : Host} {errno : Errno}
    (failed : recv choice fd len sys = (.error errno, sys')) :
    lastErrorWouldBlock errno = choice.tolerable := by
  cases choice with
  | moves bytes => simp [recv] at failed
  | wouldBlock =>
      simp only [recv, Prod.mk.injEq, RecvResult.error.injEq] at failed
      rw [← failed.1]
      rfl
  | fails other =>
      simp only [recv, Prod.mk.injEq, RecvResult.error.injEq] at failed
      rw [← failed.1]
      rfl

theorem send_error {choice : Outcome} {bytes : Bytes} {sys sys' : Host} {errno : Errno}
    (failed : send choice fd bytes sys = (.error errno, sys')) :
    lastErrorWouldBlock errno = choice.tolerable := by
  cases choice with
  | moves moved => simp [send] at failed
  | wouldBlock =>
      simp only [send, Prod.mk.injEq, SendResult.error.injEq] at failed
      rw [← failed.1]
      rfl
  | fails other =>
      simp only [send, Prod.mk.injEq, SendResult.error.injEq] at failed
      rw [← failed.1]
      rfl

theorem reregister_watched (interest : Interest) {sys : Host} (watched : sys.watched fd = true) :
    reregister kernel.toKernel fd this interest sys =
      .ok (sys.watch fd (registration this interest)) := by
  have moved : kernel.epollCtlMod fd (registration this interest) sys =
      some (sys.watch fd (registration this interest)) := if_pos watched
  rw [reregister, moved]

theorem sendReply_stopped (choices : List Outcome) :
    ∀ (p : Session) (sys : Host), sys.watched fd = true →
      Sat (Session.sendReply kernel.toKernel fd this choices (p, sys))
        (Stopped (∀ choice ∈ choices, choice.tolerable = true)) (fun _ => True) := by
  induction choices with
  | nil =>
      intro p sys watched
      rw [Session.sendReply]
      cases stage : p.stage with
      | idle held => trivial
      | receiving headerDone header data => trivial
      | replying header data rest => exact Or.inl rfl
  | cons choice choices ih =>
      intro p sys watched
      rw [Session.sendReply]
      cases stage : p.stage with
      | idle held => trivial
      | receiving headerDone header data => trivial
      | replying header data rest =>
          simp only
          have watched' := (send_watched choice rest sys).trans watched
          cases sent : send choice fd rest sys with
          | mk result sys' =>
              have sent' : kernel.send choice fd rest sys = (result, sys') := sent
              rw [sent] at watched'
              rw [sent']
              cases result with
              | error errno =>
                  have blocks := send_error sent
                  simp only
                  cases tolerable : choice.tolerable with
                  | false =>
                      rw [blocks, tolerable]
                      refine Or.inr ⟨rfl, ?_⟩
                      intro all
                      exact absurd (all choice List.mem_cons_self) (by simp [tolerable])
                  | true =>
                      rw [blocks, tolerable]
                      cases p.interest.isWritable with
                      | true => trivial
                      | false =>
                          simp only [Bool.not_true, Bool.false_eq_true, if_false, Bool.not_false,
                            if_true]
                          rw [reregister_watched _ watched']
                          trivial
              | count nbytes =>
                  simp only
                  split
                  · cases p.interest.isWritable with
                    | false => trivial
                    | true =>
                        simp only [if_true]
                        rw [reregister_watched _ watched']
                        trivial
                  · apply (ih _ sys' watched').mono _ fun _ => id
                    intro reason
                    exact Stopped.mono fun all other member => all other (List.mem_cons_of_mem _ member)

structure Tolerable (answers : Answers Outcome) : Prop where
  header : answers.header.tolerable = true
  data : answers.data.tolerable = true
  sends : ∀ choice ∈ answers.sends, choice.tolerable = true

theorem fill_stopped (choice : Outcome) (limit : Nat) (got : Bytes) (sys : Host)
    (watched : sys.watched fd = true) :
    Sat (Session.fill kernel.toKernel fd choice limit got sys)
      (Stopped (choice.tolerable = true)) (fun result => result.2.watched fd = true) := by
  have watched' := (recv_watched choice (limit - got.length) sys).trans watched
  rw [Session.fill]
  cases received : recv choice fd (limit - got.length) sys with
  | mk result sys' =>
      have received' : kernel.recv choice fd (limit - got.length) sys = (result, sys') := received
      rw [received] at watched'
      rw [received']
      cases result with
      | count bytes => exact watched'
      | error errno =>
          simp only
          rw [recv_error received]
          cases choice.tolerable with
          | true => exact watched'
          | false => exact Or.inr ⟨rfl, by simp⟩

theorem recvAll_stopped (len : Nat) (choices : List Outcome) :
    ∀ (n : Nat) (buf : Bytes) (sys : Host), sys.watched fd = true →
      Sat (recvAll kernel.toKernel fd len choices n buf sys) (· = .pending)
        (fun result => result.2.2.watched fd = true) := by
  induction choices with
  | nil =>
      intro n buf sys watched
      rw [recvAll]
      split
      · rfl
      · exact watched
  | cons choice choices ih =>
      intro n buf sys watched
      rw [recvAll]
      split
      · have watched' := (recv_watched choice (len - n) sys).trans watched
        cases received : recv choice fd (len - n) sys with
        | mk result sys' =>
            have received' : kernel.recv choice fd (len - n) sys = (result, sys') := received
            rw [received] at watched'
            rw [received']
            cases result with
            | error errno =>
                simp only
                split
                · exact ih n buf sys' watched'
                · exact watched'
            | count bytes =>
                cases bytes with
                | nil => exact watched'
                | cons byte bytes => exact ih _ _ sys' watched'
      · exact watched

theorem readData_stopped (answers : Answers Outcome) (limits : Nat × Nat) (headerDone : Bool)
    (header data : Bytes) (p : Session) (sys : Host) (watched : sys.watched fd = true) :
    Sat (Session.readData kernel.toKernel fd this answers limits headerDone header data p sys)
      (Stopped (Tolerable answers)) (fun _ => True) := by
  have answered : ∀ (p : Session) (sys : Host), sys.watched fd = true →
      Sat (Session.sendReply kernel.toKernel fd this answers.sends (p, sys))
        (Stopped (Tolerable answers)) (fun _ => True) := by
    intro p sys watched
    apply (sendReply_stopped answers.sends p sys watched).mono _ fun _ => id
    intro reason
    exact Stopped.mono Tolerable.sends
  rw [Session.readData]
  split
  · exact answered _ sys watched
  · apply ((fill_stopped answers.data limits.2 data sys watched).mono
      (fun _ => Stopped.mono Tolerable.data) fun _ => id).bind
    intro result watched'
    obtain ⟨received, sys'⟩ := result
    cases received with
    | none => trivial
    | some got =>
        simp only
        split
        · exact answered _ sys' watched'
        · trivial

theorem readHeader_stopped (answers : Answers Outcome) (limits : Nat × Nat) (header data : Bytes)
    (p : Session) (sys : Host) (watched : sys.watched fd = true) :
    Sat (Session.readHeader kernel.toKernel fd this answers limits header data p sys)
      (Stopped (Tolerable answers)) (fun _ => True) := by
  rw [Session.readHeader]
  apply ((fill_stopped answers.header limits.1 header sys watched).mono
    (fun _ => Stopped.mono Tolerable.header) fun _ => id).bind
  intro result watched'
  obtain ⟨received, sys'⟩ := result
  cases received with
  | none =>
      simp only
      split
      · exact readData_stopped answers limits _ _ _ _ sys' watched'
      · trivial
  | some got =>
      simp only
      split
      · exact readData_stopped answers limits _ _ _ _ sys' watched'
      · trivial

theorem session_onRecvReady_stopped (stale : UInt8) (answers : Answers Outcome) (p : Session)
    (sys : Host) (watched : sys.watched fd = true) :
    Sat (Session.onRecvReady kernel.toKernel fd this stale answers (p, sys))
      (Stopped (Tolerable answers)) (fun _ => True) := by
  obtain ⟨limits, stage, interest⟩ := p
  rw [Session.onRecvReady]
  cases stage with
  | idle held =>
      apply ((recvAll_stopped 8 answers.recvs 0 _ sys watched).mono (fun _ => Or.inl)
        fun _ => id).bind
      intro result watched'
      obtain ⟨n, buf, sys'⟩ := result
      simp only
      split
      · trivial
      · exact readHeader_stopped answers _ [] [] _ sys' watched'
  | receiving headerDone header data =>
      cases limits with
      | none => cases headerDone <;> trivial
      | some limits =>
          cases headerDone with
          | false => exact readHeader_stopped answers limits header data _ sys watched
          | true => exact readData_stopped answers limits true header data _ sys watched
  | replying header data rest => trivial

end Stopping

end Host

end RpcBench.Socket
