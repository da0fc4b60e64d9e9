import RpcBench.Socket.Effects
import RpcBench.Socket.Refinement

/-! # Every handler call follows the frame reader

The handlers run in lock step with the session functions: `onRecvReady_agree`
and `onSendReady_agree` are the two results, built from one lemma per member
function of the endpoint. -/
set_option autoImplicit false

namespace RpcBench.Socket

open ByteList Fallible BwServerEndpoint

variable {σ ι : Type}

/-- A context and a session in the same state, since the handler was entered
with `ep₀` and `mem₀`. -/
structure Tracks (this : Token) (sock : RawFd) (ep₀ : BwServerEndpoint) (mem₀ : Memory)
    (s : Context σ) (ps : Session × σ) : Prop where
  this_eq : s.this = this
  sock_eq : s.ep.sock = sock
  sys_eq : s.sys = ps.2
  represents : Represents s.ep s.mem ps.1
  sound : ps.1.Sound
  footprint : Footprint ep₀ mem₀ s.ep s.mem

/-- The same in the middle of a call, while a frame is being received and the
phase that has just ended is not yet recorded in the session. -/
structure TracksFrame (this : Token) (sock : RawFd) (ep₀ : BwServerEndpoint) (mem₀ : Memory)
    (s : Context σ) (p : Session) (sys : σ) (headerLimit dataLimit : Nat)
    (headerDone : Bool) (header data : Bytes) : Prop where
  this_eq : s.this = this
  sock_eq : s.ep.sock = sock
  sys_eq : s.sys = sys
  interest : s.ep.interest = p.interest
  readable : p.interest.readable = true
  limits : p.limits = some (headerLimit, dataLimit)
  frame : ∃ headerPtr dataPtr, RepresentsFrame s.ep s.mem (.receiving headerDone header data)
    headerPtr headerLimit dataPtr dataLimit header data
  footprint : Footprint ep₀ mem₀ s.ep s.mem

section Frames

variable {this : Token} {sock : RawFd} {ep₀ : BwServerEndpoint} {mem₀ : Memory}
  {s : Context σ} {p : Session} {sys : σ} {headerLimit dataLimit : Nat}
  {headerDone : Bool} {header data : Bytes}

theorem TracksFrame.tracks
    (frame : TracksFrame this sock ep₀ mem₀ s p sys headerLimit dataLimit headerDone header data)
    (phase : header.length < headerLimit ∧ data = [] ∨
      header.length = headerLimit ∧ data.length < dataLimit)
    (done : headerDone = true → header.length = headerLimit) :
    Tracks this sock ep₀ mem₀ s ({ p with stage := .receiving headerDone header data }, sys) := by
  obtain ⟨headerPtr, dataPtr, rep⟩ := frame.frame
  refine ⟨frame.this_eq, frame.sock_eq, frame.sys_eq, ⟨frame.interest, ?_⟩, ?_, frame.footprint⟩
  · simp only [frame.limits]
    exact ⟨headerPtr, dataPtr, header, data, rfl, rep⟩
  · refine ⟨frame.readable, ?_⟩
    simp only [frame.limits]
    exact ⟨phase, done⟩

/-- The call of `recvInto` on one of the two views is one `fill`. -/
theorem recvInto_agree (kernel : Kernel σ ι) (choice : ι) (ptr limit : Nat) (got : Bytes)
    (holds : Holds s.mem ptr limit got) (small : limit < 2 ^ 32) :
    Agree
      (fun (left : Option Nat × Context σ) (right : Option Bytes × σ) =>
        left.2.this = s.this ∧ left.2.ep = s.ep ∧ left.2.sys = right.2 ∧
        left.2.mem.next = s.mem.next ∧ left.2.mem.stale = s.mem.stale ∧
        (∀ other, other ≠ ptr → left.2.mem.block other = s.mem.block other) ∧
        match left.1, right.1 with
        | none, none => left.2.mem = s.mem
        | some nbytes, some got' => ∃ bytes, got' = got ++ bytes ∧ nbytes = bytes.length ∧
            got'.length ≤ limit ∧ Holds left.2.mem ptr limit got'
        | _, _ => False)
      (recvInto kernel choice (viewOn ptr limit got.length) s)
      (Session.fill kernel s.ep.sock choice limit got s.sys) := by
  have gotLe := holds.length_le
  rw [recvInto, Session.fill, getRemainSize_viewOn ptr limit _ gotLe small]
  cases received : kernel.recv choice s.ep.sock (limit - got.length) s.sys with
  | mk result sys' =>
      cases result with
      | error errno =>
          cases blocked : lastErrorWouldBlock errno with
          | true =>
              simp only [blocked, if_true]
              exact ⟨rfl, rfl, rfl, rfl, rfl, fun _ _ => rfl, rfl⟩
          | false =>
              simp only [blocked]
              exact rfl
      | count bytes =>
          have bytesLe := kernel.recv_le _ _ _ _ _ _ received
          obtain ⟨mem', written, nextEq, staleEq, holds', others⟩ :=
            write_behind bytes holds (by omega)
          simp only [viewOn, written]
          refine ⟨rfl, rfl, rfl, nextEq, staleEq, others, bytes, rfl, rfl, ?_, holds'⟩
          rw [List.length_append]
          omega

end Frames

/-! ## Sending -/

theorem Represents.queue_eq {ep : BwServerEndpoint} {mem : Memory} {p : Session}
    (rep : Represents ep mem p) (quiet : ∀ header data rest, p.stage ≠ .replying header data rest) :
    ep.txQueue = [] := by
  have body := rep.body
  cases limits : p.limits with
  | none =>
      rw [limits] at body
      exact body.2.2.2.1
  | some pair =>
      rw [limits] at body
      obtain ⟨headerPtr, dataPtr, header, data, _, frame⟩ := body
      rw [frame.queue]
      cases stage : p.stage with
      | idle held => rfl
      | receiving headerDone header data => rfl
      | replying header data rest => exact absurd stage (quiet header data rest)

theorem Represents.noReply {ep : BwServerEndpoint} {mem : Memory} {p : Session}
    (rep : Represents ep mem p) : ep.replyBuffer = none := by
  have body := rep.body
  cases limits : p.limits with
  | none =>
      rw [limits] at body
      exact body.2.2.2.2.2.2.2
  | some pair =>
      rw [limits] at body
      obtain ⟨headerPtr, dataPtr, header, data, _, frame⟩ := body
      exact frame.noReply

section Sending

variable {this : Token} {sock : RawFd} {ep₀ : BwServerEndpoint} {mem₀ : Memory}

theorem onSendReady_quiet (kernel : Kernel σ ι) (choices : List ι) (s : Context σ)
    (empty : s.ep.txQueue = []) : onSendReady kernel choices s = .ok s := by
  cases choices <;> simp only [onSendReady, empty]

theorem Tracks.replying {s : Context σ} {p : Session} {sys : σ} {header data rest : Bytes}
    (tracks : Tracks this sock ep₀ mem₀ s (p, sys))
    (stage : p.stage = .replying header data rest) :
    ∃ headerPtr dataPtr headerLimit dataLimit, p.limits = some (headerLimit, dataLimit) ∧
      RepresentsFrame s.ep s.mem p.stage headerPtr headerLimit dataPtr dataLimit header data ∧
      header.length = headerLimit ∧ data.length = dataLimit ∧ rest <:+ header := by
  have body := tracks.represents.body
  have sound := tracks.sound.2
  cases limits : p.limits with
  | none => simp only [limits, stage] at sound
  | some pair =>
      obtain ⟨headerLimit, dataLimit⟩ := pair
      simp only [limits] at body
      simp only [stage, limits] at sound
      obtain ⟨headerPtr, dataPtr, header', data', frameEq, rep⟩ := body
      rw [stage] at frameEq
      cases Option.some.inj frameEq
      exact ⟨headerPtr, dataPtr, headerLimit, dataLimit, rfl, rep, sound⟩

theorem SameFrame.footprint {s s' : Context σ} (same : SameFrame s s')
    (before : Footprint ep₀ mem₀ s.ep s.mem) : Footprint ep₀ mem₀ s'.ep s'.mem := by
  rw [same.mem]
  refine before.trans (Footprint.of_blocks_eq ?_)
  rw [BwServerEndpoint.blocks, same.headerOwner, same.dataOwner, BwServerEndpoint.blocks]

theorem SameFrame.represents {s s' : Context σ} {stage stage' : Stage} {header data : Bytes}
    {headerPtr dataPtr headerLimit dataLimit : Nat} (same : SameFrame s s')
    (rep : RepresentsFrame s.ep s.mem stage headerPtr headerLimit dataPtr dataLimit header data)
    (state : s'.ep.state = stage'.state)
    (queue : s'.ep.txQueue = stage'.queue headerPtr headerLimit)
    (noReply : s'.ep.replyBuffer = none) :
    RepresentsFrame s'.ep s'.mem stage' headerPtr headerLimit dataPtr dataLimit header data := by
  refine ⟨same.headerOwner.trans rep.headerOwner, same.dataOwner.trans rep.dataOwner,
    rep.distinct, ?_, ?_, rep.headerSmall, rep.dataSmall, same.headerView.trans rep.headerView,
    same.dataView.trans rep.dataView, ?_, ?_, state, queue, noReply⟩ <;> rw [same.mem]
  · exact rep.headerOld
  · exact rep.dataOld
  · exact rep.headerHolds
  · exact rep.dataHolds

/-- Moving the queue and the state on, without touching buffers or memory. -/
theorem Tracks.restage {s : Context σ} (s' : Context σ) {p p' : Session} {sys : σ} {header data : Bytes}
    {headerPtr dataPtr headerLimit dataLimit : Nat}
    (tracks : Tracks this sock ep₀ mem₀ s (p, sys)) (same : SameFrame s s')
    (limits : p'.limits = some (headerLimit, dataLimit))
    (rep : RepresentsFrame s.ep s.mem p.stage headerPtr headerLimit dataPtr dataLimit header data)
    (interest : s'.ep.interest = p'.interest) (state : s'.ep.state = p'.stage.state)
    (queue : s'.ep.txQueue = p'.stage.queue headerPtr headerLimit)
    (noReply : s'.ep.replyBuffer = none)
    (frame : p'.stage.frame = some (header, data)) (sound : p'.Sound) :
    Tracks this sock ep₀ mem₀ s' (p', s'.sys) := by
  refine ⟨same.this.trans tracks.this_eq, same.sock.trans tracks.sock_eq, rfl, ⟨interest, ?_⟩,
    sound, same.footprint tracks.footprint⟩
  simp only [limits]
  exact ⟨headerPtr, dataPtr, header, data, frame, same.represents rep state queue noReply⟩

theorem onSendReady_agree (kernel : Kernel σ ι) (choices : List ι) :
    ∀ (s : Context σ) (ps : Session × σ), Tracks this sock ep₀ mem₀ s ps →
      Agree (Tracks this sock ep₀ mem₀) (onSendReady kernel choices s)
        (Session.sendReply kernel sock this choices ps) := by
  induction choices with
  | nil =>
      intro s ps tracks
      obtain ⟨p, sys⟩ := ps
      cases stage : p.stage with
      | idle held =>
          rw [onSendReady_quiet kernel [] s (tracks.represents.queue_eq (by simp [stage]))]
          simp only [Session.sendReply, stage]
          exact tracks
      | receiving headerDone header data =>
          rw [onSendReady_quiet kernel [] s (tracks.represents.queue_eq (by simp [stage]))]
          simp only [Session.sendReply, stage]
          exact tracks
      | replying header data rest =>
          obtain ⟨headerPtr, dataPtr, headerLimit, dataLimit, limits, rep, _⟩ :=
            tracks.replying stage
          have queue : s.ep.txQueue = _ := rep.queue
          simp only [stage, Stage.queue] at queue
          simp only [onSendReady, queue, Session.sendReply, stage]
          rfl
  | cons choice choices ih =>
      intro s ps tracks
      obtain ⟨p, sys⟩ := ps
      cases stage : p.stage with
      | idle held =>
          rw [onSendReady_quiet kernel _ s (tracks.represents.queue_eq (by simp [stage]))]
          simp only [Session.sendReply, stage]
          exact tracks
      | receiving headerDone header data =>
          rw [onSendReady_quiet kernel _ s (tracks.represents.queue_eq (by simp [stage]))]
          simp only [Session.sendReply, stage]
          exact tracks
      | replying header data rest =>
          obtain ⟨headerPtr, dataPtr, headerLimit, dataLimit, limits, rep, full, dataFull, suffix⟩ :=
            tracks.replying stage
          have queue : s.ep.txQueue = _ := rep.queue
          simp only [stage, Stage.queue] at queue
          have sysEq : s.sys = sys := tracks.sys_eq
          have bytesEq := remaining_viewOn rep.headerHolds full suffix rep.headerSmall
          obtain ⟨limits₀, stage₀, interest⟩ := p
          obtain rfl : s.ep.sock = sock := tracks.sock_eq
          obtain rfl : s.this = this := tracks.this_eq
          obtain rfl : s.ep.interest = interest := tracks.represents.interest
          obtain rfl : s.sys = sys := tracks.sys_eq
          simp only at stage limits
          subst stage limits
          have readable : s.ep.interest.readable = true := tracks.sound.1
          have suffixLe := suffix.length_le
          have small := rep.headerSmall
          rw [onSendReady, Session.sendReply]
          simp only [queue, deref, bytesEq, Option.elim, bind, Except.bind]
          cases sent : kernel.send choice s.ep.sock rest s.sys with
          | mk result sys' =>
              cases result with
              | error errno =>
                  cases blocked : lastErrorWouldBlock errno with
                  | false =>
                      simp only [blocked]
                      rfl
                  | true =>
                      cases writable : s.ep.interest.isWritable with
                      | true =>
                          simp only [blocked]
                          exact tracks.restage { s with sys := sys' }
                            ⟨rfl, rfl, rfl, rfl, rfl, rfl, rfl⟩ rfl rep rfl rep.state rep.queue
                            rep.noReply rfl tracks.sound
                      | false =>
                          simp only [blocked]
                          cases mod : reregister kernel s.ep.sock s.this
                              (s.ep.interest.add Interest.WRITABLE) sys' with
                          | error reason => exact rfl
                          | ok sys'' =>
                              refine tracks.restage _ ⟨rfl, rfl, rfl, rfl, rfl, rfl, rfl⟩ rfl rep rfl
                                rep.state rfl rep.noReply rfl ⟨?_, tracks.sound.2⟩
                              simpa using readable
              | count nbytes =>
                  have nbytesLe := kernel.send_le _ _ _ _ _ _ sent
                  have marked := markHandled_viewOn headerPtr headerLimit
                    (headerLimit - rest.length) nbytes (by omega) small
                  simp only [marked, isClear_viewOn]
                  by_cases complete : nbytes = rest.length
                  · have clear : headerLimit - rest.length + rest.length = headerLimit := by omega
                    simp only [complete, clear, decide_true, if_true]
                    cases writable : s.ep.interest.isWritable with
                    | false =>
                        simp only [Bool.false_eq_true, if_false]
                        rw [onSendReady_quiet kernel choices _ rfl]
                        refine tracks.restage _ ⟨rfl, rfl, rfl, rfl, rfl, rfl, rfl⟩ rfl rep rfl rfl rfl
                          rep.noReply rfl ?_
                        exact ⟨readable, full, dataFull⟩
                    | true =>
                        simp only [if_true]
                        cases mod : reregister kernel s.ep.sock s.this Interest.READABLE sys' with
                        | error reason => exact rfl
                        | ok sys'' =>
                            simp only
                            rw [onSendReady_quiet kernel choices _ rfl]
                            refine tracks.restage _ ⟨rfl, rfl, rfl, rfl, rfl, rfl, rfl⟩ rfl rep rfl rfl
                              rfl rep.noReply rfl ?_
                            exact ⟨rfl, full, dataFull⟩
                  · have unclear : ¬ headerLimit - rest.length + nbytes = headerLimit := by omega
                    simp only [unclear, complete, decide_false, Bool.false_eq_true, if_false]
                    apply ih
                    refine tracks.restage _ ⟨rfl, rfl, rfl, rfl, rfl, rfl, rfl⟩ rfl rep rfl rep.state ?_
                      rep.noReply rfl ⟨readable, full, dataFull, (List.drop_suffix _ _).trans suffix⟩
                    simp only [Stage.queue, List.length_drop]
                    congr 3
                    omega

end Sending

/-! ## Receiving -/

section Receiving

variable {this : Token} {sock : RawFd} {ep₀ : BwServerEndpoint} {mem₀ : Memory}
  {p : Session} {sys : σ} {headerLimit dataLimit : Nat} {headerDone : Bool} {header data : Bytes}

def dataBranch (kernel : Kernel σ ι) (answers : Answers ι) (s : Context σ) :
    Except Stop (Context σ) := do
  let (received, s) ← receiveData kernel answers.data s
  if !received then return s
  let (_, s) ← reply kernel answers.sends s
  return s

def headerBranch (kernel : Kernel σ ι) (answers : Answers ι) (s : Context σ) :
    Except Stop (Context σ) := do
  let (received, s) ← receiveHeader kernel answers.header s
  if !received then return s
  dataBranch kernel answers s

theorem reply_agree (kernel : Kernel σ ι) (choices : List ι) {s : Context σ} (s' : Context σ)
    (frame : TracksFrame this sock ep₀ mem₀ s p sys headerLimit dataLimit headerDone header data)
    (full : header.length = headerLimit) (dataFull : data.length = dataLimit)
    (same : SameFrame s s') (interest : s'.ep.interest = s.ep.interest)
    (queue : s'.ep.txQueue = [])
    (view : s'.ep.replyBuffer = s.ep.headerBuffer.map Buffer.ofBuffer) :
    Agree (Tracks this sock ep₀ mem₀)
      (reply kernel choices s' >>= fun result => .ok result.2)
      (Session.sendReply kernel sock this choices
        ({ p with stage := .replying header data header }, s'.sys)) := by
  obtain ⟨headerPtr, dataPtr, rep⟩ := frame.frame
  have viewEq : s'.ep.replyBuffer = some (viewOn headerPtr headerLimit 0) := by
    rw [view, rep.headerView]
    rfl
  let pushed : Context σ :=
    { s' with
      ep :=
        { s'.ep with
          txQueue := s'.ep.txQueue ++ [s'.ep.replyBuffer], replyBuffer := none, state := .REPLYING } }
  have samePushed : SameFrame s pushed :=
    ⟨same.this, same.mem, same.sock, same.headerOwner, same.dataOwner, same.headerView,
      same.dataView⟩
  have tracks : Tracks this sock ep₀ mem₀ pushed
      ({ p with stage := .replying header data header }, s'.sys) := by
    refine ⟨samePushed.this.trans frame.this_eq, samePushed.sock.trans frame.sock_eq, rfl,
      ⟨interest.trans frame.interest, ?_⟩, ?_, samePushed.footprint frame.footprint⟩
    · simp only [frame.limits]
      refine ⟨headerPtr, dataPtr, header, data, rfl, samePushed.represents rep rfl ?_ rfl⟩
      simp [pushed, queue, viewEq, Stage.queue, full]
    · refine ⟨frame.readable, ?_⟩
      simp only [frame.limits]
      exact ⟨full, dataFull, List.suffix_refl _⟩
  have agree := onSendReady_agree kernel choices pushed _ tracks
  have unfolded : (reply kernel choices s' >>= fun result => .ok result.2) =
      onSendReady kernel choices pushed := by
    change ((onSendReady kernel choices pushed >>= fun after => .ok (true, after)) >>=
      fun result => .ok result.2) = _
    cases onSendReady kernel choices pushed <;> rfl
  rw [unfolded]
  exact agree

theorem TracksFrame.blocked {s s' : Context σ}
    (frame : TracksFrame this sock ep₀ mem₀ s p sys headerLimit dataLimit headerDone header data)
    (this_eq : s'.this = s.this) (ep_eq : s'.ep = s.ep) (mem_eq : s'.mem = s.mem) :
    TracksFrame this sock ep₀ mem₀ s' p s'.sys headerLimit dataLimit headerDone header data := by
  obtain ⟨headerPtr, dataPtr, rep⟩ := frame.frame
  refine ⟨this_eq.trans frame.this_eq, by rw [ep_eq, frame.sock_eq], rfl,
    by rw [ep_eq, frame.interest], frame.readable, frame.limits, ⟨headerPtr, dataPtr, ?_⟩, ?_⟩
  · rw [ep_eq, mem_eq]
    exact rep
  · rw [ep_eq, mem_eq]
    exact frame.footprint

theorem TracksFrame.dataReceived {s s' : Context σ} {bytes : Bytes}
    (frame : TracksFrame this sock ep₀ mem₀ s p sys headerLimit dataLimit headerDone header data)
    (dataPtr : Nat) (dataView : s.ep.dataBuffer = some (viewOn dataPtr dataLimit data.length))
    (this_eq : s'.this = s.this) (ep_eq : s'.ep = s.ep)
    (next_eq : s'.mem.next = s.mem.next) (stale_eq : s'.mem.stale = s.mem.stale)
    (others : ∀ other, other ≠ dataPtr → s'.mem.block other = s.mem.block other)
    (holds : Holds s'.mem dataPtr dataLimit (data ++ bytes)) :
    TracksFrame this sock ep₀ mem₀
      { s' with
        ep :=
          { s'.ep with dataBuffer := some (viewOn dataPtr dataLimit (data ++ bytes).length) } }
      p s'.sys headerLimit dataLimit headerDone header (data ++ bytes) := by
  obtain ⟨headerPtr, dataPtr', rep⟩ := frame.frame
  obtain rfl : dataPtr' = dataPtr := by
    have views := rep.dataView.symm.trans dataView
    simpa [viewOn] using views
  refine ⟨this_eq.trans frame.this_eq, by simp [ep_eq, frame.sock_eq], rfl,
    by simp [ep_eq, frame.interest], frame.readable, frame.limits,
    ⟨headerPtr, dataPtr', ?_⟩, frame.footprint.trans ?_⟩
  · exact
      { headerOwner := by simp [ep_eq, rep.headerOwner]
        dataOwner := by simp [ep_eq, rep.dataOwner]
        distinct := rep.distinct
        headerOld := by simp [next_eq, rep.headerOld]
        dataOld := by simp [next_eq, rep.dataOld]
        headerSmall := rep.headerSmall
        dataSmall := rep.dataSmall
        headerView := by simp [ep_eq, rep.headerView]
        dataView := rfl
        headerHolds := rep.headerHolds.of_block_eq (others headerPtr rep.distinct)
        dataHolds := holds
        state := by simp [ep_eq, rep.state, Stage.state]
        queue := by simp [ep_eq, rep.queue, Stage.queue]
        noReply := by simp [ep_eq, rep.noReply] }
  · have mine : dataPtr' ∈ s.ep.blocks := by
      simp [BwServerEndpoint.blocks, rep.dataOwner, ownerOn]
    refine ⟨le_of_eq next_eq.symm, stale_eq, ?_, ?_⟩
    · intro ptr _ foreign
      exact others ptr (fun eq => foreign (eq ▸ mine))
    · intro ptr member
      exact Or.inl (by simpa [BwServerEndpoint.blocks, ep_eq] using member)

/-- Bytes received into the header view; a complete header moves the state on. -/
theorem TracksFrame.headerReceived {s s' : Context σ} {bytes : Bytes}
    (frame : TracksFrame this sock ep₀ mem₀ s p sys headerLimit dataLimit false header data)
    (headerPtr : Nat)
    (headerView : s.ep.headerBuffer = some (viewOn headerPtr headerLimit header.length))
    (this_eq : s'.this = s.this) (ep_eq : s'.ep = s.ep)
    (next_eq : s'.mem.next = s.mem.next) (stale_eq : s'.mem.stale = s.mem.stale)
    (others : ∀ other, other ≠ headerPtr → s'.mem.block other = s.mem.block other)
    (holds : Holds s'.mem headerPtr headerLimit (header ++ bytes)) :
    TracksFrame this sock ep₀ mem₀
      { s' with
        ep :=
          { s'.ep with
            headerBuffer := some (viewOn headerPtr headerLimit (header ++ bytes).length)
            state :=
              if (header ++ bytes).length = headerLimit then .HEADER_RECVED else s'.ep.state } }
      p s'.sys headerLimit dataLimit (decide ((header ++ bytes).length = headerLimit))
      (header ++ bytes) data := by
  obtain ⟨headerPtr', dataPtr, rep⟩ := frame.frame
  obtain rfl : headerPtr' = headerPtr := by
    have views := rep.headerView.symm.trans headerView
    simpa [viewOn] using views
  refine ⟨this_eq.trans frame.this_eq, by simp [ep_eq, frame.sock_eq], rfl,
    by simp [ep_eq, frame.interest], frame.readable, frame.limits,
    ⟨headerPtr', dataPtr, ?_⟩, frame.footprint.trans ?_⟩
  · exact
      { headerOwner := by simp [ep_eq, rep.headerOwner]
        dataOwner := by simp [ep_eq, rep.dataOwner]
        distinct := rep.distinct
        headerOld := by simp [next_eq, rep.headerOld]
        dataOld := by simp [next_eq, rep.dataOld]
        headerSmall := rep.headerSmall
        dataSmall := rep.dataSmall
        headerView := rfl
        dataView := by simp [ep_eq, rep.dataView]
        headerHolds := holds
        dataHolds := rep.dataHolds.of_block_eq (others dataPtr rep.distinct.symm)
        state := by simp [ep_eq, rep.state, Stage.state]
        queue := by simp [ep_eq, rep.queue, Stage.queue]
        noReply := by simp [ep_eq, rep.noReply] }
  · have mine : headerPtr' ∈ s.ep.blocks := by
      simp [BwServerEndpoint.blocks, rep.headerOwner, ownerOn]
    refine ⟨le_of_eq next_eq.symm, stale_eq, ?_, ?_⟩
    · intro ptr _ foreign
      exact others ptr (fun eq => foreign (eq ▸ mine))
    · intro ptr member
      exact Or.inl (by simpa [BwServerEndpoint.blocks, ep_eq] using member)

/-- `ReceiveData` behind its `Recv`, which returned `result`. -/
def dataTaken (buffer : Buffer) (result : Option Nat × Context σ) :
    Except Stop (Bool × Context σ) :=
  match result.1 with
  | none => .ok (buffer.isClear, result.2)
  | some nbytes => do
    let buffer := buffer.markHandled nbytes
    if buffer.isClear then
      let header ← deref result.2.ep.headerBuffer
      return (true,
        { result.2 with
          ep :=
            { result.2.ep with
              dataBuffer := some buffer
              state := .DATA_RECVED
              replyBuffer := some header.ofBuffer } })
    return (false, { result.2 with ep := { result.2.ep with dataBuffer := some buffer } })

/-- `ReceiveHeader` behind its `Recv`. -/
def headerTaken (buffer : Buffer) (result : Option Nat × Context σ) :
    Except Stop (Bool × Context σ) :=
  match result.1 with
  | none => .ok (buffer.isClear, result.2)
  | some nbytes =>
    let buffer := buffer.markHandled nbytes
    let state := if buffer.isClear then .HEADER_RECVED else result.2.ep.state
    .ok (buffer.isClear,
      { result.2 with ep := { result.2.ep with headerBuffer := some buffer, state } })

theorem dataBranch_agree (kernel : Kernel σ ι) (answers : Answers ι) {s : Context σ}
    (frame : TracksFrame this sock ep₀ mem₀ s p sys headerLimit dataLimit headerDone header data)
    (full : header.length = headerLimit) (missing : dataLimit = 0 ∨ data.length < dataLimit)
    (done : headerDone = true → header.length = headerLimit) :
    Agree (Tracks this sock ep₀ mem₀) (dataBranch kernel answers s)
      (Session.readData kernel sock this answers (headerLimit, dataLimit) headerDone header data p
        sys) := by
  obtain ⟨headerPtr, dataPtr, rep⟩ := frame.frame
  obtain rfl : s.sys = sys := frame.sys_eq
  obtain rfl : s.ep.sock = sock := frame.sock_eq
  have dataLe := rep.dataHolds.length_le
  have queue : s.ep.txQueue = [] := rep.queue
  by_cases zero : dataLimit = 0
  · have received : receiveData kernel answers.data s = .ok (true,
        { s with
          ep :=
            { s.ep with
              state := .DATA_RECVED, replyBuffer := some (viewOn headerPtr headerLimit 0) } }) := by
      simp only [receiveData, rep.dataView, rep.headerView, deref, viewOn, zero]
      rfl
    rw [dataBranch, received]
    simp only [Session.readData, zero, if_true]
    have agree := reply_agree kernel answers.sends
      { s with
        ep :=
          { s.ep with
            state := .DATA_RECVED, replyBuffer := some (viewOn headerPtr headerLimit 0) } }
      frame full (by omega) ⟨rfl, rfl, rfl, rfl, rfl, rfl, rfl⟩ rfl queue
      (by simp [rep.headerView, ofBuffer_viewOn])
    exact agree
  · have missing' : data.length < dataLimit := missing.resolve_left zero
    have unfolded : receiveData kernel answers.data s =
        recvInto kernel answers.data (viewOn dataPtr dataLimit data.length) s >>=
          dataTaken (viewOn dataPtr dataLimit data.length) := by
      simp only [receiveData, rep.dataView, deref, viewOn]
      simp only [bind, Except.bind, beq_iff_eq, zero, if_false]
      rfl
    rw [dataBranch, unfolded]
    simp only [Session.readData, zero, if_false, bind_assoc]
    refine Agree.bind (recvInto_agree kernel answers.data dataPtr dataLimit data rep.dataHolds
      rep.dataSmall) ?_
    intro result result' related
    obtain ⟨received, s'⟩ := result
    obtain ⟨got, sys'⟩ := result'
    obtain ⟨thisEq, epEq, sysEq, nextEq, staleEq, others, cases⟩ := related
    simp only at thisEq epEq sysEq nextEq staleEq others cases
    subst sysEq
    cases received with
    | none =>
        cases got with
        | some got => exact False.elim cases
        | none =>
            have unclear : (viewOn dataPtr dataLimit data.length).isClear = false := by
              rw [isClear_viewOn]
              exact decide_eq_false (by omega)
            have blocked := frame.blocked thisEq epEq cases
            simp only [dataTaken, unclear]
            exact blocked.tracks (Or.inr ⟨full, missing'⟩) done
    | some nbytes =>
        cases got with
        | none => exact False.elim cases
        | some got =>
            obtain ⟨bytes, rfl, rfl, gotLe, holds⟩ := cases
            have advanced := frame.dataReceived dataPtr rep.dataView thisEq epEq nextEq staleEq
              others holds
            have marked := markHandled_viewOn dataPtr dataLimit data.length bytes.length
              (by rw [List.length_append] at gotLe; exact gotLe) rep.dataSmall
            rw [← List.length_append] at marked
            simp only [dataTaken, marked, isClear_viewOn]
            by_cases complete : (data ++ bytes).length = dataLimit
            · have headerView : s'.ep.headerBuffer = some (viewOn headerPtr headerLimit header.length) :=
                by rw [epEq, rep.headerView]
              simp only [complete, decide_true, if_true, headerView, deref]
              rw [complete] at advanced
              exact reply_agree kernel answers.sends
                { s' with
                  ep :=
                    { s'.ep with
                      headerBuffer := some (viewOn headerPtr headerLimit header.length)
                      dataBuffer := some (viewOn dataPtr dataLimit dataLimit)
                      state := .DATA_RECVED
                      replyBuffer := some (viewOn headerPtr headerLimit 0) } }
                advanced full complete ⟨rfl, rfl, rfl, rfl, rfl, headerView.symm, rfl⟩ rfl
                (by simp [epEq, queue]) (by simp [headerView, ofBuffer_viewOn])
            · simp only [complete, decide_false, Bool.false_eq_true, if_false]
              exact advanced.tracks (Or.inr ⟨full, by omega⟩) done

theorem headerBranch_agree (kernel : Kernel σ ι) (answers : Answers ι) {s : Context σ}
    (frame : TracksFrame this sock ep₀ mem₀ s p sys headerLimit dataLimit false header data)
    (phase : header.length < headerLimit ∧ data = [] ∨
      header.length = headerLimit ∧ (dataLimit = 0 ∨ data.length < dataLimit)) :
    Agree (Tracks this sock ep₀ mem₀) (headerBranch kernel answers s)
      (Session.readHeader kernel sock this answers (headerLimit, dataLimit) header data p sys) := by
  obtain ⟨headerPtr, dataPtr, rep⟩ := frame.frame
  obtain rfl : s.sys = sys := frame.sys_eq
  obtain rfl : s.ep.sock = sock := frame.sock_eq
  have missing : dataLimit = 0 ∨ data.length < dataLimit := by
    rcases phase with ⟨_, rfl⟩ | ⟨_, missing⟩
    · simp only [List.length_nil]
      omega
    · exact missing
  have unfolded : receiveHeader kernel answers.header s =
      recvInto kernel answers.header (viewOn headerPtr headerLimit header.length) s >>=
        headerTaken (viewOn headerPtr headerLimit header.length) := by
    simp only [receiveHeader, rep.headerView, deref, bind, Except.bind]
    rfl
  rw [headerBranch, unfolded]
  simp only [Session.readHeader, bind_assoc]
  refine Agree.bind (recvInto_agree kernel answers.header headerPtr headerLimit header
    rep.headerHolds rep.headerSmall) ?_
  intro result result' related
  obtain ⟨received, s'⟩ := result
  obtain ⟨got, sys'⟩ := result'
  obtain ⟨thisEq, epEq, sysEq, nextEq, staleEq, others, cases⟩ := related
  simp only at thisEq epEq sysEq nextEq staleEq others cases
  subst sysEq
  cases received with
  | none =>
      cases got with
      | some got => exact False.elim cases
      | none =>
          have blocked := frame.blocked thisEq epEq cases
          have sockEq : s'.ep.sock = s.ep.sock := by rw [epEq]
          simp only [headerTaken, isClear_viewOn]
          by_cases full : header.length = headerLimit
          · simp only [full, decide_true, if_true]
            exact dataBranch_agree kernel answers blocked full missing (by simp)
          · simp only [full, decide_false, if_false]
            refine blocked.tracks (phase.imp_right fun ready => absurd ready.1 full) (by simp)
  | some nbytes =>
      cases got with
      | none => exact False.elim cases
      | some got =>
          obtain ⟨bytes, rfl, rfl, gotLe, holds⟩ := cases
          have advanced := frame.headerReceived headerPtr rep.headerView thisEq epEq nextEq staleEq
            others holds
          have marked := markHandled_viewOn headerPtr headerLimit header.length bytes.length
            (by rw [List.length_append] at gotLe; exact gotLe) rep.headerSmall
          rw [← List.length_append] at marked
          simp only [headerTaken, marked, isClear_viewOn, decide_eq_true_eq]
          by_cases complete : (header ++ bytes).length = headerLimit
          · simp only [complete, decide_true, if_true] at advanced ⊢
            exact dataBranch_agree kernel answers advanced complete missing (fun _ => complete)
          · simp only [complete, decide_false, if_false] at advanced ⊢
            refine advanced.tracks (Or.inl ⟨by omega, ?_⟩) (by simp)
            rcases phase with ⟨_, empty⟩ | ⟨full, _⟩
            · exact empty
            · rw [List.length_append] at gotLe complete
              omega

end Receiving

/-! ## The prefix -/

/-- An owner as a handler finds it: null, or an owned block of its recorded length. -/
def OwnerReady (mem : Memory) (owner : BufferPtr) : Prop :=
  ∀ buffer, owner = some buffer → ∃ ptr limit, buffer = ownerOn ptr limit ∧ limit < 2 ^ 32 ∧
    ptr < mem.next ∧ Holds mem ptr limit []

def grownLimit (owner : BufferPtr) (size : Nat) : Nat :=
  match owner with
  | none => size
  | some buffer => max buffer.msgLength size

theorem growOwner_spec (owner : BufferPtr) (size : Nat) (mem : Memory) (small : size < 2 ^ 32)
    (ready : OwnerReady mem owner) :
    ∃ ptr mem', growOwner owner size mem = (ownerOn ptr (grownLimit owner size), mem') ∧
      grownLimit owner size < 2 ^ 32 ∧ ptr < mem'.next ∧
      Holds mem' ptr (grownLimit owner size) [] ∧
      (ptr = mem.next ∨ ∃ buffer, owner = some buffer ∧ ptr = buffer.ptr) ∧
      mem.next ≤ mem'.next ∧ mem'.stale = mem.stale ∧
      ∀ other, other < mem.next → (∀ buffer, owner = some buffer → other ≠ buffer.ptr) →
        mem'.block other = mem.block other := by
  have allocHolds : Holds (mem.alloc size).2 mem.next size [] :=
    ⟨List.replicate size mem.stale, by simp [Memory.alloc], by simp, rfl⟩
  cases owner with
  | none =>
      refine ⟨mem.next, _, rfl, small, Nat.lt_succ_self _, allocHolds, Or.inl rfl,
        Nat.le_succ _, rfl, ?_⟩
      intro other old _
      exact Function.update_of_ne (by omega) _ _
  | some buffer =>
      obtain ⟨ptr, limit, rfl, limitSmall, ptrOld, holds⟩ := ready buffer rfl
      by_cases grows : limit < size
      · have limitEq : grownLimit (some (ownerOn ptr limit)) size = size := by
          simp only [grownLimit, ownerOn]
          omega
        rw [limitEq]
        refine ⟨mem.next, (mem.alloc size).2.free ptr, ?_, small, ?_, ?_, Or.inl rfl, ?_, ?_, ?_⟩
        · simp only [growOwner, ownerOn, grows, if_true]
          rfl
        · exact Nat.lt_succ_self _
        · refine allocHolds.of_block_eq ?_
          exact Function.update_of_ne (by omega) _ _
        · exact Nat.le_succ _
        · rfl
        · intro other old differs
          have differs' : other ≠ ptr := differs _ rfl
          have freed : ∀ block : Nat → Option Bytes,
              Function.update block ptr none other = block other :=
            fun block => Function.update_of_ne differs' _ _
          exact (freed _).trans (Function.update_of_ne (by omega) _ _)
      · have limitEq : grownLimit (some (ownerOn ptr limit)) size = limit := by
          simp only [grownLimit, ownerOn]
          omega
        rw [limitEq]
        refine ⟨ptr, mem, ?_, limitSmall, ptrOld, holds, Or.inr ⟨_, rfl, rfl⟩, le_refl _, rfl,
          fun _ _ _ => rfl⟩
        simp only [growOwner, ownerOn, grows, if_false]

theorem Represents.ownersReady {ep : BwServerEndpoint} {mem : Memory} {p : Session}
    (rep : Represents ep mem p) :
    OwnerReady mem ep.headerBufferOwner ∧ OwnerReady mem ep.dataBufferOwner ∧
      (∀ h d, ep.headerBufferOwner = some h → ep.dataBufferOwner = some d → h.ptr ≠ d.ptr) ∧
      ∀ prefixBytes, growLimits p.limits prefixBytes =
        (grownLimit ep.headerBufferOwner (fromLE (prefixBytes.take 4)),
          grownLimit ep.dataBufferOwner (fromLE ((prefixBytes.drop 4).take 4))) := by
  have body := rep.body
  cases limits : p.limits with
  | none =>
      rw [limits] at body
      obtain ⟨headerNone, dataNone, _⟩ := body
      rw [headerNone, dataNone]
      exact ⟨by simp [OwnerReady], by simp [OwnerReady], by simp, fun _ => rfl⟩
  | some pair =>
      obtain ⟨headerLimit, dataLimit⟩ := pair
      rw [limits] at body
      obtain ⟨headerPtr, dataPtr, header, data, _, frame⟩ := body
      rw [frame.headerOwner, frame.dataOwner]
      refine ⟨?_, ?_, ?_, fun _ => rfl⟩
      · intro buffer found
        cases Option.some.inj found
        exact ⟨headerPtr, headerLimit, rfl, frame.headerSmall, frame.headerOld,
          frame.headerHolds.nil⟩
      · intro buffer found
        cases Option.some.inj found
        exact ⟨dataPtr, dataLimit, rfl, frame.dataSmall, frame.dataOld, frame.dataHolds.nil⟩
      · intro h d hEq dEq
        cases Option.some.inj hEq
        cases Option.some.inj dEq
        exact frame.distinct

/-- `ReceiveMeta` with its eight bytes received. -/
def allocateFrame (prefixBytes : Bytes) (s : Context σ) (sys : σ) : Context σ :=
  let headerGrown := growOwner s.ep.headerBufferOwner (fromLE (prefixBytes.take 4)) s.mem
  let dataGrown :=
    growOwner s.ep.dataBufferOwner (fromLE ((prefixBytes.drop 4).take 4)) headerGrown.2
  { s with
    mem := dataGrown.2
    sys
    ep :=
      { s.ep with
        headerBufferOwner := some headerGrown.1
        dataBufferOwner := some dataGrown.1
        headerBuffer := some headerGrown.1.ofBuffer
        dataBuffer := some dataGrown.1.ofBuffer
        state := .META_RECVED } }

theorem fromLE_take_four_lt (bytes : Bytes) : fromLE (bytes.take 4) < 2 ^ 32 := by
  have bound := fromLE_lt (bytes.take 4)
  have lengthLe : (bytes.take 4).length ≤ 4 := by simp
  have bigger : 256 ^ (bytes.take 4).length ≤ 256 ^ 4 := Nat.pow_le_pow_right (by omega) lengthLe
  omega

/-- Both owners are grown to the limits of the new frame, both views are new. -/
theorem allocateFrame_tracks {this : Token} {sock : RawFd} {ep₀ : BwServerEndpoint}
    {mem₀ : Memory} {s : Context σ} {p : Session} {sys : σ} (prefixBytes : Bytes) (sys' : σ)
    (tracks : Tracks this sock ep₀ mem₀ s (p, sys)) (idle : s.ep.txQueue = []) :
    TracksFrame this sock ep₀ mem₀ (allocateFrame prefixBytes s sys')
      { p with limits := some (growLimits p.limits prefixBytes) } sys'
      (growLimits p.limits prefixBytes).1 (growLimits p.limits prefixBytes).2 false [] [] := by
  obtain ⟨headerReady, dataReady, distinct, limitsEq⟩ := tracks.represents.ownersReady
  obtain ⟨headerPtr, mem₁, headerGrown, headerSmall, headerOld, headerHolds, headerNew, grows₁,
    stale₁, others₁⟩ := growOwner_spec s.ep.headerBufferOwner (fromLE (prefixBytes.take 4)) s.mem
      (fromLE_take_four_lt _) headerReady
  have dataReady₁ : OwnerReady mem₁ s.ep.dataBufferOwner := by
    intro buffer found
    obtain ⟨ptr, limit, rfl, small, old, holds⟩ := dataReady buffer found
    refine ⟨ptr, limit, rfl, small, by omega, holds.of_block_eq (others₁ ptr old ?_)⟩
    intro headerBuffer headerFound
    exact fun eq => distinct headerBuffer _ headerFound found eq.symm
  obtain ⟨dataPtr, mem₂, dataGrown, dataSmall, dataOld, dataHolds, dataNew, grows₂, stale₂,
    others₂⟩ := growOwner_spec s.ep.dataBufferOwner (fromLE ((prefixBytes.drop 4).take 4)) mem₁
      (fromLE_take_four_lt _) dataReady₁
  have headerKept : mem₂.block headerPtr = mem₁.block headerPtr := by
    refine others₂ headerPtr headerOld ?_
    intro buffer found
    rcases headerNew with fresh | ⟨headerBuffer, headerFound, samePtr⟩
    · obtain ⟨ptr, limit, rfl, _, old, _⟩ := dataReady buffer found
      rw [fresh]
      exact fun eq => absurd old (by simp [ownerOn] at eq; omega)
    · rw [samePtr]
      exact distinct headerBuffer buffer headerFound found
  have dataNotHeader : headerPtr ≠ dataPtr := by
    rcases dataNew with fresh | ⟨buffer, found, samePtr⟩
    · omega
    · rw [samePtr]
      intro eq
      rcases headerNew with headerFresh | ⟨headerBuffer, headerFound, headerSame⟩
      · obtain ⟨ptr, limit, rfl, _, old, _⟩ := dataReady buffer found
        simp only [ownerOn] at eq
        omega
      · exact distinct headerBuffer buffer headerFound found (headerSame.symm.trans eq)
  have mineHeader : ∀ buffer, s.ep.headerBufferOwner = some buffer → buffer.ptr ∈ s.ep.blocks := by
    intro buffer found
    simp [BwServerEndpoint.blocks, found]
  have mineData : ∀ buffer, s.ep.dataBufferOwner = some buffer → buffer.ptr ∈ s.ep.blocks := by
    intro buffer found
    simp [BwServerEndpoint.blocks, found]
  have after : allocateFrame prefixBytes s sys' =
      { s with
        mem := mem₂
        sys := sys'
        ep :=
          { s.ep with
            headerBufferOwner := some (ownerOn headerPtr (growLimits p.limits prefixBytes).1)
            dataBufferOwner := some (ownerOn dataPtr (growLimits p.limits prefixBytes).2)
            headerBuffer := some (viewOn headerPtr (growLimits p.limits prefixBytes).1 0)
            dataBuffer := some (viewOn dataPtr (growLimits p.limits prefixBytes).2 0)
            state := .META_RECVED } } := by
    simp only [allocateFrame, headerGrown, dataGrown, limitsEq, ofBuffer_ownerOn]
  rw [after]
  refine ⟨tracks.this_eq, tracks.sock_eq, rfl, tracks.represents.interest, tracks.sound.1, rfl,
    ⟨headerPtr, dataPtr, ?_⟩, tracks.footprint.trans ?_⟩
  · simp only [limitsEq]
    exact
      { headerOwner := rfl
        dataOwner := rfl
        distinct := dataNotHeader
        headerOld := by omega
        dataOld := dataOld
        headerSmall := headerSmall
        dataSmall := dataSmall
        headerView := rfl
        dataView := rfl
        headerHolds := headerHolds.of_block_eq headerKept
        dataHolds := dataHolds
        state := rfl
        queue := idle
        noReply := tracks.represents.noReply }
  · refine ⟨le_trans grows₁ grows₂, stale₂.trans stale₁, ?_, ?_⟩
    · intro ptr old foreign
      rw [others₂ ptr (by omega) fun buffer found eq => foreign (eq ▸ mineData buffer found)]
      exact others₁ ptr old fun buffer found eq => foreign (eq ▸ mineHeader buffer found)
    · intro ptr member
      have owned : ptr = headerPtr ∨ ptr = dataPtr := by
        simpa [BwServerEndpoint.blocks, ownerOn] using member
      rcases owned with rfl | rfl
      · rcases headerNew with fresh | ⟨buffer, found, samePtr⟩
        · exact Or.inr (le_of_eq fresh.symm)
        · exact Or.inl (samePtr ▸ mineHeader buffer found)
      · rcases dataNew with fresh | ⟨buffer, found, samePtr⟩
        · exact Or.inr (by omega)
        · exact Or.inl (samePtr ▸ mineData buffer found)

/-! ## `OnRecvReady` -/

theorem onRecvReady_agree {this : Token} {sock : RawFd} {ep₀ : BwServerEndpoint} {mem₀ : Memory}
    (kernel : Kernel σ ι) (answers : Answers ι) {s : Context σ} {ps : Session × σ}
    (tracks : Tracks this sock ep₀ mem₀ s ps) :
    Agree (Tracks this sock ep₀ mem₀) (onRecvReady kernel answers s)
      (Session.onRecvReady kernel sock this s.mem.stale answers ps) := by
  obtain ⟨p, sys⟩ := ps
  have body := tracks.represents.body
  have sound := tracks.sound.2
  obtain ⟨limits, stage, interest⟩ := p
  cases stage with
  | idle held =>
      have state : s.ep.state = .NEW_RPC := tracks.represents.state_eq
      have queue : s.ep.txQueue = [] := tracks.represents.queue_eq (by simp)
      have unfolded : onRecvReady kernel answers s =
          recvAll kernel s.ep.sock 8 answers.recvs 0 (List.replicate 8 s.mem.stale) s.sys >>=
            fun result =>
              if result.1 < 8 then .ok { s with sys := result.2.2 }
              else headerBranch kernel answers (allocateFrame result.2.1 s result.2.2) := by
        simp only [onRecvReady, state, receiveMeta, bind_assoc]
        refine bind_congr ?_
        intro result
        obtain ⟨nbytes, prefixBytes, sys'⟩ := result
        by_cases short : nbytes < 8
        · simp only [short, if_true]
          rfl
        · simp only [short, if_false]
          rfl
      rw [unfolded]
      simp only [Session.onRecvReady, tracks.sock_eq, tracks.sys_eq]
      refine (Agree.refl _).bind ?_
      intro result _ same
      obtain ⟨nbytes, prefixBytes, sys'⟩ := result
      subst same
      by_cases short : nbytes < 8
      · simp only [short, if_true]
        exact ⟨tracks.this_eq, tracks.sock_eq, rfl, tracks.represents, tracks.sound,
          tracks.footprint⟩
      · simp only [short, if_false]
        have frame := allocateFrame_tracks prefixBytes sys' tracks queue
        refine headerBranch_agree kernel answers frame ?_
        simp only [List.length_nil, and_true]
        omega
  | receiving headerDone header data =>
      cases limits with
      | none => exact False.elim sound
      | some pair =>
          obtain ⟨headerLimit, dataLimit⟩ := pair
          obtain ⟨headerPtr, dataPtr, header', data', frameEq, rep⟩ := body
          cases Option.some.inj frameEq
          obtain ⟨phase, done⟩ := sound
          have frame : TracksFrame this sock ep₀ mem₀ s
              ⟨some (headerLimit, dataLimit), .receiving headerDone header data, interest⟩ sys
              headerLimit dataLimit headerDone header data :=
            ⟨tracks.this_eq, tracks.sock_eq, tracks.sys_eq, tracks.represents.interest,
              tracks.sound.1, rfl, ⟨headerPtr, dataPtr, rep⟩, tracks.footprint⟩
          cases headerDone with
          | false =>
              have unfolded : onRecvReady kernel answers s = headerBranch kernel answers s := by
                simp only [onRecvReady, rep.state, Stage.state]
                rfl
              rw [unfolded]
              exact headerBranch_agree kernel answers frame
                (phase.imp_right fun ready => ⟨ready.1, Or.inr ready.2⟩)
          | true =>
              have unfolded : onRecvReady kernel answers s = dataBranch kernel answers s := by
                simp only [onRecvReady, rep.state, Stage.state]
                rfl
              rw [unfolded]
              have full := done rfl
              refine dataBranch_agree kernel answers frame full (Or.inr ?_) done
              rcases phase with partly | ready
              · omega
              · exact ready.2
  | replying header data rest =>
      cases limits with
      | none => exact False.elim sound
      | some pair =>
          obtain ⟨_, _, _, _, _, rep⟩ := body
          have unfolded : onRecvReady kernel answers s = .ok s := by
            simp only [onRecvReady, rep.state, Stage.state]
            rfl
          rw [unfolded]
          exact tracks

end RpcBench.Socket
