import RpcBench.Socket.Stream

/-! # The representation invariant of a live endpoint

State, queue, views, owners and registered interest as one structure, for an
endpoint between two handler calls. -/
set_option autoImplicit false

namespace RpcBench.Socket

open ByteList Fallible BwServerEndpoint

variable {σ ι : Type}

/-- The view has handled no more than its message, its message fits its size,
and it covers exactly the allocated memory of `owner`. -/
structure ViewOf (mem : Memory) (owner : BufferPtr) (view : Buffer) : Prop where
  handled : view.bytesHandled ≤ view.msgLength
  fits : view.msgLength ≤ view.size
  remain : view.getRemainSize = view.msgLength - view.bytesHandled
  inside : ∃ buffer content, owner = some buffer ∧ buffer.isOwner = true ∧
    view.ptr = buffer.ptr ∧ view.size = buffer.size ∧
    mem.block buffer.ptr = some content ∧ content.length = buffer.size

/-- What a queued view has still to send is the rest of the header bytes that
came in last, in front of the payload. -/
def SendsReceived (consumed : Bytes) (mem : Memory) (ep : BwServerEndpoint) (view : Buffer) :
    Prop :=
  ∃ before prefixBytes header data rest headerOwner dataOwner,
    consumed = before ++ (prefixBytes ++ header ++ data) ∧ prefixBytes.length = 8 ∧
    ep.headerBufferOwner = some headerOwner ∧ header.length = headerOwner.msgLength ∧
    ep.dataBufferOwner = some dataOwner ∧ data.length = dataOwner.msgLength ∧
    view.remaining mem = some rest ∧ rest <:+ header

structure WellFormed (history : History) (s : Context σ) : Prop where
  queueShort : s.ep.txQueue.length ≤ 1
  queue_iff : s.ep.txQueue ≠ [] ↔ s.ep.state = .REPLYING
  notDataRecved : s.ep.state ≠ .DATA_RECVED
  headerView : ∀ view, s.ep.headerBuffer = some view →
    ViewOf s.mem s.ep.headerBufferOwner view
  dataView : ∀ view, s.ep.dataBuffer = some view → ViewOf s.mem s.ep.dataBufferOwner view
  replyView : s.ep.replyBuffer = none
  queueView : ∀ entry ∈ s.ep.txQueue, ∃ view, entry = some view ∧
    ViewOf s.mem s.ep.headerBufferOwner view ∧ SendsReceived history.consumed s.mem s.ep view
  registered : history.registered = some (registration s.this s.ep.interest)
  writable : s.ep.txQueue ≠ [] → s.ep.interest.isWritable = true

theorem viewOn_viewOf {mem : Memory} {ptr limit handled : Nat} {known : Bytes}
    (holds : Holds mem ptr limit known) (fits : handled ≤ limit) (small : limit < 2 ^ 32) :
    ViewOf mem (some (ownerOn ptr limit)) (viewOn ptr limit handled) := by
  obtain ⟨content, found, lengthEq, _⟩ := holds
  exact ⟨fits, le_refl _, getRemainSize_viewOn ptr limit handled fits small,
    ownerOn ptr limit, content, rfl, rfl, rfl, rfl, found, lengthEq⟩

theorem Stage.queue_ne_nil (stage : Stage) (ptr limit : Nat) :
    stage.queue ptr limit ≠ [] ↔ stage.state = .REPLYING := by
  cases stage with
  | idle held => simp [Stage.queue, Stage.state]
  | receiving headerDone header data => cases headerDone <;> simp [Stage.queue, Stage.state]
  | replying header data rest => simp [Stage.queue, Stage.state]

theorem Stage.state_ne_dataRecved (stage : Stage) : stage.state ≠ .DATA_RECVED := by
  cases stage with
  | idle held => simp [Stage.state]
  | receiving headerDone header data => cases headerDone <;> simp [Stage.state]
  | replying header data rest => simp [Stage.state]

theorem Stage.queue_length (stage : Stage) (ptr limit : Nat) :
    (stage.queue ptr limit).length ≤ 1 := by
  cases stage <;> simp [Stage.queue]

theorem Live.wellFormed {kernel : Kernel σ ι} {wire : Wire kernel} {this : Token} {sock : RawFd}
    {s : Context σ} {p : Session} (live : Live wire this sock s p) :
    WellFormed (wire.history s.sys) s := by
  have rep := live.tracks.represents
  have body := rep.body
  have registered : (wire.history s.sys).registered = some (registration s.this s.ep.interest) := by
    rw [live.tracks.this_eq, rep.interest]
    exact live.settled.1.registered
  cases limitsEq : p.limits with
  | none =>
      rw [limitsEq] at body
      obtain ⟨headerOwner, dataOwner, state, queue, stage, headerView, dataView, replyView⟩ := body
      have idle : s.ep.state = .NEW_RPC := by rw [state, stage]; rfl
      exact
        { queueShort := by simp [queue]
          queue_iff := by simp [queue, idle]
          notDataRecved := by simp [idle]
          headerView := by simp [headerView]
          dataView := by simp [dataView]
          replyView := replyView
          queueView := by simp [queue]
          registered := registered
          writable := by simp [queue] }
  | some limits =>
      rw [limitsEq] at body
      obtain ⟨headerPtr, dataPtr, header, data, frameEq, frame⟩ := body
      refine
        { queueShort := frame.queue ▸ Stage.queue_length _ _ _
          queue_iff := by rw [frame.queue, frame.state]; exact Stage.queue_ne_nil _ _ _
          notDataRecved := by rw [frame.state]; exact Stage.state_ne_dataRecved _
          headerView := ?_
          dataView := ?_
          replyView := frame.noReply
          queueView := ?_
          registered := registered
          writable := ?_ }
      · intro view found
        cases Option.some.inj (frame.headerView.symm.trans found)
        rw [frame.headerOwner]
        exact viewOn_viewOf frame.headerHolds frame.headerHolds.length_le frame.headerSmall
      · intro view found
        cases Option.some.inj (frame.dataView.symm.trans found)
        rw [frame.dataOwner]
        exact viewOn_viewOf frame.dataHolds frame.dataHolds.length_le frame.dataSmall
      · intro entry member
        rw [frame.queue] at member
        cases stage : p.stage with
        | idle held => simp [stage, Stage.queue] at member
        | receiving headerDone header' data' => simp [stage, Stage.queue] at member
        | replying header' data' rest =>
            rw [stage] at frameEq
            cases Option.some.inj frameEq
            obtain ⟨full, dataFull, suffix⟩ := live.tracks.sound.replying stage limitsEq
            have traffic := live.settled.1.traffic
            simp only [Traffic, stage] at traffic
            obtain ⟨earlier, limits₀, prefixBytes, replies, openFrame, _, _⟩ := traffic
            simp only [stage, Stage.queue, List.mem_singleton] at member
            refine ⟨_, member, ?_, ?_⟩
            · rw [frame.headerOwner]
              exact viewOn_viewOf frame.headerHolds (Nat.sub_le _ _) frame.headerSmall
            · exact ⟨earlier, prefixBytes, header, data, rest, _, _, openFrame.consumed_eq,
                openFrame.prefixFull, frame.headerOwner, full, frame.dataOwner, dataFull,
                remaining_viewOn frame.headerHolds full suffix frame.headerSmall, suffix⟩
      · intro queued
        have replying : p.stage.state = .REPLYING := by
          rw [frame.queue] at queued
          exact (Stage.queue_ne_nil _ _ _).mp queued
        cases stage : p.stage with
        | idle held => simp [stage, Stage.state] at replying
        | receiving headerDone header' data' =>
            cases headerDone <;> simp [stage, Stage.state] at replying
        | replying header' data' rest =>
            rw [rep.interest]
            exact live.settled.2 header' data' rest stage

theorem handle_queued (kernel : Kernel σ ι) {s : Context σ} (replying : s.ep.state = .REPLYING)
    (call : Call ι) :
    Sat (handle kernel s call) (fun _ => True)
      (fun s' => s'.ep.headerBufferOwner = s.ep.headerBufferOwner ∧
        s'.ep.dataBufferOwner = s.ep.dataBufferOwner ∧ s'.mem = s.mem) := by
  cases call with
  | recvReady answers =>
      have unfolded : onRecvReady kernel answers s = .ok s := by
        simp only [onRecvReady, replying]
        rfl
      rw [handle, unfolded]
      exact ⟨rfl, rfl, rfl⟩
  | sendReady choices =>
      exact (onSendReady_sameFrame kernel choices s).mono (fun _ => id)
        fun s' same => ⟨same.headerOwner, same.dataOwner, same.mem⟩

/-- After any handler calls with any portions and would-blocks the endpoint is
well formed, and while a reply is queued the next call replaces no owner and
writes no memory. -/
theorem wellFormed_after_calls (this : Token) (fd : RawFd) (mem : Memory) (stream : Bytes)
    (ended : Bool) (calls : List (Call (Option Nat))) :
    Sat (calls.foldlM (handle Stream.kernel.toKernel)
        (Stream.accepted this fd mem stream ended)) (· = .pending)
      (fun s => WellFormed s.sys.history s ∧
        ∀ call, Sat (handle Stream.kernel.toKernel s call) (· = .pending)
          (fun s' => s.ep.txQueue ≠ [] →
            s'.ep.headerBufferOwner = s.ep.headerBufferOwner ∧
            s'.ep.dataBufferOwner = s.ep.dataBufferOwner ∧ s'.mem = s.mem)) := by
  refine (Stream.calls_running this fd mem stream ended calls).mono (fun _ => id) ?_
  intro s running
  have wellFormed : WellFormed s.sys.history s := by
    obtain ⟨p, live⟩ := running.live
    exact live.wellFormed
  refine ⟨wellFormed, fun call => ?_⟩
  by_cases replying : s.ep.state = .REPLYING
  · refine ((Stream.handle_running running call).and (handle_queued _ replying call)).mono
      (fun _ both => both.1) ?_
    intro s' both _
    exact both.2
  · refine (Stream.handle_running running call).mono (fun _ => id) ?_
    intro s' _ queued
    exact absurd (wellFormed.queue_iff.mp queued) replying

end RpcBench.Socket
