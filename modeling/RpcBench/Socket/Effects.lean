import RpcBench.Socket.Endpoint

/-! # What a handler call can touch

Sending leaves owners, views and memory alone, and the kernel is reached only
through `recv` and `send` on the endpoint's own socket and `Reregister` with
its own token: whatever these three keep, every handler call keeps. -/
set_option autoImplicit false

namespace RpcBench.Socket

open ByteList Fallible BwServerEndpoint

variable {σ ι : Type}

/-! ## The send loop -/

/-- What the send loop keeps: anything kept by one `send`, by moving the queue
on and by one `Reregister`. -/
theorem onSendReady_rule (kernel : Kernel σ ι) (Inv : Context σ → Prop)
    (send : ∀ choice bytes s, Inv s →
      Inv { s with sys := (kernel.send choice s.ep.sock bytes s.sys).2 })
    (queue : ∀ txQueue state s, Inv s → Inv { s with ep := { s.ep with txQueue, state } })
    (mod : ∀ interest sys s, Inv s →
      kernel.epollCtlMod s.ep.sock (registration s.this interest) s.sys = some sys →
      Inv { s with sys, ep := { s.ep with interest } })
    (choices : List ι) :
    ∀ s : Context σ, Inv s → Sat (onSendReady kernel choices s) (fun _ => True) Inv := by
  have modify : ∀ interest s, Inv s → Sat (reregister kernel s.ep.sock s.this interest s.sys)
      (fun _ => True) (fun sys => Inv { s with sys, ep := { s.ep with interest } }) := by
    intro interest s holds
    rw [reregister]
    cases moved : kernel.epollCtlMod s.ep.sock (registration s.this interest) s.sys with
    | none => trivial
    | some sys => exact mod interest sys s holds moved
  induction choices with
  | nil =>
      intro s holds
      cases queueEq : s.ep.txQueue with
      | nil =>
          simp only [onSendReady, queueEq]
          exact holds
      | cons front rest =>
          simp only [onSendReady, queueEq]
          trivial
  | cons choice choices ih =>
      intro s holds
      cases queueEq : s.ep.txQueue with
      | nil =>
          simp only [onSendReady, queueEq]
          exact holds
      | cons front rest =>
          obtain ⟨this, ⟨sock, interest, txQueue, headerOwner, dataOwner, headerBuffer, dataBuffer,
            replyBuffer, state⟩, mem, sys₀⟩ := s
          simp only at queueEq
          subst queueEq
          rw [onSendReady]
          refine (Sat.any (deref front)).bind fun buffer _ => ?_
          refine (Sat.any _).bind fun bytes _ => ?_
          have holds' := send choice bytes _ holds
          cases sent : kernel.send choice sock bytes sys₀ with
          | mk result sys =>
              simp only [sent] at holds'
              cases result with
              | error errno =>
                  simp only
                  split
                  · trivial
                  · split
                    · refine (modify (interest.add Interest.WRITABLE) _ holds').bind ?_
                      intro sys' after
                      exact after
                    · exact holds'
              | count nbytes =>
                  simp only
                  split
                  · have popped := queue rest .NEW_RPC _ holds'
                    split
                    · refine (modify Interest.READABLE _ popped).bind ?_
                      intro sys' after
                      exact ih _ after
                    · exact ih _ popped
                  · exact ih _ (queue (some (buffer.markHandled nbytes) :: rest) state _ holds')

structure SameFrame (s s' : Context σ) : Prop where
  this : s'.this = s.this
  mem : s'.mem = s.mem
  sock : s'.ep.sock = s.ep.sock
  headerOwner : s'.ep.headerBufferOwner = s.ep.headerBufferOwner
  dataOwner : s'.ep.dataBufferOwner = s.ep.dataBufferOwner
  headerView : s'.ep.headerBuffer = s.ep.headerBuffer
  dataView : s'.ep.dataBuffer = s.ep.dataBuffer

theorem onSendReady_sameFrame (kernel : Kernel σ ι) (choices : List ι) (s : Context σ) :
    Sat (onSendReady kernel choices s) (fun _ => True) (SameFrame s) := by
  refine onSendReady_rule kernel (SameFrame s) ?_ ?_ ?_ choices s
    ⟨rfl, rfl, rfl, rfl, rfl, rfl, rfl⟩
  · intro _ _ s' same
    exact ⟨same.this, same.mem, same.sock, same.headerOwner, same.dataOwner, same.headerView,
      same.dataView⟩
  · intro _ _ s' same
    exact ⟨same.this, same.mem, same.sock, same.headerOwner, same.dataOwner, same.headerView,
      same.dataView⟩
  · intro _ _ s' same _
    exact ⟨same.this, same.mem, same.sock, same.headerOwner, same.dataOwner, same.headerView,
      same.dataView⟩

/-! ## The kernel -/

/-- `Inv`, of the endpoint's interest and the kernel state, is kept by every
system call of the endpoint with this token and socket. -/
structure Keeps (kernel : Kernel σ ι) (this : Token) (fd : RawFd) (Inv : Interest → σ → Prop) :
    Prop where
  recv : ∀ choice len interest sys, Inv interest sys →
    Inv interest (kernel.recv choice fd len sys).2
  send : ∀ choice bytes interest sys, Inv interest sys →
    Inv interest (kernel.send choice fd bytes sys).2
  mod : ∀ interest interest' sys sys', Inv interest sys →
    kernel.epollCtlMod fd (registration this interest') sys = some sys' → Inv interest' sys'

/-- The kernel state satisfies `Inv`, and the object has its token and socket. -/
structure Kept (this : Token) (fd : RawFd) (Inv : Interest → σ → Prop) (s : Context σ) : Prop where
  this_eq : s.this = this
  sock_eq : s.ep.sock = fd
  inv : Inv s.ep.interest s.sys

section Keeping

variable {kernel : Kernel σ ι} {this : Token} {fd : RawFd} {Inv : Interest → σ → Prop}

theorem recvAll_kept (keeps : Keeps kernel this fd Inv) (interest : Interest) (len : Nat)
    (choices : List ι) :
    ∀ (n : Nat) (buf : Bytes) (sys : σ), Inv interest sys →
      Sat (recvAll kernel fd len choices n buf sys) (fun _ => True)
        (fun result => Inv interest result.2.2) := by
  induction choices with
  | nil =>
      intro n buf sys inv
      by_cases more : n < len
      · simp only [recvAll, if_pos more]
        trivial
      · simp only [recvAll, if_neg more]
        exact inv
  | cons choice choices ih =>
      intro n buf sys inv
      by_cases more : n < len
      · simp only [recvAll, if_pos more]
        have inv' := keeps.recv choice (len - n) interest sys inv
        cases received : kernel.recv choice fd (len - n) sys with
        | mk result sys' =>
            rw [received] at inv'
            cases result with
            | error errno =>
                simp only
                split
                · exact ih n buf sys' inv'
                · exact inv'
            | count bytes =>
                cases bytes with
                | nil => exact inv'
                | cons byte bytes => exact ih _ _ sys' inv'
      · simp only [recvAll, if_neg more]
        exact inv

theorem recvInto_kept (keeps : Keeps kernel this fd Inv) (choice : ι) (buffer : Buffer)
    (s : Context σ) (kept : Kept this fd Inv s) :
    Sat (recvInto kernel choice buffer s) (fun _ => True)
      (fun result => Kept this fd Inv result.2) := by
  obtain ⟨thisEq, sockEq, inv⟩ := kept
  rw [recvInto, sockEq]
  have inv' := keeps.recv choice buffer.getRemainSize s.ep.interest s.sys inv
  cases received : kernel.recv choice fd buffer.getRemainSize s.sys with
  | mk result sys' =>
      rw [received] at inv'
      cases result with
      | error errno =>
          simp only
          split
          · exact ⟨thisEq, sockEq, inv'⟩
          · trivial
      | count bytes =>
          simp only
          cases s.mem.write buffer.ptr buffer.bytesHandled bytes with
          | none => trivial
          | some mem => exact ⟨thisEq, sockEq, inv'⟩

theorem receiveMeta_kept (keeps : Keeps kernel this fd Inv) (choices : List ι) (s : Context σ)
    (kept : Kept this fd Inv s) :
    Sat (receiveMeta kernel choices s) (fun _ => True)
      (fun result => Kept this fd Inv result.2) := by
  obtain ⟨thisEq, sockEq, inv⟩ := kept
  rw [receiveMeta, sockEq]
  refine (recvAll_kept keeps s.ep.interest 8 choices 0 _ s.sys inv).bind ?_
  intro result inv'
  obtain ⟨n, buf, sys'⟩ := result
  simp only
  split
  · exact ⟨thisEq, sockEq, inv'⟩
  · exact ⟨thisEq, sockEq, inv'⟩

theorem receiveHeader_kept (keeps : Keeps kernel this fd Inv) (choice : ι) (s : Context σ)
    (kept : Kept this fd Inv s) :
    Sat (receiveHeader kernel choice s) (fun _ => True)
      (fun result => Kept this fd Inv result.2) := by
  rw [receiveHeader]
  refine (Sat.any (deref s.ep.headerBuffer)).bind fun buffer _ => ?_
  refine (recvInto_kept keeps choice buffer s kept).bind ?_
  intro result kept'
  obtain ⟨nbytes, s'⟩ := result
  cases nbytes with
  | none => exact kept'
  | some nbytes => exact ⟨kept'.this_eq, kept'.sock_eq, kept'.inv⟩

theorem receiveData_kept (keeps : Keeps kernel this fd Inv) (choice : ι) (s : Context σ)
    (kept : Kept this fd Inv s) :
    Sat (receiveData kernel choice s) (fun _ => True)
      (fun result => Kept this fd Inv result.2) := by
  rw [receiveData]
  refine (Sat.any (deref s.ep.dataBuffer)).bind fun buffer _ => ?_
  simp only
  split
  · refine (Sat.any (deref s.ep.headerBuffer)).bind fun header _ => ?_
    exact ⟨kept.this_eq, kept.sock_eq, kept.inv⟩
  · refine (recvInto_kept keeps choice buffer s kept).bind ?_
    intro result kept'
    obtain ⟨nbytes, s'⟩ := result
    cases nbytes with
    | none => exact kept'
    | some nbytes =>
        simp only
        split
        · refine (Sat.any (deref s'.ep.headerBuffer)).bind fun header _ => ?_
          exact ⟨kept'.this_eq, kept'.sock_eq, kept'.inv⟩
        · exact ⟨kept'.this_eq, kept'.sock_eq, kept'.inv⟩

theorem onSendReady_kept (keeps : Keeps kernel this fd Inv) (choices : List ι) (s : Context σ)
    (kept : Kept this fd Inv s) :
    Sat (onSendReady kernel choices s) (fun _ => True) (Kept this fd Inv) := by
  refine onSendReady_rule kernel (Kept this fd Inv) ?_ ?_ ?_ choices s kept
  · intro choice bytes s' kept
    obtain ⟨rfl, rfl, inv⟩ := kept
    exact ⟨rfl, rfl, keeps.send choice bytes s'.ep.interest s'.sys inv⟩
  · intro txQueue state s' kept
    obtain ⟨rfl, rfl, inv⟩ := kept
    exact ⟨rfl, rfl, inv⟩
  · intro interest sys s' kept moved
    obtain ⟨rfl, rfl, inv⟩ := kept
    exact ⟨rfl, rfl, keeps.mod s'.ep.interest interest s'.sys sys inv moved⟩

theorem reply_kept (keeps : Keeps kernel this fd Inv) (choices : List ι) (s : Context σ)
    (kept : Kept this fd Inv s) :
    Sat (reply kernel choices s) (fun _ => True) (fun result => Kept this fd Inv result.2) := by
  simp only [reply]
  refine Sat.bind (onSendReady_kept keeps choices _ ⟨kept.this_eq, kept.sock_eq, kept.inv⟩) ?_
  intro s' kept'
  exact kept'

theorem onRecvReady_kept (keeps : Keeps kernel this fd Inv) (answers : Answers ι) (s : Context σ)
    (kept : Kept this fd Inv s) :
    Sat (onRecvReady kernel answers s) (fun _ => True) (Kept this fd Inv) := by
  have replied : ∀ s, Kept this fd Inv s →
      Sat (reply kernel answers.sends s >>= fun result => pure result.2) (fun _ => True)
        (Kept this fd Inv) := by
    intro s kept
    refine (reply_kept keeps answers.sends s kept).bind fun result kept' => ?_
    exact kept'
  have fromData : ∀ s, Kept this fd Inv s →
      Sat (receiveData kernel answers.data s >>= fun result =>
        if (!result.1) = true then pure result.2
        else reply kernel answers.sends result.2 >>= fun result => pure result.2)
        (fun _ => True) (Kept this fd Inv) := by
    intro s kept
    refine (receiveData_kept keeps answers.data s kept).bind ?_
    intro result kept'
    obtain ⟨received, s'⟩ := result
    simp only
    split
    · exact kept'
    · exact replied s' kept'
  have fromHeader : ∀ s, Kept this fd Inv s →
      Sat (receiveHeader kernel answers.header s >>= fun result =>
        if (!result.1) = true then pure result.2
        else receiveData kernel answers.data result.2 >>= fun result =>
          if (!result.1) = true then pure result.2
          else reply kernel answers.sends result.2 >>= fun result => pure result.2)
        (fun _ => True) (Kept this fd Inv) := by
    intro s kept
    refine (receiveHeader_kept keeps answers.header s kept).bind ?_
    intro result kept'
    obtain ⟨received, s'⟩ := result
    simp only
    split
    · exact kept'
    · exact fromData s' kept'
  rw [onRecvReady]
  cases state : s.ep.state with
  | NEW_RPC =>
      refine (receiveMeta_kept keeps answers.recvs s kept).bind ?_
      intro result kept'
      obtain ⟨received, s'⟩ := result
      simp only
      split
      · exact kept'
      · exact fromHeader s' kept'
  | META_RECVED => exact fromHeader s kept
  | HEADER_RECVED => exact fromData s kept
  | DATA_RECVED => exact replied s kept
  | REPLYING => exact kept

/-- What the system calls of an endpoint keep, its handlers keep. -/
theorem handle_kept (keeps : Keeps kernel this fd Inv) (s : Context σ) (call : Call ι)
    (kept : Kept this fd Inv s) :
    Sat (handle kernel s call) (fun _ => True) (Kept this fd Inv) := by
  cases call with
  | recvReady answers => exact onRecvReady_kept keeps answers s kept
  | sendReady choices => exact onSendReady_kept keeps choices s kept

end Keeping

end RpcBench.Socket
