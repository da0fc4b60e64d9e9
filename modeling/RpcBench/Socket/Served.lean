import RpcBench.Lib.Fallible
import RpcBench.Socket.Simulation

/-! # What a connection has carried

A `Wire` is a kernel that keeps the history of one connection: the bytes
taken out of it, the bytes put into it and the event registered for it.
`Serves` relates the history to the session: everything consumed is a
sequence of frames of the session's own limits, and everything written
answers them in order. -/
set_option autoImplicit false

namespace RpcBench.Socket

open ByteList Fallible BwServerEndpoint

structure History where
  consumed : Bytes
  written : Bytes
  registered : Option Event
  deriving DecidableEq, Repr

namespace History

def received (bytes : Bytes) (history : History) : History :=
  { history with consumed := history.consumed ++ bytes }

def sent (bytes : Bytes) (history : History) : History :=
  { history with written := history.written ++ bytes }

@[simp] theorem received_nil (history : History) : history.received [] = history := by
  simp [received]

theorem received_received (first second : Bytes) (history : History) :
    (history.received first).received second = history.received (first ++ second) := by
  simp [received]

end History

variable {σ ι : Type}

/-- A kernel with the history of a connection on which calls move bytes in
order or would block.  After the peer's end of stream (`drained`) nothing more
is received. -/
structure Wire (kernel : Kernel σ ι) where
  history : σ → History
  drained : σ → Prop
  recv_count : ∀ choice fd len sys bytes sys',
    kernel.recv choice fd len sys = (.count bytes, sys') →
      history sys' = (history sys).received bytes ∧
      (drained sys → bytes = [] ∧ drained sys') ∧ (bytes = [] → len ≠ 0 → drained sys')
  recv_error : ∀ choice fd len sys errno sys',
    kernel.recv choice fd len sys = (.error errno, sys') →
      lastErrorWouldBlock errno = true ∧ history sys' = history sys ∧
      (drained sys → drained sys')
  send_count : ∀ choice fd bytes sys nbytes sys',
    kernel.send choice fd bytes sys = (.count nbytes, sys') →
      history sys' = (history sys).sent (bytes.take nbytes) ∧ (drained sys → drained sys')
  send_error : ∀ choice fd bytes sys errno sys',
    kernel.send choice fd bytes sys = (.error errno, sys') →
      lastErrorWouldBlock errno = true ∧ history sys' = history sys ∧
      (drained sys → drained sys')
  mod : ∀ fd event sys, (history sys).registered.isSome = true →
    ∃ sys', kernel.epollCtlMod fd event sys = some sys' ∧
      history sys' = { history sys with registered := some event } ∧
      (drained sys → drained sys')

/-- `Served consumed limits replies`: the bytes of complete frames, the limits
after them and the headers that answer them. -/
inductive Served : Bytes → Option (Nat × Nat) → Bytes → Prop where
  | nil : Served [] none []
  | frame {consumed replies : Bytes} {limits : Option (Nat × Nat)}
      (earlier : Served consumed limits replies) (prefixBytes header data : Bytes)
      (prefixFull : prefixBytes.length = 8)
      (headerFull : header.length = (growLimits limits prefixBytes).1)
      (dataFull : data.length = (growLimits limits prefixBytes).2) :
      Served (consumed ++ (prefixBytes ++ header ++ data)) (some (growLimits limits prefixBytes))
        (replies ++ header)

structure OpenFrame (current : Option (Nat × Nat)) (earlier : Bytes) (limits : Option (Nat × Nat))
    (prefixBytes header data consumed : Bytes) : Prop where
  prefixFull : prefixBytes.length = 8
  grown : current = some (growLimits limits prefixBytes)
  consumed_eq : consumed = earlier ++ (prefixBytes ++ header ++ data)

/-- The frame that the buffers of an idle session still hold is the last one. -/
def LastFrame (p : Session) (held : Option (Bytes × Bytes)) (consumed : Bytes) : Prop :=
  match held with
  | none => consumed = []
  | some (header, data) => ∃ earlier limits prefixBytes replies,
      OpenFrame p.limits earlier limits prefixBytes header data consumed ∧
      Served earlier limits replies

def Traffic (p : Session) (consumed written : Bytes) (drained : Prop) : Prop :=
  match p.stage with
  | .idle held => ∃ earlier torn, consumed = earlier ++ torn ∧ torn.length < 8 ∧
      (torn ≠ [] → drained) ∧ Served earlier p.limits written ∧ LastFrame p held earlier
  | .receiving _ header data => ∃ earlier limits prefixBytes,
      OpenFrame p.limits earlier limits prefixBytes header data consumed ∧ Served earlier limits written
  | .replying header data rest => ∃ earlier limits prefixBytes replies,
      OpenFrame p.limits earlier limits prefixBytes header data consumed ∧
      Served earlier limits replies ∧ written ++ rest = replies ++ header

structure Serves {kernel : Kernel σ ι} (wire : Wire kernel) (token : Token) (p : Session)
    (sys : σ) : Prop where
  registered : (wire.history sys).registered = some (registration token p.interest)
  traffic : Traffic p (wire.history sys).consumed (wire.history sys).written (wire.drained sys)

/-- A queued reply has `WRITABLE` in its interest between two calls. -/
def Session.Armed (p : Session) : Prop :=
  ∀ header data rest, p.stage = .replying header data rest → p.interest.writable = true

/-! ## One call of each kind -/

section Calls

variable {kernel : Kernel σ ι} (wire : Wire kernel) {fd : RawFd} {token : Token}

theorem reregister_spec (fd : RawFd) (token : Token) (interest : Interest) {sys : σ} {event : Event}
    (registered : (wire.history sys).registered = some event) :
    ∃ sys', reregister kernel fd token interest sys = .ok sys' ∧
      wire.history sys' =
        { wire.history sys with registered := some (registration token interest) } ∧
      (wire.drained sys → wire.drained sys') := by
  obtain ⟨sys', moved, after⟩ := wire.mod fd (registration token interest) sys (by simp [registered])
  exact ⟨sys', by rw [reregister, moved], after⟩

/-- `RecvAll` fills its buffer in order; it returns early only at the end of
the stream. -/
theorem recvAll_spec (len : Nat) (choices : List ι) :
    ∀ (n : Nat) (buf : Bytes) (sys : σ), n ≤ len → buf.length = len →
      Sat (recvAll kernel fd len choices n buf sys) (· = .pending)
        (fun result => ∃ bytes, wire.history result.2.2 = (wire.history sys).received bytes ∧
          result.1 = n + bytes.length ∧ result.1 ≤ len ∧ result.2.1.length = len ∧
          result.2.1.take result.1 = buf.take n ++ bytes ∧
          (result.1 < len → wire.drained result.2.2) ∧
          (wire.drained sys → n < len → bytes = [] ∧ wire.drained result.2.2)) := by
  induction choices with
  | nil =>
      intro n buf sys nLe lengthEq
      by_cases more : n < len
      · simp only [recvAll, if_pos more]
        rfl
      · simp only [recvAll, if_neg more]
        exact ⟨[], by simp, by simp, nLe, lengthEq, by simp, fun short => absurd short more,
          fun _ short => absurd short more⟩
  | cons choice choices ih =>
      intro n buf sys nLe lengthEq
      by_cases more : n < len
      · simp only [recvAll, if_pos more]
        cases received : kernel.recv choice fd (len - n) sys with
        | mk result sys' =>
            cases result with
            | error errno =>
                obtain ⟨blocked, same, drained⟩ := wire.recv_error _ _ _ _ _ _ received
                simp only [blocked, if_true]
                refine (ih n buf sys' nLe lengthEq).mono (fun _ => id) ?_
                intro result post
                obtain ⟨n', buf', sys''⟩ := result
                obtain ⟨bytes, histEq, rest⟩ := post
                rw [same] at histEq
                exact ⟨bytes, histEq, rest.1, rest.2.1, rest.2.2.1, rest.2.2.2.1, rest.2.2.2.2.1,
                  fun before => rest.2.2.2.2.2 (drained before)⟩
            | count bytes =>
                obtain ⟨moved, drained, ended⟩ := wire.recv_count _ _ _ _ _ _ received
                have fits := kernel.recv_le _ _ _ _ _ _ received
                cases bytes with
                | nil =>
                    have drained' := ended rfl (by omega)
                    exact ⟨[], by simpa using moved, by simp, nLe, lengthEq, by simp,
                      fun _ => drained', fun _ _ => ⟨rfl, drained'⟩⟩
                | cons byte bytes =>
                    have lengthEq' : (overwrite buf n (byte :: bytes)).length = len := by
                      rw [overwrite_length buf _ n (by omega), lengthEq]
                    have known : (buf.take n).length = n := by
                      rw [List.length_take]
                      omega
                    have taken : (overwrite buf n (byte :: bytes)).take
                        (n + (byte :: bytes).length) = buf.take n ++ byte :: bytes := by
                      have behind := overwrite_take buf (byte :: bytes) (buf.take n)
                        (by rw [known])
                      rwa [List.length_append, known] at behind
                    simp only
                    refine (ih _ _ sys' (by omega) lengthEq').mono (fun _ => id) ?_
                    intro result post
                    obtain ⟨n', buf', sys''⟩ := result
                    obtain ⟨more', histEq, nEq, nLe', lengthEq'', takeEq, short, _⟩ := post
                    refine ⟨byte :: bytes ++ more', ?_, ?_, nLe', lengthEq'', ?_, short, ?_⟩
                    · rw [histEq, moved, History.received_received]
                    · simp only [List.length_append] at nEq ⊢
                      omega
                    · rw [takeEq, taken, List.append_assoc]
                    · intro before _
                      exact absurd (drained before).1 (by simp)
      · simp only [recvAll, if_neg more]
        exact ⟨[], by simp, by simp, nLe, lengthEq, by simp, fun short => absurd short more,
          fun _ short => absurd short more⟩

theorem fill_spec (choice : ι) (limit : Nat) (got : Bytes) (sys : σ) (gotLe : got.length ≤ limit) :
    Sat (Session.fill kernel fd choice limit got sys) (fun _ => False)
      (fun result => ∃ bytes, wire.history result.2 = (wire.history sys).received bytes ∧
        (got ++ bytes).length ≤ limit ∧
        match result.1 with
        | none => bytes = []
        | some got' => got' = got ++ bytes) := by
  rw [Session.fill]
  cases received : kernel.recv choice fd (limit - got.length) sys with
  | mk result sys' =>
      cases result with
      | error errno =>
          obtain ⟨blocked, same, _⟩ := wire.recv_error _ _ _ _ _ _ received
          simp only [blocked, if_true]
          exact ⟨[], by simpa using same, by simpa using gotLe, rfl⟩
      | count bytes =>
          obtain ⟨moved, _, _⟩ := wire.recv_count _ _ _ _ _ _ received
          have fits := kernel.recv_le _ _ _ _ _ _ received
          refine ⟨bytes, moved, ?_, rfl⟩
          rw [List.length_append]
          omega

end Calls

/-! ## The session keeps up with its history -/

section Session

variable {kernel : Kernel σ ι} (wire : Wire kernel) {fd : RawFd} {token : Token}

def Settled (token : Token) (ps : Session × σ) : Prop :=
  Serves wire token ps.1 ps.2 ∧ ps.1.Armed

theorem Session.Armed.of_stage {p : Session}
    (quiet : ∀ header data rest, p.stage ≠ .replying header data rest) : p.Armed := by
  intro header data rest stage
  exact absurd stage (quiet header data rest)

/-- A complete frame with its reply still queued up to `rest`. -/
structure Answering (token : Token) (p : Session) (sys : σ) (header data rest : Bytes) :
    Prop where
  stage : p.stage = .replying header data rest
  full : ∃ headerLimit dataLimit, p.limits = some (headerLimit, dataLimit) ∧
    header.length = headerLimit ∧ data.length = dataLimit
  serves : Serves wire token p sys

theorem sendReply_settled (choices : List ι) :
    ∀ (p : Session) (sys : σ) (header data rest : Bytes),
      Answering wire token p sys header data rest →
      Sat (Session.sendReply kernel fd token choices (p, sys)) (· = .pending)
        (Settled wire token) := by
  induction choices with
  | nil =>
      intro p sys header data rest answering
      rw [Session.sendReply]
      simp only [answering.stage]
      rfl
  | cons choice choices ih =>
      intro p sys header data rest answering
      obtain ⟨stage, ⟨headerLimit, dataLimit, limits, headerFull, dataFull⟩, registered, traffic⟩ :=
        answering
      have traffic₀ := traffic
      simp only [Traffic, stage] at traffic
      obtain ⟨earlier, limits₀, prefixBytes, replies, frame, served, split⟩ := traffic
      rw [Session.sendReply]
      simp only [stage]
      cases sent : kernel.send choice fd rest sys with
      | mk result sys' =>
          cases result with
          | error errno =>
              obtain ⟨blocked, same, _⟩ := wire.send_error _ _ _ _ _ _ sent
              simp only [blocked, Bool.not_true, Bool.false_eq_true, if_false]
              have keeps : ∀ (p' : Session) (sys'' : σ), p'.stage = p.stage → p'.limits = p.limits →
                  (wire.history sys'').consumed = (wire.history sys).consumed →
                  (wire.history sys'').written = (wire.history sys).written →
                  Traffic p' (wire.history sys'').consumed (wire.history sys'').written
                    (wire.drained sys'') := by
                intro p' sys'' stageEq limitsEq consumedEq writtenEq
                simp only [Traffic, stageEq, stage, consumedEq, writtenEq]
                exact ⟨earlier, limits₀, prefixBytes, replies,
                  ⟨frame.prefixFull, limitsEq.trans frame.grown, frame.consumed_eq⟩, served, split⟩
              cases writable : p.interest.isWritable with
              | true =>
                  simp only [Bool.not_true, Bool.false_eq_true, if_false]
                  refine ⟨⟨?_, keeps p sys' rfl rfl (by rw [same]) (by rw [same])⟩, ?_⟩
                  · rw [same, registered]
                  · intro _ _ _ _
                    exact writable
              | false =>
                  simp only [Bool.not_false, if_true]
                  have registered' : (wire.history sys').registered =
                      some (registration token p.interest) := by
                    rw [same]
                    exact registered
                  obtain ⟨sys'', moved, histEq, _⟩ := reregister_spec wire fd token
                    (p.interest.add Interest.WRITABLE) registered'
                  rw [moved]
                  refine ⟨⟨?_, keeps _ sys'' stage.symm rfl (by rw [histEq, same])
                    (by rw [histEq, same])⟩, ?_⟩
                  · rw [histEq]
                  · intro _ _ _ _
                    exact congrArg Interest.writable (add_writable p.interest)
          | count nbytes =>
              obtain ⟨moved, drained⟩ := wire.send_count _ _ _ _ _ _ sent
              have fits := kernel.send_le _ _ _ _ _ _ sent
              by_cases complete : nbytes = rest.length
              · have whole : (wire.history sys').written = replies ++ header := by
                  rw [moved, complete]
                  simpa [History.sent] using split
                have answered : Served (wire.history sys').consumed p.limits (replies ++ header) := by
                  have consumedEq : (wire.history sys').consumed = (wire.history sys).consumed := by
                    rw [moved]
                    rfl
                  rw [consumedEq, frame.consumed_eq, frame.grown]
                  have grown := Option.some.inj (frame.grown.symm.trans limits)
                  exact served.frame prefixBytes header data frame.prefixFull
                    (by rw [headerFull, grown]) (by rw [dataFull, grown])
                have settles : ∀ (p' : Session) (sys'' : σ),
                    p'.stage = .idle (some (header, data)) → p'.limits = p.limits →
                    (wire.history sys'').consumed = (wire.history sys').consumed →
                    (wire.history sys'').written = (wire.history sys').written →
                    Traffic p' (wire.history sys'').consumed (wire.history sys'').written
                      (wire.drained sys'') := by
                  intro p' sys'' stageEq limitsEq consumedEq writtenEq
                  simp only [Traffic, stageEq, consumedEq, writtenEq, limitsEq]
                  refine ⟨_, [], (List.append_nil _).symm, by simp, fun absent => absurd rfl absent,
                    by rw [whole]; exact answered, earlier, limits₀, prefixBytes, replies,
                    ⟨frame.prefixFull, limitsEq.trans frame.grown, ?_⟩, served⟩
                  rw [moved]
                  exact frame.consumed_eq
                simp only [complete, if_true]
                cases writable : p.interest.isWritable with
                | false =>
                    simp only [Bool.false_eq_true, if_false]
                    refine ⟨⟨?_, settles _ sys' rfl rfl rfl rfl⟩, Session.Armed.of_stage (by simp)⟩
                    rw [moved]
                    exact registered
                | true =>
                    simp only [if_true]
                    have registered' : (wire.history sys').registered =
                        some (registration token p.interest) := by
                      rw [moved]
                      exact registered
                    obtain ⟨sys'', modified, histEq, _⟩ := reregister_spec wire fd token
                      Interest.READABLE registered'
                    rw [modified]
                    refine ⟨⟨?_, settles _ sys'' rfl rfl (by rw [histEq]) (by rw [histEq])⟩,
                      Session.Armed.of_stage (by simp)⟩
                    rw [histEq]
              · simp only [complete, if_false]
                refine ih _ sys' header data (rest.drop nbytes) ⟨rfl, ⟨headerLimit, dataLimit, limits,
                  headerFull, dataFull⟩, ⟨by rw [moved]; exact registered, ?_⟩⟩
                simp only [Traffic]
                refine ⟨earlier, limits₀, prefixBytes, replies,
                  ⟨frame.prefixFull, frame.grown, ?_⟩, served, ?_⟩
                · rw [moved]
                  exact frame.consumed_eq
                · rw [moved, ← split]
                  simp [History.sent]

abbrev Session.collecting (p : Session) (headerDone : Bool) (header data : Bytes) : Session :=
  { p with stage := .receiving headerDone header data }

theorem prefixReceived {limits : Option (Nat × Nat)} {stage : Stage} {interest : Interest}
    {sys sys' : σ} {prefixBytes : Bytes}
    (registered : (wire.history sys).registered = some (registration token interest))
    (served : Served (wire.history sys).consumed limits (wire.history sys).written)
    (moved : wire.history sys' = (wire.history sys).received prefixBytes)
    (full : prefixBytes.length = 8) :
    Serves wire token
      (Session.collecting ⟨some (growLimits limits prefixBytes), stage, interest⟩ false [] [])
      sys' := by
  refine ⟨by rw [moved]; exact registered, (wire.history sys).consumed, limits, prefixBytes,
    ⟨full, rfl, ?_⟩, by rw [moved]; exact served⟩
  rw [moved]
  simp [History.received]

theorem Serves.dataReceived {p : Session} {sys sys' : σ} {headerDone : Bool}
    {header data bytes : Bytes} (serves : Serves wire token (p.collecting headerDone header data) sys)
    (moved : wire.history sys' = (wire.history sys).received bytes) :
    Serves wire token (p.collecting headerDone header (data ++ bytes)) sys' := by
  obtain ⟨registered, earlier, limits, prefixBytes, frame, served⟩ := serves
  refine ⟨by rw [moved]; exact registered, earlier, limits, prefixBytes,
    ⟨frame.prefixFull, frame.grown, ?_⟩, by rw [moved]; exact served⟩
  rw [moved]
  simp [History.received, frame.consumed_eq]

theorem Serves.headerReceived {p : Session} {sys sys' : σ} {headerDone headerDone' : Bool}
    {header bytes : Bytes} (serves : Serves wire token (p.collecting headerDone header []) sys)
    (moved : wire.history sys' = (wire.history sys).received bytes) :
    Serves wire token (p.collecting headerDone' (header ++ bytes) []) sys' := by
  obtain ⟨registered, earlier, limits, prefixBytes, frame, served⟩ := serves
  refine ⟨by rw [moved]; exact registered, earlier, limits, prefixBytes,
    ⟨frame.prefixFull, frame.grown, ?_⟩, by rw [moved]; exact served⟩
  rw [moved]
  simp [History.received, frame.consumed_eq]

theorem Serves.headerFilled {p : Session} {sys sys' : σ} {header data bytes : Bytes}
    {limits : Nat × Nat} (serves : Serves wire token (p.collecting false header data) sys)
    (moved : wire.history sys' = (wire.history sys).received bytes)
    (phase : header.length ≤ limits.1 ∧ data = [] ∨
      header.length = limits.1 ∧ data.length ≤ limits.2)
    (fits : (header ++ bytes).length ≤ limits.1) (headerDone : Bool) :
    Serves wire token (p.collecting headerDone (header ++ bytes) data) sys' := by
  rcases phase with ⟨_, rfl⟩ | ⟨full, _⟩
  · exact serves.headerReceived wire moved
  · have nothing : bytes = [] := by
      rw [List.length_append] at fits
      exact List.eq_nil_of_length_eq_zero (by omega)
    subst nothing
    have kept := serves.dataReceived wire moved
    simp only [List.append_nil] at kept ⊢
    exact ⟨kept.registered, kept.traffic⟩

theorem Serves.answering {p : Session} {sys : σ} {headerDone : Bool} {header data : Bytes}
    {limits : Nat × Nat} (serves : Serves wire token (p.collecting headerDone header data) sys)
    (limitsEq : p.limits = some limits) (full : header.length = limits.1)
    (dataFull : data.length = limits.2) :
    Answering wire token { p with stage := .replying header data header } sys header data header := by
  obtain ⟨registered, earlier, limits₀, prefixBytes, frame, served⟩ := serves
  refine ⟨rfl, ⟨limits.1, limits.2, limitsEq, full, dataFull⟩, registered, ?_⟩
  exact ⟨earlier, limits₀, prefixBytes, _, ⟨frame.prefixFull, frame.grown, frame.consumed_eq⟩,
    served, rfl⟩

theorem readData_settled (answers : Answers ι) (limits : Nat × Nat) (headerDone : Bool)
    (header data : Bytes) (p : Session) (sys : σ)
    (serves : Serves wire token (p.collecting headerDone header data) sys)
    (limitsEq : p.limits = some limits) (full : header.length = limits.1)
    (fits : data.length ≤ limits.2) :
    Sat (Session.readData kernel fd token answers limits headerDone header data p sys)
      (· = .pending) (Settled wire token) := by
  rw [Session.readData]
  by_cases zero : limits.2 = 0
  · simp only [zero, if_true]
    exact sendReply_settled wire answers.sends _ sys header data header
      (serves.answering wire limitsEq full (by omega))
  · simp only [zero, if_false]
    refine ((fill_spec wire answers.data limits.2 data sys fits).mono
      (fun _ absent => absent.elim) fun _ => id).bind ?_
    intro result post
    obtain ⟨received, sys'⟩ := result
    obtain ⟨bytes, moved, fits', result⟩ := post
    have advanced := serves.dataReceived wire moved
    cases received with
    | none =>
        obtain rfl : bytes = [] := result
        rw [List.append_nil] at advanced
        exact ⟨advanced, Session.Armed.of_stage (by simp)⟩
    | some got =>
        obtain rfl : got = data ++ bytes := result
        by_cases complete : (data ++ bytes).length = limits.2
        · simp only [complete, if_true]
          exact sendReply_settled wire answers.sends _ sys' header _ header
            (advanced.answering wire limitsEq full complete)
        · simp only [complete, if_false]
          exact ⟨advanced, Session.Armed.of_stage (by simp)⟩

theorem readHeader_settled (answers : Answers ι) (limits : Nat × Nat) (header data : Bytes)
    (p : Session) (sys : σ) (serves : Serves wire token (p.collecting false header data) sys)
    (limitsEq : p.limits = some limits)
    (phase : header.length ≤ limits.1 ∧ data = [] ∨
      header.length = limits.1 ∧ data.length ≤ limits.2) :
    Sat (Session.readHeader kernel fd token answers limits header data p sys)
      (· = .pending) (Settled wire token) := by
  rw [Session.readHeader]
  have fits : header.length ≤ limits.1 := by omega
  have dataFits : data.length ≤ limits.2 := by
    rcases phase with ⟨_, rfl⟩ | ⟨_, dataLe⟩
    · exact Nat.zero_le _
    · exact dataLe
  refine ((fill_spec wire answers.header limits.1 header sys fits).mono
    (fun _ absent => absent.elim) fun _ => id).bind ?_
  intro result post
  obtain ⟨received, sys'⟩ := result
  obtain ⟨bytes, moved, fits', result⟩ := post
  cases received with
  | none =>
      obtain rfl : bytes = [] := result
      have advanced : Serves wire token (p.collecting false header data) sys' := by
        simpa using serves.dataReceived wire moved
      by_cases full : header.length = limits.1
      · simp only [full, if_true]
        exact readData_settled wire answers limits false header data p sys' advanced limitsEq full
          dataFits
      · simp only [full, if_false]
        exact ⟨advanced, Session.Armed.of_stage (by simp)⟩
  | some got =>
      obtain rfl : got = header ++ bytes := result
      have advanced := serves.headerFilled wire moved phase fits'
      by_cases full : (header ++ bytes).length = limits.1
      · simp only [full, if_true]
        exact readData_settled wire answers limits true _ data p sys' (advanced true) limitsEq full
          dataFits
      · simp only [full, if_false]
        exact ⟨advanced false, Session.Armed.of_stage (by simp)⟩

theorem onRecvReady_settled (fd : RawFd) (answers : Answers ι) (stale : UInt8) (p : Session) (sys : σ)
    (settled : Settled wire token (p, sys)) (sound : p.Sound) :
    Sat (Session.onRecvReady kernel fd token stale answers (p, sys)) (· = .pending)
      (Settled wire token) := by
  obtain ⟨serves, armed⟩ := settled
  obtain ⟨limits, stage, interest⟩ := p
  cases stage with
  | idle held =>
      obtain ⟨registered, earlier, torn, consumedEq, tornShort, tornDrained, served, last⟩ := serves
      rw [Session.onRecvReady]
      refine (recvAll_spec wire 8 answers.recvs 0 (List.replicate 8 stale) sys (by omega)
        (by simp)).bind ?_
      intro result post
      obtain ⟨n, buf, sys'⟩ := result
      obtain ⟨bytes, moved, nEq, nLe, lengthEq, taken, short, quiet⟩ := post
      simp only [Nat.zero_add, List.take_zero, List.nil_append] at moved nEq nLe lengthEq taken
      by_cases few : n < 8
      · simp only [few, if_true]
        refine ⟨⟨by rw [moved]; exact registered, earlier, torn ++ bytes, ?_, ?_,
          fun _ => short few, by rw [moved]; exact served, last⟩, Session.Armed.of_stage (by simp)⟩
        · rw [moved]
          simp [History.received, consumedEq]
        · by_cases whole : torn = []
          · rw [whole, List.nil_append]
            omega
          · rw [(quiet (tornDrained whole) (by omega)).1, List.append_nil]
            exact tornShort
      · simp only [few, if_false]
        have whole : torn = [] := by
          by_contra some
          have none := (quiet (tornDrained some) (by omega)).1
          rw [none] at nEq
          exact few (by rw [nEq]; simp)
        have bufEq : bytes = buf := by
          rw [← taken, List.take_of_length_le (by omega)]
        subst whole bufEq
        rw [List.append_nil] at consumedEq
        exact readHeader_settled wire answers _ [] [] _ sys'
          (prefixReceived wire registered (consumedEq ▸ served) moved lengthEq) rfl
          (Or.inl ⟨Nat.zero_le _, rfl⟩)
  | receiving headerDone header data =>
      cases limits with
      | none => exact False.elim sound.2
      | some limits =>
          obtain ⟨phase, done⟩ := sound.2
          cases headerDone with
          | false =>
              exact readHeader_settled wire answers limits header data _ sys serves rfl
                (phase.imp (fun partly => ⟨by omega, partly.2⟩) fun ready => ⟨ready.1, by omega⟩)
          | true =>
              refine readData_settled wire answers limits true header data _ sys serves rfl
                (done rfl) ?_
              have full := done rfl
              rcases phase with partly | ready
              · omega
              · omega
  | replying header data rest =>
      rw [Session.onRecvReady]
      exact ⟨serves, armed⟩

theorem onSendReady_settled (fd : RawFd) (choices : List ι) (p : Session) (sys : σ)
    (settled : Settled wire token (p, sys)) (sound : p.Sound) :
    Sat (Session.sendReply kernel fd token choices (p, sys)) (· = .pending)
      (Settled wire token) := by
  obtain ⟨limits, stage, interest⟩ := p
  cases stage with
  | idle held =>
      rw [Session.sendReply]
      exact settled
  | receiving headerDone header data =>
      rw [Session.sendReply]
      exact settled
  | replying header data rest =>
      cases limits with
      | none => exact False.elim sound.2
      | some limits =>
          exact sendReply_settled wire choices _ sys header data rest
            ⟨rfl, ⟨limits.1, limits.2, rfl, sound.2.1, sound.2.2.1⟩, settled.1⟩

end Session

/-! ## The object keeps up with its history -/

section Object

variable {kernel : Kernel σ ι} (wire : Wire kernel) {this : Token} {sock : RawFd}

/-- Between two handler calls the object follows a session in step with the
connection. -/
structure Live (this : Token) (sock : RawFd) (s : Context σ) (p : Session) : Prop where
  tracks : Tracks this sock s.ep s.mem s (p, s.sys)
  settled : Settled wire this (p, s.sys)

theorem Live.of_tracks {ep₀ : BwServerEndpoint} {mem₀ : Memory} {s : Context σ}
    {ps : Session × σ} (tracks : Tracks this sock ep₀ mem₀ s ps) (settled : Settled wire this ps) :
    Live wire this sock s ps.1 := by
  have sysEq := tracks.sys_eq
  refine ⟨⟨tracks.this_eq, tracks.sock_eq, rfl, tracks.represents, tracks.sound,
    Footprint.refl _ _⟩, ?_⟩
  rw [sysEq]
  exact settled

theorem handle_live {s : Context σ} {p : Session} (live : Live wire this sock s p)
    (call : Call ι) :
    Sat (handle kernel s call) (· = .pending)
      (fun s' => (∃ p', Live wire this sock s' p') ∧ Footprint s.ep s.mem s'.ep s'.mem) := by
  have finish : ∀ s', (∃ ps, Tracks this sock s.ep s.mem s' ps ∧ Settled wire this ps) →
      (∃ p', Live wire this sock s' p') ∧ Footprint s.ep s.mem s'.ep s'.mem := by
    intro s' kept
    obtain ⟨ps, tracks, settled⟩ := kept
    exact ⟨⟨ps.1, Live.of_tracks wire tracks settled⟩, tracks.footprint⟩
  cases call with
  | recvReady answers =>
      have settled := onRecvReady_settled wire sock answers s.mem.stale p s.sys live.settled
        live.tracks.sound
      exact ((onRecvReady_agree kernel answers live.tracks).sat settled).mono (fun _ => id) finish
  | sendReady choices =>
      have settled := onSendReady_settled wire sock choices p s.sys live.settled
        live.tracks.sound
      exact ((onSendReady_agree kernel choices s _ live.tracks).sat settled).mono (fun _ => id) finish

end Object

end RpcBench.Socket
