import RpcBench.Socket.FrameLimits

/-! # What `PushData` returns over a socket

The acks of a client are cut out of the replies by the sizes of the headers it
has pushed.  They are these headers as long as the client has not come back
from a message that was smaller than an earlier one. -/
set_option autoImplicit false

namespace RpcBench.Socket

open ByteList Bandwidth Fallible BwServerEndpoint

/-! ## The client -/

structure Acked (codec : HeaderCodec) (client : Client) (parts : List Bytes) (received : Bytes) :
    Prop where
  received_eq : received = parts.flatten ++ client.got
  lengths : parts.map List.length =
    client.finished.map fun message => (codec.headerBytes message).length
  acks_eq : client.acks =
    parts.map fun part => { header := unpackPbBwHeader (codec.parse part), success := true }
  got_le : ∀ message got, client.phase = .receiving message got →
    got.length ≤ (codec.headerBytes message).length

theorem Acked.keep {codec : HeaderCodec} {client client' : Client} {parts : List Bytes}
    {received : Bytes} (acked : Acked codec client parts received)
    (finished : client'.finished = client.finished) (acks : client'.acks = client.acks)
    (got : client'.got = client.got)
    (phase : ∀ message got, client'.phase = .receiving message got → got = []) :
    Acked codec client' parts (received ++ []) := by
  constructor
  case received_eq => rw [List.append_nil, acked.received_eq, got]
  case lengths => rw [finished, acked.lengths]
  case acks_eq => rw [acks, acked.acks_eq]
  case got_le =>
    intro message got phaseEq
    rw [phase message got phaseEq]
    exact Nat.zero_le _

theorem Client.step_acked {codec : HeaderCodec} {client : Client} {parts : List Bytes}
    {received : Bytes} (count : Nat) (incoming : Bytes)
    (acked : Acked codec client parts received) :
    ∃ parts' taken, incoming = taken ++ (client.step codec count incoming).2.2 ∧
      Acked codec (client.step codec count incoming).1 parts' (received ++ taken) := by
  obtain ⟨finished, phase, todo, acks⟩ := client
  cases phase with
  | ready =>
      cases todo with
      | nil => exact ⟨parts, [], rfl, acked.keep rfl rfl rfl
                fun _ _ phaseEq => Phase.noConfusion phaseEq⟩
      | cons message todo =>
          by_cases small : (metaBytes codec message ++ codec.headerBytes message).length ≤
              kDefaultBufferSize
          · simp only [Client.step, if_pos small]
            exact ⟨parts, [], rfl, acked.keep rfl rfl rfl
                fun _ _ phaseEq => Phase.noConfusion phaseEq⟩
          · simp only [Client.step, if_neg small]
            exact ⟨parts, [], rfl, acked.keep rfl rfl rfl
                fun _ _ phaseEq => Phase.noConfusion phaseEq⟩
  | sending message buffer data =>
      cases buffer with
      | nil =>
          cases data with
          | nil =>
              have quiet : ∀ message' got, Phase.receiving message [] = .receiving message' got →
                  got = [] := by
                intro message' got phaseEq
                cases phaseEq
                rfl
              exact ⟨parts, [], rfl, acked.keep rfl rfl rfl quiet⟩
          | cons byte data => exact ⟨parts, [], rfl, acked.keep rfl rfl rfl
                fun _ _ phaseEq => Phase.noConfusion phaseEq⟩
      | cons byte buffer => exact ⟨parts, [], rfl, acked.keep rfl rfl rfl
                fun _ _ phaseEq => Phase.noConfusion phaseEq⟩
  | receiving message got =>
      obtain ⟨receivedEq, lengths, acksEq, gotLe⟩ := acked
      have whole := gotLe message got rfl
      by_cases more : got.length < (codec.headerBytes message).length
      · refine ⟨parts, incoming.take (min count ((codec.headerBytes message).length - got.length)),
          ?_, ?_⟩
        · simp only [Client.step, if_pos more, List.take_append_drop]
        · simp only [Client.step, if_pos more]
          refine ⟨?_, lengths, acksEq, ?_⟩
          · rw [receivedEq, List.append_assoc]
            rfl
          · intro message' got' phaseEq
            cases phaseEq
            rw [List.length_append, List.length_take]
            omega
      · refine ⟨parts ++ [got], [], ?_, ?_⟩
        · simp only [Client.step, if_neg more, List.nil_append]
        · simp only [Client.step, if_neg more]
          refine ⟨?_, ?_, ?_, fun _ _ phaseEq => Phase.noConfusion phaseEq⟩
          · rw [receivedEq]
            simp [Client.got]
          · have same : got.length = (codec.headerBytes message).length := by omega
            simp [lengths, same]
          · simp only at acksEq
            rw [acksEq, List.map_append]
            rfl
  | overrun => exact ⟨parts, [], rfl, acked.keep rfl rfl rfl
                fun _ _ phaseEq => Phase.noConfusion phaseEq⟩

theorem parts_eq_headers (codec : HeaderCodec) (finished : List BwMessage) :
    ∀ (parts : List Bytes) (rest : Bytes) (more : List BwMessage),
      parts.map List.length = finished.map (fun message => (codec.headerBytes message).length) →
      parts.flatten ++ rest <+: headers codec (finished ++ more) →
      parts = finished.map codec.headerBytes := by
  induction finished with
  | nil =>
      intro parts rest more lengths _
      exact List.map_eq_nil_iff.mp lengths
  | cons message finished ih =>
      intro parts rest more lengths upTo
      cases parts with
      | nil => cases lengths
      | cons part parts =>
          simp only [List.map_cons, List.cons.injEq] at lengths
          rw [List.cons_append, headers_cons, List.flatten_cons, List.append_assoc] at upTo
          obtain ⟨left, split⟩ := upTo
          rw [List.append_assoc] at split
          obtain ⟨partEq, restEq⟩ := List.append_inj split lengths.1
          rw [partEq, ih parts rest more lengths.2 ⟨left, restEq⟩]
          rfl

namespace Connection

variable {codec : HeaderCodec} {greedy : Bool} {messages : List BwMessage} {this : Token}
  {fd : RawFd}

/-! ## The connection -/

def Acknowledged (codec : HeaderCodec) (c : Connection) : Prop :=
  ∃ parts received, Acked codec c.client parts received ∧
    c.history.written = received ++ c.sendQueue

theorem Acknowledged.outside {c : Connection} (acknowledged : Acknowledged codec c)
    (step : Outside) : Acknowledged codec (c.outside codec step) := by
  obtain ⟨parts, received, acked, written⟩ := acknowledged
  cases step with
  | client count =>
      obtain ⟨parts', taken, split, acked'⟩ := Client.step_acked count c.sendQueue acked
      refine ⟨parts', _, acked', ?_⟩
      simp only [Connection.outside, written]
      rw [List.append_assoc, ← split]
  | arrive count => exact ⟨parts, received, acked, written⟩
  | space => exact ⟨parts, received, acked, written⟩

theorem Acknowledged.outsides (steps : List Outside) (c : Connection)
    (acknowledged : Acknowledged codec c) : Acknowledged codec (c.outsides codec steps) :=
  outsides_rule _ (fun _ step holds => holds.outside step) steps c acknowledged

theorem keeps_acknowledged (codec : HeaderCodec) (greedy : Bool) (this : Token) (fd : RawFd) :
    Keeps (kernel codec greedy).toKernel this fd (fun _ => Acknowledged codec) where
  recv := by
    intro choice len _ c acknowledged
    change Acknowledged codec (recv codec greedy choice fd len c).2
    rcases recv_cases codec greedy choice fd len c with
      ⟨blocked, _⟩ | ⟨nbytes, _, _, _, _, moved⟩
    · rw [blocked]
      exact acknowledged.outsides _ _
    · rw [moved]
      exact Acknowledged.outsides _ _ acknowledged
  send := by
    intro choice bytes _ c acknowledged
    change Acknowledged codec (send codec choice fd bytes c).2
    rcases send_cases codec choice fd bytes c with blocked | ⟨nbytes, _, _, moved⟩
    · rw [blocked]
      exact Acknowledged.outsides _ _ acknowledged
    · rw [moved]
      apply Acknowledged.outsides
      obtain ⟨parts, received, acked, written⟩ := acknowledged
      refine ⟨parts, received, acked, ?_⟩
      simp [History.sent, written]
  mod := by
    intro _ interest c c' acknowledged moved
    change (if _ then some (c.register _) else none) = some c' at moved
    simp only [Option.ite_none_right_eq_some, Option.some.injEq] at moved
    rw [← moved.2]
    exact acknowledged

/-- Between two turns: the endpoint in step with the connection, and the acks. -/
def Acking (codec : HeaderCodec) (greedy : Bool) (messages : List BwMessage) (this : Token)
    (fd : RawFd) (s : Context Connection) : Prop :=
  (∃ p, Running codec greedy messages this fd s p) ∧ Acknowledged codec s.sys

theorem accepted_acking (fits : Fits codec messages) (mem : Memory) (early : List Outside) :
    Acking codec greedy messages this fd (accepted codec this fd mem messages early) := by
  have before : Acknowledged codec (fresh messages) :=
    ⟨[], [], ⟨rfl, rfl, rfl, nofun⟩, rfl⟩
  exact ⟨⟨_, accepted_running fits mem early⟩, before.outsides early (fresh messages)⟩

theorem turn_acking {s : Context Connection} (fits : Fits codec messages)
    (acking : Acking codec greedy messages this fd s) (input : Turn) :
    Sat (turn codec greedy s input) (· = .pending) (Acking codec greedy messages this fd) := by
  obtain ⟨⟨p, running⟩, acknowledged⟩ := acking
  cases input with
  | outside step => exact ⟨⟨p, running.outside fits step⟩, acknowledged.outside step⟩
  | call call =>
      have kept := handle_kept (keeps_acknowledged codec greedy this fd) s call
        ⟨running.live.tracks.this_eq, running.live.tracks.sock_eq, acknowledged⟩
      apply ((running.handle fits call).and kept).mono
      · intro reason both
        exact both.1
      · intro s' both
        exact ⟨both.1, both.2.inv⟩

theorem turns_acking (fits : Fits codec messages) (mem : Memory) (early : List Outside)
    (turns : List Turn) :
    Sat (turns.foldlM (turn codec greedy) (accepted codec this fd mem messages early))
      (· = .pending) (Acking codec greedy messages this fd) := by
  apply Sat.foldlM _ turns _ (accepted_acking fits mem early)
  intro s input acking
  exact turn_acking fits acking input

/-! ## Replies are headers -/

theorem started_prefix {c : Connection} (conserves : Conserves codec messages c) :
    c.client.started <+: messages ∧ c.history.consumed <+: frames codec c.client.started := by
  obtain ⟨pushed, received, inOrder, pushedEq, _⟩ := conserves
  constructor
  · exact ⟨_, inOrder.messages_eq⟩
  · rw [← inOrder.pushed_eq, pushedEq, List.append_assoc]
    exact List.prefix_append _ _

theorem dropLast_upTo {α : Type} {front whole : List α} (upTo : front <+: whole) :
    front.dropLast <+: whole.dropLast := by
  obtain ⟨rest, rfl⟩ := upTo
  cases rest with
  | nil => exact ⟨[], by simp⟩
  | cons item rest =>
      have shorter : front.dropLast <+: front := List.dropLast_prefix front
      rw [List.dropLast_append_of_ne_nil (by simp)]
      exact shorter.trans (List.prefix_append _ _)

/-- Whatever the last message is, the endpoint has written headers of messages
that it has received whole, and nothing else. -/
theorem Running.answered {s : Context Connection} {p : Session}
    (running : Running codec greedy messages this fd s p)
    (growing : Growing codec messages.dropLast) (small : Small codec messages) :
    ∃ done, done <+: s.sys.client.started ∧ frames codec done <+: s.sys.history.consumed ∧
      s.sys.history.written <+: headers codec done := by
  obtain ⟨started, upTo⟩ := started_prefix running.conserves
  have growing' : Growing codec s.sys.client.started.dropLast :=
    growing.sublist (dropLast_upTo started).sublist
  have small' : Small codec s.sys.client.started :=
    fun message member => small message (started.subset member)
  have traffic := running.live.settled.1.traffic
  have sound := running.live.tracks.sound
  change Traffic p s.sys.history.consumed s.sys.history.written _ at traffic
  have framed : ∀ {earlier replies : Bytes} {limits : Option (Nat × Nat)},
      Served earlier limits replies → earlier <+: s.sys.history.consumed →
      s.sys.history.written <+: replies →
      ∃ done, done <+: s.sys.client.started ∧ frames codec done <+: s.sys.history.consumed ∧
        s.sys.history.written <+: headers codec done := by
    intro earlier replies limits served inside written
    obtain ⟨done, next, startedEq, rfl, rfl, _⟩ :=
      served.framed growing' small' (inside.trans upTo)
    exact ⟨done, ⟨next, startedEq.symm⟩, inside, written⟩
  obtain ⟨limits, stage, interest⟩ := p
  cases stage with
  | idle held =>
      obtain ⟨earlier, torn, consumedEq, _, _, served, _⟩ := traffic
      exact framed served ⟨torn, consumedEq.symm⟩ (List.prefix_refl _)
  | receiving headerDone header data =>
      obtain ⟨earlier, limits₀, prefixBytes, frame, served⟩ := traffic
      exact framed served ⟨_, frame.consumed_eq.symm⟩ (List.prefix_refl _)
  | replying header data rest =>
      obtain ⟨earlier, limits₀, prefixBytes, replies, frame, served, split⟩ := traffic
      have grown : limits = some (growLimits limits₀ prefixBytes) := frame.grown
      subst grown
      obtain ⟨headerFull, dataFull, _⟩ := sound.replying rfl rfl
      have complete := served.frame prefixBytes header data frame.prefixFull headerFull dataFull
      rw [← frame.consumed_eq] at complete
      exact framed complete (List.prefix_refl _) ⟨rest, split⟩

def Received (codec : HeaderCodec) (pushed : List BwMessage) (message : BwMessage)
    (history : History) : Prop :=
  codec.headerBytes message = [] ∨ frames codec (pushed ++ [message]) <+: history.consumed

/-- Every `PushData` that has returned keeps its promise. -/
structure AllHonoured (codec : HeaderCodec) (s : Context Connection) : Prop where
  acks_length : s.sys.client.acks.length = s.sys.client.finished.length
  honoured : ∀ pushed message later ack, s.sys.client.finished = pushed ++ message :: later →
    s.sys.client.acks[pushed.length]? = some ack →
    Honoured message (Received codec pushed message s.sys.history) ack

theorem Acking.allHonoured {s : Context Connection}
    (acking : Acking codec greedy messages this fd s)
    (growing : Growing codec messages.dropLast) (small : Small codec messages) :
    AllHonoured codec s := by
  obtain ⟨⟨p, running⟩, parts, received, acked, written⟩ := acking
  obtain ⟨done, started, consumed, upTo⟩ := running.answered growing small
  have finishedStarted : s.sys.client.finished <+: s.sys.client.started := by
    unfold Client.started
    split
    · exact List.prefix_append _ _
    · exact List.prefix_append _ _
    · exact List.prefix_refl _
  have receivedUpTo : received <+: headers codec done := by
    rw [written] at upTo
    exact (List.prefix_append _ _).trans upTo
  have partsEq : parts = s.sys.client.finished.map codec.headerBytes := by
    obtain ⟨more, startedEq⟩ := finishedStarted
    obtain ⟨next, doneEq⟩ := started
    apply parts_eq_headers codec s.sys.client.finished parts s.sys.client.got more acked.lengths
    rw [startedEq, ← doneEq, headers_append, ← acked.received_eq]
    exact receivedUpTo.trans (List.prefix_append _ _)
  constructor
  · rw [acked.acks_eq, partsEq, List.length_map, List.length_map]
  · intro pushed message later ack finished found _
    constructor
    · by_cases empty : codec.headerBytes message = []
      · exact Or.inl empty
      · apply Or.inr
        have whole : pushed ++ [message] <+: s.sys.client.started := by
          apply List.IsPrefix.trans _ finishedStarted
          rw [finished]
          exact ⟨later, by simp⟩
        -- the header was received, so its frame is one of those that were answered
        have enough : (headers codec (pushed ++ [message])).length ≤
            (headers codec done).length := by
          have lengths := receivedUpTo.length_le
          rw [acked.received_eq, partsEq, finished] at lengths
          change ((((pushed ++ message :: later).map codec.headerBytes).flatten ++ _).length) ≤ _
            at lengths
          rw [List.length_append, ← List.flatMap_def] at lengths
          change (headers codec (pushed ++ message :: later)).length + _ ≤ _ at lengths
          rw [headers_append, headers_cons] at lengths
          rw [headers_append, headers_singleton]
          simp only [List.length_append] at lengths ⊢
          omega
        have covered : pushed ++ [message] <+: done := by
          rcases List.prefix_or_prefix_of_prefix whole started with front | behind
          · exact front
          · rcases List.prefix_concat_iff.mp behind with same | short
            · exact ⟨[], by simp [same]⟩
            · obtain ⟨more, pushedEq⟩ := short
              have some := List.length_pos_iff.mpr empty
              rw [← pushedEq, List.append_assoc, headers_append, headers_append,
                headers_singleton] at enough
              simp only [List.length_append] at enough
              omega
        obtain ⟨more, doneEq⟩ := covered
        apply List.IsPrefix.trans _ consumed
        rw [← doneEq, frames_append codec (pushed ++ [message]) more]
        exact List.prefix_append _ _
    · rw [acked.acks_eq, partsEq, finished] at found
      simp only [List.map_append, List.map_map, List.map_cons] at found
      rw [List.getElem?_append_right (by simp), List.length_map, Nat.sub_self] at found
      cases found
      simp only [HeaderCodec.headerBytes, codec.parse_serialize]
      exact unpack_pack message.header

/-- The last message of a connection may be smaller than earlier ones: then
its `PushData` does not return. -/
theorem turns_honoured (fits : Fits codec messages) (small : Small codec messages)
    (growing : Growing codec messages.dropLast) (mem : Memory) (early : List Outside)
    (turns : List Turn) :
    Sat (turns.foldlM (turn codec greedy) (accepted codec this fd mem messages early))
      (· = .pending) (AllHonoured codec) :=
  (turns_acking fits mem early turns).mono (fun _ => id)
    fun _ acking => acking.allHonoured growing small

end Connection

end RpcBench.Socket
