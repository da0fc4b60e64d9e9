import RpcBench.Socket.Connection

/-! # Frames on a connection

With sizes that never shrink the endpoint takes the client's frames apart
exactly where the client put them together. -/
set_option autoImplicit false

namespace RpcBench.Socket

open ByteList Bandwidth Fallible BwServerEndpoint

variable {σ ι : Type}

def sizes (codec : HeaderCodec) (message : BwMessage) : Nat × Nat :=
  ((codec.headerBytes message).length, message.data.length)

def Growing (codec : HeaderCodec) (messages : List BwMessage) : Prop :=
  messages.Pairwise fun earlier later =>
    (sizes codec earlier).1 ≤ (sizes codec later).1 ∧
      (sizes codec earlier).2 ≤ (sizes codec later).2

/-- Both lengths of every message are `uint32_t`. -/
def Small (codec : HeaderCodec) (messages : List BwMessage) : Prop :=
  ∀ message ∈ messages, (sizes codec message).1 < 2 ^ 32 ∧ (sizes codec message).2 < 2 ^ 32

/-! ## Reading the frames back -/

section Reading

variable {codec : HeaderCodec} {messages : List BwMessage}

theorem fromLE_metaBytes (codec : HeaderCodec) (message : BwMessage)
    (small : (sizes codec message).1 < 2 ^ 32 ∧ (sizes codec message).2 < 2 ^ 32) :
    fromLE ((metaBytes codec message).take 4) = (sizes codec message).1 ∧
      fromLE (((metaBytes codec message).drop 4).take 4) = (sizes codec message).2 := by
  have headerPart : (metaBytes codec message).take 4 = toLE 4 (sizes codec message).1 := by
    rw [metaBytes, List.take_left' (toLE_length _ _)]
    rfl
  have dataPart : ((metaBytes codec message).drop 4).take 4 = toLE 4 (sizes codec message).2 := by
    rw [metaBytes, List.drop_left' (toLE_length _ _), List.take_of_length_le (by simp)]
    rfl
  rw [headerPart, dataPart, fromLE_toLE, fromLE_toLE]
  omega

def lastSizes (codec : HeaderCodec) (done : List BwMessage) : Option (Nat × Nat) :=
  done.getLast?.map (sizes codec)

theorem growLimits_growing {done next : List BwMessage} {message : BwMessage}
    (growing : Growing codec (done ++ message :: next))
    (small : Small codec (done ++ message :: next)) :
    growLimits (lastSizes codec done) (metaBytes codec message) = sizes codec message := by
  obtain ⟨headerEq, dataEq⟩ := fromLE_metaBytes codec message (small message (by simp))
  cases last : done.getLast? with
  | none =>
      simp only [growLimits, lastSizes, last, Option.map_none, headerEq, dataEq]
  | some earlier =>
      have member : earlier ∈ done := List.mem_of_getLast? last
      obtain ⟨headerLe, dataLe⟩ :=
        (List.pairwise_append.mp growing).2.2 earlier member message (by simp)
      simp only [growLimits, lastSizes, last, Option.map_some, headerEq, dataEq,
        max_eq_right headerLe, max_eq_right dataLe]

/-- A prefix that begins where a frame begins is that frame's prefix. -/
theorem prefix_frames {prefixBytes tail : Bytes} {next : List BwMessage}
    (full : prefixBytes.length = 8) (upTo : prefixBytes ++ tail <+: frames codec next) :
    ∃ message rest, next = message :: rest ∧ prefixBytes = metaBytes codec message ∧
      tail <+: codec.headerBytes message ++ (message.data ++ frames codec rest) := by
  cases next with
  | nil =>
      have short := upTo.length_le
      simp only [frames, List.flatMap_nil, List.length_append, List.length_nil] at short
      omega
  | cons message rest =>
      rw [frames_cons, frameBytes] at upTo
      obtain ⟨left, split⟩ := upTo
      have parts : prefixBytes ++ (tail ++ left) = metaBytes codec message ++
          (codec.headerBytes message ++ (message.data ++ frames codec rest)) := by
        simpa only [List.append_assoc] using split
      obtain ⟨prefixEq, restEq⟩ := List.append_inj parts (by rw [full, metaBytes_length])
      exact ⟨message, rest, rfl, prefixEq, left, restEq⟩

/-- The header and the payload of a complete frame are the message's. -/
theorem parts_eq {header data rest : Bytes} {message : BwMessage}
    (upTo : header ++ data <+: codec.headerBytes message ++ (message.data ++ rest))
    (headerFull : header.length = (sizes codec message).1)
    (dataFull : data.length = (sizes codec message).2) :
    header = codec.headerBytes message ∧ data = message.data := by
  obtain ⟨left, split⟩ := upTo
  rw [List.append_assoc] at split
  obtain ⟨headerEq, restEq⟩ := List.append_inj split headerFull
  exact ⟨headerEq, (List.append_inj restEq dataFull).1⟩

theorem parts_prefix {header data rest : Bytes} {message : BwMessage}
    (upTo : header ++ data <+: codec.headerBytes message ++ (message.data ++ rest))
    (phase : header.length ≤ (sizes codec message).1 ∧ data = [] ∨
      header.length = (sizes codec message).1 ∧ data.length ≤ (sizes codec message).2) :
    header <+: codec.headerBytes message ∧ data <+: message.data ∧
      (data ≠ [] → header = codec.headerBytes message) := by
  rcases phase with ⟨headerLe, rfl⟩ | ⟨headerFull, dataLe⟩
  · rw [List.append_nil] at upTo
    refine ⟨?_, List.nil_prefix, fun some => absurd rfl some⟩
    exact List.prefix_of_prefix_length_le upTo (List.prefix_append _ _) headerLe
  · obtain ⟨left, split⟩ := upTo
    rw [List.append_assoc] at split
    obtain ⟨headerEq, restEq⟩ := List.append_inj split headerFull
    refine ⟨headerEq ▸ List.prefix_refl _, ?_, fun _ => headerEq⟩
    have dataUpTo : data <+: message.data ++ rest := ⟨left, restEq⟩
    exact List.prefix_of_prefix_length_le dataUpTo (List.prefix_append _ _) dataLe

theorem sizes_le_growLimits (limits : Option (Nat × Nat)) {message : BwMessage}
    (small : (sizes codec message).1 < 2 ^ 32 ∧ (sizes codec message).2 < 2 ^ 32) :
    (sizes codec message).1 ≤ (growLimits limits (metaBytes codec message)).1 ∧
      (sizes codec message).2 ≤ (growLimits limits (metaBytes codec message)).2 := by
  obtain ⟨headerEq, dataEq⟩ := fromLE_metaBytes codec message small
  cases limits with
  | none =>
      simp only [growLimits, headerEq, dataEq]
      exact ⟨le_rfl, le_rfl⟩
  | some limits =>
      simp only [growLimits, headerEq, dataEq]
      exact ⟨le_max_right _ _, le_max_right _ _⟩

/-- The limits of a complete frame are its sizes, if no earlier message makes
them larger or no later message can fill them. -/
theorem growLimits_complete {done rest : List BwMessage} {message : BwMessage}
    {header data : Bytes} (growing : Growing codec (done ++ message :: rest).dropLast)
    (small : Small codec (done ++ message :: rest))
    (upTo : header ++ data <+: codec.headerBytes message ++ (message.data ++ frames codec rest))
    (headerFull : header.length = (growLimits (lastSizes codec done) (metaBytes codec message)).1)
    (dataFull : data.length = (growLimits (lastSizes codec done) (metaBytes codec message)).2) :
    growLimits (lastSizes codec done) (metaBytes codec message) = sizes codec message := by
  cases rest with
  | nil =>
      obtain ⟨headerLe, dataLe⟩ := sizes_le_growLimits (lastSizes codec done)
        (small message (by simp))
      have lengths := upTo.length_le
      simp only [frames, List.flatMap_nil, List.append_nil, List.length_append] at lengths
      change _ ≤ (sizes codec message).1 + (sizes codec message).2 at lengths
      apply Prod.ext
      · omega
      · omega
  | cons next rest =>
      have front : (done ++ message :: next :: rest).dropLast =
          done ++ message :: (next :: rest).dropLast := by
        rw [List.dropLast_append_of_ne_nil (by simp)]
        rfl
      rw [front] at growing
      apply growLimits_growing growing
      intro other member
      apply small other
      rw [← front] at member
      exact (List.dropLast_sublist _).subset member

/-- The served frames are the client's first ones, even if its last message is
smaller than an earlier one. -/
theorem Served.framed {consumed replies : Bytes} {limits : Option (Nat × Nat)}
    (served : Served consumed limits replies) (growing : Growing codec messages.dropLast)
    (small : Small codec messages) :
    consumed <+: frames codec messages →
      ∃ done next, messages = done ++ next ∧ consumed = frames codec done ∧
        replies = headers codec done ∧ limits = lastSizes codec done := by
  induction served with
  | nil =>
      intro _
      exact ⟨[], messages, rfl, rfl, rfl, rfl⟩
  | frame earlier prefixBytes header data prefixFull headerFull dataFull ih =>
      intro upTo
      obtain ⟨done, next, rfl, rfl, rfl, rfl⟩ := ih ((List.prefix_append _ _).trans upTo)
      rw [frames_append] at upTo
      have upTo' := (List.prefix_append_right_inj _).mp upTo
      rw [List.append_assoc] at upTo'
      obtain ⟨message, rest, rfl, rfl, tail⟩ := prefix_frames prefixFull upTo'
      have complete := growLimits_complete growing small tail headerFull dataFull
      rw [complete] at headerFull dataFull ⊢
      obtain ⟨rfl, rfl⟩ := parts_eq tail headerFull dataFull
      refine ⟨done ++ [message], rest, by simp, ?_, ?_, ?_⟩
      · rw [frames_append, frames_singleton, frameBytes]
      · rw [headers_append, headers_singleton]
      · simp [lastSizes]

/-- The served frames are the client's first ones. -/
theorem Served.exact {consumed replies : Bytes} {limits : Option (Nat × Nat)}
    (served : Served consumed limits replies) (growing : Growing codec messages)
    (small : Small codec messages) (upTo : consumed <+: frames codec messages) :
    ∃ done next, messages = done ++ next ∧ consumed = frames codec done ∧
      replies = headers codec done ∧ limits = lastSizes codec done :=
  served.framed (growing.sublist (List.dropLast_sublist messages)) small upTo

/-- The frame being received is the client's next one, with its own limits. -/
theorem OpenFrame.exact {current limits : Option (Nat × Nat)}
    {earlier prefixBytes header data consumed replies : Bytes}
    (frame : OpenFrame current earlier limits prefixBytes header data consumed)
    (served : Served earlier limits replies) (growing : Growing codec messages)
    (small : Small codec messages) (upTo : consumed <+: frames codec messages) :
    ∃ done message rest, messages = done ++ message :: rest ∧ earlier = frames codec done ∧
      replies = headers codec done ∧ current = some (sizes codec message) ∧
      prefixBytes = metaBytes codec message ∧
      header ++ data <+: codec.headerBytes message ++ (message.data ++ frames codec rest) := by
  have consumedEq := frame.consumed_eq
  subst consumedEq
  obtain ⟨done, next, rfl, rfl, rfl, rfl⟩ :=
    served.exact growing small ((List.prefix_append _ _).trans upTo)
  rw [frames_append] at upTo
  have upTo' := (List.prefix_append_right_inj _).mp upTo
  rw [List.append_assoc] at upTo'
  obtain ⟨message, rest, rfl, rfl, tail⟩ := prefix_frames frame.prefixFull upTo'
  refine ⟨done, message, rest, rfl, rfl, rfl, ?_, rfl, tail⟩
  rw [frame.grown, growLimits_growing growing small]

end Reading

/-! ## What the buffers hold -/

def Collected (mem : Memory) (view : BufferPtr) (size : Nat) (bytes : Bytes) : Prop :=
  ∃ buffer, view = some buffer ∧ buffer.msgLength = size ∧
    buffer.bytesHandled = bytes.length ∧ mem.read buffer.ptr 0 bytes.length = some bytes

def HoldsMessage (codec : HeaderCodec) (s : Context σ) (message : BwMessage) : Prop :=
  Collected s.mem s.ep.headerBuffer (sizes codec message).1 (codec.headerBytes message) ∧
    Collected s.mem s.ep.dataBuffer (sizes codec message).2 message.data

/-- The endpoint is at a frame boundary of the client, or has taken exactly a
part of the next frame and waits for exactly the rest of it; it has replied
with the headers of the frames received so far and nothing else. -/
def FramesExact (codec : HeaderCodec) (messages : List BwMessage) (history : History)
    (s : Context σ) : Prop :=
  ∃ done next, messages = done ++ next ∧
    match s.ep.state with
    | .NEW_RPC => history.consumed = frames codec done ∧ history.written = headers codec done ∧
        ∀ earlier message, done = earlier ++ [message] → HoldsMessage codec s message
    | .DATA_RECVED => False
    | .REPLYING => ∃ earlier message view rest, done = earlier ++ [message] ∧
        history.consumed = frames codec done ∧ HoldsMessage codec s message ∧
        s.ep.txQueue = [some view] ∧ view.remaining s.mem = some rest ∧
        history.written ++ rest = headers codec done
    | _ => ∃ message later header data, next = message :: later ∧
        history.consumed = frames codec done ++ (metaBytes codec message ++ header ++ data) ∧
        history.written = headers codec done ∧
        header <+: codec.headerBytes message ∧ data <+: message.data ∧
        (data ≠ [] → header = codec.headerBytes message) ∧
        Collected s.mem s.ep.headerBuffer (sizes codec message).1 header ∧
        Collected s.mem s.ep.dataBuffer (sizes codec message).2 data

theorem viewOn_collected {mem : Memory} {ptr limit : Nat} {known : Bytes}
    (holds : Holds mem ptr limit known) :
    Collected mem (some (viewOn ptr limit known.length)) limit known := by
  have fits := holds.length_le
  obtain ⟨content, found, lengthEq, known_eq⟩ := holds
  refine ⟨_, rfl, rfl, rfl, ?_⟩
  simp only [Memory.read, viewOn, found]
  rw [if_pos (by omega), List.drop_zero, known_eq]

namespace Connection

variable {codec : HeaderCodec} {greedy : Bool} {messages : List BwMessage} {this : Token}
  {fd : RawFd}

theorem Conserves.consumed_prefix {c : Connection} (conserves : Conserves codec messages c) :
    c.history.consumed <+: frames codec messages := by
  obtain ⟨pushed, received, inOrder, pushedEq, _⟩ := conserves
  have whole : frames codec messages =
      pushed ++ (c.client.unsent ++ frames codec c.client.todo) := by
    rw [← inOrder.messages_eq, frames_append, ← inOrder.pushed_eq, List.append_assoc]
  rw [whole, pushedEq, List.append_assoc]
  exact List.prefix_append _ _

theorem Running.framesExact {s : Context Connection} {p : Session}
    (running : Running codec greedy messages this fd s p) (growing : Growing codec messages)
    (small : Small codec messages) : FramesExact codec messages s.sys.history s := by
  have rep := running.live.tracks.represents
  have body := rep.body
  have sound := running.live.tracks.sound
  have traffic := running.live.settled.1.traffic
  have upTo := running.conserves.consumed_prefix
  change Traffic p s.sys.history.consumed s.sys.history.written _ at traffic
  unfold FramesExact
  obtain ⟨limits, stage, interest⟩ := p
  cases stage with
  | idle held =>
      obtain ⟨earlier, torn, consumedEq, _, tornDrained, served, last⟩ := traffic
      obtain rfl : torn = [] := by
        by_contra some
        exact tornDrained some
      rw [List.append_nil] at consumedEq
      subst consumedEq
      obtain ⟨done, next, rfl, consumedEq, writtenEq, limitsEq⟩ := served.exact growing small upTo
      have state : s.ep.state = .NEW_RPC := rep.state_eq
      refine ⟨done, next, rfl, ?_⟩
      rw [state]
      refine ⟨consumedEq, writtenEq, ?_⟩
      intro front message same
      subst same
      cases held with
      | none =>
          -- nothing has been received, so there is no last message
          change s.sys.history.consumed = [] at last
          rw [last, frames_append, frames_singleton, frameBytes] at consumedEq
          have lengths := congrArg List.length consumedEq
          simp only [List.length_nil, List.length_append, metaBytes_length] at lengths
          omega
      | some pair =>
          obtain ⟨header, data⟩ := pair
          obtain ⟨earlier', limits', prefixBytes, replies, frame, served'⟩ := last
          have limitsEq' : limits = some (sizes codec message) := by
            simpa [lastSizes] using limitsEq
          subst limitsEq'
          obtain ⟨headerPtr, dataPtr, header', data', frameEq, repFrame⟩ := body
          cases Option.some.inj frameEq
          have headerFull : header.length = (sizes codec message).1 := sound.2.1
          have dataFull : data.length = (sizes codec message).2 := sound.2.2
          have same : earlier' ++ (prefixBytes ++ header ++ data) =
              frames codec front ++ (metaBytes codec message ++ codec.headerBytes message ++
                message.data) := by
            rw [← frame.consumed_eq, consumedEq, frames_append, frames_singleton, frameBytes]
          have lengths : (prefixBytes ++ header ++ data).length = (metaBytes codec message ++
              codec.headerBytes message ++ message.data).length := by
            simp only [List.length_append, frame.prefixFull, metaBytes_length, headerFull, dataFull,
              sizes]
          have tail := (List.append_inj' same lengths).2
          have front' := List.append_inj' tail dataFull
          obtain rfl : header = codec.headerBytes message :=
            (List.append_inj' front'.1 headerFull).2
          obtain rfl : data = message.data := front'.2
          rw [HoldsMessage, repFrame.headerView, repFrame.dataView]
          exact ⟨viewOn_collected repFrame.headerHolds, viewOn_collected repFrame.dataHolds⟩
  | receiving headerDone header data =>
      obtain ⟨earlier, limits₀, prefixBytes, frame, served⟩ := traffic
      obtain ⟨done, message, rest, rfl, rfl, writtenEq, limitsEq, rfl, tail⟩ :=
        frame.exact served growing small upTo
      change limits = _ at limitsEq
      subst limitsEq
      obtain ⟨headerPtr, dataPtr, header', data', frameEq, repFrame⟩ := body
      cases Option.some.inj frameEq
      obtain ⟨headerUpTo, dataUpTo, order⟩ := parts_prefix tail
        ((sound.receiving rfl rfl).1.imp (fun part => ⟨by omega, part.2⟩)
          fun part => ⟨part.1, by omega⟩)
      have received : ∃ message' later header' data', message :: rest = message' :: later ∧
          s.sys.history.consumed =
            frames codec done ++ (metaBytes codec message' ++ header' ++ data') ∧
          s.sys.history.written = headers codec done ∧
          header' <+: codec.headerBytes message' ∧ data' <+: message'.data ∧
          (data' ≠ [] → header' = codec.headerBytes message') ∧
          Collected s.mem s.ep.headerBuffer (sizes codec message').1 header' ∧
          Collected s.mem s.ep.dataBuffer (sizes codec message').2 data' := by
        refine ⟨message, rest, header, data, rfl, frame.consumed_eq, writtenEq, headerUpTo,
          dataUpTo, order, ?_, ?_⟩
        · rw [repFrame.headerView]
          exact viewOn_collected repFrame.headerHolds
        · rw [repFrame.dataView]
          exact viewOn_collected repFrame.dataHolds
      refine ⟨done, message :: rest, rfl, ?_⟩
      rw [repFrame.state]
      cases headerDone with
      | false => exact received
      | true => exact received
  | replying header data rest =>
      obtain ⟨earlier, limits₀, prefixBytes, replies, frame, served, split⟩ := traffic
      obtain ⟨done, message, later, rfl, rfl, rfl, limitsEq, rfl, tail⟩ :=
        frame.exact served growing small upTo
      change limits = _ at limitsEq
      subst limitsEq
      obtain ⟨headerPtr, dataPtr, header', data', frameEq, repFrame⟩ := body
      cases Option.some.inj frameEq
      obtain ⟨headerFull, dataFull, suffix⟩ := sound.replying rfl rfl
      obtain ⟨rfl, rfl⟩ := parts_eq tail headerFull dataFull
      refine ⟨done ++ [message], later, by simp, ?_⟩
      rw [repFrame.state]
      refine ⟨done, message, _, rest, rfl, ?_, ?_, repFrame.queue,
        remaining_viewOn repFrame.headerHolds headerFull suffix repFrame.headerSmall, ?_⟩
      · rw [frame.consumed_eq, frames_append, frames_singleton, frameBytes]
      · rw [HoldsMessage, repFrame.headerView, repFrame.dataView]
        exact ⟨viewOn_collected repFrame.headerHolds, viewOn_collected repFrame.dataHolds⟩
      · rw [split, headers_append, headers_singleton]

end Connection

end RpcBench.Socket
