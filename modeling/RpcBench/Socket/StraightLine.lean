import RpcBench.Socket.Stream

/-! # The resumable endpoint and the blocking loop

`straightLine` is the loop that the state machine of the endpoint unrolls:
receive the prefix, read the whole header buffer, read the whole data buffer,
write the whole header buffer, from the beginning again. -/
set_option autoImplicit false

namespace RpcBench.Socket

open ByteList Fallible BwServerEndpoint

theorem readWhole_rest {len : Nat} {stream bytes rest : Bytes}
    (read : readWhole len stream = some (bytes, rest)) :
    rest.length + len = stream.length := by
  obtain ⟨rfl, full⟩ := readWhole_eq_append read
  rw [List.length_append]
  omega

/-- The bytes the blocking loop writes for a stream, with the buffer limits it
starts from. -/
def straightLine (limits : Option (Nat × Nat)) (stream : Bytes) : Bytes :=
  match _metaRead : readWhole 8 stream with
  | none => []
  | some (prefixBytes, afterMeta) =>
    let limits := growLimits limits prefixBytes
    match _headerRead : readWhole limits.1 afterMeta with
    | none => []
    | some (header, afterHeader) =>
      match _dataRead : readWhole limits.2 afterHeader with
      | none => []
      | some (_, rest) => header ++ straightLine (some limits) rest
termination_by stream.length
decreasing_by
  have metaRest := readWhole_rest _metaRead
  have headerRest := readWhole_rest _headerRead
  have dataRest := readWhole_rest _dataRead
  omega

theorem straightLine_torn (limits : Option (Nat × Nat)) {stream : Bytes}
    (torn : stream.length < 8) : straightLine limits stream = [] := by
  rw [straightLine]
  split
  · rfl
  · next metaRead => simp [readWhole_short torn] at metaRead

theorem straightLine_frame (limits : Option (Nat × Nat)) (prefixBytes header data rest : Bytes)
    (prefixFull : prefixBytes.length = 8)
    (headerFull : header.length = (growLimits limits prefixBytes).1)
    (dataFull : data.length = (growLimits limits prefixBytes).2) :
    straightLine limits (prefixBytes ++ header ++ data ++ rest) =
      header ++ straightLine (some (growLimits limits prefixBytes)) rest := by
  have metaEq : readWhole 8 (prefixBytes ++ header ++ data ++ rest) =
      some (prefixBytes, header ++ (data ++ rest)) := by
    rw [← prefixFull, List.append_assoc, List.append_assoc]
    exact readWhole_append _ _
  have headerEq : readWhole (growLimits limits prefixBytes).1 (header ++ (data ++ rest)) =
      some (header, data ++ rest) := by
    rw [← headerFull]
    exact readWhole_append _ _
  have dataEq : readWhole (growLimits limits prefixBytes).2 (data ++ rest) = some (data, rest) := by
    rw [← dataFull]
    exact readWhole_append _ _
  rw [straightLine]
  split
  · next missing => exact absurd (metaEq.symm.trans missing) (by simp)
  · next prefixBytes' afterMeta metaRead =>
      rw [metaEq] at metaRead
      simp only [Option.some.injEq, Prod.mk.injEq] at metaRead
      obtain ⟨rfl, rfl⟩ := metaRead
      simp only
      split
      · next missing => exact absurd (headerEq.symm.trans missing) (by simp)
      · next header' afterHeader headerRead =>
          rw [headerEq] at headerRead
          simp only [Option.some.injEq, Prod.mk.injEq] at headerRead
          obtain ⟨rfl, rfl⟩ := headerRead
          split
          · next missing => exact absurd (dataEq.symm.trans missing) (by simp)
          · next data' rest' dataRead =>
              rw [dataEq] at dataRead
              simp only [Option.some.injEq, Prod.mk.injEq] at dataRead
              rw [dataRead.2]

theorem straightLine_incomplete (limits : Option (Nat × Nat)) (prefixBytes body : Bytes)
    (prefixFull : prefixBytes.length = 8)
    (short : body.length <
      (growLimits limits prefixBytes).1 + (growLimits limits prefixBytes).2) :
    straightLine limits (prefixBytes ++ body) = [] := by
  have metaEq : readWhole 8 (prefixBytes ++ body) = some (prefixBytes, body) := by
    rw [← prefixFull]
    exact readWhole_append _ _
  rw [straightLine]
  split
  · rfl
  · next prefixBytes' afterMeta metaRead =>
      rw [metaEq] at metaRead
      simp only [Option.some.injEq, Prod.mk.injEq] at metaRead
      obtain ⟨rfl, rfl⟩ := metaRead
      simp only
      split
      · rfl
      · next header afterHeader headerRead =>
          have headerRest := readWhole_rest headerRead
          split
          · rfl
          · next data rest dataRead =>
              have dataRest := readWhole_rest dataRead
              omega

/-- The loop answers served frames as the endpoint did, and goes on from there. -/
theorem Served.straightLine {consumed replies : Bytes} {limits : Option (Nat × Nat)}
    (served : Served consumed limits replies) :
    ∀ rest, straightLine none (consumed ++ rest) =
      replies ++ RpcBench.Socket.straightLine limits rest := by
  induction served with
  | nil => intro rest; rfl
  | frame _ prefixBytes header data prefixFull headerFull dataFull ih =>
      intro rest
      rw [List.append_assoc, ih,
        straightLine_frame _ prefixBytes header data rest prefixFull headerFull dataFull,
        List.append_assoc]

theorem Stream.Running.straightLine {this : Token} {fd : RawFd} {whole : Bytes}
    {s : Context Stream} (running : Stream.Running this fd whole s) :
    s.sys.history.written <+: straightLine none whole ∧
      (s.sys.input = [] → s.ep.txQueue = [] →
        s.sys.history.written = RpcBench.Socket.straightLine none whole) := by
  obtain ⟨⟨p, live⟩, split⟩ := running
  have traffic := live.settled.1.traffic
  have sound := live.tracks.sound
  have body := live.tracks.represents.body
  obtain ⟨limits, stage, interest⟩ := p
  change Traffic _ s.sys.history.consumed s.sys.history.written _ at traffic
  cases stage with
  | idle held =>
      obtain ⟨earlier, torn, consumedEq, tornShort, _, served, _⟩ := traffic
      have loop : RpcBench.Socket.straightLine none whole =
          s.sys.history.written ++ RpcBench.Socket.straightLine limits (torn ++ s.sys.input) := by
        rw [← split, consumedEq, List.append_assoc]
        exact served.straightLine _
      refine ⟨⟨_, loop.symm⟩, ?_⟩
      intro consumedAll _
      rw [loop, consumedAll, List.append_nil, straightLine_torn _ tornShort, List.append_nil]
  | receiving headerDone header data =>
      obtain ⟨earlier, limits₀, prefixBytes, frame, served⟩ := traffic
      have loop : RpcBench.Socket.straightLine none whole =
          s.sys.history.written ++ RpcBench.Socket.straightLine limits₀
            (prefixBytes ++ (header ++ data ++ s.sys.input)) := by
        rw [← split, frame.consumed_eq, List.append_assoc, served.straightLine]
        simp only [List.append_assoc]
      refine ⟨⟨_, loop.symm⟩, ?_⟩
      intro consumedAll _
      have grown : limits = some (growLimits limits₀ prefixBytes) := frame.grown
      subst grown
      have short : (header ++ data ++ s.sys.input).length <
          (growLimits limits₀ prefixBytes).1 + (growLimits limits₀ prefixBytes).2 := by
        rw [consumedAll, List.append_nil, List.length_append]
        rcases (sound.receiving rfl rfl).1 with ⟨partly, rfl⟩ | ⟨full, partly⟩
        · simp only [List.length_nil]
          omega
        · omega
      rw [loop, straightLine_incomplete _ _ _ frame.prefixFull short, List.append_nil]
  | replying header data rest =>
      obtain ⟨earlier, limits₀, prefixBytes, replies, frame, served, sent⟩ := traffic
      have grown : limits = some (growLimits limits₀ prefixBytes) := frame.grown
      subst grown
      obtain ⟨full, dataFull, _⟩ := sound.replying rfl rfl
      have loop : RpcBench.Socket.straightLine none whole =
          s.sys.history.written ++ (rest ++ RpcBench.Socket.straightLine
            (some (growLimits limits₀ prefixBytes)) s.sys.input) := by
        rw [← List.append_assoc, sent, ← split, frame.consumed_eq, List.append_assoc,
          served.straightLine, straightLine_frame _ prefixBytes header data _ frame.prefixFull
            full dataFull, List.append_assoc]
      refine ⟨⟨_, loop.symm⟩, ?_⟩
      intro _ unqueued
      obtain ⟨headerPtr, dataPtr, header', data', _, rep⟩ := body
      have queue := rep.queue
      simp [unqueued, Stage.queue] at queue

/-- In every schedule of handler calls the endpoint writes what the blocking
loop writes on the same stream, as far as it has come; any two schedules
therefore write the same replies. -/
theorem endpoint_refines_straightLine (this : Token) (fd : RawFd) (mem : Memory) (stream : Bytes)
    (ended : Bool) (calls : List (Call (Option Nat))) :
    Sat (calls.foldlM (handle Stream.kernel.toKernel)
        (Stream.accepted this fd mem stream ended)) (· = .pending)
      (fun s =>
        s.sys.history.written <+: straightLine none stream ∧
        (s.sys.input = [] → s.ep.txQueue = [] →
          s.sys.history.written = straightLine none stream) ∧
        ∀ (this' : Token) (fd' : RawFd) (mem' : Memory) (ended' : Bool)
          (others : List (Call (Option Nat))),
          Sat (others.foldlM (handle Stream.kernel.toKernel)
              (Stream.accepted this' fd' mem' stream ended')) (· = .pending)
            (fun s' =>
              (s.sys.history.written <+: s'.sys.history.written ∨
                s'.sys.history.written <+: s.sys.history.written) ∧
              (s.sys.input = [] → s.ep.txQueue = [] → s'.sys.input = [] → s'.ep.txQueue = [] →
                s.sys.history.written = s'.sys.history.written))) := by
  refine (Stream.calls_running this fd mem stream ended calls).mono (fun _ => id) ?_
  intro s running
  obtain ⟨written, finished⟩ := running.straightLine
  refine ⟨written, finished, ?_⟩
  intro this' fd' mem' ended' others
  refine (Stream.calls_running this' fd' mem' stream ended' others).mono (fun _ => id) ?_
  intro s' running'
  obtain ⟨written', finished'⟩ := running'.straightLine
  refine ⟨List.prefix_or_prefix_of_prefix written written', ?_⟩
  intro input queue input' queue'
  rw [finished input queue, finished' input' queue']

def oneFrame : Bytes := [2, 0, 0, 0, 1, 0, 0, 0, 5, 6, 7]

def untouched : Memory := { block := fun _ => none, next := 0, stale := 0 }

def atOnce : List (Call (Option Nat)) :=
  [.recvReady { recvs := [some 8], header := some 2, data := some 1, sends := [some 2] }]

def inPieces : List (Call (Option Nat)) :=
  [.recvReady { recvs := [some 3, none, some 5], header := some 1, data := none, sends := [] },
    .recvReady { recvs := [], header := some 1, data := none, sends := [] },
    .recvReady { recvs := [], header := none, data := some 1, sends := [some 1, none] },
    .sendReady [some 1]]

def leftOver (called : Except Stop (Context Stream)) :
    Option (Bytes × List BufferPtr × Bytes) :=
  called.toOption.map fun s => (s.sys.input, s.ep.txQueue, s.sys.history.written)

theorem endpoint_refines_straightLine_pieces :
    ∃ s s', atOnce.foldlM (handle Stream.kernel.toKernel)
          (Stream.accepted 1 5 untouched oneFrame false) = .ok s ∧
      inPieces.foldlM (handle Stream.kernel.toKernel)
          (Stream.accepted 2 6 untouched oneFrame true) = .ok s' ∧
      s.sys.history.written = [5, 6] ∧ s.sys.history.written = straightLine none oneFrame ∧
      s.sys.history.written = s'.sys.history.written := by
  have law : ∀ (calls others : List (Call (Option Nat))) (s s' : Context Stream),
      calls.foldlM (handle Stream.kernel.toKernel)
        (Stream.accepted 1 5 untouched oneFrame false) = .ok s →
      others.foldlM (handle Stream.kernel.toKernel)
        (Stream.accepted 2 6 untouched oneFrame true) = .ok s' →
      s.sys.input = [] → s.ep.txQueue = [] → s'.sys.input = [] → s'.ep.txQueue = [] →
      s.sys.history.written = straightLine none oneFrame ∧
        s.sys.history.written = s'.sys.history.written := by
    intro calls others s s' ran ran' input queue input' queue'
    obtain ⟨_, finished, agreed⟩ :=
      (endpoint_refines_straightLine 1 5 untouched oneFrame false calls).of_ok ran
    have same := (agreed 2 6 untouched true others).of_ok ran'
    exact ⟨finished input queue, same.2 input queue input' queue'⟩
  have all : leftOver (atOnce.foldlM (handle Stream.kernel.toKernel)
      (Stream.accepted 1 5 untouched oneFrame false)) = some ([], [], [5, 6]) := by
    decide +kernel
  have others : leftOver (inPieces.foldlM (handle Stream.kernel.toKernel)
      (Stream.accepted 2 6 untouched oneFrame true)) = some ([], [], [5, 6]) := by
    decide +kernel
  cases ran : atOnce.foldlM (handle Stream.kernel.toKernel)
      (Stream.accepted 1 5 untouched oneFrame false) with
  | error stop =>
      rw [ran] at all
      cases all
  | ok s =>
      cases ran' : inPieces.foldlM (handle Stream.kernel.toKernel)
          (Stream.accepted 2 6 untouched oneFrame true) with
      | error stop =>
          rw [ran'] at others
          cases others
      | ok s' =>
          rw [ran] at all
          rw [ran'] at others
          simp only [leftOver, Except.toOption, Option.map_some, Option.some.injEq,
            Prod.mk.injEq] at all others
          obtain ⟨input, queue, written⟩ := all
          obtain ⟨input', queue', _⟩ := others
          exact ⟨s, s', rfl, rfl, written, law _ _ s s' ran ran' input queue input' queue'⟩

end RpcBench.Socket
