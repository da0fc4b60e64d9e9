import RpcBench.Acl.Bypass
import RpcBench.Grpc.Workload
import RpcBench.Lib.Interleave

/-! # The contexts of the filter's VM

A VM of the filter has a context for each request that is in flight, and the
host calls them in any order; a panic in one ends them all. -/
set_option autoImplicit false

namespace RpcBench.Acl

open ByteList Grpc

/-- A message as gRPC frames it, uncompressed: the flag, the length with its
high byte first, the message. -/
def frame (message : Bytes) : Bytes := 0 :: ((toLE 4 message.length).reverse ++ message)

theorem readFrame_frame (message rest : Bytes) (small : message.length < 2 ^ 32) :
    readFrame (frame message ++ rest) = some (0, message, rest) := by
  have length : fromLE (toLE 4 message.length) = message.length := by
    rw [fromLE_toLE]
    exact Nat.mod_eq_of_lt small
  simp only [toLE] at length
  simp only [frame, toLE, List.reverse_cons, List.reverse_nil, List.nil_append,
    List.cons_append, readFrame, length]
  rw [readWhole_append, Option.map_some]

theorem deliver_frame {codec : RequestCodec} {stream : HttpStream} {last message : Bytes}
    (framed : stream.requestBody ++ last = frame message) :
    deliver codec last true stream =
      .ok (judge codec message { stream with requestBody := frame message }) := by
  have long : 5 ≤ (stream.requestBody ++ last).length := by
    rw [framed]
    simp [frame]
  have payload : (frame message).drop 5 = message := by
    simp [frame, toLE]
  rw [deliver_last long, framed, payload]

inductive HostCall where
  | requestHeaders (numOfHeaders : Nat) (endOfStream : Bool)
  | requestBody (chunk : Bytes) (endOfStream : Bool)
  deriving DecidableEq, Repr

structure HttpContext where
  actions : List Action
  stream : HttpStream
  deriving DecidableEq, Repr

namespace HttpContext

def new : HttpContext :=
  { actions := [], stream := { requestBody := [], responseHeaders := [], replies := [] } }

def call (codec : RequestCodec) (context : HttpContext) : HostCall → Except Panic HttpContext
  | .requestHeaders numOfHeaders endOfStream =>
    let (_, stream) :=
      AccessControl.onHttpRequestHeaders numOfHeaders endOfStream context.stream
    .ok { context with stream }
  | .requestBody chunk endOfStream => do
    let (action, stream) ← deliver codec chunk endOfStream context.stream
    return { actions := context.actions ++ [action], stream }

end HttpContext

structure Body where
  numOfHeaders : Nat
  front : List Bytes
  last : Bytes
  deriving DecidableEq, Repr

namespace Body

def whole (body : Body) : Bytes := body.front.flatten ++ body.last

def calls (body : Body) : List HostCall :=
  .requestHeaders body.numOfHeaders false ::
    (body.front.map (fun chunk => .requestBody chunk false) ++ [.requestBody body.last true])

end Body

/-- The VM after these calls, each with the id of its context. -/
def vm (codec : RequestCodec) (calls : List (UInt32 × HostCall)) :
    Except Panic (UInt32 → HttpContext) :=
  calls.foldlM (Interleave.step (HttpContext.call codec)) fun _ => HttpContext.new

section Contexts

variable {codec : RequestCodec}

theorem foldlM_front (front : List Bytes) :
    ∀ context : HttpContext,
      (front.map fun chunk => HostCall.requestBody chunk false).foldlM (HttpContext.call codec)
          context =
        .ok
          { actions := context.actions ++ List.replicate front.length .Pause
            stream :=
              { context.stream with
                requestBody := context.stream.requestBody ++ front.flatten } } := by
  induction front with
  | nil =>
      intro context
      simp [pure, Except.pure]
  | cons chunk front ih =>
      intro context
      have paused : context.call codec (.requestBody chunk false) =
          .ok
            { actions := context.actions ++ [.Pause]
              stream :=
                { context.stream with requestBody := context.stream.requestBody ++ chunk } } :=
        rfl
      rw [List.map_cons, List.foldlM_cons, paused]
      simp only [bind, Except.bind]
      rw [ih]
      simp only [List.append_assoc, List.flatten_cons, List.length_cons, List.replicate_succ,
        List.singleton_append]

theorem foldlM_early (numOfHeaders : Nat) (front : List Bytes) :
    (HostCall.requestHeaders numOfHeaders false ::
        front.map fun chunk => HostCall.requestBody chunk false).foldlM (HttpContext.call codec)
          HttpContext.new =
      .ok
        { actions := List.replicate front.length .Pause
          stream := { requestBody := front.flatten, responseHeaders := [], replies := [] } } := by
  have begun : HttpContext.new.call codec (.requestHeaders numOfHeaders false) =
      .ok HttpContext.new := rfl
  rw [List.foldlM_cons, begun]
  simp only [bind, Except.bind]
  rw [foldlM_front]
  simp only [HttpContext.new, List.nil_append]

theorem foldlM_calls {body : Body} {message : Bytes} (written : body.whole = frame message) :
    body.calls.foldlM (HttpContext.call codec) HttpContext.new =
      .ok
        { actions := List.replicate body.front.length .Pause ++
            [(judge codec message
              { requestBody := frame message, responseHeaders := [], replies := [] }).1]
          stream := (judge codec message
            { requestBody := frame message, responseHeaders := [], replies := [] }).2 } := by
  have decided : deliver codec body.last true
      { requestBody := body.front.flatten, responseHeaders := [], replies := [] } =
        .ok (judge codec message
          { requestBody := frame message, responseHeaders := [], replies := [] }) :=
    deliver_frame written
  have split : body.calls = (HostCall.requestHeaders body.numOfHeaders false ::
      body.front.map fun chunk => HostCall.requestBody chunk false) ++
        [.requestBody body.last true] := rfl
  rw [split, List.foldlM_append, foldlM_early]
  simp only [bind, Except.bind, List.foldlM_cons, List.foldlM_nil, HttpContext.call, decided]
  rfl

/-- A beginning of the calls that is not all of them stops before the last chunk. -/
theorem early_calls {body : Body} {calls : List HostCall} (begun : calls <+: body.calls)
    (unfinished : calls ≠ body.calls) :
    calls = [] ∨ ∃ chunks, chunks <+: body.front ∧
      calls = .requestHeaders body.numOfHeaders false ::
        chunks.map fun chunk => .requestBody chunk false := by
  rcases List.prefix_cons_iff.mp begun with empty | ⟨rest, same, inside⟩
  · exact Or.inl empty
  · refine Or.inr ?_
    rcases List.prefix_concat_iff.mp inside with all | some
    · rw [same, all] at unfinished
      exact absurd rfl unfinished
    · rw [List.prefix_iff_eq_take] at some
      rw [← List.map_take] at some
      exact ⟨body.front.take rest.length, List.take_prefix _ _, by rw [same, some]; simp⟩

end Contexts

/-- What the VM has done with a request of which `called` has been called. -/
structure Judged (codec : RequestCodec) (decompress : Bytes → Option Bytes) (request : Request)
    (message : Bytes) (body : Body) (called : List HostCall) (context : HttpContext) : Prop where
  accepted : Accepted codec decompress body.whole 0 message [] request
  finished : called = body.calls → Enforced request context.actions context.stream
  unfinished : called ≠ body.calls →
    (∀ action ∈ context.actions, action = .Pause) ∧ context.stream.replies = []

section Written

variable {codec : RequestCodec} (writer : RequestWriter codec) (decompress : Bytes → Option Bytes)
  {request : Request}

theorem accepted_frame (legible : request.Legible)
    (small : (writer.serialize request).length < 2 ^ 32) :
    Accepted codec decompress (frame (writer.serialize request)) 0 (writer.serialize request) []
      request := by
  constructor
  case frame =>
    have read := readFrame_frame (writer.serialize request) [] small
    rw [List.append_nil] at read
    exact read
  case decoded =>
    rw [upstreamDecode, if_pos rfl]
    exact writer.decode_serialize legible

/-- The last callback over a written request enforces it. -/
theorem enforced_written (legible : request.Legible) {stream : HttpStream}
    (unanswered : stream.replies = []) (front : List Bytes) :
    Enforced request
      (List.replicate front.length .Pause ++ [(judge codec (writer.serialize request) stream).1])
      (judge codec (writer.serialize request) stream).2 := by
  rw [enforced_iff _ _ _ _ _ unanswered, writer.decode_serialize legible]
  constructor
  · intro named
    obtain ⟨other, same, danyangs⟩ := named
    rw [Option.some.inj same]
    exact danyangs
  · intro danyangs
    exact ⟨request, rfl, danyangs⟩

/-- One context, at any point of its calls. -/
theorem judged_calls (legible : request.Legible)
    (small : (writer.serialize request).length < 2 ^ 32) {body : Body}
    (written : body.whole = frame (writer.serialize request)) {called : List HostCall}
    (begun : called <+: body.calls) :
    ∃ context, called.foldlM (HttpContext.call codec) HttpContext.new = .ok context ∧
      Judged codec decompress request (writer.serialize request) body called context := by
  have accepted : Accepted codec decompress body.whole 0 (writer.serialize request) [] request := by
    rw [written]
    exact accepted_frame writer decompress legible small
  by_cases finished : called = body.calls
  · rw [finished]
    refine ⟨_, foldlM_calls written, accepted, ?_, fun unfinished => absurd rfl unfinished⟩
    intro _
    exact enforced_written writer legible rfl _
  · rcases early_calls begun finished with none_yet | ⟨chunks, _, early⟩
    · rw [none_yet] at finished ⊢
      refine ⟨_, rfl, accepted, fun all => absurd all finished, ?_⟩
      intro _
      constructor
      · intro action member
        cases member
      · rfl
    · rw [early] at finished ⊢
      refine ⟨_, foldlM_early _ chunks, accepted, fun all => absurd all finished, ?_⟩
      intro _
      constructor
      · intro action member
        exact List.eq_of_mem_replicate member
      · rfl

end Written

/-- However the bodies are cut and the calls interleave, no context panics, and
each request that the client has written is enforced when its body is complete. -/
theorem written_requests_enforced (codec : RequestCodec) (writer : RequestWriter codec)
    (decompress : Bytes → Option Bytes) (requests : UInt32 → Request)
    (legible : ∀ id, (requests id).Legible)
    (small : ∀ id, (writer.serialize (requests id)).length < 2 ^ 32) (bodies : UInt32 → Body)
    (written : ∀ id, (bodies id).whole = frame (writer.serialize (requests id)))
    (calls : List (UInt32 × HostCall))
    (begun : ∀ id, Interleave.own id calls <+: (bodies id).calls) :
    ∃ contexts, vm codec calls = .ok contexts ∧
      ∀ id, Judged codec decompress (requests id) (writer.serialize (requests id)) (bodies id)
        (Interleave.own id calls) (contexts id) := by
  have each : ∀ id, ∃ context,
      (Interleave.own id calls).foldlM (HttpContext.call codec) HttpContext.new = .ok context ∧
        Judged codec decompress (requests id) (writer.serialize (requests id)) (bodies id)
          (Interleave.own id calls) context := by
    intro id
    exact judged_calls writer decompress (legible id) (small id) (written id) (begun id)
  choose contexts runs judged using each
  exact ⟨contexts, Interleave.foldlM_step _ calls _ contexts runs, judged⟩

def halved (message : Bytes) : Body :=
  { numOfHeaders := 7, front := [(frame message).take 6], last := (frame message).drop 6 }

def requestOf (first second : Request) (id : UInt32) : Request := if id = 1 then first else second

def crossing (first second : Request) : List (UInt32 × HostCall) :=
  [(1, .requestHeaders 7 false), (2, .requestHeaders 7 false),
    (1, .requestBody (halved (wireWriter.serialize first)).front.flatten false),
    (2, .requestBody (halved (wireWriter.serialize second)).front.flatten false),
    (2, .requestBody (halved (wireWriter.serialize second)).last true),
    (1, .requestBody (halved (wireWriter.serialize first)).last true)]

/-- A request of danyang, and one of matt. -/
theorem written_requests_enforced_crossing :
    ∃ contexts, vm wireRequests (crossing (workload 0) (workload 1)) = .ok contexts ∧
      Enforced (workload 0) (contexts 1).actions (contexts 1).stream ∧
      Enforced (workload 1) (contexts 2).actions (contexts 2).stream := by
  have either : ∀ id, requestOf (workload 0) (workload 1) id = workload 0 ∨
      requestOf (workload 0) (workload 1) id = workload 1 := by
    intro id
    unfold requestOf
    split
    · exact Or.inl rfl
    · exact Or.inr rfl
  have others : ∀ id, id ≠ 1 → id ≠ 2 →
      Interleave.own id (crossing (workload 0) (workload 1)) = [] := by
    intro id first second
    simp [Interleave.own, crossing, Ne.symm first, Ne.symm second]
  obtain ⟨contexts, ran, judged⟩ := written_requests_enforced wireRequests wireWriter
    (fun _ => none) (requestOf (workload 0) (workload 1))
    (by
      intro id
      rcases either id with first | second
      · rw [first]
        exact workload_legible 0
      · rw [second]
        exact workload_legible 1)
    (by
      intro id
      rcases either id with first | second
      · rw [first]
        decide
      · rw [second]
        decide)
    (fun id => halved (wireWriter.serialize (requestOf (workload 0) (workload 1) id)))
    (fun id => by simp [Body.whole, halved]) (crossing (workload 0) (workload 1))
    (by
      intro id
      by_cases first : id = 1
      · subst first
        exact ⟨[], by decide⟩
      · by_cases second : id = 2
        · subst second
          exact ⟨[], by decide⟩
        · rw [others id first second]
          exact List.nil_prefix)
  exact ⟨contexts, ran, (judged 1).finished (by decide), (judged 2).finished (by decide)⟩

end RpcBench.Acl
