import RpcBench.Acl.RequestWire

/-! # The filter and the upstream read one body

The upstream reads the first gRPC frame and honours its flag and its length;
the filter decodes whatever follows the first five bytes.  They agree on a
body as far as the bytes behind the frame, and the compression, let them. -/
set_option autoImplicit false

namespace RpcBench.Acl

open ByteList ProtoWire

def readFrame : Bytes → Option (UInt8 × Bytes × Bytes)
  | flag :: l3 :: l2 :: l1 :: l0 :: payload =>
    (readWhole (fromLE [l0, l1, l2, l3]) payload).map fun read => (flag, read.1, read.2)
  | _ => none

def upstreamDecode (codec : RequestCodec) (decompress : Bytes → Option Bytes) (flag : UInt8)
    (message : Bytes) : Option Request :=
  if flag = 0 then codec.decode message
  else if flag = 1 then (decompress message).bind codec.decode
  else none

structure Accepted (codec : RequestCodec) (decompress : Bytes → Option Bytes) (body : Bytes)
    (flag : UInt8) (message rest : Bytes) (request : Request) : Prop where
  frame : readFrame body = some (flag, message, rest)
  decoded : upstreamDecode codec decompress flag message = some request

/-- What the access control promises for a request. -/
structure Enforced (request : Request) (actions : List Action) (stream : HttpStream) : Prop where
  blocked : request.customerName = danyang →
    (∀ action ∈ actions, action = .Pause) ∧ stream.replies = [forbidden]
  allowed : request.customerName ≠ danyang →
    actions.getLast? = some .Continue ∧ stream.replies = []

/-- Bytes that were read as a request of danyang. -/
def NamesDanyang (read : Option Request) : Prop :=
  ∃ request, read = some request ∧ request.customerName = danyang

/-- The bytes behind an uncompressed frame, merged into its request, leave the
customer danyang or not danyang.  The bytes of a compressed one name danyang
as they stand if and only if its request does. -/
def Unambiguous (codec : RequestCodec) (flag : UInt8) (message rest : Bytes) (request : Request) :
    Prop :=
  (if flag = 0 then NamesDanyang (codec.merge request rest)
    else NamesDanyang (codec.decode (message ++ rest))) ↔ request.customerName = danyang

section Frames

variable {codec : RequestCodec} {decompress : Bytes → Option Bytes} {body message rest : Bytes}
  {flag : UInt8} {request : Request}

theorem readFrame_drop (frame : readFrame body = some (flag, message, rest)) :
    5 ≤ body.length ∧ body.drop 5 = message ++ rest := by
  unfold readFrame at frame
  split at frame
  · next flag' l3 l2 l1 l0 payload =>
      obtain ⟨read, readEq, eq⟩ := Option.map_eq_some_iff.mp frame
      simp only [Prod.mk.injEq] at eq
      obtain ⟨_, rfl, rfl⟩ := eq
      obtain ⟨joined, _⟩ := readWhole_eq_append readEq
      constructor
      · simp
      · exact joined
  · cases frame

theorem unambiguous_iff (accepted : Accepted codec decompress body flag message rest request) :
    Unambiguous codec flag message rest request ↔
      (NamesDanyang (codec.decode (message ++ rest)) ↔ request.customerName = danyang) := by
  unfold Unambiguous
  by_cases plain : flag = 0
  · have decoded := accepted.decoded
    rw [upstreamDecode, if_pos plain] at decoded
    have merged : codec.decode (message ++ rest) = codec.merge request rest :=
      codec.merge_append decoded rest
    rw [if_pos plain, merged]
  · rw [if_neg plain]

end Frames

/-- The decision of the filter, by whether it reads danyang's name. -/
theorem judge_cases (codec : RequestCodec) (payload : Bytes) (stream : HttpStream) :
    NamesDanyang (codec.decode payload) ∧
        judge codec payload stream = (.Pause, stream.sendHttpResponse forbidden) ∨
      ¬NamesDanyang (codec.decode payload) ∧ judge codec payload stream = (.Continue, stream) := by
  unfold judge
  cases decoded : codec.decode payload with
  | none =>
      apply Or.inr
      constructor
      · intro named
        obtain ⟨request, absent, _⟩ := named
        cases absent
      · rfl
  | some req =>
      by_cases blocked : req.customerName = danyang
      · apply Or.inl
        exact ⟨⟨req, rfl, blocked⟩, if_pos blocked⟩
      · apply Or.inr
        constructor
        · intro named
          obtain ⟨request, same, danyangs⟩ := named
          cases same
          exact blocked danyangs
        · exact if_neg blocked

/-- The decision keeps the promise if it is about the upstream's request. -/
theorem enforced_iff (request : Request) (front : List Bytes) (codec : RequestCodec)
    (payload : Bytes) (stream : HttpStream) (unanswered : stream.replies = []) :
    Enforced request
        (List.replicate front.length Action.Pause ++ [(judge codec payload stream).1])
        (judge codec payload stream).2 ↔
      (NamesDanyang (codec.decode payload) ↔ request.customerName = danyang) := by
  rcases judge_cases codec payload stream with ⟨named, judged⟩ | ⟨unnamed, judged⟩
  · rw [judged]
    constructor
    · intro enforced
      constructor
      · intro _
        by_contra other
        have last := (enforced.allowed other).1
        rw [List.getLast?_concat] at last
        cases last
      · intro _
        exact named
    · intro same
      constructor
      case blocked =>
        intro _
        constructor
        · intro action member
          rcases List.mem_append.mp member with early | last
          · exact List.eq_of_mem_replicate early
          · exact List.mem_singleton.mp last
        · simp only [HttpStream.sendHttpResponse, unanswered, List.nil_append]
      case allowed =>
        intro other
        exact absurd (same.mp named) other
  · rw [judged]
    constructor
    · intro enforced
      constructor
      · intro named
        exact absurd named unnamed
      · intro blocked
        have paused := (enforced.blocked blocked).1 .Continue
          (List.mem_append_right _ List.mem_cons_self)
        cases paused
    · intro same
      constructor
      case blocked =>
        intro blocked
        exact absurd (same.mpr blocked) unnamed
      case allowed =>
        intro _
        exact ⟨List.getLast?_concat, unanswered⟩

/-- For every request that the upstream accepts, and every split of its body,
the access control is enforced if and only if the body is unambiguous. -/
theorem acl_enforced_iff_unambiguous (codec : RequestCodec) (decompress : Bytes → Option Bytes)
    (numOfHeaders : Nat) (front : List Bytes) (last : Bytes) (flag : UInt8) (message rest : Bytes)
    (request : Request)
    (accepted : Accepted codec decompress (front.flatten ++ last) flag message rest request) :
    (∃ actions stream, Acl.request codec numOfHeaders front last = .ok (actions, stream) ∧
        Enforced request actions stream) ↔
      Unambiguous codec flag message rest request := by
  obtain ⟨long, payload⟩ := readFrame_drop accepted.frame
  rw [unambiguous_iff accepted]
  have decided : Acl.request codec numOfHeaders front last =
      .ok (List.replicate front.length Action.Pause ++
          [(judge codec (message ++ rest)
            { requestBody := front.flatten ++ last, responseHeaders := [], replies := [] }).1],
        (judge codec (message ++ rest)
          { requestBody := front.flatten ++ last, responseHeaders := [], replies := [] }).2) := by
    have long' : 5 ≤ (([] : Bytes) ++ (front.flatten ++ last)).length := long
    change deliverAll codec front last { requestBody := [], responseHeaders := [], replies := [] } = _
    rw [deliverAll_eq, deliver_last long', List.nil_append, payload]
    rfl
  rw [← enforced_iff request front codec (message ++ rest)
    { requestBody := front.flatten ++ last, responseHeaders := [], replies := [] } rfl]
  constructor
  · intro answered
    obtain ⟨actions, stream, returned, enforced⟩ := answered
    rw [decided] at returned
    cases returned
    exact enforced
  · intro enforced
    exact ⟨_, _, decided, enforced⟩

/-! ## Requests of danyang -/

def smallFrame (message : Bytes) : Bytes := [0, 0, 0, 0, UInt8.ofNat message.length] ++ message

/-- A plain request of danyang, in two chunks. -/
theorem acl_enforced_plain_danyang :
    ∃ actions stream,
      Acl.request wireRequests 7 [(smallFrame ([10, 7] ++ danyang)).take 6]
        ((smallFrame ([10, 7] ++ danyang)).drop 6) = .ok (actions, stream) ∧
      Enforced { customerName := danyang } actions stream := by
  have accepted : Accepted wireRequests (fun _ => none)
      ([(smallFrame ([10, 7] ++ danyang)).take 6].flatten ++
        (smallFrame ([10, 7] ++ danyang)).drop 6)
      0 ([10, 7] ++ danyang) [] { customerName := danyang } := ⟨by decide, by decide⟩
  apply (acl_enforced_iff_unambiguous wireRequests (fun _ => none) 7 _ _ 0 ([10, 7] ++ danyang) []
    { customerName := danyang } accepted).mpr
  constructor
  · intro _
    rfl
  · intro _
    exact ⟨{ customerName := danyang }, by decide, rfl⟩

/-- One byte behind the frame of danyang's request, and the filter lets it pass. -/
theorem trailing_byte_bypasses_acl :
    ¬∀ (front : List Bytes) (last : Bytes) (flag : UInt8) (message rest : Bytes)
      (request : Request),
      Accepted wireRequests (fun _ => none) (front.flatten ++ last) flag message rest request →
      ∃ actions stream, Acl.request wireRequests 7 front last = .ok (actions, stream) ∧
        Enforced request actions stream := by
  intro always
  obtain ⟨actions, stream, returned, enforced⟩ := always []
    (smallFrame ([10, 7] ++ danyang) ++ [7]) 0 ([10, 7] ++ danyang) [7] { customerName := danyang }
    ⟨by decide, by decide⟩
  have passed : Acl.request wireRequests 7 [] (smallFrame ([10, 7] ++ danyang) ++ [7]) =
      .ok ([.Continue],
        { requestBody := smallFrame ([10, 7] ++ danyang) ++ [7], responseHeaders := []
          replies := [] }) := by
    decide
  rw [passed] at returned
  cases returned
  have paused := (enforced.blocked rfl).1 .Continue List.mem_cons_self
  cases paused

end RpcBench.Acl
