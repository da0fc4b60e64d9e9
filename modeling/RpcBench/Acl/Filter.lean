import RpcBench.Lib.ProtoWire

/-! # `content-based-acl`: the filter and its host

The Wasm host hands the body of a request to the filter in callbacks and keeps
what the filter has paused.  prost's generated code is a parameter,
`RequestCodec`.  Not modelled are the log lines and the context id. -/
set_option autoImplicit false

namespace RpcBench.Acl

open ByteList

/-- `reservation.Request`; a string is its UTF-8 bytes. -/
structure Request where
  customerName : Bytes := []
  hotelId : List Bytes := []
  inDate : Bytes := []
  outDate : Bytes := []
  roomNumber : Int32 := 0
  deriving DecidableEq

/-- What `impl Message for Request` does with bytes: `merge` reads fields into
a request until the bytes end. -/
structure RequestCodec where
  merge : Request → Bytes → Option Request
  merge_append : ∀ {request request' : Request} {first : Bytes},
    merge request first = some request' →
    ∀ second, merge request (first ++ second) = merge request' second

def RequestCodec.decode (codec : RequestCodec) (bytes : Bytes) : Option Request :=
  codec.merge {} bytes

inductive Action where
  | Continue
  | Pause
  deriving DecidableEq, Repr

structure LocalReply where
  status : Nat
  headers : List (String × String)
  body : Option Bytes
  deriving DecidableEq, Repr

structure HttpStream where
  /-- the paused part of the body, with the current chunk -/
  requestBody : Bytes
  responseHeaders : List (String × String)
  replies : List LocalReply
  deriving DecidableEq, Repr

namespace HttpStream

/-- `None` if there is no body. -/
def getHttpRequestBody (start maxSize : Nat) (stream : HttpStream) : Option Bytes :=
  if stream.requestBody = [] then none
  else some ((stream.requestBody.drop start).take maxSize)

def setHttpResponseHeader (name : String) (value : Option String) (stream : HttpStream) :
    HttpStream :=
  let others := stream.responseHeaders.filter fun header => header.1 != name
  { stream with responseHeaders := others ++ (value.map fun value => (name, value)).toList }

def sendHttpResponse (reply : LocalReply) (stream : HttpStream) : HttpStream :=
  { stream with replies := stream.replies ++ [reply] }

end HttpStream

/-- A slice out of range. -/
inductive Panic where
  | outOfRange
  deriving DecidableEq, Repr

/-- `&bytes[start..]`. -/
def sliceFrom (start : Nat) (bytes : Bytes) : Except Panic Bytes :=
  if start ≤ bytes.length then .ok (bytes.drop start) else .error .outOfRange

def danyang : Bytes := [100, 97, 110, 121, 97, 110, 103]

def forbidden : LocalReply where
  status := 200
  headers := [("grpc-status", "1"), ("grpc-message", "Access forbidden.\n")]
  body := none

namespace AccessControl

def onHttpRequestHeaders (_numOfHeaders : Nat) (endOfStream : Bool) (stream : HttpStream) :
    Action × HttpStream :=
  if !endOfStream then (.Continue, stream)
  else (.Continue, stream.setHttpResponseHeader "content-length" none)

def onHttpRequestBody (codec : RequestCodec) (bodySize : Nat) (endOfStream : Bool)
    (stream : HttpStream) : Except Panic (Action × HttpStream) :=
  if !endOfStream then .ok (.Pause, stream)
  else
    match stream.getHttpRequestBody 0 bodySize with
    | none => .ok (.Continue, stream)
    | some body => do
      let payload ← sliceFrom 5 body
      match codec.decode payload with
      | some req =>
        if req.customerName = danyang then return (.Pause, stream.sendHttpResponse forbidden)
        else return (.Continue, stream)
      | none => return (.Continue, stream)

end AccessControl

/-! ## The callbacks of one request -/

/-- The host adds a chunk to what was paused and calls the filter. -/
def deliver (codec : RequestCodec) (chunk : Bytes) (endOfStream : Bool) (stream : HttpStream) :
    Except Panic (Action × HttpStream) :=
  let requestBody := stream.requestBody ++ chunk
  AccessControl.onHttpRequestBody codec requestBody.length endOfStream { stream with requestBody }

/-- The body in chunks, the last one with `end_of_stream`. -/
def deliverAll (codec : RequestCodec) : List Bytes → Bytes → HttpStream →
    Except Panic (List Action × HttpStream)
  | [], last, stream => do
    let (action, stream) ← deliver codec last true stream
    return ([action], stream)
  | chunk :: front, last, stream => do
    let (action, stream) ← deliver codec chunk false stream
    let (actions, stream) ← deliverAll codec front last stream
    return (action :: actions, stream)

def request (codec : RequestCodec) (numOfHeaders : Nat) (front : List Bytes) (last : Bytes) :
    Except Panic (List Action × HttpStream) :=
  let stream := { requestBody := [], responseHeaders := [], replies := [] }
  let (_, stream) := AccessControl.onHttpRequestHeaders numOfHeaders false stream
  deliverAll codec front last stream

section Delivery

variable {codec : RequestCodec} {stream : HttpStream}

/-- Whatever the chunks are, the filter decides once, over the whole body. -/
theorem deliverAll_eq (codec : RequestCodec) (front : List Bytes) :
    ∀ (last : Bytes) (stream : HttpStream),
      deliverAll codec front last stream =
        (deliver codec (front.flatten ++ last) true stream).map fun decided =>
          (List.replicate front.length Action.Pause ++ [decided.1], decided.2) := by
  induction front with
  | nil =>
      intro last stream
      rw [deliverAll, List.flatten_nil, List.nil_append]
      cases deliver codec last true stream with
      | error panic => rfl
      | ok decided => rfl
  | cons chunk front ih =>
      intro last stream
      have paused : deliver codec chunk false stream =
          .ok (.Pause, { stream with requestBody := stream.requestBody ++ chunk }) := rfl
      have joined : deliver codec (front.flatten ++ last) true
            { stream with requestBody := stream.requestBody ++ chunk } =
          deliver codec ((chunk :: front).flatten ++ last) true stream := by
        simp only [deliver, List.flatten_cons, List.append_assoc]
      rw [deliverAll, paused]
      simp only [bind, Except.bind]
      rw [ih, joined]
      cases deliver codec ((chunk :: front).flatten ++ last) true stream with
      | error panic => rfl
      | ok decided => rfl

def judge (codec : RequestCodec) (payload : Bytes) (stream : HttpStream) : Action × HttpStream :=
  match codec.decode payload with
  | some req =>
    if req.customerName = danyang then (.Pause, stream.sendHttpResponse forbidden)
    else (.Continue, stream)
  | none => (.Continue, stream)

/-- The last callback, when the whole body is long enough for the slice. -/
theorem deliver_last {last : Bytes} (long : 5 ≤ (stream.requestBody ++ last).length) :
    deliver codec last true stream =
      .ok (judge codec ((stream.requestBody ++ last).drop 5)
        { stream with requestBody := stream.requestBody ++ last }) := by
  have present : stream.requestBody ++ last ≠ [] := by
    intro empty
    rw [empty] at long
    exact absurd long (by simp)
  simp only [deliver, AccessControl.onHttpRequestBody, HttpStream.getHttpRequestBody, present,
    Bool.not_true, Bool.false_eq_true, if_false, List.drop_zero, List.take_length, sliceFrom,
    if_pos long]
  simp only [bind, Except.bind, judge]
  cases codec.decode ((stream.requestBody ++ last).drop 5) with
  | none => rfl
  | some req =>
      by_cases blocked : req.customerName = danyang
      · simp only [if_pos blocked]
        rfl
      · simp only [if_neg blocked]
        rfl

end Delivery

end RpcBench.Acl
