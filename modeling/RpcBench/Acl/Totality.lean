import RpcBench.Acl.Bypass

/-! # The filter decides once, or panics

What each callback returned is kept together with the replies that it sent.
The slice behind the frame prefix is the one place where a callback does not
return. -/
set_option autoImplicit false

namespace RpcBench.Acl

open ByteList

structure Callback where
  action : Action
  sent : List LocalReply
  deriving DecidableEq, Repr

def callbacks (codec : RequestCodec) : List Bytes → Bytes → HttpStream →
    Except Panic (List Callback)
  | [], last, stream => do
    let (action, after) ← deliver codec last true stream
    return [{ action, sent := after.replies.drop stream.replies.length }]
  | chunk :: front, last, stream => do
    let (action, after) ← deliver codec chunk false stream
    let later ← callbacks codec front last after
    return { action, sent := after.replies.drop stream.replies.length } :: later

def requestCallbacks (codec : RequestCodec) (numOfHeaders : Nat) (front : List Bytes)
    (last : Bytes) : Except Panic (List Callback) :=
  let stream := { requestBody := [], responseHeaders := [], replies := [] }
  let (_, stream) := AccessControl.onHttpRequestHeaders numOfHeaders false stream
  callbacks codec front last stream

/-- A local reply with `Pause`, or `Continue`. -/
def Callback.Decides (callback : Callback) : Prop :=
  (callback.action = .Pause ∧ ∃ reply, callback.sent = [reply]) ∨
    (callback.action = .Continue ∧ callback.sent = [])

/-- All callbacks return; the last one decides, and those before it only
pause. -/
def DecidedOnce (front : List Bytes) (returned : Except Panic (List Callback)) : Prop :=
  ∃ decision, decision.Decides ∧
    returned = .ok (List.replicate front.length { action := .Pause, sent := [] } ++ [decision])

section Callbacks

variable {codec : RequestCodec} {stream : HttpStream}

theorem callbacks_actions (codec : RequestCodec) (front : List Bytes) :
    ∀ (last : Bytes) (stream : HttpStream),
      (callbacks codec front last stream).map (List.map Callback.action) =
        (deliverAll codec front last stream).map Prod.fst := by
  induction front with
  | nil =>
      intro last stream
      rw [callbacks, deliverAll]
      cases deliver codec last true stream with
      | error panic => rfl
      | ok decided => rfl
  | cons chunk front ih =>
      intro last stream
      rw [callbacks, deliverAll]
      cases deliver codec chunk false stream with
      | error panic => rfl
      | ok held =>
          have later := ih last held.2
          simp only [bind, Except.bind]
          cases called : callbacks codec front last held.2 with
          | error panic =>
              rw [called] at later
              cases delivered : deliverAll codec front last held.2 with
              | error panic' =>
                  rw [delivered] at later
                  cases later
                  rfl
              | ok result =>
                  rw [delivered] at later
                  cases later
          | ok calls =>
              rw [called] at later
              cases delivered : deliverAll codec front last held.2 with
              | error panic' =>
                  rw [delivered] at later
                  cases later
              | ok result =>
                  rw [delivered] at later
                  have same : calls.map Callback.action = result.1 := Except.ok.inj later
                  simp only [pure, Except.pure, Except.map, List.map_cons, same]

/-- Whatever the chunks are, only the last callback does more than pause. -/
theorem callbacks_eq (codec : RequestCodec) (front : List Bytes) :
    ∀ (last : Bytes) (stream : HttpStream),
      callbacks codec front last stream =
        (deliver codec (front.flatten ++ last) true stream).map fun decided =>
          List.replicate front.length { action := .Pause, sent := [] } ++
            [{ action := decided.1, sent := decided.2.replies.drop stream.replies.length }] := by
  induction front with
  | nil =>
      intro last stream
      rw [callbacks, List.flatten_nil, List.nil_append]
      cases deliver codec last true stream with
      | error panic => rfl
      | ok decided => rfl
  | cons chunk front ih =>
      intro last stream
      have paused : deliver codec chunk false stream =
          .ok (.Pause, { stream with requestBody := stream.requestBody ++ chunk }) := rfl
      have joined : deliver codec (front.flatten ++ last) true
            { stream with requestBody := stream.requestBody ++ chunk } =
          deliver codec ((chunk :: front).flatten ++ last) true stream := by
        simp only [deliver, List.flatten_cons, List.append_assoc]
      rw [callbacks, paused]
      simp only [bind, Except.bind]
      rw [ih, joined]
      cases deliver codec ((chunk :: front).flatten ++ last) true stream with
      | error panic => rfl
      | ok decided =>
          simp only [Except.map, pure, Except.pure, List.drop_length, List.length_cons,
            List.replicate_succ, List.cons_append]

theorem deliver_last_short {last : Bytes} (present : stream.requestBody ++ last ≠ [])
    (short : (stream.requestBody ++ last).length < 5) :
    deliver codec last true stream = .error .outOfRange := by
  simp only [deliver, AccessControl.onHttpRequestBody, HttpStream.getHttpRequestBody, present,
    Bool.not_true, Bool.false_eq_true, if_false, List.drop_zero, List.take_length, sliceFrom,
    if_neg (Nat.not_le_of_lt short)]
  simp only [bind, Except.bind]

theorem deliver_last_empty {last : Bytes} (absent : stream.requestBody ++ last = []) :
    deliver codec last true stream = .ok (.Continue, { stream with requestBody := [] }) := by
  simp only [deliver, AccessControl.onHttpRequestBody, HttpStream.getHttpRequestBody, absent,
    Bool.not_true, Bool.false_eq_true, if_false, if_true]

theorem judge_decides (codec : RequestCodec) (payload : Bytes) (stream : HttpStream) :
    Callback.Decides
      { action := (judge codec payload stream).1
        sent := (judge codec payload stream).2.replies.drop stream.replies.length } := by
  rcases judge_cases codec payload stream with ⟨_, judged⟩ | ⟨_, judged⟩
  · rw [judged]
    apply Or.inl
    constructor
    · rfl
    · exact ⟨forbidden, List.drop_left⟩
  · rw [judged]
    apply Or.inr
    constructor
    · rfl
    · exact List.drop_length

end Callbacks

/-- For every body and every split of it into callbacks, the filter is total
if and only if the body is empty or as long as a frame prefix. -/
theorem acl_total_iff_no_short_body (codec : RequestCodec) (numOfHeaders : Nat)
    (front : List Bytes) (last : Bytes) :
    DecidedOnce front (requestCallbacks codec numOfHeaders front last) ↔
      front.flatten ++ last = [] ∨ 5 ≤ (front.flatten ++ last).length := by
  have called : requestCallbacks codec numOfHeaders front last = _ :=
    callbacks_eq codec front last { requestBody := [], responseHeaders := [], replies := [] }
  rw [called]
  by_cases absent : front.flatten ++ last = []
  · constructor
    · intro _
      exact Or.inl absent
    · intro _
      rw [deliver_last_empty absent]
      exact ⟨{ action := .Continue, sent := [] }, Or.inr ⟨rfl, rfl⟩, rfl⟩
  · by_cases long : 5 ≤ (front.flatten ++ last).length
    · constructor
      · intro _
        exact Or.inr long
      · intro _
        rw [deliver_last long]
        exact ⟨_, judge_decides codec _ _, rfl⟩
    · rw [deliver_last_short absent (Nat.lt_of_not_le long)]
      constructor
      · intro decided
        obtain ⟨decision, _, returned⟩ := decided
        cases returned
      · intro either
        cases either with
        | inl empty => exact absurd empty absent
        | inr enough => exact absurd enough long

/-- A body of one byte. -/
theorem one_byte_panics :
    ¬∀ (front : List Bytes) (last : Bytes),
      DecidedOnce front (requestCallbacks wireRequests 7 front last) := by
  intro total
  obtain ⟨decision, _, returned⟩ := total [] [0]
  have panicked : requestCallbacks wireRequests 7 [] [0] = .error .outOfRange := rfl
  rw [panicked] at returned
  cases returned

end RpcBench.Acl
