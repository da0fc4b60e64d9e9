import RpcBench.Socket.Endpoint

/-! # The endpoint as a reader of frames

What a `BwServerEndpoint` is for, without buffers and memory: per request it
collects a header and a payload of the current frame limits and sends the
header back.  A limit is the recorded length of a buffer owner; it never
shrinks. -/
set_option autoImplicit false

namespace RpcBench.Socket

open ByteList

inductive Stage where
  /-- Between two requests; the header and payload of the last one, if any. -/
  | idle (held : Option (Bytes × Bytes))
  /-- After a prefix: the bytes of header and payload received so far. -/
  | receiving (headerDone : Bool) (header data : Bytes)
  /-- A reply is queued, `rest` of it is not sent yet. -/
  | replying (header data rest : Bytes)
  deriving DecidableEq, Repr

structure Session where
  limits : Option (Nat × Nat)
  stage : Stage
  interest : Interest
  deriving DecidableEq, Repr

/-- The frame limits after a prefix: the announced sizes, or the recorded ones
where these are larger. -/
def growLimits (limits : Option (Nat × Nat)) (prefixBytes : Bytes) : Nat × Nat :=
  let headerSize := fromLE (prefixBytes.take 4)
  let dataSize := fromLE ((prefixBytes.drop 4).take 4)
  match limits with
  | none => (headerSize, dataSize)
  | some (headerLimit, dataLimit) => (max headerLimit headerSize, max dataLimit dataSize)

namespace Session

variable {σ ι : Type}

def fresh : Session :=
  { limits := none, stage := .idle none, interest := Interest.READABLE.add Interest.WRITABLE }

/-- One `recv` for what is missing up to `limit`; `none` is would-block. -/
def fill (kernel : Kernel σ ι) (fd : RawFd) (choice : ι) (limit : Nat) (got : Bytes)
    (sys : σ) : Except Stop (Option Bytes × σ) :=
  match kernel.recv choice fd (limit - got.length) sys with
  | (.error errno, sys) =>
    if lastErrorWouldBlock errno then .ok (none, sys) else .error .abort
  | (.count bytes, sys) => .ok (some (got ++ bytes), sys)

def sendReply (kernel : Kernel σ ι) (fd : RawFd) (token : Token) :
    List ι → Session × σ → Except Stop (Session × σ)
  | choices, (p, sys) =>
    match p.stage with
    | .replying header data rest =>
      match choices with
      | [] => .error .pending
      | choice :: choices =>
        match kernel.send choice fd rest sys with
        | (.error errno, sys) =>
          if !lastErrorWouldBlock errno then .error .abort
          else if !p.interest.isWritable then do
            let interest := p.interest.add Interest.WRITABLE
            let sys ← reregister kernel fd token interest sys
            return ({ p with interest }, sys)
          else return (p, sys)
        | (.count nbytes, sys) =>
          if nbytes = rest.length then
            if p.interest.isWritable then do
              let sys ← reregister kernel fd token Interest.READABLE sys
              return ({ p with stage := .idle (some (header, data)),
                               interest := Interest.READABLE }, sys)
            else return ({ p with stage := .idle (some (header, data)) }, sys)
          else
            sendReply kernel fd token choices
              ({ p with stage := .replying header data (rest.drop nbytes) }, sys)
    | _ => return (p, sys)

def readData (kernel : Kernel σ ι) (fd : RawFd) (token : Token) (answers : Answers ι)
    (limits : Nat × Nat) (headerDone : Bool) (header data : Bytes) (p : Session) (sys : σ) :
    Except Stop (Session × σ) := do
  if limits.2 = 0 then
    sendReply kernel fd token answers.sends ({ p with stage := .replying header data header }, sys)
  else
    let (received, sys) ← fill kernel fd answers.data limits.2 data sys
    match received with
    | none => return ({ p with stage := .receiving headerDone header data }, sys)
    | some data =>
      if data.length = limits.2 then
        sendReply kernel fd token answers.sends
          ({ p with stage := .replying header data header }, sys)
      else return ({ p with stage := .receiving headerDone header data }, sys)

def readHeader (kernel : Kernel σ ι) (fd : RawFd) (token : Token) (answers : Answers ι)
    (limits : Nat × Nat) (header data : Bytes) (p : Session) (sys : σ) :
    Except Stop (Session × σ) := do
  let (received, sys) ← fill kernel fd answers.header limits.1 header sys
  match received with
  | none =>
    -- a header of length zero is complete although nothing was received
    if header.length = limits.1 then
      readData kernel fd token answers limits false header data p sys
    else return ({ p with stage := .receiving false header data }, sys)
  | some header =>
    if header.length = limits.1 then
      readData kernel fd token answers limits true header data p sys
    else return ({ p with stage := .receiving false header data }, sys)

def onRecvReady (kernel : Kernel σ ι) (fd : RawFd) (token : Token) (stale : UInt8)
    (answers : Answers ι) : Session × σ → Except Stop (Session × σ)
  | (p, sys) =>
    match p.stage, p.limits with
    | .idle _, _ => do
      let (nbytes, prefixBytes, sys) ←
        recvAll kernel fd 8 answers.recvs 0 (List.replicate 8 stale) sys
      if nbytes < 8 then return (p, sys)
      else
        let limits := growLimits p.limits prefixBytes
        readHeader kernel fd token answers limits [] [] { p with limits := some limits } sys
    | .receiving false header data, some limits =>
      readHeader kernel fd token answers limits header data p sys
    | .receiving true header data, some limits =>
      readData kernel fd token answers limits true header data p sys
    | _, _ => return (p, sys)

/-- What holds of a session between two handler calls, apart from the interest
in `WRITABLE` that a queued reply needs. -/
def Sound (p : Session) : Prop :=
  p.interest.readable = true ∧
  match p.stage, p.limits with
  | .idle none, limits => limits = none
  | .idle (some (header, data)), some (headerLimit, dataLimit) =>
    header.length = headerLimit ∧ data.length = dataLimit
  | .receiving headerDone header data, some (headerLimit, dataLimit) =>
    (header.length < headerLimit ∧ data = [] ∨
      header.length = headerLimit ∧ data.length < dataLimit) ∧
    (headerDone = true → header.length = headerLimit)
  | .replying header data rest, some (headerLimit, dataLimit) =>
    header.length = headerLimit ∧ data.length = dataLimit ∧ rest <:+ header
  | _, none => False

theorem Sound.receiving {p : Session} {headerDone : Bool} {header data : Bytes}
    {limits : Nat × Nat} (sound : p.Sound) (stage : p.stage = .receiving headerDone header data)
    (limitsEq : p.limits = some limits) :
    (header.length < limits.1 ∧ data = [] ∨
      header.length = limits.1 ∧ data.length < limits.2) ∧
    (headerDone = true → header.length = limits.1) := by
  have body := sound.2
  simp only [stage, limitsEq] at body
  exact body

theorem Sound.replying {p : Session} {header data rest : Bytes} {limits : Nat × Nat}
    (sound : p.Sound) (stage : p.stage = .replying header data rest)
    (limitsEq : p.limits = some limits) :
    header.length = limits.1 ∧ data.length = limits.2 ∧ rest <:+ header := by
  have body := sound.2
  simp only [stage, limitsEq] at body
  exact body

end Session

end RpcBench.Socket
