import RpcBench.Socket.Kernel

/-! # `bw_server_endpoint.{h,cc}`: the server side of one connection

The handlers are translated one by one.  `Context` is what a member function
can reach: the object, the heap its buffers live in, and the kernel. -/
set_option autoImplicit false

namespace RpcBench.Socket

open ByteList

namespace BwServerEndpoint

inductive State where
  | NEW_RPC
  | META_RECVED
  | HEADER_RECVED
  | DATA_RECVED
  | REPLYING
  deriving DecidableEq, Repr

end BwServerEndpoint

structure BwServerEndpoint where
  sock : RawFd
  interest : Interest
  txQueue : List BufferPtr
  headerBufferOwner : BufferPtr
  dataBufferOwner : BufferPtr
  headerBuffer : BufferPtr
  dataBuffer : BufferPtr
  replyBuffer : BufferPtr
  state : BwServerEndpoint.State
  deriving DecidableEq, Repr

structure Context (σ : Type) where
  /-- `reinterpret_cast<uintptr_t>(this)` -/
  this : Token
  ep : BwServerEndpoint
  mem : Memory
  sys : σ

/-- What the kernel answers to the system calls of one handler call: `recvs`
to the loop in `ReceiveMeta`, `header` and `data` to the single `Recv` of
`ReceiveHeader` and of `ReceiveData`, `sends` to the loop in `OnSendReady`. -/
structure Answers (ι : Type) where
  recvs : List ι
  header : ι
  data : ι
  sends : List ι

inductive Call (ι : Type) where
  | recvReady (answers : Answers ι)
  | sendReady (choices : List ι)

namespace BwServerEndpoint

variable {σ ι : Type}

def create (newSock : RawFd) : BwServerEndpoint :=
  { sock := newSock
    interest := Interest.READABLE.add Interest.WRITABLE
    txQueue := []
    headerBufferOwner := none
    dataBufferOwner := none
    headerBuffer := none
    dataBuffer := none
    replyBuffer := none
    state := .NEW_RPC }

/-- `OnAccepted`: `GetPeerAddr` and `Register`, each with its check. -/
def onAccepted (kernel : ConnectionKernel σ ι) (choice : ι) (s : Context σ) :
    Except Stop (Context σ) :=
  match kernel.getpeername choice s.ep.sock s.sys with
  | none => .error .abort
  | some sys =>
    match kernel.epollCtlAdd s.ep.sock (registration s.this s.ep.interest) sys with
    | none => .error .abort
    | some sys => .ok { s with sys }

/-- `OnError`: `Deregister` and `Close`, each with its check. -/
def onError (kernel : ConnectionKernel σ ι) (s : Context σ) : Except Stop (Context σ) :=
  match kernel.epollCtlDel s.ep.sock s.sys with
  | none => .error .abort
  | some sys =>
    if s.ep.sock = INVALID_SOCKET then .error .abort
    else .ok
      { s with
        sys := kernel.close s.ep.sock sys
        ep := { s.ep with sock := INVALID_SOCKET } }

def deref (ptr : BufferPtr) : Except Stop Buffer :=
  match ptr with
  | some buffer => .ok buffer
  | none => .error .badAccess

/-- The two `allocate buffer` blocks of `ReceiveMeta`: keep the owner unless it
is null or its recorded length is below `size`.  The old owner is destroyed
by the assignment, after the new one is allocated. -/
def growOwner (owner : BufferPtr) (size : Nat) (mem : Memory) : Buffer × Memory :=
  match owner with
  | none =>
    let (buffer, mem) := Buffer.ofSize size mem
    (buffer.setMsgLength size, mem)
  | some old =>
    if old.msgLength < size then
      let (buffer, mem) := Buffer.ofSize size mem
      (buffer.setMsgLength size, old.destroy mem)
    else (old, mem)

def receiveMeta (kernel : Kernel σ ι) (choices : List ι) (s : Context σ) :
    Except Stop (Bool × Context σ) := do
  -- `uint32_t meta_buffer[2]` is on the stack and uninitialised
  let (nbytes, metaBuffer, sys) ←
    recvAll kernel s.ep.sock 8 choices 0 (List.replicate 8 s.mem.stale) s.sys
  if nbytes < 8 then
    return (false, { s with sys })
  let headerSize := fromLE (metaBuffer.take 4)
  let dataSize := fromLE ((metaBuffer.drop 4).take 4)
  let (headerOwner, mem) := growOwner s.ep.headerBufferOwner headerSize s.mem
  let (dataOwner, mem) := growOwner s.ep.dataBufferOwner dataSize mem
  return (true,
    { s with
      mem, sys
      ep :=
        { s.ep with
          headerBufferOwner := some headerOwner
          dataBufferOwner := some dataOwner
          headerBuffer := some headerOwner.ofBuffer
          dataBuffer := some dataOwner.ofBuffer
          state := .META_RECVED } })

/-- `sock_.Recv(buffer->GetRemainBuffer(), buffer->GetRemainSize())` and the
`PCHECK` on its failure; `none` is would-block. -/
def recvInto (kernel : Kernel σ ι) (choice : ι) (buffer : Buffer) (s : Context σ) :
    Except Stop (Option Nat × Context σ) :=
  match kernel.recv choice s.ep.sock buffer.getRemainSize s.sys with
  | (.error errno, sys) =>
    if lastErrorWouldBlock errno then .ok (none, { s with sys }) else .error .abort
  | (.count bytes, sys) =>
    match s.mem.write buffer.ptr buffer.bytesHandled bytes with
    | some mem => .ok (some bytes.length, { s with mem, sys })
    | none => .error .badAccess

def receiveHeader (kernel : Kernel σ ι) (choice : ι) (s : Context σ) :
    Except Stop (Bool × Context σ) := do
  let buffer ← deref s.ep.headerBuffer
  let (nbytes, s) ← recvInto kernel choice buffer s
  match nbytes with
  | none => return (buffer.isClear, s)
  | some nbytes =>
    let buffer := buffer.markHandled nbytes
    let state := if buffer.isClear then .HEADER_RECVED else s.ep.state
    return (buffer.isClear, { s with ep := { s.ep with headerBuffer := some buffer, state } })

def receiveData (kernel : Kernel σ ι) (choice : ι) (s : Context σ) :
    Except Stop (Bool × Context σ) := do
  let buffer ← deref s.ep.dataBuffer
  if buffer.size == 0 then
    let header ← deref s.ep.headerBuffer
    return (true,
      { s with ep := { s.ep with state := .DATA_RECVED, replyBuffer := some header.ofBuffer } })
  let (nbytes, s) ← recvInto kernel choice buffer s
  match nbytes with
  | none => return (buffer.isClear, s)
  | some nbytes =>
    let buffer := buffer.markHandled nbytes
    if buffer.isClear then
      let header ← deref s.ep.headerBuffer
      return (true,
        { s with
          ep :=
            { s.ep with
              dataBuffer := some buffer
              state := .DATA_RECVED
              replyBuffer := some header.ofBuffer } })
    return (false, { s with ep := { s.ep with dataBuffer := some buffer } })

def onSendReady (kernel : Kernel σ ι) : List ι → Context σ → Except Stop (Context σ)
  | choices, s =>
    match s.ep.txQueue with
    | [] => .ok s
    | front :: rest =>
      match choices with
      | [] => .error .pending
      | choice :: choices => do
        let buffer ← deref front
        let bytes ← (buffer.remaining s.mem).elim (.error .badAccess) .ok
        match kernel.send choice s.ep.sock bytes s.sys with
        | (.error errno, sys) =>
          if !lastErrorWouldBlock errno then .error .abort
          else if !s.ep.interest.isWritable then
            let interest := s.ep.interest.add Interest.WRITABLE
            let sys ← reregister kernel s.ep.sock s.this interest sys
            return { s with sys, ep := { s.ep with interest } }
          else return { s with sys }
        | (.count nbytes, sys) =>
          let buffer := buffer.markHandled nbytes
          if buffer.isClear then
            -- RPC completed
            let ep := { s.ep with state := .NEW_RPC, txQueue := rest }
            if ep.interest.isWritable then
              let sys ← reregister kernel ep.sock s.this Interest.READABLE sys
              onSendReady kernel choices
                { s with sys, ep := { ep with interest := Interest.READABLE } }
            else onSendReady kernel choices { s with sys, ep }
          else
            onSendReady kernel choices
              { s with sys, ep := { s.ep with txQueue := some buffer :: rest } }

def reply (kernel : Kernel σ ι) (choices : List ι) (s : Context σ) :
    Except Stop (Bool × Context σ) := do
  let ep :=
    { s.ep with
      txQueue := s.ep.txQueue ++ [s.ep.replyBuffer], replyBuffer := none, state := .REPLYING }
  let s ← onSendReady kernel choices { s with ep }
  return (true, s)

def onRecvReady (kernel : Kernel σ ι) (answers : Answers ι) (s : Context σ) :
    Except Stop (Context σ) := do
  match s.ep.state with
  | .NEW_RPC =>
    let (received, s) ← receiveMeta kernel answers.recvs s
    if !received then return s
    let (received, s) ← receiveHeader kernel answers.header s
    if !received then return s
    let (received, s) ← receiveData kernel answers.data s
    if !received then return s
    let (_, s) ← reply kernel answers.sends s
    return s
  | .META_RECVED =>
    let (received, s) ← receiveHeader kernel answers.header s
    if !received then return s
    let (received, s) ← receiveData kernel answers.data s
    if !received then return s
    let (_, s) ← reply kernel answers.sends s
    return s
  | .HEADER_RECVED =>
    let (received, s) ← receiveData kernel answers.data s
    if !received then return s
    let (_, s) ← reply kernel answers.sends s
    return s
  | .DATA_RECVED =>
    let (_, s) ← reply kernel answers.sends s
    return s
  | .REPLYING => return s

def handle (kernel : Kernel σ ι) (s : Context σ) : Call ι → Except Stop (Context σ)
  | .recvReady answers => onRecvReady kernel answers s
  | .sendReady choices => onSendReady kernel choices s

end BwServerEndpoint

end RpcBench.Socket
