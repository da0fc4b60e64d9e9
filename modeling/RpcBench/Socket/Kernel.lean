import RpcBench.Lib.Fallible
import RpcBench.Socket.Buffer
import RpcBench.Socket.Poll

/-! # `socket.h`: the system calls of a `TcpSocket` and its two transfer loops

The operating system is a parameter: a `Kernel σ ι` answers system calls in a
state `σ`, and `ι` is what decides one answer (how many bytes, would-block,
an error, what happened on the wire before the call).  A call of a program
function consumes one choice per system call; when its choices run out it
has not returned. -/
set_option autoImplicit false

namespace RpcBench.Socket

open ByteList

abbrev RawFd := Int

def INVALID_SOCKET : RawFd := -1

inductive Errno where
  | EAGAIN
  | EWOULDBLOCK
  | EINTR
  | ECONNRESET
  | EPIPE
  | ENOTCONN
  | other (code : Nat)
  deriving DecidableEq, Repr

/-- `Socket::LastErrorWouldBlock`, of the errno the last call left behind. -/
def lastErrorWouldBlock : Errno → Bool
  | .EAGAIN => true
  | .EWOULDBLOCK => true
  | _ => false

inductive RecvResult where
  | count (bytes : Bytes)
  | error (errno : Errno)
  deriving DecidableEq, Repr

inductive SendResult where
  | count (nbytes : Nat)
  | error (errno : Errno)
  deriving DecidableEq, Repr

inductive Stop where
  /-- its choices ended inside the call: it is still running -/
  | pending
  /-- a `CHECK` or `PCHECK` failed and glog aborted the process -/
  | abort
  /-- a null, dangling or out-of-bounds access -/
  | badAccess
  deriving DecidableEq, Repr

structure Kernel (σ ι : Type) where
  recv : ι → RawFd → Nat → σ → RecvResult × σ
  send : ι → RawFd → Bytes → σ → SendResult × σ
  /-- `epoll_ctl(EPOLL_CTL_MOD)`; `none` when it fails. -/
  epollCtlMod : RawFd → Event → σ → Option σ
  recv_le : ∀ choice fd len sys bytes sys',
    recv choice fd len sys = (.count bytes, sys') → bytes.length ≤ len
  send_le : ∀ choice fd bytes sys nbytes sys',
    send choice fd bytes sys = (.count nbytes, sys') → nbytes ≤ bytes.length

/-- The further calls of a connection's life: accepting, and giving it up. -/
structure ConnectionKernel (σ ι : Type) extends Kernel σ ι where
  /-- `getpeername`; `none` when it fails. -/
  getpeername : ι → RawFd → σ → Option σ
  epollCtlAdd : RawFd → Event → σ → Option σ
  epollCtlDel : RawFd → σ → Option σ
  close : RawFd → σ → σ

variable {σ ι : Type}

/-- `TcpSocket::SendAll` of a memory range, from `n` bytes already sent on.  Returns `n`
and the kernel state.  The `getsockopt` for the log line succeeds. -/
def sendAll (kernel : Kernel σ ι) (fd : RawFd) (bytes : Bytes) :
    List ι → Nat → σ → Except Stop (Nat × σ)
  | choices, n, sys =>
    if n < bytes.length then
      match choices with
      | [] => .error .pending
      | choice :: rest =>
        match kernel.send choice fd (bytes.drop n) sys with
        | (.error errno, sys) =>
          if lastErrorWouldBlock errno then sendAll kernel fd bytes rest n sys
          else .ok (n, sys)
        | (.count nbytes, sys) => sendAll kernel fd bytes rest (n + nbytes) sys
    else .ok (n, sys)

/-- `TcpSocket::RecvAll`, from `n` bytes already stored in `buf` on.  Returns
`n`, the buffer and the kernel state. -/
def recvAll (kernel : Kernel σ ι) (fd : RawFd) (len : Nat) :
    List ι → Nat → Bytes → σ → Except Stop (Nat × Bytes × σ)
  | choices, n, buf, sys =>
    if n < len then
      match choices with
      | [] => .error .pending
      | choice :: rest =>
        match kernel.recv choice fd (len - n) sys with
        | (.error errno, sys) =>
          if lastErrorWouldBlock errno then recvAll kernel fd len rest n buf sys
          else .ok (n, buf, sys)
        | (.count [], sys) => .ok (n, buf, sys)
        | (.count (byte :: bytes), sys) =>
          recvAll kernel fd len rest (n + (byte :: bytes).length)
            (overwrite buf n (byte :: bytes)) sys
    else .ok (n, buf, sys)

/-- `Selector::Reregister`. -/
def reregister (kernel : Kernel σ ι) (fd : RawFd) (token : Token) (interest : Interest)
    (sys : σ) : Except Stop σ :=
  match kernel.epollCtlMod fd (registration token interest) sys with
  | some sys => .ok sys
  | none => .error .abort

end RpcBench.Socket
