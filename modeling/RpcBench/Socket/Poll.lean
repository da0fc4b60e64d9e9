import RpcBench.Lib.ByteList

/-! # `poll.h`: interests, tokens and epoll events

The two bits of an `Interest` and the event bits of `struct epoll_event` are
kept as one Boolean per bit. -/
set_option autoImplicit false

namespace RpcBench.Socket

structure Interest where
  readable : Bool
  writable : Bool
  deriving DecidableEq, Repr

namespace Interest

def READABLE : Interest := ⟨true, false⟩

def WRITABLE : Interest := ⟨false, true⟩

def add (interest other : Interest) : Interest :=
  ⟨interest.readable || other.readable, interest.writable || other.writable⟩

def isReadable (interest : Interest) : Bool := interest.readable

def isWritable (interest : Interest) : Bool := interest.writable

end Interest

/-- `struct Token`: the number epoll hands back with an event. -/
abbrev Token := Nat

/-- The `events` bits of an `epoll_event` that the program sets or tests. -/
structure EpollFlags where
  epollet : Bool := false
  epollin : Bool := false
  epollrdhup : Bool := false
  epollout : Bool := false
  epollerr : Bool := false
  epollhup : Bool := false
  deriving DecidableEq, Repr

/-- `sys::linux::InterestToEpoll`.  The comment above its first line says
level-triggered; the code sets `EPOLLET`. -/
def interestToEpoll (interest : Interest) : EpollFlags :=
  { epollet := true
    epollin := interest.isReadable
    epollrdhup := interest.isReadable
    epollout := interest.isWritable }

/-- `struct epoll_event` and the wrapper `class Event` around it. -/
structure Event where
  events : EpollFlags
  token : Token
  deriving DecidableEq, Repr

namespace Event

def isReadable (event : Event) : Bool := event.events.epollin

def isWritable (event : Event) : Bool := event.events.epollout

def isError (event : Event) : Bool := event.events.epollerr

def isReadClosed (event : Event) : Bool :=
  event.events.epollhup || (event.events.epollrdhup && event.events.epollin)

def isWriteClosed (event : Event) : Bool :=
  event.events.epollhup || (event.events.epollout && event.events.epollerr)

/-- The last test of the event dispatch in `SocketBwServerApp::Run`. -/
def isClosing (event : Event) : Bool :=
  event.isError || event.isReadClosed || event.isWriteClosed

end Event

/-- The event that `Selector::Register` and `Reregister` pass to `epoll_ctl`. -/
def registration (token : Token) (interest : Interest) : Event :=
  ⟨interestToEpoll interest, token⟩

@[simp] theorem registration_epollin (token : Token) (interest : Interest) :
    (registration token interest).events.epollin = interest.readable := rfl

@[simp] theorem registration_epollout (token : Token) (interest : Interest) :
    (registration token interest).events.epollout = interest.writable := rfl

@[simp] theorem registration_epollet (token : Token) (interest : Interest) :
    (registration token interest).events.epollet = true := rfl

@[simp] theorem add_writable (interest : Interest) :
    interest.add Interest.WRITABLE = ⟨interest.readable, true⟩ := by
  simp [Interest.add, Interest.WRITABLE]

end RpcBench.Socket
