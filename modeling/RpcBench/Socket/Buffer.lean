import RpcBench.Lib.ByteList
import Mathlib.Logic.Function.Basic

/-! # `buffer.h`: memory blocks and the `Buffer` cursor over them

A pointer is the number of an allocated block; every buffer of the endpoint
starts at the beginning of a block.  Freed or never allocated blocks hold
`none`, so an access through a dangling pointer or past the end of a block
has no result. -/
set_option autoImplicit false

namespace RpcBench.Socket

open ByteList

/-- The process heap.  `stale` is the byte that a fresh block happens to hold;
the allocator promises nothing about it. -/
structure Memory where
  block : Nat → Option Bytes
  next : Nat
  stale : UInt8

namespace Memory

def alloc (size : Nat) (mem : Memory) : Nat × Memory :=
  (mem.next,
    { mem with
      block := Function.update mem.block mem.next (some (List.replicate size mem.stale))
      next := mem.next + 1 })

def free (ptr : Nat) (mem : Memory) : Memory :=
  { mem with block := Function.update mem.block ptr none }

def write (ptr offset : Nat) (bytes : Bytes) (mem : Memory) : Option Memory :=
  match mem.block ptr with
  | none => none
  | some content =>
    if offset + bytes.length ≤ content.length then
      some { mem with block := Function.update mem.block ptr (some (overwrite content offset bytes)) }
    else none

def read (ptr offset len : Nat) (mem : Memory) : Option Bytes :=
  match mem.block ptr with
  | none => none
  | some content =>
    if offset + len ≤ content.length then some ((content.drop offset).take len) else none

end Memory

/-- `class Buffer`.  `msg_length_` and `bytes_handled_` are `uint32_t`. -/
structure Buffer where
  ptr : Nat
  size : Nat
  msgLength : Nat
  bytesHandled : Nat
  isOwner : Bool
  deriving DecidableEq, Repr

/-- `std::unique_ptr<Buffer>`. -/
abbrev BufferPtr := Option Buffer

namespace Buffer

/-- `Buffer(size_t size)`: allocates the memory it owns. -/
def ofSize (size : Nat) (mem : Memory) : Buffer × Memory :=
  let (ptr, mem) := mem.alloc size
  ({ ptr, size, msgLength := 0, bytesHandled := 0, isOwner := true }, mem)

/-- `Buffer(Buffer* buffer)`: a view on the whole of another buffer. -/
def ofBuffer (buffer : Buffer) : Buffer :=
  { ptr := buffer.ptr, size := buffer.size, msgLength := buffer.msgLength
    bytesHandled := 0, isOwner := false }

def destroy (buffer : Buffer) (mem : Memory) : Memory :=
  if buffer.isOwner then mem.free buffer.ptr else mem

def getRemainSize (buffer : Buffer) : Nat :=
  (buffer.msgLength + 2 ^ 32 - buffer.bytesHandled) % 2 ^ 32

def isClear (buffer : Buffer) : Bool := buffer.msgLength == buffer.bytesHandled

def markHandled (buffer : Buffer) (nbytes : Nat) : Buffer :=
  { buffer with bytesHandled := (buffer.bytesHandled + nbytes) % 2 ^ 32 }

def setMsgLength (buffer : Buffer) (msgLength : Nat) : Buffer := { buffer with msgLength }

def remaining (buffer : Buffer) (mem : Memory) : Option Bytes :=
  mem.read buffer.ptr buffer.bytesHandled buffer.getRemainSize

end Buffer

end RpcBench.Socket
