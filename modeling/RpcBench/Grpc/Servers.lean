import RpcBench.Grpc.Clients
import RpcBench.Grpc.Lifecycle

/-! # The asynchronous servers

The latency server, which is the throughput server too, runs a thread for each
of its queues; the hotel server runs one. -/
set_option autoImplicit false

namespace RpcBench.Grpc

open ByteList Machine

namespace GrpcLatServerApp

/-- `ack_`; the constructor of `std::string` throws when it is too large. -/
def ack (dataSize : UInt64) : Option Bytes :=
  if dataSize.toNat ≤ Bandwidth.stringMaxSize then some (List.replicate dataSize.toNat 98)
  else none

/-- The server, whose calls carry `ack`, after these inputs. -/
def job (ack : Bytes) (inputs : List (Server.Input Bytes)) : Server Bytes Bytes :=
  run (Server.step ack) Server.init inputs

end GrpcLatServerApp

namespace HotelReservationServerApp

structure Result where
  hotelId : List Bytes
  deriving DecidableEq, Repr

def result : Result := { hotelId := [kHotelId] }

def handleRpcs (inputs : List (Server.Input Acl.Request)) : Server Acl.Request Result :=
  run (Server.step result) Server.init inputs

end HotelReservationServerApp

/-- For every order of what comes in and what is delivered, both servers keep
one armed call for each thread that was started, one reply for each RPC and one
deletion for each call. -/
theorem servers_lifecycle (ack : Bytes) (inputs : List (Server.Input Bytes))
    (requests : List (Server.Input Acl.Request)) :
    (Server.Lifecycle ack (GrpcLatServerApp.job ack inputs) ∧
      ∀ cq, cq ∈ (GrpcLatServerApp.job ack inputs).threads ↔ Server.Starts ack inputs cq) ∧
    Server.Lifecycle HotelReservationServerApp.result
        (HotelReservationServerApp.handleRpcs requests) ∧
      ∀ cq, cq ∈ (HotelReservationServerApp.handleRpcs requests).threads ↔
        Server.Starts HotelReservationServerApp.result requests cq := by
  constructor
  · exact ⟨Server.Sound.lifecycle (Server.sound_run ack inputs), Server.mem_threads_run ack inputs⟩
  · exact ⟨Server.Sound.lifecycle (Server.sound_run HotelReservationServerApp.result requests),
      Server.mem_threads_run HotelReservationServerApp.result requests⟩

def overlapping : List (Server.Input Bytes) :=
  [.start 0 1, .incoming 0 [1], .next 0 2, .sent 0, .incoming 0 [2], .next 0 3, .next 0 1]

theorem servers_lifecycle_overlapping :
    (GrpcLatServerApp.job [98] overlapping).matched = [(0, [1]), (1, [2])] ∧
      (GrpcLatServerApp.job [98] overlapping).finished = [(0, [98]), (1, [98])] ∧
      (GrpcLatServerApp.job [98] overlapping).deleted = [0] ∧
      ∃ this call, (this, call) ∈ (GrpcLatServerApp.job [98] overlapping).heap.cells ∧
        call.cq = 0 ∧ call.status = .process := by
  have law := (servers_lifecycle [98] overlapping []).1
  have started : 0 ∈ (GrpcLatServerApp.job [98] overlapping).threads :=
    (law.2 0).mpr ⟨[], 1, _, rfl, by decide⟩
  obtain ⟨this, call, member, queue, status, _⟩ := law.1.one_armed 0 started
  exact ⟨by decide, by decide, by decide, this, call, member, queue, status⟩

end RpcBench.Grpc
