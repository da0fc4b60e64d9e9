import RpcBench.Acl.RequestWire

/-! # `GenerateWorkload`

The requests of the hotel reservation client and the generator that draws them
from `g_seed`.  Their sizes come from the generated `ByteSizeLong`, a parameter. -/
set_option autoImplicit false

namespace RpcBench.Grpc

open ByteList Acl

def kHotelId : Bytes := [52, 50]

def september (digit : UInt8) : Bytes := [50, 48, 50, 50, 45, 48, 57, 45, 48, digit]

/-- `request[0]`, of danyang, and `request[1]`, of matt. -/
def workload : Fin 2 → Request
  | 0 =>
    { customerName := danyang, hotelId := [kHotelId], inDate := september 49
      outDate := september 50, roomNumber := 128 }
  | 1 =>
    { customerName := [109, 97, 116, 116], hotelId := [kHotelId], inDate := september 50
      outDate := september 51, roomNumber := 129 }

/-- `fast_rand` moves `g_seed` and takes 15 bits of it. -/
def fastRand (gSeed : UInt32) : Int32 × UInt32 :=
  let gSeed := 214013 * gSeed + 2531011
  (((gSeed >>> 16) &&& 0x7FFF).toInt32, gSeed)

def generateWorkload (byteSizeLong : Request → Nat) (gSeed : UInt32) :
    (Request × Nat) × UInt32 :=
  let (rand, gSeed) := fastRand gSeed
  let index : Fin 2 := 1 - if rand % 100 < 1 then 1 else 0
  ((workload index, byteSizeLong (workload index)), gSeed)

theorem generateWorkload_cases (byteSizeLong : Request → Nat) (gSeed : UInt32) :
    ∃ index, (generateWorkload byteSizeLong gSeed).1 =
      (workload index, byteSizeLong (workload index)) :=
  ⟨_, rfl⟩

theorem workload_legible (index : Fin 2) : (workload index).Legible := by
  match index with
  | 0 =>
      refine ⟨⟨['d', 'a', 'n', 'y', 'a', 'n', 'g'], rfl⟩, ?_,
        ⟨['2', '0', '2', '2', '-', '0', '9', '-', '0', '1'], rfl⟩,
        ⟨['2', '0', '2', '2', '-', '0', '9', '-', '0', '2'], rfl⟩⟩
      intro hotel member
      rw [List.mem_singleton.mp member]
      exact ⟨['4', '2'], rfl⟩
  | 1 =>
      refine ⟨⟨['m', 'a', 't', 't'], rfl⟩, ?_,
        ⟨['2', '0', '2', '2', '-', '0', '9', '-', '0', '2'], rfl⟩,
        ⟨['2', '0', '2', '2', '-', '0', '9', '-', '0', '3'], rfl⟩⟩
      intro hotel member
      rw [List.mem_singleton.mp member]
      exact ⟨['4', '2'], rfl⟩

end RpcBench.Grpc
