import RpcBench.Bandwidth.Run
import RpcBench.Bandwidth.Transports

/-! # What the servers count of a run

The client counts ten bytes for a header and the payload.  Each server hands to
`AddBytes` what its library hands to it: the gRPC service the whole message, the
brpc service the message and the attachment, the ZeroMQ server the parts. -/
set_option autoImplicit false

namespace RpcBench.Bandwidth

open ByteList Fallible

namespace BwClientApp

section Weights

variable {Call Server : Type}

def Weighs (transport : Transport Call Server) (message : BwMessage) (measure : Server → Nat)
    (weight : Call → Nat) (succeeds : Call → Bool) : Prop :=
  ∀ call server ack ack' server',
    transport call message server ack = some (ack', server') →
      measure server' = measure server + weight call ∧ ack'.success = succeeds call

variable {transport : Transport Call Server} {message : BwMessage} {measure : Server → Nat}
  {weight : Call → Nat} {succeeds : Call → Bool}

def State.calls (turns : List (Turn Call)) (state : State Server) : List Call :=
  (turns.take state.acks.length).map Turn.call

theorem run_weighs (weighs : Weighs transport message measure weight succeeds) (timeDura : Int)
    (turns : List (Turn Call)) :
    ∀ state : State Server, ∃ taken,
      (Machine.run (turn transport message timeDura) state turns).acks.length =
          state.acks.length + taken ∧
        measure (Machine.run (turn transport message timeDura) state turns).server =
          measure state.server + ((turns.take taken).map fun turn => weight turn.call).sum ∧
        (Machine.run (turn transport message timeDura) state turns).acked =
          state.acked + (turns.take taken).countP fun turn => succeeds turn.call := by
  induction turns with
  | nil =>
      intro state
      exact ⟨0, rfl, rfl, rfl⟩
  | cons first rest ih =>
      intro state
      by_cases ended : state.Over
      · rw [run_over ended]
        exact ⟨0, rfl, rfl, rfl⟩
      · rw [Machine.run_cons]
        cases returned : transport first.call message state.server first.ack with
        | none =>
            rw [turn_stuck timeDura ended returned, run_over (Or.inr rfl)]
            exact ⟨0, rfl, rfl, rfl⟩
        | some result =>
            obtain ⟨ack, server⟩ := result
            obtain ⟨more, success⟩ := weighs _ _ _ _ _ returned
            obtain ⟨taken, many, measured, acked⟩ :=
              ih (turn transport message timeDura state first)
            have counted := acked_concat state.acks ack
            refine ⟨taken + 1, ?_, ?_, ?_⟩
            · rw [many, turn_returned timeDura ended returned, List.length_append,
                List.length_singleton]
              omega
            · rw [measured, turn_returned timeDura ended returned, List.take_succ_cons,
                List.map_cons, List.sum_cons]
              simp only [more]
              omega
            · rw [acked, turn_returned timeDura ended returned, List.take_succ_cons,
                List.countP_cons, ← success]
              simp only [State.acked, counted]
              cases ack.success with
              | true => simp; omega
              | false => simp

end Weights

def grpc (messageCodec : PbCodec PbBwMessage) (ackCodec : PbCodec PbBwAck) :
    Transport RpcOutcome BwService :=
  fun outcome message service ack =>
    some (Grpc.pushData messageCodec ackCodec outcome message service ack)

/-- The outcome, with what `IsAskedToQuit()` returns. -/
def brpc (messageCodec : PbCodec PbBwMessage) (ackCodec : PbCodec PbBwAck) :
    Transport (Bool × RpcOutcome) BwService :=
  fun call message service ack =>
    some (Brpc.pushData messageCodec ackCodec call.1 call.2 message service ack)

/-- What `header_buf` holds, and what the calls meet. -/
def zeromq (codec : HeaderCodec) : Transport (Bytes × Zeromq.Exchange) Zeromq.Server :=
  fun call message server ack =>
    (Zeromq.pushData codec call.1 call.2 message server ack).toOption

end BwClientApp

def RpcOutcome.handled : RpcOutcome → Nat
  | .ok retries => retries + 1
  | .failed handled => handled

def RpcOutcome.succeeds : RpcOutcome → Bool
  | .ok _ => true
  | .failed _ => false

section Weighs

variable {handler : BwService → PbBwAck × BwService} {amount : Nat}
  (messageCodec : PbCodec PbBwMessage) (ackCodec : PbCodec PbBwAck)

theorem repeated_metered
    (meters : ∀ service, (handler service).2.metered = service.metered + amount) (times : Nat) :
    ∀ service,
      (repeated handler times service).2.metered = service.metered + (times + 1) * amount := by
  induction times with
  | zero =>
      intro service
      rw [repeated, meters, Nat.zero_add, Nat.one_mul]
  | succ times ih =>
      intro service
      rw [repeated, ih, meters, Nat.succ_mul (times + 1)]
      omega

theorem finish_metered
    (meters : ∀ service, (handler service).2.metered = service.metered + amount)
    (outcome : RpcOutcome) (service : BwService) (ack : BwAck) :
    (finish ackCodec handler outcome service ack).2.metered =
        service.metered + outcome.handled * amount ∧
      (finish ackCodec handler outcome service ack).1.success = outcome.succeeds := by
  cases outcome with
  | ok retries =>
      rw [finish]
      simp only [ackCodec.parse_serialize]
      exact ⟨repeated_metered meters retries service, rfl⟩
  | failed handled =>
      cases handled with
      | zero =>
          rw [finish, RpcOutcome.handled, Nat.zero_mul]
          exact ⟨rfl, rfl⟩
      | succ handled =>
          rw [finish]
          exact ⟨repeated_metered meters handled service, rfl⟩

theorem grpc_weighs (message : BwMessage) :
    BwClientApp.Weighs (BwClientApp.grpc messageCodec ackCodec) message BwService.metered
      (fun outcome => outcome.handled * (messageCodec.serialize (packPbBwMessage message)).length)
      RpcOutcome.succeeds := by
  intro outcome service ack ack' service' returned
  have eq : Grpc.pushData messageCodec ackCodec outcome message service ack = (ack', service') :=
    Option.some.inj returned
  unfold Grpc.pushData at eq
  rw [messageCodec.parse_serialize] at eq
  have meters : ∀ service, (Grpc.handle messageCodec (packPbBwMessage message) service).2.metered =
      service.metered + (messageCodec.serialize (packPbBwMessage message)).length :=
    fun _ => rfl
  have metered := finish_metered ackCodec meters outcome service ack
  simp only [eq] at metered
  exact metered

theorem brpc_weighs (message : BwMessage) :
    BwClientApp.Weighs (BwClientApp.brpc messageCodec ackCodec) message BwService.metered
      (fun call => if call.1 then 0 else call.2.handled *
        ((messageCodec.serialize { header := packPbBwHeader message.header }).length +
          message.data.length))
      (fun call => !call.1 && call.2.succeeds) := by
  intro call service ack ack' service' returned
  obtain ⟨askedToQuit, outcome⟩ := call
  have eq : Brpc.pushData messageCodec ackCodec askedToQuit outcome message service ack =
      (ack', service') := Option.some.inj returned
  unfold Brpc.pushData at eq
  cases askedToQuit with
  | true =>
      simp only [if_true, Prod.mk.injEq] at eq
      obtain ⟨rfl, rfl⟩ := eq
      exact ⟨rfl, rfl⟩
  | false =>
      rw [messageCodec.parse_serialize] at eq
      have meters : ∀ service,
          (Brpc.handle messageCodec { header := packPbBwHeader message.header } message.data
            service).2.metered = service.metered +
              ((messageCodec.serialize { header := packPbBwHeader message.header }).length +
                message.data.length) :=
        fun _ => rfl
      have metered := finish_metered ackCodec meters outcome service ack
      simp only [Bool.false_eq_true, if_false] at eq
      simp only [eq] at metered
      exact metered

def Zeromq.received (server : Zeromq.Server) : Nat :=
  (server.parts.map fun part => (Zeromq.result part).toNat).sum

/-- What the ZeroMQ server has handed to `AddBytes`, against its parts. -/
def Zeromq.Balanced (before after : Zeromq.Server) : Prop :=
  after.added + Zeromq.received before = before.added + Zeromq.received after

theorem Zeromq.receiveParts_balanced (outcomes : List Zeromq.Outcome) :
    ∀ (incoming : List Bytes) (zmsg : Zeromq.Msg) (server : Zeromq.Server),
      Sat (Zeromq.receiveParts outcomes incoming zmsg server) (fun _ => True)
        fun received => Zeromq.Balanced server received.2.2 := by
  induction outcomes with
  | nil =>
      intro incoming zmsg server
      exact trivial
  | cons outcome outcomes ih =>
      intro incoming zmsg server
      cases outcome with
      | failed =>
          rw [Zeromq.receiveParts]
          split
          · exact ih incoming zmsg server
          · exact rfl
      | done =>
          cases incoming with
          | nil => exact trivial
          | cons part incoming =>
              have here : Zeromq.Balanced server
                  { parts := server.parts ++ [part]
                    added := server.added + (Zeromq.result part).toNat } := by
                simp only [Zeromq.Balanced, Zeromq.received, List.map_append, List.sum_append,
                  List.map_cons, List.map_nil, List.sum_cons, List.sum_nil]
                omega
              rw [Zeromq.receiveParts]
              simp only
              split
              · refine (ih incoming _ _).mono (fun _ _ => trivial) ?_
                intro received later
                simp only [Zeromq.Balanced] at here later ⊢
                omega
              · exact here

theorem Zeromq.pushData_balanced (codec : HeaderCodec) (stale : Bytes) (exchange : Zeromq.Exchange)
    (message : BwMessage) (server : Zeromq.Server) (ack : BwAck) :
    Sat (Zeromq.pushData codec stale exchange message server ack) (fun _ => True)
      fun returned => Zeromq.Balanced server returned.2 := by
  have turn : ∀ request,
      Sat (Zeromq.runZero codec exchange.recvs exchange.replySends request server) (fun _ => True)
        fun returned => Zeromq.Balanced server returned.2 := by
    intro request
    refine (Zeromq.receiveParts_balanced _ _ _ _).bind ?_
    intro received balanced
    obtain ⟨incoming, zmsg, after⟩ := received
    simp only
    split
    · exact (Sat.any _).bind fun _ _ => balanced
    · exact trivial
  refine (Sat.any _).bind fun _ _ => (Sat.any _).bind fun _ _ => (turn _).bind ?_
  intro replied balanced
  obtain ⟨reply, after⟩ := replied
  simp only
  split
  · exact trivial
  · split
    · exact balanced
    · exact trivial

theorem zeromq_weighs {codec : HeaderCodec} (defaultEmpty : codec.serialize {} = [])
    {message : BwMessage} (short : message.data.length < 2 ^ 31) :
    BwClientApp.Weighs (BwClientApp.zeromq codec) message Zeromq.Server.added
      (fun _ => message.data.length) (fun _ => true) := by
  intro call server ack ack' server' returned
  cases pushed : Zeromq.pushData codec call.1 call.2 message server ack with
  | error stop =>
      rw [BwClientApp.zeromq, pushed] at returned
      cases returned
  | ok result =>
      rw [BwClientApp.zeromq, pushed] at returned
      cases returned
      obtain ⟨success, parts⟩ := Zeromq.pushData_returned defaultEmpty pushed
      have balanced := (Zeromq.pushData_balanced codec call.1 call.2 message server ack).of_ok
        pushed
      have header : (Zeromq.result []).toNat = 0 := rfl
      have payload : (Zeromq.result message.data).toNat = message.data.length := by
        unfold Zeromq.result
        omega
      simp only [Zeromq.Balanced, Zeromq.received, parts, List.map_append, List.sum_append,
        List.map_cons, List.map_nil, List.sum_cons, List.sum_nil, header, payload] at balanced
      constructor
      · simp only
        omega
      · rw [success]

end Weighs

/-! ## The message of `Run` -/

section Sizes

variable {dataSize : Int32} {message : BwMessage}

theorem runMessage_header (run : runMessage dataSize = some message) :
    message.header = { field1 := 1, field2 := true, field3 := [115, 116, 117, 102, 102] } := by
  simp only [runMessage, Option.ite_none_right_eq_some, Option.some.injEq] at run
  obtain ⟨_, rfl⟩ := run
  rfl

theorem runMessage_size (run : runMessage dataSize = some message) :
    message.size.toNat = 10 + message.data.length := by
  have short := runMessage_payload run
  rw [BwMessage.size, BwHeader.size, runMessage_header run, UInt64.toNat_add, UInt64.toNat_ofNat']
  have header : (4 + 1 + UInt64.ofNat [115, 116, 117, 102, 102].length).toNat = 10 := by decide
  simp only at header ⊢
  omega

end Sizes

namespace BwClientApp

structure Figures {Call Server : Type} (message : BwMessage) (turns : List (Turn Call))
    (measure : Server → Nat) (weight : Call → Nat) (succeeds : Call → Bool) (before : Server)
    (state : State Server) : Prop where
  server : measure state.server = measure before + ((state.calls turns).map weight).sum
  acked : state.acked = (state.calls turns).countP succeeds
  client : state.totalBytes.toNat = state.acked * (10 + message.data.length) % 2 ^ 64

theorem figures_of_weighs {Call Server : Type} {transport : Transport Call Server}
    {message : BwMessage} {measure : Server → Nat} {weight : Call → Nat} {succeeds : Call → Bool}
    (weighs : Weighs transport message measure weight succeeds)
    (size : message.size.toNat = 10 + message.data.length) (timeDura : Int) (server : Server)
    (now : Int) (turns : List (Turn Call)) :
    Figures message turns measure weight succeeds server
      (Machine.run (turn transport message timeDura) (start server (meter now)) turns) := by
  have total := (accounted_run transport message timeDura server (meter now) turns).total_toNat
  obtain ⟨taken, many, measured, acked⟩ :=
    run_weighs weighs timeDura turns (start server (meter now))
  generalize Machine.run (turn transport message timeDura) (start server (meter now)) turns =
    state at *
  have calls : state.calls turns = (turns.take taken).map Turn.call := by
    rw [State.calls, many, start, List.length_nil, Nat.zero_add]
  constructor
  case server =>
    rw [measured, calls, List.map_map]
    rfl
  case acked =>
    rw [acked, calls, List.countP_map]
    exact Nat.zero_add _
  case client => rw [total, size]

/-- For every run: a call that gRPC hands to its service counts there with the size
of the whole message, one of brpc with that of the message without its payload and
with the payload, and the ZeroMQ server hands on the payload alone; the client
counts 10 and the payload for every call that is acknowledged. -/
theorem run_figures (messageCodec : PbCodec PbBwMessage) (ackCodec : PbCodec PbBwAck)
    (codec : HeaderCodec) (defaultEmpty : codec.serialize {} = [])
    (dataSize timeDurationSec : Int32) (message : BwMessage)
    (made : runMessage dataSize = some message) (service : BwService) (server : Zeromq.Server)
    (now : Int) (grpcTurns : List (Turn RpcOutcome)) (brpcTurns : List (Turn (Bool × RpcOutcome)))
    (zeromqTurns : List (Turn (Bytes × Zeromq.Exchange))) :
    Figures message grpcTurns BwService.metered
        (fun outcome => outcome.handled *
          (messageCodec.serialize (packPbBwMessage message)).length)
        RpcOutcome.succeeds service
        (Machine.run (turn (grpc messageCodec ackCodec) message (timeDura timeDurationSec))
          (start service (meter now)) grpcTurns) ∧
      Figures message brpcTurns BwService.metered
        (fun call => if call.1 then 0 else call.2.handled *
          ((messageCodec.serialize { header := packPbBwHeader message.header }).length +
            message.data.length))
        (fun call => !call.1 && call.2.succeeds) service
        (Machine.run (turn (brpc messageCodec ackCodec) message (timeDura timeDurationSec))
          (start service (meter now)) brpcTurns) ∧
      Figures message zeromqTurns Zeromq.Server.added (fun _ => message.data.length)
        (fun _ => true) server
        (Machine.run (turn (zeromq codec) message (timeDura timeDurationSec))
          (start server (meter now)) zeromqTurns) := by
  have size := runMessage_size made
  exact ⟨figures_of_weighs (grpc_weighs messageCodec ackCodec message) size _ service now
      grpcTurns,
    figures_of_weighs (brpc_weighs messageCodec ackCodec message) size _ service now brpcTurns,
    figures_of_weighs (zeromq_weighs defaultEmpty (runMessage_payload made)) size _ server now
      zeromqTurns⟩

def threeBytes : BwMessage where
  header := { field1 := 1, field2 := true, field3 := [115, 116, 117, 102, 102] }
  data := [0, 0, 0]

def retry : List (Turn RpcOutcome) :=
  [{ call := .ok 0, ack := blank, meterNow := 1, now := 1 },
    { call := .ok 1, ack := blank, meterNow := 2, now := 2 },
    { call := .failed 0, ack := blank, meterNow := 3, now := 1000000001 }]

theorem run_figures_retry :
    (Machine.run (turn (grpc wireMessages wireAcks) threeBytes (timeDura 1))
        (start { headers := [], metered := 0 } (meter 0)) retry).server.metered = 54 ∧
      (Machine.run (turn (grpc wireMessages wireAcks) threeBytes (timeDura 1))
        (start { headers := [], metered := 0 } (meter 0)) retry).totalBytes.toNat = 26 := by
  have figures := (run_figures wireMessages wireAcks wireCodec rfl 3 1 threeBytes (by decide)
    { headers := [], metered := 0 } { parts := [], added := 0 } 0 retry [] []).1
  constructor
  · rw [figures.server]
    decide
  · rw [figures.client]
    decide

end BwClientApp

end RpcBench.Bandwidth
