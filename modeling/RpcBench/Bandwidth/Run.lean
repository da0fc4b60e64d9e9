import RpcBench.Bandwidth.Rpc
import RpcBench.Metering.Windows

/-! # `BwClientApp::Run`

The loop that pushes one message until its time is up.  A transport is a
function that either sets the `ack` or does not return; the clocks are those of
the meter and of the loop, the latter from `start`.  The printed line is a
function of the total and of the last clock. -/
set_option autoImplicit false

namespace RpcBench.Bandwidth

open Metering

def BwHeader.size (header : BwHeader) : UInt64 := 4 + 1 + UInt64.ofNat header.field3.length

def BwMessage.size (message : BwMessage) : UInt64 :=
  message.header.size + UInt64.ofNat message.data.length

namespace BwClientApp

/-- `PushData` of a transport: what the call meets, and the `ack` before it. -/
def Transport (Call Server : Type) :=
  Call → BwMessage → Server → BwAck → Option (BwAck × Server)

/-- `ack` is what the variable holds before `PushData`. -/
structure Turn (Call : Type) where
  call : Call
  ack : BwAck
  meterNow : Int
  now : Int

structure State (Server : Type) where
  server : Server
  acks : List BwAck
  totalBytes : UInt64
  meter : Session
  printed : Option (UInt64 × Int)
  /-- a call does not return -/
  stuck : Bool

/-- In nanoseconds, from microseconds. -/
def timeDura (timeDurationSec : Int32) : Int := timeDurationSec.toInt * 1000000 * 1000

section Loop

variable {Call Server : Type} (transport : Transport Call Server) (message : BwMessage)
  (timeDura : Int)

def start (server : Server) (meter : Meter) : State Server where
  server := server
  acks := []
  totalBytes := 0
  meter := Session.start meter
  printed := none
  stuck := false

def State.count (ack : BwAck) (meterNow : Int) (state : State Server) : State Server :=
  if ack.success then
    { state with
      totalBytes := state.totalBytes + message.size
      meter := state.meter.step (.addBytes message.size.toInt64, meterNow) }
  else state

def State.checkTime (now : Int) (state : State Server) : State Server :=
  if now > timeDura then { state with printed := some (state.totalBytes, now) } else state

def turn (state : State Server) (turn : Turn Call) : State Server :=
  if state.printed.isSome ∨ state.stuck then state
  else
    match transport turn.call message state.server turn.ack with
    | none => { state with stuck := true }
    | some (ack, server) =>
      (({ state with server, acks := state.acks ++ [ack] } : State Server).count message ack
        turn.meterNow).checkTime timeDura turn.now

def State.acked (state : State Server) : Nat := state.acks.countP fun ack => ack.success

end Loop

/-- `Meter(1000, "meter", 1)`, with the environment variable unset. -/
def meter (now : Int) : Meter :=
  { sample := 1, cnt := 0, bytes := 0, qps := 0, tp := now, interval := 1000, disable := 0 }

theorem new_meter (build : Build) (now : Int) :
    Meter.new build 1000 1 0 now = some (meter now) := by
  cases build with
  | debug => rfl
  | release => rfl

/-! ## The total, the windows and the deadline -/

section Accounting

variable {Call Server : Type} {transport : Transport Call Server} {message : BwMessage}
  {timeDura : Int}

def State.Over (state : State Server) : Prop := state.printed.isSome ∨ state.stuck = true

theorem turn_over {state : State Server} (ended : state.Over) (first : Turn Call) :
    turn transport message timeDura state first = state :=
  if_pos ended

theorem run_over {state : State Server} (ended : state.Over) (turns : List (Turn Call)) :
    Machine.run (turn transport message timeDura) state turns = state := by
  induction turns with
  | nil => rfl
  | cons first rest ih =>
      rw [Machine.run_cons, turn_over ended]
      exact ih

theorem turn_stuck (timeDura : Int) {state : State Server} (going : ¬state.Over) {first : Turn Call}
    (silent : transport first.call message state.server first.ack = none) :
    turn transport message timeDura state first = { state with stuck := true } := by
  unfold State.Over at going
  rw [turn, if_neg going, silent]

theorem turn_returned (timeDura : Int) {state : State Server} (going : ¬state.Over)
    {first : Turn Call} {ack : BwAck} {server : Server}
    (returned : transport first.call message state.server first.ack = some (ack, server)) :
    turn transport message timeDura state first =
      { server
        acks := state.acks ++ [ack]
        totalBytes := state.totalBytes + if ack.success then message.size else 0
        meter :=
          if ack.success then state.meter.step (.addBytes message.size.toInt64, first.meterNow)
          else state.meter
        printed :=
          if timeDura < first.now then
            some (state.totalBytes + (if ack.success then message.size else 0), first.now)
          else none
        stuck := false } := by
  obtain ⟨unprinted, unstuck⟩ := not_or.mp going
  have printed : state.printed = none := Option.not_isSome_iff_eq_none.mp unprinted
  have stuck : state.stuck = false := Bool.eq_false_iff.mpr unstuck
  have zero : ∀ bytes : UInt64, bytes + 0 = bytes := UInt64.add_zero
  unfold State.Over at going
  rw [turn, if_neg going, returned]
  by_cases success : ack.success = true
  · by_cases late : timeDura < first.now
    · simp [State.count, State.checkTime, success, late, stuck]
    · simp [State.count, State.checkTime, success, late, printed, stuck]
  · by_cases late : timeDura < first.now
    · simp [State.count, State.checkTime, success, late, stuck, zero]
    · simp [State.count, State.checkTime, success, late, printed, stuck, zero]

structure Accounted (message : BwMessage) (meter : Meter) (state : State Server) : Prop where
  total : state.totalBytes = UInt64.ofNat state.acked * message.size
  metered : ∃ calls, state.meter = Session.run meter calls ∧
    calls.length = state.acked ∧ ∀ call ∈ calls, call.1 = .addBytes message.size.toInt64
  printed : ∀ bytes ns, state.printed = some (bytes, ns) → bytes = state.totalBytes

theorem acked_concat (acks : List BwAck) (ack : BwAck) :
    (acks ++ [ack]).countP (fun ack => ack.success) =
      acks.countP (fun ack => ack.success) + ack.success.toNat := by
  rw [List.countP_append, List.countP_singleton]
  cases ack.success with
  | true => rfl
  | false => rfl

theorem session_concat (meter : Meter) (calls : List (Metering.Call × Int))
    (call : Metering.Call × Int) :
    Session.run meter (calls ++ [call]) = (Session.run meter calls).step call :=
  Machine.run_append Session.step calls [call] (Session.start meter)

theorem Accounted.turn {meter : Meter} {state : State Server}
    (accounted : Accounted message meter state) (first : Turn Call) :
    Accounted message meter (turn transport message timeDura state first) := by
  by_cases ended : state.Over
  · rw [turn_over ended]
    exact accounted
  · cases returned : transport first.call message state.server first.ack with
    | none =>
        rw [turn_stuck timeDura ended returned]
        exact ⟨accounted.total, accounted.metered, accounted.printed⟩
    | some result =>
        obtain ⟨ack, server⟩ := result
        obtain ⟨calls, session, many, same⟩ := accounted.metered
        have acked := acked_concat state.acks ack
        rw [turn_returned timeDura ended returned]
        constructor
        case total =>
          simp only [State.acked, acked]
          rw [accounted.total, UInt64.ofNat_add, UInt64.add_mul]
          cases ack.success with
          | true => simp [State.acked]
          | false => simp [State.acked]
        case metered =>
          cases success : ack.success with
          | false =>
              rw [success] at acked
              exact ⟨calls, session, many.trans acked.symm, same⟩
          | true =>
              rw [success] at acked
              refine ⟨calls ++ [(.addBytes message.size.toInt64, first.meterNow)], ?_, ?_, ?_⟩
              · simp only [if_true]
                rw [session_concat, session]
              · rw [List.length_append, many]
                exact acked.symm
              · intro call member
                cases List.mem_append.mp member with
                | inl old => exact same call old
                | inr new => rw [List.mem_singleton.mp new]
        case printed =>
          intro bytes ns printed
          simp only at printed ⊢
          split at printed
          · obtain ⟨rfl, _⟩ := Prod.mk.inj (Option.some.inj printed)
            rfl
          · cases printed

theorem accounted_run (transport : Transport Call Server) (message : BwMessage) (timeDura : Int)
    (server : Server) (meter : Meter) (turns : List (Turn Call)) :
    Accounted message meter
      (Machine.run (turn transport message timeDura) (start server meter) turns) := by
  apply Machine.run_invariant
  · intro state first accounted
    exact accounted.turn first
  · constructor
    case total => exact UInt64.zero_mul.symm
    case metered =>
      refine ⟨[], rfl, rfl, ?_⟩
      intro call member
      cases member
    case printed =>
      intro bytes ns printed
      cases printed

theorem Accounted.total_toNat {meter : Meter} {state : State Server}
    (accounted : Accounted message meter state) :
    state.totalBytes.toNat = state.acked * message.size.toNat % 2 ^ 64 := by
  rw [accounted.total, UInt64.toNat_mul, UInt64.toNat_ofNat', Nat.mod_mul_mod]

theorem adds_repeated (size : Int64) (positive : 0 ≤ size.toInt)
    (calls : List (Metering.Call × Int)) :
    ∀ (session : Session) (added : Nat), session.meter.disable = 0 →
      (∀ call ∈ calls, call.1 = .addBytes size) → 0 ≤ session.meter.bytes.toInt →
      session.meter.bytes.toInt ≤ added * size.toInt →
      (added + calls.length) * size.toInt < 2 ^ 63 →
      Machine.Along Session.step Adds session calls := by
  induction calls with
  | nil =>
      intro session added _ _ _ _ _
      exact trivial
  | cons call rest ih =>
      intro session added enabled same low high fits
      have amount : call.1.bytes = size := by rw [same call List.mem_cons_self]; rfl
      have none_counted : call.1.qps = 0 := by rw [same call List.mem_cons_self]; rfl
      have room : (added + 1) * size.toInt < 2 ^ 63 := by
        have fewer : ((added : Int) + 1) * size.toInt ≤
            (added + (call :: rest).length) * size.toInt := by
          apply Int.mul_le_mul_of_nonneg_right _ positive
          rw [List.length_cons]
          omega
        omega
      rw [Int.add_mul, Int.one_mul] at room
      have sum : session.meter.bytes.toBitVec.saddOverflow call.1.bytes.toBitVec = false := by
        rw [amount]
        simp only [BitVec.saddOverflow, Int64.toInt_toBitVec, Bool.or_eq_false_iff,
          decide_eq_false_iff_not]
        constructor
        · omega
        · omega
      have adds : Adds session call := by
        refine ⟨sum, ?_⟩
        rw [none_counted]
        have range := session.meter.qps.toInt_lt
        have range' := session.meter.qps.le_toInt
        simp only [BitVec.saddOverflow, Int64.toInt_toBitVec, Bool.or_eq_false_iff,
          decide_eq_false_iff_not]
        constructor
        · simp
          omega
        · simp
          omega
      refine ⟨adds, ?_⟩
      have total : (session.meter.added call.1).bytes.toInt =
          session.meter.bytes.toInt + size.toInt := by
        rw [← amount]
        exact toInt_add_of_fits sum
      apply ih (session.step call) (added + 1) (step_frame enabled call).1
      · intro other member
        exact same other (List.mem_cons_of_mem _ member)
      · rcases step_windows enabled call with ⟨meter, _⟩ | ⟨_, meter, _⟩
        · rw [meter, total]
          omega
        · rw [meter]
          exact Int.le_refl _
      · rcases step_windows enabled call with ⟨meter, _⟩ | ⟨_, meter, _⟩
        · rw [meter, total]
          push_cast
          rw [Int.add_mul, Int.one_mul]
          omega
        · rw [meter]
          exact Int.mul_nonneg (Int.natCast_nonneg _) positive
      · rw [List.length_cons] at fits
        push_cast at fits ⊢
        rw [Int.add_assoc, Int.add_comm 1]
        exact fits

theorem Accounted.conserved {now : Int} {state : State Server}
    (accounted : Accounted message (BwClientApp.meter now) state)
    (fits : state.acked * message.size.toNat < 2 ^ 63) :
    ((windows state.meter).1.map fun window => window.2.bytes.toInt).sum +
      state.meter.meter.bytes.toInt = (state.acked * message.size.toNat : Nat) := by
  obtain ⟨calls, session, many, same⟩ := accounted.metered
  have running : Running now 1000 (Session.start (BwClientApp.meter now)) :=
    ⟨rfl, rfl, Adjacent.start (BwClientApp.meter now)⟩
  have kinds : ∀ call ∈ calls, call.1.ofQps = false := by
    intro call member
    rw [same call member]
    rfl
  -- without a call there is no bound on the size
  have along : calls = [] ∨ message.size.toInt64.toInt = message.size.toNat ∧
      Machine.Along Session.step Adds (Session.start (BwClientApp.meter now)) calls := by
    cases calls with
    | nil => exact Or.inl rfl
    | cons call rest =>
        have one : message.size.toNat ≤ state.acked * message.size.toNat := by
          rw [← many, List.length_cons, Nat.succ_mul]
          exact Nat.le_add_left _ _
        have value : message.size.toInt64.toInt = message.size.toNat := by
          rw [toInt_bits]
          change (if message.size.toNat < 2 ^ 63 then (message.size.toNat : Int) else _) = _
          rw [if_pos (by omega)]
        refine Or.inr ⟨value, ?_⟩
        apply adds_repeated message.size.toInt64 _ (call :: rest) _ 0 rfl same
        · exact Int.le_refl _
        · rw [value]
          exact Int.mul_nonneg (Int.natCast_nonneg _) (Int.natCast_nonneg _)
        · rw [value, many]
          push_cast
          rw [Int.zero_add]
          exact_mod_cast fits
        · rw [value]
          exact Int.natCast_nonneg _
  cases along with
  | inl empty =>
      subst empty
      rw [← many, session, List.length_nil, Nat.zero_mul]
      rfl
  | inr bounded =>
      obtain ⟨value, adds⟩ := bounded
      have sums := Sums.run calls _ running (Sums.start false rfl rfl) kinds adds
      have conserved := sums.exact.conserved.1
      have log : (Machine.run Session.step (Session.start (BwClientApp.meter now)) calls).log.map
          Prod.fst = calls := Session.log_run (BwClientApp.meter now) calls
      rw [log] at conserved
      rw [session, ← many]
      refine conserved.trans ?_
      have amounts : calls.map (fun call => call.1.bytes.toInt) =
          List.replicate calls.length (message.size.toNat : Int) := by
        apply List.eq_replicate_iff.mpr
        refine ⟨List.length_map _, ?_⟩
        intro amount member
        obtain ⟨call, present, rfl⟩ := List.mem_map.mp member
        rw [same call present]
        exact value
      rw [bytesOf, amounts, List.sum_replicate]
      simp

def Turn.late (timeDura : Int) (turn : Turn Call) : Bool := decide (turn.now > timeDura)

theorem run_ends (transport : Transport Call Server) (message : BwMessage) (timeDura : Int)
    (turns : List (Turn Call)) :
    ∀ state : State Server, ¬state.Over →
      (Machine.run (turn transport message timeDura) state turns).stuck = false →
      (Machine.run (turn transport message timeDura) state turns).printed.map Prod.snd =
          (turns.find? (Turn.late timeDura)).map Turn.now ∧
        (Machine.run (turn transport message timeDura) state turns).acks.length =
          state.acks.length + (turns.takeWhile fun turn => !turn.late timeDura).length +
            (turns.find? (Turn.late timeDura)).isSome.toNat := by
  induction turns with
  | nil =>
      intro state going _
      have printed := Option.not_isSome_iff_eq_none.mp (not_or.mp going).1
      rw [Machine.run_nil, printed]
      exact ⟨rfl, rfl⟩
  | cons first rest ih =>
      intro state going returns
      rw [Machine.run_cons] at returns ⊢
      cases returned : transport first.call message state.server first.ack with
      | none =>
          have stuck := turn_stuck timeDura going returned
          rw [stuck, run_over (Or.inr rfl)] at returns
          cases returns
      | some result =>
          obtain ⟨ack, server⟩ := result
          have turned := turn_returned timeDura going returned
          by_cases late : timeDura < first.now
          · have found : first.late timeDura = true := decide_eq_true late
            rw [if_pos late] at turned
            rw [turned, run_over (Or.inl rfl), List.find?_cons, found]
            constructor
            · rfl
            · simp [found]
          · have missed : first.late timeDura = false := decide_eq_false late
            rw [if_neg late] at turned
            have next : ¬(turn transport message timeDura state first).Over := by
              rw [turned]
              simp [State.Over]
            obtain ⟨printed, many⟩ := ih _ next returns
            have taken : (first :: rest).takeWhile (fun turn => !turn.late timeDura) =
                first :: rest.takeWhile fun turn => !turn.late timeDura :=
              List.takeWhile_cons_of_pos (by simp [missed])
            have skipped : (first :: rest).find? (Turn.late timeDura) =
                rest.find? (Turn.late timeDura) := List.find?_cons_of_neg (by simp [missed])
            rw [printed, many, skipped, taken, turned, List.length_append,
              List.length_singleton, List.length_cons]
            refine ⟨rfl, ?_⟩
            omega

end Accounting

structure Transferred {Call Server : Type} (message : BwMessage) (timeDura : Int)
    (turns : List (Turn Call)) (state : State Server) : Prop where
  total : state.totalBytes.toNat = state.acked * message.size.toNat % 2 ^ 64
  /-- the lines of the meter, and what it holds back -/
  reported : state.acked * message.size.toNat < 2 ^ 63 →
    ((windows state.meter).1.map fun window => window.2.bytes.toInt).sum +
      state.meter.meter.bytes.toInt = state.totalBytes.toNat
  printed : ∀ bytes ns, state.printed = some (bytes, ns) → bytes = state.totalBytes
  /-- unless a call hangs, the first turn past the deadline is the last one -/
  ends : state.stuck = false →
    state.printed.map Prod.snd = (turns.find? (Turn.late timeDura)).map Turn.now ∧
      state.acks.length = (turns.takeWhile fun turn => !turn.late timeDura).length +
        (turns.find? (Turn.late timeDura)).isSome.toNat

/-- For every transport, and whatever its calls and the clocks do. -/
theorem run_transferred {Call Server : Type} (transport : Transport Call Server)
    (message : BwMessage) (timeDura : Int) (server : Server) (now : Int)
    (turns : List (Turn Call)) :
    Transferred message timeDura turns
      (Machine.run (turn transport message timeDura) (start server (meter now)) turns) := by
  have accounted := accounted_run transport message timeDura server (meter now) turns
  have going : ¬(start server (meter now)).Over := by simp [State.Over, start]
  have ends := run_ends transport message timeDura turns _ going
  generalize Machine.run (turn transport message timeDura) (start server (meter now)) turns =
    state at *
  have total := accounted.total_toNat
  constructor
  case total => exact total
  case reported =>
    intro fits
    rw [accounted.conserved fits, total, Nat.mod_eq_of_lt (by omega)]
  case printed => exact accounted.printed
  case ends =>
    intro returns
    obtain ⟨printed, many⟩ := ends returns
    refine ⟨printed, many.trans ?_⟩
    simp [start]

end BwClientApp

end RpcBench.Bandwidth
