import RpcBench.Lib.Fallible
import RpcBench.Lib.Retry
import RpcBench.Socket.Kernel

/-! # `SendAll` and `RecvAll` over every sequence of results

Both loops are loops that try again: would-block is idle, a count brings them
nearer to their end, any other error and the end of the stream make them
leave. -/
set_option autoImplicit false

namespace RpcBench.Socket

open ByteList Retry Fallible

variable {σ ι : Type}

/-! ## The two loops as loops that try again -/

def Unfinished {α : Type} (len : Nat) (state : Nat × α) : Prop := state.1 < len

instance {α : Type} (len : Nat) : DecidablePred (Unfinished (α := α) len) :=
  fun state => inferInstanceAs (Decidable (state.1 < len))

def sendTurn (kernel : Kernel σ ι) (fd : RawFd) (bytes : Bytes) (state : Nat × σ) (choice : ι) :
    Reaction (Nat × σ) :=
  match kernel.send choice fd (bytes.drop state.1) state.2 with
  | (.error errno, sys) =>
    if lastErrorWouldBlock errno then .again (state.1, sys) else .leave (state.1, sys)
  | (.count nbytes, sys) => .again (state.1 + nbytes, sys)

def recvTurn (kernel : Kernel σ ι) (fd : RawFd) (len : Nat) (state : Nat × Bytes × σ)
    (choice : ι) : Reaction (Nat × Bytes × σ) :=
  match kernel.recv choice fd (len - state.1) state.2.2 with
  | (.error errno, sys) =>
    if lastErrorWouldBlock errno then .again (state.1, state.2.1, sys)
    else .leave (state.1, state.2.1, sys)
  | (.count [], sys) => .leave (state.1, state.2.1, sys)
  | (.count (byte :: bytes), sys) =>
    .again (state.1 + (byte :: bytes).length,
      overwrite state.2.1 state.1 (byte :: bytes), sys)

def returned {α : Type} : Option α → Except Stop α
  | none => .error .pending
  | some result => .ok result

theorem sendAll_eq_loop (kernel : Kernel σ ι) (fd : RawFd) (bytes : Bytes) :
    ∀ (choices : List ι) (n : Nat) (sys : σ),
      sendAll kernel fd bytes choices n sys =
        returned (loop (Unfinished bytes.length) (sendTurn kernel fd bytes) choices (n, sys)) := by
  intro choices
  induction choices with
  | nil =>
      intro n sys
      by_cases more : n < bytes.length
      · have goes : Unfinished bytes.length (n, sys) := more
        rw [loop_nil goes, sendAll, if_pos more]
        rfl
      · have ended : ¬Unfinished bytes.length (n, sys) := more
        rw [loop_of_ended _ ended, sendAll, if_neg more]
        rfl
  | cons choice rest ih =>
      intro n sys
      by_cases more : n < bytes.length
      · have goes : Unfinished bytes.length (n, sys) := more
        rw [loop_cons _ _ goes, sendAll, if_pos more, sendTurn]
        simp only
        rcases kernel.send choice fd (bytes.drop n) sys with ⟨nbytes | errno, sys'⟩
        · exact ih (n + nbytes) sys'
        · by_cases block : lastErrorWouldBlock errno = true
          · simp only [block, if_true]
            exact ih n sys'
          · simp only [block, Bool.false_eq_true, if_false]
            rfl
      · have ended : ¬Unfinished bytes.length (n, sys) := more
        rw [loop_of_ended _ ended, sendAll, if_neg more]
        rfl

theorem recvAll_eq_loop (kernel : Kernel σ ι) (fd : RawFd) (len : Nat) :
    ∀ (choices : List ι) (n : Nat) (buf : Bytes) (sys : σ),
      recvAll kernel fd len choices n buf sys =
        returned (loop (Unfinished len) (recvTurn kernel fd len) choices (n, buf, sys)) := by
  intro choices
  induction choices with
  | nil =>
      intro n buf sys
      by_cases more : n < len
      · have goes : Unfinished len (n, buf, sys) := more
        rw [loop_nil goes, recvAll, if_pos more]
        rfl
      · have ended : ¬Unfinished len (n, buf, sys) := more
        rw [loop_of_ended _ ended, recvAll, if_neg more]
        rfl
  | cons choice rest ih =>
      intro n buf sys
      by_cases more : n < len
      · have goes : Unfinished len (n, buf, sys) := more
        rw [loop_cons _ _ goes, recvAll, if_pos more, recvTurn]
        simp only
        rcases kernel.recv choice fd (len - n) sys with ⟨(_ | ⟨byte, bytes⟩) | errno, sys'⟩
        · rfl
        · exact ih (n + (byte :: bytes).length) (overwrite buf n (byte :: bytes)) sys'
        · by_cases block : lastErrorWouldBlock errno = true
          · simp only [block, if_true]
            exact ih n buf sys'
          · simp only [block, Bool.false_eq_true, if_false]
            rfl
      · have ended : ¬Unfinished len (n, buf, sys) := more
        rw [loop_of_ended _ ended, recvAll, if_neg more]
        rfl

/-! ## A connection that answers as it is told -/

/-- The result of a call: it moves one byte and at most `more` others, it fails, or the
peer has closed the connection. -/
inductive Result where
  | moved (more : Nat)
  | failed (errno : Errno)
  | closed
  deriving DecidableEq, Repr

namespace Result

def WouldBlock : Result → Prop
  | failed errno => lastErrorWouldBlock errno = true
  | _ => False

/-- A hard error, or the end of the stream. -/
def Final : Result → Prop
  | moved _ => False
  | failed errno => lastErrorWouldBlock errno = false
  | closed => True

end Result

/-- What has been sent, the stream of the peer, and how much of it has been received. -/
structure Duplex where
  sent : Bytes
  stream : Nat → UInt8
  taken : Nat

def Duplex.next (line : Duplex) (count : Nat) : Bytes :=
  (List.range count).map fun i => line.stream (line.taken + i)

/-- On a closed connection `recv` returns 0, and `send` fails. -/
def scripted : Kernel Duplex Result where
  recv result _ len line :=
    match result with
    | .moved more =>
      let count := min (more + 1) len
      (.count (line.next count), { line with taken := line.taken + count })
    | .failed errno => (.error errno, line)
    | .closed => (.count [], line)
  send result _ bytes line :=
    match result with
    | .moved more =>
      let count := min (more + 1) bytes.length
      (.count count, { line with sent := line.sent ++ bytes.take count })
    | .failed errno => (.error errno, line)
    | .closed => (.error .EPIPE, line)
  epollCtlMod _ _ line := some line
  recv_le := by
    intro result fd len line bytes line' answer
    cases result with
    | moved more =>
        cases answer
        simp only [Duplex.next, List.length_map, List.length_range]
        exact Nat.min_le_right _ _
    | failed errno => cases answer
    | closed => cases answer; exact Nat.zero_le _
  send_le := by
    intro result fd bytes line nbytes line' answer
    cases result with
    | moved more => cases answer; exact Nat.min_le_right _ _
    | failed errno => cases answer
    | closed => cases answer

@[simp] theorem Duplex.length_next (line : Duplex) (count : Nat) :
    (line.next count).length = count := by
  simp [Duplex.next]

theorem Duplex.next_add (line : Duplex) (first second : Nat) :
    line.next (first + second) =
      line.next first ++ { line with taken := line.taken + first }.next second := by
  simp only [Duplex.next, List.range_add, List.map_append, List.map_map, Function.comp_def,
    Nat.add_assoc]

/-! ## Every sequence of results -/

def SentPrefix (bytes : Bytes) (line : Duplex) (state : Nat × Duplex) : Prop :=
  state.1 ≤ bytes.length ∧ state.2 = { line with sent := line.sent ++ bytes.take state.1 }

def ReceivedPrefix (len : Nat) (buffer : Bytes) (line : Duplex) (state : Nat × Bytes × Duplex) :
    Prop :=
  state.1 ≤ len ∧ state.2.1 = line.next state.1 ++ buffer.drop state.1 ∧
    state.2.2 = { line with taken := line.taken + state.1 }

theorem send_progress (fd : RawFd) (bytes : Bytes) (line : Duplex) :
    Progress (Unfinished bytes.length) (sendTurn scripted fd bytes) (SentPrefix bytes line)
      Result.WouldBlock Result.Final (fun state => bytes.length - state.1) := by
  constructor
  case waits =>
    intro state result block
    cases result with
    | moved more => exact False.elim block
    | failed errno => exact if_pos block
    | closed => exact False.elim block
  case works =>
    intro state result holds goes busy
    obtain ⟨n, sys⟩ := state
    obtain ⟨le, same⟩ := holds
    simp only at le same
    unfold Unfinished at goes
    simp only at goes
    cases result with
    | moved more =>
        have left : (bytes.drop n).length = bytes.length - n := List.length_drop
        refine Or.inl ⟨_, rfl, ⟨?_, ?_⟩, ?_⟩
        · simp only [left]
          omega
        · simp only [same, List.append_assoc, List.take_add]
        · simp only [left]
          omega
    | failed errno =>
        have hard : lastErrorWouldBlock errno = false := Bool.eq_false_iff.mpr busy
        refine Or.inr ⟨if_neg busy, hard⟩
    | closed => exact Or.inr ⟨rfl, trivial⟩

theorem recv_progress (fd : RawFd) (len : Nat) (buffer : Bytes) (line : Duplex) :
    Progress (Unfinished len) (recvTurn scripted fd len) (ReceivedPrefix len buffer line)
      Result.WouldBlock Result.Final (fun state => len - state.1) := by
  constructor
  case waits =>
    intro state result block
    cases result with
    | moved more => exact False.elim block
    | failed errno => exact if_pos block
    | closed => exact False.elim block
  case works =>
    intro state result holds goes busy
    obtain ⟨n, content, sys⟩ := state
    obtain ⟨le, stored, same⟩ := holds
    simp only at le stored same
    unfold Unfinished at goes
    simp only at goes
    cases result with
    | moved more =>
        obtain ⟨count, value⟩ : ∃ count, min (more + 1) (len - n) = count + 1 :=
          ⟨min (more + 1) (len - n) - 1, by omega⟩
        have length : (sys.next (count + 1)).length = count + 1 := Duplex.length_next sys _
        have turn : recvTurn scripted fd len (n, content, sys) (.moved more) =
            .again (n + (count + 1), overwrite content n (sys.next (count + 1)),
              { sys with taken := sys.taken + (count + 1) }) := by
          simp only [recvTurn, scripted, value]
          cases bytes : sys.next (count + 1) with
          | nil =>
              rw [bytes] at length
              cases length
          | cons byte rest =>
              rw [bytes] at length
              simp only [length]
        refine Or.inl ⟨_, turn, ⟨?_, ?_, ?_⟩, ?_⟩
        · simp only
          omega
        · have front : (line.next n).length = n := Duplex.length_next line n
          have grown : line.next (n + (count + 1)) = line.next n ++ sys.next (count + 1) := by
            rw [Duplex.next_add, same]
          have written := overwrite_front (line.next n) (sys.next (count + 1)) buffer
          rw [front, length, ← grown, ← stored] at written
          exact written
        · simp only [same, Nat.add_assoc]
        · simp only
          omega
    | failed errno =>
        have hard : lastErrorWouldBlock errno = false := Bool.eq_false_iff.mpr busy
        refine Or.inr ⟨if_neg busy, hard⟩
    | closed => exact Or.inr ⟨rfl, trivial⟩

theorem sent_none (bytes : Bytes) (line : Duplex) : SentPrefix bytes line (0, line) := by
  refine ⟨Nat.zero_le _, ?_⟩
  simp only [List.take_zero, List.append_nil]

theorem received_none (len : Nat) (buffer : Bytes) (line : Duplex) :
    ReceivedPrefix len buffer line (0, buffer, line) := ⟨Nat.zero_le _, rfl, rfl⟩

/-- On any results, `SendAll` is still running or it has sent a prefix. -/
theorem sendAll_sat (fd : RawFd) (bytes : Bytes) (line : Duplex) (results : List Result) :
    Sat (sendAll scripted fd bytes results 0 line) (· = .pending) (SentPrefix bytes line) := by
  rw [sendAll_eq_loop]
  cases done : loop (Unfinished bytes.length) (sendTurn scripted fd bytes) results (0, line) with
  | none => exact rfl
  | some state =>
      exact (send_progress fd bytes line).invariant results _ state (sent_none bytes line) done

/-- On any results, `RecvAll` is still running or it has stored the next bytes. -/
theorem recvAll_sat (fd : RawFd) (len : Nat) (buffer : Bytes) (line : Duplex)
    (results : List Result) :
    Sat (recvAll scripted fd len results 0 buffer line) (· = .pending)
      (ReceivedPrefix len buffer line) := by
  rw [recvAll_eq_loop]
  cases done : loop (Unfinished len) (recvTurn scripted fd len) results (0, buffer, line) with
  | none => exact rfl
  | some state =>
      exact (recv_progress fd len buffer line).invariant results _ state
        (received_none len buffer line) done

/-- For every length and every sequence of results without would-block for ever, `SendAll`
returns having sent a prefix once and in order, and `RecvAll` having stored the
next bytes of the stream and nothing else; short only after a hard error or at
the end of the stream. -/
theorem transfers_exact (fd : RawFd) (results : Nat → Result) (line : Duplex)
    (fair : Fair Result.WouldBlock results) :
    (∀ bytes : Bytes, ∃ calls n,
      (∀ fewer, fewer < calls →
        sendAll scripted fd bytes (first results fewer) 0 line = .error .pending) ∧
      sendAll scripted fd bytes (first results calls) 0 line =
        .ok (n, { line with sent := line.sent ++ bytes.take n }) ∧
      n ≤ bytes.length ∧
      (n < bytes.length → ∃ last, calls = last + 1 ∧ (results last).Final)) ∧
    ∀ (len : Nat) (buffer : Bytes), ∃ calls n,
      (∀ fewer, fewer < calls →
        recvAll scripted fd len (first results fewer) 0 buffer line = .error .pending) ∧
      recvAll scripted fd len (first results calls) 0 buffer line =
        .ok (n, line.next n ++ buffer.drop n, { line with taken := line.taken + n }) ∧
      n ≤ len ∧ (n < len → ∃ last, calls = last + 1 ∧ (results last).Final) := by
  constructor
  · intro bytes
    obtain ⟨calls, ⟨n, sys⟩, pending, done, ⟨le, same⟩, why⟩ :=
      (send_progress fd bytes line).returns _ _ results (Nat.lt_succ_self _)
        (sent_none bytes line) fair
    simp only at le same
    refine ⟨calls, n, ?_, ?_, le, ?_⟩
    · intro fewer below
      rw [sendAll_eq_loop, pending fewer below]
      rfl
    · rw [sendAll_eq_loop, done, same]
      rfl
    · intro short
      exact why.resolve_left fun ended => ended short
  · intro len buffer
    obtain ⟨calls, ⟨n, content, sys⟩, pending, done, ⟨le, stored, same⟩, why⟩ :=
      (recv_progress fd len buffer line).returns _ _ results (Nat.lt_succ_self _)
        (received_none len buffer line) fair
    simp only at le stored same
    refine ⟨calls, n, ?_, ?_, le, ?_⟩
    · intro fewer below
      rw [recvAll_eq_loop, pending fewer below]
      rfl
    · rw [recvAll_eq_loop, done, stored, same]
      rfl
    · intro short
      exact why.resolve_left fun ended => ended short

def stuttering : Nat → Result := fun i => if i % 2 = 0 then .failed .EAGAIN else .moved (i % 2)

theorem transfers_exact_stuttering :
    ∃ calls n, sendAll scripted 3 [1, 2, 3] (first stuttering calls) 0
      { sent := [], stream := fun _ => 0, taken := 0 } =
        .ok (n, { sent := [1, 2, 3].take n, stream := fun _ => 0, taken := 0 }) := by
  have fair : Fair Result.WouldBlock stuttering := by
    intro i
    refine ⟨2 * i + 1, by omega, ?_⟩
    have odd : (2 * i + 1) % 2 = 1 := by omega
    simp only [stuttering, odd]
    exact fun block => block
  obtain ⟨calls, n, _, sent, _⟩ := (transfers_exact 3 stuttering
    { sent := [], stream := fun _ => 0, taken := 0 } fair).1 [1, 2, 3]
  exact ⟨calls, n, sent⟩

end RpcBench.Socket
