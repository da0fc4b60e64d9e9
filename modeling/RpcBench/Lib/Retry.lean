import Mathlib.Data.List.Range

/-! # Loops that try again

While its condition holds, a loop asks for an answer, and an answer may make it
leave.  Some answers are idle, and it tries again in the same state.  Where
every other answer brings it nearer to its end and the idle ones do not go on
for ever, it returns. -/
set_option autoImplicit false

namespace Retry

variable {State Answer : Type}

inductive Reaction (State : Type) where
  | again (state : State)
  | leave (state : State)

def loop (more : State → Prop) [DecidablePred more] (turn : State → Answer → Reaction State) :
    List Answer → State → Option State
  | answers, state =>
    if more state then
      match answers with
      | [] => none
      | answer :: rest =>
        match turn state answer with
        | .again state => loop more turn rest state
        | .leave state => some state
    else some state

def first (answers : Nat → Answer) (calls : Nat) : List Answer := (List.range calls).map answers

theorem first_succ (answers : Nat → Answer) (calls : Nat) :
    first answers (calls + 1) = answers 0 :: first (fun i => answers (i + 1)) calls := by
  simp [first, List.range_succ_eq_map, Function.comp_def]

variable {more : State → Prop} [DecidablePred more] {turn : State → Answer → Reaction State}

theorem loop_of_ended (answers : List Answer) {state : State} (ended : ¬more state) :
    loop more turn answers state = some state := by
  unfold loop
  exact if_neg ended

theorem loop_nil {state : State} (goes : more state) : loop more turn [] state = none := by
  unfold loop
  exact if_pos goes

theorem loop_cons (answer : Answer) (rest : List Answer) {state : State} (goes : more state) :
    loop more turn (answer :: rest) state =
      match turn state answer with
      | .again state => loop more turn rest state
      | .leave state => some state := by
  conv_lhs => unfold loop
  exact if_pos goes

variable (more turn) in
/-- With a certain number of answers, and no fewer, the loop returns, in a state of
the invariant; its condition has failed, or the last answer made it leave. -/
def Returns (Inv : State → Prop) (leaves : Answer → Prop) (answers : Nat → Answer)
    (state : State) : Prop :=
  ∃ calls state', (∀ fewer, fewer < calls → loop more turn (first answers fewer) state = none) ∧
    loop more turn (first answers calls) state = some state' ∧ Inv state' ∧
    (¬more state' ∨ ∃ last, calls = last + 1 ∧ leaves (answers last))

/-- Fair answers are not idle from some point on. -/
def Fair (idle : Answer → Prop) (answers : Nat → Answer) : Prop :=
  ∀ i, ∃ j, i ≤ j ∧ ¬idle (answers j)

variable {Inv : State → Prop} {idle leaves : Answer → Prop}

theorem Fair.tail {answers : Nat → Answer} (fair : Fair idle answers) :
    Fair idle fun i => answers (i + 1) := by
  intro i
  obtain ⟨j, le, busy⟩ := fair (i + 1)
  obtain ⟨j, rfl⟩ : ∃ k, j = k + 1 := ⟨j - 1, by omega⟩
  exact ⟨j, by omega, busy⟩

theorem Returns.of_ended {answers : Nat → Answer} {state : State} (holds : Inv state)
    (ended : ¬more state) : Returns more turn Inv leaves answers state := by
  refine ⟨0, state, ?_, loop_of_ended _ ended, holds, Or.inl ended⟩
  intro fewer below
  exact absurd below (Nat.not_lt_zero fewer)

theorem Returns.of_leave {answers : Nat → Answer} {state : State} (holds : Inv state)
    (goes : more state) (left : turn state (answers 0) = .leave state)
    (reason : leaves (answers 0)) : Returns more turn Inv leaves answers state := by
  refine ⟨1, state, ?_, ?_, holds, Or.inr ⟨0, rfl, reason⟩⟩
  · intro fewer below
    obtain rfl : fewer = 0 := by omega
    exact loop_nil goes
  · rw [first_succ, loop_cons _ _ goes, left]

theorem Returns.of_again {answers : Nat → Answer} {state next : State} (goes : more state)
    (again : turn state (answers 0) = .again next)
    (returns : Returns more turn Inv leaves (fun i => answers (i + 1)) next) :
    Returns more turn Inv leaves answers state := by
  obtain ⟨calls, state', pending, returned, holds, why⟩ := returns
  have step : ∀ calls, loop more turn (first answers (calls + 1)) state =
      loop more turn (first (fun i => answers (i + 1)) calls) next := by
    intro calls
    rw [first_succ, loop_cons _ _ goes, again]
  refine ⟨calls + 1, state', ?_, (step calls).trans returned, holds, ?_⟩
  · intro fewer below
    cases fewer with
    | zero => exact loop_nil goes
    | succ fewer => exact (step fewer).trans (pending fewer (by omega))
  · rcases why with ended | ⟨last, rfl, reason⟩
    · exact Or.inl ended
    · exact Or.inr ⟨last + 1, rfl, reason⟩

variable (more turn) in
/-- An idle answer changes nothing; any other keeps the invariant, and it lowers the
rank or makes the loop leave. -/
structure Progress (Inv : State → Prop) (idle leaves : Answer → Prop) (rank : State → Nat) :
    Prop where
  waits : ∀ state answer, idle answer → turn state answer = .again state
  works : ∀ state answer, Inv state → more state → ¬idle answer →
    (∃ next, turn state answer = .again next ∧ Inv next ∧ rank next < rank state) ∨
    (turn state answer = .leave state ∧ leaves answer)

variable {rank : State → Nat}

/-- On any answers: if the loop returns, the invariant holds. -/
theorem Progress.invariant (progress : Progress more turn Inv idle leaves rank) :
    ∀ (answers : List Answer) (state state' : State), Inv state →
      loop more turn answers state = some state' → Inv state' := by
  intro answers
  induction answers with
  | nil =>
      intro state state' holds returned
      by_cases goes : more state
      · rw [loop_nil goes] at returned
        cases returned
      · rw [loop_of_ended _ goes] at returned
        cases returned
        exact holds
  | cons answer rest ih =>
      intro state state' holds returned
      by_cases goes : more state
      · rw [loop_cons _ _ goes] at returned
        by_cases idles : idle answer
        · rw [progress.waits state answer idles] at returned
          exact ih state state' holds returned
        · rcases progress.works state answer holds goes idles with
            ⟨next, again, holds', _⟩ | ⟨left, _⟩
          · rw [again] at returned
            exact ih next state' holds' returned
          · rw [left] at returned
            cases returned
            exact holds
      · rw [loop_of_ended _ goes] at returned
        cases returned
        exact holds

/-- On fair answers the loop returns. -/
theorem Progress.returns (progress : Progress more turn Inv idle leaves rank) :
    ∀ (bound : Nat) (state : State) (answers : Nat → Answer), rank state < bound → Inv state →
      Fair idle answers → Returns more turn Inv leaves answers state := by
  intro bound
  induction bound with
  | zero => intro state answers below; exact absurd below (Nat.not_lt_zero _)
  | succ bound ih =>
      intro state answers below holds fair
      by_cases goes : more state
      · have busyFirst : ∀ answers : Nat → Answer, Fair idle answers → ¬idle (answers 0) →
            Returns more turn Inv leaves answers state := by
          intro answers fair busy
          rcases progress.works state (answers 0) holds goes busy with
            ⟨next, again, holds', lower⟩ | ⟨left, reason⟩
          · exact Returns.of_again goes again (ih next _ (by omega) holds' fair.tail)
          · exact Returns.of_leave holds goes left reason
        -- the answers up to the first busy one leave the state as it is
        have wait : ∀ (j : Nat) (answers : Nat → Answer), Fair idle answers → ¬idle (answers j) →
            Returns more turn Inv leaves answers state := by
          intro j
          induction j with
          | zero => exact busyFirst
          | succ j waiting =>
              intro answers fair busy
              by_cases idles : idle (answers 0)
              · exact Returns.of_again goes (progress.waits state (answers 0) idles)
                  (waiting (fun i => answers (i + 1)) fair.tail busy)
              · exact busyFirst answers fair idles
        obtain ⟨j, _, busy⟩ := fair 0
        exact wait j answers fair busy
      · exact Returns.of_ended holds goes

end Retry
