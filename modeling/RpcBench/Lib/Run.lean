import Mathlib.Data.List.Basic

/-! # Runs of a total step function

A machine is a total function `step : State → Input → State`; an input that
does not apply leaves the state as it is.  `run` folds it over a list of
inputs, so a property of every run is a property of every list.  `Along`
says that a predicate on (state, input) holds at each step of a run, `Passes` that
one of its states meets a goal. -/
set_option autoImplicit false

namespace Machine

variable {State Input : Type}

def run (step : State → Input → State) : State → List Input → State
  | state, [] => state
  | state, input :: rest => run step (step state input) rest

/-- `ok` holds of every (state, input) pair that the run goes through. -/
def Along (step : State → Input → State) (ok : State → Input → Prop) :
    State → List Input → Prop
  | _, [] => True
  | state, input :: rest => ok state input ∧ Along step ok (step state input) rest

@[simp] theorem run_nil (step : State → Input → State) (state : State) :
    run step state [] = state := rfl

@[simp] theorem run_cons (step : State → Input → State) (state : State)
    (input : Input) (rest : List Input) :
    run step state (input :: rest) = run step (step state input) rest := rfl

theorem run_append (step : State → Input → State) (first second : List Input) :
    ∀ state, run step state (first ++ second) = run step (run step state first) second := by
  induction first with
  | nil => intro state; rfl
  | cons input rest ih => intro state; exact ih (step state input)

theorem along_left (step : State → Input → State) (ok : State → Input → Prop)
    (first second : List Input) :
    ∀ state, Along step ok state (first ++ second) → Along step ok state first := by
  induction first with
  | nil => intro state _; exact trivial
  | cons input rest ih => intro state along; exact ⟨along.1, ih (step state input) along.2⟩

/-- An invariant preserved by every step that meets the condition holds at
the end of every run whose steps all meet it. -/
theorem run_invariant_along (step : State → Input → State)
    (ok : State → Input → Prop) (Inv : State → Prop)
    (preserved : ∀ state input, Inv state → ok state input → Inv (step state input)) :
    ∀ (inputs : List Input) (state : State), Inv state →
      Along step ok state inputs → Inv (run step state inputs) := by
  intro inputs
  induction inputs with
  | nil => intro state holds _; exact holds
  | cons input rest ih =>
      intro state holds along
      exact ih (step state input) (preserved state input holds along.1) along.2

theorem run_invariant (step : State → Input → State) (Inv : State → Prop)
    (preserved : ∀ state input, Inv state → Inv (step state input))
    (inputs : List Input) : ∀ state, Inv state → Inv (run step state inputs) := by
  induction inputs with
  | nil => intro state holds; exact holds
  | cons input rest ih =>
      intro state holds
      exact ih (step state input) (preserved state input holds)

def Passes (step : State → Input → State) (goal : State → Prop) : State → List Input → Prop
  | state, [] => goal state
  | state, input :: rest => goal state ∨ Passes step goal (step state input) rest

def tally (step : State → Input → State) (counts : State → Input → Bool) :
    State → List Input → Nat
  | _, [] => 0
  | state, input :: rest => (counts state input).toNat + tally step counts (step state input) rest

/-- A rank that no step raises and that falls with each step that counts: a
run with more such steps than the rank passes the goal. -/
theorem passes_of_rank (step : State → Input → State) (ok : State → Input → Prop)
    (counts : State → Input → Bool) (goal : State → Prop) (Ranked : Nat → State → Prop)
    (falls : ∀ rank state input, Ranked rank state → ok state input →
      goal (step state input) ∨ ∃ rank', rank' + (counts state input).toNat ≤ rank ∧
        Ranked rank' (step state input)) :
    ∀ (inputs : List Input) (rank : Nat) (state : State), Ranked rank state →
      Along step ok state inputs → rank < tally step counts state inputs →
      Passes step goal state inputs := by
  intro inputs
  induction inputs with
  | nil =>
      intro rank state _ _ enough
      exact absurd enough (Nat.not_lt_zero rank)
  | cons input rest ih =>
      intro rank state ranked along enough
      refine Or.inr ?_
      rcases falls rank state input ranked along.1 with met | ⟨rank', fallen, ranked'⟩
      · cases rest with
        | nil => exact met
        | cons next rest => exact Or.inl met
      · apply ih rank' (step state input) ranked' along.2
        rw [tally] at enough
        omega

/-- A rank that falls with each step of the run bounds its length. -/
theorem length_add_rank_le (step : State → Input → State) (ok : State → Input → Prop)
    (Inv : State → Prop) (rank : State → Nat)
    (falls : ∀ state input, Inv state → ok state input →
      Inv (step state input) ∧ rank (step state input) < rank state) :
    ∀ (inputs : List Input) (state : State), Inv state → Along step ok state inputs →
      inputs.length + rank (run step state inputs) ≤ rank state := by
  intro inputs
  induction inputs with
  | nil =>
      intro state _ _
      exact Nat.le_of_eq (Nat.zero_add (rank state))
  | cons input rest ih =>
      intro state holds along
      obtain ⟨holds', fallen⟩ := falls state input holds along.1
      have shorter := ih (step state input) holds' along.2
      rw [run_cons, List.length_cons]
      omega

end Machine
