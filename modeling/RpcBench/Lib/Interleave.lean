import Mathlib.Data.List.Basic
import Mathlib.Logic.Function.Basic

/-! # Independent parts in one sequence of events

Parts that share nothing but the order in which their events come.  Each event
names its part; a part that fails ends all of them.  If every part is through
with its own events, then so is any sequence of all, and it leaves each part as
its own events do. -/
set_option autoImplicit false

namespace Interleave

variable {Index State Event Error : Type} [DecidableEq Index]

def own (index : Index) (events : List (Index × Event)) : List Event :=
  events.filterMap fun event => if event.1 = index then some event.2 else none

def step (machine : State → Event → Except Error State) (states : Index → State)
    (event : Index × Event) : Except Error (Index → State) :=
  (machine (states event.1) event.2).map fun next => Function.update states event.1 next

theorem own_cons_self (index : Index) (event : Event) (rest : List (Index × Event)) :
    own index ((index, event) :: rest) = event :: own index rest := by
  simp [own]

theorem own_cons_ne {index other : Index} (different : other ≠ index) (event : Event)
    (rest : List (Index × Event)) : own index ((other, event) :: rest) = own index rest := by
  simp [own, different]

theorem foldlM_step (machine : State → Event → Except Error State)
    (events : List (Index × Event)) :
    ∀ states finals : Index → State,
      (∀ index, (own index events).foldlM machine (states index) = .ok (finals index)) →
      events.foldlM (step machine) states = .ok finals := by
  induction events with
  | nil =>
      intro states finals each
      have same : states = finals := by
        funext index
        exact Except.ok.inj (each index)
      rw [same]
      rfl
  | cons event rest ih =>
      intro states finals each
      obtain ⟨index, event⟩ := event
      have here := each index
      rw [own_cons_self, List.foldlM_cons] at here
      rw [List.foldlM_cons, step]
      cases moved : machine (states index) event with
      | error error =>
          rw [moved] at here
          cases here
      | ok next =>
          rw [moved] at here
          apply ih (Function.update states index next) finals
          intro other
          by_cases same : index = other
          · subst same
            rw [Function.update_self]
            exact here
          · have untouched := each other
            rw [own_cons_ne same] at untouched
            rw [Function.update_of_ne (Ne.symm same)]
            exact untouched

end Interleave
