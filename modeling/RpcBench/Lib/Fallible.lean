import Mathlib.Data.List.Basic

/-! # Computations that may stop

Rules for programs in `Except ε`.  `Sat result Stopped Done` is the
postcondition of a computation: `Done` of its value, `Stopped` of the reason
it stopped for.  `Agree R` relates two computations that either both return
related values or both stop for the same reason. -/
set_option autoImplicit false

namespace Fallible

variable {ε α β γ δ : Type}

def Sat (result : Except ε α) (Stopped : ε → Prop) (Done : α → Prop) : Prop :=
  match result with
  | .ok value => Done value
  | .error reason => Stopped reason

def Agree (R : α → β → Prop) : Except ε α → Except ε β → Prop
  | .ok left, .ok right => R left right
  | .error left, .error right => left = right
  | _, _ => False

theorem ok_bind (value : α) (next : α → Except ε β) :
    ((.ok value : Except ε α) >>= next) = next value := rfl

/-- Nothing is said of the result. -/
theorem Sat.any (result : Except ε α) : Sat result (fun _ => True) fun _ => True := by
  cases result with
  | error reason => exact trivial
  | ok value => exact trivial

theorem Sat.bind {result : Except ε α} {next : α → Except ε β}
    {Stopped : ε → Prop} {Middle : α → Prop} {Done : β → Prop}
    (first : Sat result Stopped Middle)
    (second : ∀ value, Middle value → Sat (next value) Stopped Done) :
    Sat (result >>= next) Stopped Done := by
  cases result with
  | error reason => exact first
  | ok value => exact second value first

theorem Sat.mono {result : Except ε α} {Stopped Stopped' : ε → Prop}
    {Done Done' : α → Prop} (holds : Sat result Stopped Done)
    (stopped : ∀ reason, Stopped reason → Stopped' reason)
    (done : ∀ value, Done value → Done' value) : Sat result Stopped' Done' := by
  cases result with
  | error reason => exact stopped reason holds
  | ok value => exact done value holds

theorem Sat.of_ok {result : Except ε α} {Stopped : ε → Prop} {Done : α → Prop}
    {value : α} (holds : Sat result Stopped Done) (returned : result = .ok value) :
    Done value := by
  rw [returned] at holds
  exact holds

theorem Sat.and {result : Except ε α} {Stopped Stopped' : ε → Prop}
    {Done Done' : α → Prop} (first : Sat result Stopped Done)
    (second : Sat result Stopped' Done') :
    Sat result (fun reason => Stopped reason ∧ Stopped' reason)
      (fun value => Done value ∧ Done' value) := by
  cases result with
  | error reason => exact ⟨first, second⟩
  | ok value => exact ⟨first, second⟩

/-- An invariant that every call keeps holds after a sequence of calls. -/
theorem Sat.foldlM {call : α → β → Except ε α} {Stopped : ε → Prop} {Inv : α → Prop}
    (preserved : ∀ state input, Inv state → Sat (call state input) Stopped Inv)
    (inputs : List β) : ∀ state, Inv state → Sat (inputs.foldlM call state) Stopped Inv := by
  induction inputs with
  | nil => intro state holds; exact holds
  | cons input rest ih =>
      intro state holds
      rw [List.foldlM_cons]
      exact (preserved state input holds).bind ih

theorem Agree.refl (result : Except ε α) : Agree Eq result result := by
  cases result <;> rfl

theorem Agree.bind {R : α → β → Prop} {S : γ → δ → Prop}
    {left : Except ε α} {right : Except ε β}
    {leftNext : α → Except ε γ} {rightNext : β → Except ε δ}
    (first : Agree R left right)
    (second : ∀ a b, R a b → Agree S (leftNext a) (rightNext b)) :
    Agree S (left >>= leftNext) (right >>= rightNext) := by
  cases left with
  | error reason =>
      cases right with
      | error other => exact first
      | ok value => exact False.elim first
  | ok value =>
      cases right with
      | error reason => exact False.elim first
      | ok other => exact second value other first

/-- What is known of the right computation is known of the left one. -/
theorem Agree.sat {R : α → β → Prop} {left : Except ε α} {right : Except ε β}
    {Stopped : ε → Prop} {Done : β → Prop} (related : Agree R left right)
    (holds : Sat right Stopped Done) :
    Sat left Stopped (fun value => ∃ other, R value other ∧ Done other) := by
  cases left with
  | error reason =>
      cases right with
      | error other =>
          obtain rfl : reason = other := related
          exact holds
      | ok other => exact False.elim related
  | ok value =>
      cases right with
      | error reason => exact False.elim related
      | ok other => exact ⟨other, related, holds⟩

/-- A value on the right is matched by a related value on the left. -/
theorem Agree.of_right {R : α → β → Prop} {left : Except ε α} {right : Except ε β}
    {other : β} (related : Agree R left right) (returned : right = .ok other) :
    ∃ value, left = .ok value ∧ R value other := by
  subst returned
  cases left with
  | error reason => exact False.elim related
  | ok value => exact ⟨value, rfl, related⟩

end Fallible
