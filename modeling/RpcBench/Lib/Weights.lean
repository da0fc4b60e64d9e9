import RpcBench.Lib.Ledger
import Mathlib.Algebra.BigOperators.Ring.List
import Mathlib.Algebra.Order.BigOperators.Group.List
import Mathlib.Algebra.Order.Ring.Nat

/-! # Weights

A rank over many parties is a sum of weights, and a step changes one of them:
the weight of a number that is outstanding in a ledger, or of one party. -/
set_option autoImplicit false

theorem List.sum_map_change {Index : Type} {indices : List Index} (distinct : indices.Nodup)
    {changed : Index} (member : changed ∈ indices) (before after : Index → Nat)
    (same : ∀ index ∈ indices, index ≠ changed → after index = before index) :
    (indices.map after).sum + before changed = (indices.map before).sum + after changed := by
  classical
  have others : (indices.erase changed).map after = (indices.erase changed).map before := by
    apply List.map_congr_left
    intro index present
    have kept := distinct.mem_erase_iff.mp present
    exact same index kept.2 kept.1
  have total := List.sum_map_erase before member
  have total' := List.sum_map_erase after member
  rw [others] at total'
  omega

namespace Ledger

variable {Entry Result : Type}

def weight (weigh : Nat → Nat) (ledger : Ledger Entry Result) : Nat :=
  (ledger.outstanding.map fun entry => weigh entry.1).sum

variable {ledger : Ledger Entry Result} {index number : Nat}

theorem weight_change (member : number ∈ ledger.outstanding.map Prod.fst)
    (before after : Nat → Nat) (same : ∀ other, other ≠ number → after other = before other) :
    ledger.weight after + before number = ledger.weight before + after number := by
  have numbers := (List.nodup_append.mp ledger.numbers_nodup).1
  have changed := List.sum_map_change numbers member before after (by
    intro other _ different
    exact same other different)
  simp only [List.map_map] at changed
  exact changed

theorem weight_issue (weigh : Nat → Nat) (entry : Entry) :
    (ledger.issue entry).weight weigh = ledger.weight weigh + weigh ledger.issued := by
  simp only [weight, issue, List.map_append, List.map_cons, List.map_nil, List.sum_append,
    List.sum_cons, List.sum_nil, Nat.add_zero]

theorem weight_settle (weigh : Nat → Nat) (result : Result)
    (inside : index < ledger.outstanding.length) :
    (ledger.settle index result).weight weigh + weigh ledger.outstanding[index].1 =
      ledger.weight weigh := by
  have split := ((List.getElem_cons_eraseIdx_perm inside).map fun entry =>
    weigh entry.1).sum_eq
  rw [List.map_cons, List.sum_cons] at split
  simp only [weight, settle]
  omega

end Ledger
