import Mathlib.Data.List.Perm.Basic
import Mathlib.Data.List.Range

/-! # Ledgers

Things are issued, numbered as they come, and settled later in any order.  The
numbers that are outstanding and those that are settled are, together, the
numbers issued so far, each of them once. -/
set_option autoImplicit false

structure Ledger (Entry Result : Type) where
  issued : Nat
  outstanding : List (Nat × Entry)
  settled : List (Nat × Result)
  balanced :
    (outstanding.map Prod.fst ++ settled.map Prod.fst).Perm (List.range issued)

namespace Ledger

variable {Entry Result : Type}

def empty : Ledger Entry Result where
  issued := 0
  outstanding := []
  settled := []
  balanced := List.Perm.nil

def issue (entry : Entry) (ledger : Ledger Entry Result) : Ledger Entry Result where
  issued := ledger.issued + 1
  outstanding := ledger.outstanding ++ [(ledger.issued, entry)]
  settled := ledger.settled
  balanced := by
    have moved : (ledger.outstanding.map Prod.fst ++ [ledger.issued] ++
          ledger.settled.map Prod.fst).Perm
        (ledger.outstanding.map Prod.fst ++ ledger.settled.map Prod.fst ++ [ledger.issued]) := by
      rw [List.append_assoc, List.append_assoc]
      exact List.Perm.append_left _ List.perm_append_comm
    rw [List.map_append, List.range_succ]
    exact moved.trans (List.Perm.append_right _ ledger.balanced)

def settle (index : Nat) (result : Result) (ledger : Ledger Entry Result) :
    Ledger Entry Result where
  issued := ledger.issued
  outstanding := ledger.outstanding.eraseIdx index
  settled := ledger.settled ++
    (ledger.outstanding[index]?.map fun entry => (entry.1, result)).toList
  balanced := by
    by_cases inside : index < ledger.outstanding.length
    · have split := (List.getElem_cons_eraseIdx_perm inside).map Prod.fst
      rw [List.map_cons] at split
      rw [List.getElem?_eq_getElem inside, Option.map_some, Option.toList_some, List.map_append,
        ← List.append_assoc]
      have moved : ((ledger.outstanding.eraseIdx index).map Prod.fst ++
            ledger.settled.map Prod.fst ++ [ledger.outstanding[index].1]).Perm
          (ledger.outstanding[index].1 :: (ledger.outstanding.eraseIdx index).map Prod.fst ++
            ledger.settled.map Prod.fst) := List.perm_append_comm
      exact (moved.trans (split.append_right _)).trans ledger.balanced
    · rw [List.getElem?_eq_none (Nat.le_of_not_lt inside),
        List.eraseIdx_of_length_le (Nat.le_of_not_lt inside), Option.map_none, Option.toList_none,
        List.append_nil]
      exact ledger.balanced

variable {entry : Entry} {result : Result} {ledger : Ledger Entry Result} {index : Nat}

@[simp] theorem issued_empty : (empty : Ledger Entry Result).issued = 0 := rfl

@[simp] theorem outstanding_empty : (empty : Ledger Entry Result).outstanding = [] := rfl

@[simp] theorem settled_empty : (empty : Ledger Entry Result).settled = [] := rfl

@[simp] theorem issued_issue : (ledger.issue entry).issued = ledger.issued + 1 := rfl

@[simp] theorem settled_issue : (ledger.issue entry).settled = ledger.settled := rfl

@[simp] theorem issued_settle : (ledger.settle index result).issued = ledger.issued := rfl

@[simp] theorem length_outstanding_issue (ledger : Ledger Entry Result) (entry : Entry) :
    (ledger.issue entry).outstanding.length = ledger.outstanding.length + 1 := by
  simp only [issue, List.length_append, List.length_singleton]

theorem length_outstanding_settle (result : Result)
    (inside : index < ledger.outstanding.length) :
    (ledger.settle index result).outstanding.length + 1 = ledger.outstanding.length := by
  have nonempty : 0 < ledger.outstanding.length := Nat.zero_lt_of_lt inside
  simp only [settle, List.length_eraseIdx_of_lt inside]
  omega

theorem settled_settle (inside : index < ledger.outstanding.length) :
    (ledger.settle index result).settled =
      ledger.settled ++ [(ledger.outstanding[index].1, result)] := by
  simp only [settle, List.getElem?_eq_getElem inside, Option.map_some, Option.toList_some]

/-- Nothing is lost, nothing is counted twice. -/
theorem length_add_length (ledger : Ledger Entry Result) :
    ledger.outstanding.length + ledger.settled.length = ledger.issued := by
  have lengths := ledger.balanced.length_eq
  rw [List.length_append, List.length_map, List.length_map, List.length_range] at lengths
  exact lengths

/-- When nothing is outstanding, what was issued is what was settled. -/
theorem settled_perm (ledger : Ledger Entry Result) (none_left : ledger.outstanding = []) :
    (ledger.settled.map Prod.fst).Perm (List.range ledger.issued) := by
  have balanced := ledger.balanced
  rw [none_left, List.map_nil, List.nil_append] at balanced
  exact balanced

theorem numbers_nodup (ledger : Ledger Entry Result) :
    (ledger.outstanding.map Prod.fst ++ ledger.settled.map Prod.fst).Nodup :=
  ledger.balanced.nodup_iff.mpr List.nodup_range

theorem lt_of_outstanding {number : Nat} (member : (number, entry) ∈ ledger.outstanding) :
    number < ledger.issued := by
  apply List.mem_range.mp
  apply ledger.balanced.mem_iff.mp
  exact List.mem_append_left _ (List.mem_map_of_mem member)

theorem not_outstanding_of_settled {number : Nat} (gone : (number, result) ∈ ledger.settled) :
    (number, entry) ∉ ledger.outstanding := by
  intro held
  have disjoint := (List.nodup_append.mp ledger.numbers_nodup).2.2
  exact disjoint number (List.mem_map_of_mem held) number (List.mem_map_of_mem gone) rfl

end Ledger
