import Mathlib.Data.List.Nodup
import Mathlib.Data.List.Perm.Basic

/-! # Heaps

Cells under distinct addresses.  An address may come back after its cell is
freed.  The operations are described up to the order of the cells. -/
set_option autoImplicit false

structure Heap (Cell : Type) where
  cells : List (Nat × Cell)
  distinct : (cells.map Prod.fst).Nodup

namespace Heap

variable {Cell : Type}

def empty : Heap Cell where
  cells := []
  distinct := List.nodup_nil

def get? (address : Nat) (heap : Heap Cell) : Option Cell := heap.cells.lookup address

def Fresh (address : Nat) (heap : Heap Cell) : Prop := address ∉ heap.cells.map Prod.fst

instance (address : Nat) (heap : Heap Cell) : Decidable (heap.Fresh address) :=
  inferInstanceAs (Decidable (address ∉ heap.cells.map Prod.fst))

/-- A new cell; an address in use is refused. -/
def alloc (address : Nat) (cell : Cell) (heap : Heap Cell) : Heap Cell :=
  if fresh : heap.Fresh address then
    { cells := (address, cell) :: heap.cells
      distinct := List.nodup_cons.mpr ⟨fresh, heap.distinct⟩ }
  else heap

def set (address : Nat) (cell : Cell) (heap : Heap Cell) : Heap Cell where
  cells := heap.cells.map fun entry => if entry.1 = address then (address, cell) else entry
  distinct := by
    have same : (heap.cells.map fun entry =>
        if entry.1 = address then (address, cell) else entry).map Prod.fst =
          heap.cells.map Prod.fst := by
      rw [List.map_map]
      apply List.map_congr_left
      intro entry _
      simp only [Function.comp_apply]
      split
      · next here => exact here.symm
      · rfl
    rw [same]
    exact heap.distinct

def free (address : Nat) (heap : Heap Cell) : Heap Cell where
  cells := heap.cells.filter fun entry => entry.1 != address
  distinct := heap.distinct.sublist (List.filter_sublist.map Prod.fst)

variable {heap : Heap Cell} {address : Nat} {cell : Cell}

@[simp] theorem cells_empty : (empty : Heap Cell).cells = [] := rfl

theorem split_of_mem (member : (address, cell) ∈ heap.cells) :
    ∃ front back, heap.cells = front ++ (address, cell) :: back ∧
      ∀ entry ∈ front ++ back, entry.1 ≠ address := by
  obtain ⟨front, back, split⟩ := List.append_of_mem member
  refine ⟨front, back, split, ?_⟩
  have distinct := heap.distinct
  rw [split, List.map_append, List.map_cons, List.nodup_middle, List.nodup_cons,
    ← List.map_append] at distinct
  intro entry present same
  apply distinct.1
  rw [← same]
  exact List.mem_map.mpr ⟨entry, present, rfl⟩

theorem get?_eq_some_iff : heap.get? address = some cell ↔ (address, cell) ∈ heap.cells := by
  rw [get?, List.lookup_eq_some_iff]
  constructor
  · intro found
    obtain ⟨front, back, split, _⟩ := found
    rw [split]
    exact List.mem_append_right _ List.mem_cons_self
  · intro member
    obtain ⟨front, back, split, others⟩ := split_of_mem member
    refine ⟨front, back, split, ?_⟩
    intro entry present
    apply bne_iff_ne.mpr
    exact (others entry (List.mem_append_left _ present)).symm

theorem perm_free (member : (address, cell) ∈ heap.cells) :
    heap.cells.Perm ((address, cell) :: (heap.free address).cells) := by
  obtain ⟨front, back, split, others⟩ := split_of_mem member
  have rest : (heap.free address).cells = front ++ back := by
    have kept : (front ++ back).filter (fun entry => entry.1 != address) = front ++ back := by
      apply List.filter_eq_self.mpr
      intro entry present
      exact bne_iff_ne.mpr (others entry present)
    have dropped : ((address, cell).1 != address) = false := bne_self_eq_false address
    rw [List.filter_append] at kept
    simp only [free, split, List.filter_append, List.filter_cons, dropped, Bool.false_eq_true,
      if_false, kept]
  rw [rest, split]
  exact List.perm_middle

theorem cells_alloc (fresh : heap.Fresh address) :
    (heap.alloc address cell).cells = (address, cell) :: heap.cells := by
  rw [alloc, dif_pos fresh]

theorem perm_set (cell : Cell) (present : ∃ old, (address, old) ∈ heap.cells) :
    (heap.set address cell).cells.Perm ((address, cell) :: (heap.free address).cells) := by
  obtain ⟨old, member⟩ := present
  have written : (address, cell) ∈ (heap.set address cell).cells :=
    List.mem_map.mpr ⟨(address, old), member, if_pos rfl⟩
  have same : ((heap.set address cell).free address).cells = (heap.free address).cells := by
    change (heap.cells.map _).filter _ = heap.cells.filter _
    rw [List.filter_map]
    have kept : (fun entry : Nat × Cell => entry.1 != address) ∘
        (fun entry => if entry.1 = address then (address, cell) else entry) =
          fun entry => entry.1 != address := by
      funext entry
      simp only [Function.comp_apply]
      split
      · next here => rw [here]
      · rfl
    rw [kept]
    have unchanged : ∀ entry ∈ heap.cells.filter (fun entry => entry.1 != address),
        (if entry.1 = address then (address, cell) else entry) = entry := by
      intro entry member
      have other := (List.mem_filter.mp member).2
      exact if_neg (bne_iff_ne.mp other)
    rw [List.map_congr_left unchanged, List.map_id']
  rw [← same]
  exact perm_free written

end Heap
