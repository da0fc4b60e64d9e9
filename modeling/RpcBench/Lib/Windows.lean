import Mathlib.Algebra.BigOperators.Group.List.Basic
import Mathlib.Data.List.Induction

/-! # A log cut at its marks

Entries come one after another, and some of them carry a mark.  `cut` is the
windows, each of them closed by the mark of its last entry, and the entries
since the last mark. -/
set_option autoImplicit false

namespace Windows

variable {Entry Mark : Type}

def place (windows : List (List Entry × Mark) × List Entry) (entry : Entry × Option Mark) :
    List (List Entry × Mark) × List Entry :=
  match entry.2 with
  | some mark => (windows.1 ++ [(windows.2 ++ [entry.1], mark)], [])
  | none => (windows.1, windows.2 ++ [entry.1])

def cut (log : List (Entry × Option Mark)) : List (List Entry × Mark) × List Entry :=
  log.foldl place ([], [])

theorem cut_concat (log : List (Entry × Option Mark)) (entry : Entry × Option Mark) :
    cut (log ++ [entry]) = place (cut log) entry := by
  rw [cut, List.foldl_append]
  rfl

@[simp] theorem cut_concat_none (log : List (Entry × Option Mark)) (entry : Entry) :
    cut (log ++ [(entry, none)]) = ((cut log).1, (cut log).2 ++ [entry]) :=
  cut_concat log (entry, none)

@[simp] theorem cut_concat_some (log : List (Entry × Option Mark)) (entry : Entry)
    (mark : Mark) :
    cut (log ++ [(entry, some mark)]) =
      ((cut log).1 ++ [((cut log).2 ++ [entry], mark)], []) :=
  cut_concat log (entry, some mark)

theorem flatten_cut (log : List (Entry × Option Mark)) :
    ((cut log).1.map Prod.fst).flatten ++ (cut log).2 = log.map Prod.fst := by
  induction log using List.reverseRecOn with
  | nil => rfl
  | append_singleton log entry ih =>
      obtain ⟨entry, mark⟩ := entry
      rw [List.map_append, ← ih]
      cases mark with
      | none => rw [cut_concat_none, List.append_assoc]; rfl
      | some mark => simp

/-- A weight of the entries adds up to that of the windows and that of the rest. -/
theorem sum_cut {Weight : Type} [AddCommMonoid Weight] (weight : Entry → Weight)
    (log : List (Entry × Option Mark)) :
    ((cut log).1.map fun window => (window.1.map weight).sum).sum +
      ((cut log).2.map weight).sum = ((log.map Prod.fst).map weight).sum := by
  rw [← flatten_cut log, List.map_append, List.sum_append, List.map_flatten, List.sum_flatten,
    List.map_map, List.map_map]
  rfl

/-- Adjacent windows of at least a certain length end at least so far apart. -/
theorem apart_of_adjacent {Window : Type} (since now : Window → Int) {gap : Int}
    (nonneg : 0 ≤ gap) (last : Int) : ∀ (windows : List Window) (first : Int),
      windows.map since ++ [last] = first :: windows.map now →
      (∀ window ∈ windows, gap ≤ now window - since window) →
      (∀ window ∈ windows, first + gap ≤ now window) ∧
        windows.Pairwise fun window later => gap ≤ now later - now window := by
  intro windows
  induction windows with
  | nil =>
      intro first _ _
      refine ⟨?_, List.Pairwise.nil⟩
      intro window member
      cases member
  | cons window rest ih =>
      intro first adjacent long
      rw [List.map_cons, List.cons_append, List.cons.injEq] at adjacent
      obtain ⟨begins, adjacent⟩ := adjacent
      have own := long window List.mem_cons_self
      obtain ⟨later, apart⟩ := ih (now window) adjacent
        fun window member => long window (List.mem_cons_of_mem _ member)
      constructor
      · intro other member
        rcases List.mem_cons.mp member with same | member
        · rw [same]
          omega
        · have := later other member
          omega
      · refine List.Pairwise.cons ?_ apart
        intro other member
        have := later other member
        omega

end Windows
