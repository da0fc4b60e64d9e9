import Mathlib.Data.List.Induction

/-! # Settings

Each setting writes one cell of a state.  What a list of them leaves behind is
what the last setting of each cell says, so their order does not matter
otherwise. -/
set_option autoImplicit false

namespace Settings

variable {Cell Setting State : Type} [DecidableEq Cell]

/-- Settings of two cells do not disturb each other, the later of one cell counts. -/
structure Cells (cell : Setting → Cell) (set : State → Setting → State) : Prop where
  commutes : ∀ state first second, cell first ≠ cell second →
    set (set state first) second = set (set state second) first
  overrides : ∀ state first second, cell first = cell second →
    set (set state first) second = set state second

def last (cell : Setting → Cell) (which : Cell) (settings : List Setting) : Option Setting :=
  (settings.filter fun setting => cell setting = which).getLast?

variable {cell : Setting → Cell} {set : State → Setting → State}

theorem Cells.absorbs (cells : Cells cell set) {first second : Setting}
    (same : cell first = cell second) (settings : List Setting) :
    ∀ state, set (settings.foldl set (set state first)) second =
      set (settings.foldl set state) second := by
  induction settings with
  | nil =>
      intro state
      exact cells.overrides state first second same
  | cons setting settings ih =>
      intro state
      rw [List.foldl_cons, List.foldl_cons]
      by_cases here : cell first = cell setting
      · rw [cells.overrides state first setting here]
      · rw [cells.commutes state first setting here]
        exact ih (set state setting)

theorem Cells.drops (cells : Cells cell set) (second : Setting) (settings : List Setting) :
    ∀ state, set (settings.foldl set state) second =
      set ((settings.filter fun setting => cell setting ≠ cell second).foldl set state)
        second := by
  induction settings with
  | nil =>
      intro state
      rfl
  | cons setting settings ih =>
      intro state
      rw [List.foldl_cons]
      by_cases here : cell setting = cell second
      · rw [List.filter_cons_of_neg (by simp [here]), ← ih state]
        exact cells.absorbs here settings state
      · rw [List.filter_cons_of_pos (by simp [here]), List.foldl_cons]
        exact ih (set state setting)

omit [DecidableEq Cell] in
theorem Cells.moves (cells : Cells cell set) {setting : Setting} (settings : List Setting) :
    (∀ other ∈ settings, cell other ≠ cell setting) → ∀ state,
      settings.foldl set (set state setting) = set (settings.foldl set state) setting := by
  induction settings with
  | nil =>
      intro _ state
      rfl
  | cons other settings ih =>
      intro others state
      obtain ⟨different, rest⟩ := List.forall_mem_cons.mp others
      rw [List.foldl_cons, List.foldl_cons, cells.commutes state setting other different.symm]
      exact ih rest (set state other)

theorem split_last {which : Cell} {setting : Setting} (settings : List Setting) :
    last cell which settings = some setting → cell setting = which ∧ ∃ before after,
      settings = before ++ setting :: after ∧ ∀ other ∈ after, cell other ≠ which := by
  induction settings with
  | nil =>
      intro found
      cases found
  | cons first settings ih =>
      intro found
      unfold last at found ih
      by_cases rest : settings.filter (fun other => cell other = which) = []
      · have others : ∀ other ∈ settings, cell other ≠ which := by
          intro other member same
          exact List.filter_eq_nil_iff.mp rest other member (decide_eq_true same)
        by_cases here : cell first = which
        · rw [List.filter_cons_of_pos (by simp [here]), rest] at found
          rw [← Option.some.inj found]
          exact ⟨here, [], settings, rfl, others⟩
        · rw [List.filter_cons_of_neg (by simp [here]), rest] at found
          cases found
      · have later : (settings.filter fun other => cell other = which).getLast? =
            some setting := by
          by_cases here : cell first = which
          · rw [List.filter_cons_of_pos (by simp [here]),
              List.getLast?_cons_of_ne_nil rest] at found
            exact found
          · rw [List.filter_cons_of_neg (by simp [here])] at found
            exact found
        obtain ⟨here, before, after, split, others⟩ := ih later
        exact ⟨here, first :: before, after, by rw [split, List.cons_append], others⟩

theorem last_append_of_ne {which : Cell} {setting : Setting} (before after : List Setting)
    (different : cell setting ≠ which) :
    last cell which (before ++ setting :: after) = last cell which (before ++ after) := by
  unfold last
  rw [List.filter_append, List.filter_cons_of_neg (by simp [different]), List.filter_append]

theorem last_concat_of_eq {which : Cell} {setting : Setting} (settings : List Setting)
    (same : cell setting = which) : last cell which (settings ++ [setting]) = some setting := by
  unfold last
  rw [List.filter_append, List.filter_cons_of_pos (by simp [same])]
  exact List.getLast?_concat

theorem last_drop {which dropped : Cell} (settings : List Setting) :
    last cell which (settings.filter fun setting => cell setting ≠ dropped) =
      if which = dropped then none else last cell which settings := by
  unfold last
  rw [List.filter_filter]
  by_cases same : which = dropped
  · rw [if_pos same]
    have empty : (settings.filter fun setting => decide (cell setting = which) &&
        decide (cell setting ≠ dropped)) = [] := by
      apply List.filter_eq_nil_iff.mpr
      intro setting _
      simp [same]
    rw [empty]
    rfl
  · rw [if_neg same]
    congr 1
    apply List.filter_congr
    intro setting _
    by_cases here : cell setting = which
    · simp [here, same]
    · simp [here]

/-- Two lists that agree about the last setting of each cell leave the same state. -/
theorem Cells.foldl_eq (cells : Cells cell set) (size : Nat) :
    ∀ (settings settings' : List Setting) (state : State), settings.length ≤ size →
      (∀ which, last cell which settings = last cell which settings') →
      settings.foldl set state = settings'.foldl set state := by
  induction size with
  | zero =>
      intro settings settings' state short agree
      have empty : settings = [] := List.eq_nil_of_length_eq_zero (by omega)
      subst empty
      cases settings' with
      | nil => rfl
      | cons first rest =>
          have none_left := agree (cell first)
          unfold last at none_left
          rw [List.filter_cons_of_pos (by simp), List.getLast?_cons] at none_left
          cases none_left
  | succ size ih =>
      intro settings settings' state short agree
      rcases List.eq_nil_or_concat settings with empty | ⟨others, setting, split⟩
      · subst empty
        exact ih [] settings' state (Nat.zero_le _) agree
      · rw [List.concat_eq_append] at split
        subst split
        have final := last_concat_of_eq others (rfl : cell setting = cell setting)
        obtain ⟨_, before, after, split', later⟩ :=
          split_last settings' ((agree (cell setting)).symm.trans final)
        rw [List.length_append, List.length_singleton] at short
        have shorter : (others.filter fun other => cell other ≠ cell setting).length ≤ size := by
          have kept := List.length_filter_le (fun other => cell other ≠ cell setting) others
          omega
        have rest := ih (others.filter fun other => cell other ≠ cell setting)
          ((before ++ after).filter fun other => cell other ≠ cell setting) state shorter (by
            intro which
            rw [last_drop, last_drop]
            by_cases same : which = cell setting
            · rw [if_pos same, if_pos same]
            · have agreed := agree which
              rw [split', last_append_of_ne others [] (Ne.symm same),
                last_append_of_ne before after (Ne.symm same), List.append_nil] at agreed
              rw [if_neg same, if_neg same, agreed])
        calc (others ++ [setting]).foldl set state
            = set (others.foldl set state) setting := List.foldl_append
          _ = set ((others.filter fun other => cell other ≠ cell setting).foldl set state)
                setting := cells.drops setting others state
          _ = set (((before ++ after).filter fun other =>
                cell other ≠ cell setting).foldl set state) setting := by rw [rest]
          _ = set ((before ++ after).foldl set state) setting :=
              (cells.drops setting (before ++ after) state).symm
          _ = settings'.foldl set state := by
              rw [split', List.foldl_append, List.foldl_append, List.foldl_cons]
              exact (cells.moves after later (before.foldl set state)).symm

section Read

variable {Value : Type} {which : Cell} {read : State → Option Value} {make : Value → Setting}

theorem foldl_read (own : ∀ setting, cell setting = which → ∃ value, setting = make value)
    (written : ∀ state value, read (set state (make value)) = some value)
    (kept : ∀ state setting, cell setting ≠ which → read (set state setting) = read state)
    {state : State} (empty : read state = none) (settings : List Setting) :
    ∀ value, read (settings.foldl set state) = some value ↔
      last cell which settings = some (make value) := by
  have injective : ∀ value value', make value = make value' → value = value' := by
    intro value value' same
    have twice := written state value
    rw [same, written] at twice
    exact (Option.some.inj twice).symm
  induction settings using List.reverseRecOn with
  | nil =>
      intro value
      rw [List.foldl_nil, empty]
      constructor
      all_goals
        intro found
        cases found
  | append_singleton settings setting ih =>
      intro value
      rw [List.foldl_append, List.foldl_cons, List.foldl_nil]
      by_cases here : cell setting = which
      · obtain ⟨value', same⟩ := own setting here
        rw [last_concat_of_eq settings here, same, written]
        constructor
        · intro found
          rw [Option.some.inj found]
        · intro found
          rw [injective _ _ (Option.some.inj found)]
      · rw [kept _ _ here, last_append_of_ne settings [] here, List.append_nil]
        exact ih value

end Read

end Settings
