import Mathlib.Data.List.Forall2

/-!
# Chains that bind their rows

A log in which every row commits to the state before it is checked row by row: a row is valid at a
state, and moves the state on.  If the state after a row determines both the row and the state
before it, then the last state determines the whole log, which is what a chain of hashes is for.

How far a state determines a row depends on how the row is encoded under the hash.  That part is
left open: `eq_of_tip_eq` compares two logs whose rows are alike in whatever the encoding forgets.
-/

namespace HashChain

universe u v

variable {σ : Type u} {ρ : Type v} (valid : σ → ρ → Prop) (next : σ → ρ → σ)

/-- Every row is valid at the state the rows before it lead to. -/
def Accepted : σ → List ρ → Prop
  | _, [] => True
  | s, row :: rows => valid s row ∧ Accepted (next s row) rows

/-- The state a log leads to. -/
def tip (s : σ) (rows : List ρ) : σ := rows.foldl next s

variable {valid next}

@[simp] theorem tip_nil (s : σ) : tip next s [] = s := rfl

@[simp] theorem tip_cons (s : σ) (row : ρ) (rows : List ρ) :
    tip next s (row :: rows) = tip next (next s row) rows := rfl

/-- A row is accepted behind a log if it is valid where the log leads. -/
theorem accepted_concat {s : σ} {rows : List ρ} {row : ρ} :
    Accepted valid next s (rows ++ [row]) ↔
      Accepted valid next s rows ∧ valid (tip next s rows) row := by
  induction rows generalizing s with
  | nil => exact ⟨fun h => ⟨trivial, h.1⟩, fun h => ⟨h.2, trivial⟩⟩
  | cons first rows ih =>
      rw [List.cons_append, Accepted, Accepted, ih, tip_cons, and_assoc]

theorem tip_concat (s : σ) (rows : List ρ) (row : ρ) :
    tip next s (rows ++ [row]) = next (tip next s rows) row := List.foldl_concat ..

/-- Each row of an accepted log is valid where the rows before it lead. -/
theorem accepted_getElem {s : σ} {rows : List ρ} (h : Accepted valid next s rows) (i : ℕ)
    (hi : i < rows.length) : valid (tip next s (rows.take i)) rows[i] := by
  induction rows generalizing s i with
  | nil => exact absurd hi (Nat.not_lt_zero i)
  | cons row rows ih =>
      obtain ⟨hrow, hrows⟩ := h
      cases i with
      | zero => exact hrow
      | succ i => exact ih hrows i (Nat.lt_of_succ_lt_succ hi)

/-- **Equal tips, equal logs.**  Two accepted logs that lead to the same state hold the same rows
and start in the same state, if on alike rows one step can be undone. -/
theorem eq_of_tip_eq {Comparable : σ → σ → Prop} {Alike : ρ → ρ → Prop}
    (hnext : ∀ {s s' row row'}, Comparable s s' → Alike row row' → valid s row →
      valid s' row' → Comparable (next s row) (next s' row'))
    (hundo : ∀ {s s' row row'}, Comparable s s' → Alike row row' → valid s row →
      valid s' row' → next s row = next s' row' → row = row' ∧ s = s')
    {rows rows' : List ρ} (halike : List.Forall₂ Alike rows rows') {s s' : σ}
    (hs : Comparable s s') (h : Accepted valid next s rows) (h' : Accepted valid next s' rows')
    (htip : tip next s rows = tip next s' rows') : rows = rows' ∧ s = s' := by
  induction halike generalizing s s' with
  | nil => exact ⟨rfl, htip⟩
  | cons hrow _ ih =>
      obtain ⟨hvalid, hrest⟩ := h
      obtain ⟨hvalid', hrest'⟩ := h'
      -- the rows behind agree, and with them the states they start from
      obtain ⟨hrows, hstate⟩ := ih (hnext hs hrow hvalid hvalid') hrest hrest' htip
      obtain ⟨hhead, hstart⟩ := hundo hs hrow hvalid hvalid' hstate
      exact ⟨by rw [hhead, hrows], hstart⟩

end HashChain
