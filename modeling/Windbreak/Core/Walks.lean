import Mathlib.Tactic.TypeStar

/-!
# Walks in a labelled graph

A component that is meant to move through a graph leaves a list of labels behind it, one for each
edge.  The list is a *walk* when each edge starts where the one before it ended.

* **`walk_append`** — a walk splits where its labels do.
* **`Walk.ne_of_unreachable`** — a walk of at least one edge does not end where no edge leads.
-/

namespace Graphs

variable {σ α : Type*}

/-- A walk along `edge`, with the labels it leaves. -/
inductive Walk (edge : σ → α → σ → Prop) : σ → List α → σ → Prop
  | nil (s : σ) : Walk edge s [] s
  | cons {s t u : σ} {x : α} {xs : List α} (hedge : edge s x t) (hrest : Walk edge t xs u) :
      Walk edge s (x :: xs) u

variable {edge : σ → α → σ → Prop}

@[simp] theorem walk_nil {s t : σ} : Walk edge s [] t ↔ t = s := by
  constructor
  · rintro ⟨⟩
    rfl
  · rintro rfl
    exact .nil _

theorem walk_cons {s u : σ} {x : α} {xs : List α} :
    Walk edge s (x :: xs) u ↔ ∃ t, edge s x t ∧ Walk edge t xs u := by
  constructor
  · intro h
    cases h with
    | cons hedge hrest => exact ⟨_, hedge, hrest⟩
  · rintro ⟨t, hedge, hrest⟩
    exact .cons hedge hrest

/-- **A walk splits** where its labels do. -/
theorem walk_append {s u : σ} {xs ys : List α} :
    Walk edge s (xs ++ ys) u ↔ ∃ t, Walk edge s xs t ∧ Walk edge t ys u := by
  induction xs generalizing s with
  | nil => simp
  | cons x xs ih =>
      rw [List.cons_append, walk_cons]
      constructor
      · rintro ⟨t, hedge, hrest⟩
        obtain ⟨v, hxs, hys⟩ := ih.mp hrest
        exact ⟨v, .cons hedge hxs, hys⟩
      · rintro ⟨v, hxs, hys⟩
        obtain ⟨t, hedge, hrest⟩ := walk_cons.mp hxs
        exact ⟨t, hedge, ih.mpr ⟨v, hrest, hys⟩⟩

/-- A walk goes on by one edge. -/
theorem Walk.snoc {s t u : σ} {x : α} {xs : List α} (h : Walk edge s xs t) (hedge : edge t x u) :
    Walk edge s (xs ++ [x]) u :=
  walk_append.mpr ⟨t, h, .cons hedge (.nil u)⟩

/-- A walk of at least one edge does not end where no edge leads. -/
theorem Walk.ne_of_unreachable {a : σ} (hin : ∀ s x, ¬ edge s x a) {s u : σ} {xs : List α}
    (h : Walk edge s xs u) (hne : xs ≠ []) : u ≠ a := by
  induction h with
  | nil s => exact absurd rfl hne
  | @cons s t u x xs hedge hrest ih =>
      cases xs with
      | nil =>
          rintro rfl
          rw [walk_nil.mp hrest] at hin
          exact hin s x hedge
      | cons y ys => exact ih (by simp)

end Graphs
