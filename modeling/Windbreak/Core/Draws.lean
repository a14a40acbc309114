import Mathlib.Algebra.BigOperators.Group.Finset.Basic
import Mathlib.Algebra.BigOperators.Group.Finset.Piecewise
import Mathlib.Algebra.Order.BigOperators.Group.Finset
import Windbreak.Core.Sums

/-!
# Drawing on shared stocks

Drawers take amounts from sources, each only from the sources open to it, and together no more of
a source than it holds.  Whatever group of drawers one looks at, its members can have been given no
more than the sources open to any of them held.

* `Feasible` — who took what of which source.
* **`Feasible.sum_given_le`** — the bound for a group of drawers.
-/

namespace Draws

open Finset Sums

variable {ι κ : Type} {I J : Finset ι} {K L : Finset κ} {mayDraw : ι → κ → Prop} {stock : κ → ℤ}
  {given : ι → ℤ} {draw : ι → κ → ℤ}

/-- Every drawer's amount is drawn from sources open to it, and no source gives more than it
holds. -/
structure Feasible (I : Finset ι) (K : Finset κ) (mayDraw : ι → κ → Prop) (stock : κ → ℤ)
    (given : ι → ℤ) (draw : ι → κ → ℤ) : Prop where
  nonneg : ∀ i k, 0 ≤ draw i k
  mayDraw : ∀ i k, 0 < draw i k → mayDraw i k
  given : ∀ i ∈ I, ∑ k ∈ K, draw i k = given i
  stock : ∀ k ∈ K, ∑ i ∈ I, draw i k ≤ stock k

/-- **A group of drawers** was given no more than the sources open to it held. -/
theorem Feasible.sum_given_le (h : Feasible I K mayDraw stock given draw) (hJ : J ⊆ I)
    (hL : L ⊆ K) (hopen : ∀ i ∈ J, ∀ k ∈ K, mayDraw i k → k ∈ L) :
    ∑ i ∈ J, given i ≤ ∑ k ∈ L, stock k := by
  have hnarrow : ∀ i ∈ J, ∑ k ∈ K, draw i k = ∑ k ∈ L, draw i k := by
    intro i hi
    refine (sum_subset hL fun k hk hclosed => ?_).symm
    by_contra hdrawn
    refine hclosed (hopen i hi k hk (h.mayDraw i k ?_))
    exact lt_of_le_of_ne (h.nonneg i k) (Ne.symm hdrawn)
  calc ∑ i ∈ J, given i = ∑ i ∈ J, ∑ k ∈ L, draw i k :=
        sum_congr rfl fun i hi => (h.given i (hJ hi)).symm.trans (hnarrow i hi)
    _ = ∑ k ∈ L, ∑ i ∈ J, draw i k := sum_comm
    _ ≤ ∑ k ∈ L, ∑ i ∈ I, draw i k :=
        sum_le_sum fun k _ => sum_le_sum_of_subset_of_nonneg hJ fun i _ _ => h.nonneg i k
    _ ≤ ∑ k ∈ L, stock k := sum_le_sum fun k hk => h.stock k (hL hk)

/-! ## Sums by position -/

variable {α : Type} {p : α → Prop} [DecidablePred p] (f : α → ℤ)

/-- What stands at a position of a list, measured. -/
def valueAt (xs : List α) (i : ℕ) : ℤ := ((xs[i]?).map f).getD 0

theorem valueAt_of_some {xs : List α} {i : ℕ} {x : α} (h : xs[i]? = some x) :
    valueAt f xs i = f x := by
  simp [valueAt, h]

theorem valueAt_nonneg (h : ∀ x, 0 ≤ f x) (xs : List α) (i : ℕ) : 0 ≤ valueAt f xs i := by
  unfold valueAt
  cases xs[i]? with
  | none => exact le_refl 0
  | some x => exact h x

/-- The positions of a list at which something holds. -/
def positionsWhere (p : α → Prop) [DecidablePred p] (xs : List α) : Finset ℕ :=
  (range xs.length).filter fun i => (xs[i]?).any fun x => p x

theorem positionsWhere_subset (xs : List α) : positionsWhere p xs ⊆ range xs.length :=
  filter_subset _ _

theorem mem_positionsWhere {xs : List α} {i : ℕ} :
    i ∈ positionsWhere p xs ↔ ∃ x, xs[i]? = some x ∧ p x := by
  simp only [positionsWhere, mem_filter, mem_range, Option.any_eq_true, decide_eq_true_eq]
  constructor
  · rintro ⟨-, x, hx, hp⟩
    exact ⟨x, hx, hp⟩
  · rintro ⟨x, hx, hp⟩
    exact ⟨(List.getElem?_eq_some_iff.mp hx).1, x, hx, hp⟩

/-- The sum over a list is the sum over its positions. -/
theorem sum_valueAt (xs : List α) : ∑ i ∈ range xs.length, valueAt f xs i = (xs.map f).sum := by
  induction xs with
  | nil => rfl
  | cons x rest ih =>
      rw [List.length_cons, sum_range_succ', List.map_cons, List.sum_cons, ← ih, add_comm]
      rfl

/-- A sum over some entries is the sum over their positions. -/
theorem sumWhere_eq_sum_positions (xs : List α) :
    sumWhere p f xs = ∑ i ∈ positionsWhere p xs, valueAt f xs i := by
  rw [positionsWhere, sum_filter, sumWhere, ← sum_valueAt]
  refine sum_congr rfl fun i _ => ?_
  cases h : xs[i]? with
  | none => simp [valueAt, h]
  | some x => simp [valueAt, h]

/-- The sum over positions in any order is the sum over all of them. -/
theorem sum_map_of_perm_range {order : List ℕ} {n : ℕ} (h : order.Perm (List.range n))
    (g : ℕ → ℤ) : (order.map g).sum = ∑ i ∈ range n, g i :=
  (h.map g).sum_eq

end Draws
