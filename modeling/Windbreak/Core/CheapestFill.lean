import Mathlib.Algebra.Order.Ring.Defs
import Mathlib.Algebra.BigOperators.Group.List.Basic
import Mathlib.Tactic.Linarith
import Mathlib.Tactic.Ring

/-!
# Filling an amount at the least cost

Lots are offered at unit prices, each up to its size.  Taking them in turn, each in full until the
amount is met, is the cheapest way to take the amount when the lots stand in the order of their
prices.

* `takes` — what is taken of each lot.
* **`cost_takes_le`** — no admissible choice of the same amount costs less.
-/

namespace CheapestFill

variable {R : Type} [CommRing R] [LinearOrder R] [IsStrictOrderedRing R]

/-- A lot: its unit price and its size. -/
structure Lot (R : Type) where
  price : R
  size : R

/-- What is taken of each lot on the way to an amount. -/
def takes : List (Lot R) → R → List R
  | [], _ => []
  | lot :: lots, amount =>
    min amount lot.size :: takes lots (amount - min amount lot.size)

/-- A choice of an amount of each lot, none beyond its size. -/
def Admits (lots : List (Lot R)) (amounts : List R) : Prop :=
  List.Forall₂ (fun lot amount => 0 ≤ amount ∧ amount ≤ lot.size) lots amounts

/-- What a choice costs. -/
def cost : List (Lot R) → List R → R
  | lot :: lots, amount :: amounts => lot.price * amount + cost lots amounts
  | _, _ => 0

theorem Admits.sum_nonneg {lots : List (Lot R)} {amounts : List R} (h : Admits lots amounts) :
    0 ≤ amounts.sum := by
  induction h with
  | nil => exact le_refl 0
  | cons hfirst _ ih =>
      rw [List.sum_cons]
      exact add_nonneg hfirst.1 ih

/-- Whatever a choice takes beyond an amount costs at least the lowest price. -/
theorem cost_takes_add_le {lots : List (Lot R)} {amounts : List R}
    (hsorted : lots.Pairwise fun a b => a.price ≤ b.price) (h : Admits lots amounts) {floor : R}
    (hfloor : ∀ lot ∈ lots, floor ≤ lot.price) {amount : R} (hnonneg : 0 ≤ amount)
    (hle : amount ≤ amounts.sum) :
    cost lots (takes lots amount) + floor * (amounts.sum - amount) ≤ cost lots amounts := by
  induction h generalizing floor amount with
  | nil =>
      have hzero : amount = 0 := le_antisymm hle hnonneg
      simp [cost, hzero]
  | @cons lot taken lots amounts hfirst hrest ih =>
      obtain ⟨hcheapest, hsorted⟩ := List.pairwise_cons.mp hsorted
      have hothers : 0 ≤ amounts.sum := Admits.sum_nonneg hrest
      rw [List.sum_cons] at hle ⊢
      -- the walk takes at least as much of the first lot as any choice, or all that is asked for
      have hrest_le : amount - min amount lot.size ≤ amounts.sum := by
        rcases min_cases amount lot.size with ⟨hmin, -⟩ | ⟨hmin, -⟩
        · rw [hmin, sub_self]
          exact hothers
        · rw [hmin]
          linarith [hfirst.2]
      have hlater := ih hsorted hcheapest (sub_nonneg.mpr (min_le_left amount lot.size)) hrest_le
      have hbeyond : floor * (taken + amounts.sum - amount) ≤
          lot.price * (taken + amounts.sum - amount) :=
        mul_le_mul_of_nonneg_right (hfloor lot List.mem_cons_self) (sub_nonneg.mpr hle)
      have hsplit : lot.price * (amounts.sum - (amount - min amount lot.size)) =
          lot.price * (taken + amounts.sum - amount) + lot.price * min amount lot.size -
            lot.price * taken := by
        ring
      rw [takes, cost, cost]
      linarith

/-- **The cheapest fill**: taking the lots in the order of their prices costs no more than any choice
of the same amount. -/
theorem cost_takes_le {lots : List (Lot R)} {amounts : List R}
    (hsorted : lots.Pairwise fun a b => a.price ≤ b.price) (h : Admits lots amounts) :
    cost lots (takes lots amounts.sum) ≤ cost lots amounts := by
  cases lots with
  | nil =>
      cases h
      exact le_refl _
  | cons lot lots =>
      have hfloor : ∀ other ∈ lot :: lots, lot.price ≤ other.price := by
        intro other hother
        rcases List.mem_cons.mp hother with rfl | hother
        · exact le_refl _
        · exact (List.pairwise_cons.mp hsorted).1 other hother
      have hbound := cost_takes_add_le hsorted h hfloor h.sum_nonneg (le_refl _)
      rwa [sub_self, mul_zero, add_zero] at hbound

end CheapestFill
