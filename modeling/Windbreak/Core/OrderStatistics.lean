import Mathlib.Data.List.Sort
import Mathlib.Order.Defs.LinearOrder

/-!
# What ranking keeps

A list in ascending order is read by rank: the smallest, the middle, the largest.  The rank list
depends only on which elements there are, follows the elements up when they grow, and is turned
around when they are reflected.

* `ranked` — the list in ascending order.
* **`ranked_mono`**, `ranked_eq_of_perm`, **`ranked_reflected`** — the three facts.
-/

namespace OrderStatistics

variable {α : Type*} [LinearOrder α]

/-- A list in ascending order. -/
def ranked (xs : List α) : List α := xs.insertionSort (· ≤ ·)

theorem pairwise_ranked (xs : List α) : (ranked xs).Pairwise (· ≤ ·) :=
  List.pairwise_insertionSort _ xs

theorem perm_ranked (xs : List α) : (ranked xs).Perm xs := List.perm_insertionSort _ xs

@[simp] theorem length_ranked (xs : List α) : (ranked xs).length = xs.length :=
  (perm_ranked xs).length_eq

theorem mem_ranked {x : α} {xs : List α} : x ∈ ranked xs ↔ x ∈ xs := (perm_ranked xs).mem_iff

theorem ranked_eq_of_perm {xs ys : List α} (h : xs.Perm ys) : ranked xs = ranked ys :=
  ((perm_ranked xs).trans (h.trans (perm_ranked ys).symm)).eq_of_pairwise' (pairwise_ranked xs)
    (pairwise_ranked ys)

/-- Inserting below everything puts at the front. -/
theorem orderedInsert_of_le {x : α} {xs : List α} (h : ∀ y ∈ xs, x ≤ y) :
    xs.orderedInsert (· ≤ ·) x = x :: xs := by
  cases xs with
  | nil => rfl
  | cons y xs => exact List.orderedInsert_cons_of_le _ xs (h y (.head _))

theorem orderedInsert_mono {xs ys : List α} (h : List.Forall₂ (· ≤ ·) xs ys)
    (hxs : xs.Pairwise (· ≤ ·)) (hys : ys.Pairwise (· ≤ ·)) {a b : α} (hab : a ≤ b) :
    List.Forall₂ (· ≤ ·) (xs.orderedInsert (· ≤ ·) a) (ys.orderedInsert (· ≤ ·) b) := by
  induction h generalizing a b with
  | nil => exact .cons hab .nil
  | @cons x y xs ys hxy hrest ih =>
      rw [List.pairwise_cons] at hxs hys
      by_cases hax : a ≤ x
      · rw [List.orderedInsert_cons_of_le _ xs hax]
        by_cases hby : b ≤ y
        · rw [List.orderedInsert_cons_of_le _ ys hby]
          exact .cons hab (.cons hxy hrest)
        · rw [List.orderedInsert_of_not_le _ ys hby]
          -- the first list moves its own front down one rank
          have hdown := ih hxs.2 hys.2 (hxy.trans (le_of_not_ge hby))
          rw [orderedInsert_of_le hxs.1] at hdown
          exact .cons (hax.trans hxy) hdown
      · rw [List.orderedInsert_of_not_le _ xs hax]
        by_cases hby : b ≤ y
        · rw [List.orderedInsert_cons_of_le _ ys hby]
          have hdown := ih hxs.2 hys.2 (hab.trans hby)
          rw [orderedInsert_of_le hys.1] at hdown
          exact .cons ((le_of_not_ge hax).trans hab) hdown
        · rw [List.orderedInsert_of_not_le _ ys hby]
          exact .cons hxy (ih hxs.2 hys.2 hab)

/-- **Every rank follows the elements up.** -/
theorem ranked_mono {xs ys : List α} (h : List.Forall₂ (· ≤ ·) xs ys) :
    List.Forall₂ (· ≤ ·) (ranked xs) (ranked ys) := by
  induction h with
  | nil => exact .nil
  | @cons x y xs ys hxy _ ih =>
      exact orderedInsert_mono ih (pairwise_ranked xs) (pairwise_ranked ys) hxy

/-- **Reflecting the elements turns the ranks around.** -/
theorem ranked_reflected {f : α → α} (hf : Antitone f) (xs : List α) :
    ranked (xs.map f) = (ranked xs).reverse.map f := by
  have hperm : (ranked (xs.map f)).Perm ((ranked xs).reverse.map f) := by
    refine (perm_ranked _).trans (List.Perm.map f ?_)
    exact ((List.reverse_perm _).trans (perm_ranked xs)).symm
  refine hperm.eq_of_pairwise' (pairwise_ranked _) ?_
  rw [List.pairwise_map, List.pairwise_reverse]
  exact (pairwise_ranked xs).imp fun hle => hf hle

end OrderStatistics

/-! ## The first best of a list

`best` goes through a list and changes its mind only for something strictly better, so that of
equals the first is taken.  Where no two have the same rank the order of the list does not show.
-/

namespace Extremes

variable {α β : Type}

/-- The first of a list that nothing in it betters. -/
def best (better : α → α → Bool) : α → List α → α
  | current, [] => current
  | current, next :: rest => best better (if better next current then next else current) rest

theorem best_mem (better : α → α → Bool) (current : α) (rest : List α) :
    best better current rest ∈ current :: rest := by
  induction rest generalizing current with
  | nil => exact List.mem_cons_self
  | cons next rest ih =>
      rw [best]
      split_ifs
      · exact List.mem_cons_of_mem _ (ih next)
      · rcases List.mem_cons.mp (ih current) with heq | hin
        · rw [heq]
          exact List.mem_cons_self
        · exact List.mem_cons_of_mem _ (List.mem_cons_of_mem _ hin)

/-- **Nothing betters the best**, by a comparison of ranks. -/
theorem rank_le_best [LinearOrder β] (better : α → α → Bool) (rank : α → β)
    (hbetter : ∀ a b, better a b = true ↔ rank b < rank a) (current : α) (rest : List α) :
    ∀ a ∈ current :: rest, rank a ≤ rank (best better current rest) := by
  induction rest generalizing current with
  | nil =>
      intro a ha
      rw [List.mem_singleton.mp ha]
      exact le_refl _
  | cons next rest ih =>
      intro a ha
      rw [best]
      split_ifs with hnext
      · have hlt := (hbetter next current).mp hnext
        rcases List.mem_cons.mp ha with rfl | hin
        · exact hlt.le.trans (ih next next List.mem_cons_self)
        · exact ih next a hin
      · have hle : rank next ≤ rank current :=
          le_of_not_gt fun hlt => hnext ((hbetter next current).mpr hlt)
        rcases List.mem_cons.mp ha with rfl | hin
        · exact ih a a List.mem_cons_self
        · rcases List.mem_cons.mp hin with rfl | hin
          · exact hle.trans (ih current current List.mem_cons_self)
          · exact ih current a (List.mem_cons_of_mem _ hin)

end Extremes
