import Mathlib.Algebra.BigOperators.Group.List.Basic
import Mathlib.Algebra.Order.Ring.Int
import Mathlib.Data.List.TakeWhile

/-!
# Evicting to a cap

Elements are dropped in order until what is left is worth at most a cap; some are kept whatever
they are worth.

* `evict` — the elements that are dropped.
* **`evict_shortest`** — they are the shortest run of the elements that may be dropped that brings
  the rest under the cap, or all of them.
-/

namespace Eviction

variable {α : Type*} (size : α → ℤ) (cap : ℤ) (kept : α → Bool)

/-- The elements that are dropped, in order, from a list that is worth `total` altogether. -/
def evict : ℤ → List α → List α
  | _, [] => []
  | total, x :: xs =>
    if total ≤ cap then []
    else if kept x then evict total xs
    else x :: evict (total - size x) xs

/-- The elements that may be dropped. -/
def droppable (xs : List α) : List α := xs.filter fun x => !kept x

/-- What is left after dropping a run of the elements that may be dropped. -/
def left (total : ℤ) (xs : List α) (k : ℕ) : ℤ :=
  total - (((droppable kept xs).take k).map size).sum

/-- **The shortest run**: every shorter one leaves more than the cap, and this one does not, unless
it drops all there is to drop. -/
structure Shortest (total : ℤ) (xs : List α) (k : ℕ) : Prop where
  shorter : ∀ j < k, cap < left size kept total xs j
  enough : left size kept total xs k ≤ cap ∨ k = (droppable kept xs).length

variable {size cap kept}

@[simp] theorem left_zero (total : ℤ) (xs : List α) : left size kept total xs 0 = total := by
  rw [left, List.take_zero, List.map_nil, List.sum_nil, sub_zero]

theorem droppable_cons_of_kept {x : α} (hx : kept x = true) (xs : List α) :
    droppable kept (x :: xs) = droppable kept xs :=
  List.filter_cons_of_neg (by rw [hx]; exact Bool.false_ne_true)

theorem droppable_cons {x : α} (hx : ¬kept x = true) (xs : List α) :
    droppable kept (x :: xs) = x :: droppable kept xs :=
  List.filter_cons_of_pos (by rw [Bool.not_eq_true] at hx; rw [hx]; rfl)

theorem left_cons {x : α} (hx : ¬kept x = true) (total : ℤ) (xs : List α) (k : ℕ) :
    left size kept total (x :: xs) (k + 1) = left size kept (total - size x) xs k := by
  rw [left, left, droppable_cons hx, List.take_succ_cons, List.map_cons, List.sum_cons, sub_sub]

variable (size cap kept) in
/-- **What is dropped** is a run of the elements that may be dropped, and the shortest that brings
the rest under the cap. -/
theorem evict_shortest (total : ℤ) (xs : List α) :
    ∃ k ≤ (droppable kept xs).length, evict size cap kept total xs = (droppable kept xs).take k ∧
      Shortest size cap kept total xs k := by
  induction xs generalizing total with
  | nil => exact ⟨0, le_rfl, rfl, fun j hj => absurd hj (Nat.not_lt_zero j), Or.inr rfl⟩
  | cons x xs ih =>
      by_cases hfits : total ≤ cap
      · refine ⟨0, Nat.zero_le _, ?_, fun j hj => absurd hj (Nat.not_lt_zero j), Or.inl ?_⟩
        · rw [evict, if_pos hfits, List.take_zero]
        · rw [left_zero]
          exact hfits
      · by_cases hx : kept x = true
        · obtain ⟨k, hk, hevict, hshortest⟩ := ih total
          have hsame := droppable_cons_of_kept hx xs
          have hleft : ∀ j, left size kept total (x :: xs) j = left size kept total xs j := by
            intro j
            rw [left, left, hsame]
          refine ⟨k, by rwa [hsame], by rw [evict, if_neg hfits, if_pos hx, hsame, hevict], ?_, ?_⟩
          · intro j hj
            rw [hleft]
            exact hshortest.shorter j hj
          · rw [hleft, hsame]
            exact hshortest.enough
        · obtain ⟨k, hk, hevict, hshortest⟩ := ih (total - size x)
          have hcons := droppable_cons hx xs
          refine ⟨k + 1, ?_, ?_, ?_, ?_⟩
          · rw [hcons, List.length_cons]
            exact Nat.succ_le_succ hk
          · rw [evict, if_neg hfits, if_neg hx, hcons, List.take_succ_cons, hevict]
          · intro j hj
            cases j with
            | zero =>
                rw [left_zero]
                exact not_le.mp hfits
            | succ j =>
                rw [left_cons hx]
                exact hshortest.shorter j (Nat.lt_of_succ_lt_succ hj)
          · rw [left_cons hx, hcons, List.length_cons, Nat.succ_inj]
            exact hshortest.enough

/-- Only the elements of the list are asked whether they are kept. -/
theorem evict_congr {kept kept' : α → Bool} {xs : List α} (h : ∀ x ∈ xs, kept x = kept' x)
    (total : ℤ) : evict size cap kept total xs = evict size cap kept' total xs := by
  induction xs generalizing total with
  | nil => rfl
  | cons x xs ih =>
      have hrest := fun y hy => h y (List.mem_cons_of_mem _ hy)
      rw [evict, evict, h x (List.mem_cons_self ..), ih hrest, ih hrest]

/-- What remains and what was dropped are all there was. -/
theorem sum_remaining [DecidableEq α] {xs dropped : List α} (hnodup : xs.Nodup)
    (hdropped : dropped.Nodup) (hsubset : ∀ x ∈ dropped, x ∈ xs) :
    ((xs.filter fun x => x ∉ dropped).map size).sum =
      (xs.map size).sum - (dropped.map size).sum := by
  have hout : (xs.filter fun x => x ∈ dropped).Perm dropped := by
    refine (List.perm_ext_iff_of_nodup (hnodup.filter _) hdropped).mpr fun x => ?_
    rw [List.mem_filter, decide_eq_true_iff]
    exact ⟨And.right, fun hx => ⟨hsubset x hx, hx⟩⟩
  have hsplit := List.filter_append_perm (fun x => decide (x ∈ dropped)) xs
  have hsum := (hsplit.map size).sum_eq
  rw [List.map_append, List.sum_append, (hout.map size).sum_eq] at hsum
  have hnot : (xs.filter fun x => x ∉ dropped) = xs.filter fun x => !decide (x ∈ dropped) :=
    List.filter_congr fun x _ => decide_not
  rw [hnot, ← hsum]
  exact (add_sub_cancel_left _ _).symm

end Eviction
