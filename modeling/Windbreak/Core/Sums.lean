import Mathlib.Algebra.BigOperators.Group.List.Basic
import Mathlib.Algebra.Order.BigOperators.Group.List
import Mathlib.Algebra.Order.Ring.Int
import Mathlib.Algebra.Ring.Int.Defs
import Mathlib.Data.List.Basic
import Mathlib.Data.List.MinMax

/-!
# Sums over the entries of a log

Books are kept by adding an amount over those entries of a log that carry a given key.
`sumWhere p f xs` is that sum, and the lemmas say how it moves as the log grows, as entries are
rewritten, and as one entry alone makes the difference.
-/

namespace Sums

variable {α β : Type} {p : α → Prop} [DecidablePred p] {f g : α → ℤ} {xs : List α}

/-- The sum of `f` over the entries of which `p` holds. -/
def sumWhere (p : α → Prop) [DecidablePred p] (f : α → ℤ) (xs : List α) : ℤ :=
  (xs.map fun a => if p a then f a else 0).sum

@[simp] theorem sumWhere_nil : sumWhere p f [] = 0 := rfl

@[simp] theorem sumWhere_cons (a : α) :
    sumWhere p f (a :: xs) = (if p a then f a else 0) + sumWhere p f xs := by
  simp [sumWhere]

theorem sumWhere_append (ys : List α) :
    sumWhere p f (xs ++ ys) = sumWhere p f xs + sumWhere p f ys := by
  simp [sumWhere]

theorem sumWhere_singleton (a : α) : sumWhere p f [a] = if p a then f a else 0 := by
  simp [sumWhere]

theorem sumWhere_eq_zero (h : ∀ a ∈ xs, ¬ p a) : sumWhere p f xs = 0 := by
  induction xs with
  | nil => rfl
  | cons a rest ih =>
      rw [sumWhere_cons, if_neg (h a (.head _)), ih fun b hb => h b (.tail _ hb), Int.add_zero]

theorem sumWhere_le (h : ∀ a ∈ xs, p a → f a ≤ g a) : sumWhere p f xs ≤ sumWhere p g xs := by
  refine List.sum_le_sum fun a ha => ?_
  split
  · exact h a ha ‹_›
  · exact le_refl 0

theorem sumWhere_nonneg (h : ∀ a ∈ xs, p a → 0 ≤ f a) : 0 ≤ sumWhere p f xs := by
  refine List.sum_nonneg fun x hx => ?_
  obtain ⟨a, ha, rfl⟩ := List.mem_map.mp hx
  split
  · exact h a ha ‹_›
  · exact le_refl 0

/-- A sum of amounts none of which is negative is positive exactly when one of them is. -/
theorem sumWhere_pos_iff (h : ∀ a, 0 ≤ f a) : 0 < sumWhere p f xs ↔ ∃ a ∈ xs, p a ∧ 0 < f a := by
  induction xs with
  | nil => simp
  | cons a rest ih =>
      have hhead := h a
      have hrest : 0 ≤ sumWhere p f rest := sumWhere_nonneg fun b _ _ => h b
      rw [sumWhere_cons, List.exists_mem_cons_iff, ← ih]
      split_ifs with hp
      · simp only [hp, true_and]
        omega
      · simp only [hp, false_and, false_or]
        omega

theorem sumWhere_add :
    sumWhere p (fun a => f a + g a) xs = sumWhere p f xs + sumWhere p g xs := by
  induction xs with
  | nil => rfl
  | cons a rest ih =>
      simp only [sumWhere_cons]
      rw [ih]
      split <;> omega

/-- Rewriting entries without touching what `p` looks at. -/
theorem sumWhere_map {u : α → α} (hu : ∀ a, p (u a) ↔ p a) :
    sumWhere p f (xs.map u) = sumWhere p (fun a => f (u a)) xs := by
  simp [sumWhere, Function.comp_def, hu]

/-- One entry makes the difference. -/
theorem sumWhere_add_le {a : α} (ha : a ∈ xs) (hp : p a) (hle : ∀ b ∈ xs, f b ≤ g b) {d : ℤ}
    (hd : f a + d ≤ g a) : sumWhere p f xs + d ≤ sumWhere p g xs := by
  induction xs with
  | nil => exact absurd ha List.not_mem_nil
  | cons b rest ih =>
      have hhead := hle b (.head _)
      have hrest : ∀ c ∈ rest, f c ≤ g c := fun c hc => hle c (.tail _ hc)
      simp only [sumWhere_cons]
      rcases List.mem_cons.mp ha with rfl | hmem
      · have htail : sumWhere p f rest ≤ sumWhere p g rest :=
          sumWhere_le fun c hc _ => hrest c hc
        rw [if_pos hp, if_pos hp]
        omega
      · have htail := ih hmem hrest
        split <;> omega

/-- Entries kept under some of the keys, each at no more than before, come to no more. -/
theorem sum_le_of_keys_sublist {κ : Type} (key : α → κ) {ys : List α}
    (hkeys : (ys.map key).Sublist (xs.map key)) (hnonneg : ∀ a ∈ xs, 0 ≤ f a)
    (hle : ∀ b ∈ ys, ∀ a ∈ xs, key b = key a → f b ≤ f a) : (ys.map f).sum ≤ (xs.map f).sum := by
  induction xs generalizing ys with
  | nil =>
      rw [List.map_eq_nil_iff.mp (List.sublist_nil.mp hkeys)]
  | cons a rest ih =>
      have hhead := hnonneg a (.head _)
      have hrest : ∀ c ∈ rest, 0 ≤ f c := fun c hc => hnonneg c (.tail _ hc)
      rw [List.map_cons, List.sum_cons]
      rcases List.sublist_cons_iff.mp hkeys with hdropped | ⟨keys, hkept, hsub⟩
      · have htail := ih hdropped hrest fun b hb c hc => hle b hb c (.tail _ hc)
        omega
      · obtain ⟨b, more, rfl, hkey, rfl⟩ := List.map_eq_cons_iff.mp hkept
        have htail := ih hsub hrest fun c hc d hd => hle c (.tail _ hc) d (.tail _ hd)
        have hfirst := hle b (.head _) a (.head _) hkey
        rw [List.map_cons, List.sum_cons]
        omega

end Sums

/-! ## Reading the end of a log

A reader that walks a log from its newest entry and stops early reads the entries that meet a
condition only if the condition, once met, is met by everything appended later.  A fold that walks
to the end may walk either way where its steps commute.
-/

namespace BoundedWalks

variable {α : Type*} {σ : Type*}

/-- A walk that stops reads exactly the entries that meet its condition, where a later entry meets
it whenever an earlier one does. -/
theorem takeWhile_reverse {p : α → Bool} {xs : List α}
    (h : xs.Pairwise fun earlier later => p earlier = true → p later = true) :
    xs.reverse.takeWhile p = xs.reverse.filter p := by
  induction xs using List.reverseRecOn with
  | nil => rfl
  | append_singleton xs x ih =>
    obtain ⟨hxs, -, hlast⟩ := List.pairwise_append.mp h
    rw [List.reverse_append, List.reverse_singleton, List.singleton_append]
    by_cases hx : p x = true
    · rw [List.takeWhile_cons_of_pos hx, List.filter_cons_of_pos hx, ih hxs]
    · -- nothing before `x` meets the condition either
      have hnone : ∀ y ∈ xs.reverse, ¬ p y = true := fun y hy hp =>
        hx (hlast y (List.mem_reverse.mp hy) x (List.mem_singleton.mpr rfl) hp)
      rw [List.takeWhile_cons_of_neg hx, List.filter_cons_of_neg hx,
        List.filter_eq_nil_iff.mpr hnone]

/-- Where two steps may be exchanged, a fold does not depend on the order of its entries. -/
theorem foldlM_perm {m : Type _ → Type _} [Monad m] [LawfulMonad m] {σ : Type _}
    {step : σ → α → m σ}
    (hcomm : ∀ s a b, (step s a >>= fun t => step t b) = (step s b >>= fun t => step t a))
    {xs ys : List α} (h : xs.Perm ys) (s : σ) : xs.foldlM step s = ys.foldlM step s := by
  induction h generalizing s with
  | nil => rfl
  | cons x _ ih =>
    rw [List.foldlM_cons, List.foldlM_cons]
    exact bind_congr fun t => ih t
  | swap x y xs =>
    simp only [List.foldlM_cons]
    rw [← bind_assoc, ← bind_assoc, hcomm]
  | trans _ _ ih₁ ih₂ => rw [ih₁, ih₂]

end BoundedWalks
