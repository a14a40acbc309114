import Mathlib.Algebra.Order.Ring.Int

/-!
# Lowering a number to a bound that moves with it

A number is to be brought under a bound that depends on it.  Each pass replaces a number over its
bound by that bound, so the number only falls; the bound may fall with it.  When the bound depends
on a rank that falls with the number, a pass that changes the number without lowering its rank is
the last one, so that as many passes as there are ranks suffice (`settle_settled`).  No pass
cuts below a number that every bound above it leaves room for (`le_settle`).
-/

namespace SettledPasses

/-- At most a number of passes that lower a number to its own bound. -/
def settle (cap : ℤ → ℤ) : ℕ → ℤ → ℤ
  | 0, x => x
  | passes + 1, x => if x ≤ cap x then x else settle cap passes (cap x)

variable {cap : ℤ → ℤ}

/-- A number within its bound stays. -/
theorem settle_of_le {x : ℤ} (h : x ≤ cap x) : ∀ passes, settle cap passes x = x
  | 0 => rfl
  | _ + 1 => if_pos h

/-- Passes only lower. -/
theorem settle_le : ∀ (passes : ℕ) (x : ℤ), settle cap passes x ≤ x
  | 0, x => le_refl x
  | passes + 1, x => by
    by_cases hfit : x ≤ cap x
    · rw [settle_of_le hfit]
    · rw [settle, if_neg hfit]
      exact (settle_le passes (cap x)).trans (not_le.mp hfit).le

/-- What holds of the number and of every bound holds after the passes. -/
theorem settle_holds {P : ℤ → Prop} (hcap : ∀ x, P (cap x)) :
    ∀ (passes : ℕ) (x : ℤ), P x → P (settle cap passes x)
  | 0, _, hx => hx
  | passes + 1, x, hx => by
    by_cases hfit : x ≤ cap x
    · rw [settle_of_le hfit]
      exact hx
    · rw [settle, if_neg hfit]
      exact settle_holds hcap passes (cap x) (hcap x)

/-- **As many passes as there are ranks suffice**, when a smaller number has no greater rank and
numbers of one rank have one bound. -/
theorem settle_settled {rank : ℤ → ℕ} (hrank : ∀ {y x : ℤ}, y ≤ x → rank y ≤ rank x)
    (hsame : ∀ {y x : ℤ}, y ≤ x → rank y = rank x → cap y = cap x) :
    ∀ (passes : ℕ) (x : ℤ), rank x < passes → settle cap passes x ≤ cap (settle cap passes x)
  | 0, _, hpasses => absurd hpasses (Nat.not_lt_zero _)
  | passes + 1, x, hpasses => by
    by_cases hfit : x ≤ cap x
    · rw [settle_of_le hfit]
      exact hfit
    · have hfalls : cap x ≤ x := (not_le.mp hfit).le
      rw [settle, if_neg hfit]
      -- the number fell to its bound: either the rank fell too, or the bound stayed where it is
      rcases (hrank hfalls).lt_or_eq with hlower | heq
      · exact settle_settled hrank hsame passes (cap x) (by omega)
      · have hstays : cap x ≤ cap (cap x) := (hsame hfalls heq).ge
        rw [settle_of_le hstays]
        exact hstays

/-- Passes do not cut below a number that is within every bound above it. -/
theorem le_settle {z : ℤ} (hz : ∀ x, z ≤ x → z ≤ cap x) :
    ∀ (passes : ℕ) (x : ℤ), z ≤ x → z ≤ settle cap passes x
  | 0, _, hx => hx
  | passes + 1, x, hx => by
    by_cases hfit : x ≤ cap x
    · rw [settle_of_le hfit]
      exact hx
    · rw [settle, if_neg hfit]
      exact le_settle hz passes (cap x) (hz x hx)

/-- Once settled, further passes change nothing. -/
theorem settle_add (more : ℕ) : ∀ (passes : ℕ) (x : ℤ),
    settle cap passes x ≤ cap (settle cap passes x) →
      settle cap (passes + more) x = settle cap passes x
  | 0, x, h => by
    rw [Nat.zero_add]
    exact settle_of_le h more
  | passes + 1, x, h => by
    by_cases hfit : x ≤ cap x
    · rw [settle_of_le hfit, settle_of_le hfit]
    · rw [Nat.add_right_comm, settle, if_neg hfit]
      rw [settle, if_neg hfit] at h ⊢
      exact settle_add more passes (cap x) h

end SettledPasses
