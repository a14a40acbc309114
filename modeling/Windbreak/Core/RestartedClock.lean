import Mathlib.Tactic.TypeStar
import Mathlib.Algebra.Order.Ring.Int

/-!
# A clock restarted by every change

Something is timed from a start.  Offering the same again changes nothing; offering something else
restarts the clock, which only a later time may do.

* `offer` — what an offer leaves, unless it is refused.
* **`follows_of_offer`** — the clock stands, or restarts for something else at a later time.
-/

namespace RestartedClock

variable {ι : Type*}

/-- What is timed, since when, and what was timed before it. -/
@[ext]
structure Timed (ι : Type*) where
  subject : ι
  start : ℤ
  previous : Option ι

/-- The clock is restarted for something else, at a later time. -/
structure Restarts (t t' : Timed ι) : Prop where
  other : t'.subject ≠ t.subject
  later : t.start < t'.start
  linked : t'.previous = some t.subject

/-- The clock stands, or is restarted. -/
def Follows (t t' : Timed ι) : Prop := t' = t ∨ Restarts t t'

variable [DecidableEq ι]

/-- Offer a subject at a time. -/
def offer (subject : ι) (now : ℤ) : Option (Timed ι) → Option (Timed ι)
  | none => some ⟨subject, now, none⟩
  | some t =>
    if t.subject = subject then some t
    else if now ≤ t.start then none
    else some ⟨subject, now, some t.subject⟩

theorem offer_same {t : Timed ι} {subject : ι} (h : t.subject = subject) (now : ℤ) :
    offer subject now (some t) = some t := if_pos h

theorem offer_early {t : Timed ι} {subject : ι} {now : ℤ} (hne : t.subject ≠ subject)
    (h : now ≤ t.start) : offer subject now (some t) = none := by
  rw [offer, if_neg hne, if_pos h]

theorem offer_other {t : Timed ι} {subject : ι} {now : ℤ} (hne : t.subject ≠ subject)
    (h : t.start < now) : offer subject now (some t) = some ⟨subject, now, some t.subject⟩ := by
  rw [offer, if_neg hne, if_neg (not_le.mpr h)]

/-- **What an offer may do to the clock.** -/
theorem follows_of_offer {t t' : Timed ι} {subject : ι} {now : ℤ}
    (h : offer subject now (some t) = some t') : Follows t t' := by
  by_cases hsame : t.subject = subject
  · rw [offer_same hsame] at h
    exact .inl (Option.some.inj h).symm
  · by_cases hearly : now ≤ t.start
    · rw [offer_early hsame hearly] at h
      exact absurd h.symm (Option.some_ne_none t')
    · have hlate := not_le.mp hearly
      rw [offer_other hsame hlate] at h
      obtain rfl := Option.some.inj h
      exact .inr ⟨fun heq => hsame heq.symm, hlate, rfl⟩

end RestartedClock
