import Mathlib.Logic.Basic

/-!
# Decisions that bad news cannot loosen

A state gives way to a worse one; what a worse state still admits, the better one admitted.  Nothing
here is about any system in particular.

* **`Known`** — a datum that may be unknown, whose new value the old one bounds.
* **`Cautious`** — a predicate that no worsening gains; such predicates compose.
-/

namespace Windbreak

namespace Caution

variable {σ α : Type*}

/-! ## Data that may be unknown -/

/-- Whatever is known now was known before, and stands in the relation to what it was. -/
def Known (r : α → α → Prop) (old new : Option α) : Prop :=
  ∀ y, new = some y → ∃ x, old = some x ∧ r x y

theorem Known.refl {r : α → α → Prop} (hr : ∀ x, r x x) (datum : Option α) :
    Known r datum datum :=
  fun y hy => ⟨y, hy, hr y⟩

/-- Nothing is as bad as not knowing. -/
theorem Known.unknown (r : α → α → Prop) (old : Option α) : Known r old none := by
  intro y hy
  cases hy

/-- A datum that does not change unless it is lost keeps its value while it is known. -/
theorem Known.same {old new : Option α} (h : Known Eq old new) {x : α} (hx : new = some x) :
    old = some x := by
  obtain ⟨y, hy, rfl⟩ := h x hx
  exact hy

/-! ## Cautious predicates -/

/-- **A predicate that no worsening gains.** -/
def Cautious (worse : σ → σ → Prop) (p : σ → Prop) : Prop :=
  ∀ s s', worse s s' → p s' → p s

section Rules

variable {worse : σ → σ → Prop} {p q : σ → Prop}

theorem Cautious.and (hp : Cautious worse p) (hq : Cautious worse q) :
    Cautious worse fun s => p s ∧ q s :=
  fun s s' h hboth => ⟨hp s s' h hboth.1, hq s s' h hboth.2⟩

/-- Every one of a list of tests. -/
theorem Cautious.all {ι : Type*} {tests : List ι} {p : ι → σ → Prop}
    (h : ∀ test ∈ tests, Cautious worse (p test)) :
    Cautious worse fun s => ∀ test ∈ tests, p test s :=
  fun s s' hworse hall test htest => h test htest s s' hworse (hall test htest)

/-- **A test of a datum that must be known**, and that the old value passes if the new one does. -/
theorem Cautious.of_known {datum : σ → Option α} {r : σ → α → α → Prop} {test : σ → α → Prop}
    (hknown : ∀ s s', worse s s' → Known (r s) (datum s) (datum s'))
    (htest : ∀ s s' x y, worse s s' → r s x y → test s' y → test s x) :
    Cautious worse fun s => ∃ x, datum s = some x ∧ test s x := by
  rintro s s' hworse ⟨y, hy, hpass⟩
  obtain ⟨x, hx, hr⟩ := hknown s s' hworse y hy
  exact ⟨x, hx, htest s s' x y hworse hr hpass⟩

end Rules

end Caution

end Windbreak
