import Mathlib.Data.List.Forall2
import Mathlib.Order.Defs.Unbundled

/-!
# Computations that keep their state when they raise

A method of a long-lived object mutates the object and may raise halfway through.  What it wrote
before the exception stays written, and that is exactly what `EStateM` computes: both outcomes
carry the state they end in.  This file holds the few rules a verification of such methods uses.

* **Inversion** — `run_bind_ok` and `run_bind_error` take the outcome of a sequence apart, so that
  a caller reads off what each part did without unfolding it.
* **Contracts** — `Ensures P m Q E` says what holds after `m` returns and after it raises; it is
  for facts that need to know what was returned.
* **Motion** — `Moves R m` says that `m` relates the state it starts in to the state it ends in,
  whether it returns or raises.  For a reflexive and transitive `R` it is closed under every way
  of composing computations; `Frames` ("this field is untouched") and `Grows` ("this list
  only gets longer") are of this form.
-/

namespace Effects

universe u

variable {ε σ α β : Type u}

/-- The state a computation ends in, whether it returned or raised. -/
def finalState : EStateM.Result ε σ α → σ
  | .ok _ s => s
  | .error _ s => s

@[simp] theorem finalState_ok (a : α) (s : σ) :
    finalState (.ok a s : EStateM.Result ε σ α) = s := rfl

@[simp] theorem finalState_error (e : ε) (s : σ) :
    finalState (.error e s : EStateM.Result ε σ α) = s := rfl

/-- A computation as a step: the exception it raised, if any, and the state it ended in. -/
def settle : EStateM.Result ε σ α → Option ε × σ
  | .ok _ s => (none, s)
  | .error e s => (some e, s)

@[simp] theorem settle_snd (x : EStateM.Result ε σ α) : (settle x).2 = finalState x := by
  cases x <;> rfl

/-! ## Inversion of outcomes -/

/-- A sequence returns exactly when its first part returns and hands over to a second part that
returns. -/
theorem run_bind_ok {x : EStateM ε σ α} {f : α → EStateM ε σ β} {s s' : σ} {b : β} :
    (x >>= f).run s = .ok b s' ↔ ∃ a t, x.run s = .ok a t ∧ (f a).run t = .ok b s' := by
  rw [EStateM.run_bind]
  cases h : x.run s with
  | ok a t => simp [and_assoc]
  | error e t => simp

/-- A sequence raises in its first part, or in its second after the first has returned. -/
theorem run_bind_error {x : EStateM ε σ α} {f : α → EStateM ε σ β} {s s' : σ} {e : ε} :
    (x >>= f).run s = .error e s' ↔
      x.run s = .error e s' ∨ ∃ a t, x.run s = .ok a t ∧ (f a).run t = .error e s' := by
  rw [EStateM.run_bind]
  cases h : x.run s with
  | ok a t => simp [and_assoc]
  | error e t => simp

/-- A sequence of computations without state returns exactly when both parts do. -/
theorem except_bind_ok {x : Except ε α} {f : α → Except ε β} {b : β} :
    (x >>= f) = .ok b ↔ ∃ a, x = .ok a ∧ f a = .ok b := by
  cases x with
  | error e => exact iff_of_false (fun h => by cases h) fun ⟨a, h, _⟩ => by cases h
  | ok a =>
      constructor
      · exact fun h => ⟨a, rfl, h⟩
      · rintro ⟨_, ⟨⟩, h⟩
        exact h

/-- A sequence of computations without state raises in one of its parts. -/
theorem except_bind_error {x : Except ε α} {f : α → Except ε β} {e : ε} :
    (x >>= f) = .error e ↔ x = .error e ∨ ∃ a, x = .ok a ∧ f a = .error e := by
  cases x with
  | error e' =>
      constructor
      · rintro ⟨⟩
        exact .inl rfl
      · rintro (⟨⟨⟩⟩ | ⟨_, ⟨⟩, _⟩)
        rfl
  | ok a =>
      constructor
      · exact fun h => .inr ⟨a, rfl, h⟩
      · rintro (⟨⟨⟩⟩ | ⟨_, ⟨⟩, h⟩)
        exact h

/-- A traversal without state returns the results item by item. -/
theorem except_mapM_ok {f : α → Except ε β} :
    ∀ {xs : List α} {ys : List β}, xs.mapM f = .ok ys →
      List.Forall₂ (fun x y => f x = .ok y) xs ys
  | [], ys, h => by
    cases h
    exact .nil
  | x :: xs, ys, h => by
    rw [List.mapM_cons] at h
    obtain ⟨y, hy, hrest⟩ := except_bind_ok.mp h
    obtain ⟨ys', hys, hpure⟩ := except_bind_ok.mp hrest
    cases hpure
    exact .cons hy (except_mapM_ok hys)

/-- A traversal whose items all have results returns them. -/
theorem except_mapM_of_forall₂ {f : α → Except ε β} {xs : List α} {ys : List β}
    (h : List.Forall₂ (fun x y => f x = .ok y) xs ys) : xs.mapM f = .ok ys := by
  induction h with
  | nil => rfl
  | cons hfirst _ ih =>
      rw [List.mapM_cons, hfirst, ih]
      rfl

@[simp] theorem run_throw' (e : ε) (s : σ) :
    EStateM.run (throw e : EStateM ε σ α) s = .error e s := rfl

@[simp] theorem run_ofExcept (x : Except ε α) (s : σ) :
    EStateM.run (MonadExcept.ofExcept x : EStateM ε σ α) s = match x with
      | .ok a => .ok a s
      | .error e => .error e s := by
  cases x <;> rfl

@[simp] theorem run_map (f : α → β) (x : EStateM ε σ α) (s : σ) :
    (f <$> x).run s = match x.run s with
      | .ok a t => .ok (f a) t
      | .error e t => .error e t := rfl

/-- A caught exception resumes in the state the body left behind. -/
theorem run_tryCatch (x : EStateM ε σ α) (h : ε → EStateM ε σ α) (s : σ) :
    (tryCatch x h : EStateM ε σ α).run s = match x.run s with
      | .ok a t => .ok a t
      | .error e t => (h e).run t := by
  have hconst : (tryCatch x h : EStateM ε σ α).run s = EStateM.tryCatch (fun _ => x.run s) h s :=
    rfl
  rw [hconst]
  cases x.run s with
  | ok a t => rfl
  | error e t => rfl

/-! ## Motion -/

/-- **`m` moves every state along `R`.**  The state `m` ends in is related to the state it started
in, on the returning and on the raising path alike. -/
def Moves (R : σ → σ → Prop) (m : EStateM ε σ α) : Prop :=
  ∀ s, R s (finalState (m.run s))

namespace Moves

variable {R : σ → σ → Prop} {m : EStateM ε σ α}

theorem of_ok (h : Moves R m) {s s' : σ} {a : α} (hrun : m.run s = .ok a s') : R s s' := by
  simpa [hrun] using h s

theorem of_error (h : Moves R m) {s s' : σ} {e : ε} (hrun : m.run s = .error e s') : R s s' := by
  simpa [hrun] using h s

theorem mono {R' : σ → σ → Prop} (h : Moves R m) (hR : ∀ s s', R s s' → R' s s') : Moves R' m :=
  fun s => hR _ _ (h s)

theorem pure [IsPreorder σ R] (a : α) : Moves R (pure a : EStateM ε σ α) := fun s => Std.Refl.refl s

theorem throw [IsPreorder σ R] (e : ε) : Moves R (throw e : EStateM ε σ α) := fun s => Std.Refl.refl s

theorem ofExcept [IsPreorder σ R] (x : Except ε α) :
    Moves R (MonadExcept.ofExcept x : EStateM ε σ α) := by
  cases x with
  | ok a => exact pure a
  | error e => exact throw e

theorem get [IsPreorder σ R] : Moves R (get : EStateM ε σ σ) := fun s => Std.Refl.refl s

theorem modify {f : σ → σ} (h : ∀ s, R s (f s)) : Moves R (modify f : EStateM ε σ PUnit) := h

theorem bind [IsPreorder σ R] {f : α → EStateM ε σ β} (hx : Moves R m)
    (hf : ∀ a, Moves R (f a)) : Moves R (m >>= f) := by
  intro s
  rw [EStateM.run_bind]
  cases h : m.run s with
  | ok a t => exact IsTrans.trans _ _ _ (hx.of_ok h) (hf a t)
  | error e t => exact hx.of_error h

theorem map {f : α → β} (hm : Moves R m) : Moves R (f <$> m) := by
  intro s
  rw [run_map]
  cases h : m.run s with
  | ok a t => exact hm.of_ok h
  | error e t => exact hm.of_error h

theorem ite {c : Prop} [Decidable c] {m' : EStateM ε σ α} (h : c → Moves R m)
    (h' : ¬ c → Moves R m') : Moves R (if c then m else m') := by
  split
  · exact h ‹_›
  · exact h' ‹_›

theorem tryCatch [IsPreorder σ R] {h : ε → EStateM ε σ α} (hm : Moves R m)
    (hh : ∀ e, Moves R (h e)) : Moves R (tryCatch m h : EStateM ε σ α) := by
  intro s
  rw [run_tryCatch]
  cases hx : m.run s with
  | ok a t => exact hm.of_ok hx
  | error e t => exact IsTrans.trans _ _ _ (hm.of_error hx) (hh e t)

/-- A loop moves along `R` when every round does. -/
theorem forM [IsPreorder σ R] {ι : Type u} {f : ι → EStateM ε σ PUnit} {xs : List ι}
    (hf : ∀ x ∈ xs, Moves R (f x)) : Moves R (forM xs f) := by
  induction xs with
  | nil => exact fun s => Std.Refl.refl s
  | cons x xs ih =>
      rw [List.forM_cons]
      refine bind (hf x (by simp)) fun _ => ih fun y hy => hf y (by simp [hy])

end Moves

/-- Reading the state hands the rest the state it starts in. -/
theorem Moves.get_bind {R : σ → σ → Prop} {f : σ → EStateM ε σ β}
    (h : ∀ s, R s (finalState ((f s).run s))) : Moves R (MonadState.get >>= f) := h

/-- Overwriting the state moves along `R` when the new state does. -/
theorem Moves.set_bind {R : σ → σ → Prop} [IsPreorder σ R] {f : PUnit → EStateM ε σ β} {s s' : σ}
    (hs : R s s') (hf : Moves R (f ⟨⟩)) : R s (finalState ((set s' >>= f).run s)) :=
  IsTrans.trans _ _ _ hs (hf s')

/-! ## Frames -/

/-- Fields that a computation leaves alone, read through a projection `f`. -/
abbrev Frames {τ : Type u} (f : σ → τ) (m : EStateM ε σ α) : Prop :=
  Moves (fun s s' => f s' = f s) m

instance framesPreorder {τ : Type u} (f : σ → τ) : IsPreorder σ (fun s s' => f s' = f s) where
  refl _ := rfl
  trans _ _ _ h h' := h'.trans h

/-! ## Growth -/

/-- **A list-valued field only gets longer**, and everything appended to it satisfies `P`. -/
def Grows {τ : Type u} (f : σ → List τ) (P : τ → Prop) (s s' : σ) : Prop :=
  ∃ new, f s' = f s ++ new ∧ ∀ x ∈ new, P x

instance growsPreorder {τ : Type u} (f : σ → List τ) (P : τ → Prop) : IsPreorder σ (Grows f P) where
  refl s := ⟨[], by simp, by simp⟩
  trans := by
    rintro s t u ⟨new, h, hP⟩ ⟨new', h', hP'⟩
    refine ⟨new ++ new', by rw [h', h, List.append_assoc], fun x hx => ?_⟩
    exact (List.mem_append.mp hx).elim (hP x) (hP' x)

theorem Grows.one {τ : Type u} {f : σ → List τ} {P : τ → Prop} {s s' : σ} {x : τ}
    (h : f s' = f s ++ [x]) (hx : P x) : Grows f P s s' :=
  ⟨[x], h, by simpa using hx⟩

theorem Grows.of_eq {τ : Type u} {f : σ → List τ} {P : τ → Prop} {s s' : σ} (h : f s' = f s) :
    Grows f P s s' :=
  ⟨[], by simpa using h, by simp⟩

theorem Grows.mono {τ : Type u} {f : σ → List τ} {P Q : τ → Prop} {s s' : σ}
    (h : Grows f P s s') (hPQ : ∀ x, P x → Q x) : Grows f Q s s' := by
  obtain ⟨new, hnew, hP⟩ := h
  exact ⟨new, hnew, fun x hx => hPQ x (hP x hx)⟩

/-! ## What is kept -/

/-- What held before holds after. -/
def Keeps (P : σ → Prop) (s s' : σ) : Prop := P s → P s'

instance keepsPreorder (P : σ → Prop) : IsPreorder σ (Keeps P) where
  refl _ h := h
  trans _ _ _ h h' hs := h' (h hs)

/-! ## Contracts -/

/-- **From states in `P`, `m` returns into `Q` and raises into `E`.** -/
def Ensures (P : σ → Prop) (m : EStateM ε σ α) (Q : α → σ → Prop) (E : σ → Prop) : Prop :=
  ∀ s, P s → (∀ a t, m.run s = .ok a t → Q a t) ∧ ∀ e t, m.run s = .error e t → E t

namespace Ensures

variable {P : σ → Prop} {m : EStateM ε σ α} {Q : α → σ → Prop} {E : σ → Prop}

theorem finalState {I : σ → Prop} (h : Ensures P m (fun _ => I) I) {s : σ} (hs : P s) :
    I (finalState (m.run s)) := by
  cases hrun : m.run s with
  | ok a t => exact (h s hs).1 a t hrun
  | error e t => exact (h s hs).2 e t hrun

theorem pure {a : α} (h : ∀ s, P s → Q a s) : Ensures P (pure a : EStateM ε σ α) Q E := by
  refine fun s hs => ⟨fun b t hrun => ?_, fun e t hrun => ?_⟩
  · cases hrun
    exact h s hs
  · cases hrun

theorem throw {e : ε} (h : ∀ s, P s → E s) : Ensures P (throw e : EStateM ε σ α) Q E := by
  refine fun s hs => ⟨fun b t hrun => ?_, fun e' t hrun => ?_⟩
  · cases hrun
  · cases hrun
    exact h s hs

theorem modify {f : σ → σ} {Q : PUnit → σ → Prop} (h : ∀ s, P s → Q ⟨⟩ (f s)) :
    Ensures P (modify f : EStateM ε σ PUnit) Q E := by
  refine fun s hs => ⟨fun b t hrun => ?_, fun e' t hrun => ?_⟩
  · cases hrun
    exact h s hs
  · cases hrun

theorem bind {f : α → EStateM ε σ β} {S : β → σ → Prop} (hm : Ensures P m Q E)
    (hf : ∀ a, Ensures (Q a) (f a) S E) : Ensures P (m >>= f) S E := by
  refine fun s hs => ⟨fun b t hrun => ?_, fun e t hrun => ?_⟩
  · obtain ⟨a, u, hm', hf'⟩ := run_bind_ok.mp hrun
    exact (hf a u ((hm s hs).1 a u hm')).1 b t hf'
  · rcases run_bind_error.mp hrun with hm' | ⟨a, u, hm', hf'⟩
    · exact (hm s hs).2 e t hm'
    · exact (hf a u ((hm s hs).1 a u hm')).2 e t hf'

/-- Reading the state hands the rest the state it starts in. -/
theorem get_bind {f : σ → EStateM ε σ β} {S : β → σ → Prop}
    (h : ∀ s, P s → Ensures (fun t => t = s) (f s) S E) : Ensures P (MonadState.get >>= f) S E :=
  fun s hs => h s hs s rfl

theorem ite {c : Prop} [Decidable c] {m' : EStateM ε σ α} (h : c → Ensures P m Q E)
    (h' : ¬ c → Ensures P m' Q E) : Ensures P (if c then m else m') Q E := by
  split
  · exact h ‹_›
  · exact h' ‹_›

theorem mono {P' : σ → Prop} {Q' : α → σ → Prop} {E' : σ → Prop} (h : Ensures P m Q E)
    (hP : ∀ s, P' s → P s) (hQ : ∀ a s, Q a s → Q' a s) (hE : ∀ s, E s → E' s) :
    Ensures P' m Q' E' := fun s hs =>
  ⟨fun a t hrun => hQ a t ((h s (hP s hs)).1 a t hrun), fun e t hrun =>
    hE t ((h s (hP s hs)).2 e t hrun)⟩

/-- A computation that keeps `P`, as a contract. -/
theorem of_keeps (hm : Moves (Keeps P) m) (hE : ∀ s, P s → E s) : Ensures P m (fun _ => P) E :=
  fun _ hs => ⟨fun _ _ hrun => hm.of_ok hrun hs, fun _ _ hrun => hE _ (hm.of_error hrun hs)⟩

end Ensures

end Effects
