import Mathlib.Data.List.Basic
import Mathlib.Order.Defs.Unbundled

/-!
# Runs of a state machine with inputs

A component that serves one request at a time is a function `step : σ → ι → ω × σ`; whatever is
nondeterministic about a request (a fault, a clock reading, an answer from outside) is part of its
input.  A *run* feeds a list of inputs, a *trace* keeps every transition of it.

* **One step, then every run** — `run_invariant` carries a fact about one step to the whole run,
  `trace_forall` to every transition of it.
* **Guarded runs** — `run_invariant_of_guard` is for invariants that hold only as long as every
  transition of the run satisfies a side condition; `trace_iff` compares a property with a
  condition transition by transition; `trace_shown_iff` and `trace_kept_iff` do so for a property of
  states that a step shows, or keeps, exactly when its transition satisfies the condition.
-/

namespace Machine

universe u v w

/-- One transition of a run. -/
structure Transition (σ : Type u) (ι : Type v) (ω : Type w) where
  pre : σ
  input : ι
  output : ω
  post : σ

variable {σ : Type u} {ι : Type v} {ω : Type w}

section

variable (step : σ → ι → ω × σ)

/-- The transition `step` takes from `s` on input `i`. -/
def transition (s : σ) (i : ι) : Transition σ ι ω :=
  ⟨s, i, (step s i).1, (step s i).2⟩

/-- The state a list of inputs leads to. -/
def run : σ → List ι → σ
  | s, [] => s
  | s, i :: is => run (step s i).2 is

/-- Every transition of the run, in order. -/
def trace : σ → List ι → List (Transition σ ι ω)
  | _, [] => []
  | s, i :: is => transition step s i :: trace (step s i).2 is

end

variable {step : σ → ι → ω × σ}

@[simp] theorem run_nil (s : σ) : run step s [] = s := rfl

@[simp] theorem run_cons (s : σ) (i : ι) (is : List ι) :
    run step s (i :: is) = run step (step s i).2 is := rfl

@[simp] theorem trace_nil (s : σ) : trace step s [] = [] := rfl

@[simp] theorem trace_cons (s : σ) (i : ι) (is : List ι) :
    trace step s (i :: is) = transition step s i :: trace step (step s i).2 is := rfl

theorem run_append (s : σ) (is js : List ι) :
    run step s (is ++ js) = run step (run step s is) js := by
  induction is generalizing s with
  | nil => rfl
  | cons i is ih => exact ih (step s i).2

theorem trace_append (s : σ) (is js : List ι) :
    trace step s (is ++ js) = trace step s is ++ trace step (run step s is) js := by
  induction is generalizing s with
  | nil => rfl
  | cons i is ih => simpa using ih (step s i).2

/-- A transition of a run was taken from a state that a prefix of the run reached. -/
theorem mem_trace {s : σ} {is : List ι} {t : Transition σ ι ω} :
    t ∈ trace step s is ↔
      ∃ before after, is = before ++ t.input :: after ∧
        t = transition step (run step s before) t.input := by
  constructor
  · intro ht
    induction is generalizing s with
    | nil => simp at ht
    | cons i is ih =>
        rcases List.mem_cons.mp ht with rfl | ht
        · exact ⟨[], is, rfl, rfl⟩
        · obtain ⟨before, after, rfl, h⟩ := ih ht
          exact ⟨i :: before, after, rfl, h⟩
  · rintro ⟨before, after, rfl, h⟩
    rw [trace_append, h]
    simp [transition]

/-! ## Runs that remember their inputs -/

/-- A step over a state that also keeps every input it was fed. -/
def remembering (step : σ → ι → ω × σ) (s : σ × List ι) (i : ι) : ω × (σ × List ι) :=
  ((step s.1 i).1, ((step s.1 i).2, s.2 ++ [i]))

/-! ## From one step to every run -/

/-- An invariant kept by every step holds after every run. -/
theorem run_invariant {I : σ → Prop} (hstep : ∀ s i, I s → I (step s i).2) {s : σ} (hs : I s)
    (is : List ι) : I (run step s is) := by
  induction is generalizing s with
  | nil => exact hs
  | cons i is ih => exact ih (hstep s i hs)

/-- What holds of each transition taken under an invariant holds of every transition of a run. -/
theorem trace_forall {I : σ → Prop} {P : Transition σ ι ω → Prop}
    (hstep : ∀ s i, I s → I (step s i).2) (hP : ∀ s i, I s → P (transition step s i)) {s : σ}
    (hs : I s) (is : List ι) : ∀ t ∈ trace step s is, P t := by
  intro t ht
  obtain ⟨before, after, -, h⟩ := mem_trace.mp ht
  rw [h]
  exact hP _ _ (run_invariant hstep hs before)

/-! ## Guarded runs -/

/-- An invariant that a step keeps only under a side condition `G` holds after every run all of
whose transitions satisfy `G`. -/
theorem run_invariant_of_guard {I : σ → Prop} {G : Transition σ ι ω → Prop}
    (hstep : ∀ s i, I s → G (transition step s i) → I (step s i).2) {s : σ} (hs : I s)
    {is : List ι} (hG : ∀ t ∈ trace step s is, G t) : I (run step s is) := by
  induction is generalizing s with
  | nil => exact hs
  | cons i is ih =>
      refine ih (hstep s i hs (hG _ (by simp))) fun t ht => hG t ?_
      simp [ht]

/-- A guarded invariant holds in every state that a prefix of the run reaches. -/
theorem prefix_invariant_of_guard {I : σ → Prop} {G : Transition σ ι ω → Prop}
    (hstep : ∀ s i, I s → G (transition step s i) → I (step s i).2) {s : σ} (hs : I s)
    {before after : List ι} (hG : ∀ t ∈ trace step s (before ++ after), G t) :
    I (run step s before) := by
  refine run_invariant_of_guard hstep hs fun t ht => hG t ?_
  rw [trace_append]
  exact List.mem_append_left _ ht

/-- What holds of each guarded transition taken under a guarded invariant holds of every transition
of a run all of whose transitions satisfy the guard. -/
theorem trace_forall_of_guard {I : σ → Prop} {G P : Transition σ ι ω → Prop}
    (hstep : ∀ s i, I s → G (transition step s i) → I (step s i).2)
    (hP : ∀ s i, I s → G (transition step s i) → P (transition step s i)) {s : σ} (hs : I s)
    {is : List ι} (hG : ∀ t ∈ trace step s is, G t) : ∀ t ∈ trace step s is, P t := by
  intro t ht
  have hguard := hG t ht
  obtain ⟨before, after, rfl, h⟩ := mem_trace.mp ht
  rw [h] at hguard ⊢
  exact hP _ _ (prefix_invariant_of_guard hstep hs hG) hguard

/-- A guarded invariant holds after each transition of a run all of whose transitions satisfy the
guard. -/
theorem trace_post_of_guard {I : σ → Prop} {G : Transition σ ι ω → Prop}
    (hstep : ∀ s i, I s → G (transition step s i) → I (step s i).2) {s : σ} (hs : I s)
    {is : List ι} (hG : ∀ t ∈ trace step s is, G t) : ∀ t ∈ trace step s is, I t.post := by
  induction is generalizing s with
  | nil => exact fun t ht => absurd ht List.not_mem_nil
  | cons i is ih =>
      have hnext := hstep s i hs (hG _ (by simp))
      intro t ht
      rcases List.mem_cons.mp ht with rfl | ht
      · exact hnext
      · exact ih hnext (fun t ht => hG t (by simp [ht])) t ht

/-- A property and a condition that agree on each transition taken under an invariant agree on
every run. -/
theorem trace_iff {I : σ → Prop} {P G : Transition σ ι ω → Prop}
    (hstep : ∀ s i, I s → I (step s i).2)
    (hPG : ∀ s i, I s → (P (transition step s i) ↔ G (transition step s i))) {s : σ} (hs : I s)
    (is : List ι) :
    (∀ t ∈ trace step s is, P t) ↔ (∀ t ∈ trace step s is, G t) := by
  have h := trace_forall (P := fun t => P t ↔ G t) hstep hPG hs is
  exact ⟨fun hP t ht => (h t ht).mp (hP t ht), fun hG t ht => (h t ht).mpr (hG t ht)⟩

/-- A property `P` that a transition from a state with the property `B` shows exactly when it satisfies
`G`, and then keeps `B`, is shown by all transitions of a run exactly when all satisfy `G`. -/
theorem trace_shown_iff {B P : σ → Prop} {G : Transition σ ι ω → Prop}
    (hshown : ∀ s i, B s → (P (step s i).2 ↔ G (transition step s i)))
    (hkept : ∀ s i, B s → G (transition step s i) → B (step s i).2) {s : σ} (hB : B s)
    (is : List ι) :
    (∀ t ∈ trace step s is, P t.post) ↔ (∀ t ∈ trace step s is, G t) := by
  induction is generalizing s with
  | nil => simp
  | cons i is ih =>
      simp only [trace_cons, List.forall_mem_cons]
      have hone : P (transition step s i).post ↔ G (transition step s i) := hshown s i hB
      rw [hone]
      exact and_congr_right fun hG => ih (hkept s i hB hG)

/-- A property of states that each transition keeps exactly when it satisfies `G` holds in every
state a run reaches exactly when all its transitions satisfy `G`. -/
theorem trace_kept_iff {I B : σ → Prop} {G : Transition σ ι ω → Prop}
    (hstep : ∀ s i, I s → I (step s i).2)
    (hkept : ∀ s i, I s → B s → (B (step s i).2 ↔ G (transition step s i))) {s : σ} (hI : I s)
    (hB : B s) (is : List ι) :
    (∀ t ∈ trace step s is, B t.post) ↔ (∀ t ∈ trace step s is, G t) :=
  trace_shown_iff (B := fun s => I s ∧ B s) (fun s i h => hkept s i h.1 h.2)
    (fun s i h hG => ⟨hstep s i h.1, (hkept s i h.1 h.2).mpr hG⟩) ⟨hI, hB⟩ is

end Machine
