import Mathlib.Data.List.Basic

/-!
# Folds that latch

A consumer takes a stream of entries batch by batch.  An entry may be refused; the consumer then
latches, keeps what it had, and takes nothing more, in this batch or in a later one.

* **`poll_append`, `polls_flatten`** — how the stream is cut into batches does not matter.
* **`poll_of_accepted`, `poll_of_refused`** — where the stream is accepted the result is the plain
  fold, and from the first refused entry on it is the latched state.
-/

namespace Latch

variable {σ ε : Type*}

/-- A consumer of entries: what one entry does unless it is refused, and how a state is latched. -/
structure Consumer (σ ε : Type*) where
  step : σ → ε → Option σ
  latched : σ → Bool
  latch : σ → σ
  latched_latch : ∀ s, latched (latch s) = true
  latched_step : ∀ {s e t}, step s e = some t → latched t = latched s

variable (consumer : Consumer σ ε)

/-- Take the entries of one batch, up to the first that is refused. -/
def drain : σ → List ε → σ
  | s, [] => s
  | s, e :: es =>
    match consumer.step s e with
    | none => consumer.latch s
    | some t => drain t es

/-- Take one batch, unless latched. -/
def poll (s : σ) (batch : List ε) : σ :=
  if consumer.latched s then s else drain consumer s batch

variable {consumer} {s t : σ}

theorem poll_of_latched (h : consumer.latched s = true) (batch : List ε) :
    poll consumer s batch = s := if_pos h

theorem poll_of_open (h : consumer.latched s = false) (batch : List ε) :
    poll consumer s batch = drain consumer s batch := by
  rw [poll, h]
  rfl

@[simp] theorem poll_nil : poll consumer s [] = s := by
  rw [poll]
  split <;> rfl

theorem poll_cons_of_refused {e : ε} (h : consumer.latched s = false)
    (he : consumer.step s e = none) (es : List ε) :
    poll consumer s (e :: es) = consumer.latch s := by
  rw [poll_of_open h, drain, he]

theorem poll_cons_of_accepted {e : ε} (h : consumer.latched s = false)
    (he : consumer.step s e = some t) (es : List ε) :
    poll consumer s (e :: es) = poll consumer t es := by
  rw [poll_of_open h, drain, he, poll_of_open ((consumer.latched_step he).trans h)]

/-- **Two batches are one.** -/
theorem poll_append (consumer : Consumer σ ε) (s : σ) (xs ys : List ε) :
    poll consumer (poll consumer s xs) ys = poll consumer s (xs ++ ys) := by
  induction xs generalizing s with
  | nil => rw [poll_nil, List.nil_append]
  | cons e xs ih =>
      cases hl : consumer.latched s with
      | true => rw [poll_of_latched hl, poll_of_latched hl, poll_of_latched hl]
      | false =>
          rw [List.cons_append]
          cases he : consumer.step s e with
          | none =>
              rw [poll_cons_of_refused hl he, poll_cons_of_refused hl he,
                poll_of_latched (consumer.latched_latch s)]
          | some t => rw [poll_cons_of_accepted hl he, poll_cons_of_accepted hl he, ih]

/-- **Any number of batches are one.** -/
theorem polls_flatten (consumer : Consumer σ ε) (s : σ) (batches : List (List ε)) :
    batches.foldl (poll consumer) s = poll consumer s batches.flatten := by
  induction batches generalizing s with
  | nil => rw [List.flatten_nil, poll_nil, List.foldl_nil]
  | cons batch batches ih => rw [List.foldl_cons, ih, poll_append, List.flatten_cons]

theorem latched_foldlM {es : List ε} (h : es.foldlM consumer.step s = some t) :
    consumer.latched t = consumer.latched s := by
  induction es generalizing s with
  | nil => rw [Option.some.inj h]
  | cons e es ih =>
      rw [List.foldlM_cons, Option.bind_eq_bind, Option.bind_eq_some_iff] at h
      obtain ⟨u, he, hrest⟩ := h
      rw [ih hrest, consumer.latched_step he]

/-- Entries that are all accepted are folded. -/
theorem poll_of_accepted {es : List ε} (h : consumer.latched s = false)
    (hes : es.foldlM consumer.step s = some t) : poll consumer s es = t := by
  induction es generalizing s with
  | nil => rw [poll_nil, Option.some.inj hes]
  | cons e es ih =>
      rw [List.foldlM_cons, Option.bind_eq_bind, Option.bind_eq_some_iff] at hes
      obtain ⟨u, he, hrest⟩ := hes
      rw [poll_cons_of_accepted h he]
      exact ih ((consumer.latched_step he).trans h) hrest

/-- **The first refused entry latches the state before it**, whatever comes after. -/
theorem poll_of_refused (consumer : Consumer σ ε) {s t : σ} {es : List ε} {e : ε} (h : consumer.latched s = false)
    (hes : es.foldlM consumer.step s = some t) (he : consumer.step t e = none) (after : List ε) :
    poll consumer s (es ++ e :: after) = consumer.latch t := by
  rw [← poll_append, poll_of_accepted h hes]
  exact poll_cons_of_refused ((latched_foldlM hes).trans h) he after

end Latch
