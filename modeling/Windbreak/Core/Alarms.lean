import Mathlib.Data.List.Basic
import Mathlib.Data.List.Induction

/-!
# Alarms that page once an episode

A watcher looks at a condition time after time.  A look finds it present, finds it absent, or cannot
tell.  The alarm pages on a presence it was not raised for, and is lowered by a run of absences.

* **`Rearmed`** — the law: a presence pages when there was none before it, or when enough looks have
  found the condition absent since the last one.
* **`standing`, `raised_eq_none_iff`** — what the counter of the alarm says of everything it saw.
* **`exists_page`** — while it is raised, it paged in this episode.
-/

namespace Alarms

/-- What one look at a condition finds. -/
inductive Sighting
  | present
  | absent
  | unobserved
  deriving DecidableEq

/-- The alarm after one look: lowered, or raised with the absences in a row since. -/
def look (clearRun : ℕ) : Option ℕ → Sighting → Option ℕ
  | raised, .unobserved => raised
  | _, .present => some 0
  | none, .absent => none
  | some streak, .absent => if clearRun ≤ streak + 1 then none else some (streak + 1)

/-- The alarm after some looks. -/
def raised (clearRun : ℕ) (sightings : List Sighting) : Option ℕ :=
  sightings.foldl (look clearRun) none

/-- The condition was never present, or has been found absent often enough since it last was. -/
def Rearmed (clearRun : ℕ) (sightings : List Sighting) : Prop :=
  ∀ before after, sightings = before ++ .present :: after → .present ∉ after →
    clearRun ≤ after.count .absent

variable {clearRun : ℕ} {sightings : List Sighting}

theorem look_unobserved (counter : Option ℕ) : look clearRun counter .unobserved = counter := by
  cases counter <;> rfl

theorem look_absent (streak : ℕ) : look clearRun (some streak) .absent =
    if clearRun ≤ streak + 1 then none else some (streak + 1) := rfl

theorem raised_concat (sightings : List Sighting) (s : Sighting) :
    raised clearRun (sightings ++ [s]) = look clearRun (raised clearRun sightings) s := by
  rw [raised, List.foldl_append]
  rfl

/-- A presence is the last one: the law counts the absences after it. -/
theorem rearmed_present_iff {before after : List Sighting} (h : .present ∉ after) :
    Rearmed clearRun (before ++ .present :: after) ↔ clearRun ≤ after.count .absent := by
  constructor
  · intro hrearmed
    exact hrearmed before after rfl h
  · intro hcount before' after' hsplit hlast
    have hsame : after = after' := by
      rcases List.append_eq_append_iff.mp hsplit with ⟨mid, -, hmid⟩ | ⟨mid, -, hmid⟩
      · cases mid with
        | nil => exact List.tail_eq_of_cons_eq hmid
        | cons s mid =>
            obtain ⟨-, rfl⟩ := List.cons.inj hmid
            exact absurd (List.mem_append_right mid List.mem_cons_self) h
      · cases mid with
        | nil => exact (List.tail_eq_of_cons_eq hmid).symm
        | cons s mid =>
            obtain ⟨-, rfl⟩ := List.cons.inj hmid
            exact absurd (List.mem_append_right mid List.mem_cons_self) hlast
    rwa [← hsame]

/-- Looks that do not find the condition present leave it rearmed. -/
theorem Rearmed.concat {s : Sighting} (h : Rearmed clearRun sightings) (hs : s ≠ .present) :
    Rearmed clearRun (sightings ++ [s]) := by
  intro before after hsplit hlast
  rcases List.eq_nil_or_concat' after with rfl | ⟨after, last, rfl⟩
  · exact absurd (List.append_inj_right' hsplit rfl) fun hsame => hs (List.cons.inj hsame).1
  · rw [← List.cons_append, ← List.append_assoc] at hsplit
    have hsightings := List.append_inj_left' hsplit rfl
    have hcount := h before after hsightings fun hmem => hlast (List.mem_append_left _ hmem)
    exact Nat.le_trans hcount (List.Sublist.count_le _ (List.sublist_append_left _ _))

/-- **What the counter says of everything the alarm saw.** -/
inductive Standing (clearRun : ℕ) (sightings : List Sighting) : Option ℕ → Prop
  | lowered (h : Rearmed clearRun sightings) : Standing clearRun sightings none
  | raised (before after : List Sighting) (hsplit : sightings = before ++ .present :: after)
      (hlast : .present ∉ after) (hshort : after.count .absent < clearRun) :
      Standing clearRun sightings (some (after.count .absent))

theorem Standing.look {counter : Option ℕ} (hrun : 0 < clearRun)
    (h : Standing clearRun sightings counter) (s : Sighting) :
    Standing clearRun (sightings ++ [s]) (look clearRun counter s) := by
  cases s with
  | present => exact .raised sightings [] rfl List.not_mem_nil hrun
  | absent =>
      cases h with
      | lowered h => exact .lowered (h.concat (by decide))
      | raised before after hsplit hlast hshort =>
          have hcount : (after ++ [Sighting.absent]).count Sighting.absent =
              after.count .absent + 1 := by
            rw [List.count_append, List.count_singleton_self]
          have hlast' : Sighting.present ∉ after ++ [Sighting.absent] := by
            rw [List.mem_append, not_or]
            exact ⟨hlast, by decide⟩
          rw [look_absent, hsplit, List.append_assoc, List.cons_append]
          by_cases hfull : clearRun ≤ after.count .absent + 1
          · rw [if_pos hfull]
            exact .lowered ((rearmed_present_iff hlast').mpr (hcount ▸ hfull))
          · rw [if_neg hfull, ← hcount]
            exact .raised before _ rfl hlast' (by omega)
  | unobserved =>
      cases h with
      | lowered h => exact .lowered (h.concat (by decide))
      | raised before after hsplit hlast hshort =>
          have hcount : (after ++ [Sighting.unobserved]).count Sighting.absent =
              after.count .absent := by
            rw [List.count_append]
            rfl
          have hlast' : Sighting.present ∉ after ++ [Sighting.unobserved] := by
            rw [List.mem_append, not_or]
            exact ⟨hlast, by decide⟩
          rw [look_unobserved, hsplit, List.append_assoc, List.cons_append, ← hcount]
          exact .raised before _ rfl hlast' (by omega)

theorem standing (hrun : 0 < clearRun) (sightings : List Sighting) :
    Standing clearRun sightings (raised clearRun sightings) := by
  induction sightings using List.reverseRecOn with
  | nil =>
      refine .lowered fun before after hsplit => ?_
      exact absurd (congrArg List.length hsplit) (by simp)
  | append_singleton sightings s ih =>
      rw [raised_concat]
      exact ih.look hrun s

/-- **The alarm is lowered exactly when the law says so.** -/
theorem raised_eq_none_iff (hrun : 0 < clearRun) (sightings : List Sighting) :
    raised clearRun sightings = none ↔ Rearmed clearRun sightings := by
  constructor
  · intro hnone
    have hstanding := standing hrun sightings
    rw [hnone] at hstanding
    cases hstanding with
    | lowered h => exact h
  · intro hrearmed
    generalize hcounter : raised clearRun sightings = counter
    have hstanding := standing hrun sightings
    rw [hcounter] at hstanding
    cases hstanding with
    | lowered h => rfl
    | raised before after hsplit hlast hshort =>
        exact absurd (hrearmed before after hsplit hlast) (Nat.not_le.mpr hshort)

/-- **A condition that has not rearmed was paged** for, by a presence it was armed for, and it has
not rearmed since. -/
theorem exists_page (h : ¬ Rearmed clearRun sightings) :
    ∃ before after, sightings = before ++ .present :: after ∧ Rearmed clearRun before ∧
      ∀ since, since <+: after → ¬ Rearmed clearRun (before ++ .present :: since) := by
  induction sightings using List.reverseRecOn with
  | nil =>
      refine absurd (fun before after hsplit => ?_) h
      exact absurd (congrArg List.length hsplit) (by simp)
  | append_singleton sightings s ih =>
      by_cases hbefore : Rearmed clearRun sightings
      · cases s with
        | present =>
            refine ⟨sightings, [], rfl, hbefore, fun since hsince => ?_⟩
            rwa [List.prefix_nil.mp hsince]
        | absent => exact absurd (hbefore.concat (by decide)) h
        | unobserved => exact absurd (hbefore.concat (by decide)) h
      · obtain ⟨before, after, rfl, harmed, hsince⟩ := ih hbefore
        refine ⟨before, after ++ [s], List.append_assoc .., harmed, fun since hstart => ?_⟩
        rcases List.prefix_concat_iff.mp hstart with rfl | hstart
        · rwa [List.append_assoc] at h
        · exact hsince since hstart

end Alarms
