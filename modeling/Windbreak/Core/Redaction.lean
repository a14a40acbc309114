import Mathlib.Data.List.Basic
import Mathlib.Data.List.Infix

/-!
# Replacing what matches

A matcher looks at the front of a text and says how far a match there reaches.  `substitute` goes
through a text from the left and puts a marker in the place of each match.

* `Clean` — no match begins anywhere in a text; `substitute_of_clean`: nothing is replaced in it.
* `Separates` — no match begins inside the marker, and none reaches into a marker that did not reach
  into what the marker replaced.
* **`clean_substitute`** — after the substitution no match is left, of the same matcher or of
  another one that found nothing in the text.
-/

namespace Redaction

universe u

variable {α : Type u}

/-- What a matcher finds at the front of a text: nothing, or a match of so many characters after
the first. -/
abbrev Matcher (α : Type u) := List α → Option ℕ

/-- Put a marker in the place of each match, from the left; some characters are skipped first. -/
def scan (marker : List α) (m : Matcher α) : ℕ → List α → List α
  | _, [] => []
  | skip + 1, _ :: text => scan marker m skip text
  | 0, c :: text =>
    match m (c :: text) with
    | some more => marker ++ scan marker m more text
    | none => c :: scan marker m 0 text

/-- Every match replaced by a marker. -/
def substitute (marker : List α) (m : Matcher α) (text : List α) : List α := scan marker m 0 text

/-- No match begins anywhere in the text. -/
def Clean (m : Matcher α) (text : List α) : Prop := ∀ suffix, suffix <:+ text → m suffix = none

/-- **The marker separates**: what `m` finds may be replaced by it without a new match of `m'`. -/
structure Separates (marker : List α) (m m' : Matcher α) : Prop where
  nil : m' [] = none
  inside : ∀ s rest, s <:+ marker → s ≠ [] → m' (s ++ rest) = none
  before : ∀ text found rest, text ≠ [] → (m found).isSome → m' (text ++ found) = none →
    m' (text ++ (marker ++ rest)) = none

variable {marker text : List α} {m m' : Matcher α}

theorem scan_match {c : α} {more : ℕ} (h : m (c :: text) = some more) :
    scan marker m 0 (c :: text) = marker ++ scan marker m more text := by
  rw [scan, h]

theorem scan_keep {c : α} (h : m (c :: text) = none) :
    scan marker m 0 (c :: text) = c :: scan marker m 0 text := by
  rw [scan, h]

theorem Clean.tail {c : α} (h : Clean m (c :: text)) : Clean m text := fun suffix hsuffix =>
  h suffix (hsuffix.trans (List.suffix_cons c text))

/-- **Nothing is replaced in a clean text.** -/
theorem substitute_of_clean (h : Clean m text) : substitute marker m text = text := by
  unfold substitute
  induction text with
  | nil => rw [scan]
  | cons c text ih => rw [scan_keep (h _ List.suffix_rfl), ih h.tail]

/-- A substituted text begins as the text does, up to the first match. -/
theorem scan_split (marker : List α) (m : Matcher α) (text : List α) :
    scan marker m 0 text = text ∨
      ∃ front found rest, text = front ++ found ∧ (m found).isSome ∧
        scan marker m 0 text = front ++ (marker ++ rest) := by
  induction text with
  | nil => exact .inl (by rw [scan])
  | cons c text ih =>
      cases hmatch : m (c :: text) with
      | some more =>
          refine .inr ⟨[], c :: text, scan marker m more text, rfl, ?_, scan_match hmatch⟩
          rw [hmatch]
          rfl
      | none =>
          rw [scan_keep hmatch]
          rcases ih with hsame | ⟨front, found, rest, htext, hfound, hscan⟩
          · exact .inl (by rw [hsame])
          · exact .inr ⟨c :: front, found, rest, by rw [htext, List.cons_append], hfound,
              by rw [hscan, List.cons_append]⟩

/-- A suffix of two texts is one of the second, or reaches into the first. -/
theorem suffix_append_cases {suffix front back : List α} (h : suffix <:+ front ++ back) :
    suffix <:+ back ∨ ∃ s, s <:+ front ∧ s ≠ [] ∧ suffix = s ++ back := by
  obtain ⟨before, hbefore⟩ := h
  rcases List.append_eq_append_iff.mp hbefore with ⟨mid, hfront, hsuffix⟩ | ⟨mid, hback, hsuffix⟩
  · by_cases hmid : mid = []
    · refine .inl ?_
      rw [hsuffix, hmid]
      exact List.suffix_rfl
    · exact .inr ⟨mid, ⟨before, hfront.symm⟩, hmid, hsuffix⟩
  · exact .inl ⟨mid, hsuffix.symm⟩

/-- **After the substitution no match is left** that did not begin where nothing was found. -/
theorem clean_scan (hmarker : Separates marker m m') (skip : ℕ)
    (h : ∀ suffix, suffix <:+ text → m suffix = none → m' suffix = none) :
    Clean m' (scan marker m skip text) := by
  induction text generalizing skip with
  | nil =>
      intro suffix hsuffix
      rw [scan, List.suffix_nil] at hsuffix
      rw [hsuffix]
      exact hmarker.nil
  | cons c text ih =>
      have hrest := fun skip => ih skip fun suffix hsuffix =>
        h suffix (hsuffix.trans (List.suffix_cons c text))
      cases skip with
      | succ skip =>
          rw [scan]
          exact hrest skip
      | zero =>
          cases hmatch : m (c :: text) with
          | some more =>
              rw [scan_match hmatch]
              intro suffix hsuffix
              rcases suffix_append_cases hsuffix with hback | ⟨s, hs, hne, rfl⟩
              · exact hrest more suffix hback
              · exact hmarker.inside s _ hs hne
          | none =>
              rw [scan_keep hmatch]
              intro suffix hsuffix
              rcases List.suffix_cons_iff.mp hsuffix with rfl | hback
              · have hkept := h _ List.suffix_rfl hmatch
                rcases scan_split marker m text with hsame | ⟨front, found, rest, htext, hfound, hscan⟩
                · rw [hsame]
                  exact hkept
                · rw [htext, ← List.cons_append] at hkept
                  rw [hscan, ← List.cons_append]
                  exact hmarker.before _ _ _ (List.cons_ne_nil c front) hfound hkept
              · exact hrest 0 suffix hback

theorem clean_substitute (hmarker : Separates marker m m) (text : List α) :
    Clean m (substitute marker m text) := clean_scan hmarker 0 fun _ _ h => h

theorem Clean.substitute (hmarker : Separates marker m m') (h : Clean m' text) :
    Clean m' (substitute marker m text) := clean_scan hmarker 0 fun suffix hsuffix _ =>
  h suffix hsuffix

end Redaction
