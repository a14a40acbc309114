import Mathlib.Data.String.Basic
import Windbreak.Core.OrderStatistics
import Windbreak.Evaluation.Metrics

/-!
# Observation windows

A window picks, out of the history of forecasts of each market, those that are scored.

* `resolveWindow` — the pick.
* **`selectLatest_ok`** — of sequenced forecasts it takes the latest of each market, by ticker.
* `IsLatest.unique` — where no two share a sequence, whatever order they came in.
-/

namespace Windbreak.Metrics

/-- Which forecasts of a market are scored. -/
inductive ObservationWindow where
  | firstPerMarket
  | latestBeforeClose
  | dailySnapshots
  | tradeTriggering
  deriving DecidableEq, Repr

/-- `HEADLINE_OBSERVATION_WINDOW` -/
def headlineObservationWindow : ObservationWindow := .latestBeforeClose

/-! ## The pick -/

/-- A forecast with its sequence, which a window of one per market needs. -/
def sequenced (record : FixtureForecast) : Except MetricError (ℤ × FixtureForecast) :=
  match record.createdSequence with
  | none => .error (.unsequenced record.forecastId)
  | some sequence => .ok (sequence, record)

/-- `max` or `min` by sequence; of equals the first is taken. -/
def further (wantMax : Bool) (a b : ℤ × FixtureForecast) : Bool :=
  if wantMax then b.1 < a.1 else a.1 < b.1

/-- `_pick_extreme` -/
def pickExtreme (records : List FixtureForecast) (wantMax : Bool) :
    Except MetricError FixtureForecast := do
  let keyed ← records.mapM sequenced
  match keyed with
  | [] => .error (.valueError "max() iterable argument is empty")
  | first :: rest => return (Extremes.best (further wantMax) first rest).2

/-- The tickers of some forecasts, in order. -/
def tickersOf (forecasts : List FixtureForecast) : List String :=
  (forecasts.map (·.marketTicker)).dedup.insertionSort (· ≤ ·)

/-- The forecasts of one market. -/
def ofMarket (forecasts : List FixtureForecast) (ticker : String) : List FixtureForecast :=
  forecasts.filter (·.marketTicker = ticker)

/-- `_select_per_market` -/
def selectPerMarket (forecasts : List FixtureForecast) (wantMax : Bool) :
    Except MetricError (List FixtureForecast) :=
  (tickersOf forecasts).mapM fun ticker => pickExtreme (ofMarket forecasts ticker) wantMax

/-- `resolve_window` -/
def resolveWindow (forecasts : List FixtureForecast) (window : ObservationWindow) :
    Except MetricError (List FixtureForecast) :=
  match window with
  | .dailySnapshots => .ok forecasts
  | .tradeTriggering => .ok (forecasts.filter (·.traded))
  | .firstPerMarket => selectPerMarket forecasts false
  | .latestBeforeClose => selectPerMarket forecasts true

/-! ## The latest of each market -/

/-- Every forecast has a sequence. -/
def Sequenced (forecasts : List FixtureForecast) : Prop :=
  ∀ forecast ∈ forecasts, ∃ sequence, forecast.createdSequence = some sequence

/-- A list of the latest forecasts of each market, by ticker. -/
structure IsLatest (forecasts selected : List FixtureForecast) : Prop where
  tickers : selected.map (·.marketTicker) = tickersOf forecasts
  mem : ∀ forecast ∈ selected, forecast ∈ forecasts
  latest : ∀ forecast ∈ selected, ∀ other ∈ forecasts,
    other.marketTicker = forecast.marketTicker →
      ∀ sequence created, other.createdSequence = some sequence →
        forecast.createdSequence = some created → sequence ≤ created

/-- No two forecasts of one market share a sequence. -/
def DistinctlySequenced (forecasts : List FixtureForecast) : Prop :=
  ∀ a ∈ forecasts, ∀ b ∈ forecasts, a.marketTicker = b.marketTicker →
    a.createdSequence = b.createdSequence → a = b

theorem sequenced_mapM {records : List FixtureForecast} (h : Sequenced records) :
    ∃ keyed, records.mapM sequenced = .ok keyed ∧ keyed.map Prod.snd = records ∧
      ∀ pair ∈ keyed, pair.2.createdSequence = some pair.1 := by
  induction records with
  | nil => exact ⟨[], rfl, rfl, fun _ hmem => absurd hmem List.not_mem_nil⟩
  | cons record rest ih =>
      obtain ⟨sequence, hsequence⟩ := h record List.mem_cons_self
      obtain ⟨keyed, hkeyed, hsnd, hcreated⟩ := ih fun f hf => h f (List.mem_cons_of_mem _ hf)
      have hrecord : sequenced record = .ok (sequence, record) := by
        unfold sequenced
        rw [hsequence]
      refine ⟨(sequence, record) :: keyed, ?_, ?_, ?_⟩
      · rw [List.mapM_cons, hrecord, hkeyed]
        rfl
      · rw [List.map_cons, hsnd]
      · intro pair hpair
        rcases List.mem_cons.mp hpair with rfl | hin
        · exact hsequence
        · exact hcreated pair hin

/-- The latest of a market's forecasts is one of them, and none comes later. -/
theorem pickLatest_ok {records : List FixtureForecast} (h : Sequenced records)
    (hne : records ≠ []) :
    ∃ chosen, pickExtreme records true = .ok chosen ∧ chosen ∈ records ∧
      ∀ other ∈ records, ∀ sequence created, other.createdSequence = some sequence →
        chosen.createdSequence = some created → sequence ≤ created := by
  obtain ⟨keyed, hkeyed, hsnd, hcreated⟩ := sequenced_mapM h
  cases keyed with
  | nil => exact absurd hsnd.symm hne
  | cons first rest =>
      have hmem := Extremes.best_mem (further true) first rest
      have hmost := Extremes.rank_le_best (further true) Prod.fst
        (fun a b => decide_eq_true_iff) first rest
      refine ⟨(Extremes.best (further true) first rest).2, ?_, ?_, ?_⟩
      · unfold pickExtreme
        rw [hkeyed]
        rfl
      · rw [← hsnd]
        exact List.mem_map_of_mem hmem
      · intro other hother sequence created hsequence hchosen
        rw [← hsnd] at hother
        obtain ⟨pair, hpair, rfl⟩ := List.mem_map.mp hother
        have hle := hmost pair hpair
        rw [hcreated pair hpair, Option.some.injEq] at hsequence
        rw [hcreated _ hmem, Option.some.injEq] at hchosen
        rwa [hsequence, hchosen] at hle

theorem mem_tickersOf {forecasts : List FixtureForecast} {ticker : String} :
    ticker ∈ tickersOf forecasts ↔ ∃ forecast ∈ forecasts, forecast.marketTicker = ticker := by
  rw [tickersOf, List.mem_insertionSort, List.mem_dedup, List.mem_map]

/-- The tickers are in order, each once. -/
theorem tickersOf_ordered (forecasts : List FixtureForecast) :
    (tickersOf forecasts).Pairwise (· < ·) := by
  have hle : (tickersOf forecasts).Pairwise (· ≤ ·) := List.pairwise_insertionSort _ _
  have hne : (tickersOf forecasts).Nodup :=
    (List.perm_insertionSort (· ≤ ·) _).nodup_iff.mpr (List.nodup_dedup _)
  exact (hle.and hne).imp fun h => lt_of_le_of_ne h.1 h.2

/-- **The window of the latest**: sequenced forecasts have one, and it is picked. -/
theorem selectLatest_ok {forecasts : List FixtureForecast} (h : Sequenced forecasts) :
    ∃ selected, resolveWindow forecasts .latestBeforeClose = .ok selected ∧
      IsLatest forecasts selected := by
  suffices hsome : ∀ tickers : List String,
      (∀ ticker ∈ tickers, ∃ forecast ∈ forecasts, forecast.marketTicker = ticker) →
      ∃ selected, (tickers.mapM fun ticker => pickExtreme (ofMarket forecasts ticker) true) =
          .ok selected ∧ selected.map (·.marketTicker) = tickers ∧
        (∀ forecast ∈ selected, forecast ∈ forecasts) ∧
        ∀ forecast ∈ selected, ∀ other ∈ forecasts, other.marketTicker = forecast.marketTicker →
          ∀ sequence created, other.createdSequence = some sequence →
            forecast.createdSequence = some created → sequence ≤ created by
    obtain ⟨selected, hok, htickers, hmem, hlatest⟩ :=
      hsome (tickersOf forecasts) fun ticker hticker => mem_tickersOf.mp hticker
    exact ⟨selected, hok, htickers, hmem, hlatest⟩
  intro tickers
  induction tickers with
  | nil =>
      intro _
      exact ⟨[], rfl, rfl, fun _ hmem => absurd hmem List.not_mem_nil,
        fun _ hmem => absurd hmem List.not_mem_nil⟩
  | cons ticker rest ih =>
      intro htickers
      obtain ⟨selected, hok, hmap, hmem, hlatest⟩ :=
        ih fun t ht => htickers t (List.mem_cons_of_mem _ ht)
      obtain ⟨some', hsome', hticker⟩ := htickers ticker List.mem_cons_self
      have hof : ∀ f, f ∈ ofMarket forecasts ticker ↔ f ∈ forecasts ∧ f.marketTicker = ticker := by
        intro f
        simp [ofMarket]
      have hsequenced : Sequenced (ofMarket forecasts ticker) := fun f hf => h f ((hof f).mp hf).1
      obtain ⟨chosen, hchosen, hin, hmost⟩ := pickLatest_ok hsequenced
        (List.ne_nil_of_mem ((hof some').mpr ⟨hsome', hticker⟩))
      refine ⟨chosen :: selected, ?_, ?_, ?_, ?_⟩
      · rw [List.mapM_cons, hchosen, hok]
        rfl
      · rw [List.map_cons, hmap, ((hof chosen).mp hin).2]
      · exact List.forall_mem_cons.mpr ⟨((hof chosen).mp hin).1, hmem⟩
      · refine List.forall_mem_cons.mpr ⟨fun other hother hsame => ?_, hlatest⟩
        exact hmost other ((hof other).mpr ⟨hother, hsame.trans ((hof chosen).mp hin).2⟩)

/-! ## The order of the forecasts -/

/-- Two lists with the same keys, whose entries the keys determine. -/
theorem eq_of_map_eq {α β : Type} {key : α → β} :
    ∀ {xs ys : List α}, xs.map key = ys.map key →
      (∀ a ∈ xs, ∀ b ∈ ys, key a = key b → a = b) → xs = ys
  | [], [], _, _ => rfl
  | a :: xs, b :: ys, h, hsame => by
      rw [List.map_cons, List.map_cons] at h
      obtain ⟨hkey, hrest⟩ := List.cons.inj h
      rw [hsame a List.mem_cons_self b List.mem_cons_self hkey, eq_of_map_eq hrest
        fun c hc d hd => hsame c (List.mem_cons_of_mem _ hc) d (List.mem_cons_of_mem _ hd)]

theorem tickersOf_congr {forecasts forecasts' : List FixtureForecast}
    (h : ∀ f, f ∈ forecasts ↔ f ∈ forecasts') : tickersOf forecasts = tickersOf forecasts' := by
  have hmem : ∀ t, t ∈ tickersOf forecasts ↔ t ∈ tickersOf forecasts' := fun t => by
    simp only [mem_tickersOf, h]
  have hperm : (tickersOf forecasts).Perm (tickersOf forecasts') :=
    (List.perm_ext_iff_of_nodup ((tickersOf_ordered _).imp fun hlt => hlt.ne)
      ((tickersOf_ordered _).imp fun hlt => hlt.ne)).mpr hmem
  exact hperm.eq_of_pairwise (fun a b _ _ hab hba => absurd hab hba.asymm) (tickersOf_ordered _)
    (tickersOf_ordered _)

/-- **The latest forecasts are determined** by which forecasts there are. -/
theorem IsLatest.unique {forecasts forecasts' selected selected' : List FixtureForecast}
    (hsame : ∀ f, f ∈ forecasts ↔ f ∈ forecasts') (hsequenced : Sequenced forecasts)
    (hdistinct : DistinctlySequenced forecasts) (h : IsLatest forecasts selected)
    (h' : IsLatest forecasts' selected') : selected = selected' := by
  refine eq_of_map_eq (h.tickers.trans ((tickersOf_congr hsame).trans h'.tickers.symm)) ?_
  intro a ha b hb hticker
  have hain := h.mem a ha
  have hbin := (hsame b).mpr (h'.mem b hb)
  obtain ⟨created, hcreated⟩ := hsequenced a hain
  obtain ⟨created', hcreated'⟩ := hsequenced b hbin
  have hle := h.latest a ha b hbin hticker.symm created' created hcreated' hcreated
  have hge := h'.latest b hb a ((hsame a).mp hain) hticker created created' hcreated hcreated'
  refine hdistinct a hain b hbin hticker ?_
  rw [hcreated, hcreated', le_antisymm hge hle]

end Windbreak.Metrics
