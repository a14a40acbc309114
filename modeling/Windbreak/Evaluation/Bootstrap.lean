import Mathlib.Algebra.Order.Ring.Rat
import Mathlib.Tactic.Linarith
import Windbreak.Core.Effects
import Windbreak.Core.OrderStatistics
import Windbreak.Core.Words
import Windbreak.Evaluation.Inputs
import Windbreak.Numeric.Rounding

/-!
# The clustered bootstrap

A confidence interval around the forecast skill: whole clusters of correlated markets are drawn with
replacement, and two order statistics of the resampled skills are the edges.

* `clusterTerms` — the terms of the scored forecasts, pooled by cluster; by
  `clusterTerms_relabelled` only which forecasts share a cluster counts.
* `replicateSkills` — the resampling; `replicateSkills_ok_iff` takes it apart into the clusters
  drawn and what is computed from them.
* `percentileIndices` — the ranks of the edges, with `percentileIndices_bounds` and
  `percentileIndices_nested`.
* **`brierSkillCi_wellFormed`** — when there is an interval, and what holds of it.
-/

/-! ## The resampling generator

`SplitMix64`: the state walks by an odd increment, and each word of the walk is mixed.

* **Mixing** — `mix_bijective`: two rounds and a last shift, each of them invertible.
* **Walking** — `after_state`: the states are the words of the walk; `nextUint64` draws them mixed.
* **Drawing below a bound** — `below` rejects the top partial block of the words;
  `below_unbiased`: it ends from every state, and over a period each residue comes equally often.
-/

namespace Windbreak.Bootstrap

open Words

/-- The generator, by its state. -/
structure SplitMix64 where
  state : BitVec 64

namespace SplitMix64

/-- `__init__`: the seed, modulo 2 ^ 64. -/
def seeded (seed : ℤ) : SplitMix64 := ⟨BitVec.ofInt 64 seed⟩

end SplitMix64

/-- `_GOLDEN_GAMMA` -/
def goldenGamma : BitVec 64 := 0x9E3779B97F4A7C15#64

/-- `_MIX_MULTIPLIER_1` -/
def mixMultiplier1 : BitVec 64 := 0xBF58476D1CE4E5B9#64

/-- `_MIX_MULTIPLIER_2` -/
def mixMultiplier2 : BitVec 64 := 0x94D049BB133111EB#64

/-- `_UINT64_RANGE` -/
def uint64Range : ℕ := 2 ^ 64

/-- The output of a state. -/
def mix (state : BitVec 64) : BitVec 64 :=
  let mixed := (state ^^^ (state >>> 30)) * mixMultiplier1
  let mixed := (mixed ^^^ (mixed >>> 27)) * mixMultiplier2
  mixed ^^^ (mixed >>> 31)

/-- `next_uint64` -/
def nextUint64 (g : SplitMix64) : BitVec 64 × SplitMix64 :=
  let state := g.state + goldenGamma
  (mix state, ⟨state⟩)

/-- `unbiased_limit`: the largest multiple of the bound that 64 bits hold. -/
def unbiasedLimit (bound : ℕ) : ℕ := uint64Range - uint64Range % bound

/-- `below`. The loop of the source has no count; a period of draws is enough for it
(`below_unbiased`). -/
def below (bound : ℕ) (g : SplitMix64) : Option (ℕ × SplitMix64) :=
  (firstBelow nextUint64 (unbiasedLimit bound) uint64Range g).map
    fun drawn => (drawn.1.toNat % bound, drawn.2)

/-! ## Mixing -/

theorem gamma_inverse : goldenGamma * 0xF1DE83E19937733D#64 = 1#64 := by decide

theorem multiplier1_inverse : mixMultiplier1 * 0x96DE1B173F119089#64 = 1#64 := by decide

theorem multiplier2_inverse : mixMultiplier2 * 0x319642B2D24D8EC3#64 = 1#64 := by decide

theorem mix_injective : Function.Injective mix := by
  intro x y h
  have hlast := xorShift_injective (by decide) h
  have hsecond := xorShift_injective (by decide) (mul_injective multiplier2_inverse hlast)
  exact xorShift_injective (by decide) (mul_injective multiplier1_inverse hsecond)

/-- **The output function** is a bijection of the words. -/
theorem mix_bijective : Function.Bijective mix :=
  ⟨mix_injective, surjective_of_injective mix_injective⟩

/-! ## Walking -/

/-- The state after some draws is a word of the walk. -/
theorem after_state (n : ℕ) (g : SplitMix64) :
    after nextUint64 n g = ⟨walk g.state goldenGamma n⟩ := by
  induction n generalizing g with
  | zero =>
      rw [walk_zero]
      rfl
  | succ n ih =>
      rw [after, ih, walk_succ]
      unfold walk nextUint64
      rw [BitVec.add_assoc, BitVec.add_assoc, BitVec.add_comm goldenGamma]

/-- The draw after some others is the next word of the walk, mixed. -/
theorem output_walk (n : ℕ) (g : SplitMix64) :
    output nextUint64 g n = mix (walk g.state goldenGamma (n + 1)) := by
  rw [output, after_state, walk_succ]
  rfl

/-- No state comes twice in a period. -/
theorem after_injOn (g : SplitMix64) :
    Set.InjOn (fun n => after nextUint64 n g) {n | n < 2 ^ 64} := by
  intro i hi j hj hij
  refine walk_injOn g.state gamma_inverse hi hj ?_
  have hstate := congrArg SplitMix64.state hij
  simp only [after_state] at hstate
  exact hstate

/-- No output comes twice in a period. -/
theorem output_injOn (g : SplitMix64) :
    Set.InjOn (output nextUint64 g) {n | n < 2 ^ 64} := by
  intro i hi j hj hij
  rw [output_walk, output_walk] at hij
  have hwords := mix_injective hij
  rw [walk_succ, walk_succ] at hwords
  exact walk_injOn g.state gamma_inverse hi hj (BitVec.add_left_inj goldenGamma |>.mp hwords)

/-! ## Drawing below a bound -/

/-- The word zero is below the limit of every bound up to the range. -/
theorem unbiasedLimit_pos {bound : ℕ} (h1 : 1 ≤ bound) (h2 : bound ≤ uint64Range) :
    0 < unbiasedLimit bound := by
  have hremainder := Nat.mod_lt uint64Range h1
  exact Nat.sub_pos_of_lt (Nat.lt_of_lt_of_le hremainder h2)

/-- **The loop of `below` ends**: some output of a period is the word zero. -/
theorem below_ends {bound : ℕ} (h1 : 1 ≤ bound) (h2 : bound ≤ uint64Range) (g : SplitMix64) :
    ∃ draw g', Draws nextUint64 (unbiasedLimit bound) g draw g' ∧
      below bound g = some (draw.toNat % bound, g') := by
  obtain ⟨n, hn, hzero⟩ := exists_word (output_injOn g) 0#64
  have hbelow : (output nextUint64 g n).toNat < unbiasedLimit bound := by
    rw [hzero]
    exact unbiasedLimit_pos h1 h2
  obtain ⟨⟨draw, g'⟩, hdrawn⟩ := Option.isSome_iff_exists.mp (firstBelow_isSome ⟨n, hn, hbelow⟩)
  refine ⟨draw, g', draws_of_firstBelow hdrawn, ?_⟩
  unfold below
  rw [show uint64Range = 2 ^ 64 from rfl, hdrawn]
  rfl

/-- The accepted draws of a period. -/
def accepted (bound : ℕ) (g : SplitMix64) : List (BitVec 64) :=
  ((List.range uint64Range).map (output nextUint64 g)).filter
    fun draw => draw.toNat < unbiasedLimit bound

/-- **The resampling generator is unbiased over its period.** -/
theorem below_unbiased (bound : ℕ) (h1 : 1 ≤ bound) (h2 : bound ≤ uint64Range) (g : SplitMix64) :
    Function.Bijective mix ∧
    (Set.InjOn (fun n => after nextUint64 n g) {n | n < uint64Range} ∧
      (∀ g' : SplitMix64, ∃ n < uint64Range, after nextUint64 n g = g') ∧
      after nextUint64 uint64Range g = g) ∧
    (∃ draw g', Draws nextUint64 (unbiasedLimit bound) g draw g' ∧
      below bound g = some (draw.toNat % bound, g') ∧ draw.toNat % bound < bound) ∧
    (∃ g', DrawsAll nextUint64 (unbiasedLimit bound) g (accepted bound g) g') ∧
    ∀ r < bound,
      ((accepted bound g).map fun draw => draw.toNat % bound).count r = uint64Range / bound := by
  refine ⟨mix_bijective, ⟨after_injOn g, ?_, ?_⟩, ?_, drawsAll_outputs uint64Range g, ?_⟩
  · intro g'
    obtain ⟨n, hn, hword⟩ := exists_word (walk_injOn g.state gamma_inverse) g'.state
    exact ⟨n, hn, by rw [after_state, hword]⟩
  · rw [after_state]
    exact congrArg SplitMix64.mk (walk_period g.state goldenGamma)
  · obtain ⟨draw, g', hdraws, hbelow⟩ := below_ends h1 h2 g
    exact ⟨draw, g', hdraws, hbelow, Nat.mod_lt _ h1⟩
  · intro r hr
    rw [accepted, count_outputs]
    exact card_residue (output_injOn g) hr

theorem below_unbiased_three :
    ((accepted 3 (.seeded 7)).map fun draw => draw.toNat % 3).count 2 = uint64Range / 3 :=
  (below_unbiased 3 (by decide) (by decide) (.seeded 7)).2.2.2.2 2 (by decide)

end Windbreak.Bootstrap

namespace Windbreak.Bootstrap

/-! ## Scored forecasts -/

/-- A forecast to score, with its correlation group. -/
structure GroupedForecast extends FixtureForecast where
  correlationGroupId : Option String

/-- What the scoring of one evaluation reads. -/
structure ScoringInputs where
  forecasts : List GroupedForecast
  resolutions : OrderedDict String ResolutionOutcome

/-- What ends a bootstrap without an interval; `drawsForever` is the loop of `below` that accepts no
word. -/
inductive BootstrapError where
  | confidence
  | noResolvedForecasts
  | skillUndefined
  | resampleUndefined
  | indexError
  | drawsForever
  deriving DecidableEq, Repr

/-- A resolved forecast, joined to the outcome of its market. -/
structure ScoredPair where
  probabilityPpm : ℤ
  outcomePpm : ℤ
  baselinePpm : ℤ
  marketTicker : String
  correlationGroupId : Option String

/-- `_scored_pair`: a yes is a certainty, and a pip is a hundred ppm. -/
def scoredPair (forecast : GroupedForecast) (outcome : ResolutionOutcome) : ScoredPair where
  probabilityPpm := forecast.probabilityPpm
  outcomePpm := if outcome = .yes then 1000000 else 0
  baselinePpm := forecast.baselineExecutablePricePips * 100
  marketTicker := forecast.marketTicker
  correlationGroupId := forecast.correlationGroupId

/-- `_scored_pairs`: the resolved forecasts, of which there has to be one. -/
def scoredPairs (inputs : ScoringInputs) : Except BootstrapError (List ScoredPair) :=
  let pairs := inputs.forecasts.filterMap fun forecast =>
    (inputs.resolutions.get? forecast.marketTicker).map (scoredPair forecast)
  if pairs.isEmpty then .error .noResolvedForecasts else .ok pairs

/-- `_forecast_term` -/
def forecastTerm (pair : ScoredPair) : ℤ := (pair.probabilityPpm - pair.outcomePpm) ^ 2

/-- `_baseline_term` -/
def baselineTerm (pair : ScoredPair) : ℤ := (pair.baselinePpm - pair.outcomePpm) ^ 2

/-- A resolved forecast's terms, and what its cluster is read from. -/
structure ForecastTerms where
  forecastTerm : ℤ
  baselineTerm : ℤ
  correlationGroupId : Option String
  marketTicker : String

/-- `resolved_forecast_terms` -/
def resolvedForecastTerms (inputs : ScoringInputs) :
    Except BootstrapError (List ForecastTerms) := do
  let pairs ← scoredPairs inputs
  return pairs.map fun pair =>
    ⟨forecastTerm pair, baselineTerm pair, pair.correlationGroupId, pair.marketTicker⟩

/-- `_skill_from_term_sums` -/
def skillFromTermSums (forecastSum baselineSum : ℤ) : Except BootstrapError ℤ :=
  if baselineSum = 0 then .error .skillUndefined
  else .ok (quotient ((baselineSum - forecastSum) * 1000000) baselineSum .understateEquity)

/-- `brier_skill` -/
def brierSkill (inputs : ScoringInputs) : Except BootstrapError ℤ := do
  let pairs ← scoredPairs inputs
  skillFromTermSums (pairs.map forecastTerm).sum (pairs.map baselineTerm).sum

/-! ## Clusters -/

/-- A cluster: a correlation group, or a market that is in none. -/
inductive ClusterKey where
  | group (id : String)
  | market (ticker : String)
  deriving DecidableEq, Repr

/-- `_cluster_key` -/
def clusterKey (term : ForecastTerms) : ClusterKey :=
  match term.correlationGroupId with
  | some id => .group id
  | none => .market term.marketTicker

/-- The pooled terms of a cluster. -/
structure ClusterTerms where
  forecastSum : ℤ
  baselineSum : ℤ
  deriving DecidableEq, Repr

/-- The terms of two clusters together. -/
def ClusterTerms.add (a b : ClusterTerms) : ClusterTerms :=
  ⟨a.forecastSum + b.forecastSum, a.baselineSum + b.baselineSum⟩

/-- A term pooled into its cluster, which starts from nothing where it first appears. -/
def pool (clusters : OrderedDict ClusterKey ClusterTerms) (key : ClusterKey)
    (terms : ClusterTerms) : OrderedDict ClusterKey ClusterTerms :=
  clusters.set key (((clusters.get? key).getD ⟨0, 0⟩).add terms)

/-- The clusters by key, in the order in which they first appear. -/
def clustersOf (terms : List ForecastTerms) : OrderedDict ClusterKey ClusterTerms :=
  terms.foldl (fun clusters term =>
    pool clusters (clusterKey term) ⟨term.forecastTerm, term.baselineTerm⟩) .empty

/-- `_cluster_terms` -/
def clusterTerms (terms : List ForecastTerms) : List ClusterTerms := (clustersOf terms).values

/-! ## Resampling -/

/-- A part of the bootstrap that draws. -/
abbrev BootstrapM := EStateM BootstrapError SplitMix64

/-- A draw below a bound. -/
def draw (bound : ℕ) : BootstrapM ℕ := fun g =>
  match below bound g with
  | some (index, g') => .ok index g'
  | none => .error .drawsForever g

/-- The loop of `_replicate_skill`: so many clusters drawn, with their terms summed up. -/
def resampleSums (clusters : List ClusterTerms) : ℕ → ClusterTerms → BootstrapM ClusterTerms
  | 0, sums => return sums
  | count + 1, sums => do
    let index ← draw clusters.length
    resampleSums clusters count (sums.add (clusters.getD index ⟨0, 0⟩))

/-- The skill of pooled terms. -/
def ClusterTerms.skill (sums : ClusterTerms) : ℚ :=
  ((sums.baselineSum - sums.forecastSum : ℤ) : ℚ) / (sums.baselineSum : ℚ)

/-- `_replicate_skill` -/
def replicateSkill (clusters : List ClusterTerms) : BootstrapM ℚ := do
  let sums ← resampleSums clusters clusters.length ⟨0, 0⟩
  if sums.baselineSum = 0 then throw .resampleUndefined else return sums.skill

/-- So many replicates, in draw order. -/
def replicateSkills (clusters : List ClusterTerms) : ℕ → BootstrapM (List ℚ)
  | 0 => return []
  | replicates + 1 => do
    let skill ← replicateSkill clusters
    let skills ← replicateSkills clusters replicates
    return skill :: skills

/-- The raw output of a bootstrap. -/
structure BootstrapSample where
  replicateSkills : List ℚ
  clusterCount : ℕ
  resolvedCount : ℕ

/-- `run_clustered_bootstrap` -/
def runClusteredBootstrap (inputs : ScoringInputs) (seed replicates : ℤ) :
    Except BootstrapError BootstrapSample := do
  let terms ← resolvedForecastTerms inputs
  let clusters := clusterTerms terms
  match (replicateSkills clusters replicates.toNat).run (.seeded seed) with
  | .ok skills _ => return ⟨skills, clusters.length, terms.length⟩
  | .error e _ => throw e

/-! ## The interval -/

/-- `validate_confidence_ppm` -/
def validateConfidencePpm (confidencePpm : ℤ) : Except BootstrapError Unit :=
  if 0 < confidencePpm ∧ confidencePpm < 1000000 then .ok () else .error .confidence

/-- `_percentile_indices` -/
def percentileIndices (replicates confidencePpm : ℤ) : ℤ × ℤ :=
  let alphaHalfPpm := (1000000 - confidencePpm) / 2
  let lowerIndex := quotient (replicates * alphaHalfPpm) 1000000 .understateEquity
  (lowerIndex, replicates - 1 - lowerIndex)

/-- The item at an index; neither index is negative where there is a replicate. -/
def itemAt (ordered : List ℚ) (index : ℤ) : Except BootstrapError ℚ :=
  if 0 ≤ index then
    match ordered[index.toNat]? with
    | some skill => .ok skill
    | none => .error .indexError
  else .error .indexError

/-- `_skill_to_ppm` -/
def skillToPpm (skill : ℚ) (rounding : RoundingDirection) : ℤ :=
  quotient (skill.num * 1000000) skill.den rounding

/-- The interval and what it was computed with. -/
structure ClusteredCiResult where
  pointEstimatePpm : ℤ
  ciLowPpm : ℤ
  ciHighPpm : ℤ
  ciWidth : ℤ
  effectiveN : ℕ
  replicates : ℤ
  seed : ℤ
  confidencePpm : ℤ
  deriving DecidableEq, Repr

/-- `brier_skill_ci` -/
def brierSkillCi (inputs : ScoringInputs) (confidencePpm seed replicates : ℤ) :
    Except BootstrapError ClusteredCiResult := do
  validateConfidencePpm confidencePpm
  let pointEstimatePpm ← brierSkill inputs
  let sample ← runClusteredBootstrap inputs seed replicates
  let ordered := OrderStatistics.ranked sample.replicateSkills
  let indices := percentileIndices replicates confidencePpm
  let lowest ← itemAt ordered indices.1
  let highest ← itemAt ordered indices.2
  let ciLowPpm := skillToPpm lowest .understateEquity
  let ciHighPpm := skillToPpm highest .overstateCost
  return { pointEstimatePpm, ciLowPpm, ciHighPpm, ciWidth := ciHighPpm - ciLowPpm,
           effectiveN := sample.clusterCount, replicates, seed, confidencePpm }

/-! ## What pooling keeps -/

theorem mem_keys_pool {clusters : OrderedDict ClusterKey ClusterTerms} {key other : ClusterKey}
    {terms : ClusterTerms} :
    other ∈ (pool clusters key terms).keys ↔ other = key ∨ other ∈ clusters.keys :=
  OrderedDict.mem_keys_set

/-- The clusters are those of the terms. -/
theorem mem_keys_clustersOf {terms : List ForecastTerms} {key : ClusterKey} :
    key ∈ (clustersOf terms).keys ↔ key ∈ terms.map clusterKey := by
  have hfold : ∀ clusters : OrderedDict ClusterKey ClusterTerms,
      key ∈ (terms.foldl (fun clusters term => pool clusters (clusterKey term)
        ⟨term.forecastTerm, term.baselineTerm⟩) clusters).keys ↔
      key ∈ terms.map clusterKey ∨ key ∈ clusters.keys := by
    induction terms with
    | nil => simp
    | cons term terms ih =>
        intro clusters
        rw [List.foldl_cons, ih, mem_keys_pool, List.map_cons, List.mem_cons, or_assoc,
          or_left_comm]
  rw [clustersOf, hfold]
  simp

/-- **There are as many clusters as different keys.** -/
theorem length_clusterTerms (terms : List ForecastTerms) :
    (clusterTerms terms).length = (terms.map clusterKey).toFinset.card := by
  have hkeys : (clustersOf terms).keys.toFinset = (terms.map clusterKey).toFinset := by
    ext key
    rw [List.mem_toFinset, List.mem_toFinset, mem_keys_clustersOf]
  rw [← hkeys, List.toFinset_card_of_nodup (clustersOf terms).keys_nodup, clusterTerms,
    OrderedDict.values, OrderedDict.keys, List.length_map, List.length_map]

/-- A cluster of squares has no negative baseline. -/
theorem clusterTerms_nonneg {terms : List ForecastTerms}
    (h : ∀ term ∈ terms, 0 ≤ term.baselineTerm) :
    ∀ cluster ∈ clusterTerms terms, 0 ≤ cluster.baselineSum := by
  have hfold : ∀ clusters : OrderedDict ClusterKey ClusterTerms,
      (∀ item ∈ clusters.items, 0 ≤ item.2.baselineSum) →
      ∀ item ∈ (terms.foldl (fun clusters term => pool clusters (clusterKey term)
        ⟨term.forecastTerm, term.baselineTerm⟩) clusters).items, 0 ≤ item.2.baselineSum := by
    induction terms with
    | nil => exact fun clusters hclusters => hclusters
    | cons term terms ih =>
        obtain ⟨hterm, hterms⟩ := List.forall_mem_cons.mp h
        intro clusters hclusters
        refine ih hterms _ fun item hitem => ?_
        rcases OrderedDict.mem_setItems hitem with rfl | hold
        · cases hfound : clusters.get? (clusterKey term) with
          | none =>
              change 0 ≤ (0 : ℤ) + term.baselineTerm
              omega
          | some found =>
              have hfirst := hclusters _ (OrderedDict.mem_items_iff.mpr hfound)
              change 0 ≤ found.baselineSum + term.baselineTerm
              dsimp only at hfirst
              omega
        · exact hclusters item hold
  intro cluster hcluster
  obtain ⟨item, hitem, rfl⟩ := List.mem_map.mp hcluster
  exact hfold .empty (fun item hitem => absurd hitem List.not_mem_nil) item hitem

/-- Terms with their clusters under other names. -/
def Relabelled (name : ClusterKey → ClusterKey) (terms terms' : List ForecastTerms) : Prop :=
  List.Forall₂ (fun term term' => clusterKey term' = name (clusterKey term) ∧
    term'.forecastTerm = term.forecastTerm ∧ term'.baselineTerm = term.baselineTerm) terms terms'

theorem Relabelled.sums {name : ClusterKey → ClusterKey} {terms terms' : List ForecastTerms}
    (h : Relabelled name terms terms') :
    terms'.map (·.forecastTerm) = terms.map (·.forecastTerm) ∧
      terms'.map (·.baselineTerm) = terms.map (·.baselineTerm) := by
  induction h with
  | nil => exact ⟨rfl, rfl⟩
  | cons hterm _ ih =>
      simp only [List.map_cons, hterm.2.1, hterm.2.2, ih.1, ih.2]
      exact ⟨trivial, trivial⟩

/-- A term pooled under another name. -/
theorem pool_renamed {name : ClusterKey → ClusterKey}
    {clusters clusters' : OrderedDict ClusterKey ClusterTerms} {key : ClusterKey}
    {terms : ClusterTerms} (hitems : clusters'.items = clusters.items.map fun p => (name p.1, p.2))
    (hname : ∀ other ∈ clusters.keys, name other = name key → other = key) :
    (pool clusters' (name key) terms).items =
      (pool clusters key terms).items.map fun p => (name p.1, p.2) := by
  have hkeys : ∀ p ∈ clusters.items, name p.1 = name key → p.1 = key :=
    fun p hp => hname p.1 (List.mem_map_of_mem hp)
  have hget : clusters'.get? (name key) = clusters.get? key := by
    rw [OrderedDict.get?, hitems, OrderedDict.lookup_renamed hkeys]
    rfl
  rw [pool, pool, hget, OrderedDict.set, OrderedDict.set]
  dsimp only
  rw [hitems, OrderedDict.setItems_renamed _ hkeys]

/-- **Only which terms share a cluster counts.** -/
theorem clusterTerms_relabelled {name : ClusterKey → ClusterKey} {terms terms' : List ForecastTerms}
    (h : Relabelled name terms terms')
    (hname : Set.InjOn name {key | key ∈ terms.map clusterKey}) :
    clusterTerms terms' = clusterTerms terms := by
  have hfold : ∀ clusters clusters' : OrderedDict ClusterKey ClusterTerms,
      Set.InjOn name {key | key ∈ clusters.keys ∨ key ∈ terms.map clusterKey} →
      clusters'.items = clusters.items.map (fun p => (name p.1, p.2)) →
      (terms'.foldl (fun clusters term => pool clusters (clusterKey term)
        ⟨term.forecastTerm, term.baselineTerm⟩) clusters').values =
      (terms.foldl (fun clusters term => pool clusters (clusterKey term)
        ⟨term.forecastTerm, term.baselineTerm⟩) clusters).values := by
    clear hname
    induction h with
    | nil =>
        intro clusters clusters' _ hitems
        rw [List.foldl_nil, List.foldl_nil, OrderedDict.values, hitems, List.map_map]
        rfl
    | @cons term term' terms terms' hterm _ ih =>
        intro clusters clusters' hname hitems
        obtain ⟨hkey, hforecast, hbaseline⟩ := hterm
        rw [List.foldl_cons, List.foldl_cons, hkey, hforecast, hbaseline]
        refine ih _ _ (hname.mono ?_) (pool_renamed hitems ?_)
        · rintro key (hkey | hkey)
          · rcases mem_keys_pool.mp hkey with rfl | hold
            · exact .inr (.head _)
            · exact .inl hold
          · exact .inr (.tail _ hkey)
        · exact fun other hother hsame => hname (.inl hother) (.inr (.head _)) hsame
  refine hfold .empty .empty (hname.mono ?_) rfl
  rintro key (hkey | hkey)
  · exact absurd hkey List.not_mem_nil
  · exact hkey

/-! ## The edges -/

/-- **The ranks of the edges** are ranks, the lower no higher than the upper. -/
theorem percentileIndices_bounds {replicates confidencePpm : ℤ} (hreplicates : 1 ≤ replicates)
    (hconfidence : 0 < confidencePpm) (hless : confidencePpm < 1000000) :
    0 ≤ (percentileIndices replicates confidencePpm).1 ∧
      (percentileIndices replicates confidencePpm).1 ≤
        (percentileIndices replicates confidencePpm).2 ∧
      (percentileIndices replicates confidencePpm).2 < replicates := by
  have htail : 0 ≤ (1000000 - confidencePpm) / 2 ∧ (1000000 - confidencePpm) / 2 ≤ 499999 := by
    omega
  unfold percentileIndices
  dsimp only
  generalize (1000000 - confidencePpm) / 2 = alphaHalfPpm at htail
  rw [quotient_understate (by decide)]
  have hmass : 0 ≤ replicates * alphaHalfPpm := Int.mul_nonneg (by omega) htail.1
  have hhalf : replicates * alphaHalfPpm ≤ replicates * 499999 :=
    Int.mul_le_mul_of_nonneg_left htail.2 (by omega)
  omega

/-- **A higher confidence has ranks further out.** -/
theorem percentileIndices_nested {replicates confidencePpm higher : ℤ}
    (hreplicates : 1 ≤ replicates) (hle : confidencePpm ≤ higher) :
    (percentileIndices replicates higher).1 ≤ (percentileIndices replicates confidencePpm).1 ∧
      (percentileIndices replicates confidencePpm).2 ≤ (percentileIndices replicates higher).2 := by
  unfold percentileIndices
  dsimp only
  have htail : (1000000 - higher) / 2 ≤ (1000000 - confidencePpm) / 2 := by omega
  have hmass := Int.mul_le_mul_of_nonneg_left htail (show 0 ≤ replicates by omega)
  rw [quotient_understate (by decide), quotient_understate (by decide)]
  omega

/-- A skill in ppm, over its own denominator. -/
theorem ppm_mul_den (skill : ℚ) :
    skill * 1000000 * (skill.den : ℚ) = ((skill.num * 1000000 : ℤ) : ℚ) := by
  rw [mul_right_comm, Rat.mul_den_eq_num]
  norm_cast

theorem le_skillToPpm_iff {skill : ℚ} {k : ℤ} :
    k ≤ skillToPpm skill .understateEquity ↔ (k : ℚ) ≤ skill * 1000000 := by
  have hden : (0 : ℤ) < skill.den := Int.natCast_pos.mpr skill.den_pos
  have hden' : (0 : ℚ) < skill.den := Nat.cast_pos.mpr skill.den_pos
  rw [skillToPpm, le_quotient_understate_iff hden, ← mul_le_mul_iff_left₀ hden', ppm_mul_den]
  norm_cast

theorem skillToPpm_le_iff {skill : ℚ} {k : ℤ} :
    skillToPpm skill .overstateCost ≤ k ↔ skill * 1000000 ≤ (k : ℚ) := by
  have hden : (0 : ℤ) < skill.den := Int.natCast_pos.mpr skill.den_pos
  have hden' : (0 : ℚ) < skill.den := Nat.cast_pos.mpr skill.den_pos
  rw [skillToPpm, quotient_overstate_le_iff hden, ← mul_le_mul_iff_left₀ hden', ppm_mul_den]
  norm_cast

/-- The edges of two skills stand as the skills do. -/
theorem skillToPpm_edges {low high : ℚ} (h : low ≤ high) :
    skillToPpm low .understateEquity ≤ skillToPpm high .overstateCost := by
  have hlow := le_skillToPpm_iff.mp (le_refl (skillToPpm low .understateEquity))
  have hhigh := skillToPpm_le_iff.mp (le_refl (skillToPpm high .overstateCost))
  have hmiddle : low * 1000000 ≤ high * 1000000 := by linarith
  exact_mod_cast hlow.trans (hmiddle.trans hhigh)

/-- Lower edges stand as their skills do. -/
theorem skillToPpm_low_mono {a b : ℚ} (h : a ≤ b) :
    skillToPpm a .understateEquity ≤ skillToPpm b .understateEquity := by
  rw [le_skillToPpm_iff]
  have ha := le_skillToPpm_iff.mp (le_refl (skillToPpm a .understateEquity))
  linarith

/-- Upper edges stand as their skills do. -/
theorem skillToPpm_high_mono {a b : ℚ} (h : a ≤ b) :
    skillToPpm a .overstateCost ≤ skillToPpm b .overstateCost := by
  rw [skillToPpm_le_iff]
  have hb := skillToPpm_le_iff.mp (le_refl (skillToPpm b .overstateCost))
  linarith

theorem itemAt_ok_iff {xs : List ℚ} {i : ℤ} {a : ℚ} :
    itemAt xs i = .ok a ↔ 0 ≤ i ∧ xs[i.toNat]? = some a := by
  rw [itemAt]
  by_cases hi : 0 ≤ i
  · rw [if_pos hi]
    cases hitem : xs[i.toNat]? with
    | none => simp
    | some b => simp [hi]
  · rw [if_neg hi]
    simp [hi]

/-- There is an item at every index below the length. -/
theorem itemAt_of_lt {xs : List ℚ} {i : ℤ} (h : 0 ≤ i) (hlt : i < xs.length) :
    ∃ a, itemAt xs i = .ok a :=
  ⟨_, itemAt_ok_iff.mpr ⟨h, List.getElem?_eq_getElem (show i.toNat < xs.length by omega)⟩⟩

/-- The items of a ranked list stand as their indices do. -/
theorem itemAt_mono {xs : List ℚ} {i j : ℤ} {a b : ℚ} (hij : i ≤ j)
    (ha : itemAt (OrderStatistics.ranked xs) i = .ok a)
    (hb : itemAt (OrderStatistics.ranked xs) j = .ok b) : a ≤ b := by
  obtain ⟨-, ha⟩ := itemAt_ok_iff.mp ha
  obtain ⟨-, hb⟩ := itemAt_ok_iff.mp hb
  obtain ⟨hi, rfl⟩ := List.getElem?_eq_some_iff.mp ha
  obtain ⟨hj, rfl⟩ := List.getElem?_eq_some_iff.mp hb
  have hsorted : (OrderStatistics.ranked xs).SortedLE :=
    List.sortedLE_iff_pairwise.mpr (OrderStatistics.pairwise_ranked xs)
  exact hsorted.getElem_le_getElem_of_le (Int.toNat_le_toNat hij)

/-! ## The draws -/

/-- So many draws. -/
def drawIndices (bound : ℕ) : ℕ → BootstrapM (List ℕ)
  | 0 => return []
  | count + 1 => do
    let index ← draw bound
    let indices ← drawIndices bound count
    return index :: indices

/-- So many resamples, of as many draws as there are clusters. -/
def drawResamples (bound : ℕ) : ℕ → BootstrapM (List (List ℕ))
  | 0 => return []
  | replicates + 1 => do
    let resample ← drawIndices bound bound
    let resamples ← drawResamples bound replicates
    return resample :: resamples

/-- The terms of the clusters drawn. -/
def pooledFrom (clusters : List ClusterTerms) (sums : ClusterTerms) (indices : List ℕ) :
    ClusterTerms :=
  indices.foldl (fun sums index => sums.add (clusters.getD index ⟨0, 0⟩)) sums

/-- What is summed up is read off the draws. -/
theorem resampleSums_eq (clusters : List ClusterTerms) (count : ℕ) (sums : ClusterTerms) :
    resampleSums clusters count sums =
      pooledFrom clusters sums <$> drawIndices clusters.length count := by
  induction count generalizing sums with
  | zero => rfl
  | succ count ih =>
      rw [resampleSums, drawIndices, map_bind]
      refine bind_congr fun index => ?_
      rw [ih, map_bind, map_eq_pure_bind]
      refine bind_congr fun indices => ?_
      rw [map_pure]
      rfl

/-- A replicate returns exactly when its resample is drawn and has a baseline that made an error. -/
theorem replicateSkill_ok_iff {clusters : List ClusterTerms} {g g' : SplitMix64} {skill : ℚ} :
    (replicateSkill clusters).run g = .ok skill g' ↔
      ∃ resample, (drawIndices clusters.length clusters.length).run g = .ok resample g' ∧
        (pooledFrom clusters ⟨0, 0⟩ resample).baselineSum ≠ 0 ∧
        skill = (pooledFrom clusters ⟨0, 0⟩ resample).skill := by
  rw [replicateSkill, resampleSums_eq, bind_map_left, Effects.run_bind_ok]
  refine exists_congr fun resample => ?_
  constructor
  · rintro ⟨t, hdrawn, hskill⟩
    by_cases hzero : (pooledFrom clusters ⟨0, 0⟩ resample).baselineSum = 0
    · rw [if_pos hzero] at hskill
      cases hskill
    · rw [if_neg hzero] at hskill
      cases hskill
      exact ⟨hdrawn, hzero, rfl⟩
  · rintro ⟨hdrawn, hzero, rfl⟩
    refine ⟨g', hdrawn, ?_⟩
    rw [if_neg hzero]
    rfl

/-- **The replicates**, taken apart: the resamples drawn, none of them without a baseline's error,
and their skills. -/
theorem replicateSkills_ok_iff {clusters : List ClusterTerms} {replicates : ℕ} {g g' : SplitMix64}
    {skills : List ℚ} :
    (replicateSkills clusters replicates).run g = .ok skills g' ↔
      ∃ resamples, (drawResamples clusters.length replicates).run g = .ok resamples g' ∧
        (∀ resample ∈ resamples, (pooledFrom clusters ⟨0, 0⟩ resample).baselineSum ≠ 0) ∧
        skills = resamples.map fun resample => (pooledFrom clusters ⟨0, 0⟩ resample).skill := by
  induction replicates generalizing g skills with
  | zero =>
      constructor
      · rintro ⟨⟩
        exact ⟨[], rfl, fun _ h => absurd h List.not_mem_nil, rfl⟩
      · rintro ⟨resamples, hdrawn, -, rfl⟩
        cases hdrawn
        rfl
  | succ replicates ih =>
      rw [replicateSkills, drawResamples]
      constructor
      · intro h
        obtain ⟨skill, t, hskill, h⟩ := Effects.run_bind_ok.mp h
        obtain ⟨skills', t', hskills, h⟩ := Effects.run_bind_ok.mp h
        cases h
        obtain ⟨resample, hresample, hzero, rfl⟩ := replicateSkill_ok_iff.mp hskill
        obtain ⟨resamples, hresamples, hzeros, rfl⟩ := ih.mp hskills
        refine ⟨resample :: resamples, ?_, List.forall_mem_cons.mpr ⟨hzero, hzeros⟩, rfl⟩
        exact Effects.run_bind_ok.mpr ⟨resample, t, hresample,
          Effects.run_bind_ok.mpr ⟨resamples, g', hresamples, rfl⟩⟩
      · rintro ⟨drawn, hdrawn, hzeros, rfl⟩
        obtain ⟨resample, t, hresample, hdrawn⟩ := Effects.run_bind_ok.mp hdrawn
        obtain ⟨resamples, t', hresamples, hdrawn⟩ := Effects.run_bind_ok.mp hdrawn
        cases hdrawn
        obtain ⟨hzero, hzeros⟩ := List.forall_mem_cons.mp hzeros
        exact Effects.run_bind_ok.mpr ⟨_, t, replicateSkill_ok_iff.mpr ⟨resample, hresample, hzero,
          rfl⟩, Effects.run_bind_ok.mpr ⟨_, g', ih.mpr ⟨resamples, hresamples, hzeros, rfl⟩, rfl⟩⟩

theorem length_drawResamples {bound replicates : ℕ} {g g' : SplitMix64} {resamples : List (List ℕ)}
    (h : (drawResamples bound replicates).run g = .ok resamples g') :
    resamples.length = replicates := by
  induction replicates generalizing g resamples with
  | zero =>
      cases h
      rfl
  | succ replicates ih =>
      obtain ⟨resample, t, -, h⟩ := Effects.run_bind_ok.mp h
      obtain ⟨rest, t', hrest, h⟩ := Effects.run_bind_ok.mp h
      cases h
      rw [List.length_cons, ih hrest]

/-- A draw below a bound of words is made. -/
theorem draw_ok {bound : ℕ} (h1 : 1 ≤ bound) (h2 : bound ≤ uint64Range) (g : SplitMix64) :
    ∃ index g', (draw bound).run g = .ok index g' := by
  obtain ⟨word, g', -, hbelow⟩ := below_ends h1 h2 g
  refine ⟨word.toNat % bound, g', ?_⟩
  change draw bound g = _
  rw [draw, hbelow]

/-- No word is accepted for a bound beyond them. -/
theorem draw_forever {bound : ℕ} (h : uint64Range < bound) (g : SplitMix64) :
    (draw bound).run g = .error .drawsForever g := by
  have hlimit : unbiasedLimit bound = 0 := by
    rw [unbiasedLimit, Nat.mod_eq_of_lt h, Nat.sub_self]
  have hbelow : below bound g = none := by
    rw [below, hlimit, Words.firstBelow_zero]
    rfl
  change draw bound g = _
  rw [draw, hbelow]

theorem drawIndices_ok {bound : ℕ} (h1 : 1 ≤ bound) (h2 : bound ≤ uint64Range) (count : ℕ)
    (g : SplitMix64) : ∃ indices g', (drawIndices bound count).run g = .ok indices g' := by
  induction count generalizing g with
  | zero => exact ⟨[], g, rfl⟩
  | succ count ih =>
      obtain ⟨index, t, hindex⟩ := draw_ok h1 h2 g
      obtain ⟨indices, g', hindices⟩ := ih t
      exact ⟨index :: indices, g', Effects.run_bind_ok.mpr ⟨index, t, hindex,
        Effects.run_bind_ok.mpr ⟨indices, g', hindices, rfl⟩⟩⟩

/-- **The resamples are drawn** exactly when the clusters are no more than the words. -/
theorem drawResamples_ok_iff {bound replicates : ℕ} (hbound : 1 ≤ bound)
    (hreplicates : 1 ≤ replicates) (g : SplitMix64) :
    (∃ resamples g', (drawResamples bound replicates).run g = .ok resamples g') ↔
      bound ≤ uint64Range := by
  constructor
  · rintro ⟨resamples, g', h⟩
    by_contra hbeyond
    obtain ⟨replicates, rfl⟩ := Nat.exists_eq_succ_of_ne_zero (by omega : replicates ≠ 0)
    obtain ⟨bound, rfl⟩ := Nat.exists_eq_succ_of_ne_zero (by omega : bound ≠ 0)
    rw [drawResamples, drawIndices] at h
    obtain ⟨_, _, h, -⟩ := Effects.run_bind_ok.mp h
    obtain ⟨_, _, h, -⟩ := Effects.run_bind_ok.mp h
    rw [draw_forever (by omega)] at h
    cases h
  · intro h2
    clear hreplicates
    induction replicates generalizing g with
    | zero => exact ⟨[], g, rfl⟩
    | succ replicates ih =>
        obtain ⟨resample, t, hresample⟩ := drawIndices_ok hbound h2 bound g
        obtain ⟨resamples, g', hresamples⟩ := ih t
        exact ⟨resample :: resamples, g', Effects.run_bind_ok.mpr ⟨resample, t, hresample,
          Effects.run_bind_ok.mpr ⟨resamples, g', hresamples, rfl⟩⟩⟩

/-! ## The interval -/

theorem resolvedForecastTerms_ok {inputs : ScoringInputs} {terms : List ForecastTerms}
    (h : resolvedForecastTerms inputs = .ok terms) :
    ∃ pairs, scoredPairs inputs = .ok pairs ∧ terms = pairs.map fun pair =>
      ⟨forecastTerm pair, baselineTerm pair, pair.correlationGroupId, pair.marketTicker⟩ := by
  obtain ⟨pairs, hpairs, h⟩ := Effects.except_bind_ok.mp h
  cases h
  exact ⟨pairs, hpairs, rfl⟩

/-- The point skill is read off the terms, and there are terms where there is one. -/
theorem brierSkill_eq {inputs : ScoringInputs} {terms : List ForecastTerms}
    (h : resolvedForecastTerms inputs = .ok terms) :
    brierSkill inputs =
      skillFromTermSums (terms.map (·.forecastTerm)).sum (terms.map (·.baselineTerm)).sum := by
  obtain ⟨pairs, hpairs, rfl⟩ := resolvedForecastTerms_ok h
  rw [brierSkill, hpairs, List.map_map, List.map_map]
  rfl

theorem terms_of_brierSkill {inputs : ScoringInputs} {point : ℤ}
    (h : brierSkill inputs = .ok point) :
    ∃ terms, resolvedForecastTerms inputs = .ok terms ∧ 1 ≤ (clusterTerms terms).length := by
  obtain ⟨pairs, hpairs, -⟩ := Effects.except_bind_ok.mp h
  refine ⟨_, Effects.except_bind_ok.mpr ⟨pairs, hpairs, rfl⟩, ?_⟩
  rw [length_clusterTerms, Nat.one_le_iff_ne_zero, Ne, Finset.card_eq_zero,
    List.toFinset_eq_empty_iff, List.map_eq_nil_iff, List.map_eq_nil_iff]
  rintro rfl
  rw [scoredPairs] at hpairs
  split at hpairs
  · cases hpairs
  · rename_i hsome
    rw [Except.ok.injEq] at hpairs
    rw [hpairs] at hsome
    exact hsome rfl

theorem baselineTerm_nonneg {inputs : ScoringInputs} {terms : List ForecastTerms}
    (h : resolvedForecastTerms inputs = .ok terms) : ∀ term ∈ terms, 0 ≤ term.baselineTerm := by
  obtain ⟨pairs, -, rfl⟩ := resolvedForecastTerms_ok h
  intro term hterm
  obtain ⟨pair, -, rfl⟩ := List.mem_map.mp hterm
  exact sq_nonneg _

/-- The clusters that a seed draws, resample by resample. -/
def resamplesDrawn (seed : ℤ) (bound replicates : ℕ) : List (List ℕ) :=
  match (drawResamples bound replicates).run (.seeded seed) with
  | .ok resamples _ => resamples
  | .error _ _ => []

theorem resamplesDrawn_of_ok {seed : ℤ} {bound replicates : ℕ} {resamples : List (List ℕ)}
    {g : SplitMix64} (h : (drawResamples bound replicates).run (.seeded seed) = .ok resamples g) :
    resamplesDrawn seed bound replicates = resamples := by
  rw [resamplesDrawn, h]

/-- Every resample is drawn, and has a cluster whose baseline made an error. -/
def Resampled (clusters : List ClusterTerms) (seed replicates : ℤ) : Prop :=
  clusters.length ≤ uint64Range ∧
    ∀ resample ∈ resamplesDrawn seed clusters.length replicates.toNat,
      ∃ index ∈ resample, (clusters.getD index ⟨0, 0⟩).baselineSum ≠ 0

/-- Baselines without a sign cancel nothing. -/
theorem pooledFrom_baseline {clusters : List ClusterTerms}
    (hclusters : ∀ cluster ∈ clusters, 0 ≤ cluster.baselineSum) (resample : List ℕ) :
    (pooledFrom clusters ⟨0, 0⟩ resample).baselineSum ≠ 0 ↔
      ∃ index ∈ resample, (clusters.getD index ⟨0, 0⟩).baselineSum ≠ 0 := by
  have hdrawn : ∀ index, 0 ≤ (clusters.getD index ⟨0, 0⟩).baselineSum := by
    intro index
    rw [List.getD_eq_getElem?_getD]
    cases hfound : clusters[index]? with
    | none => exact le_refl 0
    | some cluster => exact hclusters cluster (List.mem_of_getElem? hfound)
  have hsums : ∀ sums : ClusterTerms, 0 ≤ sums.baselineSum →
      ((pooledFrom clusters sums resample).baselineSum ≠ 0 ↔ sums.baselineSum ≠ 0 ∨
        ∃ index ∈ resample, (clusters.getD index ⟨0, 0⟩).baselineSum ≠ 0) := by
    induction resample with
    | nil =>
        intro sums _
        simp [pooledFrom]
    | cons index resample ih =>
        intro sums hsums
        have hindex := hdrawn index
        have hadd : (sums.add (clusters.getD index ⟨0, 0⟩)).baselineSum =
            sums.baselineSum + (clusters.getD index ⟨0, 0⟩).baselineSum := rfl
        have hrest := ih (sums.add (clusters.getD index ⟨0, 0⟩)) (by omega)
        rw [pooledFrom] at hrest ⊢
        rw [List.foldl_cons, hrest, hadd]
        simp only [List.mem_cons, exists_eq_or_imp, ← or_assoc]
        refine or_congr_left ?_
        omega
  rw [hsums ⟨0, 0⟩ (le_refl 0)]
  simp

theorem runClusteredBootstrap_ok_iff {inputs : ScoringInputs} {terms : List ForecastTerms}
    {seed replicates : ℤ} {sample : BootstrapSample}
    (hterms : resolvedForecastTerms inputs = .ok terms) :
    runClusteredBootstrap inputs seed replicates = .ok sample ↔
      ∃ skills g, (replicateSkills (clusterTerms terms) replicates.toNat).run (.seeded seed) =
        .ok skills g ∧ sample = ⟨skills, (clusterTerms terms).length, terms.length⟩ := by
  rw [runClusteredBootstrap, hterms]
  change (match (replicateSkills (clusterTerms terms) replicates.toNat).run (.seeded seed) with
    | .ok skills _ => Except.ok ⟨skills, (clusterTerms terms).length, terms.length⟩
    | .error e _ => .error e) = Except.ok sample ↔ _
  cases (replicateSkills (clusterTerms terms) replicates.toNat).run (.seeded seed) with
  | ok skills g => simp [eq_comm]
  | error e g => simp

/-- **There is a sample** exactly when every resample is drawn and has a cluster whose baseline made
an error; it has as many skills as there are replicates. -/
theorem runClusteredBootstrap_defined_iff {inputs : ScoringInputs} {terms : List ForecastTerms}
    {seed replicates : ℤ} (hreplicates : 1 ≤ replicates)
    (hterms : resolvedForecastTerms inputs = .ok terms)
    (hclusters : 1 ≤ (clusterTerms terms).length) :
    (∃ sample, runClusteredBootstrap inputs seed replicates = .ok sample) ↔
      Resampled (clusterTerms terms) seed replicates := by
  have hbaseline := pooledFrom_baseline (clusterTerms_nonneg (baselineTerm_nonneg hterms))
  constructor
  · rintro ⟨sample, hsample⟩
    obtain ⟨skills, g, hskills, -⟩ := (runClusteredBootstrap_ok_iff hterms).mp hsample
    obtain ⟨resamples, hdrawn, hzeros, -⟩ := replicateSkills_ok_iff.mp hskills
    refine ⟨(drawResamples_ok_iff hclusters (by omega) _).mp ⟨resamples, g, hdrawn⟩, ?_⟩
    rw [resamplesDrawn_of_ok hdrawn]
    exact fun resample hresample => (hbaseline resample).mp (hzeros resample hresample)
  · rintro ⟨hbound, hresamples⟩
    obtain ⟨resamples, g, hdrawn⟩ := (drawResamples_ok_iff hclusters
      (show 1 ≤ replicates.toNat by omega) (.seeded seed)).mpr hbound
    rw [resamplesDrawn_of_ok hdrawn] at hresamples
    exact ⟨_, (runClusteredBootstrap_ok_iff hterms).mpr ⟨_, g, replicateSkills_ok_iff.mpr
      ⟨resamples, hdrawn, fun resample hresample =>
        (hbaseline resample).mpr (hresamples resample hresample), rfl⟩, rfl⟩⟩

theorem length_replicateSkills {clusters : List ClusterTerms} {replicates : ℕ} {g g' : SplitMix64}
    {skills : List ℚ} (h : (replicateSkills clusters replicates).run g = .ok skills g') :
    skills.length = replicates := by
  obtain ⟨resamples, hdrawn, -, rfl⟩ := replicateSkills_ok_iff.mp h
  rw [List.length_map, length_drawResamples hdrawn]

/-- An interval, taken apart. -/
theorem brierSkillCi_ok_iff {inputs : ScoringInputs} {confidencePpm seed replicates point : ℤ}
    {result : ClusteredCiResult} (hconfidence : 0 < confidencePpm) (hless : confidencePpm < 1000000)
    (hskill : brierSkill inputs = .ok point) :
    brierSkillCi inputs confidencePpm seed replicates = .ok result ↔
      ∃ sample lowest highest, runClusteredBootstrap inputs seed replicates = .ok sample ∧
        itemAt (OrderStatistics.ranked sample.replicateSkills)
          (percentileIndices replicates confidencePpm).1 = .ok lowest ∧
        itemAt (OrderStatistics.ranked sample.replicateSkills)
          (percentileIndices replicates confidencePpm).2 = .ok highest ∧
        result = ⟨point, skillToPpm lowest .understateEquity, skillToPpm highest .overstateCost,
          skillToPpm highest .overstateCost - skillToPpm lowest .understateEquity,
          sample.clusterCount, replicates, seed, confidencePpm⟩ := by
  rw [brierSkillCi, validateConfidencePpm, if_pos ⟨hconfidence, hless⟩, hskill]
  constructor
  · intro h
    obtain ⟨_, -, h⟩ := Effects.except_bind_ok.mp h
    obtain ⟨_, hpoint, h⟩ := Effects.except_bind_ok.mp h
    cases hpoint
    obtain ⟨sample, hsample, h⟩ := Effects.except_bind_ok.mp h
    obtain ⟨lowest, hlowest, h⟩ := Effects.except_bind_ok.mp h
    obtain ⟨highest, hhighest, h⟩ := Effects.except_bind_ok.mp h
    cases h
    exact ⟨sample, lowest, highest, hsample, hlowest, hhighest, rfl⟩
  · rintro ⟨sample, lowest, highest, hsample, hlowest, hhighest, rfl⟩
    exact Effects.except_bind_ok.mpr ⟨(), rfl, Effects.except_bind_ok.mpr ⟨point, rfl,
      Effects.except_bind_ok.mpr ⟨sample, hsample, Effects.except_bind_ok.mpr ⟨lowest, hlowest,
        Effects.except_bind_ok.mpr ⟨highest, hhighest, rfl⟩⟩⟩⟩⟩

/-- A sample has edges at every confidence. -/
theorem edges_of_sample {inputs : ScoringInputs} {terms : List ForecastTerms}
    {confidencePpm seed replicates : ℤ} {sample : BootstrapSample} (hreplicates : 1 ≤ replicates)
    (hconfidence : 0 < confidencePpm) (hless : confidencePpm < 1000000)
    (hterms : resolvedForecastTerms inputs = .ok terms)
    (hsample : runClusteredBootstrap inputs seed replicates = .ok sample) :
    ∃ lowest highest, itemAt (OrderStatistics.ranked sample.replicateSkills)
        (percentileIndices replicates confidencePpm).1 = .ok lowest ∧
      itemAt (OrderStatistics.ranked sample.replicateSkills)
        (percentileIndices replicates confidencePpm).2 = .ok highest := by
  obtain ⟨hlow, hranks, hhigh⟩ := percentileIndices_bounds hreplicates hconfidence hless
  obtain ⟨skills, g, hskills, rfl⟩ := (runClusteredBootstrap_ok_iff hterms).mp hsample
  have hlength : ((OrderStatistics.ranked skills).length : ℤ) = replicates := by
    rw [OrderStatistics.length_ranked, length_replicateSkills hskills]
    omega
  obtain ⟨lowest, hlowest⟩ := itemAt_of_lt hlow
    (show (percentileIndices replicates confidencePpm).1 <
      (OrderStatistics.ranked skills).length by omega)
  obtain ⟨highest, hhighest⟩ := itemAt_of_lt
    (show 0 ≤ (percentileIndices replicates confidencePpm).2 by omega)
    (show (percentileIndices replicates confidencePpm).2 <
      (OrderStatistics.ranked skills).length by omega)
  exact ⟨lowest, highest, hlowest, hhighest⟩

/-- The interval depends on the terms by their pooled clusters, their sums and their number. -/
theorem brierSkillCi_relabelled {inputs inputs' : ScoringInputs} {terms terms' : List ForecastTerms}
    {name : ClusterKey → ClusterKey} (confidencePpm seed replicates : ℤ)
    (hterms : resolvedForecastTerms inputs = .ok terms)
    (hterms' : resolvedForecastTerms inputs' = .ok terms') (h : Relabelled name terms terms')
    (hname : Set.InjOn name {key | key ∈ terms.map clusterKey}) :
    brierSkillCi inputs' confidencePpm seed replicates =
      brierSkillCi inputs confidencePpm seed replicates := by
  have hrun : runClusteredBootstrap inputs' seed replicates =
      runClusteredBootstrap inputs seed replicates := by
    rw [runClusteredBootstrap, runClusteredBootstrap, hterms, hterms']
    dsimp only [bind, Except.bind]
    rw [clusterTerms_relabelled h hname, h.length_eq]
  rw [brierSkillCi, brierSkillCi, brierSkill_eq hterms, brierSkill_eq hterms', h.sums.1, h.sums.2,
    hrun]

/-- **The bootstrap interval.**  Where the point skill is defined there is an interval exactly when
every resample is drawn and has a cluster whose baseline made an error.  Its edges stand in order,
it lies within that of a higher confidence, it counts the different clusters, and their names do
not matter. -/
theorem brierSkillCi_wellFormed (inputs : ScoringInputs) (confidencePpm seed replicates point : ℤ)
    (hreplicates : 1 ≤ replicates) (hconfidence : 0 < confidencePpm)
    (hless : confidencePpm < 1000000) (hskill : brierSkill inputs = .ok point) :
    ∃ terms, resolvedForecastTerms inputs = .ok terms ∧
      ((∃ result, brierSkillCi inputs confidencePpm seed replicates = .ok result) ↔
        Resampled (clusterTerms terms) seed replicates) ∧
      (∀ result, brierSkillCi inputs confidencePpm seed replicates = .ok result →
        result.ciLowPpm ≤ result.ciHighPpm ∧
        result.effectiveN = (terms.map clusterKey).toFinset.card ∧
        ∀ higher, confidencePpm ≤ higher → higher < 1000000 →
          ∃ wider, brierSkillCi inputs higher seed replicates = .ok wider ∧
            wider.ciLowPpm ≤ result.ciLowPpm ∧ result.ciHighPpm ≤ wider.ciHighPpm) ∧
      ∀ name inputs' terms', resolvedForecastTerms inputs' = .ok terms' →
        Relabelled name terms terms' → Set.InjOn name {key | key ∈ terms.map clusterKey} →
        brierSkillCi inputs' confidencePpm seed replicates =
          brierSkillCi inputs confidencePpm seed replicates := by
  obtain ⟨terms, hterms, hclusters⟩ := terms_of_brierSkill hskill
  have hdefined : (∃ result, brierSkillCi inputs confidencePpm seed replicates = .ok result) ↔
      Resampled (clusterTerms terms) seed replicates := by
    rw [← runClusteredBootstrap_defined_iff hreplicates hterms hclusters]
    constructor
    · rintro ⟨result, hresult⟩
      obtain ⟨sample, _, _, hsample, -⟩ :=
        (brierSkillCi_ok_iff hconfidence hless hskill).mp hresult
      exact ⟨sample, hsample⟩
    · rintro ⟨sample, hsample⟩
      obtain ⟨lowest, highest, hlowest, hhighest⟩ :=
        edges_of_sample hreplicates hconfidence hless hterms hsample
      exact ⟨_, (brierSkillCi_ok_iff hconfidence hless hskill).mpr
        ⟨sample, lowest, highest, hsample, hlowest, hhighest, rfl⟩⟩
  refine ⟨terms, hterms, hdefined, fun result hresult => ?_,
    fun name inputs' terms' hterms' h hname =>
      brierSkillCi_relabelled confidencePpm seed replicates hterms hterms' h hname⟩
  obtain ⟨sample, lowest, highest, hsample, hlowest, hhighest, rfl⟩ :=
    (brierSkillCi_ok_iff hconfidence hless hskill).mp hresult
  have hranks := percentileIndices_bounds hreplicates hconfidence hless
  have hcount : sample.clusterCount = (terms.map clusterKey).toFinset.card := by
    obtain ⟨skills, g, -, rfl⟩ := (runClusteredBootstrap_ok_iff hterms).mp hsample
    exact length_clusterTerms terms
  refine ⟨skillToPpm_edges (itemAt_mono hranks.2.1 hlowest hhighest), hcount,
    fun higher hhigher hhigherLess => ?_⟩
  obtain ⟨lower, upper, hlower, hupper⟩ := edges_of_sample hreplicates
    (lt_of_lt_of_le hconfidence hhigher) hhigherLess hterms hsample
  have hnested := percentileIndices_nested hreplicates hhigher
  exact ⟨_, (brierSkillCi_ok_iff (lt_of_lt_of_le hconfidence hhigher) hhigherLess hskill).mpr
    ⟨sample, lower, upper, hsample, hlower, hupper, rfl⟩,
    skillToPpm_low_mono (itemAt_mono hnested.1 hlower hlowest),
    skillToPpm_high_mono (itemAt_mono hnested.2 hhighest hupper)⟩

/-- A forecast of 0.9 for an ungrouped market. -/
def likelyForecast (marketTicker : String) (baselineExecutablePricePips : ℤ) : GroupedForecast where
  forecastId := marketTicker
  marketTicker
  probabilityPpm := 900000
  eligibleForLive := true
  abstentionReason := none
  traded := false
  baselineExecutablePricePips
  createdSequence := none
  live := false
  probability_ppm := by decide
  correlationGroupId := none

/-- Two markets that settle yes; the baseline of the first makes no error. -/
def flawlessBaseline : ScoringInputs where
  forecasts := [likelyForecast "A" 10000, likelyForecast "B" 5000]
  resolutions := (OrderedDict.empty.set "A" .yes).set "B" .yes

theorem flawlessBaseline_interval :
    ∃ result wider, brierSkillCi flawlessBaseline 900000 0 1 = .ok result ∧
      brierSkillCi flawlessBaseline 950000 0 1 = .ok wider ∧
      wider.ciLowPpm ≤ result.ciLowPpm ∧ result.ciHighPpm ≤ wider.ciHighPpm := by
  obtain ⟨terms, -, -, hresult, -⟩ := brierSkillCi_wellFormed flawlessBaseline 900000 0 1 920000
    (by decide) (by decide) (by decide) (by decide +kernel)
  have hinterval : brierSkillCi flawlessBaseline 900000 0 1 =
      .ok ⟨920000, 920000, 920000, 0, 2, 1, 0, 900000⟩ := by decide +kernel
  obtain ⟨-, -, hhigher⟩ := hresult _ hinterval
  obtain ⟨wider, hwider, hedges⟩ := hhigher 950000 (by decide) (by decide)
  exact ⟨_, wider, hinterval, hwider, hedges⟩

/-- **A skill without an interval.**  With this seed the flawless market is drawn twice. -/
theorem flawlessBaseline_no_interval :
    ¬ ∀ (inputs : ScoringInputs) (confidencePpm seed replicates point : ℤ), 1 ≤ replicates →
      0 < confidencePpm → confidencePpm < 1000000 → brierSkill inputs = .ok point →
      ∃ result, brierSkillCi inputs confidencePpm seed replicates = .ok result := by
  intro h
  obtain ⟨result, hresult⟩ := h flawlessBaseline 900000 2 1 920000 (by decide) (by decide)
    (by decide) (by decide +kernel)
  have hundefined : brierSkillCi flawlessBaseline 900000 2 1 = .error .resampleUndefined := by
    decide +kernel
  rw [hundefined] at hresult
  cases hresult

end Windbreak.Bootstrap
