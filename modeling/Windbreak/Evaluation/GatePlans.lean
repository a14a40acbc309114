import Mathlib.Data.String.Basic
import Windbreak.Core.JsonObjects
import Windbreak.Ledger.Appends

/-!
# Gate plans

A gate plan fixes what the evaluation gate measures: which metrics over which windows, the thresholds,
and the named schemes.  Two plans built from the same metrics are the same plan, whatever order the
metrics were given in.

* `GatePlan` — a plan, its metrics in the order of their names and no name twice.
* `GatePlan.init`, `GatePlan.fromCanonical` — building a plan, and reading one back.
* **`fromCanonical_of_perm`**, **`fromCanonical_of_legacy`** — a plan's dictionary reads as that plan,
  the live thresholds by default where it does not know them.
-/

namespace Windbreak

open JsonValue (codes lookup)

/-- A decoded dictionary. -/
abbrev Mapping := List (CodePoints × JsonValue)

/-! ## Plans -/

/-- What the live thresholds are where a registration predates them. -/
def legacyLiveRollingWindowSize : ℤ := 100

def legacyLiveSlippageRatioLimitPpm : ℤ := 1500000

def legacyLiveBrierDegradationBandPpm : ℤ := 50000

/-- The fields of a plan, as a caller gives them. -/
structure PlanFields where
  metricWindows : List (String × String)
  minResolvedForCalibration : ℤ
  promotionMinResolved : ℤ
  promotionMinIndependentEventGroups : ℤ
  brierSkillRequiredPpm : ℤ
  bootstrapConfidencePpm : ℤ
  observationWindow : String
  baselineScheme : String
  clusteringScheme : String
  paperFillModelVersion : String
  liveRollingWindowSize : ℤ := legacyLiveRollingWindowSize
  liveSlippageRatioLimitPpm : ℤ := legacyLiveSlippageRatioLimitPpm
  liveBrierDegradationBandPpm : ℤ := legacyLiveBrierDegradationBandPpm
  deriving DecidableEq, Repr

/-- A plan: its metrics in the order of their names, and no name twice. Its texts hold no
surrogates. -/
structure GatePlan extends PlanFields where
  ordered : metricWindows.Pairwise fun a b => a.1 < b.1

/-- Why no plan is built or read. -/
inductive PlanError where
  | duplicateMetric (name : String)
  | unknownKeys (keys : List CodePoints)
  | keyError (key : String)
  | missingKey (key : String)
  | requiresInt (field typeName : String)
  | requiresStr (field typeName : String)
  | unpairedSurrogate (field : String)
  | windowsNotList (typeName : String)
  | windowEntry (typeName : String)
  | windowEntryStrings
  deriving DecidableEq, Repr

/-- The order of pairs of strings. -/
def pairLe (a b : String × String) : Prop := a.1 < b.1 ∨ a.1 = b.1 ∧ a.2 ≤ b.2

instance : DecidableRel pairLe := fun a b =>
  inferInstanceAs (Decidable (a.1 < b.1 ∨ a.1 = b.1 ∧ a.2 ≤ b.2))

/-- The first metric named a second time. -/
def firstRepeated (seen : List String) : List (String × String) → Option String
  | [] => none
  | (name, _) :: rest => if name ∈ seen then some name else firstRepeated (name :: seen) rest

theorem firstRepeated_eq_none {seen : List String} {windows : List (String × String)}
    (h : firstRepeated seen windows = none) :
    (windows.map Prod.fst).Nodup ∧ ∀ name ∈ windows.map Prod.fst, name ∉ seen := by
  induction windows generalizing seen with
  | nil => exact ⟨List.nodup_nil, fun name hname => absurd hname List.not_mem_nil⟩
  | cons w windows ih =>
      rw [firstRepeated] at h
      by_cases hseen : w.1 ∈ seen
      · rw [if_pos hseen] at h
        exact absurd h (Option.some_ne_none _)
      · rw [if_neg hseen] at h
        obtain ⟨hnodup, hfresh⟩ := ih h
        refine ⟨List.nodup_cons.mpr ⟨fun hmem => hfresh _ hmem List.mem_cons_self, hnodup⟩, ?_⟩
        intro name hname
        rcases List.mem_cons.mp hname with rfl | hname
        · exact hseen
        · exact fun hin => hfresh name hname (List.mem_cons_of_mem _ hin)

theorem firstRepeated_of_nodup {seen : List String} {windows : List (String × String)}
    (hnodup : (windows.map Prod.fst).Nodup) (hfresh : ∀ name ∈ windows.map Prod.fst, name ∉ seen) :
    firstRepeated seen windows = none := by
  induction windows generalizing seen with
  | nil => rfl
  | cons w windows ih =>
      rw [List.map_cons, List.nodup_cons] at hnodup
      rw [firstRepeated, if_neg (hfresh _ List.mem_cons_self)]
      refine ih hnodup.2 fun name hname hin => ?_
      rcases List.mem_cons.mp hin with rfl | hin
      · exact hnodup.1 hname
      · exact hfresh name (List.mem_cons_of_mem _ hname) hin

theorem pairwise_pairLe (windows : List (String × String)) :
    (windows.insertionSort pairLe).Pairwise pairLe := by
  have htotal : Std.Total pairLe := ⟨fun a b => by
    rcases lt_trichotomy a.1 b.1 with hlt | heq | hgt
    · exact .inl (.inl hlt)
    · exact (le_total a.2 b.2).imp (fun h => .inr ⟨heq, h⟩) fun h => .inr ⟨heq.symm, h⟩
    · exact .inr (.inl hgt)⟩
  have htrans : IsTrans (String × String) pairLe := ⟨fun a b c hab hbc => by
    rcases hab with hab | ⟨hab, hab'⟩
    · rcases hbc with hbc | ⟨hbc, -⟩
      · exact .inl (hab.trans hbc)
      · exact .inl (hbc ▸ hab)
    · rcases hbc with hbc | ⟨hbc, hbc'⟩
      · exact .inl (hab ▸ hbc)
      · exact .inr ⟨hab.trans hbc, hab'.trans hbc'⟩⟩
  exact List.pairwise_insertionSort _ windows

/-- Sorted pairs without a repeated name stand in the order of their names. -/
theorem ordered_insertionSort {windows : List (String × String)}
    (h : (windows.map Prod.fst).Nodup) :
    (windows.insertionSort pairLe).Pairwise fun a b => a.1 < b.1 := by
  have hnodup : ((windows.insertionSort pairLe).map Prod.fst).Nodup :=
    ((List.perm_insertionSort pairLe windows).map Prod.fst).nodup_iff.mpr h
  have hdistinct : (windows.insertionSort pairLe).Pairwise fun a b => a.1 ≠ b.1 :=
    List.pairwise_map.mp hnodup
  refine ((pairwise_pairLe windows).and hdistinct).imp fun {a b} hab => ?_
  rcases hab.1 with hlt | ⟨heq, -⟩
  · exact hlt
  · exact absurd heq hab.2

namespace GatePlan

/-- Build a plan: refuse a metric named twice, and put the metrics in the order of their names. -/
def init (fields : PlanFields) : Except PlanError GatePlan :=
  match h : firstRepeated [] fields.metricWindows with
  | some name => .error (.duplicateMetric name)
  | none => .ok
    { fields with
      metricWindows := fields.metricWindows.insertionSort pairLe
      ordered := ordered_insertionSort (firstRepeated_eq_none h).1 }

theorem eq_of_fields {plan plan' : GatePlan} (h : plan.toPlanFields = plan'.toPlanFields) :
    plan = plan' := by
  cases plan
  cases plan'
  simp only at h
  subst h
  rfl

theorem nodup_names (plan : GatePlan) : (plan.metricWindows.map Prod.fst).Nodup :=
  List.pairwise_map.mpr (plan.ordered.imp fun h => h.ne)

/-- Metrics in another order are sorted back. -/
theorem insertionSort_of_perm (plan : GatePlan) {windows : List (String × String)}
    (h : windows.Perm plan.metricWindows) : windows.insertionSort pairLe = plan.metricWindows := by
  refine ((List.perm_insertionSort pairLe windows).trans h).eq_of_pairwise
    (fun a b _ hb hab hba => ?_) (pairwise_pairLe windows) (plan.ordered.imp Or.inl)
  rcases hab with hab | ⟨hab, hab'⟩
  · rcases hba with hba | ⟨hba, -⟩
    · exact absurd hba hab.asymm
    · exact absurd hab (hba ▸ lt_irrefl _)
  · rcases hba with hba | ⟨-, hba'⟩
    · exact absurd hba (hab ▸ lt_irrefl _)
    · exact Prod.ext hab (le_antisymm hab' hba')

/-- **The order of the metrics** does not show in the plan. -/
theorem init_of_perm (plan : GatePlan) {windows : List (String × String)}
    (h : windows.Perm plan.metricWindows) :
    init { plan.toPlanFields with metricWindows := windows } = .ok plan := by
  have hfresh : firstRepeated [] windows = none :=
    firstRepeated_of_nodup ((h.map Prod.fst).nodup_iff.mpr plan.nodup_names)
      fun _ _ => List.not_mem_nil
  unfold init
  split
  · next name hname =>
      exact absurd (hname.symm.trans hfresh) (Option.some_ne_none name)
  · refine congrArg Except.ok (eq_of_fields ?_)
    simp only [plan.insertionSort_of_perm h]

theorem init_self (plan : GatePlan) : init plan.toPlanFields = .ok plan :=
  plan.init_of_perm (.refl _)

end GatePlan

/-! ## The canonical dictionary -/

def metricWindowsJson (windows : List (String × String)) : Json :=
  .arr (windows.map fun w => .arr [.str w.1, .str w.2])

/-- The dictionary of a plan, with the keys it has had from the start. -/
def PlanFields.tenKeys (fields : PlanFields) : List (String × Json) :=
  [("metric_windows", metricWindowsJson fields.metricWindows),
    ("min_resolved_for_calibration", .int fields.minResolvedForCalibration),
    ("promotion_min_resolved", .int fields.promotionMinResolved),
    ("promotion_min_independent_event_groups", .int fields.promotionMinIndependentEventGroups),
    ("brier_skill_required_ppm", .int fields.brierSkillRequiredPpm),
    ("bootstrap_confidence_ppm", .int fields.bootstrapConfidencePpm),
    ("observation_window", .str fields.observationWindow),
    ("baseline_scheme", .str fields.baselineScheme),
    ("clustering_scheme", .str fields.clusteringScheme),
    ("paper_fill_model_version", .str fields.paperFillModelVersion)]

/-- The live thresholds, which registrations have carried since. -/
def PlanFields.liveKeys (fields : PlanFields) : List (String × Json) :=
  [("live_rolling_window_size", .int fields.liveRollingWindowSize),
    ("live_slippage_ratio_limit_ppm", .int fields.liveSlippageRatioLimitPpm),
    ("live_brier_degradation_band_ppm", .int fields.liveBrierDegradationBandPpm)]

/-- The dictionary of a plan. -/
def PlanFields.canonicalDict (fields : PlanFields) : List (String × Json) :=
  fields.tenKeys ++ fields.liveKeys

/-- The keys of a plan's dictionary. -/
def canonicalPlanKeys : List String :=
  ["metric_windows", "min_resolved_for_calibration", "promotion_min_resolved",
    "promotion_min_independent_event_groups", "brier_skill_required_ppm",
    "bootstrap_confidence_ppm", "live_rolling_window_size", "live_slippage_ratio_limit_ppm",
    "live_brier_degradation_band_ppm", "observation_window", "baseline_scheme",
    "clustering_scheme", "paper_fill_model_version"]

/-! ## Reading a plan -/

/-- What the interpreter calls the type of a decoded value. -/
def typeName : JsonValue → String
  | .null => "NoneType"
  | .bool _ => "bool"
  | .int _ => "int"
  | .float _ => "float"
  | .str _ => "str"
  | .arr _ => "list"
  | .obj _ => "dict"

/-- The value behind a key. -/
def requirePresent (mapping : Mapping) (key : String) : Except PlanError JsonValue :=
  match lookup key mapping with
  | none => .error (.missingKey key)
  | some value => .ok value

/-- The integer behind a key. -/
def requireMappingInt (mapping : Mapping) (key : String) : Except PlanError ℤ := do
  match ← requirePresent mapping key with
  | .int i => return i
  | value => throw (.requiresInt key (typeName value))

/-- The integer behind a key, or a default where the key is absent. -/
def mappingIntOrLegacyDefault (mapping : Mapping) (key : String) (default : ℤ) :
    Except PlanError ℤ :=
  match lookup key mapping with
  | none => .ok default
  | some _ => requireMappingInt mapping key

/-- The string behind a key. -/
def requireMappingStr (mapping : Mapping) (key : String) : Except PlanError String := do
  match ← requirePresent mapping key with
  | .str s =>
    match text? s with
    | some text => return text
    | none => throw (.unpairedSurrogate key)
  | value => throw (.requiresStr key (typeName value))

def parseMetricWindowEntry : JsonValue → Except PlanError (String × String)
  | .arr [.str name, .str window] =>
    match text? name, text? window with
    | some name, some window => .ok (name, window)
    | _, _ => .error (.unpairedSurrogate "metric_windows")
  | .arr [_, _] => .error .windowEntryStrings
  | entry => .error (.windowEntry (typeName entry))

def parseMetricWindows : JsonValue → Except PlanError (List (String × String))
  | .arr entries => entries.mapM parseMetricWindowEntry
  | raw => .error (.windowsNotList (typeName raw))

/-- Read a plan off its dictionary. -/
def GatePlan.fromCanonical (mapping : Mapping) : Except PlanError GatePlan := do
  let unknown := (mapping.map Prod.fst).filter fun key => key ∉ canonicalPlanKeys.map codes
  if unknown ≠ [] then throw (.unknownKeys (unknown.insertionSort (· ≤ ·)))
  let raw ← match lookup "metric_windows" mapping with
    | none => throw (.keyError "metric_windows")
    | some raw => pure raw
  let metricWindows ← parseMetricWindows raw
  let minResolvedForCalibration ← requireMappingInt mapping "min_resolved_for_calibration"
  let promotionMinResolved ← requireMappingInt mapping "promotion_min_resolved"
  let promotionMinIndependentEventGroups ←
    requireMappingInt mapping "promotion_min_independent_event_groups"
  let brierSkillRequiredPpm ← requireMappingInt mapping "brier_skill_required_ppm"
  let bootstrapConfidencePpm ← requireMappingInt mapping "bootstrap_confidence_ppm"
  let observationWindow ← requireMappingStr mapping "observation_window"
  let baselineScheme ← requireMappingStr mapping "baseline_scheme"
  let clusteringScheme ← requireMappingStr mapping "clustering_scheme"
  let paperFillModelVersion ← requireMappingStr mapping "paper_fill_model_version"
  let liveRollingWindowSize ←
    mappingIntOrLegacyDefault mapping "live_rolling_window_size" legacyLiveRollingWindowSize
  let liveSlippageRatioLimitPpm ← mappingIntOrLegacyDefault mapping
    "live_slippage_ratio_limit_ppm" legacyLiveSlippageRatioLimitPpm
  let liveBrierDegradationBandPpm ← mappingIntOrLegacyDefault mapping
    "live_brier_degradation_band_ppm" legacyLiveBrierDegradationBandPpm
  GatePlan.init
    { metricWindows, minResolvedForCalibration, promotionMinResolved,
      promotionMinIndependentEventGroups, brierSkillRequiredPpm, bootstrapConfidencePpm,
      observationWindow, baselineScheme, clusteringScheme, paperFillModelVersion,
      liveRollingWindowSize, liveSlippageRatioLimitPpm, liveBrierDegradationBandPpm }

/-! ## A plan, read back -/

/-- What a mapping has behind the keys of a dictionary. -/
theorem lookup_of_perm {mapping : Mapping} {fields : List (String × Json)}
    (h : mapping.Perm (Json.toFields fields)) (hkeys : (fields.map Prod.fst).Nodup) (key : String) :
    lookup key mapping = (Json.lookup key fields).map Json.toValue := by
  have hnodup : (mapping.map Prod.fst).Nodup :=
    (h.map Prod.fst).nodup_iff.mpr (Json.nodup_toFields hkeys)
  rw [← Json.lookup_toFields]
  exact JsonValue.lookup_perm h hnodup (codes key)

/-- A dictionary with no key but a plan's has no unknown one. -/
theorem no_unknown_of_perm {mapping : Mapping} {fields : List (String × Json)}
    (h : mapping.Perm (Json.toFields fields))
    (hknown : ∀ key ∈ fields.map Prod.fst, key ∈ canonicalPlanKeys) :
    ((mapping.map Prod.fst).filter fun key => key ∉ canonicalPlanKeys.map codes) = [] := by
  rw [List.filter_eq_nil_iff]
  intro key hkey
  have hin := (h.map Prod.fst).mem_iff.mp hkey
  rw [Json.toFields_keys] at hin
  obtain ⟨name, hname, rfl⟩ := List.mem_map.mp hin
  have hmem : codes name ∈ canonicalPlanKeys.map codes :=
    List.mem_map_of_mem (hknown name hname)
  simp only [hmem, not_true_eq_false, decide_false, Bool.false_eq_true, not_false_eq_true]

section

variable {mapping : Mapping} {key : String}

theorem requireMappingInt_of {i : ℤ} (h : lookup key mapping = some (.int i)) :
    requireMappingInt mapping key = .ok i := by
  rw [requireMappingInt, requirePresent, h]
  rfl

theorem requireMappingStr_of {s : String} (h : lookup key mapping = some (.str (codes s))) :
    requireMappingStr mapping key = .ok s := by
  simp only [requireMappingStr, requirePresent, h, bind, Except.bind, text?_codes]
  rfl

theorem mappingIntOrLegacyDefault_of {i default : ℤ} (h : lookup key mapping = some (.int i)) :
    mappingIntOrLegacyDefault mapping key default = .ok i := by
  rw [mappingIntOrLegacyDefault, h]
  exact requireMappingInt_of h

theorem mappingIntOrLegacyDefault_absent (default : ℤ) (h : lookup key mapping = none) :
    mappingIntOrLegacyDefault mapping key default = .ok default := by
  rw [mappingIntOrLegacyDefault, h]

end

theorem parseMetricWindows_json (windows : List (String × String)) :
    parseMetricWindows (metricWindowsJson windows).toValue = .ok windows := by
  rw [metricWindowsJson, Json.toValue, Json.toValues_eq, parseMetricWindows]
  induction windows with
  | nil => rfl
  | cons w windows ih =>
      have hentry : parseMetricWindowEntry (Json.toValue (.arr [.str w.1, .str w.2])) = .ok w := by
        simp only [Json.toValue, Json.toValues, parseMetricWindowEntry, text?_codes]
      rw [List.map_cons, List.map_cons, List.mapM_cons, hentry, ih]
      rfl

/-- The keys of a dictionary do not depend on the plan. -/
theorem keys_tenKeys (fields : PlanFields) : fields.tenKeys.map Prod.fst =
    ["metric_windows", "min_resolved_for_calibration", "promotion_min_resolved",
      "promotion_min_independent_event_groups", "brier_skill_required_ppm",
      "bootstrap_confidence_ppm", "observation_window", "baseline_scheme", "clustering_scheme",
      "paper_fill_model_version"] := rfl

theorem keys_canonicalDict (fields : PlanFields) : fields.canonicalDict.map Prod.fst =
    fields.tenKeys.map Prod.fst ++ ["live_rolling_window_size", "live_slippage_ratio_limit_ppm",
      "live_brier_degradation_band_ppm"] := rfl

theorem nodup_canonicalDict (fields : PlanFields) : (fields.canonicalDict.map Prod.fst).Nodup := by
  rw [keys_canonicalDict, keys_tenKeys]
  decide

theorem nodup_tenKeys (fields : PlanFields) : (fields.tenKeys.map Prod.fst).Nodup := by
  rw [keys_tenKeys]
  decide

theorem known_canonicalDict (fields : PlanFields) :
    ∀ key ∈ fields.canonicalDict.map Prod.fst, key ∈ canonicalPlanKeys := by
  rw [keys_canonicalDict, keys_tenKeys]
  decide

theorem known_tenKeys (fields : PlanFields) :
    ∀ key ∈ fields.tenKeys.map Prod.fst, key ∈ canonicalPlanKeys := by
  rw [keys_tenKeys]
  decide

/-- A field found among the first is the one found. -/
theorem lookup_append_of_some {key : String} {fields : List (String × Json)} {j : Json}
    (h : Json.lookup key fields = some j) (rest : List (String × Json)) :
    Json.lookup key (fields ++ rest) = some j := by
  induction fields with
  | nil => exact absurd h.symm (Option.some_ne_none j)
  | cons f fields ih =>
      rw [List.cons_append, Json.lookup]
      rw [Json.lookup] at h
      by_cases hkey : f.1 = key
      · rw [if_pos hkey] at h ⊢
        exact h
      · rw [if_neg hkey] at h ⊢
        exact ih h

/-- **A mapping that has a plan's fields** reads as that plan; the live thresholds may come by
default. -/
theorem fromCanonical_of_lookups {mapping : Mapping} {fields : PlanFields}
    (hknown : ((mapping.map Prod.fst).filter fun key => key ∉ canonicalPlanKeys.map codes) = [])
    (hlookup : ∀ key j, Json.lookup key fields.tenKeys = some j →
      lookup key mapping = some j.toValue)
    (hsize : mappingIntOrLegacyDefault mapping "live_rolling_window_size"
      legacyLiveRollingWindowSize = .ok fields.liveRollingWindowSize)
    (hslippage : mappingIntOrLegacyDefault mapping "live_slippage_ratio_limit_ppm"
      legacyLiveSlippageRatioLimitPpm = .ok fields.liveSlippageRatioLimitPpm)
    (hband : mappingIntOrLegacyDefault mapping "live_brier_degradation_band_ppm"
      legacyLiveBrierDegradationBandPpm = .ok fields.liveBrierDegradationBandPpm) :
    GatePlan.fromCanonical mapping = GatePlan.init fields := by
  have hwindows := hlookup "metric_windows" _ rfl
  have hcalibration := requireMappingInt_of (hlookup "min_resolved_for_calibration" _ rfl)
  have hresolved := requireMappingInt_of (hlookup "promotion_min_resolved" _ rfl)
  have hgroups := requireMappingInt_of (hlookup "promotion_min_independent_event_groups" _ rfl)
  have hskill := requireMappingInt_of (hlookup "brier_skill_required_ppm" _ rfl)
  have hconfidence := requireMappingInt_of (hlookup "bootstrap_confidence_ppm" _ rfl)
  have hobservation := requireMappingStr_of (hlookup "observation_window" _ rfl)
  have hbaseline := requireMappingStr_of (hlookup "baseline_scheme" _ rfl)
  have hclustering := requireMappingStr_of (hlookup "clustering_scheme" _ rfl)
  have hfill := requireMappingStr_of (hlookup "paper_fill_model_version" _ rfl)
  unfold GatePlan.fromCanonical
  rw [hknown, hwindows]
  dsimp only
  rw [if_neg (not_not.mpr rfl), pure_bind, parseMetricWindows_json, hcalibration, hresolved, hgroups, hskill,
    hconfidence, hobservation, hbaseline, hclustering, hfill, hsize, hslippage, hband]
  rfl

/-- **The canonical dictionary**, its keys in whatever order, reads as the plan it is of. -/
theorem fromCanonical_of_perm {mapping : Mapping} {fields : PlanFields}
    (h : mapping.Perm (Json.toFields fields.canonicalDict)) :
    GatePlan.fromCanonical mapping = GatePlan.init fields := by
  have hlookup := lookup_of_perm h (nodup_canonicalDict fields)
  refine fromCanonical_of_lookups (no_unknown_of_perm h (known_canonicalDict fields)) ?_
    (mappingIntOrLegacyDefault_of (hlookup _)) (mappingIntOrLegacyDefault_of (hlookup _))
    (mappingIntOrLegacyDefault_of (hlookup _))
  intro key j hj
  have happend : Json.lookup key fields.canonicalDict = some j := lookup_append_of_some hj _
  rw [hlookup, happend]
  rfl

/-- **A dictionary from before the live thresholds** reads as the plan with their defaults. -/
theorem fromCanonical_of_legacy {mapping : Mapping} {fields : PlanFields}
    (h : mapping.Perm (Json.toFields fields.tenKeys)) :
    GatePlan.fromCanonical mapping = GatePlan.init
      { fields with
        liveRollingWindowSize := legacyLiveRollingWindowSize
        liveSlippageRatioLimitPpm := legacyLiveSlippageRatioLimitPpm
        liveBrierDegradationBandPpm := legacyLiveBrierDegradationBandPpm } := by
  have hlookup := lookup_of_perm h (nodup_tenKeys fields)
  refine fromCanonical_of_lookups (no_unknown_of_perm h (known_tenKeys fields)) ?_
    (mappingIntOrLegacyDefault_absent _ (hlookup _))
    (mappingIntOrLegacyDefault_absent _ (hlookup _))
    (mappingIntOrLegacyDefault_absent _ (hlookup _))
  intro key j hj
  have hten : Json.lookup key fields.tenKeys = some j := hj
  rw [hlookup, hten]
  rfl

/-- **Reading a plan's own dictionary back** gives the plan, in whatever order the metrics stand. -/
theorem fromCanonical_canonicalDict (plan : GatePlan) {windows : List (String × String)}
    (h : windows.Perm plan.metricWindows) {mapping : Mapping}
    (hmapping : mapping.Perm
      (Json.toFields { plan.toPlanFields with metricWindows := windows }.canonicalDict)) :
    GatePlan.fromCanonical mapping = .ok plan :=
  (fromCanonical_of_perm hmapping).trans (plan.init_of_perm h)

end Windbreak
