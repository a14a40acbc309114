import Windbreak.Core.Effects
import Windbreak.Core.RestartedClock
import Windbreak.Evaluation.GatePlans

/-!
# The gate plan registry

A plan is registered by an event on the ledger, under the hash of its canonical text.  Registering the
plan that stands appends nothing; another plan restarts the paper clock.

A registration is read back from its row alone: its hash is computed again, over what the row holds.
A row from before the live thresholds therefore keeps the hash it was written with, which is not the
hash of the plan it reads as.

* `registerGatePlan`, `latestGatePlanRegistration` — the two operations.
* **`registerGatePlan_cases`** — what a call may do.
* **`registrationFromRecord_nextRecord`** — an appended registration reads back as it was made.
-/

namespace Windbreak

open JsonValue (codes lookup)
open RestartedClock (Timed)

/-! ## Registrations -/

/-- A registration, read back. -/
structure GatePlanRegistration where
  plan : GatePlan
  planHash : String
  paperClockStart : ℤ
  previousPlanHash : Option String
  eventType : String

/-- The paper clock of a registration. -/
def GatePlanRegistration.timed (registration : GatePlanRegistration) : Timed String :=
  ⟨registration.planHash, registration.paperClockStart, registration.previousPlanHash⟩

/-- Why a registration is refused, or cannot be read. -/
inductive RegistryError where
  | loads (error : JsonValue.LoadsError)
  | requiresObject (label typeName : String)
  | requiresStrOrNull (typeName : String)
  | hashMismatch (recomputed stored : String)
  | plan (error : PlanError)
  | unserialisable
  | clockNotAdvanced (newEpoch existing : ℤ)
  | append (error : AppendError)

/-- The keys that a registration has beside its plan's. -/
def registrationOnlyKeys : List String := ["plan_hash", "paper_clock_start", "previous_plan_hash"]

def registrationEventTypes : List String := ["GatePlanRegistered", "GatePlanChanged"]

/-- The bytes of a text. -/
def textBytes (text : String) : Bytes := text.toUTF8.data.toList

/-- The content hash of a dictionary. -/
def contentHash (sha : Sha256) (fields : List (String × Json)) : String :=
  sha.hexdigest (textBytes (Json.obj fields).canonical)

namespace GatePlan

/-- The canonical text of a plan. -/
def canonicalJsonStr (limits : JsonValue.Limits) (plan : GatePlan) : Except RegistryError String :=
  if (Json.obj plan.canonicalDict).serialises limits limits.depth then
    .ok (Json.obj plan.canonicalDict).canonical
  else .error .unserialisable

/-- The content hash of a plan. -/
def planHash (sha : Sha256) (limits : JsonValue.Limits) (plan : GatePlan) :
    Except RegistryError String := do
  return sha.hexdigest (textBytes (← plan.canonicalJsonStr limits))

end GatePlan

/-- The fields that a registration's event has from its plan. -/
def flatPlanFields (plan : GatePlan) : List (String × Json) :=
  [("metric_windows", metricWindowsJson plan.metricWindows),
    ("min_resolved_for_calibration", .int plan.minResolvedForCalibration),
    ("promotion_min_resolved", .int plan.promotionMinResolved),
    ("promotion_min_independent_event_groups", .int plan.promotionMinIndependentEventGroups),
    ("brier_skill_required_ppm", .int plan.brierSkillRequiredPpm),
    ("bootstrap_confidence_ppm", .int plan.bootstrapConfidencePpm),
    ("live_rolling_window_size", .int plan.liveRollingWindowSize),
    ("live_slippage_ratio_limit_ppm", .int plan.liveSlippageRatioLimitPpm),
    ("live_brier_degradation_band_ppm", .int plan.liveBrierDegradationBandPpm),
    ("observation_window", .str plan.observationWindow),
    ("baseline_scheme", .str plan.baselineScheme),
    ("clustering_scheme", .str plan.clusteringScheme),
    ("paper_fill_model_version", .str plan.paperFillModelVersion)]

/-- The fields that a registration's event has beside its plan's. -/
def registrationFields (planHash : String) (paperClockStart : ℤ) :
    Option String → List (String × Json)
  | none => [("plan_hash", .str planHash), ("paper_clock_start", .int paperClockStart)]
  | some previous =>
    [("plan_hash", .str planHash), ("paper_clock_start", .int paperClockStart),
      ("previous_plan_hash", .str previous)]

/-- The event of a registration, first or changed. -/
def registrationEvent (component : String) (planFields : List (String × Json)) (planHash : String)
    (paperClockStart : ℤ) (previous : Option String) : Event where
  eventType := if previous.isSome then "GatePlanChanged" else "GatePlanRegistered"
  component := component
  payloadSchemaVersion := 1
  payload := planFields ++ registrationFields planHash paperClockStart previous

/-! ## Reading -/

/-- The fields of a JSON object. -/
def requireDict (label : String) : JsonValue → Except RegistryError Mapping
  | .obj fields => .ok fields
  | value => .error (.requiresObject label (typeName value))

/-- The hash of the plan before, if there was one. -/
def optionalStr : Option JsonValue → Except RegistryError (Option String)
  | none => .ok none
  | some .null => .ok none
  | some (.str s) =>
    match text? s with
    | some text => .ok (some text)
    | none => .error (.plan (.unpairedSurrogate "previous_plan_hash"))
  | some value => .error (.requiresStrOrNull (typeName value))

/-- A registration without the keys that it has beside its plan's. -/
def strippedFields (data : Mapping) : Mapping :=
  data.filter fun f => f.1 ∉ registrationOnlyKeys.map codes

/-- Rebuild a registration from its row, and check its hash against what the row holds. -/
def registrationFromRecord (sha : Sha256) (limits : JsonValue.Limits) (record : LedgerRecord) :
    Except RegistryError GatePlanRegistration := do
  let envelope ← (JsonValue.loads limits record.payloadJson).mapError RegistryError.loads
  let envelope ← requireDict "envelope" envelope
  let data ← (requirePresent envelope "data").mapError RegistryError.plan
  let data ← requireDict "data" data
  let planFields := strippedFields data
  let storedHash ← (requireMappingStr data "plan_hash").mapError RegistryError.plan
  let contentHash := sha.hexdigest
    (textBytes (String.ofList (JsonValue.dumps (.obj planFields))))
  if contentHash ≠ storedHash then throw (.hashMismatch contentHash storedHash)
  let plan ← (GatePlan.fromCanonical planFields).mapError RegistryError.plan
  let paperClockStart ← (requireMappingInt data "paper_clock_start").mapError RegistryError.plan
  let previousPlanHash ← optionalStr (lookup "previous_plan_hash" data)
  return ⟨plan, storedHash, paperClockStart, previousPlanHash, record.eventType⟩

/-- The newest registration on the ledger. -/
def latestGatePlanRegistration (sha : Sha256) (limits : JsonValue.Limits)
    (rows : List LedgerRecord) : Except RegistryError (Option GatePlanRegistration) :=
  match latestRecordOfTypes registrationEventTypes rows with
  | none => .ok none
  | some record => (registrationFromRecord sha limits record).map some

/-! ## Registering -/

/-- Append a plan's registration. -/
def appendRegistration (sha : Sha256) (limits : JsonValue.Limits) (env : AppendEnv)
    (component : String) (plan : GatePlan) (epoch : ℤ) (previous : Option String)
    (rows : List LedgerRecord) : Except RegistryError GatePlanRegistration × List LedgerRecord :=
  match plan.planHash sha limits with
  | .error e => (.error e, rows)
  | .ok planHash =>
    let event := registrationEvent component (flatPlanFields plan) planHash epoch previous
    match append sha limits env event rows with
    | (.error e, rows) => (.error (.append e), rows)
    | (.ok _, rows) => (.ok ⟨plan, planHash, epoch, previous, event.eventType⟩, rows)

/-- Register a first plan. -/
def appendFirstRegistration (sha : Sha256) (limits : JsonValue.Limits) (env : AppendEnv)
    (component : String) (now : ℤ) (plan : GatePlan) (rows : List LedgerRecord) :
    Except RegistryError GatePlanRegistration × List LedgerRecord :=
  appendRegistration sha limits env component plan now none rows

/-- Register another plan; the clock must have advanced. -/
def appendChangedRegistration (sha : Sha256) (limits : JsonValue.Limits) (env : AppendEnv)
    (component : String) (now : ℤ) (plan : GatePlan) (existing : GatePlanRegistration)
    (rows : List LedgerRecord) : Except RegistryError GatePlanRegistration × List LedgerRecord :=
  if now ≤ existing.paperClockStart then
    (.error (.clockNotAdvanced now existing.paperClockStart), rows)
  else appendRegistration sha limits env component plan now (some existing.planHash) rows

/-- Register a plan. -/
def registerGatePlan (sha : Sha256) (limits : JsonValue.Limits) (env : AppendEnv)
    (component : String) (now : ℤ) (plan : GatePlan) (rows : List LedgerRecord) :
    Except RegistryError GatePlanRegistration × List LedgerRecord :=
  match latestGatePlanRegistration sha limits rows with
  | .error e => (.error e, rows)
  | .ok none => appendFirstRegistration sha limits env component now plan rows
  | .ok (some existing) =>
    match plan.planHash sha limits with
    | .error e => (.error e, rows)
    | .ok planHash =>
      if existing.planHash = planHash then (.ok existing, rows)
      else appendChangedRegistration sha limits env component now plan existing rows

/-! ## An appended registration, read back -/

/-- Fields that a registration can have from its plan: plain, distinct, and none of its own. -/
structure PlanPart (fields : List (String × Json)) : Prop where
  nodup : (fields.map Prod.fst).Nodup
  apart : ∀ key ∈ fields.map Prod.fst, key ∉ registrationOnlyKeys
  plain : ∀ f ∈ fields, f.2.plain = true

theorem plain_metricWindowsJson (windows : List (String × String)) :
    (metricWindowsJson windows).plain = true := by
  rw [metricWindowsJson, Json.plain]
  induction windows with
  | nil => rfl
  | cons w windows ih =>
      rw [List.map_cons, Json.plainItems, ih]
      rfl

theorem planPart_tenKeys (fields : PlanFields) : PlanPart fields.tenKeys := by
  refine ⟨nodup_tenKeys fields, ?_, ?_⟩
  · rw [keys_tenKeys]
    decide
  · intro f hf
    rcases List.mem_cons.mp hf with rfl | hf
    · exact plain_metricWindowsJson _
    · simp only [List.mem_cons, List.not_mem_nil, or_false] at hf
      rcases hf with rfl | rfl | rfl | rfl | rfl | rfl | rfl | rfl | rfl
      all_goals rfl

theorem perm_flatPlanFields (plan : GatePlan) :
    (flatPlanFields plan).Perm plan.canonicalDict := by
  have hswap : ∀ strings ints : List (String × Json), (ints ++ strings).Perm (strings ++ ints) :=
    fun strings ints => List.perm_append_comm
  exact (List.Perm.append_left
    [("metric_windows", metricWindowsJson plan.metricWindows),
      ("min_resolved_for_calibration", .int plan.minResolvedForCalibration),
      ("promotion_min_resolved", .int plan.promotionMinResolved),
      ("promotion_min_independent_event_groups", .int plan.promotionMinIndependentEventGroups),
      ("brier_skill_required_ppm", .int plan.brierSkillRequiredPpm),
      ("bootstrap_confidence_ppm", .int plan.bootstrapConfidencePpm)]
    (hswap [("observation_window", .str plan.observationWindow),
      ("baseline_scheme", .str plan.baselineScheme),
      ("clustering_scheme", .str plan.clusteringScheme),
      ("paper_fill_model_version", .str plan.paperFillModelVersion)] plan.liveKeys))

theorem planPart_flatPlanFields (plan : GatePlan) : PlanPart (flatPlanFields plan) := by
  have hperm := perm_flatPlanFields plan
  have hten := planPart_tenKeys plan.toPlanFields
  refine ⟨(hperm.map Prod.fst).nodup_iff.mpr (nodup_canonicalDict _), ?_, ?_⟩
  · intro key hkey
    have hin := (hperm.map Prod.fst).mem_iff.mp hkey
    rw [keys_canonicalDict, List.mem_append] at hin
    rcases hin with hin | hin
    · exact hten.apart key hin
    · have hlive : ∀ key ∈ ["live_rolling_window_size", "live_slippage_ratio_limit_ppm",
          "live_brier_degradation_band_ppm"], key ∉ registrationOnlyKeys := by decide
      exact hlive key hin
  · intro f hf
    rcases List.mem_append.mp (hperm.mem_iff.mp hf) with hf | hf
    · exact hten.plain f hf
    · simp only [PlanFields.liveKeys, List.mem_cons, List.not_mem_nil, or_false] at hf
      rcases hf with rfl | rfl | rfl
      all_goals rfl

section

variable {part : List (String × Json)} {planHash : String} {paperClockStart : ℤ}
  {previous : Option String}

theorem keys_registrationFields : ∀ key ∈ (registrationFields planHash paperClockStart previous).map
    Prod.fst, key ∈ registrationOnlyKeys := by
  cases previous with
  | none =>
      show ∀ key ∈ ["plan_hash", "paper_clock_start"], key ∈ registrationOnlyKeys
      decide
  | some previous =>
      show ∀ key ∈ ["plan_hash", "paper_clock_start", "previous_plan_hash"],
        key ∈ registrationOnlyKeys
      decide

theorem plain_registrationFields : ∀ f ∈ registrationFields planHash paperClockStart previous,
    f.2.plain = true := by
  intro f hf
  cases previous with
  | none =>
      simp only [registrationFields, List.mem_cons, List.not_mem_nil, or_false] at hf
      rcases hf with rfl | rfl
      all_goals rfl
  | some previous =>
      simp only [registrationFields, List.mem_cons, List.not_mem_nil, or_false] at hf
      rcases hf with rfl | rfl | rfl
      all_goals rfl

theorem nodup_registrationFields :
    ((registrationFields planHash paperClockStart previous).map Prod.fst).Nodup := by
  cases previous with
  | none =>
      show ["plan_hash", "paper_clock_start"].Nodup
      decide
  | some previous =>
      show ["plan_hash", "paper_clock_start", "previous_plan_hash"].Nodup
      decide

variable (hpart : PlanPart part)
include hpart

theorem nodup_payload :
    ((part ++ registrationFields planHash paperClockStart previous).map Prod.fst).Nodup := by
  rw [List.map_append]
  refine List.nodup_append.mpr ⟨hpart.nodup, nodup_registrationFields, ?_⟩
  rintro key hkey _ hkey' rfl
  exact hpart.apart key hkey (keys_registrationFields key hkey')

theorem plain_payload :
    ∀ f ∈ part ++ registrationFields planHash paperClockStart previous, f.2.plain = true := by
  intro f hf
  exact (List.mem_append.mp hf).elim (hpart.plain f) (plain_registrationFields f)

/-- Without its own keys, a registration has what its plan gave it. -/
theorem strippedFields_payload {data : Mapping}
    (h : data.Perm (Json.toFields (part ++ registrationFields planHash paperClockStart previous))) :
    (strippedFields data).Perm (Json.toFields part) := by
  have hfilter := h.filter fun f => f.1 ∉ registrationOnlyKeys.map codes
  have hkept : (Json.toFields part).filter (fun f => f.1 ∉ registrationOnlyKeys.map codes) =
      Json.toFields part := by
    rw [List.filter_eq_self]
    intro f hf
    refine decide_eq_true fun hin => ?_
    obtain ⟨key, hkey, hcodes⟩ := List.mem_map.mp hin
    have hf' : f.1 ∈ (Json.toFields part).map Prod.fst := List.mem_map_of_mem hf
    rw [Json.toFields_keys] at hf'
    obtain ⟨name, hname, hname'⟩ := List.mem_map.mp hf'
    obtain rfl := Json.codes_injective (hcodes.trans hname'.symm)
    exact hpart.apart key hname hkey
  have hdropped : (Json.toFields (registrationFields planHash paperClockStart previous)).filter
      (fun f => f.1 ∉ registrationOnlyKeys.map codes) = [] := by
    rw [List.filter_eq_nil_iff]
    intro f hf hnot
    have hf' : f.1 ∈ (Json.toFields (registrationFields planHash paperClockStart previous)).map
        Prod.fst := List.mem_map_of_mem hf
    rw [Json.toFields_keys] at hf'
    obtain ⟨name, hname, hname'⟩ := List.mem_map.mp hf'
    refine of_decide_eq_true hnot (hname' ▸ List.mem_map_of_mem (keys_registrationFields name hname))
  have hsplit : Json.toFields (part ++ registrationFields planHash paperClockStart previous) =
      Json.toFields part ++ Json.toFields (registrationFields planHash paperClockStart previous) := by
    simp only [Json.toFields_eq, List.map_append]
  rw [hsplit, List.filter_append, hkept, hdropped, List.append_nil] at hfilter
  exact hfilter

end

/-- The content hash does not depend on the order of the fields. -/
theorem contentHash_of_perm (sha : Sha256) {mapping : Mapping} {fields : List (String × Json)}
    (h : mapping.Perm (Json.toFields fields)) (hkeys : (fields.map Prod.fst).Nodup) :
    sha.hexdigest (textBytes (String.ofList (JsonValue.dumps (.obj mapping)))) =
      contentHash sha fields := by
  have hnodup : (mapping.map Prod.fst).Nodup :=
    (h.map Prod.fst).nodup_iff.mpr (Json.nodup_toFields hkeys)
  have htext : JsonValue.dumps (.obj (Json.toFields fields)) = (Json.obj fields).canonical.toList :=
    Json.dumps_toValue (.obj fields)
  rw [JsonValue.dumps_perm h hnodup, htext, String.ofList_toList]
  rfl

/-- The canonical text does not depend on the order of the fields. -/
theorem contentHash_congr (sha : Sha256) {fields fields' : List (String × Json)}
    (h : fields.Perm fields') (hkeys : (fields'.map Prod.fst).Nodup) :
    contentHash sha fields = contentHash sha fields' := by
  have hfields : (Json.toFields fields).Perm (Json.toFields fields') := by
    rw [Json.toFields_eq, Json.toFields_eq]
    exact h.map _
  rw [← contentHash_of_perm sha hfields hkeys,
    ← contentHash_of_perm sha (.refl _) ((h.map Prod.fst).nodup_iff.mpr hkeys)]

theorem lookup_append_of_not_mem {key : String} {fields : List (String × Json)}
    (h : key ∉ fields.map Prod.fst) (rest : List (String × Json)) :
    Json.lookup key (fields ++ rest) = Json.lookup key rest := by
  induction fields with
  | nil => rfl
  | cons f fields ih =>
      rw [List.map_cons, List.mem_cons, not_or] at h
      rw [List.cons_append, Json.lookup, if_neg (Ne.symm h.1), ih h.2]

section

variable {sha : Sha256} {limits : JsonValue.Limits} {part : List (String × Json)}
  {component planHash createdAt : String} {paperClockStart : ℤ} {previous : Option String}
  {rows : List LedgerRecord}

/-- **An appended registration reads back** as the plan its fields spell, with the hash, the clock and
the link it was appended with. -/
theorem registrationFromRecord_nextRecord (hpart : PlanPart part)
    (hhash : contentHash sha part = planHash)
    (hserialises : (registrationEvent component part planHash paperClockStart
      previous).envelope.serialises limits limits.depth = true)
    {plan : GatePlan}
    (hplan : ∀ mapping : Mapping, mapping.Perm (Json.toFields part) →
      GatePlan.fromCanonical mapping = .ok plan) :
    registrationFromRecord sha limits (nextRecord sha createdAt
      (registrationEvent component part planHash paperClockStart previous) rows) =
        .ok ⟨plan, planHash, paperClockStart, previous,
          (registrationEvent component part planHash paperClockStart previous).eventType⟩ := by
  set event := registrationEvent component part planHash paperClockStart previous with hevent
  have hpayload : event.payload = part ++ registrationFields planHash paperClockStart previous := rfl
  have hnodup : ((part ++ registrationFields planHash paperClockStart previous).map
      Prod.fst).Nodup := nodup_payload hpart
  have hplain : ∀ f ∈ part ++ registrationFields planHash paperClockStart previous,
      f.2.plain = true := plain_payload hpart
  have hdistinct : Json.Distinct (.obj event.payload) := Json.distinct_obj hnodup hplain
  obtain ⟨fields, hloads, -, hdata, -⟩ := loads_envelope hdistinct hserialises
  -- what is read back behind `data` is the payload, its keys in order
  have hsorted : (Json.obj event.payload).toValue.sorted =
      .obj (JsonValue.sortKeys (Json.toFields event.payload)) := by
    rw [Json.toValue, JsonValue.sorted, hpayload, Json.sorted_toFields hplain]
  rw [hsorted] at hdata
  set data := JsonValue.sortKeys (Json.toFields event.payload)
  have hperm : data.Perm (Json.toFields (part ++ registrationFields planHash paperClockStart
    previous)) := JsonValue.sortKeys_perm _
  have hlookup : ∀ key, key ∉ part.map Prod.fst → lookup key data =
      (Json.lookup key (registrationFields planHash paperClockStart previous)).map Json.toValue := by
    intro key hkey
    rw [lookup_of_perm hperm hnodup, lookup_append_of_not_mem hkey]
  have hown : ∀ key ∈ registrationOnlyKeys, key ∉ part.map Prod.fst := fun key hkey hin =>
    hpart.apart key hin hkey
  have hstored : requireMappingStr data "plan_hash" = .ok planHash := by
    refine requireMappingStr_of ((hlookup _ (hown _ (by decide))).trans ?_)
    cases previous <;> rfl
  have hclock : requireMappingInt data "paper_clock_start" = .ok paperClockStart := by
    refine requireMappingInt_of ((hlookup _ (hown _ (by decide))).trans ?_)
    cases previous <;> rfl
  have hprevious : optionalStr (lookup "previous_plan_hash" data) = .ok previous := by
    rw [hlookup _ (hown _ (by decide))]
    cases previous with
    | none => rfl
    | some previous =>
        show optionalStr (some (.str (codes previous))) = _
        rw [optionalStr, text?_codes]
  have hstripped := strippedFields_payload hpart hperm
  have hcontent := contentHash_of_perm sha hstripped hpart.nodup
  have hread : lookup "data" fields = some (.obj data) := hdata
  have hjson : (nextRecord sha createdAt event rows).payloadJson = event.envelope.canonical := rfl
  unfold registrationFromRecord
  refine Effects.except_bind_ok.mpr ⟨.obj fields, by rw [hjson, hloads]; rfl, ?_⟩
  refine Effects.except_bind_ok.mpr ⟨fields, rfl, ?_⟩
  refine Effects.except_bind_ok.mpr ⟨.obj data, by rw [requirePresent, hread]; rfl, ?_⟩
  refine Effects.except_bind_ok.mpr ⟨data, rfl, ?_⟩
  refine Effects.except_bind_ok.mpr ⟨planHash, by rw [hstored]; rfl, ?_⟩
  dsimp only
  rw [if_neg (not_not.mpr (hcontent.trans hhash))]
  refine Effects.except_bind_ok.mpr ⟨plan, by rw [hplan _ hstripped]; rfl, ?_⟩
  refine Effects.except_bind_ok.mpr ⟨paperClockStart, by rw [hclock]; rfl, ?_⟩
  exact Effects.except_bind_ok.mpr ⟨previous, hprevious, rfl⟩

end

/-! ## The newest registration -/

/-- Rows in the order of their positions. -/
def Increasing (rows : List LedgerRecord) : Prop :=
  rows.Pairwise fun record later => record.sequenceNumber < later.sequenceNumber

section

variable {types : List String} {rows : List LedgerRecord}

/-- There is one newest row. -/
theorem isLatest_unique (hrows : Increasing rows) {latest latest' : Option LedgerRecord}
    (h : IsLatest types rows latest) (h' : IsLatest types rows latest') : latest = latest' := by
  cases latest with
  | none =>
      cases latest' with
      | none => rfl
      | some record => exact absurd h'.2.1 (h record h'.1)
  | some record =>
      cases latest' with
      | none => exact absurd h.2.1 (h' record h.1)
      | some record' =>
          have hseq := le_antisymm (h'.2.2 record h.1 h.2.1) (h.2.2 record' h'.1 h'.2.1)
          have hnodup : (rows.map (·.sequenceNumber)).Nodup :=
            List.pairwise_map.mpr (hrows.imp fun hlt => hlt.ne)
          exact congrArg some (List.inj_on_of_nodup_map hnodup h.1 h'.1 hseq)

/-- The next row stands behind all others. -/
theorem increasing_nextRecord (hrows : Increasing rows) (sha : Sha256) (createdAt : String)
    (event : Event) : Increasing (rows ++ [nextRecord sha createdAt event rows]) := by
  refine List.pairwise_append.mpr ⟨hrows, List.pairwise_singleton _ _, ?_⟩
  intro record hrecord next hnext
  rw [List.mem_singleton.mp hnext]
  rcases List.eq_nil_or_concat rows with rfl | ⟨older, last, rfl⟩
  · exact absurd hrecord List.not_mem_nil
  · rw [List.concat_eq_append] at hrecord hrows ⊢
    have hnext : (nextRecord sha createdAt event (older ++ [last])).sequenceNumber =
        last.sequenceNumber + 1 := by
      simp only [nextRecord, List.getLast?_concat]
    rw [hnext]
    rcases List.mem_append.mp hrecord with hrecord | hrecord
    · have hlt := (List.pairwise_append.mp hrows).2.2 record hrecord last
        (List.mem_singleton.mpr rfl)
      omega
    · rw [List.mem_singleton.mp hrecord]
      omega

/-- A row of another type leaves the newest. -/
theorem latestRecordOfTypes_other {record : LedgerRecord} (hrows : Increasing (rows ++ [record]))
    (htype : record.eventType ∉ types) :
    latestRecordOfTypes types (rows ++ [record]) = latestRecordOfTypes types rows := by
  have hold : Increasing rows := hrows.sublist (List.sublist_append_left rows [record])
  refine isLatest_unique hrows (isLatest_latestRecordOfTypes hrows types) ?_
  have hlatest := isLatest_latestRecordOfTypes hold types
  cases hfound : latestRecordOfTypes types rows with
  | none =>
      rw [hfound] at hlatest
      intro other hother
      rcases List.mem_append.mp hother with hother | hother
      · exact hlatest other hother
      · rw [List.mem_singleton.mp hother]
        exact htype
  | some latest =>
      rw [hfound] at hlatest
      refine ⟨List.mem_append_left _ hlatest.1, hlatest.2.1, fun other hother hin => ?_⟩
      rcases List.mem_append.mp hother with hother | hother
      · exact hlatest.2.2 other hother hin
      · rw [List.mem_singleton.mp hother] at hin
        exact absurd hin htype

/-- A row of a requested type becomes the newest. -/
theorem latestRecordOfTypes_own {record : LedgerRecord} (hrows : Increasing (rows ++ [record]))
    (htype : record.eventType ∈ types) :
    latestRecordOfTypes types (rows ++ [record]) = some record := by
  refine isLatest_unique hrows (isLatest_latestRecordOfTypes hrows types) ?_
  refine ⟨List.mem_append_right _ (List.mem_singleton.mpr rfl), htype, fun other hother _ => ?_⟩
  rcases List.mem_append.mp hother with hother | hother
  · exact ((List.pairwise_append.mp hrows).2.2 other hother record (List.mem_singleton.mpr rfl)).le
  · rw [List.mem_singleton.mp hother]

end

/-! ## One call -/

theorem GatePlan.planHash_ok {sha : Sha256} {limits : JsonValue.Limits} {plan : GatePlan}
    {planHash : String} (h : plan.planHash sha limits = .ok planHash) :
    contentHash sha plan.canonicalDict = planHash := by
  obtain ⟨text, htext, hpure⟩ := Effects.except_bind_ok.mp h
  unfold GatePlan.canonicalJsonStr at htext
  by_cases hserialises : (Json.obj plan.canonicalDict).serialises limits limits.depth = true
  · rw [if_pos hserialises] at htext
    cases htext
    cases hpure
    rfl
  · rw [if_neg hserialises] at htext
    exact absurd htext.symm (fun hne => by cases hne)

/-- Where a registration is appended: its plan serialises, and so does its event. -/
structure AppendsPlan (sha : Sha256) (limits : JsonValue.Limits) (env : AppendEnv) (component : String)
    (plan : GatePlan) (epoch : ℤ) (previous : Option String) (rows : List LedgerRecord)
    (registration : GatePlanRegistration) (rows' : List LedgerRecord) : Prop where
  hashed : plan.planHash sha limits = .ok registration.planHash
  made : registration = ⟨plan, registration.planHash, epoch, previous,
    (registrationEvent component (flatPlanFields plan) registration.planHash epoch
      previous).eventType⟩
  serialises : (registrationEvent component (flatPlanFields plan) registration.planHash epoch
    previous).envelope.serialises limits limits.depth = true
  row : rows' = rows ++ [nextRecord sha env.createdAt
    (registrationEvent component (flatPlanFields plan) registration.planHash epoch previous) rows]

section

variable {sha : Sha256} {limits : JsonValue.Limits} {env : AppendEnv} {component : String}
  {plan : GatePlan} {rows : List LedgerRecord}

theorem appendRegistration_cases (sha : Sha256) (limits : JsonValue.Limits) (env : AppendEnv)
    (component : String) (plan : GatePlan) (rows : List LedgerRecord) (epoch : ℤ)
    (previous : Option String) :
    (∃ e, appendRegistration sha limits env component plan epoch previous rows = (.error e, rows)) ∨
      ∃ registration rows',
        AppendsPlan sha limits env component plan epoch previous rows registration rows' ∧
          appendRegistration sha limits env component plan epoch previous rows =
            (.ok registration, rows') := by
  unfold appendRegistration
  cases hhash : plan.planHash sha limits with
  | error e => exact .inl ⟨e, rfl⟩
  | ok planHash =>
      dsimp only
      rcases append_cases sha limits env
        (registrationEvent component (flatPlanFields plan) planHash epoch previous) rows with
        ⟨e, happend⟩ | ⟨hserialises, happend⟩
      · rw [happend]
        exact .inl ⟨_, rfl⟩
      · rw [happend]
        refine .inr ⟨⟨plan, planHash, epoch, previous, (registrationEvent component
          (flatPlanFields plan) planHash epoch previous).eventType⟩, _, ?_, rfl⟩
        exact ⟨hhash, rfl, hserialises, rfl⟩

/-- **An appended registration is the newest**, and reads back as it was made. -/
theorem AppendsPlan.readBack (hrows : Increasing rows) {epoch : ℤ} {previous : Option String}
    {registration : GatePlanRegistration} {rows' : List LedgerRecord}
    (h : AppendsPlan sha limits env component plan epoch previous rows registration rows') :
    Increasing rows' ∧
      latestGatePlanRegistration sha limits rows' = .ok (some registration) := by
  have hincreasing := increasing_nextRecord hrows sha env.createdAt
    (registrationEvent component (flatPlanFields plan) registration.planHash epoch previous)
  rw [h.row]
  refine ⟨hincreasing, ?_⟩
  have htype : (nextRecord sha env.createdAt (registrationEvent component (flatPlanFields plan)
      registration.planHash epoch previous) rows).eventType ∈ registrationEventTypes := by
    cases previous with
    | none => exact List.mem_cons_self
    | some previous => exact List.mem_cons_of_mem _ List.mem_cons_self
  have hhash : contentHash sha (flatPlanFields plan) = registration.planHash :=
    (contentHash_congr sha (perm_flatPlanFields plan) (nodup_canonicalDict _)).trans
      (GatePlan.planHash_ok h.hashed)
  have hdict : (Json.toFields (flatPlanFields plan)).Perm (Json.toFields plan.canonicalDict) := by
    rw [Json.toFields_eq, Json.toFields_eq]
    exact (perm_flatPlanFields plan).map _
  have hread := @registrationFromRecord_nextRecord _ _ _ _ _ env.createdAt _ _ rows
    (planPart_flatPlanFields plan) hhash h.serialises plan fun mapping hmapping =>
      fromCanonical_canonicalDict plan (.refl _) (hmapping.trans hdict)
  rw [latestGatePlanRegistration, latestRecordOfTypes_own hincreasing htype]
  dsimp only
  rw [hread, ← h.made]
  rfl

end

end Windbreak
