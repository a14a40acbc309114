import Windbreak.Core.JsonCanonical
import Windbreak.Core.LabelledTrees

/-!
# The configuration schema

The sections of the configuration as data: the fields of every dataclass in the order they are
declared, each with its type, the key it is read from and its default.

* `Hint` — the types a field is declared with.
* `typed` — a value has exactly its declared type; a boolean is not an integer.
* `windbreakConfig` — the root; `WindbreakConfig` is a value of it.
* **`defaults_typed`** — every default of the schema has the type of its field.
-/

namespace Windbreak.Config

/-! ## Values -/

/-- A string: surrogates may stand in it alone. -/
abbrev Text := {s : CodePoints // ∀ n ∈ s, n < 1114112}

/-- The string a literal stands for. -/
def text (s : String) : Text := ⟨JsonValue.codes s, (Json.sound_codes s).1⟩

/-- A leaf of a configuration. -/
inductive Leaf where
  | none
  | bool (b : Bool)
  | int (i : ℤ)
  | str (s : Text)
  deriving DecidableEq

/-- A value of a configuration: a leaf, a tuple, or a dataclass with its fields in order. -/
abbrev Value := DataTree Leaf

def boolean (b : Bool) : Value := .leaf (.bool b)

def integer (i : ℤ) : Value := .leaf (.int i)

def string (s : String) : Value := .leaf (.str (text s))

def strings (ss : List String) : Value := .list (ss.map string)

/-! ## Declared types -/

/-- What a dataclass says of a field besides its type. A field without a default must be given. -/
structure Field where
  name : String
  yamlKey : String
  converted : Bool
  default : Option Value

/-- A declared type. -/
inductive Hint where
  | bool
  | int
  | str
  | optional (member : Hint)
  | tuple (element : Hint)
  | dataclass (fields : List (Field × Hint))

/-- A field read from the key of its own name. -/
def field (name : String) (hint : Hint) (default : Value) : Field × Hint :=
  (⟨name, name, false, some default⟩, hint)

/-- A field that must be given. -/
def required (name : String) (hint : Hint) : Field × Hint := (⟨name, name, false, none⟩, hint)

/-- The fields of a dataclass that have a default, at their defaults. -/
def defaults (fields : List (Field × Hint)) : List (String × Value) :=
  fields.filterMap fun f => f.1.default.map (Prod.mk f.1.name)

/-- A field that holds a section, built with the section's own defaults when it is not given. -/
def configSection (name : String) (fields : List (Field × Hint)) : Field × Hint :=
  field name (.dataclass fields) (.record (defaults fields))

mutual

/-- A value has exactly the declared type. -/
def typed : Hint → Value → Bool
  | .bool, .leaf (.bool _) => true
  | .int, .leaf (.int _) => true
  | .str, .leaf (.str _) => true
  | .optional _, .leaf .none => true
  | .optional member, value => typed member value
  | .tuple element, .list items => items.all (typed element)
  | .dataclass fields, .record values => typedFields fields values
  | _, _ => false

/-- The fields in the order they are declared, each of its type. -/
def typedFields : List (Field × Hint) → List (String × Value) → Bool
  | [], [] => true
  | (f, hint) :: fields, (name, value) :: values =>
    decide (name = f.name) && typed hint value && typedFields fields values
  | _, _ => false

end

/-! ## The sections -/

def unconfiguredPlaceholder : String := "configured-by-operator"

def modelRef : List (Field × Hint) := [required "provider" .str, required "model" .str]

def smtpSinkSettings : List (Field × Hint) :=
  [field "host" .str (string unconfiguredPlaceholder),
    field "port" .int (integer 587),
    field "sender" .str (string unconfiguredPlaceholder),
    field "recipients" (.tuple .str) (strings [])]

def alertSink : List (Field × Hint) :=
  [required "type" .str,
    field "topic_env" .str (string unconfiguredPlaceholder),
    field "base_url_env" .str (string unconfiguredPlaceholder),
    field "url_env" .str (string unconfiguredPlaceholder),
    configSection "smtp" smtpSinkSettings]

def horizonDays : List (Field × Hint) :=
  [field "min" .int (integer 2), field "max" .int (integer 120)]

def exchangeConfig : List (Field × Hint) :=
  [field "provider" .str (string "kalshi"),
    field "environment" .str (string "demo"),
    field "product_allowlist" (.tuple .str) (strings ["predictions"]),
    field "product_blocklist" (.tuple .str) (strings ["perps", "margin"]),
    field "require_jurisdiction_eligible" .bool (boolean true)]

def capitalConfig : List (Field × Hint) :=
  [field "floor_micros" .int (integer 1000000000),
    field "floor_ratchet_ppm_of_new_profits" .int (integer 500000),
    field "profit_sweep_threshold_micros" .int (integer 250000000),
    field "max_deploy_pct_above_floor_ppm" .int (integer 500000),
    field "micro_cap_micros" .int (integer 100000000)]

def riskConfig : List (Field × Hint) :=
  [field "min_net_edge_ppm" .int (integer 30000),
    field "annualized_hurdle_ppm" .int (integer 200000),
    field "idle_cash_apr_ppm" .int (integer 40000),
    field "kelly_fraction_ppm" .int (integer 100000),
    field "dispersion_zero_ceiling_ppm" .int (integer 200000),
    field "min_open_price_pips" .int (integer 500),
    field "max_open_price_pips" .int (integer 9500),
    field "max_participation_ppm" .int (integer 250000),
    field "max_pos_market_pct_ppm" .int (integer 20000),
    field "max_pos_event_pct_ppm" .int (integer 40000),
    field "max_pos_bucket_pct_ppm" .int (integer 100000),
    field "daily_loss_limit_pct_ppm" .int (integer 20000),
    field "max_drawdown_pct_ppm" .int (integer 100000),
    field "max_orders_per_hour" .int (integer 20),
    field "max_notional_per_day_micros" .int (integer 500000000),
    field "quote_ttl_seconds" .int (integer 10),
    field "approval_ttl_seconds" .int (integer 60),
    field "resting_order_ttl_seconds" .int (integer 900),
    field "cancel_on_move_ticks" .int (integer 2),
    field "clock_skew_max_seconds" .int (integer 2),
    field "require_human_ack_above_micros" (.optional .int) (.leaf .none),
    field "kill_after_consecutive_mismatches" .int (integer 3),
    field "verification_balance_tolerance_micros" .int (integer 0),
    field "verification_position_tolerance_centis" .int (integer 0),
    field "max_pos_total_pct_ppm" .int (integer 1000000)]

def correlationTagConfig : List (Field × Hint) :=
  [required "ticker" .str, required "bucket_ids" (.tuple .str), required "tagged_at" .str]

def correlationConfig : List (Field × Hint) :=
  [field "tags" (.tuple (.dataclass correlationTagConfig)) (.list [])]

def screenerConfig : List (Field × Hint) :=
  [field "category_blocklist" (.tuple .str)
      (strings ["sports", "crypto_price", "celebrity", "insider_prone"]),
    field "min_volume_24h_micros" .int (integer 5000000000),
    field "min_depth_contract_centis" .int (integer 10000),
    configSection "horizon_days" horizonDays,
    field "max_candidates_per_tick" .int (integer 3)]

def forecastBudget : List (Field × Hint) :=
  [field "per_forecast_micros" .int (integer 6060000),
    field "per_day_micros" .int (integer 20000000),
    field "max_pages" .int (integer 20)]

def canaryConfig : List (Field × Hint) :=
  [field "enabled" .bool (boolean true), field "cadence_days" .int (integer 7)]

def ensembleMemberConfig : List (Field × Hint) :=
  [required "provider" .str, required "model_version" .str, required "training_cutoff" .str]

/-- `ModelRef(provider, model)`. -/
def modelRefOf (provider model : String) : Value :=
  .record [("provider", string provider), ("model", string model)]

/-- `EnsembleMemberConfig(provider, model_version, training_cutoff)`. -/
def ensembleMemberOf (provider modelVersion trainingCutoff : String) : Value :=
  .record [("provider", string provider), ("model_version", string modelVersion),
    ("training_cutoff", string trainingCutoff)]

def defaultEnsemble : Value :=
  .list [modelRefOf "anthropic" "pinned-by-operator", modelRefOf "openai" "pinned-by-operator"]

def defaultTriageModel : Value := modelRefOf "cheapest-adequate" "pinned-by-operator"

def defaultVoteEnsemble : Value :=
  .list [ensembleMemberOf "openai" "gpt-5-2025-08-07" "2024-09-30",
    ensembleMemberOf "anthropic" "claude-sonnet-4-5-20250929" "2025-07-31",
    ensembleMemberOf "openai" "gpt-5-mini-2025-08-07" "2024-05-31"]

def futureSearchProviderSettings : List (Field × Hint) :=
  [field "endpoint_url" .str (string unconfiguredPlaceholder),
    field "pinned_forecaster_versions" (.tuple .str) (strings ["pinned-by-operator"]),
    field "api_key_env" .str (string "FUTURESEARCH_API_KEY"),
    field "per_call_ceiling_micros" .int (integer 2000000),
    field "reject_on_version_drift" .bool (boolean true)]

def researchSettings : List (Field × Hint) :=
  [field "search_endpoint_url" .str (string unconfiguredPlaceholder),
    field "search_api_key_env" .str (string "RESEARCH_SEARCH_API_KEY"),
    field "allowed_research_hosts" (.tuple .str) (strings []),
    field "fetch_timeout_seconds" .int (integer 30),
    field "fetch_max_bytes" .int (integer 2000000),
    field "allowed_content_types" (.tuple .str) (strings ["text/html"]),
    field "cache_max_bytes" .int (integer 268435456)]

def replayCorpusConfig : List (Field × Hint) :=
  [field "mode" .str (string "disabled"),
    field "corpus_dir" .str (string unconfiguredPlaceholder)]

def providerRetryConfig : List (Field × Hint) :=
  [field "max_attempts" .int (integer 3),
    field "total_deadline_ms" .int (integer 30000),
    field "backoff_base_ms" .int (integer 1000),
    field "max_cost_micros" .int (integer 1000000)]

def providerPrice : List (Field × Hint) :=
  [required "provider" .str, required "price_micros" .int]

/-- `ProviderPrice(provider, price_micros)`. -/
def providerPriceOf (provider : String) (priceMicros : ℤ) : Value :=
  .record [("provider", string provider), ("price_micros", integer priceMicros)]

def defaultProviderPrices : Value :=
  .list [providerPriceOf "openai" 200000, providerPriceOf "anthropic" 300000]

def modelTokenPrice : List (Field × Hint) :=
  [required "model_version" .str, required "input_micros_per_million_tokens" .int,
    required "output_micros_per_million_tokens" .int]

/-- `ModelTokenPrice(model_version, input, output)`. -/
def modelTokenPriceOf (modelVersion : String) (input output : ℤ) : Value :=
  .record [("model_version", string modelVersion),
    ("input_micros_per_million_tokens", integer input),
    ("output_micros_per_million_tokens", integer output)]

def defaultModelTokenPrices : Value :=
  .list [modelTokenPriceOf "gpt-5-2025-08-07" 1250000 10000000,
    modelTokenPriceOf "gpt-5-mini-2025-08-07" 250000 2000000,
    modelTokenPriceOf "claude-sonnet-4-5-20250929" 3000000 15000000]

def providerTransportConfig : List (Field × Hint) :=
  [field "mode" .str (string "cassette"),
    field "request_timeout_seconds" .int (integer 30),
    field "anthropic_api_key_env" .str (string "ANTHROPIC_API_KEY"),
    field "openai_api_key_env" .str (string "OPENAI_API_KEY"),
    configSection "retry" providerRetryConfig,
    field "prices" (.tuple (.dataclass providerPrice)) defaultProviderPrices,
    field "unknown_provider_price_micros" .int (integer 1000000),
    field "token_prices" (.tuple (.dataclass modelTokenPrice)) defaultModelTokenPrices,
    field "unmetered_response_micros" .int (integer 1000000)]

def providerGateConfig : List (Field × Hint) :=
  [field "min_resolved" .int (integer 150), field "min_brier_skill_ppm" .int (integer 10000)]

def forecastConfig : List (Field × Hint) :=
  [field "ensemble" (.tuple (.dataclass modelRef)) defaultEnsemble,
    field "triage_model" (.dataclass modelRef) defaultTriageModel,
    field "triage_threshold_ppm" .int (integer 50000),
    field "shrink_to_market_lambda_ppm" .int (integer 250000),
    configSection "budget" forecastBudget,
    field "min_verified_citations" .int (integer 3),
    configSection "canary" canaryConfig,
    field "vote_ensemble" (.tuple (.dataclass ensembleMemberConfig)) defaultVoteEnsemble,
    configSection "futuresearch" futureSearchProviderSettings,
    configSection "research" researchSettings,
    configSection "provider_gate" providerGateConfig,
    configSection "provider_transport" providerTransportConfig,
    configSection "replay_corpus" replayCorpusConfig]

def evaluationConfig : List (Field × Hint) :=
  [field "min_resolved_for_calibration" .int (integer 150),
    field "promotion_min_resolved" .int (integer 300),
    field "promotion_min_independent_event_groups" .int (integer 100),
    field "brier_skill_required_ppm" .int (integer 10000),
    -- the one field read from another key, and through a converter
    (⟨"bootstrap_confidence_ppm", "bootstrap_confidence", true, some (integer 950000)⟩, .int),
    field "observation_window" .str (string "latest_before_close"),
    field "live_rolling_window_size" .int (integer 100),
    field "live_slippage_ratio_limit_ppm" .int (integer 1500000),
    field "live_brier_degradation_band_ppm" .int (integer 50000)]

def opsConfig : List (Field × Hint) :=
  [field "state_dir" .str (string "~/.local/share/windbreak"),
    field "backup_dir" .str (string "~/windbreak-backups"),
    field "min_free_disk_mb" .int (integer 1000),
    field "cancel_open_orders_on_shutdown" .bool (boolean true)]

/-- `(AlertSink("ntfy", UNCONFIGURED_PLACEHOLDER),)`; the placeholder is `topic_env`'s default. -/
def defaultAlertSinks : Value := .list [.record (("type", string "ntfy") :: defaults alertSink)]

def alertsConfig : List (Field × Hint) :=
  [field "sinks" (.tuple (.dataclass alertSink)) defaultAlertSinks,
    field "allowed_hosts" (.tuple .str) (strings [])]

def dashboardConfig : List (Field × Hint) := [field "port" .int (integer 8080)]

/-- The fields of the root. -/
def windbreakConfigFields : List (Field × Hint) :=
  [field "mode_ceiling" .str (string "paper"),
    configSection "exchange" exchangeConfig,
    configSection "capital" capitalConfig,
    configSection "risk" riskConfig,
    configSection "correlation" correlationConfig,
    configSection "screener" screenerConfig,
    configSection "forecast" forecastConfig,
    configSection "evaluation" evaluationConfig,
    configSection "ops" opsConfig,
    configSection "alerts" alertsConfig,
    configSection "dashboard" dashboardConfig]

def windbreakConfig : Hint := .dataclass windbreakConfigFields

/-- **A configuration**: a value of the root's type. -/
structure WindbreakConfig where
  value : Value
  wellTyped : typed windbreakConfig value = true

@[ext] theorem WindbreakConfig.ext {a b : WindbreakConfig} (h : a.value = b.value) : a = b := by
  cases a
  cases b
  cases h
  rfl

theorem default_wellTyped :
    typed windbreakConfig (.record (defaults windbreakConfigFields)) = true := by decide +kernel

/-- `WindbreakConfig()`. -/
def defaultConfig : WindbreakConfig := ⟨.record (defaults windbreakConfigFields), default_wellTyped⟩

/-! ## Typing, constructor by constructor -/

theorem typed_bool {value : Value} : typed .bool value = true ↔ ∃ b, value = boolean b := by
  constructor
  · intro h
    cases value with
    | leaf leaf =>
        cases leaf with
        | bool b => exact ⟨b, rfl⟩
        | none => cases h
        | int i => cases h
        | str s => cases h
    | list items => cases h
    | record values => cases h
  · rintro ⟨b, rfl⟩
    rfl

theorem typed_int {value : Value} : typed .int value = true ↔ ∃ i, value = integer i := by
  constructor
  · intro h
    cases value with
    | leaf leaf =>
        cases leaf with
        | int i => exact ⟨i, rfl⟩
        | none => cases h
        | bool b => cases h
        | str s => cases h
    | list items => cases h
    | record values => cases h
  · rintro ⟨i, rfl⟩
    rfl

theorem typed_str {value : Value} : typed .str value = true ↔ ∃ s, value = .leaf (.str s) := by
  constructor
  · intro h
    cases value with
    | leaf leaf =>
        cases leaf with
        | str s => exact ⟨s, rfl⟩
        | none => cases h
        | bool b => cases h
        | int i => cases h
    | list items => cases h
    | record values => cases h
  · rintro ⟨s, rfl⟩
    rfl

theorem typed_optional {member : Hint} {value : Value} :
    typed (.optional member) value = true ↔ value = .leaf .none ∨ typed member value = true := by
  cases value with
  | leaf leaf =>
      cases leaf with
      | none => exact iff_of_true rfl (.inl rfl)
      | bool b => exact (or_iff_right (by simp)).symm
      | int i => exact (or_iff_right (by simp)).symm
      | str s => exact (or_iff_right (by simp)).symm
  | list items => exact (or_iff_right (by simp)).symm
  | record values => exact (or_iff_right (by simp)).symm

theorem typed_tuple {element : Hint} {value : Value} :
    typed (.tuple element) value = true ↔
      ∃ items, value = .list items ∧ ∀ item ∈ items, typed element item = true := by
  constructor
  · intro h
    cases value with
    | leaf leaf => cases h
    | list items => exact ⟨items, rfl, List.all_eq_true.mp h⟩
    | record values => cases h
  · rintro ⟨items, rfl, h⟩
    exact List.all_eq_true.mpr h

theorem typed_dataclass {fields : List (Field × Hint)} {value : Value} :
    typed (.dataclass fields) value = true ↔
      ∃ values, value = .record values ∧ typedFields fields values = true := by
  constructor
  · intro h
    cases value with
    | leaf leaf => cases h
    | list items => cases h
    | record values => exact ⟨values, rfl, h⟩
  · rintro ⟨values, rfl, h⟩
    exact h

theorem typedFields_nil {values : List (String × Value)} :
    typedFields [] values = true ↔ values = [] := by
  cases values with
  | nil => exact iff_of_true rfl rfl
  | cons v values => exact iff_of_false Bool.false_ne_true (List.cons_ne_nil v values)

theorem typedFields_cons {f : Field} {hint : Hint} {fields : List (Field × Hint)}
    {values : List (String × Value)} :
    typedFields ((f, hint) :: fields) values = true ↔
      ∃ value others, values = (f.name, value) :: others ∧ typed hint value = true ∧
        typedFields fields others = true := by
  constructor
  · intro h
    cases values with
    | nil => cases h
    | cons v others =>
        obtain ⟨name, value⟩ := v
        rw [typedFields, Bool.and_eq_true, Bool.and_eq_true, decide_eq_true_eq] at h
        obtain ⟨⟨rfl, hvalue⟩, hothers⟩ := h
        exact ⟨value, others, rfl, hvalue, hothers⟩
  · rintro ⟨value, others, rfl, hvalue, hothers⟩
    rw [typedFields, Bool.and_eq_true, Bool.and_eq_true, decide_eq_true_eq]
    exact ⟨⟨rfl, hvalue⟩, hothers⟩

/-! ## The schema's defaults -/

mutual

/-- Every default of the sections of a type has the type of its field. -/
def defaultsTyped : Hint → Bool
  | .bool => true
  | .int => true
  | .str => true
  | .optional member => defaultsTyped member
  | .tuple element => defaultsTyped element
  | .dataclass fields => defaultsTypedFields fields

def defaultsTypedFields : List (Field × Hint) → Bool
  | [] => true
  | (f, hint) :: fields =>
    (f.default.all (typed hint) && (!f.converted || typed hint (integer 0))) &&
      defaultsTyped hint && defaultsTypedFields fields

end

/-- **Every default has the type of its field**, and a converted field is an integer. -/
theorem defaults_typed : defaultsTyped windbreakConfig = true := by decide +kernel

end Windbreak.Config
