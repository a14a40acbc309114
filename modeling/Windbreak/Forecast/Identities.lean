import Windbreak.Core.JsonFlat
import Windbreak.Core.UtcDate
import Windbreak.Forecast.Pipeline
import Windbreak.OrderGateway.Encodings
import Windbreak.Selector.Select

/-!
# What an identity identifies

A forecast is known by a digest of its provenance, an intent by its forecast's id and by a digest of
what it orders.  The question enters the first of them as a digest of its own: of the title with the
resolution criteria right behind it.

* `forecastIdText`, `idempotencyText` — the texts that are digested.
* **`forecastIdText_eq_iff`**, **`idempotencyText_eq_iff`** — when two of them are the same.
* **`identities_identify`** — what that means for ids, intent ids and idempotency keys.
-/

namespace Windbreak.Identities

open Calendar

/-! ## Instants as text -/

/-- An aware instant, in UTC. -/
structure UtcMoment where
  date : UtcDate
  hour : ℕ
  minute : ℕ
  second : ℕ
  microsecond : ℕ
  hour_lt : hour < 24
  minute_lt : minute < 60
  second_lt : second < 60
  microsecond_lt : microsecond < 1000000
  deriving DecidableEq, Repr

/-- `iso_z` -/
def isoZ (moment : UtcMoment) : String :=
  String.ofList (moment.date.isoformat.toList ++ 'T' :: (twoDigits moment.hour ++
    ':' :: (twoDigits moment.minute ++ ':' :: (twoDigits moment.second ++
      '.' :: (twoDigits (moment.microsecond / 10000) ++ (fourDigits moment.microsecond ++
        ['Z']))))))

theorem length_isoformat (date : UtcDate) : date.isoformat.toList.length = 10 := by
  rw [UtcDate.isoformat, String.toList_ofList]
  rfl

/-- **The text determines the instant.** -/
theorem isoZ_injective : Function.Injective isoZ := by
  intro m m' h
  have hchars := congrArg String.toList h
  simp only [isoZ, String.toList_ofList] at hchars
  obtain ⟨hdate, hrest⟩ := List.append_inj hchars (by rw [length_isoformat, length_isoformat])
  obtain ⟨hhour, hrest⟩ := List.append_inj (List.cons.inj hrest).2 rfl
  obtain ⟨hminute, hrest⟩ := List.append_inj (List.cons.inj hrest).2 rfl
  obtain ⟨hsecond, hrest⟩ := List.append_inj (List.cons.inj hrest).2 rfl
  obtain ⟨hhigh, hrest⟩ := List.append_inj (List.cons.inj hrest).2 rfl
  obtain ⟨hlow, -⟩ := List.append_inj hrest rfl
  obtain ⟨date, hour, minute, second, microsecond, hh, hm, hs, hu⟩ := m
  obtain ⟨date', hour', minute', second', microsecond', hh', hm', hs', hu'⟩ := m'
  obtain rfl : date = date' := isoformat_injective (String.toList_inj.mp hdate)
  obtain rfl : hour = hour' := twoDigits_inj (by omega) (by omega) hhour
  obtain rfl : minute = minute' := twoDigits_inj (by omega) (by omega) hminute
  obtain rfl : second = second' := twoDigits_inj (by omega) (by omega) hsecond
  dsimp only at hhigh hlow
  have hquotient : microsecond / 10000 = microsecond' / 10000 :=
    twoDigits_inj (by omega) (by omega) hhigh
  simp only [fourDigits, twoDigits, List.cons_append, List.nil_append, List.cons.injEq, digit_inj,
    and_true] at hlow
  obtain rfl : microsecond = microsecond' := by omega
  rfl

/-! ## Forecasts -/

/-- What a forecast's id is derived from.  The title and the criteria are encoded, so they hold no
lone surrogate; the snapshot's id may. -/
structure ForecastProvenance where
  title : String
  resolutionCriteria : String
  snapshotId : CodePoints
  createdAt : UtcMoment
  stage : TriageStage
  snapshot_text : ∀ n ∈ snapshotId, n < 1114112

/-- `digest_source`: the text that is hashed for the question. -/
def ForecastProvenance.question (p : ForecastProvenance) : String := p.title ++ p.resolutionCriteria

/-- The bytes of a text. -/
def textBytes (text : String) : List UInt8 := text.toUTF8.data.toList

/-- `normalize_question` -/
def normalizeQuestion (sha256 : HexDigest) (p : ForecastProvenance) : String :=
  sha256 (textBytes p.question)

/-- The tag that a triage-only id ends with. -/
def stageTag : TriageStage → List CodePoints
  | .full => []
  | .triageOnly => [JsonValue.codes "triage_only"]

/-- The canonical list that `_forecast_id` and `_triage_forecast_id` hash. -/
def forecastIdParts (sha256 : HexDigest) (p : ForecastProvenance) : List CodePoints :=
  [JsonValue.codes (normalizeQuestion sha256 p), p.snapshotId,
    JsonValue.codes (isoZ p.createdAt)] ++ stageTag p.stage

/-- The text behind a forecast's id. -/
def forecastIdText (sha256 : HexDigest) (p : ForecastProvenance) : String :=
  String.ofList (JsonValue.dumps (.arr ((forecastIdParts sha256 p).map .str)))

/-- `_forecast_id` and `_triage_forecast_id` -/
def forecastId (sha256 : HexDigest) (p : ForecastProvenance) : String :=
  sha256 (textBytes (forecastIdText sha256 p))

/-! ## Intents -/

/-- The fields behind an idempotency key. -/
def idempotencyFields (forecastId marketTicker : CodePoints) (pricePips sizeCentis : ℤ) :
    List (CodePoints × JsonValue) :=
  [(JsonValue.codes "forecast_id", .str forecastId),
    (JsonValue.codes "market_ticker", .str marketTicker),
    (JsonValue.codes "outcome", .str (JsonValue.codes "yes")),
    (JsonValue.codes "action", .str (JsonValue.codes "buy")),
    (JsonValue.codes "price", .int pricePips), (JsonValue.codes "size", .int sizeCentis)]

/-- The text behind an idempotency key. -/
def idempotencyText (forecastId marketTicker : CodePoints) (pricePips sizeCentis : ℤ) : String :=
  String.ofList (JsonValue.dumps
    (.obj (idempotencyFields forecastId marketTicker pricePips sizeCentis)))

/-- The text behind the key of an intent that was built from some inputs. -/
def intentText (inputs : SelectorInputs) (intent : SelectorOrderIntent) : String :=
  idempotencyText (JsonValue.codes inputs.forecast.forecastId)
    (JsonValue.codes inputs.forecast.marketTicker) intent.price.value intent.size.value

/-- `_idempotency_key`, of an intent that was built from some inputs. -/
def idempotencyKey (sha256 : HexDigest) (inputs : SelectorInputs) (intent : SelectorOrderIntent) :
    String := sha256 (textBytes (intentText inputs intent))

/-- A selection that emits an intent. -/
def Emits (inputs : SelectorInputs) (intent : SelectorOrderIntent) : Prop :=
  ∃ answer, select inputs = .ok answer ∧ intent ∈ answer.intents

/-! ## One text, one identity -/

theorem codes_valid (text : String) : ∀ n ∈ JsonValue.codes text, n < 1114112 :=
  (Json.sound_codes text).1

/-- A text without lone surrogates is read as itself. -/
theorem joined_codes (text : String) :
    JsonValue.joined (JsonValue.codes text) = JsonValue.codes text :=
  (JsonValue.joined_eq_iff (codes_valid text)).mpr (Json.sound_codes text)

theorem forecastIdParts_valid (sha256 : HexDigest) (p : ForecastProvenance) :
    ∀ part ∈ forecastIdParts sha256 p, ∀ n ∈ part, n < 1114112 := by
  have htag : ∀ part ∈ stageTag p.stage, ∀ n ∈ part, n < 1114112 := by
    cases p.stage with
    | full => exact fun part hpart => absurd hpart List.not_mem_nil
    | triageOnly => exact List.forall_mem_singleton.mpr (codes_valid _)
  rw [forecastIdParts]
  refine List.forall_mem_append.mpr ⟨?_, htag⟩
  simp only [List.forall_mem_cons]
  exact ⟨codes_valid _, p.snapshot_text, codes_valid _, fun _ h => absurd h List.not_mem_nil⟩

/-- A list of texts shows the texts as they are read. -/
theorem dumps_texts_iff {texts texts' : List CodePoints}
    (h : ∀ text ∈ texts, ∀ n ∈ text, n < 1114112)
    (h' : ∀ text ∈ texts', ∀ n ∈ text, n < 1114112) :
    JsonValue.dumps (.arr (texts.map .str)) = JsonValue.dumps (.arr (texts'.map .str)) ↔
      texts.map JsonValue.joined = texts'.map JsonValue.joined := by
  have hread : ∀ items : List CodePoints, (items.map JsonValue.str).map JsonValue.readBack =
      (items.map JsonValue.joined).map .str := by
    intro items
    rw [List.map_map, List.map_map]
    rfl
  rw [JsonValue.dumps_arr_iff (List.forall_mem_map.mpr fun text ht => .str text (h text ht))
    (List.forall_mem_map.mpr fun text ht => .str text (h' text ht)), hread, hread]
  exact (List.map_injective_iff.mpr fun _ _ => JsonValue.str.inj).eq_iff

/-- **The text behind an id** stands for the digest of the question, the snapshot as it is read, the
instant and the stage. -/
theorem forecastIdText_eq_iff (sha256 : HexDigest) (p p' : ForecastProvenance) :
    forecastIdText sha256 p = forecastIdText sha256 p' ↔
      normalizeQuestion sha256 p = normalizeQuestion sha256 p' ∧
        JsonValue.joined p.snapshotId = JsonValue.joined p'.snapshotId ∧
        p.createdAt = p'.createdAt ∧ p.stage = p'.stage := by
  rw [forecastIdText, forecastIdText, String.ofList_inj,
    dumps_texts_iff (forecastIdParts_valid sha256 p) (forecastIdParts_valid sha256 p')]
  simp only [forecastIdParts, List.map_cons, joined_codes, List.cons_append, List.nil_append,
    List.cons.injEq]
  have htag : (stageTag p.stage).map JsonValue.joined = (stageTag p'.stage).map JsonValue.joined ↔
      p.stage = p'.stage := by
    cases p.stage <;> cases p'.stage <;> simp [stageTag]
  rw [htag]
  constructor
  · rintro ⟨hquestion, hsnapshot, hcreated, hstage⟩
    exact ⟨Json.codes_injective hquestion, hsnapshot,
      isoZ_injective (Json.codes_injective hcreated), hstage⟩
  · rintro ⟨hquestion, hsnapshot, hcreated, hstage⟩
    rw [hquestion, hcreated]
    exact ⟨rfl, hsnapshot, rfl, hstage⟩

theorem flat_idempotencyFields {forecastId marketTicker : CodePoints} (pricePips sizeCentis : ℤ)
    (hforecast : ∀ n ∈ forecastId, n < 1114112) (hmarket : ∀ n ∈ marketTicker, n < 1114112) :
    ∀ f ∈ idempotencyFields forecastId marketTicker pricePips sizeCentis, JsonValue.Flat f.2 := by
  simp only [idempotencyFields, List.forall_mem_cons]
  exact ⟨.str _ hforecast, .str _ hmarket, .str _ (codes_valid _), .str _ (codes_valid _), .int _,
    .int _, fun _ h => absurd h List.not_mem_nil⟩

/-- **The text behind a key** stands for the forecast and the market as they are read, the price and
the size. -/
theorem idempotencyText_eq_iff {forecastId forecastId' marketTicker marketTicker' : CodePoints}
    {pricePips pricePips' sizeCentis sizeCentis' : ℤ} (hforecast : ∀ n ∈ forecastId, n < 1114112)
    (hforecast' : ∀ n ∈ forecastId', n < 1114112) (hmarket : ∀ n ∈ marketTicker, n < 1114112)
    (hmarket' : ∀ n ∈ marketTicker', n < 1114112) :
    idempotencyText forecastId marketTicker pricePips sizeCentis =
        idempotencyText forecastId' marketTicker' pricePips' sizeCentis' ↔
      JsonValue.joined forecastId = JsonValue.joined forecastId' ∧
        JsonValue.joined marketTicker = JsonValue.joined marketTicker' ∧
        pricePips = pricePips' ∧ sizeCentis = sizeCentis' := by
  have hnodup : ((idempotencyFields forecastId marketTicker pricePips sizeCentis).map
      Prod.fst).Nodup := by
    simp only [idempotencyFields, List.map_cons, List.map_nil]
    decide
  have hsound : ∀ f ∈ idempotencyFields forecastId marketTicker pricePips sizeCentis,
      JsonValue.Sound f.1 := by
    simp only [idempotencyFields, List.forall_mem_cons]
    exact ⟨Json.sound_codes _, Json.sound_codes _, Json.sound_codes _, Json.sound_codes _,
      Json.sound_codes _, Json.sound_codes _, fun _ h => absurd h List.not_mem_nil⟩
  have hnames : (idempotencyFields forecastId marketTicker pricePips sizeCentis).map Prod.fst =
      (idempotencyFields forecastId' marketTicker' pricePips' sizeCentis').map Prod.fst := rfl
  rw [idempotencyText, idempotencyText, String.ofList_inj,
    JsonValue.dumps_obj_iff hnodup hsound hnames
      (flat_idempotencyFields pricePips sizeCentis hforecast hmarket)
      (flat_idempotencyFields pricePips' sizeCentis' hforecast' hmarket')]
  simp [idempotencyFields, JsonValue.readBackField, JsonValue.readBack]

/-! ## What shares an identity -/

/-- Two different texts with one digest. -/
def Collides (sha256 : HexDigest) (text text' : String) : Prop :=
  text ≠ text' ∧ sha256 (textBytes text) = sha256 (textBytes text')

theorem same_or_collides {sha256 : HexDigest} {text text' : String}
    (h : sha256 (textBytes text) = sha256 (textBytes text')) :
    text = text' ∨ Collides sha256 text text' := by
  by_cases hsame : text = text'
  · exact .inl hsame
  · exact .inr ⟨hsame, h⟩

/-- One question, asked at one instant against one snapshot in one stage. -/
structure SameProvenance (p p' : ForecastProvenance) : Prop where
  question : p.question = p'.question
  snapshot : JsonValue.joined p.snapshotId = JsonValue.joined p'.snapshotId
  createdAt : p.createdAt = p'.createdAt
  stage : p.stage = p'.stage

/-- One order of one forecast. -/
structure SameOrder (inputs inputs' : SelectorInputs) (intent intent' : SelectorOrderIntent) :
    Prop where
  forecast : inputs.forecast.forecastId = inputs'.forecast.forecastId
  market : intent.marketTicker = intent'.marketTicker
  price : intent.price = intent'.price
  size : intent.size = intent'.size

/-- An emitted intent is named after its forecast, and is for its market. -/
theorem names_of_emits {inputs : SelectorInputs} {intent : SelectorOrderIntent}
    (h : Emits inputs intent) : intent.intentId = inputs.forecast.forecastId ++ ":yes:buy:sized" ∧
      intent.marketTicker = inputs.forecast.marketTicker := by
  obtain ⟨answer, hrun, hintent⟩ := h
  obtain ⟨e⟩ := select_emits hrun hintent
  obtain ⟨⟨price, maxNotional⟩, -, hbuilt⟩ := Effects.except_bind_ok.mp e.built
  have hintent := (Except.ok.inj hbuilt).symm
  exact ⟨congrArg SelectorOrderIntent.intentId hintent,
    congrArg SelectorOrderIntent.marketTicker hintent⟩

theorem sameOrder_of_text {inputs inputs' : SelectorInputs} {intent intent' : SelectorOrderIntent}
    (h : Emits inputs intent) (h' : Emits inputs' intent')
    (htext : intentText inputs intent = intentText inputs' intent') :
    SameOrder inputs inputs' intent intent' := by
  obtain ⟨hforecast, hmarket, hprice, hsize⟩ := (idempotencyText_eq_iff (codes_valid _)
    (codes_valid _) (codes_valid _) (codes_valid _)).mp htext
  rw [joined_codes, joined_codes] at hforecast hmarket
  refine ⟨Json.codes_injective hforecast, ?_, IntUnit.ext hprice, IntUnit.ext hsize⟩
  rw [(names_of_emits h).2, (names_of_emits h').2, Json.codes_injective hmarket]

/-- **What an identity identifies.**  Forecasts with one text behind their ids are asked one
question with one provenance, and intents with one text behind their keys are one order of one
forecast, but for a digest that two different texts share. -/
theorem identities_identify (sha256 : HexDigest) :
    (∀ p p', forecastIdText sha256 p = forecastIdText sha256 p' →
      SameProvenance p p' ∨ Collides sha256 p.question p'.question) ∧
    (∀ p p', SameProvenance p p' → forecastIdText sha256 p = forecastIdText sha256 p') ∧
    (∀ p p', forecastId sha256 p = forecastId sha256 p' →
      SameProvenance p p' ∨ Collides sha256 p.question p'.question ∨
        Collides sha256 (forecastIdText sha256 p) (forecastIdText sha256 p')) ∧
    (∀ inputs inputs' intent intent', Emits inputs intent → Emits inputs' intent' →
      (intentText inputs intent = intentText inputs' intent' →
        SameOrder inputs inputs' intent intent') ∧
      (intent.intentId = intent'.intentId →
        inputs.forecast.forecastId = inputs'.forecast.forecastId) ∧
      (idempotencyKey sha256 inputs intent = idempotencyKey sha256 inputs' intent' →
        SameOrder inputs inputs' intent intent' ∨
          Collides sha256 (intentText inputs intent) (intentText inputs' intent'))) ∧
    ∀ forecastId forecastId' marketTicker marketTicker' : CodePoints,
      (∀ text ∈ [forecastId, forecastId', marketTicker, marketTicker'], ∀ n ∈ text, n < 1114112) →
      ∀ price price' size size' : ℤ,
        idempotencyText forecastId marketTicker price size =
            idempotencyText forecastId' marketTicker' price' size' ↔
          JsonValue.joined forecastId = JsonValue.joined forecastId' ∧
            JsonValue.joined marketTicker = JsonValue.joined marketTicker' ∧
            price = price' ∧ size = size' := by
  have htext : ∀ p p', forecastIdText sha256 p = forecastIdText sha256 p' →
      SameProvenance p p' ∨ Collides sha256 p.question p'.question := by
    intro p p' h
    obtain ⟨hquestion, hsnapshot, hcreated, hstage⟩ := (forecastIdText_eq_iff sha256 p p').mp h
    rcases same_or_collides hquestion with hsame | hcollides
    · exact .inl ⟨hsame, hsnapshot, hcreated, hstage⟩
    · exact .inr hcollides
  refine ⟨htext, fun p p' h => ?_, fun p p' h => ?_, fun inputs inputs' intent intent' h h' =>
    ⟨sameOrder_of_text h h', fun hid => ?_, fun hkey => ?_⟩,
    fun forecastId forecastId' marketTicker marketTicker' h price price' size size' => ?_⟩
  · rw [forecastIdText_eq_iff, normalizeQuestion, normalizeQuestion, h.question]
    exact ⟨rfl, h.snapshot, h.createdAt, h.stage⟩
  · rcases same_or_collides h with hsame | hcollides
    · exact (htext p p' hsame).imp_right .inl
    · exact .inr (.inr hcollides)
  · rw [(names_of_emits h).1, (names_of_emits h').1] at hid
    exact (String.append_left_inj _).mp hid
  · rcases same_or_collides hkey with hsame | hcollides
    · exact .inl (sameOrder_of_text h h' hsame)
    · exact .inr hcollides
  · simp only [List.forall_mem_cons] at h
    exact idempotencyText_eq_iff h.1 h.2.1 h.2.2.1 h.2.2.2.1

theorem in_years : 2026 < 10000 := by decide

theorem in_numbers : 1 < 100 := by decide

theorem midnight_hour : 0 < 24 := by decide

theorem midnight_minute : 0 < 60 := by decide

theorem midnight_microsecond : 0 < 1000000 := by decide

theorem unnamed_text : ∀ n ∈ ([] : CodePoints), n < 1114112 := fun _ h =>
  absurd h List.not_mem_nil

/-- A provenance that ends its title early or late. -/
def splitProvenance (title resolutionCriteria : String) : ForecastProvenance where
  title
  resolutionCriteria
  snapshotId := []
  createdAt := ⟨⟨2026, 1, 1, in_years, in_numbers, in_numbers⟩, 0, 0, 0, 0, midnight_hour,
    midnight_minute, midnight_minute, midnight_microsecond⟩
  stage := .full
  snapshot_text := unnamed_text

/-- **Two questions with one id.**  Nothing stands between the title and the criteria. -/
theorem title_runs_on :
    ¬ ∀ (sha256 : HexDigest) (p p' : ForecastProvenance),
      forecastIdText sha256 p = forecastIdText sha256 p' →
      (p.title = p'.title ∧ p.resolutionCriteria = p'.resolutionCriteria ∧
        p.snapshotId = p'.snapshotId ∧ p.createdAt = p'.createdAt ∧ p.stage = p'.stage) ∨
      Collides sha256 p.question p'.question := by
  intro h
  have hquestion : (splitProvenance "Rain in May" " above 3").question =
      (splitProvenance "Rain in" " May above 3").question := by decide
  have htext : forecastIdText (fun _ => "") (splitProvenance "Rain in May" " above 3") =
      forecastIdText (fun _ => "") (splitProvenance "Rain in" " May above 3") :=
    (forecastIdText_eq_iff _ _ _).mpr ⟨rfl, rfl, rfl, rfl⟩
  rcases h _ _ _ htext with ⟨htitle, -⟩ | ⟨hdifferent, -⟩
  · exact absurd htitle (by decide)
  · exact hdifferent hquestion

end Windbreak.Identities
