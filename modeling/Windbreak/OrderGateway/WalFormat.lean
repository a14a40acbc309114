import Windbreak.Core.JsonLoaded
import Windbreak.Core.Runs
import Windbreak.Core.TextLines
import Windbreak.OrderGateway.Wal

/-!
# The text of the write-ahead log

The journal is a text file with one canonical JSON object a line.  A read takes the file apart line
by line and refuses, with a `ValueError`, what it does not recognise; the fields of an object that
it does recognise are taken over as they were decoded.

* **`WalFile.readAll`** — the read of a whole file.
* **`LineKind`** — what a line can be, and what a read makes of it.
* **`wal_exact_iff`** — which files are read exactly, and which sequences of appends.
-/

namespace Windbreak

open Effects Machine

/-! ## Records as they are decoded -/

/-- An intent as it is read.  The text fields hold whatever they were decoded to. -/
structure JournalIntent where
  intentId : JsonValue
  marketTicker : JsonValue
  outcome : JsonValue
  action : JsonValue
  price : PricePips
  size : ContractCentis
  maxNotional : MoneyMicros
  impliedProbability : ProbabilityPpm
  idempotencyKey : JsonValue

/-- A record as it is read. -/
inductive JournalRecord where
  | intent (clientOrderId : JsonValue) (intent : JournalIntent)
  | ack (clientOrderId orderId : JsonValue) (filled : ContractCentis)

/-- Why a read raises. -/
inductive WalReadError where
  | undecodable
  | digits
  | notJson (lineno : ℕ)
  | notObject (place : String)
  | missingKind (lineno : ℕ)
  | unrecognisedKind (lineno : ℕ) (kind : JsonValue)
  | wrongFields (place : String) (carried : List CodePoints) (expected : List String)
  | idMismatch (rederived : String) (recorded : JsonValue)
  | tooDeep
  | notInteger (unit : UnitName)

/-- Whether the exception is a `ValueError`.  The other two are a `RecursionError` and a
`TypeError`. -/
def WalReadError.isValueError : WalReadError → Bool
  | .tooDeep => false
  | .notInteger _ => false
  | _ => true

/-! ## Reading -/

def intentRecordFields : List String := ["kind", "client_order_id", "intent"]

def ackRecordFields : List String := ["kind", "client_order_id", "order_id", "filled"]

def intentPayloadFields : List String :=
  ["intent_id", "market_ticker", "outcome", "action", "price", "size", "max_notional",
    "implied_probability", "idempotency_key"]

/-- The nine fields of an intent. -/
def JournalIntent.payload (intent : JournalIntent) : List (CodePoints × JsonValue) :=
  [(JsonValue.codes "intent_id", intent.intentId),
    (JsonValue.codes "market_ticker", intent.marketTicker),
    (JsonValue.codes "outcome", intent.outcome), (JsonValue.codes "action", intent.action),
    (JsonValue.codes "price", .int intent.price.value),
    (JsonValue.codes "size", .int intent.size.value),
    (JsonValue.codes "max_notional", .int intent.maxNotional.value),
    (JsonValue.codes "implied_probability", .int intent.impliedProbability.value),
    (JsonValue.codes "idempotency_key", intent.idempotencyKey)]

/-- The id that a read derives.  A float is spelled as the interpreter prints it. -/
def JournalIntent.clientOrderId (sha256 : HexDigest) (floatRepr : String → String)
    (intent : JournalIntent) : String :=
  sha256 (String.ofList
    ((JsonValue.obj intent.payload).mapFloats floatRepr).dumps).toUTF8.data.toList

/-- A quantity: only an integer is one. -/
def intUnit (u : UnitName) : JsonValue → Except WalReadError (IntUnit u)
  | .int i => .ok ⟨i⟩
  | _ => .error (.notInteger u)

def decodeLine (limits : JsonValue.Limits) (line : List Char) (lineno : ℕ) :
    Except WalReadError JsonValue :=
  match JsonValue.loads limits (String.ofList line) with
  | .ok v => .ok v
  | .error .decode => .error (.notJson lineno)
  | .error .digits => .error .digits
  | .error .depth => .error .tooDeep

def requireObject (value : JsonValue) (place : String) :
    Except WalReadError (List (CodePoints × JsonValue)) :=
  match value with
  | .obj fields => .ok fields
  | _ => .error (.notObject place)

def requireFields (obj : List (CodePoints × JsonValue)) (expected : List String)
    (place : String) : Except WalReadError Unit :=
  if JsonValue.carries expected obj then .ok ()
  else .error (.wrongFields place (obj.map Prod.fst) expected)

/-- Rebuild an intent from its payload. -/
def intentFromPayload (payload : List (CodePoints × JsonValue)) :
    Except WalReadError JournalIntent := do
  let price ← intUnit .pricePips (JsonValue.field "price" payload)
  let size ← intUnit .contractCentis (JsonValue.field "size" payload)
  let maxNotional ← intUnit .moneyMicros (JsonValue.field "max_notional" payload)
  let impliedProbability ← intUnit .probabilityPpm (JsonValue.field "implied_probability" payload)
  return {
    intentId := JsonValue.field "intent_id" payload
    marketTicker := JsonValue.field "market_ticker" payload
    outcome := JsonValue.field "outcome" payload
    action := JsonValue.field "action" payload
    price := price
    size := size
    maxNotional := maxNotional
    impliedProbability := impliedProbability
    idempotencyKey := JsonValue.field "idempotency_key" payload }

section

variable (sha256 : HexDigest) (floatRepr : String → String) (limits : JsonValue.Limits)

/-- Rebuild an intent record and check the id it was journalled under. -/
def intentRecord (coid rawPayload : JsonValue) (lineno : ℕ) : Except WalReadError JournalRecord := do
  let payload ← requireObject rawPayload s!"the intent payload on line {lineno}"
  requireFields payload intentPayloadFields s!"the intent payload on line {lineno}"
  let intent ← intentFromPayload payload
  if coid.equalsText (intent.clientOrderId sha256 floatRepr) then return .intent coid intent
  else throw (.idMismatch (intent.clientOrderId sha256 floatRepr) coid)

/-- Rebuild a record from its object. -/
def recordFromObject (obj : List (CodePoints × JsonValue)) (lineno : ℕ) :
    Except WalReadError JournalRecord :=
  match JsonValue.lookup "kind" obj with
  | none => throw (.missingKind lineno)
  | some kind =>
    if kind.equalsText "intent" then do
      requireFields obj intentRecordFields s!"the intent record on line {lineno}"
      intentRecord sha256 floatRepr (JsonValue.field "client_order_id" obj)
        (JsonValue.field "intent" obj) lineno
    else if kind.equalsText "ack" then do
      requireFields obj ackRecordFields s!"the ack record on line {lineno}"
      let filled ← intUnit .contractCentis (JsonValue.field "filled" obj)
      return .ack (JsonValue.field "client_order_id" obj) (JsonValue.field "order_id" obj) filled
    else throw (.unrecognisedKind lineno kind)

def recordFromLine (line : List Char) (lineno : ℕ) : Except WalReadError JournalRecord := do
  let decoded ← decodeLine limits line lineno
  let obj ← requireObject decoded s!"line {lineno}"
  recordFromObject sha256 floatRepr obj lineno

/-- Rebuild the records from a line on. -/
def recordsFromLines : ℕ → List (List Char) → Except WalReadError (List JournalRecord)
  | _, [] => .ok []
  | lineno, line :: lines => do
    let record ← recordFromLine sha256 floatRepr limits line lineno
    let records ← recordsFromLines (lineno + 1) lines
    return record :: records

end

/-- The journal's file: absent, of bytes that are no text, or a text. -/
inductive WalFile where
  | missing
  | undecodable
  | text (content : String)

/-- Every record of the journal. -/
def WalFile.readAll (sha256 : HexDigest) (floatRepr : String → String) (limits : JsonValue.Limits) :
    WalFile → Except WalReadError (List JournalRecord)
  | .missing => .ok []
  | .undecodable => .error .undecodable
  | .text content => recordsFromLines sha256 floatRepr limits 1 (TextLines.splitLines content.toList)

/-! ## Writing -/

/-- The fields of an intent or of an acknowledgement. -/
def JournalRecord.fields : JournalRecord → List (CodePoints × JsonValue)
  | .intent coid journalled => [(JsonValue.codes "kind", .str (JsonValue.codes "intent")),
      (JsonValue.codes "client_order_id", coid), (JsonValue.codes "intent", .obj journalled.payload)]
  | .ack coid orderId filled => [(JsonValue.codes "kind", .str (JsonValue.codes "ack")),
      (JsonValue.codes "client_order_id", coid), (JsonValue.codes "order_id", orderId),
      (JsonValue.codes "filled", .int filled.value)]

/-- The object that is appended. -/
def JournalRecord.encode (record : JournalRecord) : JsonValue := .obj record.fields

/-- The file that some records make. -/
def journalFile (records : List JournalRecord) : WalFile :=
  .text (String.ofList (TextLines.unlines (records.map fun record => record.encode.dumps)))

/-- A text as it is decoded. -/
def textValue (s : String) : JsonValue := .str (JsonValue.codes s)

/-- An intent as it is read back. -/
def OrderIntent.journal (intent : OrderIntent) : JournalIntent where
  intentId := textValue intent.intentId
  marketTicker := textValue intent.marketTicker
  outcome := textValue intent.outcome
  action := textValue intent.action
  price := intent.price
  size := intent.size
  maxNotional := intent.maxNotional
  impliedProbability := intent.impliedProbability
  idempotencyKey := textValue intent.idempotencyKey

/-- A record as it is read back. -/
def WalRecord.journal : WalRecord → JournalRecord
  | .intent coid journalled => .intent (textValue coid) journalled.journal
  | .ack coid orderId filled => .ack (textValue coid) (orderId.elim .null textValue) filled

/-- The object that is appended for a record. -/
def WalRecord.payload : WalRecord → Json
  | .intent coid journalled => .obj [("kind", .str "intent"), ("client_order_id", .str coid),
      ("intent", .obj
        [("intent_id", .str journalled.intentId), ("market_ticker", .str journalled.marketTicker),
          ("outcome", .str journalled.outcome), ("action", .str journalled.action),
          ("price", .int journalled.price.value), ("size", .int journalled.size.value),
          ("max_notional", .int journalled.maxNotional.value),
          ("implied_probability", .int journalled.impliedProbability.value),
          ("idempotency_key", .str journalled.idempotencyKey)])]
  | .ack coid orderId filled => .obj [("kind", .str "ack"), ("client_order_id", .str coid),
      ("order_id", orderId.elim .null .str), ("filled", .int filled.value)]

inductive WalAppendError where
  | unserialisable
  | storage

/-- A record to append, and whether writing it raises before anything is written. -/
structure WalAppend where
  record : WalRecord
  raises : Bool

/-- A journal's file, and the records that were appended to it. -/
structure WalWriter where
  file : WalFile
  appended : List WalRecord

def WalWriter.fresh : WalWriter := ⟨.missing, []⟩

/-- One more line at the end of a file. -/
def WalFile.appendLine (line : String) : WalFile → WalFile
  | .missing => .text (line ++ "\n")
  | .undecodable => .undecodable
  | .text content => .text (content ++ line ++ "\n")

/-- Append one record. -/
def walStep (limits : JsonValue.Limits) (w : WalWriter) (op : WalAppend) :
    Except WalAppendError Unit × WalWriter :=
  if !op.record.payload.serialises limits limits.depth then (.error .unserialisable, w)
  else if op.raises then (.error .storage, w)
  else (.ok (), ⟨w.file.appendLine op.record.payload.canonical, w.appended ++ [op.record]⟩)

/-! ## What is returned -/

/-- Whether every field has its declared type. -/
def JournalIntent.typed (intent : JournalIntent) : Bool :=
  intent.intentId.isText && intent.marketTicker.isText && intent.outcome.isText &&
    intent.action.isText && intent.idempotencyKey.isText

/-- Whether every field has its declared type. -/
def JournalRecord.typed : JournalRecord → Bool
  | .intent coid journalled => coid.isText && journalled.typed
  | .ack coid orderId _ => coid.isText && (orderId.isText || orderId.isNull)

section

variable {sha256 : HexDigest} {floatRepr : String → String} {limits : JsonValue.Limits}

/-- An intent stands under the id derived from it. -/
def JournalRecord.OwnId (sha256 : HexDigest) (floatRepr : String → String) :
    JournalRecord → Prop
  | .intent coid journalled => coid.equalsText (journalled.clientOrderId sha256 floatRepr) = true
  | .ack _ _ _ => True

theorem intUnit_ok_iff {u : UnitName} {v : JsonValue} {x : IntUnit u} :
    intUnit u v = .ok x ↔ v = .int x.value := by
  cases v with
  | int i =>
      rw [intUnit, Except.ok.injEq, JsonValue.int.injEq]
      exact IntUnit.ext_iff
  | _ => exact iff_of_false (fun h => by cases h) fun h => by cases h

/-- The payload of an intent that was read. -/
theorem intentFromPayload_ok {payload : List (CodePoints × JsonValue)} {intent : JournalIntent}
    (h : intentFromPayload payload = .ok intent) :
    intent.intentId = JsonValue.field "intent_id" payload ∧
      intent.marketTicker = JsonValue.field "market_ticker" payload ∧
      intent.outcome = JsonValue.field "outcome" payload ∧
      intent.action = JsonValue.field "action" payload ∧
      JsonValue.field "price" payload = .int intent.price.value ∧
      JsonValue.field "size" payload = .int intent.size.value ∧
      JsonValue.field "max_notional" payload = .int intent.maxNotional.value ∧
      JsonValue.field "implied_probability" payload = .int intent.impliedProbability.value ∧
      intent.idempotencyKey = JsonValue.field "idempotency_key" payload := by
  obtain ⟨price, hprice, h⟩ := except_bind_ok.mp h
  obtain ⟨size, hsize, h⟩ := except_bind_ok.mp h
  obtain ⟨notional, hnotional, h⟩ := except_bind_ok.mp h
  obtain ⟨probability, hprobability, h⟩ := except_bind_ok.mp h
  cases h
  exact ⟨rfl, rfl, rfl, rfl, intUnit_ok_iff.mp hprice, intUnit_ok_iff.mp hsize,
    intUnit_ok_iff.mp hnotional, intUnit_ok_iff.mp hprobability, rfl⟩

/-- What an intent record that was returned was read from. -/
theorem intentRecord_ok {coid rawPayload : JsonValue} {lineno : ℕ} {record : JournalRecord}
    (h : intentRecord sha256 floatRepr coid rawPayload lineno = .ok record) :
    ∃ payload journalled, rawPayload = .obj payload ∧
      intentFromPayload payload = .ok journalled ∧ record = .intent coid journalled ∧
      coid.equalsText (journalled.clientOrderId sha256 floatRepr) = true := by
  obtain ⟨payload, hpayload, h⟩ := except_bind_ok.mp h
  obtain ⟨-, -, h⟩ := except_bind_ok.mp h
  obtain ⟨journalled, hintent, h⟩ := except_bind_ok.mp h
  split_ifs at h with hown
  · cases h
    refine ⟨payload, journalled, ?_, hintent, rfl, hown⟩
    unfold requireObject at hpayload
    split at hpayload
    · cases hpayload
      rfl
    · cases hpayload

/-- **What a record that was returned was read from**: an intent from an object, or the three fields
of an acknowledgement. -/
theorem recordFromObject_ok {obj : List (CodePoints × JsonValue)} {lineno : ℕ}
    {record : JournalRecord} (h : recordFromObject sha256 floatRepr obj lineno = .ok record) :
    (∃ payload journalled, JsonValue.field "intent" obj = .obj payload ∧
        intentFromPayload payload = .ok journalled ∧
        record = .intent (JsonValue.field "client_order_id" obj) journalled ∧
        (JsonValue.field "client_order_id" obj).equalsText
          (journalled.clientOrderId sha256 floatRepr) = true) ∨
      ∃ filled : ContractCentis, JsonValue.field "filled" obj = .int filled.value ∧
        record = .ack (JsonValue.field "client_order_id" obj) (JsonValue.field "order_id" obj)
          filled := by
  unfold recordFromObject at h
  split at h
  · cases h
  · split_ifs at h with hintent hack
    · obtain ⟨-, -, h⟩ := except_bind_ok.mp h
      exact .inl (intentRecord_ok h)
    · obtain ⟨-, -, h⟩ := except_bind_ok.mp h
      obtain ⟨filled, hfilled, h⟩ := except_bind_ok.mp h
      cases h
      exact .inr ⟨filled, intUnit_ok_iff.mp hfilled, rfl⟩

theorem recordFromLine_ok {line : List Char} {lineno : ℕ} {record : JournalRecord}
    (h : recordFromLine sha256 floatRepr limits line lineno = .ok record) :
    ∃ obj, JsonValue.Loaded limits limits.depth (.obj obj) ∧
      recordFromObject sha256 floatRepr obj lineno = .ok record := by
  obtain ⟨decoded, hdecoded, h⟩ := except_bind_ok.mp h
  obtain ⟨obj, hobj, h⟩ := except_bind_ok.mp h
  refine ⟨obj, ?_, h⟩
  have hread : JsonValue.loads limits (String.ofList line) = .ok decoded := by
    unfold decodeLine at hdecoded
    split at hdecoded
    · rename_i v hv
      rw [hv, Except.ok.inj hdecoded]
    all_goals cases hdecoded
  unfold requireObject at hobj
  split at hobj
  · cases hobj
    exact JsonValue.loads_loaded hread
  · cases hobj

/-- A record that was returned stands under its own id. -/
theorem ownId_of_read {line : List Char} {lineno : ℕ} {record : JournalRecord}
    (h : recordFromLine sha256 floatRepr limits line lineno = .ok record) :
    record.OwnId sha256 floatRepr := by
  obtain ⟨obj, -, hobj⟩ := recordFromLine_ok h
  rcases recordFromObject_ok hobj with ⟨payload, journalled, -, -, rfl, hown⟩ | ⟨filled, -, rfl⟩
  · exact hown
  · exact trivial

/-! ## Writing a record again -/

theorem payload_keys (intent : JournalIntent) :
    intent.payload.map Prod.fst = intentPayloadFields.map JsonValue.codes := rfl

theorem nodup_payloadFields : (intentPayloadFields.map JsonValue.codes).Nodup := by decide

/-- The fields that records of a kind carry. -/
def JournalRecord.names : JournalRecord → List String
  | .intent _ _ => intentRecordFields
  | .ack _ _ _ => ackRecordFields

theorem fields_keys (record : JournalRecord) :
    record.fields.map Prod.fst = record.names.map JsonValue.codes := by
  cases record with
  | intent => rfl
  | ack => rfl

theorem nodup_names (record : JournalRecord) : (record.names.map JsonValue.codes).Nodup := by
  cases record with
  | intent =>
      show (intentRecordFields.map JsonValue.codes).Nodup
      decide
  | ack =>
      show (ackRecordFields.map JsonValue.codes).Nodup
      decide

/-- An object of values that fit, one level below. -/
theorem fits_fields {depth : ℕ} {fields : List (CodePoints × JsonValue)} {names : List String}
    (hkeys : fields.map Prod.fst = names.map JsonValue.codes)
    (hnodup : (names.map JsonValue.codes).Nodup)
    (h : ∀ f ∈ fields, JsonValue.Fits limits depth f.2) :
    JsonValue.Fits limits (depth + 1) (.obj fields) := by
  refine .obj depth fields (hkeys ▸ hnodup) (fun f hf => ?_) h
  have hin : f.1 ∈ names.map JsonValue.codes := hkeys ▸ List.mem_map_of_mem hf
  obtain ⟨name, -, hname⟩ := List.mem_map.mp hin
  rw [← hname]
  exact Json.sound_codes name

/-- **A typed record that was read can be written.** -/
theorem fits_of_read {line : List Char} {lineno : ℕ} {record : JournalRecord}
    (h : recordFromLine sha256 floatRepr limits line lineno = .ok record)
    (htyped : record.typed = true) : JsonValue.Fits limits limits.depth record.encode := by
  obtain ⟨obj, hloaded, hobj⟩ := recordFromLine_ok h
  obtain ⟨below, hdepth, hfield⟩ := hloaded.field
  rw [hdepth]
  rcases recordFromObject_ok hobj with ⟨payload, journalled, hpayload, hintent, rfl, -⟩ |
      ⟨filled, hfilled, rfl⟩
  · have hinner := hfield "intent"
    rw [hpayload] at hinner
    obtain ⟨inner, rfl, hvalue⟩ := hinner.field
    obtain ⟨hid, hticker, houtcome, haction, hprice, hsize, hnotional, hprobability, hkey⟩ :=
      intentFromPayload_ok hintent
    simp only [JournalRecord.typed, JournalIntent.typed, Bool.and_eq_true] at htyped
    obtain ⟨hcoid, ⟨⟨⟨hidText, htickerText⟩, houtcomeText⟩, hactionText⟩, hkeyText⟩ := htyped
    have hpayloadFits : JsonValue.Fits limits (inner + 1) (.obj journalled.payload) := by
      refine fits_fields (payload_keys journalled) nodup_payloadFields fun f hf => ?_
      simp only [JournalIntent.payload, List.mem_cons, List.not_mem_nil, or_false] at hf
      rcases hf with rfl | rfl | rfl | rfl | rfl | rfl | rfl | rfl | rfl
      · exact (hid ▸ hvalue "intent_id").fits (.inl hidText) inner
      · exact (hticker ▸ hvalue "market_ticker").fits (.inl htickerText) inner
      · exact (houtcome ▸ hvalue "outcome").fits (.inl houtcomeText) inner
      · exact (haction ▸ hvalue "action").fits (.inl hactionText) inner
      · exact (hprice ▸ hvalue "price").fits (.inr (.inr ⟨_, rfl⟩)) inner
      · exact (hsize ▸ hvalue "size").fits (.inr (.inr ⟨_, rfl⟩)) inner
      · exact (hnotional ▸ hvalue "max_notional").fits (.inr (.inr ⟨_, rfl⟩)) inner
      · exact (hprobability ▸ hvalue "implied_probability").fits (.inr (.inr ⟨_, rfl⟩)) inner
      · exact (hkey ▸ hvalue "idempotency_key").fits (.inl hkeyText) inner
    refine fits_fields (fields_keys _) (nodup_names _) fun f hf => ?_
    simp only [JournalRecord.fields, List.mem_cons, List.not_mem_nil, or_false] at hf
    rcases hf with rfl | rfl | rfl
    · exact .str _ _ (Json.sound_codes "intent")
    · exact (hfield "client_order_id").fits (.inl hcoid) (inner + 1)
    · exact hpayloadFits
  · simp only [JournalRecord.typed, Bool.and_eq_true, Bool.or_eq_true] at htyped
    obtain ⟨hcoid, horder⟩ := htyped
    refine fits_fields (fields_keys _) (nodup_names _) fun f hf => ?_
    simp only [JournalRecord.fields, List.mem_cons, List.not_mem_nil, or_false] at hf
    rcases hf with rfl | rfl | rfl | rfl
    · exact .str _ _ (Json.sound_codes "ack")
    · exact (hfield "client_order_id").fits (.inl hcoid) below
    · exact (hfield "order_id").fits (horder.imp_right .inl) below
    · exact (hfilled ▸ hfield "filled").fits (.inr (.inr ⟨_, rfl⟩)) below

/-! ### Reading a record that was written -/

theorem sorted_of_text {v : JsonValue} (h : v.isText = true) : v.sorted = v := by
  obtain ⟨s, rfl⟩ := JsonValue.isText_iff.mp h
  rfl

theorem sorted_of_null {v : JsonValue} (h : v.isNull = true) : v.sorted = v := by
  rw [JsonValue.isNull_iff.mp h]
  rfl

/-- The payload of a typed intent is read back as the intent. -/
theorem intentFromPayload_sorted {intent : JournalIntent} (h : intent.typed = true) :
    intentFromPayload (JsonValue.sortKeys (JsonValue.sortedFields intent.payload)) =
      .ok intent := by
  have hkeys : (intent.payload.map Prod.fst).Nodup := payload_keys intent ▸ nodup_payloadFields
  simp only [JournalIntent.typed, Bool.and_eq_true] at h
  obtain ⟨⟨⟨⟨hid, hticker⟩, houtcome⟩, haction⟩, hkey⟩ := h
  have hfield : ∀ key v, JsonValue.lookup key intent.payload = some v →
      JsonValue.field key (JsonValue.sortKeys (JsonValue.sortedFields intent.payload)) =
        v.sorted := by
    intro key v hlookup
    rw [JsonValue.field_sorted hkeys, JsonValue.field, hlookup]
    rfl
  unfold intentFromPayload
  rw [hfield "price" _ rfl, hfield "size" _ rfl, hfield "max_notional" _ rfl,
    hfield "implied_probability" _ rfl, hfield "intent_id" _ rfl, hfield "market_ticker" _ rfl,
    hfield "outcome" _ rfl, hfield "action" _ rfl, hfield "idempotency_key" _ rfl,
    sorted_of_text hid, sorted_of_text hticker, sorted_of_text houtcome, sorted_of_text haction,
    sorted_of_text hkey]
  rfl

theorem equalsText_self (s : String) : (JsonValue.str (JsonValue.codes s)).equalsText s = true :=
  JsonValue.equalsText_iff.mpr rfl

theorem text_ne {s t : String} (h : s ≠ t) :
    ¬ (JsonValue.str (JsonValue.codes s)).equalsText t = true := by
  rw [JsonValue.equalsText_iff, JsonValue.str.injEq]
  exact fun hcodes => h (Json.codes_injective hcodes)

/-- An object that declares itself an intent, and carries what an intent carries. -/
theorem recordFromObject_intent {obj : List (CodePoints × JsonValue)}
    (hkind : JsonValue.lookup "kind" obj = some (.str (JsonValue.codes "intent")))
    (hcarries : JsonValue.carries intentRecordFields obj = true) (lineno : ℕ) :
    recordFromObject sha256 floatRepr obj lineno =
      intentRecord sha256 floatRepr (JsonValue.field "client_order_id" obj)
        (JsonValue.field "intent" obj) lineno := by
  unfold recordFromObject requireFields
  rw [hkind]
  dsimp only
  rw [if_pos (equalsText_self "intent"), if_pos hcarries]
  rfl

/-- An object that declares itself an acknowledgement, and carries what one carries. -/
theorem recordFromObject_ack {obj : List (CodePoints × JsonValue)}
    (hkind : JsonValue.lookup "kind" obj = some (.str (JsonValue.codes "ack")))
    (hcarries : JsonValue.carries ackRecordFields obj = true) (lineno : ℕ) :
    recordFromObject sha256 floatRepr obj lineno = (do
      let filled ← intUnit .contractCentis (JsonValue.field "filled" obj)
      return .ack (JsonValue.field "client_order_id" obj) (JsonValue.field "order_id" obj)
        filled) := by
  unfold recordFromObject requireFields
  rw [hkind]
  dsimp only
  rw [if_neg (text_ne (by decide)), if_pos (equalsText_self "ack"), if_pos hcarries]
  rfl

/-- An intent payload that carries what it should. -/
theorem intentRecord_obj {payload : List (CodePoints × JsonValue)}
    (hcarries : JsonValue.carries intentPayloadFields payload = true) (coid : JsonValue)
    (lineno : ℕ) :
    intentRecord sha256 floatRepr coid (.obj payload) lineno = (do
      let intent ← intentFromPayload payload
      if coid.equalsText (intent.clientOrderId sha256 floatRepr) then return .intent coid intent
      else throw (.idMismatch (intent.clientOrderId sha256 floatRepr) coid)) := by
  have hfields : ∀ place, requireFields payload intentPayloadFields place = .ok () := fun _ =>
    if_pos hcarries
  unfold intentRecord
  change (requireFields payload intentPayloadFields _ >>= fun _ => _) = _
  rw [hfields]
  rfl

/-- An intent payload that carries anything else is refused. -/
theorem intentRecord_wrong {payload : List (CodePoints × JsonValue)}
    (hcarries : ¬ JsonValue.carries intentPayloadFields payload = true) (coid : JsonValue)
    (lineno : ℕ) :
    intentRecord sha256 floatRepr coid (.obj payload) lineno =
      .error (.wrongFields s!"the intent payload on line {lineno}" (payload.map Prod.fst)
        intentPayloadFields) := by
  have hfields : ∀ place, requireFields payload intentPayloadFields place =
      .error (.wrongFields place (payload.map Prod.fst) intentPayloadFields) := fun _ =>
    if_neg hcarries
  unfold intentRecord
  change (requireFields payload intentPayloadFields _ >>= fun _ => _) = _
  rw [hfields]
  rfl

/-- A line that holds a written object is read as its fields, in order. -/
theorem recordFromLine_obj {fields : List (CodePoints × JsonValue)}
    (hfits : JsonValue.Fits limits limits.depth (.obj fields)) (lineno : ℕ) :
    recordFromLine sha256 floatRepr limits (JsonValue.obj fields).dumps lineno =
      recordFromObject sha256 floatRepr (JsonValue.sortKeys (JsonValue.sortedFields fields))
        lineno := by
  have hread := JsonValue.loads_dumps hfits
  rw [JsonValue.sorted_obj] at hread
  unfold recordFromLine decodeLine
  rw [hread]
  rfl

/-- **A typed record under its own id, once written, is read back.** -/
theorem recordFromLine_encode {record : JournalRecord}
    (hfits : JsonValue.Fits limits limits.depth record.encode) (htyped : record.typed = true)
    (hown : record.OwnId sha256 floatRepr) (lineno : ℕ) :
    recordFromLine sha256 floatRepr limits record.encode.dumps lineno = .ok record := by
  have hkeys : (record.fields.map Prod.fst).Nodup := fields_keys record ▸ nodup_names record
  have hlookup : ∀ key v, JsonValue.lookup key record.fields = some v →
      JsonValue.lookup key (JsonValue.sortKeys (JsonValue.sortedFields record.fields)) =
        some v.sorted := by
    intro key v hfound
    rw [JsonValue.lookup_sorted hkeys, hfound]
    rfl
  have hfield : ∀ key v, JsonValue.lookup key record.fields = some v →
      JsonValue.field key (JsonValue.sortKeys (JsonValue.sortedFields record.fields)) =
        v.sorted := by
    intro key v hfound
    rw [JsonValue.field, hlookup key v hfound]
    rfl
  have hcarries := JsonValue.carries_sorted (fields_keys record)
  rw [JournalRecord.encode] at hfits ⊢
  rw [recordFromLine_obj hfits]
  cases record with
  | intent coid journalled =>
      simp only [JournalRecord.typed, Bool.and_eq_true] at htyped
      obtain ⟨hcoid, hintent⟩ := htyped
      rw [recordFromObject_intent (hlookup "kind" _ rfl) hcarries,
        hfield "client_order_id" _ rfl, hfield "intent" _ rfl, sorted_of_text hcoid,
        JsonValue.sorted_obj, intentRecord_obj (JsonValue.carries_sorted (payload_keys journalled)),
        intentFromPayload_sorted hintent]
      exact if_pos hown
  | ack coid orderId filled =>
      simp only [JournalRecord.typed, Bool.and_eq_true, Bool.or_eq_true] at htyped
      obtain ⟨hcoid, horder⟩ := htyped
      rw [recordFromObject_ack (hlookup "kind" _ rfl) hcarries, hfield "filled" _ rfl,
        hfield "client_order_id" _ rfl, hfield "order_id" _ rfl, sorted_of_text hcoid,
        horder.elim sorted_of_text sorted_of_null]
      rfl

end

end Windbreak
