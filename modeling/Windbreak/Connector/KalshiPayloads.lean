import Windbreak.Core.JsonDumps
import Windbreak.Core.JsonLoaded

/-!
# Raw markets

The payload of a market is untyped; what the interpreter makes of its texts and floats is given.

* `gateProduct` — the allowlist: why a market is refused, or nothing.
* `normalizeMarket` — a raw market and its event, normalized, or what is raised on the way.
* `Degraded` — what a scan records in the market's place; an instant outside the calendar and an
  infinite count are raised otherwise.
-/

namespace Windbreak.Kalshi

open JsonValue (codes lookup)

/-! ## What is raised -/

/-- What the client raises: the venue's refusal, or whatever its transport fails with. -/
inductive ClientFault where
  | apiError (statusCode : ℤ)
  | transport (message : String)
  deriving DecidableEq, Repr

/-- What a call is aborted by. -/
inductive Fault where
  | client (fault : ClientFault)
  | attributeError (message : String)
  | indexError
  | keyError (key : String)
  | valueError (message : String)
  | typeError (message : String)
  | overflowError (message : String)
  | paginationError (endpoint : String) (maxPages : ℕ)
  | maintenanceHaltError (status : String)
  | unknownMarketError (ticker : String)
  deriving DecidableEq, Repr

/-- The failures that cost a scan one market only. -/
def Fault.isMalformedMarket : Fault → Bool
  | .keyError _ | .valueError _ | .typeError _ => true
  | _ => false

/-- The name and the message of such a failure. -/
def Fault.text : Fault → String
  | .keyError key => "KeyError: '" ++ key ++ "'"
  | .valueError message => "ValueError: " ++ message
  | .typeError message => "TypeError: " ++ message
  | _ => ""

/-! ## What the interpreter makes of texts and floats -/

/-- What a float literal is read as: its truncation is all that is ever asked of a finite one, and
whether it is zero. -/
inductive FloatValue where
  | notANumber
  | infinite
  | finite (isZero : Bool) (truncated : ℤ)
  deriving DecidableEq, Repr

/-- The microseconds from the first instant of the calendar to its last. -/
def lastInstant : ℤ := 3652059 * 86400000000 - 1

/-- A wall clock of the calendar and its offset, in microseconds. -/
structure Parsed where
  wall : ℤ
  utcoffset : Option ℤ
  wall_nonneg : 0 ≤ wall
  wall_le : wall ≤ lastInstant

/-- The interpreter's readings, each with the message of its refusal. -/
structure Interpreter where
  floatOf : String → FloatValue
  intOf : CodePoints → Except String ℤ
  fromisoformat : CodePoints → Except String Parsed
  repr : JsonValue → String
  sameKey : JsonValue → JsonValue → Bool
  sha256 : List Char → String

/-- The name of a value's type. -/
def typeName : JsonValue → String
  | .null => "NoneType"
  | .bool _ => "bool"
  | .int _ => "int"
  | .float _ => "float"
  | .str _ => "str"
  | .arr _ => "list"
  | .obj _ => "dict"

abbrev Fields := List (CodePoints × JsonValue)

/-- A value whose fields are asked for; only an object has any. -/
def asMapping : JsonValue → Except Fault Fields
  | .obj fields => .ok fields
  | v => .error (.attributeError ("'" ++ typeName v ++ "' object has no attribute 'get'"))

/-- `mapping[key]`. -/
def required (key : String) (mapping : Fields) : Except Fault JsonValue :=
  match lookup key mapping with
  | some v => .ok v
  | none => .error (.keyError key)

/-- Whether a value can be a key. -/
def isHashable : JsonValue → Bool
  | .arr _ | .obj _ => false
  | _ => true

/-- A value that is used as a key. -/
def asKey (v : JsonValue) : Except Fault JsonValue :=
  if isHashable v then .ok v
  else .error (.typeError ("unhashable type: '" ++ typeName v ++ "'"))

variable (py : Interpreter)

/-- `bool(value)`. -/
def truthy : JsonValue → Bool
  | .null => false
  | .bool b => b
  | .int i => i ≠ 0
  | .float literal => match py.floatOf literal with
    | .finite isZero _ => !isZero
    | .infinite | .notANumber => true
  | .str s => s ≠ []
  | .arr items => !items.isEmpty
  | .obj fields => !fields.isEmpty

/-- `int(value)`. -/
def toInt : JsonValue → Except Fault ℤ
  | .int i => .ok i
  | .bool b => .ok b.toInt
  | .float literal => match py.floatOf literal with
    | .finite _ truncated => .ok truncated
    | .infinite => .error (.overflowError "cannot convert float infinity to integer")
    | .notANumber => .error (.valueError "cannot convert float NaN to integer")
  | .str s => (py.intOf s).mapError .valueError
  | v => .error (.typeError
      ("int() argument must be a string, a bytes-like object or a real number, not '" ++
        typeName v ++ "'"))

/-! ## Instants -/

/-- The instant of an offset-bearing wall clock; one whose instant is outside the calendar has
none. -/
def astimezone (parsed : Parsed) (offset : ℤ) : Except Fault ℤ :=
  if 0 ≤ parsed.wall - offset ∧ parsed.wall - offset ≤ lastInstant then .ok (parsed.wall - offset)
  else .error (.overflowError "date value out of range")

/-- The refusal of an offsetless timestamp. -/
def offsetless (value : JsonValue) (field : String) : String :=
  "Kalshi timestamp field '" ++ field ++ "' carries no UTC offset: " ++ py.repr value ++
    ". An offsetless exchange timestamp is unprovable evidence -- reading its wall clock as " ++
    "the host's local time would silently shift the instant by the host's offset -- so the " ++
    "market is refused rather than normalized against a guessed timezone."

/-- A timestamp that carries its offset. -/
def parseDt (field : String) : JsonValue → Except Fault ℤ
  | .str s => do
    let parsed ← (py.fromisoformat s).mapError .valueError
    match parsed.utcoffset with
    | none => .error (.valueError (offsetless py (.str s) field))
    | some offset => astimezone parsed offset
  | _ => .error (.typeError "fromisoformat: argument must be str")

/-- A timestamp that need not be there. -/
def parseOptionalDt (field : String) : Option JsonValue → Except Fault (Option ℤ)
  | none | some .null => .ok none
  | some value => some <$> parseDt py field value

/-! ## The gate -/

/-- Why a product is refused. -/
inductive Refusal where
  | missing
  | nonBinary (marketType : JsonValue)
  deriving Repr

/-- The reason as it is recorded. -/
def Refusal.text : Refusal → String
  | .missing => "market_type is missing"
  | .nonBinary marketType => "refused non-binary market_type: " ++ py.repr marketType

/-- The allowlist: only a binary market passes. -/
def gateProduct (rawMarket : Fields) : Option Refusal :=
  match lookup "market_type" rawMarket with
  | none => some .missing
  | some marketType =>
    if marketType.equalsText "binary" then none else some (.nonBinary marketType)

/-! ## Normalization -/

/-- The digest of a raw payload. -/
def payloadHash (raw : Fields) : String := py.sha256 (JsonValue.dumps (.obj raw))

/-- **A normalized market.**  Its texts are passed through as they came. -/
structure NormalizedMarket where
  exchange : String
  ticker : JsonValue
  eventTicker : JsonValue
  title : JsonValue
  resolutionCriteria : JsonValue
  category : JsonValue
  closeTime : ℤ
  expectedResolutionTime : Option ℤ
  marketType : String
  priceTickPips : ℤ
  minOrderContractCentis : ℤ
  fractionalTradingEnabled : Bool
  mutuallyExclusiveGroupId : Option JsonValue
  jurisdictionStatus : String
  rawExchangePayloadHash : String
  volume24hMicros : ℤ

def requirePositive (value : ℤ) (field : String) : Except Fault Unit :=
  if value ≤ 0 then .error (.valueError (field ++ " must be positive, got " ++ toString value))
  else .ok ()

def requireNonnegative (value : ℤ) (field : String) : Except Fault Unit :=
  if value < 0 then .error (.valueError (field ++ " must be non-negative, got " ++ toString value))
  else .ok ()

/-- A text from a closed set. -/
def requireOneOf (allowed : List String) (field value : String) : Except Fault Unit :=
  if value ∈ allowed then .ok ()
  else .error (.valueError (field ++ " must be one of \x7b" ++ ", ".intercalate allowed ++
    "\x7d, got '" ++ value ++ "'"))

/-- The checks a market makes of itself. -/
def NormalizedMarket.postInit (market : NormalizedMarket) : Except Fault NormalizedMarket := do
  requireOneOf ["fully_collateralized_binary"] "market_type" market.marketType
  requireOneOf ["eligible", "ineligible", "unknown"] "jurisdiction_status"
    market.jurisdictionStatus
  requirePositive market.priceTickPips "price_tick_pips"
  requirePositive market.minOrderContractCentis "min_order_contract_centis"
  requireNonnegative market.volume24hMicros "volume_24h_micros"
  if market.rawExchangePayloadHash = "" then
    .error (.valueError "raw_exchange_payload_hash must be non-empty")
  else return market

/-- Whether an event marks its markets mutually exclusive. -/
def isGrouped : Option Fields → Bool
  | none => false
  | some rawEvent => truthy py ((lookup "mutually_exclusive" rawEvent).getD .null)

/-- The price tick; a missing one is a cent. -/
def tickPips : Option JsonValue → Except Fault ℤ
  | none | some .null => .ok 100
  | some rawTick => return (← toInt py rawTick) * 100

/-- The group a market is in, when its event marks it so. -/
def groupId (rawMarket : Fields) (rawEvent : Option Fields) : Except Fault (Option JsonValue) :=
  if isGrouped py rawEvent then some <$> required "event_ticker" rawMarket else .ok none

/-- **A raw market, normalized.** -/
def normalizeMarket (rawMarket : Fields) (rawEvent : Option Fields) :
    Except Fault NormalizedMarket := do
  let group ← groupId py rawMarket rawEvent
  let ticker ← required "ticker" rawMarket
  let eventTicker ← required "event_ticker" rawMarket
  let title ← required "title" rawMarket
  let resolutionCriteria ← required "rules_primary" rawMarket
  let category ← required "category" rawMarket
  let closeTime ← parseDt py "close_time" (← required "close_time" rawMarket)
  let expectedResolutionTime ←
    parseOptionalDt py "expected_expiration_time" (lookup "expected_expiration_time" rawMarket)
  let priceTickPips ← tickPips py (lookup "tick_size" rawMarket)
  let volume ← toInt py (← required "volume_24h" rawMarket)
  NormalizedMarket.postInit {
    exchange := "kalshi"
    ticker
    eventTicker
    title
    resolutionCriteria
    category
    closeTime
    expectedResolutionTime
    marketType := "fully_collateralized_binary"
    priceTickPips
    minOrderContractCentis := 100
    fractionalTradingEnabled := false
    mutuallyExclusiveGroupId := group
    jurisdictionStatus := "unknown"
    rawExchangePayloadHash := payloadHash py rawMarket
    volume24hMicros := volume * 1000000 }

end Windbreak.Kalshi
