import Windbreak.Connector.BookPayload
import Windbreak.Connector.KalshiPayloads
import Windbreak.Core.OrderedDict

/-!
# The connector over the public surface

A call walks a catalogue page by page, reads the clock and hands events to a ledger writer; the
connector keeps the verdicts of the last catalogue it walked.

* `Venue` — what the venue, the clock and the writer answer during one call.
* `paginate` — a catalogue, page by page, within a cap.
* `KalshiConnector` — the verdicts it keeps; the walks, the books asked for and the events handed
  over are kept beside them.
* `listMarkets`, `getMarket`, `getOrderBook` — the three calls.
-/

namespace Windbreak.Kalshi

open JsonValue (codes lookup)

/-! ## One call's surroundings -/

/-- An event for the ledger. -/
inductive ConnectorEvent where
  | connectorHalt (reason status : String) (ts : ℤ)
  | productRefused (ticker eventTicker : JsonValue) (reason payloadHash : String) (ts : ℤ)
  | marketMalformed (ticker eventTicker : JsonValue) (reason payloadHash : String) (ts : ℤ)
  deriving Repr

/-- The answers to one walk: of a page, asked for with a cursor. -/
abbrev Pages := ℕ → Option JsonValue → Except ClientFault JsonValue

/-- What is answered during one call: by the venue, by the clock, and by the ledger writer. -/
structure Venue where
  status : Except ClientFault JsonValue
  markets : Pages
  events : Pages
  orderbook : Except ClientFault JsonValue
  statusNow : ℤ
  ageNow : ℤ
  observedNow : ℤ
  bookNow : ℤ
  recordNow : ℕ → ℤ
  write : List ConnectorEvent → ConnectorEvent → Except Fault Unit

/-! ## Pages -/

/-- The most pages a walk follows. -/
def maxPages : ℕ := 1000

/-- `items.extend(value)`. -/
def elements : JsonValue → Except Fault (List JsonValue)
  | .arr items => .ok items
  | .str s => .ok (s.map fun c => .str [c])
  | .obj fields => .ok (fields.map fun f => .str f.1)
  | v => .error (.typeError ("'" ++ typeName v ++ "' object is not iterable"))

variable (py : Interpreter)

/-- The items of the pages that are left, from one on. -/
def followPages (pages : Pages) (endpoint itemKey : String) :
    ℕ → ℕ → Option JsonValue → Except Fault (List JsonValue)
  | 0, _, _ => .error (.paginationError endpoint maxPages)
  | left + 1, page, cursor => do
    let payload ← asMapping (← (pages page cursor).mapError .client)
    let items ← elements ((lookup itemKey payload).getD (.arr []))
    let next := (lookup "cursor" payload).getD .null
    if truthy py next then
      return items ++ (← followPages pages endpoint itemKey left (page + 1) (some next))
    else return items

/-- **A whole catalogue.** -/
def paginate (pages : Pages) (endpoint itemKey : String) : Except Fault (List JsonValue) :=
  followPages py pages endpoint itemKey maxPages 0 none

/-! ## The connector -/

/-- The verdict on each listed ticker, and when the catalogue was read. -/
structure GateIndex where
  verdicts : OrderedDict CodePoints (Option Refusal)
  observedAt : ℤ

/-- A catalogue that was walked, and when. -/
structure Walk where
  catalogue : List JsonValue
  observedAt : ℤ

/-- The verdicts kept; and the walks made, the books asked for and the events handed over. -/
structure KalshiConnector where
  gateIndex : Option GateIndex
  walks : List Walk
  bookRequests : List String
  events : List ConnectorEvent

/-- A connector that has made no call. -/
def KalshiConnector.new : KalshiConnector := ⟨none, [], [], []⟩

abbrev Call := EStateM Fault KalshiConnector

/-- An event is handed to the writer; what the writer raises is swallowed. -/
def record (venue : Venue) (event : ConnectorEvent) : Call Unit := do
  let handed := (← get).events
  modify fun s => { s with events := handed ++ [event] }
  tryCatch (MonadExcept.ofExcept (venue.write handed event)) fun _ => pure ()

/-- The reading of the clock that the next event is stamped with. -/
def stamp (venue : Venue) : Call ℤ := return venue.recordNow (← get).events.length

/-! ## The status -/

/-- `_resolve_status`. -/
def resolveStatus (raw : Fields) : String :=
  if !truthy py ((lookup "exchange_active" raw).getD .null) then "closed"
  else if truthy py ((lookup "trading_active" raw).getD .null) then "open"
  else "paused"

/-- The exchange's status, and when it was read. -/
def getExchangeStatus (venue : Venue) : Except Fault (String × ℤ) := do
  let raw ← asMapping (← venue.status.mapError .client)
  return (resolveStatus py raw, venue.statusNow)

/-- No call gets past a venue that is not open. -/
def ensureOperational (venue : Venue) : Call Unit := do
  let status ← MonadExcept.ofExcept (getExchangeStatus py venue)
  if status.1 = "open" then return
  record venue (.connectorHalt "maintenance" status.1 (← stamp venue))
  throw (.maintenanceHaltError status.1)

/-! ## The gate -/

/-- The first listing of a ticker decides. -/
def recordVerdict (verdicts : OrderedDict CodePoints (Option Refusal)) (raw : JsonValue) :
    Except Fault (OrderedDict CodePoints (Option Refusal)) := do
  let market ← asMapping raw
  match lookup "ticker" market with
  | some (.str ticker) =>
    if ticker ∈ verdicts.keys then return verdicts
    else return verdicts.set ticker (gateProduct market)
  | _ => return verdicts

/-- The verdicts of a catalogue just read replace those kept. -/
def recordGateIndex (venue : Venue) (rawMarkets : List JsonValue) : Call GateIndex := do
  let verdicts ← MonadExcept.ofExcept (rawMarkets.foldlM recordVerdict OrderedDict.empty)
  let index : GateIndex := ⟨verdicts, venue.observedNow⟩
  modify fun s => { s with
    gateIndex := some index
    walks := s.walks ++ [⟨rawMarkets, venue.observedNow⟩] }
  return index

/-- Every market of a catalogue walked now. -/
def rawMarkets (venue : Venue) : Call (List JsonValue) := do
  let raw ← MonadExcept.ofExcept (paginate py venue.markets "markets" "markets")
  let _ ← recordGateIndex venue raw
  return raw

/-- Whether verdicts are younger than the limit. -/
def isCurrent (ttl now : ℤ) (index : GateIndex) : Bool := now - index.observedAt < ttl

/-- The verdicts kept, or those of a catalogue walked now. -/
def freshGateIndex (ttl : ℤ) (venue : Venue) : Call GateIndex := do
  match (← get).gateIndex.filter (isCurrent ttl venue.ageNow) with
  | some cached => return cached
  | none => do
    let raw ← MonadExcept.ofExcept (paginate py venue.markets "markets" "markets")
    recordGateIndex venue raw

/-- Whether verdicts refuse a ticker; one that is not listed is refused. -/
def GateIndex.refuses (index : GateIndex) (ticker : String) : Bool :=
  match index.verdicts.get? (codes ticker) with
  | some none => false
  | some (some _) | none => true

def requireAllowedBinary (ttl : ℤ) (venue : Venue) (ticker : String) : Call Unit := do
  let index ← freshGateIndex py ttl venue
  if index.refuses ticker then throw (.unknownMarketError ticker)

/-- **The gate without a cache**: a market of a catalogue, unless it is refused. -/
def gateMarket (ticker : String) : List JsonValue → Except Fault Fields
  | [] => .error (.unknownMarketError ticker)
  | raw :: rest => do
    let market ← asMapping raw
    if ((lookup "ticker" market).getD .null).equalsText ticker then
      if (gateProduct market).isSome then .error (.unknownMarketError ticker)
      else return market
    else gateMarket ticker rest

def gatedRawMarket (venue : Venue) (ticker : String) : Call Fields := do
  MonadExcept.ofExcept (gateMarket ticker (← rawMarkets py venue))

/-! ## The calls -/

/-- `event["event_ticker"]`. -/
def eventTicker : JsonValue → Except Fault JsonValue
  | .obj fields => required "event_ticker" fields
  | v => .error (.typeError ("'" ++ typeName v ++ "' object is not a mapping"))

/-- Every event by its ticker, in the order they came. -/
def eventIndex (venue : Venue) : Except Fault (List (JsonValue × JsonValue)) := do
  let events ← paginate py venue.events "events" "events"
  events.mapM fun event => do return (← asKey (← eventTicker event), event)

/-- The last event under a key. -/
def eventOf (events : List (JsonValue × JsonValue)) (key : JsonValue) : Option JsonValue :=
  (events.reverse.find? fun event => py.sameKey event.1 key).map Prod.snd

/-- A listed market with its event, normalized. -/
def normalizeListed (events : List (JsonValue × JsonValue)) (market : Fields) :
    Except Fault NormalizedMarket := do
  let key ← asKey (← required "event_ticker" market)
  let event ← (eventOf py events key).mapM asMapping
  normalizeMarket py market event

/-- The record of a refused market. -/
def refusedEvent (raw : Fields) (reason : Refusal) (ts : ℤ) : ConnectorEvent :=
  .productRefused ((lookup "ticker" raw).getD .null) ((lookup "event_ticker" raw).getD .null)
    (reason.text py) (payloadHash py raw) ts

/-- The record of a binary market that cannot be normalized. -/
def malformedEvent (raw : Fields) (fault : Fault) (ts : ℤ) : ConnectorEvent :=
  .marketMalformed ((lookup "ticker" raw).getD .null) ((lookup "event_ticker" raw).getD .null)
    fault.text (payloadHash py raw) ts

def recordRefusal (venue : Venue) (raw : Fields) (reason : Refusal) : Call Unit := do
  record venue (refusedEvent py raw reason (← stamp venue))

def recordMalformed (venue : Venue) (raw : Fields) (fault : Fault) : Call Unit := do
  record venue (malformedEvent py raw fault (← stamp venue))

/-- One market of a scan: refused, normalized, or recorded as malformed. -/
def screenOne (venue : Venue) (events : List (JsonValue × JsonValue)) (market : Fields) :
    Call (Option NormalizedMarket) :=
  match gateProduct market with
  | some reason => do
    recordRefusal py venue market reason
    return none
  | none =>
    match normalizeListed py events market with
    | .ok normalized => return some normalized
    | .error fault => do
      if fault.isMalformedMarket then
        recordMalformed py venue market fault
        return none
      else throw fault

/-- The markets of a catalogue that are offered, each other one recorded. -/
def screen (venue : Venue) (events : List (JsonValue × JsonValue)) :
    List JsonValue → Call (List NormalizedMarket)
  | [] => return []
  | raw :: rest => do
    let market ← MonadExcept.ofExcept (asMapping raw)
    let normalized ← screenOne py venue events market
    return normalized.toList ++ (← screen venue events rest)

/-- **Every offered market**, each other one recorded. -/
def listMarkets (venue : Venue) : Call (List NormalizedMarket) := do
  ensureOperational py venue
  let events ← MonadExcept.ofExcept (eventIndex py venue)
  screen py venue events (← rawMarkets py venue)

/-- **One market.** -/
def getMarket (venue : Venue) (ticker : String) : Call NormalizedMarket := do
  ensureOperational py venue
  let raw ← gatedRawMarket py venue ticker
  let events ← MonadExcept.ofExcept (eventIndex py venue)
  match normalizeListed py events raw with
  | .ok market => return market
  | .error fault =>
    if fault.isMalformedMarket then do
      recordMalformed py venue raw fault
      throw (.unknownMarketError ticker)
    else throw fault

/-- What a book is refused with. -/
def ofRefusal : RawBook.Refusal → Fault
  | .attributeError => .attributeError "get"
  | .keyError => .keyError "0"
  | .indexError => .indexError
  | .typeError => .typeError "unit"

/-- **The book of a market** that the gate lets through. -/
def getOrderBook (ttl : ℤ) (venue : Venue) (ticker : String) : Call OrderBookSnapshot := do
  ensureOperational py venue
  requireAllowedBinary py ttl venue ticker
  modify fun s => { s with bookRequests := s.bookRequests ++ [ticker] }
  match venue.orderbook with
  | .error (.apiError _) => throw (.unknownMarketError ticker)
  | .error fault => throw (.client fault)
  | .ok raw =>
    MonadExcept.ofExcept ((RawBook.normalizeOrderBook ticker raw venue.bookNow).mapError ofRefusal)

end Windbreak.Kalshi
