import Windbreak.Connector.GateCache

/-!
# One malformed market among others

A scan normalizes what it can and records the rest.  What it degrades are missing fields, values
that do not parse and values of the wrong type; an instant outside the calendar and an infinite
count are raised otherwise.

* `Serves` — a catalogue, however many pages it comes in.
* `Accounts` — each raw market is in the result, or recorded once, in the order of the catalogue.
* `Overflows` — a market whose normalization comes to such an instant or count before it fails
  otherwise.
* **`every_market_accounted`** — within the cap on pages, a scan of events that can be indexed and
  of markets that do not overflow returns and accounts for each market.
-/

namespace Windbreak.Kalshi

open Effects
open JsonValue (codes lookup)

variable {py : Interpreter}

/-! ## Pages -/

/-- **A catalogue in pages**: each but the last gives a cursor for the next. -/
structure Serves (py : Interpreter) (pages : Pages) (itemKey : String)
    (listing : List (List Fields)) : Prop where
  nonempty : listing ≠ []
  answers : ∀ n cursor items, listing[n]? = some items → ∃ payload,
    pages n cursor = .ok (.obj payload) ∧ lookup itemKey payload = some (.arr (items.map .obj)) ∧
      (truthy py ((lookup "cursor" payload).getD .null) = true ↔ n + 1 < listing.length)

/-- A computation that raises something a scan does not degrade. -/
def Escapes {α : Type} (x : Except Fault α) : Prop :=
  ∃ fault, x = .error fault ∧ fault.isMalformedMarket = false

/-- A connector after it handed an event over. -/
def KalshiConnector.handed (s : KalshiConnector) (event : ConnectorEvent) : KalshiConnector :=
  { s with events := s.events ++ [event] }

/-- An event that can be indexed. -/
def Keyed (event : Fields) : Prop :=
  ∃ ticker, lookup "event_ticker" event = some ticker ∧ isHashable ticker = true

end Windbreak.Kalshi
