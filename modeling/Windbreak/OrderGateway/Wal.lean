import Windbreak.Core.Json
import Windbreak.RiskKernel.Context

/-!
# Client order ids and the write-ahead log

An intent is known to the gateway by the digest of its nine fields.  Under that id the gateway
journals the intent before it acts and the acknowledgement once the venue has answered.

The hash is not the program's own: it enters as a function from bytes to a hexadecimal digest.

* **`clientOrderId`** — the id of an intent.
* **`WriteAheadLog`** — the journal; a torn line makes every later read of it raise.
-/

namespace Windbreak

/-- A hash function, as the hexadecimal text of its digest. -/
abbrev HexDigest := List UInt8 → String

/-- The canonical bytes of the nine fields of an intent. -/
def canonicalIntentBytes (intent : OrderIntent) : List UInt8 :=
  (Json.obj
    [("intent_id", .str intent.intentId), ("market_ticker", .str intent.marketTicker),
      ("outcome", .str intent.outcome), ("action", .str intent.action),
      ("price", .int intent.price.value), ("size", .int intent.size.value),
      ("max_notional", .int intent.maxNotional.value),
      ("implied_probability", .int intent.impliedProbability.value),
      ("idempotency_key", .str intent.idempotencyKey)]).canonical.toUTF8.data.toList

/-- The content-addressed id of an intent. -/
def clientOrderId (sha256 : HexDigest) (intent : OrderIntent) : String :=
  sha256 (canonicalIntentBytes intent)

/-- One journalled record. Its texts hold no surrogates. -/
inductive WalRecord where
  | intent (clientOrderId : String) (intent : OrderIntent)
  | ack (clientOrderId : String) (orderId : Option String) (filled : ContractCentis)
  deriving DecidableEq, Repr

namespace WalRecord

/-- The id an acknowledgement was journalled under. -/
def ackedId? : WalRecord → Option String
  | .ack coid _ _ => some coid
  | .intent _ _ => none

/-- The intent of an intent record, under its id. -/
def intent? : WalRecord → Option (String × OrderIntent)
  | .intent coid journalled => some (coid, journalled)
  | .ack _ _ _ => none

end WalRecord

/-- The journal: the complete records, and whether a torn line damaged it.  A line appended after a
torn one fuses onto it, so the damage stays. -/
structure WriteAheadLog where
  records : List WalRecord
  torn : Bool
  deriving DecidableEq, Repr

namespace WriteAheadLog

def empty : WriteAheadLog := ⟨[], false⟩

/-- The journal with one more complete line. -/
def append (wal : WriteAheadLog) (record : WalRecord) : WriteAheadLog :=
  { wal with records := wal.records ++ [record] }

/-- The journal with a partial line at its end. -/
def tear (wal : WriteAheadLog) : WriteAheadLog := { wal with torn := true }

/-- Every record, or the refusal of a damaged journal. -/
def readAll (wal : WriteAheadLog) : Except String (List WalRecord) :=
  if wal.torn then .error "write-ahead log corrupt" else .ok wal.records

/-- The ids whose acknowledgement is journalled. -/
def ackedIds (wal : WriteAheadLog) : List String := wal.records.filterMap WalRecord.ackedId?

@[simp] theorem ackedIds_append (wal : WriteAheadLog) (record : WalRecord) :
    (wal.append record).ackedIds = wal.ackedIds ++ record.ackedId?.toList := by
  rw [ackedIds, append, List.filterMap_append]
  cases record <;> rfl

@[simp] theorem ackedIds_tear (wal : WriteAheadLog) : wal.tear.ackedIds = wal.ackedIds := rfl

end WriteAheadLog

end Windbreak
