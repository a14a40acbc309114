import Windbreak.Core.OrderedDict
import Windbreak.RiskKernel.Context

/-!
# The state of the reservation ledger

Active reservations in insertion order, every intent id and idempotency key ever reserved, and the
last sequence number given out.  Two facts the methods rely on are fields, so no ledger without
them exists: a reservation is filed under its own intent id, and an active id is a seen one.

* `add`, `drop`, `resize` — the three ways a method changes the state.
* `dropAll` — a loop of drops, and what is left of a lookup after it.
* `totalReserved` — and what a fresh reservation adds to it.
-/

namespace Windbreak

/-- A capital reservation. -/
structure Reservation where
  intentId : String
  amount : MoneyMicros
  idempotencyKey : String
  expiresAt : ℤ
  sequenceNumber : ℤ
  deriving DecidableEq, Repr

/-- The single-writer capital ledger. -/
structure ReservationLedger where
  active : OrderedDict String Reservation
  seenIntentIds : Finset String
  seenIdempotencyKeys : Finset String
  sequence : ℤ
  filed : ∀ id r, active.get? id = some r → r.intentId = id
  active_seen : ∀ id ∈ active.keys, id ∈ seenIntentIds

namespace ReservationLedger

/-- The ledger before its first reservation. -/
def empty : ReservationLedger where
  active := .empty
  seenIntentIds := ∅
  seenIdempotencyKeys := ∅
  sequence := 0
  filed := by simp
  active_seen := by simp

/-- The summed amount of all active reservations. -/
def totalReserved (ledger : ReservationLedger) : MoneyMicros :=
  ⟨ledger.active.total fun r => r.amount.value⟩

/-- File a reservation, remember its id and key for good, and advance the sequence to its
number. -/
def add (ledger : ReservationLedger) (r : Reservation) : ReservationLedger where
  active := ledger.active.set r.intentId r
  seenIntentIds := insert r.intentId ledger.seenIntentIds
  seenIdempotencyKeys := insert r.idempotencyKey ledger.seenIdempotencyKeys
  sequence := r.sequenceNumber
  filed id s h := by
    rw [OrderedDict.get?_set] at h
    split_ifs at h with hid
    · rw [hid, ← Option.some.inj h]
    · exact ledger.filed id s h
  active_seen id h := by
    rcases OrderedDict.mem_keys_set.mp h with rfl | h
    · exact Finset.mem_insert_self _ _
    · exact Finset.mem_insert_of_mem (ledger.active_seen id h)

/-- Drop a reservation, keeping its id and key remembered. -/
def drop (ledger : ReservationLedger) (intentId : String) : ReservationLedger where
  active := ledger.active.pop intentId
  seenIntentIds := ledger.seenIntentIds
  seenIdempotencyKeys := ledger.seenIdempotencyKeys
  sequence := ledger.sequence
  filed id s h := by
    rw [OrderedDict.get?_pop] at h
    split_ifs at h
    exact ledger.filed id s h
  active_seen id h := ledger.active_seen id (OrderedDict.mem_keys_pop.mp h).2

/-- Replace the amount of an active reservation. -/
def resize (ledger : ReservationLedger) (r : Reservation) (amount : MoneyMicros)
    (h : ledger.active.get? r.intentId = some r) : ReservationLedger where
  active := ledger.active.set r.intentId { r with amount := amount }
  seenIntentIds := ledger.seenIntentIds
  seenIdempotencyKeys := ledger.seenIdempotencyKeys
  sequence := ledger.sequence
  filed id s hs := by
    rw [OrderedDict.get?_set] at hs
    split_ifs at hs with hid
    · rw [hid, ← Option.some.inj hs]
    · exact ledger.filed id s hs
  active_seen id hid := by
    rcases OrderedDict.mem_keys_set.mp hid with rfl | hid
    · exact ledger.active_seen _ (OrderedDict.mem_keys_iff.mpr ⟨r, h⟩)
    · exact ledger.active_seen id hid

/-! ## What the updates do -/

@[simp] theorem add_active (ledger : ReservationLedger) (r : Reservation) :
    (ledger.add r).active = ledger.active.set r.intentId r := rfl

@[simp] theorem drop_active (ledger : ReservationLedger) (id : String) :
    (ledger.drop id).active = ledger.active.pop id := rfl

@[simp] theorem drop_seenIntentIds (ledger : ReservationLedger) (id : String) :
    (ledger.drop id).seenIntentIds = ledger.seenIntentIds := rfl

@[simp] theorem drop_seenIdempotencyKeys (ledger : ReservationLedger) (id : String) :
    (ledger.drop id).seenIdempotencyKeys = ledger.seenIdempotencyKeys := rfl

@[simp] theorem drop_sequence (ledger : ReservationLedger) (id : String) :
    (ledger.drop id).sequence = ledger.sequence := rfl

@[simp] theorem resize_active (ledger : ReservationLedger) (r : Reservation)
    (amount : MoneyMicros) (h : ledger.active.get? r.intentId = some r) :
    (ledger.resize r amount h).active =
      ledger.active.set r.intentId { r with amount := amount } := rfl

/-- Drop a list of reservations, one after the other. -/
def dropAll (ledger : ReservationLedger) (intentIds : List String) : ReservationLedger :=
  intentIds.foldl drop ledger

@[simp] theorem dropAll_nil (ledger : ReservationLedger) : ledger.dropAll [] = ledger := rfl

@[simp] theorem dropAll_cons (ledger : ReservationLedger) (id : String) (ids : List String) :
    ledger.dropAll (id :: ids) = (ledger.drop id).dropAll ids := rfl

/-- A loop of drops removes exactly the listed reservations. -/
theorem get?_dropAll (ledger : ReservationLedger) (ids : List String) (id : String) :
    (ledger.dropAll ids).active.get? id = if id ∈ ids then none else ledger.active.get? id := by
  induction ids generalizing ledger with
  | nil => simp
  | cons head ids ih =>
      rw [dropAll_cons, ih, drop_active, OrderedDict.get?_pop]
      by_cases hid : id ∈ ids
      · simp [hid]
      · by_cases hhead : id = head
        · simp [hhead]
        · simp [hid, hhead]

theorem mem_keys_dropAll {ledger : ReservationLedger} {ids : List String} {id : String} :
    id ∈ (ledger.dropAll ids).active.keys ↔ id ∉ ids ∧ id ∈ ledger.active.keys := by
  rw [OrderedDict.mem_keys_iff, OrderedDict.mem_keys_iff, get?_dropAll]
  by_cases h : id ∈ ids <;> simp [h]

@[simp] theorem dropAll_seenIntentIds (ledger : ReservationLedger) (ids : List String) :
    (ledger.dropAll ids).seenIntentIds = ledger.seenIntentIds := by
  induction ids generalizing ledger with
  | nil => rfl
  | cons id ids ih => rw [dropAll_cons, ih, drop_seenIntentIds]

/-- **A fresh reservation adds its amount** to the total. -/
theorem totalReserved_add {ledger : ReservationLedger} {r : Reservation}
    (hfresh : r.intentId ∉ ledger.seenIntentIds) :
    (ledger.add r).totalReserved = ledger.totalReserved + r.amount := by
  have hkey : r.intentId ∉ ledger.active.keys := fun h => hfresh (ledger.active_seen _ h)
  ext
  exact OrderedDict.total_set_of_fresh _ r hkey

end ReservationLedger

end Windbreak
