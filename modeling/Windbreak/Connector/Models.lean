import Mathlib.Data.List.Pairwise
import Windbreak.Numeric.Units

/-!
# What a venue reports

The rows that the verifier of the kernel, the gateway and its cycles read from an exchange, with
the fields they read.
-/

namespace Windbreak

/-- An open position in one market. -/
structure Position where
  ticker : String
  quantity : ContractCentis
  deriving DecidableEq, Repr

/-- A resting order. -/
structure OpenOrder where
  id : String
  ticker : String
  side : String
  price : PricePips
  deriving DecidableEq, Repr

/-- An executed trade; the order id is that of the resting order it executed against, if any. -/
structure Fill where
  id : String
  ticker : String
  side : String
  price : PricePips
  quantity : ContractCentis
  ts : ℤ
  orderId : Option String
  deriving DecidableEq, Repr

/-- One price level of a book. -/
structure OrderBookLevel where
  price : PricePips
  quantity : ContractCentis
  deriving DecidableEq, Repr

/-- A market's YES bids and asks, each best first. -/
structure OrderBookSnapshot where
  ticker : String
  yesBids : List OrderBookLevel
  yesAsks : List OrderBookLevel
  fetchedAt : ℤ
  deriving DecidableEq, Repr

/-- A market, as far as its jurisdiction goes. -/
structure NormalizedMarket where
  jurisdictionStatus : String
  deriving DecidableEq, Repr

/-! ## Ladders -/

/-- A ladder is best first when its prices rise; no level rests a negative size. -/
structure BestFirst (yesAsks : List OrderBookLevel) : Prop where
  rising : yesAsks.Pairwise fun better worse => better.price.value ≤ worse.price.value
  quantity_nonneg : ∀ level ∈ yesAsks, 0 ≤ level.quantity.value

theorem BestFirst.tail {level : OrderBookLevel} {rest : List OrderBookLevel}
    (h : BestFirst (level :: rest)) : BestFirst rest where
  rising := h.rising.of_cons
  quantity_nonneg := fun other hother => h.quantity_nonneg other (List.mem_cons_of_mem _ hother)

theorem BestFirst.head_le {level other : OrderBookLevel} {rest : List OrderBookLevel}
    (h : BestFirst (level :: rest)) (hother : other ∈ rest) :
    level.price.value ≤ other.price.value := List.rel_of_pairwise_cons h.rising hother

theorem BestFirst.head_nonneg {level : OrderBookLevel} {rest : List OrderBookLevel}
    (h : BestFirst (level :: rest)) : 0 ≤ level.quantity.value :=
  h.quantity_nonneg level (List.mem_cons_self ..)

end Windbreak
