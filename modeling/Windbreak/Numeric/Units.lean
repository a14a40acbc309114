import Mathlib.Order.Defs.LinearOrder
import Mathlib.Algebra.Order.Ring.Int
import Mathlib.Data.Int.Basic

/-!
# Fixed-point units and directed rounding

The money, price, count and probability paths carry scaled integers wrapped in a unit type.  The
source has one frozen base class and four subclasses that differ only in what they are called, so
that a price can never be added to a count; here the unit is an index, and mixing two of them does
not typecheck.

* **Units** — `IntUnit`, with `PricePips`, `ContractCentis`, `MoneyMicros` and `ProbabilityPpm`.
* **Rounding** — `divide`, the single integer division, paired with a `RoundingDirection`.
* **Conversion** — `moneyFromPriceAndCount` is the exact product, whichever way it is asked to
  round (`moneyFromPriceAndCount_value`).
-/

namespace Windbreak

/-! ## Units -/

/-- The four units a scaled integer may be in. -/
inductive UnitName where
  | pricePips
  | contractCentis
  | moneyMicros
  | probabilityPpm
  deriving DecidableEq, Repr

/-- A scaled integer in a fixed unit.  Arithmetic and order are only defined within a unit. -/
@[ext] structure IntUnit (u : UnitName) where
  value : ℤ
  deriving DecidableEq, Repr

/-- Payout-dollars in units of `1e-4`. -/
abbrev PricePips := IntUnit .pricePips

/-- Contracts in units of `1e-2`. -/
abbrev ContractCentis := IntUnit .contractCentis

/-- Dollars in units of `1e-6`. -/
abbrev MoneyMicros := IntUnit .moneyMicros

/-- Probability in units of `1e-6`. -/
abbrev ProbabilityPpm := IntUnit .probabilityPpm

namespace IntUnit

variable {u : UnitName}

instance : Add (IntUnit u) := ⟨fun a b => ⟨a.value + b.value⟩⟩

instance : Sub (IntUnit u) := ⟨fun a b => ⟨a.value - b.value⟩⟩

instance : Neg (IntUnit u) := ⟨fun a => ⟨-a.value⟩⟩

instance : LE (IntUnit u) := ⟨fun a b => a.value ≤ b.value⟩

instance : LT (IntUnit u) := ⟨fun a b => a.value < b.value⟩

instance (a b : IntUnit u) : Decidable (a ≤ b) := inferInstanceAs (Decidable (a.value ≤ b.value))

instance (a b : IntUnit u) : Decidable (a < b) := inferInstanceAs (Decidable (a.value < b.value))

@[simp] theorem value_add (a b : IntUnit u) : (a + b).value = a.value + b.value := rfl

@[simp] theorem value_sub (a b : IntUnit u) : (a - b).value = a.value - b.value := rfl

@[simp] theorem value_neg (a : IntUnit u) : (-a).value = -a.value := rfl

theorem le_iff (a b : IntUnit u) : a ≤ b ↔ a.value ≤ b.value := Iff.rfl

end IntUnit

/-- A scaled integer as fixed-point text. -/
def formatFixedPoint (value : ℤ) (decimals : ℕ) (front back : String) : String :=
  let whole := value.natAbs / 10 ^ decimals
  let digits := toString (value.natAbs % 10 ^ decimals)
  let sign := if value < 0 then "-" else ""
  s!"{sign}{front}{whole}." ++ "".pushn '0' (decimals - digits.length) ++ digits ++ back

/-- Dollars with six decimals. -/
def MoneyMicros.text (money : MoneyMicros) : String := formatFixedPoint money.value 6 "$" ""

example : MoneyMicros.text ⟨1370100⟩ = "$1.370100" := by decide

/-! ## Directed rounding -/

/-- Which way a remainder is dropped. -/
inductive RoundingDirection where
  | overstateCost
  | understateEquity
  deriving DecidableEq, Repr

/-- The quotient rounded as directed: toward positive infinity for a cost, toward negative
infinity for an equity. -/
def quotient (numerator denominator : ℤ) (rounding : RoundingDirection) : ℤ :=
  match rounding with
  | .overstateCost => -(Int.fdiv (-numerator) denominator)
  | .understateEquity => Int.fdiv numerator denominator

/-- The single sanctioned integer division.  A zero denominator raises. -/
def divide (numerator denominator : ℤ) (rounding : RoundingDirection) : Except String ℤ :=
  if denominator = 0 then
    .error "divide() denominator must be non-zero"
  else
    .ok (quotient numerator denominator rounding)

/-- A division by a non-zero denominator never raises, so a caller whose denominator is a non-zero
constant may use the quotient. -/
theorem divide_of_ne_zero {d : ℤ} (hd : d ≠ 0) (n : ℤ) (rounding : RoundingDirection) :
    divide n d rounding = .ok (quotient n d rounding) := if_neg hd

/-- Rounding against the account: an overstated cost is at least the exact quotient, an
understated equity at most. -/
theorem quotient_bounds {d : ℤ} (hd : 0 < d) (n : ℤ) :
    quotient n d .understateEquity * d ≤ n ∧ n ≤ quotient n d .overstateCost * d := by
  simp only [quotient, Int.fdiv_eq_ediv_of_nonneg _ hd.le]
  have hlow := Int.ediv_mul_le n hd.ne'
  have hhigh := Int.ediv_mul_le (-n) hd.ne'
  rw [Int.neg_mul]
  exact ⟨hlow, by omega⟩

/-- Price times count, in micros: the denominator is `1`. -/
def moneyFromPriceAndCount (price : PricePips) (count : ContractCentis)
    (rounding : RoundingDirection) : MoneyMicros :=
  ⟨quotient (price.value * count.value) 1 rounding⟩

/-- **The conversion is exact**: pips times centis is micros, in either direction. -/
@[simp] theorem moneyFromPriceAndCount_value (price : PricePips) (count : ContractCentis)
    (rounding : RoundingDirection) :
    (moneyFromPriceAndCount price count rounding).value = price.value * count.value := by
  cases rounding <;> simp [moneyFromPriceAndCount, quotient]

end Windbreak
