import Mathlib.Algebra.Order.BigOperators.Group.List
import Windbreak.Core.Effects
import Windbreak.Numeric.Rounding
import Windbreak.Selector.Types

/-!
# The executable edge

A fill is priced by walking the asks best first to its size: never at the midpoint nor at one
level's quote.  The edges are chained off that price, in parts per million of a dollar.

* **`walkBookCost`** — the walk; `walkBookCost_bounds` puts its cost between what its size costs at
  the best and at the marginal price.
* **`computeExecutableEdge`** — the figures of a fill; `computeExecutableEdge_figures` says what
  they are.
-/

namespace Windbreak

/-- Parts per million of a dollar in a pip. -/
def ppmPerPip : ℤ := 100

def ppmScale : ℤ := 1000000

/-- Hours in a year of 365 days. -/
def hoursPerYear : ℤ := 8760

/-- The figures of one priced fill. -/
structure EdgeFigures where
  grossEdgePpm : ℤ
  feeAdjustedEdgePpm : ℤ
  netEdgePpm : ℤ
  annualizedExpectedReturnPpm : ℤ
  executablePricePpm : ℤ
  executablePricePips : PricePips
  executableCostMicros : MoneyMicros
  marginalPricePips : PricePips
  deriving DecidableEq, Repr

/-- What pricing a fill comes to. -/
inductive EdgeOutcome where
  | figures (figures : EdgeFigures)
  | insufficientDepth (requiredCentis availableCentis : ℤ)
  | nonAnnualizable (executablePricePpm forecastHorizonHours : ℤ)
  deriving DecidableEq, Repr

/-! ## The walk -/

/-- The loop of the walk: the size that remains, the cost so far and the last price reached. -/
def walkBook : List OrderBookLevel → ℤ → ℤ → Option PricePips → ℤ × ℤ × Option PricePips
  | [], remaining, totalCost, marginal => (remaining, totalCost, marginal)
  | level :: rest, remaining, totalCost, marginal =>
    if remaining ≤ 0 then (remaining, totalCost, marginal)
    else
      let taken := min remaining level.quantity.value
      walkBook rest (remaining - taken) (totalCost + level.price.value * taken) (some level.price)

/-- Walk the asks best first: the cost and the deepest price, unless the depth falls short. -/
def walkBookCost (yesAsks : List OrderBookLevel) (sizeCentis : ℤ) : Option (ℤ × PricePips) :=
  let (remaining, totalCost, marginal) := walkBook yesAsks sizeCentis 0 none
  if remaining > 0 then none else marginal.map fun price => (totalCost, price)

/-- The depth of a ladder. -/
def askDepth (yesAsks : List OrderBookLevel) : ℤ := (yesAsks.map (·.quantity.value)).sum

/-! ## Pricing -/

/-- A total cost per contract, in parts per million of a dollar, rounded up. -/
def perContractPpm (totalMicros sizeCentis : ℤ) : Except String ℤ :=
  divide (totalMicros * ppmPerPip) sizeCentis .overstateCost

/-- The worst-case fee of a fill, for trading and for settlement. -/
def feeMicros (feeModel : FeeModelInput) (pricePips sizeCentis : ℤ) : Except String ℤ := do
  let trading ← feeModel.model.maxTradingFeeMicros pricePips sizeCentis
  let settlement ← feeModel.model.maxSettlementFeeMicros sizeCentis
  return trading + settlement

/-- Whether a return can be annualized. -/
def isAnnualizable (executablePricePpm horizonHours : ℤ) : Bool :=
  executablePricePpm > 0 && horizonHours > 0

/-- The return of one horizon taken to a year, rounded down. -/
def annualize (netEdgePpm executablePricePpm horizonHours : ℤ) : Except String ℤ :=
  divide (netEdgePpm * ppmScale * hoursPerYear) (executablePricePpm * horizonHours)
    .understateEquity

/-- Price a fill of a size and chain the edges off it. -/
def computeExecutableEdge (orderBook : OrderBookSnapshot) (size : ContractCentis)
    (forecast : SelectorForecast) (feeModel : FeeModelInput) (perContractBufferPpm : ℤ) :
    Except String EdgeOutcome :=
  match walkBookCost orderBook.yesAsks size.value with
  | none => return .insufficientDepth size.value (askDepth orderBook.yesAsks)
  | some (totalCost, marginal) => do
    let executablePricePips ← divide totalCost size.value .overstateCost
    let executablePricePpm ← perContractPpm totalCost size.value
    let horizonHours := forecast.forecastHorizonHours
    if !isAnnualizable executablePricePpm horizonHours then
      return .nonAnnualizable executablePricePpm horizonHours
    let grossEdgePpm := forecast.probabilityPpm - executablePricePpm
    let feePpm ← perContractPpm (← feeMicros feeModel executablePricePips size.value) size.value
    let feeAdjustedEdgePpm := grossEdgePpm - feePpm
    let netEdgePpm := feeAdjustedEdgePpm - perContractBufferPpm
    let annualized ← annualize netEdgePpm executablePricePpm horizonHours
    return .figures
      { grossEdgePpm
        feeAdjustedEdgePpm
        netEdgePpm
        annualizedExpectedReturnPpm := annualized
        executablePricePpm
        executablePricePips := ⟨executablePricePips⟩
        executableCostMicros := ⟨totalCost⟩
        marginalPricePips := marginal }

/-! ## What a completed walk costs -/

/-- A walk that fills a size: it takes whole levels down to the marginal one. -/
inductive Walks : List OrderBookLevel → ℤ → ℤ → PricePips → Prop where
  | marginal (level : OrderBookLevel) (rest : List OrderBookLevel) (size : ℤ) :
      0 < size → size ≤ level.quantity.value →
        Walks (level :: rest) size (level.price.value * size) level.price
  | deeper (level : OrderBookLevel) (rest : List OrderBookLevel) (size cost : ℤ)
      (price : PricePips) :
      0 < size → level.quantity.value < size → Walks rest (size - level.quantity.value) cost price →
        Walks (level :: rest) size (level.price.value * level.quantity.value + cost) price

theorem walkBook_done (yesAsks : List OrderBookLevel) (totalCost : ℤ)
    (marginal : Option PricePips) :
    walkBook yesAsks 0 totalCost marginal = (0, totalCost, marginal) := by
  cases yesAsks with
  | nil => rfl
  | cons level rest => exact if_pos (le_refl 0)

namespace Walks

variable {yesAsks : List OrderBookLevel} {size cost : ℤ} {price : PricePips}

theorem size_pos (h : Walks yesAsks size cost price) : 0 < size := by
  cases h with
  | marginal _ _ _ hsize _ => exact hsize
  | deeper _ _ _ _ _ hsize _ _ => exact hsize

theorem walkBook_eq (h : Walks yesAsks size cost price) :
    ∀ (before : ℤ) (last : Option PricePips),
      walkBook yesAsks size before last = (0, before + cost, some price) := by
  induction h with
  | marginal level rest size hsize hfit =>
    intro before last
    rw [walkBook, if_neg (not_le.mpr hsize)]
    dsimp only
    rw [min_eq_left hfit, sub_self, walkBook_done]
  | deeper level rest size cost price hsize hshort _ ih =>
    intro before last
    rw [walkBook, if_neg (not_le.mpr hsize)]
    dsimp only
    rw [min_eq_right hshort.le, ih, add_assoc]

theorem walkBookCost_eq (h : Walks yesAsks size cost price) :
    walkBookCost yesAsks size = some (cost, price) := by
  rw [walkBookCost, h.walkBook_eq]
  simp

/-- The marginal price is that of a level. -/
theorem price_mem (h : Walks yesAsks size cost price) : ∃ level ∈ yesAsks, level.price = price := by
  induction h with
  | marginal level rest size hsize hfit => exact ⟨level, List.mem_cons_self .., rfl⟩
  | deeper level rest size cost price hsize hshort _ ih =>
    obtain ⟨other, hother, hprice⟩ := ih
    exact ⟨other, List.mem_cons_of_mem _ hother, hprice⟩

/-- No level before the marginal one is dearer than it. -/
theorem head_le {level : OrderBookLevel} {rest : List OrderBookLevel}
    (h : Walks rest size cost price) (hbest : BestFirst (level :: rest)) :
    level.price.value ≤ price.value := by
  obtain ⟨other, hother, rfl⟩ := h.price_mem
  exact hbest.head_le hother

/-- A fill costs at most its size at the marginal price. -/
theorem cost_le (h : Walks yesAsks size cost price) (hbest : BestFirst yesAsks) :
    cost ≤ price.value * size := by
  induction h with
  | marginal level rest size hsize hfit => exact le_refl _
  | deeper level rest size cost price hsize hshort hrest ih =>
    have hlevel : level.price.value * level.quantity.value ≤ price.value * level.quantity.value :=
      mul_le_mul_of_nonneg_right (hrest.head_le hbest) hbest.head_nonneg
    have hdeeper := ih hbest.tail
    rw [mul_sub] at hdeeper
    omega

/-- A fill costs at least its size at a price that no level is below. -/
theorem le_cost {best : ℤ} (h : Walks yesAsks size cost price)
    (hquantity : ∀ level ∈ yesAsks, 0 ≤ level.quantity.value)
    (hprice : ∀ level ∈ yesAsks, best ≤ level.price.value) : best * size ≤ cost := by
  induction h with
  | marginal level rest size hsize hfit =>
    exact mul_le_mul_of_nonneg_right (hprice level (List.mem_cons_self ..)) hsize.le
  | deeper level rest size cost price hsize hshort _ ih =>
    have hlevel : best * level.quantity.value ≤ level.price.value * level.quantity.value :=
      mul_le_mul_of_nonneg_right (hprice level (List.mem_cons_self ..))
        (hquantity level (List.mem_cons_self ..))
    have hdeeper := ih (fun other hother => hquantity other (List.mem_cons_of_mem _ hother))
      fun other hother => hprice other (List.mem_cons_of_mem _ hother)
    rw [mul_sub] at hdeeper
    omega

/-- Every further contract costs at least the marginal price. -/
theorem cost_add_le {larger largerCost : ℤ} {deeper : PricePips}
    (h : Walks yesAsks size cost price) (hlarger : Walks yesAsks larger largerCost deeper)
    (hbest : BestFirst yesAsks) (hsize : size ≤ larger) :
    cost + price.value * (larger - size) ≤ largerCost := by
  induction h generalizing larger largerCost with
  | marginal level rest size hpos hfit =>
    have hall : level.price.value * larger ≤ largerCost :=
      hlarger.le_cost hbest.quantity_nonneg fun other hother => by
        rcases List.mem_cons.mp hother with rfl | hrest
        · exact le_refl _
        · exact hbest.head_le hrest
    rw [mul_sub]
    omega
  | deeper level rest size cost price hpos hshort _ ih =>
    cases hlarger with
    | marginal _ _ _ _ hfit => omega
    | deeper _ _ _ restCost _ _ _ hrest =>
      have hstep := ih hrest hbest.tail (by omega)
      rw [show larger - level.quantity.value - (size - level.quantity.value) = larger - size by
        omega] at hstep
      omega

/-- **The average price rises with the size.** -/
theorem average_le {larger largerCost : ℤ} {deeper : PricePips}
    (h : Walks yesAsks size cost price) (hlarger : Walks yesAsks larger largerCost deeper)
    (hbest : BestFirst yesAsks) (hsize : size ≤ larger) :
    cost * larger ≤ largerCost * size := by
  have hfurther := h.cost_add_le hlarger hbest hsize
  have haverage := h.cost_le hbest
  calc cost * larger = cost * size + cost * (larger - size) := by ring
    _ ≤ cost * size + price.value * size * (larger - size) :=
        add_le_add_right (mul_le_mul_of_nonneg_right haverage (sub_nonneg.mpr hsize)) _
    _ = (cost + price.value * (larger - size)) * size := by ring
    _ ≤ largerCost * size := mul_le_mul_of_nonneg_right hfurther h.size_pos.le

/-- The levels dearer than the marginal one do not matter, nor what stands behind the others. -/
theorem capped (h : Walks yesAsks size cost price) (hbest : BestFirst yesAsks)
    (behind : List OrderBookLevel) :
    Walks (yesAsks.filter (fun level => level.price ≤ price) ++ behind) size cost price := by
  induction h with
  | marginal level rest size hsize hfit =>
    rw [List.filter_cons_of_pos (by simp [IntUnit.le_iff])]
    exact .marginal level _ size hsize hfit
  | deeper level rest size cost price hsize hshort hrest ih =>
    rw [List.filter_cons_of_pos (by simpa [IntUnit.le_iff] using hrest.head_le hbest)]
    exact .deeper level _ size cost price hsize hshort (ih hbest.tail)

end Walks

/-- A walk that leaves nothing was a fill. -/
theorem walks_of_walkBook : ∀ (yesAsks : List OrderBookLevel) (size before : ℤ)
    (last : Option PricePips), 0 < size → (walkBook yesAsks size before last).1 ≤ 0 →
      ∃ cost price, Walks yesAsks size cost price
  | [], size, before, last, hsize, hdone => absurd hdone (not_le.mpr hsize)
  | level :: rest, size, before, last, hsize, hdone => by
    rw [walkBook, if_neg (not_le.mpr hsize)] at hdone
    dsimp only at hdone
    rcases le_or_gt size level.quantity.value with hfit | hshort
    · exact ⟨_, _, .marginal level rest size hsize hfit⟩
    · rw [min_eq_right hshort.le] at hdone
      obtain ⟨cost, price, hrest⟩ :=
        walks_of_walkBook rest (size - level.quantity.value) _ _ (by omega) hdone
      exact ⟨_, _, .deeper level rest size cost price hsize hshort hrest⟩

/-- **The walk of the source is a fill** where it returns a cost. -/
theorem walkBookCost_eq_some_iff {yesAsks : List OrderBookLevel} {size cost : ℤ}
    {price : PricePips} :
    walkBookCost yesAsks size = some (cost, price) ↔ Walks yesAsks size cost price := by
  constructor
  · intro h
    rcases le_or_gt size 0 with hnone | hsize
    · have hstops : walkBook yesAsks size 0 none = (size, 0, none) := by
        cases yesAsks with
        | nil => rfl
        | cons level rest => exact if_pos hnone
      rw [walkBookCost, hstops] at h
      simp at h
    · by_cases hdone : (walkBook yesAsks size 0 none).1 ≤ 0
      · obtain ⟨walkCost, walkPrice, hwalks⟩ := walks_of_walkBook yesAsks size 0 none hsize hdone
        rw [hwalks.walkBookCost_eq] at h
        cases h
        exact hwalks
      · rw [walkBookCost] at h
        dsimp only at h
        rw [if_pos (not_le.mp hdone)] at h
        cases h
  · exact Walks.walkBookCost_eq

/-! ## What the figures of a fill are -/

/-- The average price of a fill, in parts per million of a dollar. -/
def averagePpm (cost size : ℤ) : ℤ := quotient (cost * ppmPerPip) size .overstateCost

/-- The average price of a fill, in pips. -/
def averagePips (cost size : ℤ) : ℤ := quotient cost size .overstateCost

/-- The net edge of a fill at an average price, with a total fee. -/
def netEdgeOf (forecast : SelectorForecast) (perContractBufferPpm pricePpm fee size : ℤ) : ℤ :=
  forecast.probabilityPpm - pricePpm - quotient (fee * ppmPerPip) size .overstateCost -
    perContractBufferPpm

/-- The figures of a fill, from its cost, its marginal price and its fee. -/
def figuresOf (forecast : SelectorForecast) (perContractBufferPpm size cost : ℤ)
    (marginal : PricePips) (fee : ℤ) : EdgeFigures :=
  let net := netEdgeOf forecast perContractBufferPpm (averagePpm cost size) fee size
  { grossEdgePpm := forecast.probabilityPpm - averagePpm cost size
    feeAdjustedEdgePpm := forecast.probabilityPpm - averagePpm cost size -
      quotient (fee * ppmPerPip) size .overstateCost
    netEdgePpm := net
    annualizedExpectedReturnPpm := quotient (net * ppmScale * hoursPerYear)
      (averagePpm cost size * forecast.forecastHorizonHours) .understateEquity
    executablePricePpm := averagePpm cost size
    executablePricePips := ⟨averagePips cost size⟩
    executableCostMicros := ⟨cost⟩
    marginalPricePips := marginal }

theorem feeMicros_nonneg {feeModel : FeeModelInput} {pricePips sizeCentis fee : ℤ}
    (h : feeMicros feeModel pricePips sizeCentis = .ok fee) : 0 ≤ fee := by
  obtain ⟨trading, htrading, h⟩ := Effects.except_bind_ok.mp h
  obtain ⟨settlement, hsettlement, h⟩ := Effects.except_bind_ok.mp h
  cases h
  obtain ⟨⟨hprice, hpayout⟩, hcount, rfl⟩ := FeeModel.maxTradingFeeMicros_ok_iff.mp htrading
  exact add_nonneg (FeeModel.tradingFee_nonneg _ hprice hpayout hcount.le)
    (FeeModel.maxSettlementFeeMicros_nonneg hsettlement)

/-- A net edge is at most what the price leaves, unless the buffer is negative. -/
theorem netEdgeOf_le {forecast : SelectorForecast} {perContractBufferPpm pricePpm fee size : ℤ}
    (hsize : 0 < size) (hfee : 0 ≤ fee) (hbuffer : 0 ≤ perContractBufferPpm) :
    netEdgeOf forecast perContractBufferPpm pricePpm fee size ≤ ppmScale - pricePpm := by
  have hcharged : 0 ≤ quotient (fee * ppmPerPip) size .overstateCost :=
    quotient_overstate_nonneg hsize (mul_nonneg hfee (by decide))
  have hprobability := forecast.probability_ppm.2
  unfold netEdgeOf ppmScale
  omega

/-- The averages of a fill at one price are that price. -/
theorem average_of_one_price {size : ℤ} (hsize : 0 < size) (pricePips : ℤ) :
    averagePips (pricePips * size) size = pricePips ∧
      averagePpm (pricePips * size) size = pricePips * ppmPerPip := by
  have hexact : ∀ k : ℤ, quotient (k * size) size .overstateCost = k := by
    intro k
    refine le_antisymm ((quotient_overstate_le_iff hsize).mpr (le_refl _)) ?_
    have hcovers := (quotient_overstate_le_iff hsize (n := k * size)).mp (le_refl _)
    exact le_of_mul_le_mul_right hcovers hsize
  refine ⟨hexact pricePips, ?_⟩
  rw [averagePpm, mul_right_comm]
  exact hexact _

/-- Averages rise with the cost of a contract. -/
theorem quotient_average_mono {cost size larger largerCost : ℤ} (hsize : 0 < size)
    (hlarger : 0 < larger) (h : cost * larger ≤ largerCost * size) :
    quotient cost size .overstateCost ≤ quotient largerCost larger .overstateCost := by
  have hcovers := (quotient_overstate_le_iff hlarger (n := largerCost)).mp (le_refl _)
  refine (quotient_overstate_le_iff hsize).mpr (le_of_mul_le_mul_right ?_ hlarger)
  calc cost * larger ≤ largerCost * size := h
    _ ≤ quotient largerCost larger .overstateCost * larger * size :=
        mul_le_mul_of_nonneg_right hcovers hsize.le
    _ = quotient largerCost larger .overstateCost * size * larger := by ring

/-- **Pricing a fill** comes to figures exactly when the walk fills the size, its return can be
annualized and the schedule answers a fee; these are its figures. -/
theorem computeExecutableEdge_figures {orderBook : OrderBookSnapshot} {size : ContractCentis}
    {forecast : SelectorForecast} {feeModel : FeeModelInput} {perContractBufferPpm : ℤ}
    {figures : EdgeFigures} :
    computeExecutableEdge orderBook size forecast feeModel perContractBufferPpm =
        .ok (.figures figures) ↔
      ∃ cost marginal fee, Walks orderBook.yesAsks size.value cost marginal ∧
        (0 < averagePpm cost size.value ∧ 0 < forecast.forecastHorizonHours) ∧
        feeMicros feeModel (averagePips cost size.value) size.value = .ok fee ∧
        figures = figuresOf forecast perContractBufferPpm size.value cost marginal fee := by
  rw [computeExecutableEdge]
  cases hwalk : walkBookCost orderBook.yesAsks size.value with
  | none =>
    refine iff_of_false (fun h => by cases h) ?_
    rintro ⟨cost, marginal, fee, hwalks, -⟩
    rw [hwalks.walkBookCost_eq] at hwalk
    cases hwalk
  | some filled =>
    obtain ⟨cost, marginal⟩ := filled
    have hwalks := walkBookCost_eq_some_iff.mp hwalk
    have hsize := hwalks.size_pos.ne'
    dsimp only
    rw [perContractPpm, divide_of_ne_zero hsize, divide_of_ne_zero hsize]
    change (if (!isAnnualizable (averagePpm cost size.value) forecast.forecastHorizonHours) = true
      then _ else _) = _ ↔ _
    by_cases hannual : 0 < averagePpm cost size.value ∧ 0 < forecast.forecastHorizonHours
    · have hdenominator : averagePpm cost size.value * forecast.forecastHorizonHours ≠ 0 :=
        (mul_pos hannual.1 hannual.2).ne'
      rw [if_neg (by simp [isAnnualizable, hannual])]
      constructor
      · intro h
        obtain ⟨fee, hfee, h⟩ := Effects.except_bind_ok.mp h
        obtain ⟨feePpm, hfeePpm, h⟩ := Effects.except_bind_ok.mp h
        rw [perContractPpm, divide_of_ne_zero hsize] at hfeePpm
        cases hfeePpm
        obtain ⟨annualized, hannualized, h⟩ := Effects.except_bind_ok.mp h
        cases (divide_of_ne_zero hdenominator _ _).symm.trans hannualized
        cases h
        exact ⟨cost, marginal, fee, hwalks, hannual, hfee, rfl⟩
      · rintro ⟨_, _, fee, hother, -, hfee, rfl⟩
        rw [hother.walkBookCost_eq] at hwalk
        cases hwalk
        refine Effects.except_bind_ok.mpr ⟨fee, hfee, ?_⟩
        refine Effects.except_bind_ok.mpr ⟨_, divide_of_ne_zero hsize _ _, ?_⟩
        exact Effects.except_bind_ok.mpr ⟨_, divide_of_ne_zero hdenominator _ _, rfl⟩
    · rw [if_pos (by
        rw [Bool.not_eq_true', ← Bool.not_eq_true]
        simpa [isAnnualizable] using hannual)]
      refine iff_of_false (fun h => by cases h) ?_
      rintro ⟨_, _, _, hother, hothers, -⟩
      rw [hother.walkBookCost_eq] at hwalk
      cases hwalk
      exact hannual hothers

end Windbreak
