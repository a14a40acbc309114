import Mathlib.Algebra.Order.BigOperators.Group.List
import Windbreak.Core.CheapestFill
import Windbreak.Connector.Fills

/-!
# What a taker fill takes and costs

A taker walks the recorded book in the order it is listed in.  It fills the requested size or its
share of the eligible depth, whichever is less, at its limit or better and at most what each level
shows.  Where the book is listed best price first the walk is best price first too, and no other
choice of the same size costs less.

* `HonestFill` — what holds of a fill, whatever the order of the book.
* **`walkTakerFill_honest`** — every fill is honest, and one of a book listed best first is cheapest.
-/

namespace Windbreak

open CheapestFill Effects

/-! ## A walk in order -/

/-- The slices of a walk through some levels: those that show nothing are passed, the others are
taken in full, and the last perhaps in part. -/
inductive TakenFrom : List OrderBookLevel → List OrderBookLevel → Prop
  | stop (levels : List OrderBookLevel) : TakenFrom levels []
  | pass {level : OrderBookLevel} {rest slices : List OrderBookLevel}
      (hstale : level.quantity.value ≤ 0) (hrest : TakenFrom rest slices) :
      TakenFrom (level :: rest) slices
  | whole {level : OrderBookLevel} {rest slices : List OrderBookLevel}
      (hpos : 0 < level.quantity.value) (hrest : TakenFrom rest slices) :
      TakenFrom (level :: rest) (level :: slices)
  | part {level : OrderBookLevel} {rest : List OrderBookLevel} {quantity : ContractCentis}
      (hpos : 0 < quantity.value) (hle : quantity.value ≤ level.quantity.value) :
      TakenFrom (level :: rest) [⟨level.price, quantity⟩]

/-- The levels of a book as lots. -/
def lotsOf (levels : List OrderBookLevel) : List (Lot ℤ) :=
  levels.map fun level => ⟨level.price.value, level.quantity.value⟩

/-- A book listed best price first, for a taker that buys. -/
def ListedBestFirst (levels : List OrderBookLevel) : Prop :=
  levels.Pairwise fun a b => a.price ≤ b.price

theorem lotsOf_shown {levels : List OrderBookLevel}
    (hshown : ∀ level ∈ levels, 0 ≤ level.quantity.value) : ∀ lot ∈ lotsOf levels, 0 ≤ lot.size := by
  intro lot hlot
  obtain ⟨level, hlevel, rfl⟩ := List.mem_map.mp hlot
  exact hshown level hlevel

theorem depthOf_nonneg {levels : List OrderBookLevel}
    (hshown : ∀ level ∈ levels, 0 ≤ level.quantity.value) : 0 ≤ depthOf levels := by
  refine List.sum_nonneg fun size hsize => ?_
  obtain ⟨level, hlevel, rfl⟩ := List.mem_map.mp hsize
  exact hshown level hlevel

theorem consumeLevels_done (feeModel : FeeModel) (levels : List OrderBookLevel) {remaining : ℤ}
    (h : remaining ≤ 0) : consumeLevels feeModel levels remaining = .ok ([], 0, 0) := by
  cases levels with
  | nil => rfl
  | cons level rest => rw [consumeLevels, if_pos h]

theorem consumeLevels_takenFrom {feeModel : FeeModel} {levels : List OrderBookLevel} {remaining : ℤ}
    {consumed : List OrderBookLevel} {bookCost fees : ℤ}
    (h : consumeLevels feeModel levels remaining = .ok (consumed, bookCost, fees)) :
    TakenFrom levels consumed := by
  induction levels generalizing remaining consumed bookCost fees with
  | nil =>
      cases h
      exact .stop []
  | cons level rest ih =>
      rw [consumeLevels] at h
      by_cases hdone : remaining ≤ 0
      · rw [if_pos hdone] at h
        cases h
        exact .stop _
      · rw [if_neg hdone] at h
        by_cases hstale : level.quantity.value ≤ 0
        · rw [if_pos hstale] at h
          exact .pass hstale (ih h)
        · rw [if_neg hstale] at h
          obtain ⟨fee, -, h⟩ := except_bind_ok.mp h
          obtain ⟨⟨more, moreCost, moreFees⟩, hmore, h⟩ := except_bind_ok.mp h
          cases h
          by_cases hpart : remaining ≤ level.quantity.value
          · -- the level meets what is asked for, and the walk ends on it
            rw [min_eq_left hpart, sub_self, consumeLevels_done _ _ (le_refl 0)] at hmore
            cases hmore
            rw [min_eq_left hpart]
            exact .part (not_le.mp hdone) hpart
          · rw [min_eq_right (not_le.mp hpart).le]
            exact .whole (not_le.mp hstale) (ih hmore)

/-- A walk never takes more of a level than it shows. -/
theorem TakenFrom.displayed {levels slices : List OrderBookLevel} (h : TakenFrom levels slices) :
    ∀ slice ∈ slices, ∃ level ∈ levels, slice.price = level.price ∧
      0 < slice.quantity.value ∧ slice.quantity.value ≤ level.quantity.value := by
  induction h with
  | stop levels => exact fun slice hslice => absurd hslice List.not_mem_nil
  | pass _ _ ih =>
      intro slice hslice
      obtain ⟨level, hlevel, hshown⟩ := ih slice hslice
      exact ⟨level, .tail _ hlevel, hshown⟩
  | @whole level rest slices hpos _ ih =>
      intro slice hslice
      rcases List.mem_cons.mp hslice with rfl | hslice
      · exact ⟨slice, .head _, rfl, hpos, le_refl _⟩
      · obtain ⟨level, hlevel, hshown⟩ := ih slice hslice
        exact ⟨level, .tail _ hlevel, hshown⟩
  | @part level rest quantity hpos hle =>
      intro slice hslice
      rw [List.mem_singleton.mp hslice]
      exact ⟨level, .head _, rfl, hpos, hle⟩

/-- A walk of levels in the order of their prices takes slices in that order. -/
theorem TakenFrom.bestFirst {levels slices : List OrderBookLevel} (h : TakenFrom levels slices)
    (hlisted : ListedBestFirst levels) : ListedBestFirst slices := by
  induction h with
  | stop levels => exact .nil
  | pass _ _ ih => exact ih (List.pairwise_cons.mp hlisted).2
  | @whole level rest slices hpos hrest ih =>
      obtain ⟨hfirst, hlisted⟩ := List.pairwise_cons.mp hlisted
      refine List.pairwise_cons.mpr ⟨fun slice hslice => ?_, ih hlisted⟩
      obtain ⟨other, hother, hprice, -⟩ := hrest.displayed slice hslice
      rw [hprice]
      exact hfirst other hother
  | part _ _ => exact List.pairwise_singleton _ _

/-! ## What a walk costs -/

/-- Taking nothing of some lots costs nothing. -/
theorem cost_takes_zero {lots : List (Lot ℤ)} (h : ∀ lot ∈ lots, 0 ≤ lot.size) :
    cost lots (takes lots 0) = 0 ∧ Admits lots (takes lots 0) ∧ (takes lots 0).sum = 0 := by
  induction lots with
  | nil => exact ⟨rfl, .nil, rfl⟩
  | cons lot lots ih =>
      have hsize := h lot List.mem_cons_self
      obtain ⟨hcost, hadmits, hsum⟩ := ih fun other hother => h other (List.mem_cons_of_mem _ hother)
      rw [takes, min_eq_left hsize, sub_self, cost, List.sum_cons, hcost, hsum, mul_zero]
      exact ⟨rfl, .cons ⟨le_refl 0, hsize⟩ hadmits, rfl⟩

/-- **A walk takes the lots in turn**, at their prices. -/
theorem consumeLevels_cost {feeModel : FeeModel} {levels : List OrderBookLevel} {remaining : ℤ}
    {consumed : List OrderBookLevel} {bookCost fees : ℤ}
    (hshown : ∀ level ∈ levels, 0 ≤ level.quantity.value) (hnonneg : 0 ≤ remaining)
    (h : consumeLevels feeModel levels remaining = .ok (consumed, bookCost, fees)) :
    bookCost = cost (lotsOf levels) (takes (lotsOf levels) remaining) := by
  induction levels generalizing remaining consumed bookCost fees with
  | nil =>
      cases h
      rfl
  | cons level rest ih =>
      have hlevel := hshown level List.mem_cons_self
      have hrest : ∀ other ∈ rest, 0 ≤ other.quantity.value := fun other hother =>
        hshown other (List.mem_cons_of_mem _ hother)
      rw [consumeLevels] at h
      by_cases hdone : remaining ≤ 0
      · rw [if_pos hdone] at h
        cases h
        rw [le_antisymm hdone hnonneg]
        exact (cost_takes_zero (lotsOf_shown hshown)).1.symm
      · rw [if_neg hdone] at h
        change bookCost = level.price.value * min remaining level.quantity.value +
          cost (lotsOf rest) (takes (lotsOf rest) (remaining - min remaining level.quantity.value))
        by_cases hstale : level.quantity.value ≤ 0
        · rw [if_pos hstale] at h
          have hzero := le_antisymm hstale hlevel
          rw [hzero, min_eq_right hnonneg, mul_zero, zero_add, sub_zero]
          exact ih hrest hnonneg h
        · rw [if_neg hstale] at h
          obtain ⟨fee, -, h⟩ := except_bind_ok.mp h
          obtain ⟨⟨more, moreCost, moreFees⟩, hmore, h⟩ := except_bind_ok.mp h
          cases h
          rw [moneyFromPriceAndCount_value,
            ih hrest (sub_nonneg.mpr (min_le_left _ _)) hmore]

/-- What a walk took of some levels, as a choice among them and any worse ones. -/
theorem TakenFrom.choice {limit : PricePips} {levels slices : List OrderBookLevel}
    (hshown : ∀ level ∈ levels, 0 ≤ level.quantity.value)
    (h : TakenFrom (eligibleLevels levels limit) slices) :
    ∃ amounts, Admits (lotsOf levels) amounts ∧ amounts.sum = depthOf slices ∧
      cost (lotsOf levels) amounts = sliceNotional slices := by
  induction levels generalizing slices with
  | nil =>
      cases h
      exact ⟨[], .nil, rfl, rfl⟩
  | cons level rest ih =>
      have hlevel := hshown level List.mem_cons_self
      have hrest : ∀ other ∈ rest, 0 ≤ other.quantity.value := fun other hother =>
        hshown other (List.mem_cons_of_mem _ hother)
      -- a level of which nothing is taken leaves the choice to the rest
      have hskip : TakenFrom (eligibleLevels rest limit) slices →
          ∃ amounts, Admits (lotsOf (level :: rest)) amounts ∧ amounts.sum = depthOf slices ∧
            cost (lotsOf (level :: rest)) amounts = sliceNotional slices := by
        intro hslices
        obtain ⟨amounts, hadmits, hsum, hcost⟩ := ih hrest hslices
        refine ⟨0 :: amounts, .cons ⟨le_refl 0, hlevel⟩ hadmits, ?_, ?_⟩
        · rw [List.sum_cons, zero_add, hsum]
        · change level.price.value * 0 + cost (lotsOf rest) amounts = sliceNotional slices
          rw [mul_zero, zero_add, hcost]
      by_cases hlimit : level.price ≤ limit
      · have heligible : eligibleLevels (level :: rest) limit =
            level :: eligibleLevels rest limit :=
          List.filter_cons_of_pos (decide_eq_true hlimit)
        rw [heligible] at h
        cases h with
        | stop => exact hskip (.stop _)
        | pass _ hslices => exact hskip hslices
        | @whole _ _ slices hpos hslices =>
            obtain ⟨amounts, hadmits, hsum, hcost⟩ := ih hrest hslices
            refine ⟨level.quantity.value :: amounts, .cons ⟨hlevel, le_refl _⟩ hadmits, ?_, ?_⟩
            · rw [List.sum_cons, hsum]
              rfl
            · change level.price.value * level.quantity.value + cost (lotsOf rest) amounts = _
              rw [hcost]
              rfl
        | @part _ _ quantity hpos hle =>
            obtain ⟨amounts, hadmits, hsum, hcost⟩ := ih hrest (.stop _)
            refine ⟨quantity.value :: amounts, .cons ⟨hpos.le, hle⟩ hadmits, ?_, ?_⟩
            · rw [List.sum_cons, hsum]
              rfl
            · change level.price.value * quantity.value + cost (lotsOf rest) amounts = _
              rw [hcost]
              rfl
      · have heligible : eligibleLevels (level :: rest) limit = eligibleLevels rest limit :=
          List.filter_cons_of_neg fun h => hlimit (of_decide_eq_true h)
        rw [heligible] at h
        exact hskip h

/-- In a book listed best first the levels beyond a limit come last, so the walk within the limit is
the walk of the whole book. -/
theorem cost_takes_eligible {limit : PricePips} {levels : List OrderBookLevel}
    (hlisted : ListedBestFirst levels) (hshown : ∀ level ∈ levels, 0 ≤ level.quantity.value)
    {amount : ℤ} (hnonneg : 0 ≤ amount) (hle : amount ≤ depthOf (eligibleLevels levels limit)) :
    cost (lotsOf (eligibleLevels levels limit))
        (takes (lotsOf (eligibleLevels levels limit)) amount) =
      cost (lotsOf levels) (takes (lotsOf levels) amount) := by
  induction levels generalizing amount with
  | nil => rfl
  | cons level rest ih =>
      obtain ⟨hfirst, hlisted⟩ := List.pairwise_cons.mp hlisted
      have hlevel := hshown level List.mem_cons_self
      have hrest : ∀ other ∈ rest, 0 ≤ other.quantity.value := fun other hother =>
        hshown other (List.mem_cons_of_mem _ hother)
      by_cases hlimit : level.price ≤ limit
      · have heligible : eligibleLevels (level :: rest) limit =
            level :: eligibleLevels rest limit :=
          List.filter_cons_of_pos (decide_eq_true hlimit)
        rw [heligible] at hle ⊢
        have hdepth : depthOf (level :: eligibleLevels rest limit) =
            level.quantity.value + depthOf (eligibleLevels rest limit) := List.sum_cons
        have hothers : 0 ≤ depthOf (eligibleLevels rest limit) :=
          depthOf_nonneg fun other hother => hrest other (List.mem_filter.mp hother).1
        have htail := ih hlisted hrest
          (sub_nonneg.mpr (min_le_left amount level.quantity.value)) (by omega)
        change level.price.value * min amount level.quantity.value + _ =
          level.price.value * min amount level.quantity.value + _
        exact congrArg _ htail
      · -- this level and all after it are beyond the limit
        have hnone : eligibleLevels (level :: rest) limit = [] := by
          refine List.filter_eq_nil_iff.mpr fun other hother heligible => hlimit ?_
          have hwithin : other.price ≤ limit := of_decide_eq_true heligible
          rcases List.mem_cons.mp hother with rfl | hother
          · exact hwithin
          · have hprice : level.price.value ≤ other.price.value := hfirst other hother
            exact Int.le_trans hprice hwithin
        rw [hnone] at hle ⊢
        have hzero : amount = 0 := le_antisymm hle hnonneg
        rw [hzero, (cost_takes_zero (lotsOf_shown hshown)).1]
        rfl

/-- A walk within the payout is priced. -/
theorem consumeLevels_returns {feeModel : FeeModel} {levels : List OrderBookLevel}
    (hpriced : ∀ level ∈ levels, 0 ≤ level.price.value ∧ level.price.value ≤ pipsPerDollar)
    (remaining : ℤ) : ∃ walked, consumeLevels feeModel levels remaining = .ok walked := by
  induction levels generalizing remaining with
  | nil => exact ⟨_, rfl⟩
  | cons level rest ih =>
      have hrest : ∀ other ∈ rest, 0 ≤ other.price.value ∧ other.price.value ≤ pipsPerDollar :=
        fun other hother => hpriced other (List.mem_cons_of_mem _ hother)
      rw [consumeLevels]
      by_cases hdone : remaining ≤ 0
      · exact ⟨_, if_pos hdone⟩
      · rw [if_neg hdone]
        by_cases hstale : level.quantity.value ≤ 0
        · rw [if_pos hstale]
          exact ih hrest remaining
        · rw [if_neg hstale]
          have htake : 0 < min remaining level.quantity.value :=
            lt_min (not_le.mp hdone) (not_le.mp hstale)
          have hfee : feeModel.maxTradingFeeMicros level.price.value
              (min remaining level.quantity.value) = .ok _ :=
            FeeModel.maxTradingFeeMicros_ok_iff.mpr
              ⟨hpriced level List.mem_cons_self, htake, rfl⟩
          obtain ⟨walked, hwalked⟩ := ih hrest (remaining - min remaining level.quantity.value)
          exact ⟨_, except_bind_ok.mpr ⟨_, hfee, except_bind_ok.mpr ⟨walked, hwalked, rfl⟩⟩⟩

/-! ## What a fill is -/

/-- An honest fill of a recorded book: a walk of the levels at the limit or better, of exactly what
the taker may have, at most what each level shows, priced slice by slice and never below the
cheapest choice of its size. -/
structure HonestFill (levels : List OrderBookLevel) (limit : PricePips) (requested : ContractCentis)
    (feeModel : FeeModel) (maxParticipationPpm : ℤ) (result : TakerFillResult) : Prop where
  walks : TakenFrom (eligibleLevels levels limit) result.consumed
  filled : result.filled.value = min requested.value
    (depthOf (eligibleLevels levels limit) * maxParticipationPpm / ppmDenominator)
  exact : depthOf result.consumed = result.filled.value
  shown : ∀ slice ∈ result.consumed, slice.price ≤ limit ∧ ∃ level ∈ levels,
    slice.price = level.price ∧ 0 < slice.quantity.value ∧
      slice.quantity.value ≤ level.quantity.value
  bookCost : result.bookCost.value = sliceNotional result.consumed
  fee : result.fee.value = sliceFees feeModel result.consumed
  totalCost : result.totalCost.value =
    result.bookCost.value + result.fee.value + result.haircut.value
  covers : ∃ amounts, Admits (lotsOf levels) amounts ∧ amounts.sum = result.filled.value ∧
    cost (lotsOf levels) amounts ≤ result.totalCost.value

/-- Levels that show no negative quantity can be taken in full. -/
theorem takeableDepth_of_shown {levels : List OrderBookLevel}
    (hshown : ∀ level ∈ levels, 0 ≤ level.quantity.value) :
    takeableDepth levels = depthOf levels := by
  unfold takeableDepth depthOf
  refine congrArg List.sum (List.map_congr_left fun level hlevel => ?_)
  exact max_eq_left (hshown level hlevel)

theorem sliceFees_nonneg {feeModel : FeeModel} {slices : List OrderBookLevel}
    (h : ∀ slice ∈ slices, 0 < slice.quantity.value ∧
      0 ≤ slice.price.value ∧ slice.price.value ≤ pipsPerDollar) :
    0 ≤ sliceFees feeModel slices := by
  refine List.sum_nonneg fun fee hfee => ?_
  obtain ⟨slice, hslice, rfl⟩ := List.mem_map.mp hfee
  obtain ⟨hpos, hprice, hpayout⟩ := h slice hslice
  exact feeModel.tradingFee_nonneg hprice hpayout hpos.le

/-- **Taker fills are honest.**  A book whose prices lie within the payout is always filled; every
fill is an honest one; and a fill of a book listed best first takes the best prices first and no
other choice of its size has a lower book cost. -/
theorem walkTakerFill_honest (levels : List OrderBookLevel) (limit : PricePips)
    (requested : ContractCentis) (feeModel : FeeModel) (haircutPpm maxParticipationPpm : ℤ)
    (hshown : ∀ level ∈ levels, 0 ≤ level.quantity.value) (hrequested : 0 ≤ requested.value)
    (hshare : 0 ≤ maxParticipationPpm) (hfull : maxParticipationPpm ≤ ppmDenominator)
    (hhaircut : 0 ≤ haircutPpm) :
    ((∀ level ∈ eligibleLevels levels limit,
        0 ≤ level.price.value ∧ level.price.value ≤ pipsPerDollar) →
      ∃ result, walkTakerFill levels limit requested feeModel haircutPpm maxParticipationPpm =
        .ok result) ∧
      ∀ result, walkTakerFill levels limit requested feeModel haircutPpm maxParticipationPpm =
          .ok result →
        HonestFill levels limit requested feeModel maxParticipationPpm result ∧
          (ListedBestFirst levels → ListedBestFirst result.consumed ∧
            ∀ amounts, Admits (lotsOf levels) amounts → amounts.sum = result.filled.value →
              result.bookCost.value ≤ cost (lotsOf levels) amounts) := by
  have heligible : ∀ level ∈ eligibleLevels levels limit, 0 ≤ level.quantity.value :=
    fun level hlevel => hshown level (List.mem_filter.mp hlevel).1
  have hdenominator : 0 < ppmDenominator := by unfold ppmDenominator; omega
  obtain ⟨hcap_nonneg, hcap_le⟩ :=
    share_bounds hdenominator (depthOf_nonneg heligible) hshare hfull
  have htarget : takerTarget levels limit requested maxParticipationPpm = min requested.value
      (depthOf (eligibleLevels levels limit) * maxParticipationPpm / ppmDenominator) :=
    congrArg (min requested.value) (quotient_understate hdenominator _)
  refine ⟨fun hpriced => ?_, fun result h => ?_⟩
  · obtain ⟨⟨consumed, bookCost, fees⟩, hwalk⟩ := @consumeLevels_returns feeModel _
      hpriced (takerTarget levels limit requested maxParticipationPpm)
    exact ⟨_, except_bind_ok.mpr ⟨_, hwalk, except_bind_ok.mpr ⟨_, rfl, rfl⟩⟩⟩
  · obtain ⟨hslices, hfilled, hconsumed⟩ := walkTakerFill_ok h
    obtain ⟨⟨consumed, bookCost, fees⟩, hwalk, hrest⟩ := except_bind_ok.mp h
    obtain ⟨haircut, hdivide, hresult⟩ := except_bind_ok.mp hrest
    have htaken := consumeLevels_takenFrom hwalk
    obtain ⟨-, -, hbook, hfees⟩ := consumeLevels_ok hwalk
    have hnonneg : 0 ≤ takerTarget levels limit requested maxParticipationPpm :=
      htarget ▸ le_min hrequested hcap_nonneg
    have hwithin : takerTarget levels limit requested maxParticipationPpm ≤
        depthOf (eligibleLevels levels limit) :=
      htarget ▸ (min_le_right _ _).trans hcap_le
    have hexact : depthOf result.consumed = result.filled.value := by
      rw [hconsumed, hfilled, takeableDepth_of_shown heligible, max_eq_left hnonneg,
        min_eq_left hwithin]
    have hfees_nonneg : 0 ≤ sliceFees feeModel result.consumed :=
      sliceFees_nonneg fun slice hslice => (hslices slice hslice).2
    cases hresult
    have hhaircut_nonneg : 0 ≤ haircut := by
      cases hdivide
      refine quotient_overstate_nonneg hdenominator ?_
      exact mul_nonneg (hfees ▸ hfees_nonneg) hhaircut
    obtain ⟨amounts, hadmits, hsum, hcost⟩ := htaken.choice hshown
    refine ⟨⟨htaken, htarget, hexact, fun slice hslice => ?_, hbook, hfees, rfl, amounts, hadmits,
      hsum.trans hexact, ?_⟩, fun hlisted => ⟨?_, fun others hothers hsame => ?_⟩⟩
    · obtain ⟨level, hlevel, hprice, hpos, hle⟩ := htaken.displayed slice hslice
      exact ⟨(hslices slice hslice).1, level, (List.mem_filter.mp hlevel).1, hprice, hpos, hle⟩
    · change cost (lotsOf levels) amounts ≤ bookCost + fees + haircut
      rw [hcost, hbook, hfees]
      have hfees_nonneg : 0 ≤ sliceFees feeModel consumed := hfees_nonneg
      omega
    · exact htaken.bestFirst (List.Pairwise.filter _ hlisted)
    · have hlots : (lotsOf levels).Pairwise fun a b => a.price ≤ b.price :=
        List.pairwise_map.mpr hlisted
      have hsame : others.sum = takerTarget levels limit requested maxParticipationPpm := hsame
      change bookCost ≤ cost (lotsOf levels) others
      rw [consumeLevels_cost heligible hnonneg hwalk,
        cost_takes_eligible hlisted hshown hnonneg hwithin, ← hsame]
      exact cost_takes_le hlots hothers

/-- A book of two levels, the dearer one listed first. -/
def unsortedBook : List OrderBookLevel :=
  [⟨⟨6000⟩, ⟨100⟩⟩, ⟨⟨4000⟩, ⟨100⟩⟩]

theorem walkTakerFill_honest_sorted :
    (∀ level ∈ unsortedBook.reverse, 0 ≤ level.quantity.value) ∧
      ((∀ level ∈ eligibleLevels unsortedBook.reverse ⟨7000⟩,
          0 ≤ level.price.value ∧ level.price.value ≤ pipsPerDollar) →
        ∃ result, walkTakerFill unsortedBook.reverse ⟨7000⟩ ⟨100⟩ freeFees 0 ppmDenominator =
          .ok result) := by
  have hshown : ∀ level ∈ unsortedBook.reverse, 0 ≤ level.quantity.value := by decide
  exact ⟨hshown, (walkTakerFill_honest unsortedBook.reverse ⟨7000⟩ ⟨100⟩ freeFees 0 ppmDenominator
    hshown (by decide) (by decide) (by decide) (by decide)).1⟩

/-- A schedule of seven parts in a hundred for takers. -/
def takerFees : FeeModel :=
  { freeFees with takerFeePpm := 70000, taker_nonneg := Int.natCast_nonneg 70000 }

/-- **A book listed out of order is walked out of order**: the dearer level is taken and the cheaper
one left.  A book with a price beyond the payout is not filled at all, and a negative haircut takes
the total below the cost of the cheapest level. -/
theorem walkTakerFill_unsorted :
    (walkTakerFill unsortedBook ⟨7000⟩ ⟨100⟩ freeFees 0 ppmDenominator).toOption.map
        (fun result => (result.consumed, result.totalCost)) =
      some ([⟨⟨6000⟩, ⟨100⟩⟩], ⟨600000⟩) ∧
      (walkTakerFill unsortedBook.reverse ⟨7000⟩ ⟨100⟩ freeFees 0 ppmDenominator).toOption.map
        (fun result => (result.consumed, result.totalCost)) =
      some ([⟨⟨4000⟩, ⟨100⟩⟩], ⟨400000⟩) ∧
      (walkTakerFill [⟨⟨10001⟩, ⟨100⟩⟩] ⟨20000⟩ ⟨100⟩ freeFees 0 ppmDenominator).toOption =
        none ∧
      (walkTakerFill unsortedBook.reverse ⟨7000⟩ ⟨100⟩ takerFees (-2000000)
          ppmDenominator).toOption.map (fun result => (result.bookCost, result.totalCost)) =
        some (⟨400000⟩, ⟨380000⟩) := by
  decide

end Windbreak
