import Windbreak.Core.Draws
import Windbreak.Connector.Fills

/-!
# One volume, many resting orders

Several resting buys fill against the prints of one step.  Each fill is drawn from prints that
trade through its own limit, the prints shrink by what was drawn, and so no printed volume is
handed out twice: whichever limits one looks at, what the orders there got was printed through
them.

Prints and orders are whatever a recording holds.  A print or an order of no positive size is
passed over, so the volume of a print is its positive part.
-/

namespace Windbreak

open Draws Sums Finset

/-- The volume of a print. -/
def printedVolume (p : TradePrint) : ℤ := max p.quantity.value 0

/-- What an order got; a fill that is not positive is none. -/
def filledVolume (fill : ContractCentis) : ℤ := max fill.value 0

/-- What a print has for a limit: its volume, if it trades through. -/
def reachOf (limit : PricePips) (p : TradePrint) : ℤ :=
  if p.price < limit then printedVolume p else 0

theorem reachOf_nonneg (limit : PricePips) (p : TradePrint) : 0 ≤ reachOf limit p := by
  unfold reachOf
  split
  · exact le_max_right _ _
  · exact le_refl 0

theorem greatestFirst_perm {α : Type} (key : α → ℤ) (xs : List α) :
    (greatestFirst key xs).Perm (List.range xs.length) :=
  List.perm_insertionSort _ _

theorem greatestFirst_nodup {α : Type} (key : α → ℤ) (xs : List α) :
    (greatestFirst key xs).Nodup :=
  (greatestFirst_perm key xs).nodup_iff.mpr List.nodup_range

/-- The volume through a limit is within what the prints have for it. -/
theorem throughVolume_le (limit : PricePips) (pool : List TradePrint) :
    throughVolume limit pool ≤ ∑ j ∈ range pool.length, valueAt (reachOf limit) pool j := by
  rw [sum_valueAt]
  induction pool with
  | nil => exact le_refl 0
  | cons p rest ih =>
      have hvolume : p.quantity.value ≤ printedVolume p := le_max_left _ _
      by_cases hthrough : p.price < limit
      · simp only [throughVolume, reachOf, hthrough, List.filter_cons, decide_true, if_true,
          List.map_cons, List.sum_cons] at ih ⊢
        omega
      · simp only [throughVolume, reachOf, hthrough, List.filter_cons, decide_false, if_false,
          Bool.false_eq_true, List.map_cons, List.sum_cons] at ih ⊢
        omega

/-! ## Drawing on the prints -/

/-- A draw takes from each print no more than it has, only from prints through the limit, and
leaves their prices. -/
structure Drew (limit : PricePips) (pool pool' : List TradePrint) (drawn : ℕ → ℤ) : Prop where
  prices : ∀ j : ℕ, (pool'[j]?).map (·.price) = (pool[j]?).map (·.price)
  volumes : ∀ j : ℕ, valueAt printedVolume pool' j + drawn j = valueAt printedVolume pool j
  nonneg : ∀ j, 0 ≤ drawn j
  through : ∀ j, 0 < drawn j → ∃ p, pool[j]? = some p ∧ p.price < limit

theorem Drew.nothing (limit : PricePips) (pool : List TradePrint) :
    Drew limit pool pool fun _ => 0 where
  prices _ := rfl
  volumes _ := Int.add_zero _
  nonneg _ := le_refl 0
  through _ h := absurd h (lt_irrefl 0)

/-- Taking from one print first. -/
theorem Drew.take_first {limit : PricePips} {pool pool' : List TradePrint} {drawn : ℕ → ℤ} {i : ℕ}
    {p : TradePrint} {take : ℤ} (hp : pool[i]? = some p) (hthrough : p.price < limit)
    (hnonneg : 0 ≤ take) (hfits : take ≤ p.quantity.value)
    (h : Drew limit (pool.set i { p with quantity := ⟨p.quantity.value - take⟩ }) pool' drawn) :
    Drew limit pool pool' fun j => drawn j + if i = j then take else 0 := by
  have hi : i < pool.length := (List.getElem?_eq_some_iff.mp hp).1
  refine ⟨fun j => (h.prices j).trans ?_, fun j => ?_, fun j => ?_, fun j hj => ?_⟩
  · by_cases hij : i = j
    · subst hij
      rw [List.getElem?_set_self hi, hp]
      rfl
    · rw [List.getElem?_set_ne hij]
  · have hvolume := h.volumes j
    by_cases hij : i = j
    · subst hij
      rw [valueAt_of_some _ (List.getElem?_set_self hi)] at hvolume
      rw [valueAt_of_some _ hp, if_pos rfl]
      simp only [printedVolume] at hvolume ⊢
      omega
    · rw [if_neg hij, Int.add_zero, hvolume, valueAt, List.getElem?_set_ne hij, valueAt]
  · have hdrawn := h.nonneg j
    split <;> omega
  · by_cases hij : i = j
    · subst hij
      exact ⟨p, hp, hthrough⟩
    · rw [if_neg hij, Int.add_zero] at hj
      obtain ⟨q, hq, hlimit⟩ := h.through j hj
      rw [List.getElem?_set_ne hij] at hq
      exact ⟨q, hq, hlimit⟩

/-- What prints elsewhere have for a limit is not touched by rewriting one print. -/
theorem map_reachOf_set {limit : PricePips} {pool : List TradePrint} {i : ℕ} {rest : List ℕ}
    (hnew : i ∉ rest) (p : TradePrint) :
    rest.map (valueAt (reachOf limit) (pool.set i p)) = rest.map (valueAt (reachOf limit) pool) := by
  refine List.map_congr_left fun j hj => ?_
  have hij : i ≠ j := fun heq => hnew (heq ▸ hj)
  rw [valueAt, List.getElem?_set_ne hij, valueAt]

theorem sum_map_reachOf_nonneg (limit : PricePips) (pool : List TradePrint) (order : List ℕ) :
    0 ≤ (order.map (valueAt (reachOf limit) pool)).sum := by
  refine List.sum_nonneg fun x hx => ?_
  obtain ⟨j, -, rfl⟩ := List.mem_map.mp hx
  exact valueAt_nonneg _ (reachOf_nonneg limit) pool j

/-- **A draw** of no more than the prints at some positions have for the limit is met by those
prints. -/
theorem drawPrints_drew {limit : PricePips} {order : List ℕ} (hnodup : order.Nodup)
    {pool : List TradePrint} {amount : ℤ}
    (hamount : amount ≤ (order.map (valueAt (reachOf limit) pool)).sum) :
    ∃ drawn, Drew limit pool (drawPrints limit order pool amount) drawn ∧
      (∀ j, j ∉ order → drawn j = 0) ∧ (order.map drawn).sum = max amount 0 := by
  induction order generalizing pool amount with
  | nil =>
      refine ⟨fun _ => 0, .nothing limit pool, fun _ _ => rfl, ?_⟩
      simp only [List.map_nil, List.sum_nil] at hamount ⊢
      omega
  | cons i rest ih =>
      obtain ⟨hnew, hnodup⟩ := List.nodup_cons.mp hnodup
      rw [List.map_cons, List.sum_cons] at hamount
      have hskip : valueAt (reachOf limit) pool i ≤ 0 →
          ∃ drawn, Drew limit pool (drawPrints limit rest pool amount) drawn ∧
            (∀ j, j ∉ i :: rest → drawn j = 0) ∧ ((i :: rest).map drawn).sum = max amount 0 := by
        intro hnothing
        have hleft : amount ≤ (rest.map (valueAt (reachOf limit) pool)).sum := by omega
        obtain ⟨drawn, hdrew, hothers, hsum⟩ := ih hnodup hleft
        refine ⟨drawn, hdrew, fun j hj => hothers j fun hin => hj (.tail _ hin), ?_⟩
        rw [List.map_cons, List.sum_cons, hothers i hnew, hsum, Int.zero_add]
      rw [drawPrints]
      by_cases hdone : amount ≤ 0
      · rw [if_pos hdone]
        refine ⟨fun _ => 0, .nothing limit pool, fun _ _ => rfl, ?_⟩
        rw [max_eq_right hdone]
        simp
      · rw [if_neg hdone]
        cases hp : pool[i]? with
        | none =>
            refine hskip ?_
            rw [valueAt, hp]
            exact le_refl 0
        | some p =>
            rw [valueAt_of_some _ hp] at hamount
            dsimp only
            by_cases hclosed : limit ≤ p.price ∨ p.quantity.value ≤ 0
            · rw [if_pos hclosed]
              refine hskip ?_
              rw [valueAt_of_some _ hp, reachOf]
              split
              · rename_i hthrough
                rcases hclosed with hat | hstale
                · exact absurd hthrough (Int.not_lt.mpr hat)
                · exact (max_eq_right hstale).le
              · exact le_refl 0
            · rw [if_neg hclosed]
              have hthrough : p.price < limit := Int.not_le.mp fun hat => hclosed (.inl hat)
              have hpositive : 0 < p.quantity.value := Int.not_le.mp fun hat => hclosed (.inr hat)
              have hreach : reachOf limit p = p.quantity.value := by
                rw [reachOf, if_pos hthrough, printedVolume]
                omega
              have hrest := sum_map_reachOf_nonneg limit pool rest
              have hleft : amount - min amount p.quantity.value ≤
                  (rest.map (valueAt (reachOf limit) (pool.set i { p with
                    quantity := ⟨p.quantity.value - min amount p.quantity.value⟩ }))).sum := by
                rw [map_reachOf_set hnew]
                omega
              obtain ⟨drawn, hdrew, hothers, hsum⟩ := ih hnodup hleft
              refine ⟨_, hdrew.take_first hp hthrough (by omega) (by omega),
                fun j hj => ?_, ?_⟩
              · have hij : i ≠ j := fun heq => hj (heq ▸ .head _)
                rw [if_neg hij, hothers j fun hin => hj (.tail _ hin), Int.add_zero]
              · have htail : rest.map (fun j => drawn j +
                    if i = j then min amount p.quantity.value else 0) = rest.map drawn := by
                  refine List.map_congr_left fun j hj => ?_
                  have hij : i ≠ j := fun heq => hnew (heq ▸ hj)
                  rw [if_neg hij, Int.add_zero]
                rw [List.map_cons, List.sum_cons, htail, hsum, hothers i hnew, if_pos rfl]
                omega

/-- **What one order takes** of the prints is what it fills. -/
theorem consumeThroughPrints_drew (limit : PricePips) (pool : List TradePrint) {amount : ℤ}
    (hamount : amount ≤ throughVolume limit pool) :
    ∃ drawn, Drew limit pool (consumeThroughPrints pool limit amount) drawn ∧
      ∑ j ∈ range pool.length, drawn j = max amount 0 := by
  have hperm := greatestFirst_perm (fun p : TradePrint => p.price.value) pool
  have hreach : amount ≤ ((greatestFirst (fun p : TradePrint => p.price.value) pool).map
      (valueAt (reachOf limit) pool)).sum := by
    rw [sum_map_of_perm_range hperm]
    exact hamount.trans (throughVolume_le limit pool)
  obtain ⟨drawn, hdrew, -, hsum⟩ := drawPrints_drew (greatestFirst_nodup _ pool) hreach
  rw [sum_map_of_perm_range hperm] at hsum
  exact ⟨drawn, hdrew, hsum⟩

/-! ## The allocation -/

/-- An order may draw on the prints that trade through its limit. -/
def ThroughAt (requests : List RestingFillRequest) (prints : List TradePrint) (i j : ℕ) : Prop :=
  ∃ request p, requests[i]? = some request ∧ prints[j]? = some p ∧ p.price < request.limit

/-- An allocation under way: who took what of the prints, with some orders still to come. -/
structure Sharing (requests : List RestingFillRequest) (prints pool : List TradePrint)
    (fills : List ContractCentis) (toCome : List ℕ) (draw : ℕ → ℕ → ℤ) : Prop where
  prices : ∀ j : ℕ, (pool[j]?).map (·.price) = (prints[j]?).map (·.price)
  nonneg : ∀ i j, 0 ≤ draw i j
  through : ∀ i j, 0 < draw i j → ThroughAt requests prints i j
  waiting : ∀ i ∈ toCome, ∀ j, draw i j = 0
  given : ∀ i, i ∉ toCome →
    ∑ j ∈ range prints.length, draw i j = valueAt filledVolume fills i
  volumes : ∀ j, valueAt printedVolume pool j + ∑ i ∈ range requests.length, draw i j =
    valueAt printedVolume prints j

theorem Sharing.length {requests : List RestingFillRequest} {prints pool : List TradePrint}
    {fills : List ContractCentis} {toCome : List ℕ} {draw : ℕ → ℕ → ℤ}
    (h : Sharing requests prints pool fills toCome draw) : pool.length = prints.length := by
  have hmap : pool.map (·.price) = prints.map (·.price) := by
    refine List.ext_getElem? fun j => ?_
    rw [List.getElem?_map, List.getElem?_map, h.prices j]
  simpa using congrArg List.length hmap

/-- Serving one more order. -/
theorem Sharing.serve {requests : List RestingFillRequest} {prints pool : List TradePrint}
    {fills : List ContractCentis} {i : ℕ} {rest : List ℕ} {draw : ℕ → ℕ → ℤ}
    (h : Sharing requests prints pool fills (i :: rest) draw) (hnew : i ∉ rest)
    {request : RestingFillRequest} (hrequest : requests[i]? = some request)
    (hfills : fills.length = requests.length) {fill : ContractCentis}
    (hfill : fill.value ≤ throughVolume request.limit pool) :
    ∃ draw', Sharing requests prints (consumeThroughPrints pool request.limit fill.value)
      (fills.set i fill) rest draw' := by
  obtain ⟨drawn, hdrew, hsum⟩ := consumeThroughPrints_drew request.limit pool hfill
  have hi : i < requests.length := (List.getElem?_eq_some_iff.mp hrequest).1
  rw [h.length] at hsum
  refine ⟨fun x j => draw x j + if x = i then drawn j else 0,
    fun j => (hdrew.prices j).trans (h.prices j), fun x j => ?_, fun x j hx => ?_,
    fun x hx j => ?_, fun x hx => ?_, fun j => ?_⟩
  · have hbefore := h.nonneg x j
    have hdrawn := hdrew.nonneg j
    split <;> omega
  · by_cases hxi : x = i
    · subst hxi
      rw [if_pos rfl, h.waiting x (.head _) j, Int.zero_add] at hx
      obtain ⟨p, hp, hthrough⟩ := hdrew.through j hx
      -- the print has kept the price it was recorded at
      have hprice := h.prices j
      rw [hp] at hprice
      obtain ⟨recorded, hrecorded, hsame⟩ := Option.map_eq_some_iff.mp hprice.symm
      exact ⟨request, recorded, hrequest, hrecorded, hsame ▸ hthrough⟩
    · rw [if_neg hxi, Int.add_zero] at hx
      exact h.through x j hx
  · have hxi : x ≠ i := fun heq => hnew (heq ▸ hx)
    rw [if_neg hxi, Int.add_zero]
    exact h.waiting x (.tail _ hx) j
  · by_cases hxi : x = i
    · subst hxi
      have hplace : x < fills.length := by omega
      rw [valueAt_of_some _ (List.getElem?_set_self hplace), filledVolume, ← hsum]
      refine sum_congr rfl fun j _ => ?_
      rw [if_pos rfl, h.waiting x (.head _) j, Int.zero_add]
    · have hserved : x ∉ i :: rest := fun hin => hx ((List.mem_cons.mp hin).resolve_left hxi)
      have hkeeps : valueAt filledVolume (fills.set i fill) x = valueAt filledVolume fills x := by
        rw [valueAt, List.getElem?_set_ne fun heq => hxi heq.symm, valueAt]
      rw [hkeeps, ← h.given x hserved]
      refine sum_congr rfl fun j _ => ?_
      rw [if_neg hxi, Int.add_zero]
  · have hbefore := h.volumes j
    have htaken := hdrew.volumes j
    rw [sum_add_distrib, sum_ite_eq' (range requests.length) i fun _ => drawn j,
      if_pos (mem_range.mpr hi)]
    omega

/-- **Serving the orders in turn** keeps the account of who took what. -/
theorem allocateEach_sharing {requests : List RestingFillRequest} {prints : List TradePrint}
    (maxParticipationPpm : ℤ) {order : List ℕ} (hnodup : order.Nodup) {pool : List TradePrint}
    {fills : List ContractCentis} {draw : ℕ → ℕ → ℤ} (hfills : fills.length = requests.length)
    (h : Sharing requests prints pool fills order draw) :
    ∃ pool' draw', Sharing requests prints pool'
      (allocateEach requests maxParticipationPpm order pool fills) [] draw' := by
  induction order generalizing pool fills draw with
  | nil => exact ⟨pool, draw, h⟩
  | cons i rest ih =>
      obtain ⟨hnew, hnodup⟩ := List.nodup_cons.mp hnodup
      rw [allocateEach]
      cases hrequest : requests[i]? with
      | none =>
          -- no order stands at this position, and no fill either
          refine ih hnodup hfills ⟨h.prices, h.nonneg, h.through,
            fun x hx => h.waiting x (.tail _ hx), fun x hx => ?_, h.volumes⟩
          by_cases hxi : x = i
          · subst hxi
            have hnone : fills[x]? = none := by
              rw [List.getElem?_eq_none_iff, hfills]
              exact List.getElem?_eq_none_iff.mp hrequest
            rw [valueAt, hnone]
            exact sum_eq_zero fun j _ => h.waiting x (.head _) j
          · exact h.given x fun hin => hx ((List.mem_cons.mp hin).resolve_left hxi)
      | some request =>
          have hfill : (restingFillQuantity request.limit request.remaining pool
              request.depthAtOrBetter maxParticipationPpm).value ≤
                throughVolume request.limit pool := min_le_right _ _
          obtain ⟨draw', hserved⟩ := h.serve hnew hrequest hfills hfill
          exact ih hnodup (List.length_set.trans hfills) hserved

theorem sharing_start (requests : List RestingFillRequest) (prints : List TradePrint) :
    Sharing requests prints prints (List.replicate requests.length ⟨0⟩)
      (greatestFirst (·.limit.value) requests) fun _ _ => 0 where
  prices _ := rfl
  nonneg _ _ := le_refl 0
  through _ _ h := absurd h (lt_irrefl 0)
  waiting _ _ _ := rfl
  given i _ := by
    rw [valueAt, List.getElem?_replicate]
    split <;> simp [filledVolume]
  volumes _ := by simp

/-- An order's fill is within what is left of it and within its share of the depth. -/
def CappedFill (maxParticipationPpm : ℤ) (request : RestingFillRequest) (fill : ContractCentis) :
    Prop :=
  fill.value ≤ request.remaining.value ∧
    fill.value ≤ (participationCap request.depthAtOrBetter maxParticipationPpm).value

theorem restingFillQuantity_capped (maxParticipationPpm : ℤ) (request : RestingFillRequest)
    (pool : List TradePrint) :
    CappedFill maxParticipationPpm request (restingFillQuantity request.limit request.remaining
      pool request.depthAtOrBetter maxParticipationPpm) :=
  ⟨(min_le_left _ _).trans (min_le_left _ _), (min_le_left _ _).trans (min_le_right _ _)⟩

theorem allocateEach_capped {requests : List RestingFillRequest} {maxParticipationPpm : ℤ}
    (order : List ℕ) (pool : List TradePrint) {fills : List ContractCentis}
    (hfills : ∀ (i : ℕ) request fill, i ∉ order → requests[i]? = some request →
      fills[i]? = some fill → CappedFill maxParticipationPpm request fill) :
    ∀ (i : ℕ) request fill, requests[i]? = some request →
      (allocateEach requests maxParticipationPpm order pool fills)[i]? = some fill →
        CappedFill maxParticipationPpm request fill := by
  induction order generalizing pool fills with
  | nil => exact fun i request fill => hfills i request fill List.not_mem_nil
  | cons i rest ih =>
      rw [allocateEach]
      cases hrequest : requests[i]? with
      | none =>
          refine ih pool fun j request fill hj hother hfill => hfills j request fill ?_ hother hfill
          intro hin
          rcases List.mem_cons.mp hin with rfl | hin
          · rw [hrequest] at hother
            cases hother
          · exact hj hin
      | some request =>
          refine ih _ fun j other fill hj hother hfill => ?_
          by_cases hij : i = j
          · subst hij
            rw [hrequest] at hother
            cases hother
            have hplace := (List.getElem?_eq_some_iff.mp hfill).1
            rw [List.getElem?_set_self (by simpa using hplace)] at hfill
            cases hfill
            exact restingFillQuantity_capped maxParticipationPpm request pool
          · rw [List.getElem?_set_ne hij] at hfill
            refine hfills j other fill (fun hin => ?_) hother hfill
            rcases List.mem_cons.mp hin with rfl | hin
            · exact hij rfl
            · exact hj hin

/-! ## The whole allocation -/

/-- What an allocation may do with the volume of a step. -/
structure SharesVolume (requests : List RestingFillRequest) (prints : List TradePrint)
    (maxParticipationPpm : ℤ) (fills : List ContractCentis) : Prop where
  /-- Every fill is drawn from prints through its order's limit, no volume twice. -/
  drawn : ∃ draw, Feasible (range requests.length) (range prints.length)
    (ThroughAt requests prints) (valueAt printedVolume prints) (valueAt filledVolume fills) draw
  /-- What the orders up to a threshold got was printed strictly through it. -/
  bounded : ∀ threshold : PricePips,
    sumWhere (fun served => served.1.limit ≤ threshold) (fun served => filledVolume served.2)
        (requests.zip fills) ≤
      sumWhere (fun p => p.price < threshold) printedVolume prints
  /-- Where every print has a size, that is the recorded trade-through volume. -/
  recorded : (∀ p ∈ prints, 0 ≤ p.quantity.value) → ∀ threshold : PricePips,
    sumWhere (fun served => served.1.limit ≤ threshold) (fun served => served.2.value)
      (requests.zip fills) ≤ throughVolume threshold prints
  /-- No order gets more than is left of it, or than its share of the depth. -/
  capped : ∀ (i : ℕ) request fill, requests[i]? = some request → fills[i]? = some fill →
    CappedFill maxParticipationPpm request fill

/-- The bound at a threshold, from the account of who took what. -/
theorem filled_le_printed {requests : List RestingFillRequest} {prints : List TradePrint}
    {fills : List ContractCentis} {draw : ℕ → ℕ → ℤ}
    (h : Feasible (range requests.length) (range prints.length) (ThroughAt requests prints)
      (valueAt printedVolume prints) (valueAt filledVolume fills) draw) (threshold : PricePips) :
    sumWhere (fun served => served.1.limit ≤ threshold) (fun served => filledVolume served.2)
        (requests.zip fills) ≤
      sumWhere (fun p => p.price < threshold) printedVolume prints := by
  rw [sumWhere_eq_sum_positions, sumWhere_eq_sum_positions]
  have hgroup : positionsWhere (fun served : RestingFillRequest × ContractCentis =>
      served.1.limit ≤ threshold) (requests.zip fills) ⊆ range requests.length := by
    refine (positionsWhere_subset _).trans (range_subset_range.mpr ?_)
    rw [List.length_zip]
    exact min_le_left _ _
  refine le_trans (le_of_eq (sum_congr rfl fun i hi => ?_))
    (h.sum_given_le hgroup (positionsWhere_subset prints) fun i hi j _ hthrough => ?_)
  · obtain ⟨served, hserved, -⟩ := mem_positionsWhere.mp hi
    obtain ⟨-, hfill⟩ := List.getElem?_zip_eq_some.mp hserved
    rw [valueAt_of_some _ hserved, valueAt_of_some _ hfill]
  · obtain ⟨served, hserved, hlimit⟩ := mem_positionsWhere.mp hi
    obtain ⟨request, p, hrequest, hp, hprice⟩ := hthrough
    obtain ⟨hsame, -⟩ := List.getElem?_zip_eq_some.mp hserved
    rw [hrequest] at hsame
    cases hsame
    exact mem_positionsWhere.mpr ⟨p, hp, Int.lt_of_lt_of_le hprice hlimit⟩

/-- Prints that all have a size have it as their volume. -/
theorem printed_eq_throughVolume {prints : List TradePrint}
    (h : ∀ p ∈ prints, 0 ≤ p.quantity.value) (threshold : PricePips) :
    sumWhere (fun p => p.price < threshold) printedVolume prints =
      throughVolume threshold prints := by
  induction prints with
  | nil => rfl
  | cons p rest ih =>
      have hsize : printedVolume p = p.quantity.value := max_eq_left (h p (.head _))
      have hrest := ih fun q hq => h q (.tail _ hq)
      rw [sumWhere_cons, hrest, hsize]
      by_cases hthrough : p.price < threshold
      · simp [throughVolume, hthrough]
      · simp [throughVolume, hthrough]

theorem recorded_of_filled_le {requests : List RestingFillRequest} {prints : List TradePrint}
    {fills : List ContractCentis}
    (h : ∀ threshold : PricePips, sumWhere (fun served => served.1.limit ≤ threshold)
      (fun served => filledVolume served.2) (requests.zip fills) ≤
        sumWhere (fun p => p.price < threshold) printedVolume prints)
    (hsizes : ∀ p ∈ prints, 0 ≤ p.quantity.value) (threshold : PricePips) :
    sumWhere (fun served => served.1.limit ≤ threshold) (fun served => served.2.value)
      (requests.zip fills) ≤ throughVolume threshold prints := by
  rw [← printed_eq_throughVolume hsizes threshold]
  exact (sumWhere_le fun served _ _ => le_max_left _ _).trans (h threshold)

/-- **No printed volume is handed out twice.** -/
theorem allocateRestingFills_shares (requests : List RestingFillRequest)
    (prints : List TradePrint) (maxParticipationPpm : ℤ) :
    SharesVolume requests prints maxParticipationPpm
      (allocateRestingFills requests prints maxParticipationPpm) := by
  have hperm := greatestFirst_perm (fun r : RestingFillRequest => r.limit.value) requests
  obtain ⟨pool, draw, hshared⟩ := allocateEach_sharing maxParticipationPpm
    (greatestFirst_nodup _ requests) List.length_replicate (sharing_start requests prints)
  have hdrawn : Feasible (range requests.length) (range prints.length) (ThroughAt requests prints)
      (valueAt printedVolume prints)
      (valueAt filledVolume (allocateRestingFills requests prints maxParticipationPpm)) draw := by
    refine ⟨hshared.nonneg, hshared.through, fun i _ => hshared.given i List.not_mem_nil,
      fun j _ => ?_⟩
    have hleft := valueAt_nonneg printedVolume (fun p => le_max_right _ _) pool j
    have hvolumes := hshared.volumes j
    omega
  refine ⟨⟨draw, hdrawn⟩, filled_le_printed hdrawn,
    recorded_of_filled_le (filled_le_printed hdrawn), fun i request fill hrequest hfill =>
    allocateEach_capped _ prints (fun j other zero hj hother _ => ?_) i request fill hrequest hfill⟩
  -- every order is served
  refine absurd (hperm.mem_iff.mpr (List.mem_range.mpr ?_)) hj
  exact (List.getElem?_eq_some_iff.mp hother).1

end Windbreak
