import Windbreak.Connector.PaperEffects

/-!
# What a step of the recording hands an order

A ticker's step fills that ticker's orders with what it allocates to them, and leaves the orders of
other tickers as they are.

* **`advance_filled_iff`** — an order fills as the recording advances exactly when the current step
  of its ticker hands it something.
-/

namespace Windbreak

open Effects Sums

namespace PaperExchange

/-- What an allocation gives the order with an id. -/
def shareOf (filled : List (String × ContractCentis)) (orderId : String) : ℤ :=
  max ((filled.lookup orderId).getD ⟨0⟩).value 0

/-- The step of a ticker that is up next hands an order something. -/
def HandsTo (cfg : PaperFixture) (x : PaperExchange) (ticker orderId : String) : Prop :=
  ∃ steps step, cfg.sessions.get? ticker = some steps ∧ steps[x.cursor ticker]? = some step ∧
    0 < shareOf (x.allocateResting cfg ticker step) orderId

/-- A resting order of a ticker, by its id. -/
abbrev StandsOn (ticker orderId : String) (order : RestingOrder) : Prop :=
  order.id = orderId ∧ order.ticker = ticker

/-- What some orders are handed under an id. -/
def sharesUnder (ticker orderId : String) (filled : List (String × ContractCentis))
    (orders : List RestingOrder) : ℤ :=
  sumWhere (StandsOn ticker orderId) (fun order => shareOf filled order.id) orders

/-! ## One ticker -/

/-- What filling a ticker's orders comes to: each gets its share, the others stay as they are. -/
structure Hands (ticker : String) (filled : List (String × ContractCentis)) (x y : PaperExchange)
    (orders survivors : List RestingOrder) : Prop where
  shares : ∀ orderId, filledUnder orderId y.fills =
    filledUnder orderId x.fills + sharesUnder ticker orderId filled orders
  cursor : y.cursor = x.cursor
  others : ∀ other, other ≠ ticker → survivors.filter (fun order => order.ticker = other) =
    orders.filter fun order => order.ticker = other
  kept : ∀ survivor ∈ survivors, ∃ order ∈ orders,
    order.id = survivor.id ∧ order.ticker = survivor.ticker

/-- **One order** gets what it is handed. -/
theorem applyRestingFill_shares {x y : PaperExchange} {order : RestingOrder} {step : SessionStep}
    {quantity : ContractCentis} {survivor : Option RestingOrder}
    (h : x.applyRestingFill order step quantity = .ok (survivor, y)) :
    (∀ orderId, filledUnder orderId y.fills = filledUnder orderId x.fills +
      if order.id = orderId then max quantity.value 0 else 0) ∧ y.cursor = x.cursor ∧
        ∀ left ∈ survivor, left.id = order.id ∧ left.ticker = order.ticker := by
  unfold applyRestingFill at h
  by_cases hnone : quantity.value ≤ 0
  · rw [if_pos hnone] at h
    cases h
    refine ⟨fun orderId => ?_, rfl, fun left hleft => ?_⟩
    · rw [max_eq_right hnone, ite_self, Int.add_zero]
    · cases hleft
      exact ⟨rfl, rfl⟩
  · rw [if_neg hnone] at h
    obtain ⟨ts, -, h⟩ := except_bind_ok.mp h
    cases h
    refine ⟨fun orderId => ?_, rfl, fun left hleft => ?_⟩
    · have hfills := (x.emitFill_emits order.ticker order.side order.price quantity ts
        (some order.id)).fills
      rw [hfills, filledUnder_append, max_eq_left (not_le.mp hnone).le]
      simp [filledUnder, FillOf, emitFill]
    · by_cases hdone : order.quantity.value - quantity.value ≤ 0
      · rw [if_pos hdone] at hleft
        cases hleft
      · rw [if_neg hdone] at hleft
        cases hleft
        exact ⟨rfl, rfl⟩

theorem applyEach_hands {ticker : String} {step : SessionStep}
    {filled : List (String × ContractCentis)} {x y : PaperExchange}
    {orders survivors : List RestingOrder}
    (h : applyEach ticker step filled x orders = .ok (survivors, y)) :
    Hands ticker filled x y orders survivors := by
  induction orders generalizing x survivors with
  | nil =>
      cases h
      exact ⟨fun orderId => (Int.add_zero _).symm, rfl, fun other hother => rfl,
        fun survivor hsurvivor => absurd hsurvivor List.not_mem_nil⟩
  | cons order rest ih =>
      have hkept : ∀ {s : RestingOrder},
          (∃ o ∈ rest, o.id = s.id ∧ o.ticker = s.ticker) →
            ∃ o ∈ order :: rest, o.id = s.id ∧ o.ticker = s.ticker := fun ⟨o, ho, hsame⟩ =>
        ⟨o, .tail _ ho, hsame⟩
      rw [applyEach] at h
      by_cases hother : order.ticker ≠ ticker
      · rw [if_pos hother] at h
        obtain ⟨⟨more, z⟩, hmore, h⟩ := except_bind_ok.mp h
        cases h
        have hands := ih hmore
        refine ⟨fun orderId => ?_, hands.cursor, fun other hne => ?_, fun survivor hsurvivor => ?_⟩
        · rw [hands.shares orderId, sharesUnder, sharesUnder, sumWhere_cons,
            if_neg fun hstands => hother hstands.2, Int.zero_add]
        · rw [List.filter_cons, List.filter_cons, hands.others other hne]
        · rcases List.mem_cons.mp hsurvivor with rfl | hmem
          · exact ⟨_, .head _, rfl, rfl⟩
          · exact hkept (hands.kept survivor hmem)
      · rw [if_neg hother] at h
        have hticker : order.ticker = ticker := not_not.mp hother
        cases hlookup : filled.lookup order.id with
        | none =>
            rw [hlookup] at h
            cases h
        | some quantity =>
            rw [hlookup] at h
            obtain ⟨⟨survivor, z⟩, hone, h⟩ := except_bind_ok.mp h
            obtain ⟨⟨more, w⟩, hmore, h⟩ := except_bind_ok.mp h
            cases h
            have hands := ih hmore
            obtain ⟨hshare, hcursor, hleft⟩ := applyRestingFill_shares hone
            refine ⟨fun orderId => ?_, hands.cursor.trans hcursor, fun other hne => ?_,
              fun s hs => ?_⟩
            · have hmine : shareOf filled order.id = max quantity.value 0 := by
                rw [shareOf, hlookup, Option.getD_some]
              rw [hands.shares orderId, hshare orderId, sharesUnder, sharesUnder, sumWhere_cons,
                hmine, Int.add_assoc]
              congr 2
              by_cases hid : order.id = orderId
              · rw [if_pos hid, if_pos ⟨hid, hticker⟩]
              · rw [if_neg hid, if_neg fun hstands => hid hstands.1]
            · have hgone : survivor.toList.filter (fun o => o.ticker = other) = [] := by
                refine List.filter_eq_nil_iff.mpr fun o ho hthere => hne ?_
                rw [← of_decide_eq_true hthere, (hleft o (Option.mem_toList.mp ho)).2, hticker]
              rw [List.filter_append, hgone, List.nil_append, hands.others other hne,
                List.filter_cons_of_neg]
              exact fun hthere => hne ((of_decide_eq_true hthere).symm.trans hticker)
            · rcases List.mem_append.mp hs with hmem | hmem
              · obtain ⟨hid, hsame⟩ := hleft s (Option.mem_toList.mp hmem)
                exact ⟨order, .head _, hid.symm, hsame.symm⟩
              · exact hkept (hands.kept s hmem)

theorem processRestingFills_hands {cfg : PaperFixture} {x y : PaperExchange} {ticker : String}
    {step : SessionStep} (h : x.processRestingFills cfg ticker step = .ok y) :
    Hands ticker (x.allocateResting cfg ticker step) x y x.resting y.resting := by
  obtain ⟨⟨survivors, z⟩, hrun, h⟩ := except_bind_ok.mp h
  cases h
  have hands := applyEach_hands hrun
  exact ⟨hands.shares, hands.cursor, hands.others, hands.kept⟩

/-! ## The allocation of a ticker -/

/-- What a step allocates depends on the orders of its ticker alone. -/
theorem allocateResting_congr {cfg : PaperFixture} {x y : PaperExchange} {ticker : String}
    (h : y.resting.filter (fun order => order.ticker = ticker) =
      x.resting.filter fun order => order.ticker = ticker) (step : SessionStep) :
    y.allocateResting cfg ticker step = x.allocateResting cfg ticker step := by
  have hsplit : ∀ (side : Side) (orders : List RestingOrder),
      (orders.filter fun order => order.ticker = ticker ∧ order.side = side) =
        (orders.filter fun order => order.ticker = ticker).filter fun order => order.side = side := by
    intro side orders
    rw [List.filter_filter]
    refine List.filter_congr fun order _ => ?_
    rw [Bool.decide_and, Bool.and_comm]
  unfold allocateResting allocateSide
  rw [hsplit .yes, hsplit .no, hsplit .yes, hsplit .no, h]

/-- An id that is handed something is that of an order of the ticker. -/
theorem exists_of_share {cfg : PaperFixture} {x : PaperExchange} {ticker orderId : String}
    {step : SessionStep} (h : 0 < shareOf (x.allocateResting cfg ticker step) orderId) :
    ∃ order ∈ x.resting, StandsOn ticker orderId order := by
  have hkey : orderId ∈ (x.allocateResting cfg ticker step).map Prod.fst := by
    by_contra hnot
    have hnone : (x.allocateResting cfg ticker step).lookup orderId = none := by
      rw [List.lookup_eq_none_iff]
      intro entry hentry
      exact bne_iff_ne.mpr fun hsame => hnot (hsame ▸ List.mem_map_of_mem hentry)
    rw [shareOf, hnone] at h
    exact absurd h (by decide)
  rw [allocateResting, List.map_append, allocateSide_keys, allocateSide_keys] at hkey
  rcases List.mem_append.mp hkey with hmem | hmem
  all_goals
    obtain ⟨order, horder, hid⟩ := List.mem_map.mp hmem
    obtain ⟨hresting, hside⟩ := List.mem_filter.mp horder
    exact ⟨order, hresting, hid, (of_decide_eq_true hside).1⟩

theorem shareOf_nonneg (filled : List (String × ContractCentis)) (orderId : String) :
    0 ≤ shareOf filled orderId := le_max_right _ _

theorem sharesUnder_pos_iff {cfg : PaperFixture} {x : PaperExchange} {ticker orderId : String}
    {step : SessionStep} :
    0 < sharesUnder ticker orderId (x.allocateResting cfg ticker step) x.resting ↔
      0 < shareOf (x.allocateResting cfg ticker step) orderId := by
  have hnonneg : ∀ order : RestingOrder, 0 ≤ shareOf (x.allocateResting cfg ticker step) order.id :=
    fun order => shareOf_nonneg _ order.id
  rw [sharesUnder, sumWhere_pos_iff hnonneg]
  constructor
  · rintro ⟨order, -, ⟨rfl, -⟩, hshare⟩
    exact hshare
  · intro hshare
    obtain ⟨order, horder, hstands⟩ := exists_of_share hshare
    refine ⟨order, horder, hstands, ?_⟩
    rw [hstands.1]
    exact hshare

/-! ## Every session -/

/-- An order fills as sessions are stepped exactly when the session of its ticker hands it
something. -/
theorem advanceEach_filled_iff {cfg : PaperFixture} {sessions : List (String × List SessionStep)}
    (hnodup : (sessions.map Prod.fst).Nodup) {x z : PaperExchange} {anyNext : Bool}
    (hrun : advanceEach cfg x sessions = .ok (anyNext, z)) {ticker orderId : String}
    (hmine : ∀ order ∈ x.resting, order.id = orderId → order.ticker = ticker) :
    filledUnder orderId x.fills ≤ filledUnder orderId z.fills ∧
      (filledUnder orderId x.fills < filledUnder orderId z.fills ↔
        ∃ steps step, (ticker, steps) ∈ sessions ∧ steps[x.cursor ticker]? = some step ∧
          0 < shareOf (x.allocateResting cfg ticker step) orderId) := by
  induction sessions generalizing x anyNext with
  | nil =>
      cases hrun
      exact ⟨le_refl _, by simp⟩
  | cons session rest ih =>
      obtain ⟨other, otherSteps⟩ := session
      obtain ⟨hfresh, hrest⟩ := List.nodup_cons.mp hnodup
      rw [advanceEach] at hrun
      cases hstep : otherSteps[x.cursor other]? with
      | none =>
          rw [hstep] at hrun
          obtain ⟨hle, hiff⟩ := ih hrest hrun hmine
          refine ⟨hle, hiff.trans ⟨?_, ?_⟩⟩
          · rintro ⟨steps, step, hmem, hcase⟩
            exact ⟨steps, step, .tail _ hmem, hcase⟩
          · rintro ⟨steps, step, hmem, hcurrent, hshare⟩
            rcases List.mem_cons.mp hmem with hsame | hmem
            · cases hsame
              rw [hstep] at hcurrent
              cases hcurrent
            · exact ⟨steps, step, hmem, hcurrent, hshare⟩
      | some step =>
          rw [hstep] at hrun
          obtain ⟨y, hone, hrun⟩ := except_bind_ok.mp hrun
          obtain ⟨⟨more, w⟩, hmore, hrun⟩ := except_bind_ok.mp hrun
          cases hrun
          have hands := processRestingFills_hands hone
          have hmine' : ∀ order ∈ (y.stepped other).resting, order.id = orderId →
              order.ticker = ticker := by
            intro order horder hid
            obtain ⟨before, hbefore, hsameId, hsameTicker⟩ := hands.kept order horder
            exact hsameTicker ▸ hmine before hbefore (hsameId.trans hid)
          obtain ⟨hle, hiff⟩ := ih hrest hmore hmine'
          have hshares := hands.shares orderId
          have hfills : (y.stepped other).fills = y.fills := rfl
          rw [hfills] at hle hiff
          by_cases hticker : other = ticker
          · subst hticker
            have hdone : ¬ filledUnder orderId y.fills < filledUnder orderId z.fills := by
              rw [hiff]
              rintro ⟨steps, -, hmem, -⟩
              exact hfresh (List.mem_map.mpr ⟨_, hmem, rfl⟩)
            have hpos : 0 < sharesUnder other orderId (x.allocateResting cfg other step) x.resting ↔
                0 < shareOf (x.allocateResting cfg other step) orderId := sharesUnder_pos_iff
            have hnonneg : 0 ≤ sharesUnder other orderId (x.allocateResting cfg other step)
                x.resting := sumWhere_nonneg fun order _ _ => shareOf_nonneg _ order.id
            refine ⟨by omega, ⟨fun hlt => ?_, ?_⟩⟩
            · exact ⟨otherSteps, step, .head _, hstep, hpos.mp (by omega)⟩
            · rintro ⟨steps, step', hmem, hcurrent, hshare⟩
              rcases List.mem_cons.mp hmem with hsame | hmem
              · cases hsame
                rw [hstep] at hcurrent
                cases hcurrent
                have := hpos.mpr hshare
                omega
              · exact absurd (List.mem_map.mpr ⟨_, hmem, rfl⟩) hfresh
          · have hzero : sharesUnder other orderId (x.allocateResting cfg other step) x.resting = 0 :=
              sumWhere_eq_zero fun order horder hstands =>
                hticker (hstands.2.symm.trans (hmine order horder hstands.1))
            have hcursor : (y.stepped other).cursor ticker = x.cursor ticker := by
              rw [← hands.cursor]
              exact Function.update_of_ne (Ne.symm hticker) _ _
            have hsame : ∀ step, (y.stepped other).allocateResting cfg ticker step =
                x.allocateResting cfg ticker step :=
              allocateResting_congr (hands.others ticker (Ne.symm hticker))
            have hunmoved : filledUnder orderId y.fills = filledUnder orderId x.fills := by omega
            rw [hunmoved] at hle hiff
            refine ⟨hle, hiff.trans ⟨?_, ?_⟩⟩
            · rintro ⟨steps, step', hmem, hcurrent, hshare⟩
              rw [hcursor] at hcurrent
              rw [hsame] at hshare
              exact ⟨steps, step', .tail _ hmem, hcurrent, hshare⟩
            · rintro ⟨steps, step', hmem, hcurrent, hshare⟩
              rcases List.mem_cons.mp hmem with heq | hmem
              · exact absurd (congrArg Prod.fst heq).symm hticker
              · refine ⟨steps, step', hmem, ?_, ?_⟩
                · rw [hcursor]
                  exact hcurrent
                · rw [hsame]
                  exact hshare

/-- **An order fills as the recording advances** exactly when the step that is up next for its ticker
hands it something. -/
theorem advance_filled_iff {cfg : PaperFixture} {x z : PaperExchange} {anyNext : Bool}
    (hrun : x.advance cfg = .ok (anyNext, z)) {ticker orderId : String}
    (hmine : ∀ order ∈ x.resting, order.id = orderId → order.ticker = ticker) :
    filledUnder orderId x.fills ≤ filledUnder orderId z.fills ∧
      (filledUnder orderId x.fills < filledUnder orderId z.fills ↔
        HandsTo cfg x ticker orderId) := by
  obtain ⟨hle, hiff⟩ := advanceEach_filled_iff cfg.sessions.nodup hrun hmine
  refine ⟨hle, hiff.trans ⟨?_, ?_⟩⟩
  · rintro ⟨steps, step, hmem, hcase⟩
    exact ⟨steps, step, OrderedDict.mem_items_iff.mp hmem, hcase⟩
  · rintro ⟨steps, step, hget, hcase⟩
    exact ⟨steps, step, OrderedDict.mem_items_iff.mpr hget, hcase⟩

end PaperExchange

end Windbreak
