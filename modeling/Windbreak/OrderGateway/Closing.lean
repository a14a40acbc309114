import Windbreak.Core.Sums
import Windbreak.OrderGateway.Bookkeeping

/-!
# Closes and the positions they close

A gateway with a position source admits a close while it fits into what is held and not yet being
closed.  Here the venue's side of it is kept next to the gateway: every close the venue took, what
it filled, and whether the gateway has stopped tracking it.

* **`Honest`** — what is assumed of the venue and of the position source: a close never fills more
  than its size, and the source may lag by fills of closes that are not retired, and by no others.
* **`Overcloses`** — a step that lets the closes in flight fall behind: a negative size is booked, or
  a close is taken that is not booked, or that closes the side that is not held.
* **`closes_within_held`** — without such a step no more is closed than was held.
-/

namespace Windbreak

namespace OrderGateway

open Machine Effects Sums

/-! ## The venue's side -/

/-- A close the venue took. -/
structure VenueClose where
  clientOrderId : String
  ticker : String
  side : String
  size : ℤ
  filled : ℤ
  retired : Bool
  deriving DecidableEq, Repr

/-- An intent that closes. -/
structure ClosingIntent where
  intent : OrderIntent
  closing : isClosingAction intent.action = true

/-- A gateway and the closes the venue took from it. -/
structure ClosingState where
  gateway : GatewayWorld
  closes : List VenueClose

/-- A close is handed in, closes at the venue fill, or a tracked order is retired.  What a close
fills at once is acknowledged; when the acknowledgement is lost, it is what the step says. -/
inductive ClosingOp where
  | close (env : GatewayEnv) (order : ClosingIntent) (token : SignedApprovalToken) (unseen : ℤ)
  | fill (amount : VenueClose → ℤ)
  | retire (orderId : String)

/-- What a close fills at once. -/
def filledAtOnce (env : GatewayEnv) (unseen : ℤ) : ℤ :=
  match env.placement with
  | .acknowledged ack => ack.filled.value
  | .refused _ | .takenThenRaised _ _ => unseen

/-- The close a venue takes. -/
def venueClose (cfg : GatewayConfig) (env : GatewayEnv) (intent : OrderIntent) (unseen : ℤ) :
    VenueClose where
  clientOrderId := clientOrderId cfg.sha256 intent
  ticker := intent.marketTicker
  side := intent.outcome
  size := intent.size.value
  filled := filledAtOnce env unseen
  retired := false

namespace VenueClose

def filling (amount : VenueClose → ℤ) (c : VenueClose) : VenueClose :=
  { c with filled := c.filled + amount c }

def retiring (coid : String) (c : VenueClose) : VenueClose :=
  if c.clientOrderId = coid then { c with retired := true } else c

end VenueClose

/-- One operation. -/
def closingStep (cfg : GatewayConfig) (s : ClosingState) :
    ClosingOp → Option GatewayError × ClosingState
  | .close env order token unseen =>
    let result := settle ((processIntent cfg env order.intent token).run s.gateway)
    let taken := if s.gateway.accepted.length < result.2.accepted.length then
      [venueClose cfg env order.intent unseen] else []
    (result.1, ⟨result.2, s.closes ++ taken⟩)
  | .fill amount => (none, ⟨s.gateway, s.closes.map (.filling amount)⟩)
  | .retire orderId =>
    match s.gateway.tracked.get? orderId with
    | none => (none, s)
    | some order =>
      (none, ⟨retired order s.gateway, s.closes.map (.retiring order.clientOrderId)⟩)

theorem closingStep_fill (cfg : GatewayConfig) (s : ClosingState) (amount : VenueClose → ℤ) :
    (closingStep cfg s (.fill amount)).2.closes = s.closes.map (.filling amount) := rfl

abbrev ClosingTransition := Transition ClosingState ClosingOp (Option GatewayError)

/-! ## Sums over closes -/

/-- A close of a ticker. -/
abbrev On (ticker : String) (c : VenueClose) : Prop := c.ticker = ticker

/-- What a close may still fill, as long as it is not retired. -/
def liveSize (c : VenueClose) : ℤ := if c.retired then 0 else max c.size 0

/-- What a retired close filled. -/
def retiredFill (c : VenueClose) : ℤ := if c.retired then c.filled else 0

/-- The quantity on one side. -/
def onSide (side : String) (f : VenueClose → ℤ) (c : VenueClose) : ℤ :=
  if c.side = side then f c else 0

/-- What closes filled on one side of a ticker. -/
def filledOn (ticker side : String) (closes : List VenueClose) : ℤ :=
  sumWhere (On ticker) (onSide side VenueClose.filled) closes

/-! ## Assumptions and condition -/

/-- What the position source has seen of the closes: of a retired one everything, of another one
some part. -/
def Seen (seen : VenueClose → ℤ) (closes : List VenueClose) : Prop :=
  ∀ c ∈ closes, 0 ≤ seen c ∧ seen c ≤ c.filled ∧ (c.retired = true → seen c = c.filled)

/-- The net position a source reports that has seen so much of the closes. -/
def reportedNet (held : String → String → ℤ) (seen : VenueClose → ℤ) (closes : List VenueClose)
    (ticker : String) : ℤ :=
  held ticker "yes" - sumWhere (On ticker) (onSide "yes" seen) closes -
    (held ticker "no" - sumWhere (On ticker) (onSide "no" seen) closes)

/-- The venue fills no close beyond its size and none that is retired, and the position source lags
only by fills of closes that are not retired. -/
def Honest (held : String → String → ℤ) (t : ClosingTransition) : Prop :=
  match t.input with
  | .close env order _ unseen =>
    (0 ≤ filledAtOnce env unseen ∧ filledAtOnce env unseen ≤ max order.intent.size.value 0) ∧
      ∀ positions, env.positions = .ok positions → ∃ seen, Seen seen t.pre.closes ∧
        heldForTicker positions order.intent.marketTicker =
          reportedNet held seen t.pre.closes order.intent.marketTicker
  | .fill amount => ∀ c ∈ t.pre.closes, 0 ≤ amount c ∧ c.filled + amount c ≤ max c.size 0 ∧
      (c.retired = true → amount c = 0)
  | .retire _ => True

/-- A close that the venue takes and the closes in flight do not cover: of a negative size and
booked, or of a positive size and either not booked or on the side that is not held. -/
structure Uncovered (cfg : GatewayConfig) (env : GatewayEnv) (intent : OrderIntent)
    (token : SignedApprovalToken) (w : GatewayWorld) : Prop where
  places : Places cfg env intent token w
  taken : env.takes = true
  amiss : (intent.size.value < 0 ∧ ∃ ack, Books cfg env intent token w ack) ∨
    (0 < intent.size.value ∧
      (intent.outcome ≠ "yes" ∨ ¬ ∃ ack, Books cfg env intent token w ack))

/-- A step that takes such a close. -/
def Overcloses (cfg : GatewayConfig) (t : ClosingTransition) : Prop :=
  ∃ env order token unseen, t.input = .close env order token unseen ∧
    Uncovered cfg env order.intent token t.pre.gateway

/-! ## The invariant -/

/-- No close is in flight, and nothing is tracked. -/
structure NothingClosing (w : GatewayWorld) : Prop where
  bookkept : Bookkept w
  tracked : w.tracked = .empty
  inflight : w.inflightClosing = .empty

/-- The closes in flight cover the live closes, and these leave room for what was closed already. -/
structure ClosesCovered (held : String → String → ℤ) (s : ClosingState) : Prop where
  bookkept : Bookkept s.gateway
  bounded : ∀ c ∈ s.closes, 0 ≤ c.filled ∧ c.filled ≤ max c.size 0
  sided : ∀ c ∈ s.closes, 0 < c.size → c.side = "yes"
  keyed : ∀ k order, s.gateway.tracked.get? k = some order → order.orderId = k
  tracked : ∀ k order, s.gateway.tracked.get? k = some order →
    isClosingAction order.action = true → 0 < order.sizeCentis → ∃ c ∈ s.closes,
      c.retired = false ∧ c.clientOrderId = order.clientOrderId ∧ c.ticker = order.ticker ∧
        c.size = order.sizeCentis
  inflight : ∀ ticker, sumWhere (On ticker) liveSize s.closes ≤ inflightFor s.gateway ticker
  room : ∀ ticker,
    sumWhere (On ticker) liveSize s.closes + sumWhere (On ticker) retiredFill s.closes ≤ held ticker "yes"

theorem covered_start {held : String → String → ℤ} (hheld : ∀ ticker side, 0 ≤ held ticker side)
    {w : GatewayWorld} (hw : NothingClosing w) : ClosesCovered held ⟨w, []⟩ where
  bookkept := hw.bookkept
  bounded c hc := absurd hc List.not_mem_nil
  sided c hc := absurd hc List.not_mem_nil
  keyed k order hk := by
    rw [hw.tracked] at hk
    cases hk
  tracked k order hk := by
    rw [hw.tracked] at hk
    cases hk
  inflight ticker := by simp [inflightFor, hw.inflight]
  room ticker := by
    simpa using hheld ticker "yes"

/-- **A covered state is not oversold.** -/
theorem ClosesCovered.filledOn_le {held : String → String → ℤ}
    (hheld : ∀ ticker side, 0 ≤ held ticker side) {s : ClosingState} (h : ClosesCovered held s)
    (ticker side : String) : filledOn ticker side s.closes ≤ held ticker side := by
  by_cases hside : side = "yes"
  · subst hside
    have hroom := h.room ticker
    have hsplit : filledOn ticker "yes" s.closes ≤
        sumWhere (On ticker) (fun c => liveSize c + retiredFill c) s.closes := by
      refine sumWhere_le fun c hc _ => ?_
      have hbounded := h.bounded c hc
      unfold onSide liveSize retiredFill
      split_ifs <;> omega
    rw [sumWhere_add] at hsplit
    omega
  · have hnone : filledOn ticker side s.closes ≤ sumWhere (On ticker) (fun _ => 0) s.closes := by
      refine sumWhere_le fun c hc _ => ?_
      have hbounded := h.bounded c hc
      unfold onSide
      split
      · rename_i hmine
        have hsmall : ¬ 0 < c.size := fun hpos => hside (hmine ▸ h.sided c hc hpos)
        omega
      · exact le_refl 0
    have hzero : sumWhere (On ticker) (fun _ => 0) s.closes = 0 := by simp [sumWhere]
    have hfloor := hheld ticker side
    omega

/-! ## Fills and retirements -/

theorem covered_fill {held : String → String → ℤ} {s : ClosingState} (h : ClosesCovered held s)
    {amount : VenueClose → ℤ}
    (hamount : ∀ c ∈ s.closes, 0 ≤ amount c ∧ c.filled + amount c ≤ max c.size 0 ∧
      (c.retired = true → amount c = 0)) :
    ClosesCovered held ⟨s.gateway, s.closes.map (.filling amount)⟩ := by
  have hticker : ∀ ticker (c : VenueClose), On ticker (c.filling amount) ↔ On ticker c :=
    fun _ _ => Iff.rfl
  have hlive : ∀ ticker, sumWhere (On ticker) liveSize (s.closes.map (.filling amount)) =
      sumWhere (On ticker) liveSize s.closes := fun ticker => sumWhere_map (hticker ticker)
  have hspent : ∀ ticker, sumWhere (On ticker) retiredFill (s.closes.map (.filling amount)) ≤
      sumWhere (On ticker) retiredFill s.closes := by
    intro ticker
    rw [sumWhere_map (hticker ticker)]
    refine sumWhere_le fun c hc _ => ?_
    have hnone := (hamount c hc).2.2
    unfold retiredFill VenueClose.filling
    dsimp only
    split
    · rename_i hdone
      have hzero := hnone hdone
      omega
    · exact le_refl 0
  refine ⟨h.bookkept, fun c hc => ?_, fun c hc => ?_, h.keyed,
    fun k order hk hclosing hpos => ?_, fun ticker => ?_, fun ticker => ?_⟩
  · obtain ⟨b, hb, rfl⟩ := List.mem_map.mp hc
    have hbounded := h.bounded b hb
    have hmore := hamount b hb
    unfold VenueClose.filling
    dsimp only
    omega
  · obtain ⟨b, hb, rfl⟩ := List.mem_map.mp hc
    exact h.sided b hb
  · obtain ⟨c, hc, hlink⟩ := h.tracked k order hk hclosing hpos
    exact ⟨c.filling amount, List.mem_map.mpr ⟨c, hc, rfl⟩, hlink⟩
  · rw [hlive]
    exact h.inflight ticker
  · have hroom := h.room ticker
    have hless := hspent ticker
    dsimp only
    rw [hlive]
    omega

theorem inflightFor_withInflight (w : GatewayWorld) (ticker other : String)
    (size : ContractCentis) :
    inflightFor (w.withInflight ticker size) other =
      if other = ticker then size.value else inflightFor w other := by
  rw [inflightFor, GatewayWorld.withInflight_inflightClosing, OrderedDict.get?_set]
  by_cases hother : other = ticker
  · rw [if_pos hother, if_pos hother]
  · rw [if_neg hother, if_neg hother, inflightFor]

theorem inflightFor_withoutInflight (w : GatewayWorld) (ticker other : String) :
    inflightFor (w.withoutInflight ticker) other =
      if other = ticker then 0 else inflightFor w other := by
  rw [inflightFor, GatewayWorld.withoutInflight_inflightClosing, OrderedDict.get?_pop]
  by_cases hother : other = ticker
  · rw [if_pos hother, if_pos hother]
  · rw [if_neg hother, if_neg hother, inflightFor]

theorem inflightFor_retireInflight (w : GatewayWorld) (ticker other : String) (sizeCentis : ℤ) :
    inflightFor (retireInflight w ticker sizeCentis) other =
      if other = ticker then max (inflightFor w ticker - sizeCentis) 0 else inflightFor w other := by
  unfold retireInflight
  dsimp only
  by_cases hpos : 0 < max (inflightFor w ticker - sizeCentis) 0
  · rw [if_pos hpos, inflightFor_withInflight]
  · rw [if_neg hpos, inflightFor_withoutInflight]
    split <;> omega

/-- What retiring an order leaves of the closes in flight. -/
theorem inflightFor_retired (w : GatewayWorld) (order : TrackedOrder) (ticker : String) :
    inflightFor (retired order w) ticker =
      if isClosingAction order.action = true ∧ ticker = order.ticker then
        max (inflightFor w ticker - order.sizeCentis) 0
      else inflightFor w ticker := by
  unfold retired
  by_cases hclosing : isClosingAction order.action = true
  · rw [if_pos hclosing, inflightFor_retireInflight]
    by_cases hticker : ticker = order.ticker
    · subst hticker
      rw [if_pos rfl, if_pos ⟨hclosing, rfl⟩]
      rfl
    · rw [if_neg hticker, if_neg fun h => hticker h.2]
      rfl
  · rw [if_neg hclosing, if_neg fun h => hclosing h.1]
    rfl

theorem retired_tracked (w : GatewayWorld) (order : TrackedOrder) :
    (retired order w).tracked = w.tracked.pop order.orderId := by
  unfold retired retireInflight
  dsimp only
  split
  · split <;> rfl
  · rfl

namespace VenueClose

theorem on_retiring (coid ticker : String) (c : VenueClose) :
    On ticker (c.retiring coid) ↔ On ticker c := by
  unfold retiring
  split <;> rfl

theorem liveSize_retiring_le (coid : String) (c : VenueClose) :
    liveSize (c.retiring coid) ≤ liveSize c := by
  unfold liveSize retiring
  split
  · simp only [if_true]
    split <;> omega
  · exact le_refl _

theorem exposure_retiring_le (coid : String) {c : VenueClose}
    (h : 0 ≤ c.filled ∧ c.filled ≤ max c.size 0) :
    liveSize (c.retiring coid) + retiredFill (c.retiring coid) ≤ liveSize c + retiredFill c := by
  unfold liveSize retiredFill retiring
  split
  · simp only [if_true]
    split <;> omega
  · exact le_refl _

end VenueClose

/-- **Retiring a tracked order** keeps the closes in flight ahead of the live closes. -/
theorem covered_retire {held : String → String → ℤ} {s : ClosingState} (h : ClosesCovered held s)
    {orderId : String} {order : TrackedOrder}
    (hk : s.gateway.tracked.get? orderId = some order) :
    ClosesCovered held
      ⟨retired order s.gateway, s.closes.map (.retiring order.clientOrderId)⟩ := by
  have hid := h.keyed orderId order hk
  have hlive : ∀ ticker, sumWhere (On ticker) liveSize (s.closes.map (.retiring order.clientOrderId)) ≤
      sumWhere (On ticker) liveSize s.closes := by
    intro ticker
    rw [sumWhere_map (VenueClose.on_retiring _ _)]
    exact sumWhere_le fun c _ _ => VenueClose.liveSize_retiring_le _ c
  refine ⟨h.bookkept.retired order, fun c hc => ?_, fun c hc => ?_, fun k other hother => ?_,
    fun k other hother hclosing hpos => ?_, fun ticker => ?_, fun ticker => ?_⟩
  · obtain ⟨b, hb, rfl⟩ := List.mem_map.mp hc
    have hbounded := h.bounded b hb
    unfold VenueClose.retiring
    split <;> exact hbounded
  · obtain ⟨b, hb, rfl⟩ := List.mem_map.mp hc
    have hsided := h.sided b hb
    unfold VenueClose.retiring
    split <;> exact hsided
  · rw [retired_tracked, OrderedDict.get?_pop] at hother
    split at hother
    · cases hother
    · exact h.keyed k other hother
  · rw [retired_tracked, OrderedDict.get?_pop] at hother
    split at hother
    · cases hother
    · rename_i hkey
      obtain ⟨c, hc, hretired, hcoid, hticker, hsize⟩ := h.tracked k other hother hclosing hpos
      have hdistinct : c.clientOrderId ≠ order.clientOrderId := by
        intro hsame
        have hkeys := h.bookkept.once k orderId other order hother hk (hcoid.symm.trans hsame)
        exact hkey (hkeys.trans hid.symm)
      refine ⟨c, List.mem_map.mpr ⟨c, hc, ?_⟩, hretired, hcoid, hticker, hsize⟩
      rw [VenueClose.retiring, if_neg hdistinct]
  · have hinflight := h.inflight ticker
    dsimp only
    rw [inflightFor_retired]
    split
    · rename_i hmine
      obtain ⟨hclosing, rfl⟩ := hmine
      by_cases hpos : 0 < order.sizeCentis
      · obtain ⟨c, hc, hretired, hcoid, hticker, hsize⟩ := h.tracked orderId order hk hclosing hpos
        have hless := sumWhere_add_le (p := On order.ticker)
          (f := fun c => liveSize (c.retiring order.clientOrderId)) (g := liveSize) hc hticker
          (fun c _ => VenueClose.liveSize_retiring_le _ c) (d := order.sizeCentis) (by
            unfold liveSize VenueClose.retiring
            rw [if_pos hcoid, hretired]
            simp only [if_true, Bool.false_eq_true, if_false]
            omega)
        rw [sumWhere_map (VenueClose.on_retiring _ _)]
        omega
      · have hsame := hlive order.ticker
        omega
    · have hsame := hlive ticker
      omega
  · have hroom := h.room ticker
    have hless : sumWhere (On ticker) (fun c => liveSize (c.retiring order.clientOrderId) +
        retiredFill (c.retiring order.clientOrderId)) s.closes ≤
          sumWhere (On ticker) (fun c => liveSize c + retiredFill c) s.closes :=
      sumWhere_le fun c hc _ => VenueClose.exposure_retiring_le _ (h.bounded c hc)
    rw [sumWhere_add, sumWhere_add] at hless
    dsimp only
    rw [sumWhere_map (VenueClose.on_retiring _ _), sumWhere_map (VenueClose.on_retiring _ _)]
    omega

/-! ## A close handed in -/

theorem accepted_ignoresCalls : IgnoresCalls GatewayWorld.accepted where
  ledgered _ _ := rfl
  journalled _ _ _ := rfl
  torn _ := rfl
  registered _ _ := rfl

theorem tracked_ignoresCalls : IgnoresCalls GatewayWorld.tracked where
  ledgered _ _ := rfl
  journalled _ _ _ := rfl
  torn _ := rfl
  registered _ _ := rfl

section Call

variable {cfg : GatewayConfig} {env : GatewayEnv} {intent : OrderIntent}
  {token : SignedApprovalToken} {w : GatewayWorld}

/-- What the venue takes of a call. -/
theorem processIntent_accepted_of_places (h : Places cfg env intent token w) :
    (finalState ((processIntent cfg env intent token).run w)).accepted =
      w.accepted ++ if env.takes then [clientOrderId cfg.sha256 intent] else [] := by
  have hplaced := congrArg Standing.accepted (placeAndSettle_standing cfg env intent token
    (clientOrderId cfg.sha256 intent) (w.placing cfg intent token))
  rw [processIntent_of_places h]
  refine hplaced.trans ?_
  have hplacing := placing_eq accepted_ignoresCalls cfg intent token w
  dsimp only [Standing.placed, GatewayWorld.standing]
  rw [hplacing]

/-- **The venue takes an order of a call** exactly when the call places it and the venue does. -/
theorem processIntent_accepted_grows :
    w.accepted.length < (finalState ((processIntent cfg env intent token).run w)).accepted.length ↔
      Places cfg env intent token w ∧ env.takes = true := by
  by_cases hplaces : Places cfg env intent token w
  · rw [processIntent_accepted_of_places hplaces, List.length_append]
    cases htakes : env.takes with
    | true => simp [hplaces]
    | false => simp
  · rw [processIntent_of_not_places accepted_ignoresCalls hplaces]
    exact iff_of_false (lt_irrefl _) fun h => hplaces h.1

/-- The profile under which a call tracks its order. -/
def ProfileOf (cfg : GatewayConfig) (intent : OrderIntent) (orderId : String)
    (order : TrackedOrder) : Prop :=
  order.orderId = orderId ∧ order.clientOrderId = clientOrderId cfg.sha256 intent ∧
    order.ticker = intent.marketTicker ∧ order.sizeCentis = intent.size.value

/-- Whatever is tracked was tracked before, or is the order of the call. -/
def TracksOnly (cfg : GatewayConfig) (intent : OrderIntent) (w w' : GatewayWorld) : Prop :=
  ∀ k order, w'.tracked.get? k = some order →
    w.tracked.get? k = some order ∨ ProfileOf cfg intent k order

instance tracksOnlyPreorder (cfg : GatewayConfig) (intent : OrderIntent) :
    IsPreorder GatewayWorld (TracksOnly cfg intent) where
  refl _ _ _ h := .inl h
  trans _ _ _ h h' k order hk := by
    rcases h' k order hk with hk | hk
    · exact h k order hk
    · exact .inr hk

theorem TracksOnly.of_eq {w w' : GatewayWorld} (h : w'.tracked = w.tracked) :
    TracksOnly cfg intent w w' := fun _ _ hk => .inl (h ▸ hk)

theorem trackIfResting_tracksOnly (cfg : GatewayConfig) (env : GatewayEnv) (intent : OrderIntent)
    (ack : SubmissionAck) :
    Moves (TracksOnly cfg intent)
      (trackIfResting env (clientOrderId cfg.sha256 intent) intent ack) := by
  rw [trackIfResting]
  split
  · exact Moves.pure _
  · refine Moves.bind (reading_moves _ _) fun side => Moves.modify fun w k order hk => ?_
    rw [GatewayWorld.withTracked_tracked, OrderedDict.get?_set] at hk
    split at hk
    · rename_i hkey
      cases hk
      exact .inr ⟨hkey.symm, rfl, rfl, rfl⟩
    · exact .inl hk

theorem placeAndSettle_tracksOnly (cfg : GatewayConfig) (env : GatewayEnv) (intent : OrderIntent)
    (token : SignedApprovalToken) :
    Moves (TracksOnly cfg intent)
      (placeAndSettle cfg env intent token (clientOrderId cfg.sha256 intent)) := by
  have hedge : ∀ state event, Moves (TracksOnly cfg intent)
      (applyAndLedger env state event (clientOrderId cfg.sha256 intent)) :=
    fun state event => applyAndLedger_moves (fun _ _ => .of_eq rfl) env state event _
  have hjournal : ∀ ack, Moves (TracksOnly cfg intent)
      (walAppendAck cfg env (clientOrderId cfg.sha256 intent) ack) := by
    exact fun ack => Moves.ite
      (fun _ => walAppend_moves (fun _ => .of_eq rfl) fun _ => .of_eq rfl) fun _ => Moves.pure _
  have hclose : ∀ ack, Moves (TracksOnly cfg intent)
      (recordCloseFill cfg env intent (clientOrderId cfg.sha256 intent) ack) := fun ack =>
    recordCloseFill_moves (fun _ => record_moves (fun _ _ => .of_eq rfl) env _)
      (fun _ _ _ => .of_eq rfl) fun _ => .of_eq rfl
  have hplace : ∀ closing, Moves (TracksOnly cfg intent)
      (place cfg env intent token (clientOrderId cfg.sha256 intent) closing) := by
    refine fun closing => Moves.bind (Moves.modify fun w => .of_eq rfl) fun _ => ?_
    split
    · exact Moves.throw _
    · exact Moves.bind (Moves.modify fun w => .of_eq rfl) fun _ => Moves.pure _
    · exact Moves.bind (Moves.modify fun w => .of_eq rfl) fun _ => Moves.throw _
  refine Moves.bind (hplace _) fun ack => Moves.bind (hjournal ack) fun _ => ?_
  refine Moves.bind (Moves.modify fun w => .of_eq rfl) fun _ => ?_
  refine Moves.bind (trackIfResting_tracksOnly cfg env intent ack) fun _ => ?_
  refine Moves.bind (hedge _ _) fun _ => Moves.bind (hedge _ _) fun _ => ?_
  exact Moves.ite (fun _ => Moves.bind (hclose ack) fun _ => Moves.pure _) fun _ => Moves.pure _

/-- A venue that refuses leaves nothing tracked. -/
theorem placeAndSettle_refused (h : env.takes = false) (coid : String) (u : GatewayWorld) :
    (finalState ((placeAndSettle cfg env intent token coid).run u)).tracked = u.tracked := by
  rw [placeAndSettle, EStateM.run_bind, place, EStateM.run_bind, EStateM.run_modify]
  cases hplacement : env.placement with
  | refused text => rfl
  | acknowledged ack => simp [GatewayEnv.takes, hplacement] at h
  | takenThenRaised restingId text => simp [GatewayEnv.takes, hplacement] at h

/-- **A call tracks at most the order the venue took of it.** -/
theorem processIntent_tracks {k : String} {order : TrackedOrder}
    (hk : (finalState ((processIntent cfg env intent token).run w)).tracked.get? k = some order) :
    w.tracked.get? k = some order ∨
      (Places cfg env intent token w ∧ env.takes = true) ∧ ProfileOf cfg intent k order := by
  by_cases hplaces : Places cfg env intent token w
  · have hplacing := placing_eq tracked_ignoresCalls cfg intent token w
    rw [processIntent_of_places hplaces] at hk
    cases htakes : env.takes with
    | false =>
        rw [placeAndSettle_refused htakes, hplacing] at hk
        exact .inl hk
    | true =>
        rcases placeAndSettle_tracksOnly cfg env intent token _ k order hk with hold | hnew
        · rw [hplacing] at hold
          exact .inl hold
        · exact .inr ⟨⟨hplaces, rfl⟩, hnew⟩
  · rw [processIntent_of_not_places tracked_ignoresCalls hplaces] at hk
    exact .inl hk

theorem inflightFor_of_latches {w w' : GatewayWorld} (h : w'.latches = w.latches)
    (ticker : String) : inflightFor w' ticker = inflightFor w ticker := by
  have hinflight : w'.inflightClosing = w.inflightClosing := congrArg (·.2.2) h
  rw [inflightFor, inflightFor, hinflight]

/-- What booking a close adds to the closes in flight. -/
theorem processIntent_inflight_of_books {ack : SubmissionAck}
    (h : Books cfg env intent token w ack) (ticker : String) :
    inflightFor (finalState ((processIntent cfg env intent token).run w)) ticker =
      inflightFor w ticker + if ticker = intent.marketTicker then intent.size.value else 0 := by
  have hbooked : inflightFor (w.booked intent) ticker =
      inflightFor w ticker + if ticker = intent.marketTicker then intent.size.value else 0 := by
    rw [GatewayWorld.booked, inflightFor_withInflight]
    split
    · rename_i hmine
      rw [hmine]
    · omega
  rw [← hbooked]
  rcases processIntent_latches_of_books h with ⟨-, hlatches⟩ | ⟨-, hlatches⟩
  · exact inflightFor_of_latches (w := (w.booked intent).latchedHalted) hlatches ticker
  · exact inflightFor_of_latches hlatches ticker

theorem processIntent_inflight_of_not_books (h : ∀ ack, ¬ Books cfg env intent token w ack)
    (ticker : String) :
    inflightFor (finalState ((processIntent cfg env intent token).run w)) ticker =
      inflightFor w ticker :=
  inflightFor_of_latches (processIntent_latches_of_not_books h) ticker

end Call

/-- **A close that adds to the closes in flight what it may fill** keeps them ahead. -/
theorem ClosesCovered.withClose {held : String → String → ℤ} {s : ClosingState} (h : ClosesCovered held s)
    {w' : GatewayWorld} {c : VenueClose} {d : ℤ} (hbookkept : Bookkept w')
    (hkeyed : ∀ k order, w'.tracked.get? k = some order → order.orderId = k)
    (htracked : ∀ k order, w'.tracked.get? k = some order →
      s.gateway.tracked.get? k = some order ∨
        (order.clientOrderId = c.clientOrderId ∧ order.ticker = c.ticker ∧ order.sizeCentis = c.size))
    (hinflight : ∀ ticker, inflightFor w' ticker =
      inflightFor s.gateway ticker + if ticker = c.ticker then d else 0)
    (hlive : c.retired = false) (hbounded : 0 ≤ c.filled ∧ c.filled ≤ max c.size 0)
    (hsided : 0 < c.size → c.side = "yes") (hcovers : max c.size 0 ≤ d)
    (hroom : sumWhere (On c.ticker) liveSize s.closes + sumWhere (On c.ticker) retiredFill s.closes +
      max c.size 0 ≤ held c.ticker "yes") :
    ClosesCovered held ⟨w', s.closes ++ [c]⟩ := by
  have hnew : liveSize c = max c.size 0 := by
    rw [liveSize, hlive, if_neg Bool.false_ne_true]
  have hspent : retiredFill c = 0 := by
    rw [retiredFill, hlive, if_neg Bool.false_ne_true]
  refine ⟨hbookkept, fun b hb => ?_, fun b hb => ?_, hkeyed, fun k order hk hclosing hpos => ?_,
    fun ticker => ?_, fun ticker => ?_⟩
  · rcases List.mem_append.mp hb with hb | hb
    · exact h.bounded b hb
    · rw [List.mem_singleton.mp hb]
      exact hbounded
  · rcases List.mem_append.mp hb with hb | hb
    · exact h.sided b hb
    · rw [List.mem_singleton.mp hb]
      exact hsided
  · rcases htracked k order hk with hold | ⟨hcoid, hticker, hsize⟩
    · obtain ⟨b, hb, hlink⟩ := h.tracked k order hold hclosing hpos
      exact ⟨b, List.mem_append_left _ hb, hlink⟩
    · exact ⟨c, List.mem_append_right _ (List.mem_singleton.mpr rfl), hlive, hcoid.symm,
        hticker.symm, hsize.symm⟩
  · have hold := h.inflight ticker
    dsimp only
    rw [sumWhere_append, sumWhere_singleton, hinflight, hnew]
    by_cases hmine : ticker = c.ticker
    · rw [if_pos hmine.symm, if_pos hmine]
      omega
    · rw [if_neg fun h => hmine h.symm, if_neg hmine]
      omega
  · have hold := h.room ticker
    dsimp only
    rw [sumWhere_append, sumWhere_append, sumWhere_singleton, sumWhere_singleton, hnew, hspent]
    by_cases hmine : ticker = c.ticker
    · subst hmine
      rw [if_pos rfl, if_pos rfl]
      omega
    · rw [if_neg fun h => hmine h.symm, if_neg fun h => hmine h.symm]
      omega

/-- Of what a source reports that lags by live closes only, no more is left than is held on the
side that is closed, the retired fills taken off. -/
theorem ClosesCovered.reportedNet_le {held : String → String → ℤ}
    (hheld : ∀ ticker side, 0 ≤ held ticker side) {s : ClosingState} (h : ClosesCovered held s)
    {seen : VenueClose → ℤ} (hseen : Seen seen s.closes) (ticker : String) :
    reportedNet held seen s.closes ticker + sumWhere (On ticker) retiredFill s.closes ≤
      held ticker "yes" := by
  have hspent : sumWhere (On ticker) retiredFill s.closes ≤ sumWhere (On ticker) (onSide "yes" seen) s.closes := by
    refine sumWhere_le fun c hc _ => ?_
    have hbounded := h.bounded c hc
    obtain ⟨hlow, -, hdone⟩ := hseen c hc
    unfold retiredFill onSide
    split
    · rename_i hretired
      have hall := hdone hretired
      split
      · omega
      · rename_i hother
        have hsmall : ¬ 0 < c.size := fun hpos => hother (h.sided c hc hpos)
        omega
    · split <;> omega
  have hno : sumWhere (On ticker) (onSide "no" seen) s.closes ≤ held ticker "no" := by
    refine le_trans (sumWhere_le fun c hc _ => ?_) (h.filledOn_le hheld ticker "no")
    have hsaw := (hseen c hc).2.1
    unfold onSide
    split
    · exact hsaw
    · exact le_refl 0
  unfold reportedNet
  omega

/-- **Handing a close in** keeps the closes in flight ahead, unless it overcloses. -/
theorem covered_close {cfg : GatewayConfig} (hcfg : cfg.hasPositionSource = true)
    {held : String → String → ℤ} (hheld : ∀ ticker side, 0 ≤ held ticker side)
    {env : GatewayEnv} {order : ClosingIntent} {token : SignedApprovalToken} {unseen : ℤ}
    {s : ClosingState} (h : ClosesCovered held s)
    (hfilled : 0 ≤ filledAtOnce env unseen ∧
      filledAtOnce env unseen ≤ max order.intent.size.value 0)
    (hreported : ∀ positions, env.positions = .ok positions → ∃ seen, Seen seen s.closes ∧
      heldForTicker positions order.intent.marketTicker =
        reportedNet held seen s.closes order.intent.marketTicker)
    (hcovered : ¬ Uncovered cfg env order.intent token s.gateway) :
    ClosesCovered held (closingStep cfg s (.close env order token unseen)).2 := by
  have hbookkept := processIntent_bookkept cfg env order.intent token s.gateway h.bookkept
  have hkeyed : ∀ k tracked,
      (finalState ((processIntent cfg env order.intent token).run s.gateway)).tracked.get? k =
        some tracked → tracked.orderId = k := by
    intro k tracked hk
    rcases processIntent_tracks hk with hold | ⟨-, hprofile⟩
    · exact h.keyed k tracked hold
    · exact hprofile.1
  unfold closingStep
  dsimp only
  rw [settle_snd]
  by_cases htaken : Places cfg env order.intent token s.gateway ∧ env.takes = true
  · obtain ⟨hplaces, htakes⟩ := htaken
    rw [if_pos (processIntent_accepted_grows.mpr ⟨hplaces, htakes⟩)]
    have hadds : ∃ d, max order.intent.size.value 0 ≤ d ∧ ∀ ticker,
        inflightFor
          (finalState ((processIntent cfg env order.intent token).run s.gateway)) ticker =
            inflightFor s.gateway ticker + if ticker = order.intent.marketTicker then d else 0 := by
      by_cases hbooks : ∃ ack, Books cfg env order.intent token s.gateway ack
      · have hnonneg : ¬ order.intent.size.value < 0 := fun hneg =>
          hcovered ⟨hplaces, htakes, .inl ⟨hneg, hbooks⟩⟩
        obtain ⟨ack, hbooks⟩ := hbooks
        exact ⟨order.intent.size.value, by omega, processIntent_inflight_of_books hbooks⟩
      · have hsmall : ¬ 0 < order.intent.size.value := fun hpos =>
          hcovered ⟨hplaces, htakes, .inr ⟨hpos, .inr hbooks⟩⟩
        refine ⟨0, by omega, fun ticker => ?_⟩
        rw [processIntent_inflight_of_not_books fun ack hack => hbooks ⟨ack, hack⟩]
        simp
    obtain ⟨d, hcovers, hinflight⟩ := hadds
    refine h.withClose (c := venueClose cfg env order.intent unseen) hbookkept hkeyed
      (fun k tracked hk => ?_) hinflight rfl hfilled (fun hpos => ?_) hcovers ?_
    · rcases processIntent_tracks hk with hold | ⟨-, -, hprofile⟩
      · exact .inl hold
      · exact .inr hprofile
    · by_contra hside
      exact hcovered ⟨hplaces, htakes, .inr ⟨hpos, .inl hside⟩⟩
    · change sumWhere (On order.intent.marketTicker) liveSize s.closes +
        sumWhere (On order.intent.marketTicker) retiredFill s.closes +
          max order.intent.size.value 0 ≤ held order.intent.marketTicker "yes"
      have hroom := h.room order.intent.marketTicker
      by_cases hpos : 0 < order.intent.size.value
      · obtain ⟨positions, hpositions, hadmits⟩ :=
          hplaces.verified.passes.closeFits hplaces.fresh hcfg order.closing
        obtain ⟨seen, hseen, hnet⟩ := hreported positions hpositions
        have hfits := inflight_le_held hadmits hpos
        have hleft := h.reportedNet_le hheld hseen order.intent.marketTicker
        have hlive := h.inflight order.intent.marketTicker
        dsimp only [positionSnapshot] at hfits
        omega
      · omega
  · rw [if_neg fun hgrows => htaken (processIntent_accepted_grows.mp hgrows), List.append_nil]
    have hnone : ∀ ack, ¬ Books cfg env order.intent token s.gateway ack := fun ack hbooks =>
      htaken ⟨hbooks.places, by rw [GatewayEnv.takes, hbooks.acknowledged]⟩
    refine ⟨hbookkept, h.bounded, h.sided, hkeyed, fun k tracked hk => ?_, fun ticker => ?_, h.room⟩
    · rcases processIntent_tracks hk with hold | ⟨htaken', -⟩
      · exact h.tracked k tracked hold
      · exact absurd htaken' htaken
    · rw [processIntent_inflight_of_not_books hnone]
      exact h.inflight ticker

/-! ## Runs -/

/-- **No step that does not overclose** lets the closes in flight fall behind. -/
theorem closingStep_covered {cfg : GatewayConfig} (hcfg : cfg.hasPositionSource = true)
    {held : String → String → ℤ} (hheld : ∀ ticker side, 0 ≤ held ticker side)
    {s : ClosingState} {op : ClosingOp} (h : ClosesCovered held s)
    (hhonest : Honest held ⟨s, op, (closingStep cfg s op).1, (closingStep cfg s op).2⟩)
    (hcovered : ¬ Overcloses cfg ⟨s, op, (closingStep cfg s op).1, (closingStep cfg s op).2⟩) :
    ClosesCovered held (closingStep cfg s op).2 := by
  cases op with
  | close env order token unseen =>
      exact covered_close hcfg hheld h hhonest.1 hhonest.2 fun huncovered =>
        hcovered ⟨env, order, token, unseen, rfl, huncovered⟩
  | fill amount => exact covered_fill h hhonest
  | retire orderId =>
      unfold closingStep
      dsimp only
      cases hk : s.gateway.tracked.get? orderId with
      | none => exact h
      | some order => exact covered_retire h hk

/-- **No more is closed than was held**, as long as no step overcloses. -/
theorem closes_within_held {cfg : GatewayConfig} (hcfg : cfg.hasPositionSource = true)
    {held : String → String → ℤ} (hheld : ∀ ticker side, 0 ≤ held ticker side)
    {w : GatewayWorld} (hw : NothingClosing w) {ops : List ClosingOp}
    (hhonest : ∀ t ∈ trace (closingStep cfg) ⟨w, []⟩ ops, Honest held t)
    (hcovered : ∀ t ∈ trace (closingStep cfg) ⟨w, []⟩ ops, ¬ Overcloses cfg t) :
    ∀ t ∈ trace (closingStep cfg) ⟨w, []⟩ ops, ∀ ticker side,
      filledOn ticker side t.post.closes ≤ held ticker side := by
  intro t ht ticker side
  have hpost : ClosesCovered held t.post :=
    trace_post_of_guard (I := fun s : ClosingState => ClosesCovered held s)
      (G := fun t : ClosingTransition => Honest held t ∧ ¬ Overcloses cfg t)
      (fun s op hs hop => closingStep_covered hcfg hheld hs hop.1 hop.2) (covered_start hheld hw)
      (fun t ht => ⟨hhonest t ht, hcovered t ht⟩) t ht
  exact hpost.filledOn_le hheld ticker side

/-! ## Samples -/

/-- Digests that tell messages of different lengths apart. -/
def lengthGateway : GatewayConfig :=
  { sampleGateway with
    sha256 := fun bytes => s!"{bytes.length}"
    hmac := ⟨fun _ bytes => List.replicate 31 0 ++ [UInt8.ofNat bytes.length], fun _ _ => by simp⟩ }

/-- A close of the sample market. -/
def sampleClose (size : ℤ) : ClosingIntent where
  intent := { sampleIntent with action := "sell_to_close", size := ⟨size⟩ }
  closing := rfl

def closeToken (size : ℤ) : SignedApprovalToken :=
  let claims := { sampleClaims 1 with action := "sell_to_close", countCentis := ⟨size⟩ }
  ⟨claims, Hex.hex
    (lengthGateway.hmac.digest lengthGateway.verificationKey (canonicalClaimsBytes claims))⟩

/-- Ten contracts are reported held, and an order rests. -/
def restingEnv (orderId : String) : GatewayEnv :=
  { quietEnv with
    positions := .ok [⟨"PRES-2028-DEM", ⟨1000⟩⟩]
    positionsAfterFill := .ok [⟨"PRES-2028-DEM", ⟨1000⟩⟩]
    placement := .acknowledged ⟨some orderId, ⟨0⟩⟩ }

def handIn (orderId : String) (size : ℤ) : ClosingOp :=
  .close (restingEnv orderId) (sampleClose size) (closeToken size) 0

/-- Ten contracts of YES are held. -/
def sampleHeld (ticker side : String) : ℤ :=
  if ticker = "PRES-2028-DEM" ∧ side = "yes" then 1000 else 0

theorem sampleHeld_nonneg (ticker side : String) : 0 ≤ sampleHeld ticker side := by
  unfold sampleHeld
  split <;> omega

/-- A gateway that accepts approvals, over nothing. -/
def openedGateway : GatewayWorld := (GatewayWorld.fresh lengthGateway).opened

theorem openedGateway_nothingClosing : NothingClosing openedGateway where
  bookkept := (fresh_bookkept lengthGateway).of_eq rfl rfl rfl rfl
  tracked := rfl
  inflight := rfl

/-- The source reports what is held as long as nothing has filled. -/
theorem handIn_honest {s : ClosingState} (h : ∀ c ∈ s.closes, c.filled = 0 ∧ c.retired = false)
    (orderId : String) (size : ℤ) :
    Honest sampleHeld (transition (closingStep lengthGateway) s (handIn orderId size)) := by
  refine ⟨⟨le_refl 0, le_max_right _ _⟩, ?_⟩
  rintro positions ⟨⟩
  refine ⟨fun _ => 0, fun c hc => ?_, ?_⟩
  · obtain ⟨hfilled, hlive⟩ := h c hc
    have hlive' : (transition (closingStep lengthGateway) s (handIn orderId size)).pre = s := rfl
    rw [hfilled, hlive]
    exact ⟨le_refl 0, le_refl 0, fun hretired => absurd hretired Bool.false_ne_true⟩
  · have hnone : ∀ side, sumWhere (On "PRES-2028-DEM") (onSide side fun _ => 0) s.closes = 0 := by
      simp [sumWhere, onSide]
    have hreported : reportedNet sampleHeld (fun _ => 0) s.closes "PRES-2028-DEM" = 1000 := by
      rw [reportedNet, hnone, hnone]
      rfl
    exact hreported.symm

/-- A close of what is held is handed in, rests and fills. -/
def closeHeld : List ClosingOp := [handIn "order-1" 1000, .fill fun c => c.size - c.filled]

theorem closeHeld_books :
    Books lengthGateway (restingEnv "order-1") (sampleClose 1000).intent (closeToken 1000)
      openedGateway ⟨some "order-1", ⟨0⟩⟩ where
  places :=
    { verified :=
        { passes :=
            { running := rfl
              accepting := rfl
              status := fun _ _ => rfl
              closeFits := fun _ _ _ => ⟨_, rfl, by decide⟩ }
          verdict := by decide +kernel }
      fresh := List.not_mem_nil
      prepared := ⟨fun _ => rfl, rfl, rfl⟩ }
  closing := rfl
  acknowledged := rfl
  settled := ⟨fun _ => rfl, fun _ => ⟨"yes", rfl⟩, rfl, rfl⟩

theorem closeHeld_within_held :
    lengthGateway.hasPositionSource = true ∧
      ∀ t ∈ trace (closingStep lengthGateway) ⟨openedGateway, []⟩ closeHeld, ∀ ticker side,
        filledOn ticker side t.post.closes ≤ sampleHeld ticker side := by
  have hfills : ∀ c ∈ (closingStep lengthGateway ⟨openedGateway, []⟩ (handIn "order-1" 1000)).2.closes,
      0 ≤ c.size - c.filled ∧ c.filled + (c.size - c.filled) ≤ max c.size 0 ∧
        (c.retired = true → c.size - c.filled = 0) := by
    decide +kernel
  refine ⟨rfl, closes_within_held rfl sampleHeld_nonneg openedGateway_nothingClosing
    (fun t ht => ?_) fun t ht => ?_⟩
  · rcases List.mem_cons.mp ht with rfl | ht
    · exact handIn_honest (fun c hc => absurd hc List.not_mem_nil) "order-1" 1000
    · rcases List.mem_cons.mp ht with rfl | ht
      · exact hfills
      · exact absurd ht List.not_mem_nil
  · rcases List.mem_cons.mp ht with rfl | ht
    · rintro ⟨env, order, token, unseen, ⟨⟩, huncovered⟩
      rcases huncovered.amiss with ⟨hneg, -⟩ | ⟨-, hside | hbooks⟩
      · exact absurd hneg (by decide)
      · exact hside rfl
      · exact hbooks ⟨_, closeHeld_books⟩
    · rcases List.mem_cons.mp ht with rfl | ht
      · rintro ⟨env, order, token, unseen, ⟨⟩, -⟩
      · exact absurd ht List.not_mem_nil

/-- A close of a negative size widens what the next one may close. -/
def closeBelowZero : List ClosingOp :=
  [handIn "order-1" (-1000), handIn "order-2" 2000, .fill fun c => max c.size 0]

/-- Both closes are taken, and neither fills at once. -/
theorem closeBelowZero_closes :
    (closingStep lengthGateway ⟨openedGateway, []⟩ (handIn "order-1" (-1000))).2.closes =
        [⟨"209", "PRES-2028-DEM", "yes", -1000, 0, false⟩] ∧
      (run (closingStep lengthGateway) ⟨openedGateway, []⟩
        [handIn "order-1" (-1000), handIn "order-2" 2000]).closes =
        [⟨"209", "PRES-2028-DEM", "yes", -1000, 0, false⟩,
          ⟨"208", "PRES-2028-DEM", "yes", 2000, 0, false⟩] := by
  decide +kernel

theorem closeBelowZero_honest :
    ∀ t ∈ trace (closingStep lengthGateway) ⟨openedGateway, []⟩ closeBelowZero,
      Honest sampleHeld t := by
  intro t ht
  rcases List.mem_cons.mp ht with rfl | ht
  · exact handIn_honest (fun c hc => absurd hc List.not_mem_nil) "order-1" (-1000)
  · rcases List.mem_cons.mp ht with rfl | ht
    · refine handIn_honest ?_ "order-2" 2000
      rw [closeBelowZero_closes.1]
      decide
    · rcases List.mem_cons.mp ht with rfl | ht
      · have hfills : ∀ c ∈ (run (closingStep lengthGateway) ⟨openedGateway, []⟩
            [handIn "order-1" (-1000), handIn "order-2" 2000]).closes,
            0 ≤ max c.size 0 ∧ c.filled + max c.size 0 ≤ max c.size 0 ∧
              (c.retired = true → max c.size 0 = 0) := by
          rw [closeBelowZero_closes.2]
          decide
        exact hfills
      · exact absurd ht List.not_mem_nil

/-- Twice what is held is closed. -/
theorem negative_close_oversells :
    ¬ ∀ (cfg : GatewayConfig), cfg.hasPositionSource = true →
      ∀ held : String → String → ℤ, (∀ ticker side, 0 ≤ held ticker side) →
        ∀ w, NothingClosing w → ∀ ops,
          (∀ t ∈ trace (closingStep cfg) ⟨w, []⟩ ops, Honest held t) →
            ∀ t ∈ trace (closingStep cfg) ⟨w, []⟩ ops, ∀ ticker side,
              filledOn ticker side t.post.closes ≤ held ticker side := by
  intro h
  let s := run (closingStep lengthGateway) ⟨openedGateway, []⟩
    [handIn "order-1" (-1000), handIn "order-2" 2000]
  let t := transition (closingStep lengthGateway) s (.fill fun c => max c.size 0)
  have hwithin : filledOn "PRES-2028-DEM" "yes" t.post.closes ≤ 1000 :=
    h lengthGateway rfl sampleHeld sampleHeld_nonneg openedGateway openedGateway_nothingClosing
      closeBelowZero closeBelowZero_honest t
      (mem_trace.mpr ⟨[handIn "order-1" (-1000), handIn "order-2" 2000], [], rfl, rfl⟩)
      "PRES-2028-DEM" "yes"
  have hfilled : t.post.closes = s.closes.map (.filling fun c => max c.size 0) :=
    closingStep_fill lengthGateway s _
  have hcloses : s.closes = [⟨"209", "PRES-2028-DEM", "yes", -1000, 0, false⟩,
    ⟨"208", "PRES-2028-DEM", "yes", 2000, 0, false⟩] := closeBelowZero_closes.2
  rw [hfilled, hcloses] at hwithin
  exact absurd hwithin (by decide)

end OrderGateway

end Windbreak
