import Windbreak.OrderGateway.CallEffects
import Windbreak.OrderGateway.GatewayRuns

/-!
# What a close may target

The venue reports a ticker in the frame of its YES side: a positive net is held YES, a negative one
held NO.  The gate before verification holds a close against that signed net, so a ticker that nets
to NO exposure admits no close at all, and one that nets to YES admits a YES close exactly up to
what is held and not yet being closed.

* `TargetsHeld` — a close of the outcome held, up to what is left of it.
* **`yes_close_targets_held`** — YES closes are admitted exactly when they target what is held.
* **`no_close_mistargeted`** — NO closes are not.
-/

namespace Windbreak

namespace OrderGateway

/-- The outcome that a signed net holds, and how much of it. -/
def heldOutcome (net : ℤ) : Option (String × ℤ) :=
  if 0 < net then some ("yes", net)
  else if net < 0 then some ("no", -net)
  else none

theorem heldOutcome_eq_some {net : ℤ} {outcome : String} {quantity : ℤ} :
    heldOutcome net = some (outcome, quantity) ↔
      0 < net ∧ outcome = "yes" ∧ quantity = net ∨
        net < 0 ∧ outcome = "no" ∧ quantity = -net := by
  unfold heldOutcome
  by_cases hyes : 0 < net
  · rw [if_pos hyes]
    simp [hyes, hyes.le, eq_comm]
  · rw [if_neg hyes]
    by_cases hno : net < 0
    · rw [if_pos hno]
      simp [hyes, hno, eq_comm]
    · rw [if_neg hno]
      simp [hyes, hno]

/-- A close of a positive size of the outcome that is held, within what is held and not yet being
closed. -/
def TargetsHeld (w : GatewayWorld) (positions : List Position) (intent : OrderIntent) : Prop :=
  ∃ quantity, heldOutcome (heldForTicker positions intent.marketTicker) =
      some (intent.outcome, quantity) ∧
    0 < intent.size.value ∧ intent.size.value ≤ quantity - inflightFor w intent.marketTicker

/-- The gate lets a close through to verification, and touches nothing. -/
def CloseAdmitted (cfg : GatewayConfig) (env : GatewayEnv) (intent : OrderIntent) (coid : String)
    (w : GatewayWorld) : Prop :=
  (reduceOnlyGate cfg env intent coid).run w = .ok none w

theorem closeAdmitted_iff {cfg : GatewayConfig} {env : GatewayEnv} {intent : OrderIntent}
    {coid : String} {w : GatewayWorld} {positions : List Position}
    (hsource : cfg.hasPositionSource = true) (hclosing : isClosingAction intent.action = true)
    (hread : env.positions = .ok positions) :
    CloseAdmitted cfg env intent coid w ↔ intent.size.value ≤
      max (heldForTicker positions intent.marketTicker - inflightFor w intent.marketTicker) 0 := by
  rw [CloseAdmitted, reduceOnlyGate_none]
  constructor
  · rintro ⟨-, hadmits⟩
    obtain ⟨reported, hreported, hfits⟩ := hadmits hsource hclosing
    cases hread.symm.trans hreported
    exact of_decide_eq_true hfits
  · intro hfits
    exact ⟨rfl, fun _ _ => ⟨positions, hread, decide_eq_true hfits⟩⟩

/-- **A close of the YES side** is admitted exactly when YES is held and the close fits into what is
held and not yet being closed.  Whatever outcome it names, a close is admitted only while the ticker
nets to YES, and only up to that net. -/
theorem yes_close_targets_held (cfg : GatewayConfig) (env : GatewayEnv) (intent : OrderIntent)
    (coid : String) (w : GatewayWorld) (positions : List Position)
    (hsource : cfg.hasPositionSource = true) (hclosing : isClosingAction intent.action = true)
    (hread : env.positions = .ok positions) (hsize : 0 < intent.size.value)
    (hinflight : 0 ≤ inflightFor w intent.marketTicker) :
    (intent.outcome = "yes" →
        (CloseAdmitted cfg env intent coid w ↔ TargetsHeld w positions intent)) ∧
      (CloseAdmitted cfg env intent coid w →
        0 < heldForTicker positions intent.marketTicker ∧
          intent.size.value ≤ heldForTicker positions intent.marketTicker -
            inflightFor w intent.marketTicker) := by
  have hadmitted : CloseAdmitted cfg env intent coid w →
      0 < heldForTicker positions intent.marketTicker ∧
        intent.size.value ≤ heldForTicker positions intent.marketTicker -
          inflightFor w intent.marketTicker := by
    intro h
    have hfits := (closeAdmitted_iff hsource hclosing hread).mp h
    omega
  refine ⟨fun hyes => ⟨fun h => ?_, fun h => ?_⟩, hadmitted⟩
  · obtain ⟨hheld, hfits⟩ := hadmitted h
    exact ⟨_, heldOutcome_eq_some.mpr (.inl ⟨hheld, hyes, rfl⟩), hsize, hfits⟩
  · obtain ⟨quantity, hheld, -, hfits⟩ := h
    rw [closeAdmitted_iff hsource hclosing hread]
    rcases heldOutcome_eq_some.mp hheld with ⟨-, -, hquantity⟩ | ⟨-, hno, -⟩
    · omega
    · rw [hyes] at hno
      exact absurd hno (by decide)

/-- The sample market, reported in one row. -/
def reportingEnv (quantity : ℤ) : GatewayEnv :=
  { quietEnv with positions := .ok [⟨"PRES-2028-DEM", ⟨quantity⟩⟩] }

/-- A close of half a contract of the sample market. -/
def halfClose (outcome : String) : OrderIntent :=
  { sampleIntent with outcome := outcome, action := "sell_to_close", size := ⟨50⟩ }

theorem yes_close_targets_held_sample :
    isClosingAction (halfClose "yes").action = true ∧
      (CloseAdmitted sampleGateway (reportingEnv 100) (halfClose "yes") "coid"
          (.fresh sampleGateway) ↔
        TargetsHeld (.fresh sampleGateway) [⟨"PRES-2028-DEM", ⟨100⟩⟩] (halfClose "yes")) :=
  ⟨rfl, (yes_close_targets_held sampleGateway (reportingEnv 100) (halfClose "yes") "coid"
    (.fresh sampleGateway) _ rfl rfl rfl (by decide) (by decide)).1 rfl⟩

/-- **A close of the NO side** is refused while NO is held, and admitted while YES is. -/
theorem no_close_mistargeted :
    (TargetsHeld (.fresh sampleGateway) [⟨"PRES-2028-DEM", ⟨-100⟩⟩] (halfClose "no") ∧
        ¬ CloseAdmitted sampleGateway (reportingEnv (-100)) (halfClose "no") "coid"
          (.fresh sampleGateway)) ∧
      ¬ TargetsHeld (.fresh sampleGateway) [⟨"PRES-2028-DEM", ⟨100⟩⟩] (halfClose "no") ∧
        CloseAdmitted sampleGateway (reportingEnv 100) (halfClose "no") "coid"
          (.fresh sampleGateway) := by
  refine ⟨⟨⟨100, by decide, by decide, by decide⟩, fun h => ?_⟩, fun h => ?_, ?_⟩
  · rw [closeAdmitted_iff rfl rfl rfl] at h
    exact absurd h (by decide)
  · obtain ⟨quantity, hheld, -⟩ := h
    rcases heldOutcome_eq_some.mp hheld with ⟨-, hyes, -⟩ | ⟨hneg, -⟩
    · exact absurd hyes (by decide)
    · exact absurd hneg (by decide)
  · rw [closeAdmitted_iff rfl rfl rfl]
    decide

end OrderGateway

end Windbreak
