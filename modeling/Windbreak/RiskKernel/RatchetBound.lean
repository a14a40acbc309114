import Windbreak.Numeric.Rounding
import Windbreak.RiskKernel.FloorFalls

/-!
# How far the ratchet lifts the floor

A fresh high lifts the floor by a share of the gain since the last one, and the first gain is counted
from a high-water mark of zero.  So the ratchet never widens what the floor stands above the mark by:
a floor at or below the mark stays at or below the equity that lifts it, and so does one above it when
the first high covers it and its share.

* **`observeEquity_observed`** — what an observation does to floor and mark, whoever raises.
* **`ratchet_within_equity`** — what every run of observations and raises does.
-/

namespace Windbreak

open Machine Effects

variable {cfg : GovernanceConfig} {w : GovernanceWorld}

/-- The share of a gain lies between nothing and the gain. -/
theorem ppmOf_bounds {gain ppm : ℤ} (hgain : 0 ≤ gain) (hshare : 0 ≤ ppm) (hfull : ppm ≤ 1000000) :
    0 ≤ ppmOf gain ppm ∧ ppmOf gain ppm ≤ gain := by
  have hdenominator : (0 : ℤ) < 1000000 := by omega
  rw [ppmOf, quotient_understate hdenominator]
  exact share_bounds hdenominator hgain hshare hfull

/-! ## One observation -/

/-- The floor is left alone, or lifted by the share of a gain. -/
def Lifted (cfg : GovernanceConfig) (g : FloorGovernance) (gain : ℤ) (g' : FloorGovernance) : Prop :=
  g'.floor = g.floor ∨ g'.floor.value = g.floor.value + ppmOf gain cfg.ratchetPpm

theorem recordGovernance_ensures {P : FloorGovernance → Prop} (env : GovernanceEnv)
    (event : Event) : Ensures (fun w => P w.governance) (recordGovernance env event)
      (fun _ w => P w.governance) fun w => P w.governance :=
  .ite (fun _ => .throw fun _ h => h) fun _ => .modify fun _ h => h

theorem maybeAdviseProfitSweep_ensures {P : FloorGovernance → Prop} (cfg : GovernanceConfig)
    (env : GovernanceEnv) (gain : MoneyMicros) :
    Ensures (fun w => P w.governance) (maybeAdviseProfitSweep cfg env gain)
      (fun _ w => P w.governance) fun w => P w.governance :=
  .ite (fun _ => .ite (fun _ => .throw fun _ h => h) fun _ => .modify fun _ h => h)
    fun _ => .pure fun _ h => h

theorem maybeRatchet_ensures (env : GovernanceEnv) (g : FloorGovernance) (gain : MoneyMicros) :
    Ensures (fun w => w.governance = g) (maybeRatchet cfg env gain)
      (fun _ w => Lifted cfg g gain.value w.governance)
      fun w => Lifted cfg g gain.value w.governance := by
  refine .get_bind fun w hw => .ite (fun _ => .pure fun v hv => ?_) fun _ => ?_
  · rw [hv, hw]
    exact .inl rfl
  · refine .bind (Q := fun _ v => Lifted cfg g gain.value v.governance) (.modify fun v hv => ?_)
      fun _ => recordGovernance_ensures (P := Lifted cfg g gain.value) env _
    have hfloor : (v.withGovernance (v.governance.withFloor
        (w.governance.floor + ⟨ppmOf gain.value cfg.ratchetPpm⟩))).governance.floor.value =
          w.governance.floor.value + ppmOf gain.value cfg.ratchetPpm := rfl
    refine .inr ?_
    rw [hfloor, hw]

/-- The gain of an observation over the mark; below the mark there is none. -/
def freshGain (g : FloorGovernance) (equity : MoneyMicros) : ℤ :=
  max (equity.value - g.highWaterMark.value) 0

/-- **An observation** lifts the floor by nothing or by the share of the gain, and if nothing raises the
mark ends at the highest equity. -/
theorem observeEquity_ensures (env : GovernanceEnv) (g : FloorGovernance) (equity : MoneyMicros) :
    Ensures (fun w => w.governance = g) (observeEquity cfg env equity)
      (fun _ w => Lifted cfg g (freshGain g equity) w.governance ∧
        w.governance.highWaterMark.value = max g.highWaterMark.value equity.value)
      fun w => Lifted cfg g (freshGain g equity) w.governance := by
  refine .get_bind fun w hw => .ite (fun hle => .pure fun v hv => ?_) fun hlt => ?_
  · have hle' : equity.value ≤ g.highWaterMark.value := hw ▸ hle
    rw [hv, hw, max_eq_left hle']
    exact ⟨.inl rfl, rfl⟩
  · have hlt' : g.highWaterMark.value < equity.value := hw ▸ Int.not_le.mp hlt
    have hgain : (equity - w.governance.highWaterMark).value = freshGain g equity := by
      rw [freshGain, max_eq_left (by omega), ← hw]
      rfl
    refine .bind (Q := fun _ v => v.governance = g)
      ((maybeAdviseProfitSweep_ensures (P := fun g' => g' = g) cfg env _).mono
        (fun v hv => hv ▸ hw) (fun _ _ h => h) fun v hv => ?_) fun _ => ?_
    · rw [hv]
      exact .inl rfl
    · refine .bind (hgain ▸ maybeRatchet_ensures env g _) fun _ => ?_
      refine .bind (recordGovernance_ensures (P := Lifted cfg g (freshGain g equity)) env _) fun _ =>
        .modify fun v hv => ⟨hv, ?_⟩
      rw [max_eq_right hlt'.le]
      rfl

/-! ## Every run -/

/-- A transition that observes an equity while nothing raises, or raises the floor no higher than the
mark. -/
def KeepsWithinMark (t : GovernanceTransition) : Prop :=
  (∃ equity, t.input.op = .observeEquity equity ∧ t.output = none) ∨
    ∃ newFloor origin, t.input.op = .raiseFloor newFloor origin ∧
      newFloor ≤ t.pre.governance.highWaterMark

/-- The floor stands at or below the mark. -/
def WithinMark (w : GovernanceWorld) : Prop := w.governance.floor ≤ w.governance.highWaterMark

/-- What an observation does to the floor and the mark. -/
structure RatchetStep (cfg : GovernanceConfig) (t : GovernanceTransition) (equity : MoneyMicros) :
    Prop where
  lifted : Lifted cfg t.pre.governance (freshGain t.pre.governance equity) t.post.governance
  rises : t.pre.governance.floor ≤ t.post.governance.floor
  gain : t.post.governance.floor.value ≤
    t.pre.governance.floor.value + freshGain t.pre.governance equity
  within : t.pre.governance.floor ≤ t.pre.governance.highWaterMark →
    t.post.governance.floor ≠ t.pre.governance.floor → t.post.governance.floor ≤ equity
  mark : t.output = none → t.post.governance.highWaterMark.value =
    max t.pre.governance.highWaterMark.value equity.value

theorem observeEquity_ratchet (hshare : 0 ≤ cfg.ratchetPpm) (hfull : cfg.ratchetPpm ≤ 1000000)
    (w : GovernanceWorld) (env : GovernanceEnv) (equity : MoneyMicros) :
    RatchetStep cfg (transition (governanceStep cfg) w ⟨env, .observeEquity equity⟩) equity := by
  have hstep : governanceStep cfg w ⟨env, .observeEquity equity⟩ =
      settle ((observeEquity cfg env equity).run w) := rfl
  have hensures := @observeEquity_ensures cfg env w.governance equity
  have hlifted : Lifted cfg w.governance (freshGain w.governance equity)
      (governanceStep cfg w ⟨env, .observeEquity equity⟩).2.governance := by
    rw [hstep, settle_snd]
    exact (hensures.mono (fun _ h => h) (fun _ _ h => h.1) fun _ h => h).finalState
      (I := fun v : GovernanceWorld =>
        Lifted cfg w.governance (freshGain w.governance equity) v.governance) rfl
  have hfresh : 0 ≤ freshGain w.governance equity := le_max_right _ _
  obtain ⟨hnonneg, hle⟩ := ppmOf_bounds hfresh hshare hfull
  have hbounds : w.governance.floor.value ≤
        (governanceStep cfg w ⟨env, .observeEquity equity⟩).2.governance.floor.value ∧
      (governanceStep cfg w ⟨env, .observeEquity equity⟩).2.governance.floor.value ≤
        w.governance.floor.value + freshGain w.governance equity := by
    rcases hlifted with hsame | hshared
    · rw [hsame]
      omega
    · omega
  refine ⟨hlifted, hbounds.1, hbounds.2, fun hwithin hmoved => ?_, fun hquiet => ?_⟩
  · have hwithin' : w.governance.floor.value ≤ w.governance.highWaterMark.value := hwithin
    have hmoved' : (governanceStep cfg w ⟨env, .observeEquity equity⟩).2.governance.floor.value ≠
        w.governance.floor.value := fun hsame => hmoved (congrArg IntUnit.mk hsame)
    change (governanceStep cfg w ⟨env, .observeEquity equity⟩).2.governance.floor.value ≤
      equity.value
    rw [freshGain] at hbounds
    omega
  · change (governanceStep cfg w ⟨env, .observeEquity equity⟩).1 = none at hquiet
    change (governanceStep cfg w ⟨env, .observeEquity equity⟩).2.governance.highWaterMark.value = _
    rw [hstep] at hquiet ⊢
    cases hrun : (observeEquity cfg env equity).run w with
    | ok a v => exact ((hensures w rfl).1 a v hrun).2
    | error e v =>
        rw [hrun] at hquiet
        cases hquiet

theorem withinMark_step (hshare : 0 ≤ cfg.ratchetPpm) (hfull : cfg.ratchetPpm ≤ 1000000)
    (w : GovernanceWorld) (i : GovernanceInput) (hw : WithinMark w)
    (hkeeps : KeepsWithinMark (transition (governanceStep cfg) w i)) :
    WithinMark (governanceStep cfg w i).2 := by
  have hw' : w.governance.floor.value ≤ w.governance.highWaterMark.value := hw
  obtain ⟨env, op⟩ := i
  rcases hkeeps with ⟨equity, hop, hquiet⟩ | ⟨newFloor, origin, hop, hle⟩
  · cases hop
    have hratchet := observeEquity_ratchet hshare hfull w env equity
    have hgain := hratchet.gain
    have hmark := hratchet.mark hquiet
    rw [freshGain] at hgain
    change (transition (governanceStep cfg) w ⟨env, .observeEquity equity⟩).post.governance.floor.value
      ≤ (transition (governanceStep cfg) w
        ⟨env, .observeEquity equity⟩).post.governance.highWaterMark.value
    have hpre : (transition (governanceStep cfg) w ⟨env, .observeEquity equity⟩).pre = w := rfl
    rw [hpre] at hgain hmark
    omega
  · cases hop
    have hstep : governanceStep cfg w ⟨env, .raiseFloor newFloor origin⟩ =
        settle ((raiseFloor env newFloor origin).run w) := rfl
    rw [hstep, raiseFloor_run]
    by_cases hlow : newFloor ≤ w.governance.floor
    · rw [if_pos hlow]
      exact hw
    · rw [if_neg hlow]
      by_cases hraises : env.recordRaises (floorRaisedEvent w.governance.floor newFloor origin)
      · rw [if_pos hraises]
        exact hle
      · rw [if_neg hraises]
        exact hle

/-- The equity of an operation that observes one above a mark. -/
def highOver (mark : MoneyMicros) (i : GovernanceInput) : Option MoneyMicros :=
  match i.op with
  | .observeEquity equity => if mark < equity then some equity else none
  | _ => none

/-- The floor stands at or below the mark, or the first equity above the mark covers the floor and its
own share. -/
def Covered (cfg : GovernanceConfig) (g : FloorGovernance) (inputs : List GovernanceInput) : Prop :=
  g.floor ≤ g.highWaterMark ∨ ∀ equity, inputs.findSome? (highOver g.highWaterMark) = some equity →
    g.floor.value + ppmOf (equity.value - g.highWaterMark.value) cfg.ratchetPpm ≤ equity.value

theorem highOver_observeEquity (mark : MoneyMicros) (env : GovernanceEnv) (equity : MoneyMicros) :
    highOver mark ⟨env, .observeEquity equity⟩ = if mark < equity then some equity else none := rfl

section

variable (hshare : 0 ≤ cfg.ratchetPpm) (hfull : cfg.ratchetPpm ≤ 1000000)

include hshare hfull

/-- **The first high** lifts the floor to no more than the equity, if it covers the floor and its
share. -/
theorem firstHigh_covers {env : GovernanceEnv} {equity : MoneyMicros}
    (hhigh : w.governance.highWaterMark < equity)
    (hcovers : w.governance.floor.value +
      ppmOf (equity.value - w.governance.highWaterMark.value) cfg.ratchetPpm ≤ equity.value) :
    (governanceStep cfg w ⟨env, .observeEquity equity⟩).2.governance.floor ≤ equity := by
  have hhigh' : w.governance.highWaterMark.value < equity.value := hhigh
  have hgain : freshGain w.governance equity = equity.value - w.governance.highWaterMark.value :=
    max_eq_left (by omega)
  have hpositive : 0 ≤ equity.value - w.governance.highWaterMark.value := by omega
  have hnonneg := (ppmOf_bounds hpositive hshare hfull).1
  change (governanceStep cfg w ⟨env, .observeEquity equity⟩).2.governance.floor.value ≤ equity.value
  rcases (observeEquity_ratchet hshare hfull w env equity).lifted with hsame | hshared
  · change (governanceStep cfg w ⟨env, .observeEquity equity⟩).2.governance.floor =
      w.governance.floor at hsame
    rw [hsame]
    omega
  · change (governanceStep cfg w ⟨env, .observeEquity equity⟩).2.governance.floor.value =
      w.governance.floor.value + ppmOf (freshGain w.governance equity) cfg.ratchetPpm at hshared
    rw [hshared, hgain]
    exact hcovers

/-- **Up to the first high** neither floor nor mark moves. -/
theorem low_observation {env : GovernanceEnv} {equity : MoneyMicros}
    (hlow : ¬ w.governance.highWaterMark < equity)
    (hquiet : (governanceStep cfg w ⟨env, .observeEquity equity⟩).1 = none) :
    (governanceStep cfg w ⟨env, .observeEquity equity⟩).2.governance.floor = w.governance.floor ∧
      (governanceStep cfg w ⟨env, .observeEquity equity⟩).2.governance.highWaterMark =
        w.governance.highWaterMark := by
  have hlow' : equity.value ≤ w.governance.highWaterMark.value := Int.not_lt.mp hlow
  have hratchet := observeEquity_ratchet hshare hfull w env equity
  have hnone : freshGain w.governance equity = 0 := max_eq_right (by omega)
  have hrises : w.governance.floor.value ≤
    (governanceStep cfg w ⟨env, .observeEquity equity⟩).2.governance.floor.value := hratchet.rises
  have hgain : (governanceStep cfg w ⟨env, .observeEquity equity⟩).2.governance.floor.value ≤
    w.governance.floor.value + freshGain w.governance equity := hratchet.gain
  have hmark := hratchet.mark hquiet
  rw [hnone] at hgain
  exact ⟨IntUnit.ext (by omega), IntUnit.ext (hmark.trans (max_eq_left hlow'))⟩

/-- **One step** of a covered run: a floor that it lifts stands at or below the equity. -/
theorem covered_step (w : GovernanceWorld) (i : GovernanceInput) (rest : List GovernanceInput)
    (hw : Covered cfg w.governance (i :: rest))
    (hkeeps : KeepsWithinMark (transition (governanceStep cfg) w i)) :
    Covered cfg (governanceStep cfg w i).2.governance rest ∧ ∀ equity,
      i.op = .observeEquity equity →
      (governanceStep cfg w i).2.governance.floor ≠ w.governance.floor →
        (governanceStep cfg w i).2.governance.floor ≤ equity := by
  obtain ⟨env, op⟩ := i
  by_cases hwithin : WithinMark w
  · refine ⟨.inl (withinMark_step hshare hfull w _ hwithin hkeeps), fun equity hop hmoved => ?_⟩
    cases hop
    exact (observeEquity_ratchet hshare hfull w env equity).within hwithin hmoved
  have hcovers := hw.resolve_left hwithin
  rcases hkeeps with ⟨equity, hop, hquiet⟩ | ⟨newFloor, origin, hop, hle⟩
  · cases hop
    rw [List.findSome?_cons, highOver_observeEquity] at hcovers
    by_cases hhigh : w.governance.highWaterMark < equity
    · -- from here on the floor is within the mark
      rw [if_pos hhigh] at hcovers
      have hequity : (governanceStep cfg w ⟨env, .observeEquity equity⟩).2.governance.floor ≤ equity :=
        firstHigh_covers hshare hfull hhigh (hcovers equity rfl)
      have hmark := (observeEquity_ratchet hshare hfull w env equity).mark hquiet
      refine ⟨.inl (le_trans (show _ ≤ equity.value from hequity) ?_), fun other hop _ => ?_⟩
      · exact hmark ▸ le_max_right _ _
      · cases hop
        exact hequity
    · rw [if_neg hhigh] at hcovers
      obtain ⟨hfloor, hmark⟩ := low_observation hshare hfull hhigh hquiet
      refine ⟨.inr ?_, fun other _ hmoved => absurd hfloor hmoved⟩
      rw [hfloor, hmark]
      exact hcovers
  · cases hop
    have hlow : newFloor ≤ w.governance.floor :=
      le_trans (show newFloor.value ≤ _ from hle) (Int.not_le.mp hwithin).le
    have hsame : (governanceStep cfg w ⟨env, .raiseFloor newFloor origin⟩).2 = w := by
      have hstep : governanceStep cfg w ⟨env, .raiseFloor newFloor origin⟩ =
        settle ((raiseFloor env newFloor origin).run w) := rfl
      rw [hstep, raiseFloor_run, if_pos hlow]
      rfl
    rw [hsame]
    exact ⟨.inr fun first hfirst => hcovers first hfirst, fun other hop => by cases hop⟩

end

/-- **How far the ratchet lifts the floor.**  In every run, whatever it starts from, each observation
leaves the floor where it was, or lifts it by the share of the gain over the mark; if the floor stood at
or below the mark, it is lifted to no more than the equity.  So in a run that raises the floor no higher
than the mark, and starts with the floor at or below the mark or with a first high that covers the floor
and its share, no observation lifts the floor above the equity, nor above the mark. -/
theorem ratchet_within_equity (cfg : GovernanceConfig) (hshare : 0 ≤ cfg.ratchetPpm)
    (hfull : cfg.ratchetPpm ≤ 1000000) (start : GovernanceWorld) (inputs : List GovernanceInput) :
    (∀ t ∈ trace (governanceStep cfg) start inputs, ∀ equity,
        t.input.op = .observeEquity equity → RatchetStep cfg t equity) ∧
      ((∀ t ∈ trace (governanceStep cfg) start inputs, KeepsWithinMark t) →
        (Covered cfg start.governance inputs →
          ∀ t ∈ trace (governanceStep cfg) start inputs, ∀ equity,
            t.input.op = .observeEquity equity →
              t.post.governance.floor ≠ t.pre.governance.floor →
                t.post.governance.floor ≤ equity ∧ WithinMark t.post) ∧
        (WithinMark start →
          ∀ t ∈ trace (governanceStep cfg) start inputs, WithinMark t.post)) := by
  have hobserved : ∀ t ∈ trace (governanceStep cfg) start inputs,
      ∀ equity, t.input.op = .observeEquity equity → RatchetStep cfg t equity := by
    intro t ht equity hop
    obtain ⟨before, after, -, h⟩ := mem_trace.mp ht
    obtain ⟨pre, ⟨env, op⟩, output, post⟩ := t
    cases hop
    rw [h]
    exact observeEquity_ratchet hshare hfull _ env equity
  refine ⟨hobserved, fun hkeeps => ⟨fun hcovered => ?_, fun hwithin =>
    trace_post_of_guard (withinMark_step hshare hfull) hwithin hkeeps⟩⟩
  induction inputs generalizing start with
  | nil => exact fun t ht => absurd ht List.not_mem_nil
  | cons i rest ih =>
      rw [trace_cons, List.forall_mem_cons] at hkeeps hobserved ⊢
      obtain ⟨hnext, hfirst⟩ := covered_step hshare hfull start i rest hcovered hkeeps.1
      refine ⟨fun equity hop hmoved => ?_, ih _ hobserved.2 hkeeps.2 hnext⟩
      have hequity := hfirst equity hop hmoved
      refine ⟨hequity, ?_⟩
      have hquiet : (transition (governanceStep cfg) start i).output = none := by
        rcases hkeeps.1 with ⟨_, -, hquiet⟩ | ⟨newFloor, origin, hraise, -⟩
        · exact hquiet
        · cases hop.symm.trans hraise
      have hmark := (hobserved.1 equity hop).mark hquiet
      have hequity' : (transition (governanceStep cfg) start i).post.governance.floor.value ≤
        equity.value := hequity
      exact le_trans hequity' (hmark ▸ le_max_right _ _)

/-- Half of every gain is locked in. -/
def halfShare : GovernanceConfig := ⟨500000, ⟨1000000⟩, 172800⟩

/-- A first high, another one, and a raise to what it observed. -/
def raiseToEquity : List GovernanceInput :=
  [⟨quietGovernance 0 "", .observeEquity ⟨1000⟩⟩, ⟨quietGovernance 1 "", .observeEquity ⟨1010⟩⟩,
    ⟨quietGovernance 2 "", .raiseFloor ⟨1010⟩ .CLI⟩]

/-- A floor of half the first high is covered. -/
theorem ratchet_within_equity_raised :
    (run (governanceStep halfShare) (.fresh ⟨500⟩ researchMachine) raiseToEquity).governance =
        ⟨⟨1010⟩, ⟨1010⟩, none⟩ ∧
      ∀ t ∈ trace (governanceStep halfShare) (.fresh ⟨500⟩ researchMachine) raiseToEquity,
        ∀ equity, t.input.op = .observeEquity equity →
          t.post.governance.floor ≠ t.pre.governance.floor →
            t.post.governance.floor ≤ equity ∧ WithinMark t.post := by
  refine ⟨by decide +kernel, ((ratchet_within_equity halfShare (by decide) (by decide)
    (.fresh ⟨500⟩ researchMachine) raiseToEquity).2 ?_).1 (.inr ?_)⟩
  · unfold raiseToEquity
    simp only [trace_cons, List.forall_mem_cons]
    exact ⟨.inl ⟨⟨1000⟩, rfl, by decide +kernel⟩, .inl ⟨⟨1010⟩, rfl, by decide +kernel⟩,
      .inr ⟨⟨1010⟩, .CLI, rfl, by decide +kernel⟩, fun t ht => absurd ht List.not_mem_nil⟩
  · intro equity hfirst
    obtain rfl : (⟨1000⟩ : MoneyMicros) = equity := Option.some.inj hfirst
    decide

/-- **The first gain is counted from zero**, so a floor that was set before stands above the equity
that lifts it; so does a floor that was raised above the mark. -/
theorem ratchet_above_equity :
    (run (governanceStep halfShare) (.fresh ⟨900⟩ researchMachine)
        [⟨quietGovernance 0 "", .observeEquity ⟨1000⟩⟩]).governance = ⟨⟨1400⟩, ⟨1000⟩, none⟩ ∧
      (run (governanceStep halfShare) (.fresh ⟨0⟩ researchMachine)
        [⟨quietGovernance 0 "", .observeEquity ⟨1000⟩⟩,
          ⟨quietGovernance 1 "", .raiseFloor ⟨5000⟩ .CLI⟩,
          ⟨quietGovernance 2 "", .observeEquity ⟨1002⟩⟩]).governance = ⟨⟨5001⟩, ⟨1002⟩, none⟩ := by
  decide +kernel

end Windbreak
