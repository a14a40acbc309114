import Windbreak.Forecast.CanaryBlocks

/-!
# The provider canary battery

One spec for each provider: its observer is asked, the version it reports is gated, its answers are
scored and gated. The specs run one after the other, and whatever raises ends the battery.

* `runProviderCanaries` — the battery. The observer, the alerts and the ledger are outside, and each
  call of them may raise.
* `ProviderCanarySpec.raises`, `ProviderCanarySpec.registers` — what a spec does on its own: it ends
  the battery, and it registers a breach.
* `attempted` — the specs the battery gets to.
* **`battery_window`** — the windows after the battery.
* **`judged_alone_iff`** — when a provider that drifts ends blocked, and ends as it does in any other
  battery that has its spec.
-/

namespace Windbreak.CanaryBattery

/-! ## Specs -/

/-- A reference question. -/
structure CanaryQuestion where
  questionId : String
  referencePpm : ℤ
  named : questionId ≠ ""
  inRange : 0 ≤ referencePpm ∧ referencePpm ≤ 1000000

/-- What an observer does: it gives the answers and the version, or raises. -/
inductive Observed where
  | observation (observedPpm : OrderedDict String ℤ) (reportedVersion : String)
  | versionDriftError (reportedVersion : String) (pinnedVersions : List String)
  | otherError

/-- A provider's spec, with what its observer does and whether the alerts and the ledger take what
the gate hands them about its version and about its answers. -/
structure ProviderCanarySpec where
  provider : String
  questions : List CanaryQuestion
  pinnedVersions : List String
  observer : Observed
  versionSeams : CanarySeams
  answerSeams : CanarySeams

/-- The outcome of a provider's run. -/
inductive ProviderCanaryStatus where
  | ok
  | answerDrift
  | versionDrift
  deriving DecidableEq, Repr

structure ProviderCanaryVerdict where
  provider : String
  status : ProviderCanaryStatus
  driftScorePpm : ℤ
  worstQuestionId : String
  reportedVersion : String
  deriving DecidableEq, Repr

/-- What ends the battery: a call of the gate, an observer, or answers that cannot be scored. -/
inductive BatteryError where
  | gate (e : CanaryError)
  | observer
  | unscorable
  deriving DecidableEq, Repr

/-! ## Scoring -/

/-- The ids of the questions. -/
def questionIds (questions : List CanaryQuestion) : List String := questions.map (·.questionId)

/-- The distance of an answer from its reference. -/
def distanceOf (observedPpm : OrderedDict String ℤ) (question : CanaryQuestion) : ℤ :=
  |(observedPpm.get? question.questionId).getD 0 - question.referencePpm|

/-- The distances by question; of two questions with one id the last counts. -/
def distancesPpm (questions : List CanaryQuestion) (observedPpm : OrderedDict String ℤ) :
    OrderedDict String ℤ :=
  OrderedDict.ofList (questions.map fun q => (q.questionId, distanceOf observedPpm q))

/-- The answers are to exactly the questions. -/
def matchesQuestions (questions : List CanaryQuestion) (observedPpm : OrderedDict String ℤ) :
    Bool :=
  observedPpm.keys.all (· ∈ questionIds questions) &&
    (questionIds questions).all (· ∈ observedPpm.keys)

/-- `score_canary_run`; `none` is the `ValueError` of answers to other questions or of no question. -/
def scoreCanaryRun (questions : List CanaryQuestion) (observedPpm : OrderedDict String ℤ) :
    Option CanaryRunResult :=
  if matchesQuestions questions observedPpm then do
    let distances := distancesPpm questions observedPpm
    let driftScore ← distances.values.max?
    let worst ← distances.items.find? fun item => item.2 = driftScore
    return { driftScorePpm := driftScore, worstQuestionId := worst.1,
             questionCount := distances.items.length }
  else none

/-! ## The battery -/

/-- A run of the battery. -/
abbrev BatteryM := EStateM BatteryError CanaryWorld

/-- `_verdict_status`: the version takes priority. -/
def verdictStatus (versionDrifted answerDrifted : Bool) : ProviderCanaryStatus :=
  if versionDrifted then .versionDrift else if answerDrifted then .answerDrift else .ok

/-- A call of the gate inside the battery. -/
def gateCall {α : Type} (call : CanaryM α) : BatteryM α := EStateM.adaptExcept .gate call

/-- The answers scored, or the battery ended. -/
def scored (questions : List CanaryQuestion) (observedPpm : OrderedDict String ℤ) :
    BatteryM CanaryRunResult :=
  match scoreCanaryRun questions observedPpm with
  | some result => return result
  | none => throw .unscorable

/-- `_run_one_spec`. -/
def runOneSpec (checkedAt : Option ℤ) (spec : ProviderCanarySpec) :
    BatteryM ProviderCanaryVerdict :=
  match spec.observer with
  | .otherError => throw .observer
  | .versionDriftError reportedVersion pinnedVersions => do
    let _ ← gateCall (applyVersionDrift spec.provider reportedVersion pinnedVersions checkedAt
      spec.versionSeams)
    return { provider := spec.provider, status := .versionDrift, driftScorePpm := 0,
             worstQuestionId := "", reportedVersion }
  | .observation observedPpm reportedVersion => do
    let versionDrifted ← gateCall (applyVersionDrift spec.provider reportedVersion
      spec.pinnedVersions checkedAt spec.versionSeams)
    let result ← scored spec.questions observedPpm
    let answerDrifted ← gateCall (applyRun result checkedAt spec.answerSeams (some spec.provider))
    return { provider := spec.provider, status := verdictStatus versionDrifted answerDrifted,
             driftScorePpm := result.driftScorePpm, worstQuestionId := result.worstQuestionId,
             reportedVersion }

/-- `run_provider_canaries`. -/
def runProviderCanaries (checkedAt : Option ℤ) (specs : List ProviderCanarySpec) :
    BatteryM (List ProviderCanaryVerdict) :=
  specs.mapM (runOneSpec checkedAt)

/-- The gate after the battery has returned or raised. -/
def gateAfter (w : CanaryWorld) (checkedAt : Option ℤ) (specs : List ProviderCanarySpec) :
    CanaryGate :=
  (Effects.finalState ((runProviderCanaries checkedAt specs).run w)).gate

/-! ## What a spec does on its own -/

/-- Both the alert and the ledger take a breach. -/
def accepts (seams : CanarySeams) : Bool := seams.dispatches && seams.records

/-- The version a spec's observer reports is off the pinned set it is gated on. -/
def ProviderCanarySpec.offPin (spec : ProviderCanarySpec) : Bool :=
  match spec.observer with
  | .observation _ reportedVersion => reportedVersion ∉ spec.pinnedVersions
  | .versionDriftError reportedVersion pinnedVersions => reportedVersion ∉ pinnedVersions
  | .otherError => false

/-- There are questions, and answers to exactly these. -/
def ProviderCanarySpec.scorable (spec : ProviderCanarySpec) : Bool :=
  match spec.observer with
  | .observation observedPpm _ =>
    matchesQuestions spec.questions observedPpm && !spec.questions.isEmpty
  | _ => false

/-- A distance that counts is beyond the tolerance. -/
def ProviderCanarySpec.beyond (tolerance : ℤ) (spec : ProviderCanarySpec) : Bool :=
  match spec.observer with
  | .observation observedPpm _ =>
    (distancesPpm spec.questions observedPpm).values.any (tolerance < ·)
  | _ => false

/-- The gate gets past the version: it is pinned, or its breach is taken. -/
def ProviderCanarySpec.versionGated (spec : ProviderCanarySpec) : Bool :=
  !spec.offPin || accepts spec.versionSeams

/-- A spec registers a breach of its provider: its version is off the pinned set, or its answers are
beyond the tolerance, and the alert and the ledger take it. -/
def ProviderCanarySpec.registers (tolerance : ℤ) (spec : ProviderCanarySpec) : Bool :=
  (spec.offPin && accepts spec.versionSeams) ||
    (spec.versionGated && spec.scorable && spec.beyond tolerance && accepts spec.answerSeams)

/-- A spec's answers are gated: they have a score, and the ledger takes the run or the alert and the
ledger take its breach. -/
def ProviderCanarySpec.answersGated (tolerance : ℤ) (spec : ProviderCanarySpec) : Bool :=
  spec.scorable &&
    if spec.beyond tolerance then accepts spec.answerSeams else spec.answerSeams.records

/-- A spec ends the battery. -/
def ProviderCanarySpec.raises (tolerance : ℤ) (spec : ProviderCanarySpec) : Bool :=
  match spec.observer with
  | .otherError => true
  | .versionDriftError _ _ => !spec.versionGated
  | .observation _ _ => !(spec.versionGated && spec.answersGated tolerance)

/-- The specs the battery gets to: up to the first that raises. -/
def attempted (tolerance : ℤ) : List ProviderCanarySpec → List ProviderCanarySpec
  | [] => []
  | spec :: specs => if spec.raises tolerance then [spec] else spec :: attempted tolerance specs

/-- A spec's own observation shows drift: a version off the pinned set, or an answer beyond the
tolerance; an observer that raises the version drift error shows it. -/
def ProviderCanarySpec.showsDrift (tolerance : ℤ) (spec : ProviderCanarySpec) : Prop :=
  match spec.observer with
  | .otherError => False
  | .versionDriftError _ _ => True
  | .observation observedPpm reportedVersion =>
    reportedVersion ∉ spec.pinnedVersions ∨
      ∃ question ∈ spec.questions, ∃ answer, observedPpm.get? question.questionId = some answer ∧
        tolerance < |answer - question.referencePpm|

/-! ## Scores -/

/-- Answers have distances exactly when there are questions. -/
theorem values_distancesPpm_eq_nil (questions : List CanaryQuestion)
    (observedPpm : OrderedDict String ℤ) :
    (distancesPpm questions observedPpm).values = [] ↔ questions = [] := by
  constructor
  · intro hempty
    by_contra hquestions
    obtain ⟨question, hmem⟩ := List.exists_mem_of_ne_nil questions hquestions
    have hkey : question.questionId ∈ (distancesPpm questions observedPpm).keys :=
      OrderedDict.mem_keys_ofList.mpr (List.mem_map_of_mem (List.mem_map_of_mem hmem))
    rw [OrderedDict.keys, List.map_eq_nil_iff.mp hempty] at hkey
    exact List.not_mem_nil hkey
  · rintro rfl
    rfl

/-- Answers have a score when there are questions and the answers are to exactly these; the score is
beyond a tolerance when one of the distances is. -/
theorem scoreCanaryRun_eq (questions : List CanaryQuestion) (observedPpm : OrderedDict String ℤ) :
    (scoreCanaryRun questions observedPpm = none ∧
      (matchesQuestions questions observedPpm && !questions.isEmpty) = false) ∨
    ∃ result, scoreCanaryRun questions observedPpm = some result ∧
      (matchesQuestions questions observedPpm && !questions.isEmpty) = true ∧
      ∀ tolerance, (distancesPpm questions observedPpm).values.any (tolerance < ·) =
        decide (tolerance < result.driftScorePpm) := by
  rw [scoreCanaryRun]
  cases hmatches : matchesQuestions questions observedPpm with
  | false => exact .inl ⟨rfl, rfl⟩
  | true =>
      rw [if_pos rfl]
      dsimp only
      cases hmax : (distancesPpm questions observedPpm).values.max? with
      | none =>
          have hquestions := (values_distancesPpm_eq_nil questions observedPpm).mp
            (List.max?_eq_none_iff.mp hmax)
          exact .inl ⟨rfl, by rw [hquestions]; rfl⟩
      | some driftScore =>
          obtain ⟨hmem, hmost⟩ := List.max?_eq_some_iff.mp hmax
          have hquestions : questions.isEmpty = false := by
            rw [List.isEmpty_eq_false_iff]
            intro hnil
            rw [(values_distancesPpm_eq_nil questions observedPpm).mpr hnil] at hmem
            exact List.not_mem_nil hmem
          -- the score is one of the distances, so the search for its question finds one
          obtain ⟨item, hitem, hdistance⟩ := List.mem_map.mp hmem
          have hfound : ((distancesPpm questions observedPpm).items.find? fun item =>
              item.2 = driftScore).isSome = true :=
            List.find?_isSome.mpr ⟨item, hitem, decide_eq_true hdistance⟩
          obtain ⟨worst, hworst⟩ := Option.isSome_iff_exists.mp hfound
          refine .inr ⟨_, by rw [Option.bind_eq_bind, Option.bind_some, hworst]; rfl, ?_, ?_⟩
          · rw [hquestions]
            rfl
          · intro tolerance
            rw [Bool.eq_iff_iff, List.any_eq_true, decide_eq_true_iff]
            constructor
            · rintro ⟨distance, hdistance, hbeyond⟩
              exact lt_of_lt_of_le (of_decide_eq_true hbeyond) (hmost distance hdistance)
            · exact fun hbeyond => ⟨driftScore, hmem, decide_eq_true hbeyond⟩

/-! ## What a spec does to the gate -/

/-- Did a call return? -/
def returned {ε σ α : Type} : EStateM.Result ε σ α → Bool
  | .ok _ _ => true
  | .error _ _ => false

/-- A gate as another, but for a breach of a provider where it is registered. -/
structure Breached (provider : String) (checkedAt : ℤ) (registers : Bool)
    (before after : CanaryGate) : Prop where
  tolerance : after.driftTolerancePpm = before.driftTolerancePpm
  windows : ∀ key, after.window key =
    if key = some provider ∧ registers = true then (before.window key).registerBreach checkedAt
    else before.window key

theorem Breached.refl (provider : String) (checkedAt : ℤ) (gate : CanaryGate) :
    Breached provider checkedAt false gate gate :=
  ⟨rfl, fun key => by rw [if_neg (fun h => Bool.false_ne_true h.2)]⟩

theorem breached_registerBreach (provider : String) (checkedAt : ℤ) (gate : CanaryGate) :
    Breached provider checkedAt true gate (gate.registerBreach (some provider) checkedAt) := by
  refine ⟨rfl, fun key => ?_⟩
  rw [CanaryGate.registerBreach, CanaryGate.window_setWindow]
  by_cases hkey : key = some provider
  · rw [if_pos hkey, if_pos ⟨hkey, rfl⟩, hkey]
  · rw [if_neg hkey, if_neg fun h => hkey h.1]

/-- A second breach at one instant does nothing. -/
theorem registerBreach_twice (window : DriftWindow) (checkedAt : ℤ) :
    (window.registerBreach checkedAt).registerBreach checkedAt =
      window.registerBreach checkedAt := by
  obtain ⟨drifted, acked⟩ := window
  cases acked with
  | none =>
      cases drifted with
      | none => simp [DriftWindow.registerBreach, DriftWindow.keepEarliest]
      | some drifted =>
          by_cases hearlier : checkedAt < drifted <;>
            simp [DriftWindow.registerBreach, DriftWindow.keepEarliest, hearlier]
  | some acked =>
      by_cases hrearm : acked ≤ checkedAt
      · simp [DriftWindow.registerBreach, DriftWindow.keepEarliest, hrearm]
      · cases drifted with
        | none => simp [DriftWindow.registerBreach, DriftWindow.keepEarliest, hrearm]
        | some drifted =>
            by_cases hearlier : checkedAt < drifted <;>
              simp [DriftWindow.registerBreach, DriftWindow.keepEarliest, hrearm, hearlier]

theorem Breached.trans {provider : String} {checkedAt : ℤ} {first second : Bool}
    {gate gate' gate'' : CanaryGate} (h : Breached provider checkedAt first gate gate')
    (h' : Breached provider checkedAt second gate' gate'') :
    Breached provider checkedAt (first || second) gate gate'' := by
  refine ⟨h'.tolerance.trans h.tolerance, fun key => ?_⟩
  rw [h'.windows key, h.windows key]
  by_cases hkey : key = some provider
  · cases first <;> cases second <;> simp [hkey, registerBreach_twice]
  · rw [if_neg fun h => hkey h.1, if_neg fun h => hkey h.1, if_neg fun h => hkey h.1]

/-- What a part of a spec's run leaves, and whether it returned. -/
structure Leaves (provider : String) (checkedAt : ℤ) (registers returns : Bool) (w : CanaryWorld)
    {α : Type} (outcome : EStateM.Result BatteryError CanaryWorld α) : Prop where
  breached : Breached provider checkedAt registers w.gate (Effects.finalState outcome).gate
  returned : returned outcome = returns

theorem leaves_gateCall {α : Type} {provider : String} {checkedAt : ℤ} {registers returns : Bool}
    {w : CanaryWorld} {call : CanaryM α}
    (hbreached : Breached provider checkedAt registers w.gate
      (Effects.finalState (call.run w)).gate)
    (hreturned : returned (call.run w) = returns) :
    Leaves provider checkedAt registers returns w ((gateCall call).run w) := by
  change Leaves provider checkedAt registers returns w (EStateM.adaptExcept .gate call w)
  rw [EStateM.adaptExcept]
  cases hcall : call w with
  | ok a t =>
      rw [EStateM.run, hcall] at hbreached hreturned
      exact ⟨hbreached, hreturned⟩
  | error e t =>
      rw [EStateM.run, hcall] at hbreached hreturned
      exact ⟨hbreached, hreturned⟩

theorem Leaves.congr {α : Type} {provider : String} {checkedAt : ℤ}
    {registers registers' returns returns' : Bool} {w : CanaryWorld}
    {outcome : EStateM.Result BatteryError CanaryWorld α}
    (h : Leaves provider checkedAt registers returns w outcome)
    (hregisters : registers = registers') (hreturns : returns = returns') :
    Leaves provider checkedAt registers' returns' w outcome := by
  rw [← hregisters, ← hreturns]
  exact h

/-- A part that may raise, and then another where it returned. -/
theorem Leaves.bind {α β : Type} {provider : String} {checkedAt : ℤ}
    {first second returns returns' : Bool} {w : CanaryWorld} {part : BatteryM α}
    (h : Leaves provider checkedAt first returns w (part.run w)) (rest : α → BatteryM β)
    (hrest : ∀ a t, part.run w = .ok a t →
      Leaves provider checkedAt second returns' t ((rest a).run t)) :
    Leaves provider checkedAt (first || (returns && second)) (returns && returns') w
      ((part >>= rest).run w) := by
  obtain ⟨hbreached, hreturned⟩ := h
  rw [EStateM.run_bind]
  cases hpart : part.run w with
  | ok a t =>
      rw [hpart] at hbreached hreturned
      rw [← hreturned]
      exact ⟨hbreached.trans (hrest a t hpart).breached, (hrest a t hpart).returned⟩
  | error e t =>
      rw [hpart] at hbreached hreturned
      rw [← hreturned]
      refine ⟨?_, rfl⟩
      change Breached provider checkedAt (first || false) _ _
      rw [Bool.or_false]
      exact hbreached

theorem leaves_pure {α : Type} (provider : String) (checkedAt : ℤ) (a : α) (w : CanaryWorld) :
    Leaves provider checkedAt false true w ((pure a : BatteryM α).run w) :=
  ⟨.refl provider checkedAt w.gate, rfl⟩

theorem leaves_throw {α : Type} (provider : String) (checkedAt : ℤ) (e : BatteryError)
    (w : CanaryWorld) :
    Leaves provider checkedAt false false w ((throw e : BatteryM α).run w) :=
  ⟨.refl provider checkedAt w.gate, rfl⟩

/-- The version gated. -/
theorem leaves_version (provider reportedVersion : String) (pinnedVersions : List String)
    (checkedAt : ℤ) (seams : CanarySeams) (w : CanaryWorld) :
    Leaves provider checkedAt (decide (reportedVersion ∉ pinnedVersions) && accepts seams)
      (!decide (reportedVersion ∉ pinnedVersions) || accepts seams) w
      ((gateCall (applyVersionDrift provider reportedVersion pinnedVersions (some checkedAt)
        seams)).run w) := by
  refine leaves_gateCall ?_ ?_
  · rw [applyVersionDrift_gate]
    by_cases hregisters : reportedVersion ∉ pinnedVersions ∧ seams.dispatches ∧ seams.records
    · rw [if_pos hregisters]
      have htrue : (decide (reportedVersion ∉ pinnedVersions) && accepts seams) = true := by
        simpa [accepts] using hregisters
      rw [htrue]
      exact breached_registerBreach provider checkedAt w.gate
    · rw [if_neg hregisters]
      have hfalse : (decide (reportedVersion ∉ pinnedVersions) && accepts seams) = false := by
        rw [Bool.eq_false_iff]
        simpa [accepts] using hregisters
      rw [hfalse]
      exact .refl provider checkedAt w.gate
  · obtain ⟨dispatches, records⟩ := seams
    by_cases hpinned : reportedVersion ∈ pinnedVersions <;> cases dispatches <;> cases records <;>
      simp [applyVersionDrift, requireAware, CanarySeams.dispatch, CanarySeams.record, hpinned,
        returned, accepts]

/-- The answers gated. -/
theorem leaves_answers (provider : String) (result : CanaryRunResult) (checkedAt : ℤ)
    (seams : CanarySeams) (w : CanaryWorld) :
    Leaves provider checkedAt
      (decide (w.gate.driftTolerancePpm < result.driftScorePpm) && accepts seams)
      (if decide (w.gate.driftTolerancePpm < result.driftScorePpm) then accepts seams
        else seams.records) w
      ((gateCall (applyRun result (some checkedAt) seams (some provider))).run w) := by
  refine leaves_gateCall ?_ ?_
  · rw [applyRun_gate]
    by_cases hregisters : w.gate.driftTolerancePpm < result.driftScorePpm ∧ seams.dispatches ∧
        seams.records
    · rw [if_pos hregisters]
      have htrue : (decide (w.gate.driftTolerancePpm < result.driftScorePpm) && accepts seams) =
          true := by
        simpa [accepts] using hregisters
      rw [htrue]
      exact breached_registerBreach provider checkedAt w.gate
    · rw [if_neg hregisters]
      have hfalse : (decide (w.gate.driftTolerancePpm < result.driftScorePpm) && accepts seams) =
          false := by
        rw [Bool.eq_false_iff]
        simpa [accepts] using hregisters
      rw [hfalse]
      exact .refl provider checkedAt w.gate
  · obtain ⟨dispatches, records⟩ := seams
    by_cases hbreach : w.gate.driftTolerancePpm < result.driftScorePpm <;>
      cases dispatches <;> cases records <;>
      simp [applyRun, requireAware, CanarySeams.dispatch, CanarySeams.record, hbreach, returned,
        accepts]

/-- The answers scored and gated. -/
theorem leaves_scored {α : Type} (provider : String) (questions : List CanaryQuestion)
    (observedPpm : OrderedDict String ℤ) (checkedAt : ℤ) (seams : CanarySeams)
    (verdict : CanaryRunResult → Bool → α) (w : CanaryWorld) :
    Leaves provider checkedAt
      (matchesQuestions questions observedPpm && !questions.isEmpty &&
        (distancesPpm questions observedPpm).values.any (w.gate.driftTolerancePpm < ·) &&
        accepts seams)
      (matchesQuestions questions observedPpm && !questions.isEmpty &&
        if (distancesPpm questions observedPpm).values.any (w.gate.driftTolerancePpm < ·) then
          accepts seams
        else seams.records) w
      ((do
        let result ← scored questions observedPpm
        let answerDrifted ← gateCall (applyRun result (some checkedAt) seams (some provider))
        return verdict result answerDrifted : BatteryM α).run w) := by
  rcases scoreCanaryRun_eq questions observedPpm with ⟨hnone, hscorable⟩ |
    ⟨result, hsome, hscorable, hbeyond⟩
  · rw [hscorable, scored, hnone]
    exact leaves_throw provider checkedAt .unscorable w
  · rw [hscorable, hbeyond, scored, hsome]
    have hcall := (leaves_answers provider result checkedAt seams w).bind
      (fun answerDrifted => pure (verdict result answerDrifted))
      fun answerDrifted t _ => leaves_pure provider checkedAt (verdict result answerDrifted) t
    simpa using hcall

/-- **What one spec does**: it registers its own provider's breach or changes nothing, and it ends
the battery exactly when it raises. -/
theorem leaves_runOneSpec (checkedAt : ℤ) (spec : ProviderCanarySpec) (w : CanaryWorld) :
    Leaves spec.provider checkedAt (spec.registers w.gate.driftTolerancePpm)
      (!spec.raises w.gate.driftTolerancePpm) w ((runOneSpec (some checkedAt) spec).run w) := by
  obtain ⟨provider, questions, pinnedVersions, observer, versionSeams, answerSeams⟩ := spec
  cases observer with
  | otherError => exact leaves_throw provider checkedAt .observer w
  | versionDriftError reportedVersion reportedPins =>
      have hcall := (leaves_version provider reportedVersion reportedPins checkedAt versionSeams
        w).bind (fun _ => pure (ProviderCanaryVerdict.mk provider .versionDrift 0 ""
          reportedVersion)) fun _ t _ => leaves_pure provider checkedAt _ t
      refine hcall.congr ?_ ?_
      · simp [ProviderCanarySpec.registers, ProviderCanarySpec.scorable, ProviderCanarySpec.offPin]
      · simp [ProviderCanarySpec.raises, ProviderCanarySpec.versionGated,
          ProviderCanarySpec.offPin]
  | observation observedPpm reportedVersion =>
      have hversion := leaves_version provider reportedVersion pinnedVersions checkedAt
        versionSeams w
      have hcall := hversion.bind (fun versionDrifted => do
        let result ← scored questions observedPpm
        let answerDrifted ← gateCall (applyRun result (some checkedAt) answerSeams (some provider))
        return ProviderCanaryVerdict.mk provider (verdictStatus versionDrifted answerDrifted)
          result.driftScorePpm result.worstQuestionId reportedVersion)
        fun versionDrifted t ht => by
          have htolerance := hversion.breached.tolerance
          rw [ht, Effects.finalState_ok] at htolerance
          have hrest := leaves_scored provider questions observedPpm checkedAt answerSeams
            (fun result answerDrifted => ProviderCanaryVerdict.mk provider
              (verdictStatus versionDrifted answerDrifted) result.driftScorePpm
              result.worstQuestionId reportedVersion) t
          rw [htolerance] at hrest
          exact hrest
      refine hcall.congr ?_ ?_
      · simp [ProviderCanarySpec.registers, ProviderCanarySpec.versionGated,
          ProviderCanarySpec.scorable, ProviderCanarySpec.beyond, ProviderCanarySpec.offPin,
          Bool.and_assoc]
      · simp [ProviderCanarySpec.raises, ProviderCanarySpec.answersGated,
          ProviderCanarySpec.versionGated, ProviderCanarySpec.scorable, ProviderCanarySpec.beyond,
          ProviderCanarySpec.offPin, Bool.and_assoc]

/-! ## The battery -/

theorem gateAfter_of_ok {w t : CanaryWorld} {checkedAt : Option ℤ} {spec : ProviderCanarySpec}
    {verdict : ProviderCanaryVerdict} (h : (runOneSpec checkedAt spec).run w = .ok verdict t)
    (specs : List ProviderCanarySpec) :
    gateAfter w checkedAt (spec :: specs) = gateAfter t checkedAt specs := by
  rw [gateAfter, runProviderCanaries, List.mapM_cons, EStateM.run_bind, h]
  dsimp only
  rw [EStateM.run_bind, gateAfter, runProviderCanaries]
  cases (specs.mapM (runOneSpec checkedAt)).run t <;> rfl

theorem gateAfter_of_error {w t : CanaryWorld} {checkedAt : Option ℤ} {spec : ProviderCanarySpec}
    {e : BatteryError} (h : (runOneSpec checkedAt spec).run w = .error e t)
    (specs : List ProviderCanarySpec) : gateAfter w checkedAt (spec :: specs) = t.gate := by
  rw [gateAfter, runProviderCanaries, List.mapM_cons, EStateM.run_bind, h]
  rfl

/-- Does a spec that the battery gets to register a breach of a dimension? -/
def registered (tolerance : ℤ) (specs : List ProviderCanarySpec) (key : DriftDimension) : Bool :=
  (attempted tolerance specs).any fun spec => decide (key = some spec.provider) &&
    spec.registers tolerance

/-- **The battery**: a window has its breach exactly when a spec of its provider that the battery
gets to registers one. -/
theorem battery_window (checkedAt : ℤ) (specs : List ProviderCanarySpec) (w : CanaryWorld)
    (key : DriftDimension) :
    (gateAfter w (some checkedAt) specs).window key =
      if registered w.gate.driftTolerancePpm specs key = true then
        (w.gate.window key).registerBreach checkedAt
      else w.gate.window key := by
  induction specs generalizing w with
  | nil => rfl
  | cons spec specs ih =>
      have hspec := leaves_runOneSpec checkedAt spec w
      rw [registered, attempted]
      cases hrun : (runOneSpec (some checkedAt) spec).run w with
      | error e t =>
          rw [hrun] at hspec
          have hraises : spec.raises w.gate.driftTolerancePpm = true := by
            simpa [returned] using hspec.returned
          have hwindow := hspec.breached.windows key
          rw [gateAfter_of_error hrun, if_pos hraises]
          simpa using hwindow
      | ok verdict t =>
          rw [hrun] at hspec
          have hraises : ¬ spec.raises w.gate.driftTolerancePpm = true := by
            simpa [returned] using hspec.returned
          have hwindow := hspec.breached.windows key
          have htolerance := hspec.breached.tolerance
          rw [Effects.finalState_ok] at hwindow htolerance
          rw [gateAfter_of_ok hrun, ih, hwindow, htolerance, if_neg hraises, List.any_cons,
            registered]
          by_cases hown : key = some spec.provider ∧ spec.registers w.gate.driftTolerancePpm = true
          · rw [if_pos hown]
            simp [hown, registerBreach_twice]
          · rw [if_neg hown]
            have hfalse : (decide (key = some spec.provider) &&
                spec.registers w.gate.driftTolerancePpm) = false := by
              rw [Bool.eq_false_iff]
              simpa using hown
            rw [hfalse, Bool.false_or]

theorem attempted_sublist (tolerance : ℤ) (specs : List ProviderCanarySpec) :
    (attempted tolerance specs).Sublist specs := by
  induction specs with
  | nil => exact .slnil
  | cons spec specs ih =>
      rw [attempted]
      by_cases hraises : spec.raises tolerance = true
      · rw [if_pos hraises]
        exact List.cons_sublist_cons.mpr (List.nil_sublist specs)
      · rw [if_neg hraises]
        exact ih.cons_cons spec

/-- With one spec for each provider, a provider's breach is its own spec's. -/
theorem registered_iff {tolerance : ℤ} {specs : List ProviderCanarySpec}
    (hdistinct : (specs.map (·.provider)).Nodup) {spec : ProviderCanarySpec}
    (hspec : spec ∈ specs) :
    registered tolerance specs (some spec.provider) = true ↔
      spec ∈ attempted tolerance specs ∧ spec.registers tolerance = true := by
  rw [registered, List.any_eq_true]
  constructor
  · rintro ⟨other, hother, hregisters⟩
    obtain ⟨hprovider, hregisters⟩ := Bool.and_eq_true_iff.mp hregisters
    have hsame : spec = other := List.inj_on_of_nodup_map hdistinct hspec
      ((attempted_sublist tolerance specs).subset hother)
      (Option.some.inj (of_decide_eq_true hprovider))
    rw [hsame]
    exact ⟨hother, hregisters⟩
  · rintro ⟨hattempted, hregisters⟩
    exact ⟨spec, hattempted, by rw [hregisters, decide_eq_true rfl]; rfl⟩

/-- No spec is of the pinned canary model. -/
theorem registered_none (tolerance : ℤ) (specs : List ProviderCanarySpec) :
    registered tolerance specs none = false := by
  rw [registered, List.any_eq_false]
  intro spec _
  simp

/-- A provider after the battery: as its breach leaves it, or as it was. -/
theorem isLiveBlocked_after (w : CanaryWorld) (checkedAt createdAt : ℤ)
    (specs : List ProviderCanarySpec) (provider : String) :
    (gateAfter w (some checkedAt) specs).isLiveBlocked createdAt (some provider) =
      if registered w.gate.driftTolerancePpm specs (some provider) = true then
        (w.gate.registerBreach (some provider) checkedAt).isLiveBlocked createdAt (some provider)
      else w.gate.isLiveBlocked createdAt (some provider) := by
  have hbreached := breached_registerBreach provider checkedAt w.gate
  simp only [CanaryGate.isLiveBlocked, CanaryGate.isDimensionBlocked, battery_window,
    registered_none, hbreached.windows]
  by_cases hregistered : registered w.gate.driftTolerancePpm specs (some provider) = true <;>
    simp [hregistered]

/-! ## Blocked from the check on -/

/-- A provider is blocked from an instant on. -/
def BlockedFrom (gate : CanaryGate) (provider : String) (checkedAt : ℤ) : Prop :=
  ∀ createdAt, checkedAt ≤ createdAt → gate.isLiveBlocked createdAt (some provider) = true

/-- Where a provider's window is acknowledged as of after the check, the pinned canary model blocks
from the acknowledgement on. -/
def AckedNoLater (gate : CanaryGate) (provider : String) (checkedAt : ℤ) : Prop :=
  ∀ acked, (gate.window (some provider)).ackedAt = some acked → checkedAt < acked →
    ∀ createdAt, acked ≤ createdAt → gate.isLiveBlocked createdAt none = true

/-- The earliest breach is no later than the check. -/
theorem isBlocked_keepEarliest_iff (window : DriftWindow) {checkedAt createdAt : ℤ}
    (hle : checkedAt ≤ createdAt) :
    (window.keepEarliest checkedAt).isBlocked createdAt = true ↔
      ∀ acked, window.ackedAt = some acked → createdAt < acked := by
  have hearliest : ∃ drifted, (window.keepEarliest checkedAt).driftedAt = some drifted ∧
      drifted ≤ checkedAt := by
    rw [DriftWindow.keepEarliest]
    cases hdrifted : window.driftedAt with
    | none => exact ⟨checkedAt, rfl, le_refl checkedAt⟩
    | some drifted =>
        dsimp only
        by_cases hearlier : checkedAt < drifted
        · rw [if_pos hearlier]
          exact ⟨checkedAt, rfl, le_refl checkedAt⟩
        · rw [if_neg hearlier]
          exact ⟨drifted, hdrifted, by omega⟩
  have hacked : (window.keepEarliest checkedAt).ackedAt = window.ackedAt := by
    rw [DriftWindow.keepEarliest]
    cases window.driftedAt with
    | none => rfl
    | some drifted =>
        dsimp only
        split <;> rfl
  obtain ⟨drifted, hdrifted, hcheck⟩ := hearliest
  rw [isBlocked_iff, hacked]
  constructor
  · rintro ⟨_, -, -, hbefore⟩
    exact hbefore
  · exact fun hbefore => ⟨drifted, hdrifted, by omega, hbefore⟩

/-- A breach blocks a window's instants from the check on, up to an acknowledgement as of later. -/
theorem isBlocked_registerBreach (window : DriftWindow) {checkedAt createdAt : ℤ}
    (hle : checkedAt ≤ createdAt) :
    (window.registerBreach checkedAt).isBlocked createdAt = true ↔
      ∀ acked, window.ackedAt = some acked → checkedAt < acked → createdAt < acked := by
  rw [DriftWindow.registerBreach]
  cases hacked : window.ackedAt with
  | none =>
      refine iff_of_true ((isBlocked_keepEarliest_iff window hle).mpr fun acked h => ?_) ?_
      · rw [hacked] at h
        cases h
      · rintro acked ⟨⟩
  | some acked =>
      dsimp only
      by_cases hrearm : acked ≤ checkedAt
      · rw [if_pos hrearm]
        refine iff_of_true (isBlocked_iff.mpr ⟨checkedAt, rfl, hle, ?_⟩) ?_
        · rintro acked ⟨⟩
        · rintro acked ⟨⟩ hlater
          omega
      · rw [if_neg hrearm, isBlocked_keepEarliest_iff window hle, hacked]
        constructor
        · rintro h acked' ⟨⟩ -
          exact h acked rfl
        · rintro h acked' ⟨⟩
          exact h acked rfl (by omega)

/-- A breach blocks its provider from the check on, but for a window acknowledged as of later. -/
theorem blockedFrom_registerBreach (gate : CanaryGate) (provider : String) (checkedAt : ℤ) :
    BlockedFrom (gate.registerBreach (some provider) checkedAt) provider checkedAt ↔
      AckedNoLater gate provider checkedAt := by
  have hbreached := breached_registerBreach provider checkedAt gate
  have hpinned : (gate.registerBreach (some provider) checkedAt).window none = gate.window none :=
    (hbreached.windows none).trans (if_neg fun h => by cases h.1)
  have hown : (gate.registerBreach (some provider) checkedAt).window (some provider) =
      (gate.window (some provider)).registerBreach checkedAt :=
    (hbreached.windows (some provider)).trans (if_pos ⟨rfl, rfl⟩)
  have hblocked : ∀ createdAt, checkedAt ≤ createdAt →
      ((gate.registerBreach (some provider) checkedAt).isLiveBlocked createdAt (some provider) =
        true ↔ (gate.window none).isBlocked createdAt = true ∨
          ∀ acked, (gate.window (some provider)).ackedAt = some acked → checkedAt < acked →
            createdAt < acked) := by
    intro createdAt hle
    rw [CanaryGate.isLiveBlocked, CanaryGate.isDimensionBlocked, CanaryGate.isDimensionBlocked,
      hpinned, hown, Option.isSome_some, Bool.true_and, Bool.or_eq_true,
      isBlocked_registerBreach _ hle]
  constructor
  · intro h acked hacked hlater createdAt hafter
    rw [CanaryGate.isLiveBlocked, CanaryGate.isDimensionBlocked]
    rcases (hblocked createdAt (by omega)).mp (h createdAt (by omega)) with hall | hbefore
    · rw [hall]
      rfl
    · have := hbefore acked hacked hlater
      omega
  · intro h createdAt hle
    refine (hblocked createdAt hle).mpr ?_
    by_cases hbefore : ∀ acked, (gate.window (some provider)).ackedAt = some acked →
        checkedAt < acked → createdAt < acked
    · exact .inr hbefore
    · push Not at hbefore
      obtain ⟨acked, hacked, hlater, hafter⟩ := hbefore
      have hall := h acked hacked hlater createdAt hafter
      rw [CanaryGate.isLiveBlocked, CanaryGate.isDimensionBlocked] at hall
      exact .inl (by simpa using hall)

/-- A provider that is blocked from the check on stays so where its breach is registered. -/
theorem blockedFrom_of_blocked {gate : CanaryGate} {provider : String} {checkedAt : ℤ}
    (h : BlockedFrom gate provider checkedAt) : AckedNoLater gate provider checkedAt := by
  intro acked hacked hlater createdAt hafter
  have hblocked := h createdAt (by omega)
  rw [CanaryGate.isLiveBlocked, Option.isSome_some, Bool.true_and, Bool.or_eq_true] at hblocked
  rcases hblocked with hall | hown
  · rw [CanaryGate.isLiveBlocked, hall]
    rfl
  · obtain ⟨_, -, -, hbefore⟩ := isBlocked_iff.mp hown
    have := hbefore acked hacked
    omega

/-! ## Each provider on its own -/

/-- **What the battery is to do for a provider**: one whose own observation shows drift is blocked
from the check on, and a provider ends as it does in any other battery that has its spec. -/
structure JudgedAlone (w : CanaryWorld) (checkedAt : ℤ) (specs others : List ProviderCanarySpec)
    (spec : ProviderCanarySpec) : Prop where
  blocked : spec.showsDrift w.gate.driftTolerancePpm →
    BlockedFrom (gateAfter w (some checkedAt) specs) spec.provider checkedAt
  same : ∀ createdAt,
    (gateAfter w (some checkedAt) specs).isLiveBlocked createdAt (some spec.provider) =
      (gateAfter w (some checkedAt) others).isLiveBlocked createdAt (some spec.provider)

/-- Its breach blocks a provider at no instant at which it is not blocked, and unblocks none. -/
def AddsNothing (gate : CanaryGate) (provider : String) (checkedAt : ℤ) : Prop :=
  ∀ createdAt, (gate.registerBreach (some provider) checkedAt).isLiveBlocked createdAt
    (some provider) = gate.isLiveBlocked createdAt (some provider)

/-- Blocked from the check on after the battery: blocked anyway, or by a breach of its spec. -/
theorem blockedFrom_after {w : CanaryWorld} {checkedAt : ℤ} {specs : List ProviderCanarySpec}
    {spec : ProviderCanarySpec} (hdistinct : (specs.map (·.provider)).Nodup)
    (hspec : spec ∈ specs) :
    BlockedFrom (gateAfter w (some checkedAt) specs) spec.provider checkedAt ↔
      BlockedFrom w.gate spec.provider checkedAt ∨
        spec ∈ attempted w.gate.driftTolerancePpm specs ∧
          spec.registers w.gate.driftTolerancePpm = true ∧
          AckedNoLater w.gate spec.provider checkedAt := by
  have hregistered : registered w.gate.driftTolerancePpm specs (some spec.provider) = true ↔
      spec ∈ attempted w.gate.driftTolerancePpm specs ∧
        spec.registers w.gate.driftTolerancePpm = true := registered_iff hdistinct hspec
  have hbreach := blockedFrom_registerBreach w.gate spec.provider checkedAt
  by_cases h : registered w.gate.driftTolerancePpm specs (some spec.provider) = true
  · have hafter : BlockedFrom (gateAfter w (some checkedAt) specs) spec.provider checkedAt ↔
        AckedNoLater w.gate spec.provider checkedAt := by
      rw [← hbreach]
      simp only [BlockedFrom, isLiveBlocked_after, if_pos h]
    obtain ⟨hattempted, hregisters⟩ := hregistered.mp h
    rw [hafter]
    exact ⟨fun hacked => .inr ⟨hattempted, hregisters, hacked⟩,
      Or.rec blockedFrom_of_blocked fun h => h.2.2⟩
  · have hafter : BlockedFrom (gateAfter w (some checkedAt) specs) spec.provider checkedAt ↔
        BlockedFrom w.gate spec.provider checkedAt := by
      simp only [BlockedFrom, isLiveBlocked_after, if_neg h]
    rw [hafter]
    exact ⟨.inl, Or.rec id fun hspec => absurd (hregistered.mpr ⟨hspec.1, hspec.2.1⟩) h⟩

/-- Two batteries leave a provider alike when both get to its spec or neither does, or it has no
breach that changes anything. -/
theorem same_after_iff {w : CanaryWorld} {checkedAt : ℤ} {specs others : List ProviderCanarySpec}
    {spec : ProviderCanarySpec} (hspecs : (specs.map (·.provider)).Nodup)
    (hothers : (others.map (·.provider)).Nodup) (hspec : spec ∈ specs) (hother : spec ∈ others) :
    (∀ createdAt, (gateAfter w (some checkedAt) specs).isLiveBlocked createdAt
        (some spec.provider) =
      (gateAfter w (some checkedAt) others).isLiveBlocked createdAt (some spec.provider)) ↔
    (spec ∈ attempted w.gate.driftTolerancePpm specs ↔
        spec ∈ attempted w.gate.driftTolerancePpm others) ∨
      spec.registers w.gate.driftTolerancePpm = false ∨
      AddsNothing w.gate spec.provider checkedAt := by
  have hregistered : registered w.gate.driftTolerancePpm specs (some spec.provider) = true ↔
      spec ∈ attempted w.gate.driftTolerancePpm specs ∧
        spec.registers w.gate.driftTolerancePpm = true := registered_iff hspecs hspec
  have hregistered' : registered w.gate.driftTolerancePpm others (some spec.provider) = true ↔
      spec ∈ attempted w.gate.driftTolerancePpm others ∧
        spec.registers w.gate.driftTolerancePpm = true := registered_iff hothers hother
  simp only [isLiveBlocked_after, AddsNothing]
  cases hregisters : spec.registers w.gate.driftTolerancePpm with
  | false =>
      rw [hregisters] at hregistered hregistered'
      simp [hregistered, hregistered']
  | true =>
      rw [hregisters, eq_self, and_true] at hregistered hregistered'
      rw [← hregistered, ← hregistered']
      by_cases h : registered w.gate.driftTolerancePpm specs (some spec.provider) = true <;>
        by_cases h' : registered w.gate.driftTolerancePpm others (some spec.provider) = true
      · simp [h, h']
      · simp [h, h']
      · simp only [h, h', Bool.false_eq_true, if_false, if_true, iff_true, false_or,
          Bool.true_eq_false]
        exact forall_congr' fun createdAt => eq_comm
      · simp [h, h']

/-- **Each provider on its own.**  A provider that drifts ends blocked exactly when it is so anyway, or
the battery gets to its spec and registers its breach; and it ends as in another battery exactly when
both get to its spec or neither does, or its breach adds nothing. -/
theorem judged_alone_iff (w : CanaryWorld) (checkedAt : ℤ) (specs others : List ProviderCanarySpec)
    (hspecs : (specs.map (·.provider)).Nodup) (hothers : (others.map (·.provider)).Nodup)
    (spec : ProviderCanarySpec) (hspec : spec ∈ specs) (hother : spec ∈ others) :
    JudgedAlone w checkedAt specs others spec ↔
      (spec.showsDrift w.gate.driftTolerancePpm →
        BlockedFrom w.gate spec.provider checkedAt ∨
          spec ∈ attempted w.gate.driftTolerancePpm specs ∧
            spec.registers w.gate.driftTolerancePpm = true ∧
            AckedNoLater w.gate spec.provider checkedAt) ∧
      ((spec ∈ attempted w.gate.driftTolerancePpm specs ↔
          spec ∈ attempted w.gate.driftTolerancePpm others) ∨
        spec.registers w.gate.driftTolerancePpm = false ∨
        AddsNothing w.gate spec.provider checkedAt) := by
  constructor
  · rintro ⟨hblocked, hsame⟩
    exact ⟨fun hdrift => (blockedFrom_after hspecs hspec).mp (hblocked hdrift),
      (same_after_iff hspecs hothers hspec hother).mp hsame⟩
  · rintro ⟨hblocked, hsame⟩
    exact ⟨fun hdrift => (blockedFrom_after hspecs hspec).mpr (hblocked hdrift),
      (same_after_iff hspecs hothers hspec hother).mpr hsame⟩

/-- A spec of a provider with one question, and seams that take everything. -/
def plainSpec (provider : String) (observer : Observed) : ProviderCanarySpec where
  provider
  questions := [⟨"q1", 500000, by decide, by decide⟩]
  pinnedVersions := ["v1"]
  observer
  versionSeams := ⟨true, true⟩
  answerSeams := ⟨true, true⟩

/-- A provider whose observer raises, and one that reports a version off its pin. -/
def downSpec : ProviderCanarySpec := plainSpec "down" .otherError

def driftingSpec : ProviderCanarySpec :=
  plainSpec "drifting" (.observation (OrderedDict.empty.set "q1" 500000) "v2")

/-- A provider that drifts is blocked where it comes first, as it is alone. -/
theorem drifting_first_judged_alone :
    JudgedAlone freshCanaryWorld 10 [driftingSpec, downSpec] [driftingSpec] driftingSpec :=
  (judged_alone_iff freshCanaryWorld 10 [driftingSpec, downSpec] [driftingSpec]
    (by decide) (by decide) driftingSpec List.mem_cons_self List.mem_cons_self).mpr
    ⟨fun _ => .inr ⟨.head _, by decide, by rintro acked ⟨⟩⟩,
      .inl ⟨fun _ => .head _, fun _ => .head _⟩⟩

/-- **A provider that is not judged on its own.**  Behind one whose observer raises, a provider that
drifts is not blocked. -/
theorem judged_by_order :
    ¬ ∀ (w : CanaryWorld) (checkedAt : ℤ) (specs others : List ProviderCanarySpec),
      (specs.map (·.provider)).Nodup → (others.map (·.provider)).Nodup →
      ∀ spec, spec ∈ specs → spec ∈ others → JudgedAlone w checkedAt specs others spec := by
  intro h
  have halone := h freshCanaryWorld 10 [downSpec, driftingSpec] [driftingSpec, downSpec]
    (by decide) (by decide) driftingSpec (.tail _ (.head _)) (.head _)
  have hblocked := halone.blocked (.inl (by decide)) 10 (le_refl 10)
  exact absurd hblocked (by decide)

end Windbreak.CanaryBattery
