import Windbreak.Core.Runs
import Windbreak.Evaluation.PlanRegistry

/-!
# Runs of the gate plan registry

A ledger is taken up without a registration on it, or behind a registration from before the live
thresholds, and any calls follow, other components' appends between them.

* **`Reread`** — the invariant: the newest registration on the ledger is the one last accepted.
* **`plan_of_planHash`**, **`legacy_ne_planHash`** — what a hash says about the plan.
* **`registry_keeps_its_clock`** — what holds of every run.
* **`legacy_plan_replaced`** — the plan that a legacy registration reads as is not registered under
  the legacy hash.
-/

namespace Windbreak

open RestartedClock (Timed Follows Restarts offer)
open Machine

/-! ## Ledgers to start from -/

/-- A registration from before the live thresholds: its plan's fields, and the plan they read as. -/
structure LegacyRegistration where
  fields : PlanFields
  plan : GatePlan
  reads : GatePlan.init
    { fields with
      liveRollingWindowSize := legacyLiveRollingWindowSize
      liveSlippageRatioLimitPpm := legacyLiveSlippageRatioLimitPpm
      liveBrierDegradationBandPpm := legacyLiveBrierDegradationBandPpm } = .ok plan
  component : String
  createdAt : String
  paperClockStart : ℤ
  previousPlanHash : Option String

namespace LegacyRegistration

variable (sha : Sha256) (legacy : LegacyRegistration)

def event : Event :=
  registrationEvent legacy.component legacy.fields.tenKeys (contentHash sha legacy.fields.tenKeys)
    legacy.paperClockStart legacy.previousPlanHash

/-- What it reads as. -/
def registration : GatePlanRegistration where
  plan := legacy.plan
  planHash := contentHash sha legacy.fields.tenKeys
  paperClockStart := legacy.paperClockStart
  previousPlanHash := legacy.previousPlanHash
  eventType := (legacy.event sha).eventType

end LegacyRegistration

/-- A ledger to start from: without a registration, or with a legacy one as the newest. -/
inductive Origin (sha : Sha256) (limits : JsonValue.Limits) :
    List LedgerRecord → Option LegacyRegistration → Prop
  | fresh (rows : List LedgerRecord) (hrows : Increasing rows)
      (hnone : ∀ record ∈ rows, record.eventType ∉ registrationEventTypes) :
      Origin sha limits rows none
  | legacy (rows : List LedgerRecord) (hrows : Increasing rows) (legacy : LegacyRegistration)
      (hserialises : (legacy.event sha).envelope.serialises limits limits.depth = true) :
      Origin sha limits (rows ++ [nextRecord sha legacy.createdAt (legacy.event sha) rows])
        (some legacy)

/-! ## Runs -/

/-- A call of the registry, or another component's append. -/
inductive RegistryOp where
  | register (env : AppendEnv) (component : String) (now : ℤ) (plan : GatePlan)
  | other (op : AppendOp) (h : op.event.event.eventType ∉ registrationEventTypes)

/-- The plan of a call. -/
def RegistryOp.plan? : RegistryOp → Option GatePlan
  | .register _ _ _ plan => some plan
  | .other _ _ => none

/-- The ledger, and the registration that the last accepted call returned. -/
structure RegistryState where
  rows : List LedgerRecord
  accepted : Option GatePlanRegistration

/-- One call, or another component's append. -/
def registryStep (sha : Sha256) (limits : JsonValue.Limits) (s : RegistryState) :
    RegistryOp → Option (Except RegistryError GatePlanRegistration) × RegistryState
  | .register env component now plan =>
    match registerGatePlan sha limits env component now plan s.rows with
    | (.ok registration, rows) => (some (.ok registration), ⟨rows, some registration⟩)
    | (.error e, rows) => (some (.error e), ⟨rows, s.accepted⟩)
  | .other op _ => (none, ⟨(append sha limits op.env op.event.event s.rows).2, s.accepted⟩)

/-- The state that a ledger is taken up in. -/
def registryStart (sha : Sha256) (rows : List LedgerRecord) (legacy : Option LegacyRegistration) :
    RegistryState :=
  ⟨rows, legacy.map (·.registration sha)⟩

/-- The texts that a run hashes: the legacy plan's, and those of the plans registered. -/
def hashedTexts (legacy : Option LegacyRegistration) (ops : List RegistryOp) : Set Bytes :=
  {message | (∃ l ∈ legacy, textBytes (Json.obj l.fields.tenKeys).canonical = message) ∨
    ∃ op ∈ ops, ∃ plan ∈ op.plan?, textBytes (Json.obj plan.canonicalDict).canonical = message}

/-! ## What a call does -/

section

variable {sha : Sha256} {limits : JsonValue.Limits} {rows : List LedgerRecord}
  {accepted : Option GatePlanRegistration}

/-- **What a call may do**: be refused and change nothing, find its plan registered already, or append
its registration behind what was registered. -/
theorem registerGatePlan_cases (env : AppendEnv) (component : String) (now : ℤ) (plan : GatePlan)
    (hread : latestGatePlanRegistration sha limits rows = .ok accepted) :
    (∃ e, registerGatePlan sha limits env component now plan rows = (.error e, rows)) ∨
      (∃ existing, accepted = some existing ∧ plan.planHash sha limits = .ok existing.planHash ∧
        registerGatePlan sha limits env component now plan rows = (.ok existing, rows)) ∨
      ∃ registration rows',
        AppendsPlan sha limits env component plan now (accepted.map (·.planHash)) rows registration
          rows' ∧
        (∀ existing, accepted = some existing →
          existing.planHash ≠ registration.planHash ∧ existing.paperClockStart < now) ∧
        registerGatePlan sha limits env component now plan rows = (.ok registration, rows') := by
  unfold registerGatePlan
  rw [hread]
  cases accepted with
  | none =>
      rcases appendRegistration_cases sha limits env component plan rows now none with
        ⟨e, h⟩ | ⟨registration, rows', happends, h⟩
      · exact .inl ⟨e, h⟩
      · exact .inr (.inr ⟨registration, rows', happends,
          fun existing hnone => absurd hnone.symm (Option.some_ne_none existing), h⟩)
  | some existing =>
      dsimp only
      cases hhash : plan.planHash sha limits with
      | error e => exact .inl ⟨e, rfl⟩
      | ok planHash =>
          dsimp only
          by_cases hsame : existing.planHash = planHash
          · rw [if_pos hsame]
            exact .inr (.inl ⟨existing, rfl, by rw [hsame], rfl⟩)
          · rw [if_neg hsame]
            unfold appendChangedRegistration
            by_cases hearly : now ≤ existing.paperClockStart
            · rw [if_pos hearly]
              exact .inl ⟨_, rfl⟩
            · rw [if_neg hearly]
              rcases appendRegistration_cases sha limits env component plan rows now
                (some existing.planHash) with ⟨e, h⟩ | ⟨registration, rows', happends, h⟩
              · exact .inl ⟨e, h⟩
              · have hown : planHash = registration.planHash :=
                  Except.ok.inj (hhash.symm.trans happends.hashed)
                refine .inr (.inr ⟨registration, rows', happends, ?_, h⟩)
                rintro _ ⟨⟩
                exact ⟨hown ▸ hsame, not_le.mp hearly⟩

/-- **An accepted call restarts the paper clock as an offer of its plan's hash does.** -/
theorem registerGatePlan_offer {env : AppendEnv} {component : String} {now : ℤ} {plan : GatePlan}
    {registration : GatePlanRegistration} {rows' : List LedgerRecord}
    (hread : latestGatePlanRegistration sha limits rows = .ok accepted)
    (h : registerGatePlan sha limits env component now plan rows = (.ok registration, rows')) :
    plan.planHash sha limits = .ok registration.planHash ∧
      offer registration.planHash now (accepted.map (·.timed)) = some registration.timed := by
  rcases registerGatePlan_cases env component now plan hread with
    ⟨e, hcase⟩ | ⟨existing, rfl, hhash, hcase⟩ | ⟨made, rows'', happends, hrestarts, hcase⟩
  · rw [hcase] at h
    cases h
  · rw [hcase] at h
    cases h
    exact ⟨hhash, RestartedClock.offer_same rfl now⟩
  · rw [hcase] at h
    cases h
    refine ⟨happends.hashed, ?_⟩
    have hclock : registration.paperClockStart = now := by rw [happends.made]
    have hlink : registration.previousPlanHash = accepted.map (·.planHash) := by
      rw [happends.made]
    cases accepted with
    | none =>
        show some _ = some (Timed.mk _ _ _)
        rw [hclock, hlink]
        rfl
    | some existing =>
        obtain ⟨hother, hlater⟩ := hrestarts existing rfl
        show offer registration.planHash now (some existing.timed) = some (Timed.mk _ _ _)
        rw [RestartedClock.offer_other hother hlater, hclock, hlink]
        rfl

end

/-! ## What holds along a run -/

section

variable {sha : Sha256} {limits : JsonValue.Limits} {legacy : Option LegacyRegistration}
  {texts : Set Bytes}

/-- A registration that stands: the legacy one, or one under its plan's own hash. -/
def Registered (sha : Sha256) (limits : JsonValue.Limits) (legacy : Option LegacyRegistration)
    (texts : Set Bytes) (registration : GatePlanRegistration) : Prop :=
  (∃ l ∈ legacy, l.registration sha = registration) ∨
    registration.plan.planHash sha limits = .ok registration.planHash ∧
      textBytes (Json.obj registration.plan.canonicalDict).canonical ∈ texts

/-- **The invariant**: the newest registration on the ledger is the one last accepted. -/
structure Reread (sha : Sha256) (limits : JsonValue.Limits) (legacy : Option LegacyRegistration)
    (texts : Set Bytes) (s : RegistryState) : Prop where
  increasing : Increasing s.rows
  readBack : latestGatePlanRegistration sha limits s.rows = .ok s.accepted
  registered : ∀ registration, s.accepted = some registration →
    Registered sha limits legacy texts registration

/-- The plan of a step is hashed over one of the texts. -/
def Among (texts : Set Bytes) (op : RegistryOp) : Prop :=
  ∀ plan ∈ op.plan?, textBytes (Json.obj plan.canonicalDict).canonical ∈ texts

/-- A legacy registration reads back, with the defaults for what it lacks. -/
theorem latest_legacy {rows : List LedgerRecord} (hrows : Increasing rows) (l : LegacyRegistration)
    (hserialises : (l.event sha).envelope.serialises limits limits.depth = true) :
    latestGatePlanRegistration sha limits
      (rows ++ [nextRecord sha l.createdAt (l.event sha) rows]) =
        .ok (some (l.registration sha)) := by
  have hincreasing := increasing_nextRecord hrows sha l.createdAt (l.event sha)
  have htype : (nextRecord sha l.createdAt (l.event sha) rows).eventType ∈
      registrationEventTypes := by
    show (if l.previousPlanHash.isSome then "GatePlanChanged" else "GatePlanRegistered") ∈ _
    cases l.previousPlanHash with
    | none => exact List.mem_cons_self
    | some previous => exact List.mem_cons_of_mem _ List.mem_cons_self
  have hread : registrationFromRecord sha limits
      (nextRecord sha l.createdAt (l.event sha) rows) = .ok (l.registration sha) :=
    registrationFromRecord_nextRecord (planPart_tenKeys l.fields) rfl hserialises
      fun mapping hmapping => (fromCanonical_of_legacy hmapping).trans l.reads
  rw [latestGatePlanRegistration, latestRecordOfTypes_own hincreasing htype]
  dsimp only
  rw [hread]
  rfl

theorem reread_start {rows : List LedgerRecord} (h : Origin sha limits rows legacy) :
    Reread sha limits legacy texts (registryStart sha rows legacy) := by
  cases h with
  | fresh _ hrows hnone =>
      refine ⟨hrows, ?_, fun registration hsome => absurd hsome.symm (Option.some_ne_none _)⟩
      have hlatest := isLatest_latestRecordOfTypes hrows registrationEventTypes
      cases hfound : latestRecordOfTypes registrationEventTypes rows with
      | none =>
          show latestGatePlanRegistration sha limits rows = .ok none
          rw [latestGatePlanRegistration, hfound]
      | some record =>
          rw [hfound] at hlatest
          exact absurd hlatest.2.1 (hnone record hlatest.1)
  | legacy rows hrows l hserialises =>
      refine ⟨increasing_nextRecord hrows sha _ _, latest_legacy hrows l hserialises, ?_⟩
      intro registration hsome
      exact .inl ⟨l, rfl, Option.some.inj hsome⟩

/-- A step keeps the invariant. -/
theorem reread_step {s : RegistryState} {op : RegistryOp} (hs : Reread sha limits legacy texts s)
    (hop : Among texts op) : Reread sha limits legacy texts (registryStep sha limits s op).2 := by
  cases op with
  | register env component now plan =>
      rcases registerGatePlan_cases env component now plan hs.readBack with
        ⟨e, h⟩ | ⟨existing, haccepted, -, h⟩ | ⟨registration, rows', happends, -, h⟩
      · simp only [registryStep, h]
        exact hs
      · simp only [registryStep, h, ← haccepted]
        exact hs
      · obtain ⟨hincreasing, hread⟩ := happends.readBack hs.increasing
        simp only [registryStep, h]
        refine ⟨hincreasing, hread, ?_⟩
        rintro _ ⟨⟩
        have hplan : registration.plan = plan := by rw [happends.made]
        exact .inr ⟨hplan ▸ happends.hashed, hplan ▸ hop plan rfl⟩
  | other op htype =>
      simp only [registryStep]
      rcases append_cases sha limits op.env op.event.event s.rows with ⟨e, h⟩ | ⟨-, h⟩
      · rw [h]
        exact hs
      · rw [h]
        have hincreasing := increasing_nextRecord hs.increasing sha op.env.createdAt op.event.event
        refine ⟨hincreasing, ?_, hs.registered⟩
        have hread := hs.readBack
        rw [latestGatePlanRegistration] at hread ⊢
        rw [latestRecordOfTypes_other hincreasing htype]
        exact hread

end

/-! ## Plans by their hashes -/

section

variable {sha : Sha256} {limits : JsonValue.Limits} {texts : Set Bytes}

theorem textBytes_injective {s t : String} (h : textBytes s = textBytes t) : s = t :=
  String.toByteArray_inj.mp (ByteArray.ext (Array.toList_inj.mp h))

theorem plain_canonicalDict (fields : PlanFields) : ∀ f ∈ fields.canonicalDict, f.2.plain = true := by
  intro f hf
  rcases List.mem_append.mp hf with hf | hf
  · exact (planPart_tenKeys fields).plain f hf
  · simp only [PlanFields.liveKeys, List.mem_cons, List.not_mem_nil, or_false] at hf
    rcases hf with rfl | rfl | rfl
    all_goals rfl

theorem GatePlan.serialises_of_planHash {plan : GatePlan} {planHash : String}
    (h : plan.planHash sha limits = .ok planHash) :
    (Json.obj plan.canonicalDict).serialises limits limits.depth = true := by
  obtain ⟨text, htext, -⟩ := Effects.except_bind_ok.mp h
  unfold GatePlan.canonicalJsonStr at htext
  by_contra hserialises
  rw [if_neg hserialises] at htext
  cases htext

/-- Two texts hashed alike are one, where the hash is injective. -/
theorem canonical_of_contentHash (hinj : Set.InjOn sha.digest texts)
    {fields fields' : List (String × Json)}
    (hmem : textBytes (Json.obj fields).canonical ∈ texts)
    (hmem' : textBytes (Json.obj fields').canonical ∈ texts)
    (h : contentHash sha fields = contentHash sha fields') :
    (Json.obj fields).canonical = (Json.obj fields').canonical :=
  textBytes_injective (hinj hmem hmem' (Hex.hex_injective h))

/-- **One hash, one plan.** -/
theorem plan_of_planHash (hinj : Set.InjOn sha.digest texts) {plan plan' : GatePlan}
    {planHash : String} (h : plan.planHash sha limits = .ok planHash)
    (h' : plan'.planHash sha limits = .ok planHash)
    (hmem : textBytes (Json.obj plan.canonicalDict).canonical ∈ texts)
    (hmem' : textBytes (Json.obj plan'.canonicalDict).canonical ∈ texts) : plan = plan' := by
  have htext := canonical_of_contentHash hinj hmem hmem'
    ((GatePlan.planHash_ok h).trans (GatePlan.planHash_ok h').symm)
  have hperm := Json.toFields_perm_of_canonical (nodup_canonicalDict _) (nodup_canonicalDict _)
    (plain_canonicalDict _) (plain_canonicalDict _) (GatePlan.serialises_of_planHash h)
    (GatePlan.serialises_of_planHash h') htext
  have hread := fromCanonical_canonicalDict plan (.refl _) (.refl _)
  rw [fromCanonical_canonicalDict plan' (.refl _) hperm] at hread
  exact (Except.ok.inj hread).symm

/-- What an event's fields can be written in, its payload's can. -/
theorem serialises_part {part : List (String × Json)} {component planHash : String}
    {paperClockStart : ℤ} {previous : Option String}
    (h : (registrationEvent component part planHash paperClockStart previous).envelope.serialises
      limits limits.depth = true) :
    (Json.obj part).serialises limits limits.depth = true := by
  rw [Event.envelope, Json.serialises, Bool.and_eq_true, Json.serialisesFields_iff] at h
  have hdata := h.2 ("data", .obj (part ++ registrationFields planHash paperClockStart previous))
    (by simp [registrationEvent])
  rw [Json.serialises, Bool.and_eq_true, decide_eq_true_eq, Json.serialisesFields_iff] at hdata
  have hpart : (Json.obj part).serialises limits (limits.depth - 1) = true := by
    rw [Json.serialises, Bool.and_eq_true, decide_eq_true_eq, Json.serialisesFields_iff]
    exact ⟨hdata.1, fun f hf => hdata.2 f (List.mem_append_left _ hf)⟩
  exact Json.serialises_mono (Nat.sub_le _ _) hpart

/-- **A legacy registration's hash is no plan's.** -/
theorem legacy_ne_planHash (hinj : Set.InjOn sha.digest texts) (l : LegacyRegistration)
    (hserialises : (l.event sha).envelope.serialises limits limits.depth = true) {plan : GatePlan}
    {planHash : String} (h : plan.planHash sha limits = .ok planHash)
    (hmem : textBytes (Json.obj l.fields.tenKeys).canonical ∈ texts)
    (hmem' : textBytes (Json.obj plan.canonicalDict).canonical ∈ texts) :
    (l.registration sha).planHash ≠ planHash := by
  intro hsame
  have htext := canonical_of_contentHash hinj hmem hmem'
    (hsame.trans (GatePlan.planHash_ok h).symm)
  have hperm := Json.toFields_perm_of_canonical (nodup_tenKeys _) (nodup_canonicalDict _)
    (planPart_tenKeys _).plain (plain_canonicalDict _) (serialises_part hserialises)
    (GatePlan.serialises_of_planHash h) htext
  have hlength := hperm.length_eq
  rw [Json.toFields_eq, Json.toFields_eq, List.length_map, List.length_map] at hlength
  have hten : l.fields.tenKeys.length = 10 := rfl
  have hall : plan.canonicalDict.length = 13 := rfl
  omega

end

/-! ## The registry, step by step -/

/-- **What a step of the registry leaves behind.** -/
structure RegistryKept (sha : Sha256) (limits : JsonValue.Limits)
    (legacy : Option LegacyRegistration)
    (t : Transition RegistryState RegistryOp (Option (Except RegistryError GatePlanRegistration))) :
    Prop where
  readBack : latestGatePlanRegistration sha limits t.post.rows = .ok t.post.accepted
  refused : ∀ e, t.output = some (.error e) → t.post = t.pre
  accepted : ∀ registration, t.output = some (.ok registration) →
    t.post.accepted = some registration ∧ t.input.plan? = some registration.plan
  offered : ∀ env component now plan registration, t.input = .register env component now plan →
    t.output = some (.ok registration) →
      offer registration.planHash now (t.pre.accepted.map (·.timed)) = some registration.timed
  clock : ∀ before, t.pre.accepted = some before → ∃ after, t.post.accepted = some after ∧
    (after = before ∨ Restarts before.timed after.timed ∧
      ((∀ l ∈ legacy, l.registration sha ≠ before) → after.plan ≠ before.plan))
  again : ∀ before, t.pre.accepted = some before → (∀ l ∈ legacy, l.registration sha ≠ before) →
    t.input.plan? = some before.plan → t.output = some (.ok before) ∧ t.post = t.pre
  upgraded : ∀ l ∈ legacy, t.pre.accepted = some (l.registration sha) →
    ∀ after, t.output = some (.ok after) → Restarts (l.registration sha).timed after.timed

section

variable {sha : Sha256} {limits : JsonValue.Limits} {legacy : Option LegacyRegistration}
  {texts : Set Bytes} {s : RegistryState}

/-- What the runs share: a hash injective on the texts, the legacy plan's among them. -/
structure Hashes (sha : Sha256) (limits : JsonValue.Limits) (legacy : Option LegacyRegistration)
    (texts : Set Bytes) : Prop where
  injective : Set.InjOn sha.digest texts
  among : ∀ l ∈ legacy, textBytes (Json.obj l.fields.tenKeys).canonical ∈ texts
  serialises : ∀ l ∈ legacy, (l.event sha).envelope.serialises limits limits.depth = true

/-- Registering what is registered changes nothing. -/
theorem registerGatePlan_again {rows : List LedgerRecord} {existing : GatePlanRegistration}
    (env : AppendEnv) (component : String) (now : ℤ) {plan : GatePlan}
    (hread : latestGatePlanRegistration sha limits rows = .ok (some existing))
    (hhash : plan.planHash sha limits = .ok existing.planHash) :
    registerGatePlan sha limits env component now plan rows = (.ok existing, rows) := by
  unfold registerGatePlan
  rw [hread]
  dsimp only
  rw [hhash]
  exact if_pos rfl

/-- A plan with another hash is registered after the one that stands. -/
theorem registerGatePlan_changed {rows : List LedgerRecord} {existing : GatePlanRegistration}
    {plan : GatePlan} {planHash : String} (env : AppendEnv) (component : String) (now : ℤ)
    (hread : latestGatePlanRegistration sha limits rows = .ok (some existing))
    (hhash : plan.planHash sha limits = .ok planHash) (hother : existing.planHash ≠ planHash) :
    registerGatePlan sha limits env component now plan rows =
      appendChangedRegistration sha limits env component now plan existing rows := by
  unfold registerGatePlan
  rw [hread]
  dsimp only
  rw [hhash]
  exact if_neg hother

/-- The paper clock stands, or restarts under another hash. -/
theorem registerGatePlan_follows {rows rows' : List LedgerRecord}
    {before registration : GatePlanRegistration} {env : AppendEnv} {component : String} {now : ℤ}
    {plan : GatePlan} (hread : latestGatePlanRegistration sha limits rows = .ok (some before))
    (h : registerGatePlan sha limits env component now plan rows = (.ok registration, rows')) :
    (registration = before ∧ rows' = rows) ∨ Restarts before.timed registration.timed := by
  obtain ⟨hhash, hoffer⟩ := registerGatePlan_offer hread h
  rcases RestartedClock.follows_of_offer hoffer with hsame | hrestarts
  · have hstands : plan.planHash sha limits = .ok before.planHash :=
      hhash.trans (congrArg Except.ok (congrArg Timed.subject hsame))
    rw [registerGatePlan_again env component now hread hstands] at h
    cases h
    exact .inl ⟨rfl, rfl⟩
  · exact .inr hrestarts

/-- The plan of an accepted call is the plan that stands. -/
theorem plan_of_accepted (hhashes : Hashes sha limits legacy texts)
    (hs : Reread sha limits legacy texts s) {env : AppendEnv} {component : String} {now : ℤ}
    {plan : GatePlan} (hplan : textBytes (Json.obj plan.canonicalDict).canonical ∈ texts)
    {registration : GatePlanRegistration} {rows' : List LedgerRecord}
    (h : registerGatePlan sha limits env component now plan s.rows = (.ok registration, rows')) :
    registration.plan = plan := by
  rcases registerGatePlan_cases env component now plan hs.readBack with
    ⟨e, hcase⟩ | ⟨existing, haccepted, hhash, hcase⟩ | ⟨made, rows'', happends, -, hcase⟩
  · rw [hcase] at h
    cases h
  · rw [hcase] at h
    cases h
    rcases hs.registered _ haccepted with ⟨l, hl, rfl⟩ | ⟨hown, hmem⟩
    · exact absurd rfl (legacy_ne_planHash hhashes.injective l (hhashes.serialises l hl) hhash
        (hhashes.among l hl) hplan)
    · exact plan_of_planHash hhashes.injective hown hhash hmem hplan
  · rw [hcase] at h
    cases h
    rw [happends.made]

/-- **A step of the registry.** -/
theorem registry_step (hhashes : Hashes sha limits legacy texts)
    (hs : Reread sha limits legacy texts s) {op : RegistryOp} (hop : Among texts op) :
    RegistryKept sha limits legacy (transition (registryStep sha limits) s op) := by
  have hpost := (reread_step hs hop).readBack
  cases op with
  | other op htype =>
      refine ⟨hpost, fun e h => ?_, fun registration h => ?_, fun _ _ _ _ _ h => ?_,
        fun before h => ⟨before, h, .inl rfl⟩, fun _ _ _ h => ?_, fun _ _ _ _ h => ?_⟩
      · cases h
      · cases h
      · cases h
      · cases h
      · cases h
  | register env component now plan =>
      have hplan := hop plan rfl
      rcases hcall : registerGatePlan sha limits env component now plan s.rows with
        ⟨result, rows'⟩
      cases result with
      | error e =>
          have hsame : rows' = s.rows := by
            rcases registerGatePlan_cases env component now plan hs.readBack with
              ⟨e', h⟩ | ⟨existing, -, -, h⟩ | ⟨registration, rows'', -, -, h⟩
            · rw [h] at hcall
              cases hcall
              rfl
            · rw [h] at hcall
              cases hcall
            · rw [h] at hcall
              cases hcall
          subst hsame
          have hstep : registryStep sha limits s (.register env component now plan) =
              (some (.error e), s) := by
            rw [registryStep, hcall]
          refine ⟨hpost, fun _ _ => by rw [transition, hstep], fun registration h => ?_,
            fun _ _ _ _ registration _ h => ?_, fun before h => ⟨before, ?_, .inl rfl⟩,
            fun before h hlegacy hsame => ?_, fun l hl _ after h => ?_⟩
          · simp only [transition, hstep] at h
            cases h
          · simp only [transition, hstep] at h
            cases h
          · simp only [transition, hstep]
            exact h
          · -- the plan that stands is never refused
            obtain rfl := Option.some.inj hsame
            rcases hs.registered _ h with ⟨l, hl, heq⟩ | ⟨hown, -⟩
            · exact absurd heq (hlegacy l hl)
            · have hread := hs.readBack
              have haccepted : s.accepted = some before := h
              rw [haccepted] at hread
              rw [registerGatePlan_again env component now hread hown] at hcall
              cases hcall
          · simp only [transition, hstep] at h
            cases h
      | ok registration =>
          have hstep : registryStep sha limits s (.register env component now plan) =
              (some (.ok registration), ⟨rows', some registration⟩) := by
            rw [registryStep, hcall]
          obtain ⟨hhash, hoffer⟩ := registerGatePlan_offer hs.readBack hcall
          have hsame := plan_of_accepted hhashes hs hplan hcall
          have hfollows : ∀ before, s.accepted = some before →
              (registration = before ∧ rows' = s.rows) ∨
                Restarts before.timed registration.timed := fun before hbefore =>
            registerGatePlan_follows (hbefore ▸ hs.readBack) hcall
          refine ⟨hpost, fun e h => ?_, fun _ h => ?_, ?_, fun before hbefore => ?_,
            fun before hbefore hlegacy hagain => ?_, fun l hl hbefore after h => ?_⟩
          · simp only [transition, hstep] at h
            cases h
          · simp only [transition, hstep] at h ⊢
            cases h
            exact ⟨rfl, congrArg some hsame.symm⟩
          · rintro _ _ _ _ _ hinput h
            simp only [transition, hstep] at hinput h ⊢
            cases hinput
            cases h
            exact hoffer
          · refine ⟨registration, by simp only [transition, hstep], ?_⟩
            rcases hfollows before hbefore with ⟨rfl, -⟩ | hrestarts
            · exact .inl rfl
            · refine .inr ⟨hrestarts, fun hlegacy hplans => ?_⟩
              rcases hs.registered _ hbefore with ⟨l, hl, heq⟩ | ⟨hown, -⟩
              · exact hlegacy l hl heq
              · have hhashes := hown.symm.trans (hplans ▸ hsame ▸ hhash)
                exact hrestarts.other (Except.ok.inj hhashes).symm
          · obtain rfl := Option.some.inj hagain
            rcases hs.registered _ hbefore with ⟨l, hl, heq⟩ | ⟨hown, -⟩
            · exact absurd heq (hlegacy l hl)
            · have haccepted : s.accepted = some before := hbefore
              rw [registerGatePlan_again env component now (haccepted ▸ hs.readBack) hown] at hcall
              cases hcall
              rw [transition, hstep, ← haccepted]
              exact ⟨rfl, rfl⟩
          · simp only [transition, hstep] at h
            cases h
            rcases hfollows _ hbefore with ⟨rfl, -⟩ | hrestarts
            · exact absurd rfl (legacy_ne_planHash hhashes.injective l (hhashes.serialises l hl)
                hhash (hhashes.among l hl) hplan)
            · exact hrestarts

end

/-! ## Runs of the registry -/

section

variable {sha : Sha256} {limits : JsonValue.Limits} {legacy : Option LegacyRegistration}
  {rows : List LedgerRecord}

theorem hashes_of_origin {ops : List RegistryOp} (h : Origin sha limits rows legacy)
    (hinj : Set.InjOn sha.digest (hashedTexts legacy ops)) :
    Hashes sha limits legacy (hashedTexts legacy ops) := by
  refine ⟨hinj, fun l hl => .inl ⟨l, hl, rfl⟩, fun l hl => ?_⟩
  cases h with
  | fresh _ _ _ => cases hl
  | legacy _ _ l' hserialises =>
      cases hl
      exact hserialises

theorem among_hashedTexts {ops : List RegistryOp} {op : RegistryOp} (h : op ∈ ops) :
    Among (hashedTexts legacy ops) op :=
  fun plan hplan => .inr ⟨op, h, plan, hplan, rfl⟩

theorem reread_run {texts : Set Bytes} {s : RegistryState} {ops : List RegistryOp}
    (hs : Reread sha limits legacy texts s) (hops : ∀ op ∈ ops, Among texts op) :
    Reread sha limits legacy texts (run (registryStep sha limits) s ops) := by
  induction ops generalizing s with
  | nil => exact hs
  | cons op ops ih =>
      rw [List.forall_mem_cons] at hops
      exact ih (reread_step hs hops.1) hops.2

/-- **Between two points of a run** the registration is the same, or the clock was restarted. -/
theorem later_run {texts : Set Bytes} (hhashes : Hashes sha limits legacy texts)
    {s : RegistryState} {ops : List RegistryOp} (hs : Reread sha limits legacy texts s)
    (hops : ∀ op ∈ ops, Among texts op) {before after : GatePlanRegistration}
    (hbefore : s.accepted = some before)
    (hafter : (run (registryStep sha limits) s ops).accepted = some after) :
    after = before ∨ before.paperClockStart < after.paperClockStart := by
  induction ops generalizing s before with
  | nil => exact .inl (Option.some.inj (hafter.symm.trans hbefore))
  | cons op ops ih =>
      rw [List.forall_mem_cons] at hops
      obtain ⟨next, hnext, hclock⟩ := (registry_step hhashes hs hops.1).clock before hbefore
      have hrest := ih (reread_step hs hops.1) hops.2 hnext hafter
      rcases hclock with rfl | ⟨hrestarts, -⟩
      · exact hrest
      · have hlater : before.paperClockStart < next.paperClockStart := hrestarts.later
        rcases hrest with rfl | hrest
        · exact .inr hlater
        · exact .inr (hlater.trans hrest)

/-- **The gate plan registry.**  Whatever plans are registered under whatever clock readings, on a
ledger without registrations or behind a legacy one: the registration read back is the last accepted
one; a refused call changes nothing; the clock stands or is restarted at a later time for another
hash, linked to the one before, and under another plan unless the legacy registration stood; a plan
read back is registered again by a no-op unless it is the legacy one, which a call can only replace;
and a plan that comes back after another has a later clock.  Plans survive their dictionaries.

The hash is assumed injective on what the run hashes. -/
theorem registry_keeps_its_clock (sha : Sha256) (limits : JsonValue.Limits)
    (rows : List LedgerRecord) (legacy : Option LegacyRegistration) (ops : List RegistryOp)
    (horigin : Origin sha limits rows legacy)
    (hinj : Set.InjOn sha.digest (hashedTexts legacy ops)) :
    (∀ t ∈ trace (registryStep sha limits) (registryStart sha rows legacy) ops,
      RegistryKept sha limits legacy t) ∧
    (∀ first second third a b c, ops = first ++ second ++ third →
      (run (registryStep sha limits) (registryStart sha rows legacy) first).accepted = some a →
      (run (registryStep sha limits) (registryStart sha rows legacy)
        (first ++ second)).accepted = some b →
      (run (registryStep sha limits) (registryStart sha rows legacy) ops).accepted = some c →
      b.plan ≠ a.plan → c.plan = a.plan →
      a.paperClockStart < b.paperClockStart ∧ b.paperClockStart < c.paperClockStart) ∧
    ∀ (plan : GatePlan) (windows : List (String × String)) (mapping : Mapping),
      windows.Perm plan.metricWindows →
      mapping.Perm
        (Json.toFields { plan.toPlanFields with metricWindows := windows }.canonicalDict) →
      GatePlan.init { plan.toPlanFields with metricWindows := windows } = .ok plan ∧
        GatePlan.fromCanonical mapping = .ok plan := by
  have hhashes := hashes_of_origin horigin hinj
  have hstart : Reread sha limits legacy (hashedTexts legacy ops)
      (registryStart sha rows legacy) := reread_start horigin
  have hamong : ∀ op ∈ ops, Among (hashedTexts legacy ops) op := fun op hop =>
    among_hashedTexts hop
  refine ⟨fun t ht => ?_, ?_, fun plan windows mapping hwindows hmapping =>
    ⟨plan.init_of_perm hwindows, fromCanonical_canonicalDict plan hwindows hmapping⟩⟩
  · obtain ⟨before, after, hops, h⟩ := mem_trace.mp ht
    rw [h]
    refine registry_step hhashes (reread_run hstart fun op hop => hamong op ?_) (hamong _ ?_)
    · rw [hops]
      exact List.mem_append_left _ hop
    · rw [hops]
      exact List.mem_append_right _ List.mem_cons_self
  · intro first second third a b c hops ha hb hc hother hback
    have hfirst : ∀ op ∈ first, Among (hashedTexts legacy ops) op := fun op hop => hamong op <| by
      rw [hops]
      exact List.mem_append_left _ (List.mem_append_left _ hop)
    have hsecond : ∀ op ∈ second, Among (hashedTexts legacy ops) op := fun op hop =>
      hamong op <| by
        rw [hops]
        exact List.mem_append_left _ (List.mem_append_right _ hop)
    have hthird : ∀ op ∈ third, Among (hashedTexts legacy ops) op := fun op hop =>
      hamong op <| by
        rw [hops]
        exact List.mem_append_right _ hop
    have hmiddle := reread_run hstart hfirst
    have hlast := reread_run hmiddle hsecond
    rw [run_append] at hb
    rw [hops, run_append, run_append] at hc
    constructor
    · refine (later_run hhashes hmiddle hsecond ha hb).resolve_left ?_
      rintro rfl
      exact hother rfl
    · refine (later_run hhashes hlast hthird hb hc).resolve_left ?_
      rintro rfl
      exact hother hback

end

/-! ## A plan that comes back, and a legacy registration -/

/-- A plan with one metric, its live thresholds the default ones. -/
def samplePlan : GatePlan where
  metricWindows := [("brier_score", "latest_before_close")]
  minResolvedForCalibration := 30
  promotionMinResolved := 100
  promotionMinIndependentEventGroups := 40
  brierSkillRequiredPpm := 20000
  bootstrapConfidencePpm := 950000
  observationWindow := "latest_before_close"
  baselineScheme := "executable_price_at_baseline_snapshot"
  clusteringScheme := "event_correlation_group"
  paperFillModelVersion := "pfm-v1"
  ordered := List.pairwise_singleton _ _

/-- A store that works. -/
def workingStore : AppendEnv := ⟨"2023-11-14T22:13:20.000000+00:00", false, false, false, false⟩

/-- The plan with a larger sample. -/
def largerPlan : GatePlan := { samplePlan with promotionMinResolved := 120 }

/-- SHA-256 on the texts of the two plans. -/
def samplePlanSha : Sha256 :=
  .ofTwo (textBytes (Json.obj samplePlan.canonicalDict).canonical)
    [40, 211, 91, 129, 2, 171, 14, 109, 212, 193, 116, 197, 53, 87, 189, 110,
      217, 180, 137, 14, 108, 178, 171, 1, 234, 71, 168, 15, 168, 196, 11, 157]
    [18, 77, 48, 48, 125, 251, 242, 69, 22, 33, 162, 47, 128, 41, 133, 45,
      245, 226, 178, 13, 80, 116, 28, 166, 174, 46, 212, 220, 209, 62, 238, 252] rfl rfl

/-- A plan is registered; another one is refused while the clock stands, and accepted a minute later;
and the first one comes back. -/
def sampleCalls : List RegistryOp :=
  [.register workingStore "evaluation" 1700000000 samplePlan,
    .register workingStore "evaluation" 1700000000 largerPlan,
    .register workingStore "evaluation" 1700000060 largerPlan,
    .register workingStore "evaluation" 1700000120 samplePlan]

theorem sample_plan_registered : samplePlan ≠ largerPlan ∧
    ∀ t ∈ trace (registryStep samplePlanSha ⟨4300, 1000⟩) (registryStart samplePlanSha [] none)
      sampleCalls, RegistryKept samplePlanSha ⟨4300, 1000⟩ none t := by
  have horigin : Origin samplePlanSha ⟨4300, 1000⟩ [] none :=
    .fresh [] List.Pairwise.nil fun record hrecord => absurd hrecord List.not_mem_nil
  have htwo : ∀ message ∈ hashedTexts none sampleCalls,
      message = textBytes (Json.obj samplePlan.canonicalDict).canonical ∨
        message = textBytes (Json.obj largerPlan.canonicalDict).canonical := by
    rintro message (⟨l, hl, -⟩ | ⟨op, hop, plan, hplan, rfl⟩)
    · cases hl
    · simp only [sampleCalls, List.mem_cons, List.not_mem_nil, or_false] at hop
      rcases hop with rfl | rfl | rfl | rfl <;> cases hplan
      · exact .inl rfl
      · exact .inr rfl
      · exact .inr rfl
      · exact .inl rfl
  have hinj : Set.InjOn samplePlanSha.digest (hashedTexts none sampleCalls) :=
    Sha256.injOn_ofTwo _ (by decide) htwo
  have hdiffer : samplePlan ≠ largerPlan := fun h =>
    absurd (congrArg (·.promotionMinResolved) h) (by decide)
  exact ⟨hdiffer, (registry_keeps_its_clock samplePlanSha ⟨4300, 1000⟩ [] none sampleCalls horigin
    hinj).1⟩

/-- The plan as it was registered before there were live thresholds. -/
def sampleLegacy : LegacyRegistration where
  fields := samplePlan.toPlanFields
  plan := samplePlan
  reads := samplePlan.init_self
  component := "evaluation"
  createdAt := "2023-11-14T22:13:20.000000+00:00"
  paperClockStart := 1700000000
  previousPlanHash := none

/-- The ledger with nothing but the legacy registration. -/
def legacyLedger (sha : Sha256) : List LedgerRecord :=
  [nextRecord sha sampleLegacy.createdAt (sampleLegacy.event sha) []]

/-- **Whatever the hash**, as long as it tells the two texts apart: registering the plan that a legacy
registration reads as is not a no-op. -/
theorem legacy_plan_replaced : ¬ ∃ sha : Sha256,
    sha.digest (textBytes (Json.obj sampleLegacy.fields.tenKeys).canonical) ≠
      sha.digest (textBytes (Json.obj samplePlan.canonicalDict).canonical) ∧
    ∀ registration,
      latestGatePlanRegistration sha ⟨4300, 1000⟩ (legacyLedger sha) = .ok (some registration) →
      (registerGatePlan sha ⟨4300, 1000⟩ workingStore "evaluation" 1700000060
        registration.plan (legacyLedger sha)).2 = legacyLedger sha := by
  rintro ⟨sha, hne, hclaim⟩
  -- whatever the two hashes, they are strings
  have hlegacy : ∀ planHash : String, (registrationEvent "evaluation"
      sampleLegacy.fields.tenKeys planHash 1700000000 none).envelope.serialises
        ⟨4300, 1000⟩ 1000 = true := by
    intro planHash
    simp only [Event.envelope, registrationEvent, registrationFields, PlanFields.tenKeys,
      sampleLegacy, samplePlan, metricWindowsJson, List.map_cons, List.map_nil, List.cons_append,
      List.nil_append, Json.serialises, Json.serialisesFields, Json.serialisesItems]
    decide
  have hread : latestGatePlanRegistration sha ⟨4300, 1000⟩ (legacyLedger sha) =
      .ok (some (sampleLegacy.registration sha)) :=
    @latest_legacy sha _ [] List.Pairwise.nil sampleLegacy (hlegacy _)
  have hsame := hclaim _ hread
  have hserialises : (Json.obj samplePlan.canonicalDict).serialises ⟨4300, 1000⟩ 1000 = true := by
    decide
  have hhash : samplePlan.planHash sha ⟨4300, 1000⟩ =
      .ok (contentHash sha samplePlan.canonicalDict) := by
    rw [GatePlan.planHash, GatePlan.canonicalJsonStr, if_pos hserialises]
    rfl
  have hother : (sampleLegacy.registration sha).planHash ≠
      contentHash sha samplePlan.canonicalDict := fun heq => hne (Hex.hex_injective heq)
  have hevent : ∀ planHash previous : String, (registrationEvent "evaluation"
      (flatPlanFields samplePlan) planHash 1700000060 (some previous)).envelope.serialises
        ⟨4300, 1000⟩ 1000 = true := by
    intro planHash previous
    simp only [Event.envelope, registrationEvent, registrationFields, flatPlanFields, samplePlan,
      metricWindowsJson, List.map_cons, List.map_nil, List.cons_append, List.nil_append,
      Json.serialises, Json.serialisesFields, Json.serialisesItems]
    decide
  have happend : ∀ event : Event, event.envelope.serialises ⟨4300, 1000⟩ 1000 = true →
      append sha ⟨4300, 1000⟩ workingStore event (legacyLedger sha) =
        (.ok (nextRecord sha workingStore.createdAt event (legacyLedger sha)).sequenceNumber,
          legacyLedger sha ++ [nextRecord sha workingStore.createdAt event (legacyLedger sha)]) := by
    intro event h
    unfold append
    rw [h]
    rfl
  have happended : registerGatePlan sha ⟨4300, 1000⟩ workingStore "evaluation" 1700000060
      samplePlan (legacyLedger sha) =
        appendRegistration sha ⟨4300, 1000⟩ workingStore "evaluation" samplePlan 1700000060
          (some (sampleLegacy.registration sha).planHash) (legacyLedger sha) := by
    rw [registerGatePlan_changed workingStore "evaluation" 1700000060 hread hhash hother]
    exact if_neg (show ¬ (1700000060 : ℤ) ≤ 1700000000 by decide)
  have hrows : (registerGatePlan sha ⟨4300, 1000⟩ workingStore "evaluation" 1700000060 samplePlan
      (legacyLedger sha)).2.length = 2 := by
    rw [happended, appendRegistration, hhash]
    dsimp only
    rw [happend _ (hevent _ _)]
    rfl
  have hone : (legacyLedger sha).length = 1 := rfl
  have htwo := congrArg List.length hsame
  rw [show (sampleLegacy.registration sha).plan = samplePlan from rfl, hrows, hone] at htwo
  exact absurd htwo (by decide)

end Windbreak
