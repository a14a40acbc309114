import Windbreak.Core.Runs
import Windbreak.OrderGateway.CallEffects
import Windbreak.RiskKernel.LedgerRuns

/-!
# Runs of the gateway

What one call and one recovery can do, whatever their collaborators do, and the machine they are
the steps of.

* **`processIntent_processed`** — every call refuses, rejects, replays, stalls or places.
* **`recover_recovered`** — a recovery adds journalled acknowledgements to the cache, and all of
  them when it opens the gateway.
-/

namespace Windbreak

namespace OrderGateway

open Machine Effects

/-! ## Recovery -/

/-- What a process remembers is forgotten; what was done, and what is journalled, is not. -/
def Standing.forgotten (s : Standing) : Standing :=
  { s with acks := .empty, acceptingApprovals := false }

/-- Rehydrating ids of `S` only adds acknowledgements, and only under those ids. -/
structure Rehydrates (S : Set String) (w w' : GatewayWorld) : Prop where
  forgotten : w'.standing.forgotten = w.standing.forgotten
  acceptingApprovals : w'.acceptingApprovals = w.acceptingApprovals
  kept : ∀ c ∈ w.acks.keys, c ∈ w'.acks.keys
  within : ∀ c ∈ w'.acks.keys, c ∈ w.acks.keys ∨ c ∈ S

instance (S : Set String) : IsPreorder GatewayWorld (Rehydrates S) where
  refl w := ⟨rfl, rfl, fun _ h => h, fun _ h => .inl h⟩
  trans u v w h h' := by
    refine ⟨h'.forgotten.trans h.forgotten, h'.acceptingApprovals.trans h.acceptingApprovals,
      fun c hc => h'.kept c (h.kept c hc), fun c hc => ?_⟩
    rcases h'.within c hc with hold | hnew
    · exact h.within c hold
    · exact .inr hnew

theorem Rehydrates.of_standing {S : Set String} {w w' : GatewayWorld}
    (h : w'.standing = w.standing) : Rehydrates S w w' := by
  have hacks : w'.acks = w.acks := congrArg Standing.acks h
  refine ⟨by rw [h], congrArg Standing.acceptingApprovals h, fun c hc => ?_, fun c hc => .inl ?_⟩
  · rwa [hacks]
  · rwa [hacks] at hc

theorem rehydrates_withAck {S : Set String} {coid : String} (h : coid ∈ S) (w : GatewayWorld)
    (ack : SubmissionAck) : Rehydrates S w (w.withAck coid ack) where
  forgotten := rfl
  acceptingApprovals := rfl
  kept c hc := by simp [hc]
  within c hc := by
    rcases OrderedDict.mem_keys_set.mp hc with rfl | hc
    · exact .inr h
    · exact .inl hc

/-- Rehydrating one acknowledgement caches it, whether or not the rest succeeds. -/
theorem rehydrateAck_standing (env : GatewayEnv) (intents : String → Option OrderIntent)
    (openIds : List String) (states : OrderedDict String OrderState) (coid : String)
    (orderId : Option String) (filled : ContractCentis) (w : GatewayWorld) :
    (finalState ((rehydrateAck env intents openIds states coid orderId filled).run w)).standing =
      (w.withAck coid ⟨orderId, filled⟩).standing := by
  have hcomplete : Frames GatewayWorld.standing
      (completeLedgerToAcked env coid (states.get? coid)) := completeLedgerToAcked_moves
    (fun state event => applyAndLedger_moves (fun _ _ => rfl) env state event coid) _
  have hadopt : Frames GatewayWorld.standing
      (adoptIfOpen env openIds coid filled orderId (intents coid)) :=
    adoptIfOpen_moves (fun _ _ _ => rfl) fun _ _ _ => rfl
  have hrest := Moves.bind hcomplete fun _ => hadopt
  unfold rehydrateAck
  rw [EStateM.run_bind, EStateM.run_modify]
  exact hrest (w.withAck coid ⟨orderId, filled⟩)

theorem rehydrateAck_rehydrates {S : Set String} {coid : String} (h : coid ∈ S) (env : GatewayEnv)
    (intents : String → Option OrderIntent) (openIds : List String)
    (states : OrderedDict String OrderState) (orderId : Option String) (filled : ContractCentis) :
    Moves (Rehydrates S) (rehydrateAck env intents openIds states coid orderId filled) := fun w =>
  IsTrans.trans _ _ _ (rehydrates_withAck h w ⟨orderId, filled⟩)
    (Rehydrates.of_standing (rehydrateAck_standing env intents openIds states coid orderId filled w))

/-- The ids acknowledged by a list of journal records. -/
def ackedIn (records : List WalRecord) : List String := records.filterMap WalRecord.ackedId?

theorem rehydrateEach_rehydrates {S : Set String} {records : List WalRecord}
    (h : ∀ c ∈ ackedIn records, c ∈ S) (env : GatewayEnv) (intents : String → Option OrderIntent)
    (openIds : List String) (states : OrderedDict String OrderState) :
    Moves (Rehydrates S) (rehydrateEach env intents openIds states records) := by
  induction records with
  | nil => exact Moves.pure _
  | cons walRecord rest ih =>
      cases walRecord with
      | intent coid intent => exact ih h
      | ack coid orderId filled =>
          have hrest := ih fun c hc => h c (.tail _ hc)
          have hone := rehydrateAck_rehydrates (h coid (.head _)) env intents openIds states orderId
            filled
          have hboth := Moves.bind hone fun _ => Moves.bind hrest fun reconciled =>
            Moves.pure (reconciled + 1)
          unfold rehydrateEach
          exact Moves.get_bind fun w => Moves.ite (fun _ => hrest) (fun _ => hboth) w

/-- **A rehydration that succeeds** leaves every acknowledged id cached. -/
theorem rehydrateEach_cached {env : GatewayEnv} {intents : String → Option OrderIntent}
    {openIds : List String} {states : OrderedDict String OrderState} {records : List WalRecord}
    {w w' : GatewayWorld} {n : ℕ}
    (h : (rehydrateEach env intents openIds states records).run w = .ok n w') :
    ∀ c ∈ ackedIn records, c ∈ w'.acks.keys := by
  induction records generalizing w n with
  | nil => simp [ackedIn]
  | cons walRecord rest ih =>
      cases walRecord with
      | intent coid intent => exact ih h
      | ack coid orderId filled =>
          have hkept : ∀ {u m}, (rehydrateEach env intents openIds states rest).run u = .ok m w' →
              coid ∈ u.acks.keys → coid ∈ w'.acks.keys := by
            intro u m hrun
            have hmoves := @rehydrateEach_rehydrates {c | c ∈ ackedIn rest} rest (fun c hc => hc)
              env intents openIds states
            exact (hmoves.of_ok hrun).kept coid
          have hcons : ackedIn (.ack coid orderId filled :: rest) = coid :: ackedIn rest := rfl
          rw [hcons, List.forall_mem_cons]
          unfold rehydrateEach at h
          rw [EStateM.run_bind, EStateM.run_get] at h
          dsimp only at h
          split at h
          · rename_i hcached
            exact ⟨hkept h hcached, ih h⟩
          · obtain ⟨_, u, hone, hrest⟩ := run_bind_ok.mp h
            obtain ⟨m, v, hrec, hlast⟩ := run_bind_ok.mp hrest
            cases hlast
            have hu := rehydrateAck_standing env intents openIds states coid orderId filled w
            rw [hone] at hu
            have hacks : u.acks = w.acks.set coid ⟨orderId, filled⟩ := congrArg Standing.acks hu
            have hcached : coid ∈ u.acks.keys := by
              rw [hacks]
              simp
            exact ⟨hkept hrec hcached, ih hrec⟩

theorem rehydrateFromWal_rehydrates {S : Set String} {walRecords : List WalRecord}
    (h : ∀ c ∈ ackedIn walRecords, c ∈ S) (env : GatewayEnv) (records : List Event)
    (openOrders : List OpenOrder) :
    Moves (Rehydrates S) (rehydrateFromWal env records walRecords openOrders) :=
  Moves.bind (reading_moves _ _) fun states => rehydrateEach_rehydrates h env _ _ states

theorem rehydrateFromWal_cached {env : GatewayEnv} {records : List Event}
    {walRecords : List WalRecord} {openOrders : List OpenOrder} {w w' : GatewayWorld} {n : ℕ}
    (h : (rehydrateFromWal env records walRecords openOrders).run w = .ok n w') :
    ∀ c ∈ ackedIn walRecords, c ∈ w'.acks.keys := by
  obtain ⟨states, u, -, heach⟩ := run_bind_ok.mp h
  exact rehydrateEach_cached heach

/-- **What a recovery leaves**: everything done and journalled, at most the journalled
acknowledgements added to the cache, and all of them when it opened the gateway. -/
structure Recovered (cfg : GatewayConfig) (w w' : GatewayWorld) : Prop where
  forgotten : w'.standing.forgotten = w.standing.forgotten
  kept : ∀ c ∈ w.acks.keys, c ∈ w'.acks.keys
  within : ∀ c ∈ w'.acks.keys, c ∈ w.acks.keys ∨ c ∈ w.wal.ackedIds
  opened : w'.acceptingApprovals = true → w.acceptingApprovals = true ∨
    (cfg.hasWal = true → ∀ c ∈ w.wal.ackedIds, c ∈ w'.acks.keys)

namespace Recovered

variable {cfg : GatewayConfig} {w w' : GatewayWorld}

theorem registry (h : Recovered cfg w w') : w'.registry = w.registry := by
  have hregistry := congrArg Standing.registry h.forgotten
  exact hregistry

theorem submissions (h : Recovered cfg w w') : w'.submissions = w.submissions := by
  have hsubmissions := congrArg Standing.submissions h.forgotten
  exact hsubmissions

theorem accepted (h : Recovered cfg w w') : w'.accepted = w.accepted := by
  have haccepted := congrArg Standing.accepted h.forgotten
  exact haccepted

theorem ackedIds (h : Recovered cfg w w') : w'.wal.ackedIds = w.wal.ackedIds := by
  have hids := congrArg Standing.ackedIds h.forgotten
  exact hids

end Recovered

theorem Recovered.of_standing {cfg : GatewayConfig} {w w' : GatewayWorld}
    (h : w'.standing = w.standing) : Recovered cfg w w' := by
  have hmoved := @Rehydrates.of_standing ∅ w w' h
  refine ⟨hmoved.forgotten, hmoved.kept, fun c hc => ?_, fun hopen => .inl ?_⟩
  · exact (hmoved.within c hc).imp_right False.elim
  · rwa [hmoved.acceptingApprovals] at hopen

theorem Recovered.of_rehydrates {cfg : GatewayConfig} {w w' : GatewayWorld}
    (h : Rehydrates {c | c ∈ w.wal.ackedIds} w w') : Recovered cfg w w' :=
  ⟨h.forgotten, h.kept, h.within, fun hopen => .inl (by rwa [h.acceptingApprovals] at hopen)⟩

theorem readLedger_moves (cfg : GatewayConfig) (env : GatewayEnv) :
    Frames GatewayWorld.standing (readLedger cfg env) := by
  refine Moves.get_bind fun w => ?_
  split_ifs <;> rfl

theorem readWal_moves (cfg : GatewayConfig) : Frames GatewayWorld.standing (readWal cfg) := by
  refine Moves.get_bind fun w => ?_
  have hread : Frames GatewayWorld.standing (reading .journal w.wal.readAll) := reading_moves _ _
  split_ifs
  · rfl
  · exact hread w

theorem readOpenOrders_moves (cfg : GatewayConfig) (env : GatewayEnv) :
    Frames GatewayWorld.standing (readOpenOrders cfg env) := by
  refine Moves.get_bind fun w => ?_
  split_ifs <;> rfl

/-- The journal as it is read: nothing when none is wired. -/
theorem readWal_ok {cfg : GatewayConfig} {w w' : GatewayWorld} {records : List WalRecord}
    (h : (readWal cfg).run w = .ok records w') :
    w' = w ∧ (∀ c ∈ ackedIn records, c ∈ w.wal.ackedIds) ∧
      (cfg.hasWal = true → ackedIn records = w.wal.ackedIds) := by
  unfold readWal at h
  rw [EStateM.run_bind, EStateM.run_get] at h
  dsimp only at h
  split_ifs at h with hunwired
  · cases h
    exact ⟨rfl, by simp [ackedIn], fun hwired => by simp [hunwired] at hwired⟩
  · unfold WriteAheadLog.readAll at h
    split_ifs at h with htorn
    · cases h
    · cases h
      exact ⟨rfl, fun c hc => hc, fun _ => rfl⟩

/-- The last step of a recovery opens or halts, and changes nothing else that matters later. -/
theorem openOrHalt_moves (env : GatewayEnv) (walRecords : List WalRecord)
    (openOrders : List OpenOrder) (reconciled : ℕ) :
    Frames (fun w => (w.standing.forgotten, w.acks))
      (openOrHalt env walRecords openOrders reconciled) := by
  have hrecord : ∀ event, Frames (fun w : GatewayWorld => (w.standing.forgotten, w.acks))
      (record env event) := fun event => record_moves (fun _ _ => rfl) env event
  have hthen : ∀ (event : Event) (f : GatewayWorld → GatewayWorld) (report : RecoveryReport),
      (∀ w, ((f w).standing.forgotten, (f w).acks) = (w.standing.forgotten, w.acks)) →
        Frames (fun w : GatewayWorld => (w.standing.forgotten, w.acks))
          (do record env event; modify f; return report : GatewayM RecoveryReport) :=
    fun event f report hf => Moves.bind (hrecord event) fun _ =>
      Moves.bind (Moves.modify hf) fun _ => Moves.pure _
  refine Moves.get_bind fun w => ?_
  split
  · exact hthen _ GatewayWorld.markedHalted _ (fun w => rfl) w
  · exact hthen _ GatewayWorld.opened _ (fun w => rfl) w

theorem recover_recovered (cfg : GatewayConfig) (env : GatewayEnv) (w : GatewayWorld) :
    Recovered cfg w (finalState ((recover cfg env).run w)) := by
  rw [recover]
  split
  · exact Recovered.of_standing rfl
  rw [EStateM.run_bind]
  cases hledger : (readLedger cfg env).run w with
  | error e u => exact Recovered.of_standing ((readLedger_moves cfg env).of_error hledger)
  | ok records u =>
    have hu := (readLedger_moves cfg env).of_ok hledger
    dsimp only
    split
    · have hacks : u.acks = w.acks := congrArg Standing.acks hu
      have hforgotten : u.standing.forgotten = w.standing.forgotten := by rw [hu]
      refine ⟨hforgotten, fun c hc => ?_, fun c hc => .inl ?_, fun hopen => ?_⟩
      · rwa [← hacks] at hc
      · rwa [← hacks]
      · exact absurd hopen Bool.false_ne_true
    rw [EStateM.run_bind]
    cases hwal : (readWal cfg).run u with
    | error e v => exact Recovered.of_standing (((readWal_moves cfg).of_error hwal).trans hu)
    | ok walRecords v =>
      obtain ⟨rfl, hwithin, hall⟩ := readWal_ok hwal
      have hids : v.wal.ackedIds = w.wal.ackedIds := congrArg Standing.ackedIds hu
      rw [hids] at hwithin hall
      dsimp only
      rw [EStateM.run_bind]
      cases hopen : (readOpenOrders cfg env).run v with
      | error e x =>
        exact Recovered.of_standing (((readOpenOrders_moves cfg env).of_error hopen).trans hu)
      | ok openOrders x =>
        have hx := ((readOpenOrders_moves cfg env).of_ok hopen).trans hu
        have hrehydrates := @rehydrateFromWal_rehydrates {c | c ∈ w.wal.ackedIds} walRecords hwithin
          env records openOrders
        dsimp only
        rw [EStateM.run_bind]
        cases hwalked : (rehydrateFromWal env records walRecords openOrders).run x with
        | error e y =>
          exact Recovered.of_rehydrates
            (IsTrans.trans _ _ _ (Rehydrates.of_standing hx) (hrehydrates.of_error hwalked))
        | ok n y =>
          have hy : Rehydrates {c | c ∈ w.wal.ackedIds} w y :=
            IsTrans.trans _ _ _ (Rehydrates.of_standing hx) (hrehydrates.of_ok hwalked)
          have hcached := rehydrateFromWal_cached hwalked
          have hlast := openOrHalt_moves env walRecords openOrders n y
          dsimp only at hlast ⊢
          obtain ⟨hforgotten, hacks⟩ := Prod.mk.inj hlast
          refine ⟨hforgotten.trans hy.forgotten, fun c hc => ?_, fun c hc => ?_, fun _ => .inr ?_⟩
          · rw [hacks]
            exact hy.kept c hc
          · rw [hacks] at hc
            exact hy.within c hc
          · intro hwired c hc
            rw [hacks]
            rw [← hall hwired] at hc
            exact hcached c hc

/-! ## One call -/

/-- A call that reaches its verification with a token that verifies. -/
structure Verified (cfg : GatewayConfig) (env : GatewayEnv) (intent : OrderIntent)
    (token : SignedApprovalToken) (w : GatewayWorld) : Prop where
  passes : Passes cfg env intent w
  verdict : (verifyAndConsume cfg.hmac token intent cfg.verificationKey env.clock w.registry).1 = .OK

/-- The world with the slot of a token taken. -/
def GatewayWorld.consuming (cfg : GatewayConfig) (token : SignedApprovalToken)
    (w : GatewayWorld) : GatewayWorld :=
  w.withRegistry ⟨insert (registrySlot cfg.hmac cfg.verificationKey token) w.registry.consumed⟩

/-- **What one call does** to what matters later. -/
inductive Processed (cfg : GatewayConfig) (env : GatewayEnv) (intent : OrderIntent)
    (token : SignedApprovalToken) (w : GatewayWorld) : Standing → Prop
  /-- A gate refuses it, or the halt. -/
  | refused (h : ¬ Passes cfg env intent w) : Processed cfg env intent token w w.standing
  /-- Its token does not verify. -/
  | rejected (h : Passes cfg env intent w) (hverdict : (verifyAndConsume cfg.hmac token intent
      cfg.verificationKey env.clock w.registry).1 ≠ .OK) : Processed cfg env intent token w w.standing
  /-- Its acknowledgement is cached. -/
  | replayed (h : Verified cfg env intent token w)
      (hcached : clientOrderId cfg.sha256 intent ∈ w.acks.keys) :
      Processed cfg env intent token w (w.consuming cfg token).standing
  /-- It is new, and something cannot be recorded before the placement. -/
  | stalled (h : Verified cfg env intent token w)
      (hnew : clientOrderId cfg.sha256 intent ∉ w.acks.keys)
      (hprepared : ¬ Prepared cfg env (clientOrderId cfg.sha256 intent)) :
      Processed cfg env intent token w (w.consuming cfg token).standing
  /-- It is new, and placed. -/
  | placed (h : Verified cfg env intent token w)
      (hnew : clientOrderId cfg.sha256 intent ∉ w.acks.keys)
      (hprepared : Prepared cfg env (clientOrderId cfg.sha256 intent)) :
      Processed cfg env intent token w
        ((w.consuming cfg token).standing.placed cfg env intent token (clientOrderId cfg.sha256 intent))

theorem verify_run (cfg : GatewayConfig) (env : GatewayEnv) (intent : OrderIntent)
    (token : SignedApprovalToken) (w : GatewayWorld) :
    (verify cfg env intent token).run w =
      .ok (verifyAndConsume cfg.hmac token intent cfg.verificationKey env.clock w.registry).1
        (w.withRegistry
          (verifyAndConsume cfg.hmac token intent cfg.verificationKey env.clock w.registry).2) :=
  rfl

theorem verifyAndSubmit_processed {cfg : GatewayConfig} {env : GatewayEnv} {intent : OrderIntent}
    {w : GatewayWorld} (hpasses : Passes cfg env intent w) (token : SignedApprovalToken) :
    Processed cfg env intent token w
      (finalState ((verifyAndSubmit cfg env intent token
        (clientOrderId cfg.sha256 intent)).run w)).standing := by
  have hregistry := verifyAndConsume_registry cfg.hmac token intent cfg.verificationKey env.clock
    w.registry
  rw [verifyAndSubmit, EStateM.run_bind, verify_run]
  dsimp only
  by_cases hverdict :
      (verifyAndConsume cfg.hmac token intent cfg.verificationKey env.clock w.registry).1 = .OK
  · have hverified : Verified cfg env intent token w := ⟨hpasses, hverdict⟩
    rw [if_pos hverdict] at hregistry
    rw [if_neg (not_not.mpr hverdict), EStateM.run_bind, EStateM.run_get, hregistry]
    dsimp only
    rw [GatewayWorld.withRegistry_acks]
    cases hcached : w.acks.get? (clientOrderId cfg.sha256 intent) with
    | some ack =>
        exact .replayed hverified (OrderedDict.mem_keys_iff.mpr ⟨ack, hcached⟩)
    | none =>
        have hnew := OrderedDict.get?_eq_none_iff.mp hcached
        dsimp only
        by_cases hprepared : Prepared cfg env (clientOrderId cfg.sha256 intent)
        · rw [submitNew_standing hprepared]
          exact .placed hverified hnew hprepared
        · rw [submitNew_of_not_prepared standing_ignoresRecords hprepared]
          exact .stalled hverified hnew hprepared
  · rw [if_neg hverdict] at hregistry
    rw [if_pos hverdict, hregistry]
    exact .rejected hpasses hverdict

/-- **Every call refuses, rejects, replays, stalls or places.** -/
theorem processIntent_processed (cfg : GatewayConfig) (env : GatewayEnv) (intent : OrderIntent)
    (token : SignedApprovalToken) (w : GatewayWorld) :
    Processed cfg env intent token w
      (finalState ((processIntent cfg env intent token).run w)).standing := by
  rw [processIntent, EStateM.run_bind, EStateM.run_get]
  dsimp only
  cases hhalted : w.halted with
  | true =>
      rw [if_pos rfl]
      refine .refused fun h => ?_
      rw [h.running] at hhalted
      exact absurd hhalted (by decide)
  | false =>
      have hgates : Frames GatewayWorld.standing
          (gateBeforeVerify cfg env intent (clientOrderId cfg.sha256 intent)) :=
        gateBeforeVerify_moves (fun _ _ _ => rfl) (fun _ _ _ _ _ _ _ => rfl) cfg env intent _
      have hpasses := @gateBeforeVerify_none cfg env intent w w hhalted
      rw [if_neg (by decide), EStateM.run_bind]
      cases hgate : (gateBeforeVerify cfg env intent (clientOrderId cfg.sha256 intent)).run w with
      | error e u =>
          have hu := hgates.of_error hgate
          dsimp only [finalState_error]
          rw [hu]
          refine .refused fun h => ?_
          rw [hpasses.mpr ⟨rfl, h⟩] at hgate
          cases hgate
      | ok verdict u =>
          cases verdict with
          | some result =>
              have hu := hgates.of_ok hgate
              dsimp only [EStateM.run_pure, finalState_ok]
              rw [hu]
              refine .refused fun h => ?_
              rw [hpasses.mpr ⟨rfl, h⟩] at hgate
              cases hgate
          | none =>
              obtain ⟨rfl, hp⟩ := (gateBeforeVerify_none hhalted).mp hgate
              exact verifyAndSubmit_processed hp token

/-! ## The machine -/

/-- A call to a gateway, a recovery, or a change of what rests on the venue. -/
inductive GatewayCall where
  | processIntent (env : GatewayEnv) (intent : OrderIntent) (token : SignedApprovalToken)
  | recover (env : GatewayEnv)
  | venueMoves (openOrders : List OpenOrder)

/-- One call: what it raised, if anything, and the world it left. -/
def callStep (cfg : GatewayConfig) (w : GatewayWorld) :
    GatewayCall → Option GatewayError × GatewayWorld
  | .processIntent env intent token => settle ((processIntent cfg env intent token).run w)
  | .recover env => settle ((recover cfg env).run w)
  | .venueMoves openOrders => (none, w.withOpenOrders openOrders)

/-- A call, or a process rebuilt over what survived the last one. -/
inductive GatewayOp where
  | call (call : GatewayCall)
  | restart

/-- One operation across the lives of a gateway. -/
def gatewayStep (cfg : GatewayConfig) (w : GatewayWorld) :
    GatewayOp → Option GatewayError × GatewayWorld
  | .call call => callStep cfg w call
  | .restart => (none, w.rebuilt cfg)

/-- The transitions of one gateway. -/
abbrev CallTransition := Transition GatewayWorld GatewayCall (Option GatewayError)

theorem callStep_processIntent (cfg : GatewayConfig) (env : GatewayEnv) (intent : OrderIntent)
    (token : SignedApprovalToken) (w : GatewayWorld) :
    Processed cfg env intent token w
      (callStep cfg w (.processIntent env intent token)).2.standing := by
  rw [callStep, settle_snd]
  exact processIntent_processed cfg env intent token w

theorem callStep_recover (cfg : GatewayConfig) (env : GatewayEnv) (w : GatewayWorld) :
    Recovered cfg w (callStep cfg w (.recover env)).2 := by
  rw [callStep, settle_snd]
  exact recover_recovered cfg env w

/-! ## A sample gateway

A wiring, collaborators that all answer, and tokens for the sample intent, for the runs on fixed
inputs in later modules.
-/

def sampleGateway : GatewayConfig where
  hmac := sampleHmac
  -- the digest of the sample intent, the only one the samples present
  sha256 := fun _ => "450d107369f4bb57f300e681f2883a7804edba31cc8e02244659bb9df85c70e2"
  verificationKey := List.replicate 32 7
  hasStatusSource := true
  hasPositionSource := true
  hasWal := true
  hasLedgerReader := true
  hasReconciliationSource := true
  submitterIsReduceOnlyCapable := true

/-- Every collaborator answers, and the order fills at once. -/
def quietEnv : GatewayEnv where
  clock := 1700000000
  trackedAt := fun _ => 1700000000
  status := .ok (some "open")
  positions := .ok []
  positionsAfterFill := .ok []
  walIntent := .written
  walAck := .written
  placement := .acknowledged ⟨none, ⟨1000⟩⟩
  record := fun _ => .written
  ledgerReadRaises := false
  openOrdersRaises := false

def sampleClaims (sequence : ℤ) : ApprovalTokenClaims where
  intentId := sampleIntent.intentId
  marketTicker := sampleIntent.marketTicker
  outcome := sampleIntent.outcome
  action := sampleIntent.action
  limitPricePips := sampleIntent.price
  countCentis := sampleIntent.size
  maxFeeMicros := ⟨0⟩
  expiresAt := 1700000060
  idempotencyKey := sampleIntent.idempotencyKey
  configHash := "config-0001"
  kernelSequenceNumber := sequence

/-- The sample intent presented under a token of its own. -/
def present (cfg : GatewayConfig) (env : GatewayEnv) (sequence : ℤ) : GatewayCall :=
  let claims := sampleClaims sequence
  .processIntent env sampleIntent
    ⟨claims, Hex.hex (cfg.hmac.digest cfg.verificationKey (canonicalClaimsBytes claims))⟩

end OrderGateway

end Windbreak
