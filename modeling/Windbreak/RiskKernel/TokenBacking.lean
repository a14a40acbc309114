import Windbreak.RiskKernel.HumanAck
import Windbreak.RiskKernel.LedgerRuns

/-!
# Is a live token always backed?

The reservation ledger and the acknowledgement queue share intent ids, and each reacts to time on
its own: the ledger drops what its tokens no longer need, the queue drops what a lapsed request
held.  A run here mixes every operation of both, with the writer and the issuer raising wherever
they may.

* **`AckRun`** — the world, together with what a run has shown so far: the clock readings, and the
  tokens whose reservation a settling release gave back.
* **`Backed`** — each issued token that is neither expired nor settled has an active reservation.
* **`backed_iff_no_live_lapse`** — a run stays backed exactly when no sweep of the queue lapses a
  request whose intent has a live token.  The queue does not ask: `live_lapse_releases` shows a
  request that outlives the approval of its own intent.
-/

namespace Windbreak

open Machine Effects

/-! ## The machine -/

/-- An operation on the ledger, the pipeline, the queue or the flow. -/
inductive AckOp where
  | ledger (op : LedgerOp)
  | submit (env : KernelEnv) (intent : OrderIntent) (context : EvaluationContext)
  | requestAck (env : KernelEnv) (intentId : String) (worstCaseCost : MoneyMicros) (now : ℤ)
  | grant (env : KernelEnv) (approvalId : String) (now : ℤ)
  | expireDue (env : KernelEnv) (now : ℤ)

/-- The clock reading a ledger operation runs at, when it takes one. -/
def LedgerOp.reading? : LedgerOp → Option ℤ
  | .approve _ _ context => some context.nowEpochS
  | .expireDue _ now => some now
  | .release .. | .releaseAllActive .. | .adjust .. => none

/-- The clock reading an operation runs at, when it takes one. -/
def AckOp.reading? : AckOp → Option ℤ
  | .ledger op => op.reading?
  | .submit _ _ context => some context.nowEpochS
  | .requestAck _ _ _ now | .grant _ _ now | .expireDue _ now => some now

/-- What one operation does to the world, and what it raises. -/
def ackEffect (cfg : KernelConfig) (w : KernelWorld) : AckOp → Option KernelError × KernelWorld
  | .ledger op =>
    match ledgerStep cfg w op with
    | (.raised e, w') => (some e, w')
    | (_, w') => (none, w')
  | .submit env intent context => settle ((submit cfg env intent context).run w)
  | .requestAck env id cost now => settle ((requestAck cfg env id cost now).run w)
  | .grant env approvalId now => settle ((grant env approvalId now).run w)
  | .expireDue env now => settle ((queueExpireDue env now).run w)

theorem ackEffect_ledger (cfg : KernelConfig) (w : KernelWorld) (op : LedgerOp) :
    (ackEffect cfg w (.ledger op)).2 = (ledgerStep cfg w op).2 := by
  simp only [ackEffect]
  split <;> rename_i h <;> rw [h]

/-- The intents whose reservation an operation gives back because their order is settled: those of
an explicit release, and those a release of everything reaches. -/
def settledBy (w : KernelWorld) : AckOp → List String
  | .ledger (.release _ intentId _) => [intentId]
  | .ledger (.releaseAllActive env reason) => releasedIntents env reason w.ledger.active.keys
  | _ => []

/-- The world, the clock readings so far, and the tokens settled so far. -/
structure AckRun where
  world : KernelWorld
  readings : List ℤ
  settled : List SignedApprovalToken

/-- A run that has not begun. -/
def AckRun.fresh (machine : ModeStateMachine) : AckRun := ⟨KernelWorld.fresh machine, [], []⟩

/-- One operation. -/
def ackStep (cfg : KernelConfig) (s : AckRun) (op : AckOp) : Option KernelError × AckRun :=
  ((ackEffect cfg s.world op).1,
    { world := (ackEffect cfg s.world op).2
      readings := s.readings ++ op.reading?.toList
      settled := s.settled ++
        s.world.issued.filter fun token => token.claims.intentId ∈ settledBy s.world op })

/-- The transitions of the machine. -/
abbrev AckTransition := Transition AckRun AckOp (Option KernelError)

/-! ## Live tokens and their backing -/

/-- An issued token that no settling release has settled and that no clock reading has reached the
expiry of. -/
structure Live (s : AckRun) (token : SignedApprovalToken) : Prop where
  issued : token ∈ s.world.issued
  unsettled : token ∉ s.settled
  unexpired : ∀ reading ∈ s.readings, reading < token.claims.expiresAt

/-- Every live token has an active reservation for its intent. -/
def Backed (s : AckRun) : Prop :=
  ∀ token, Live s token → token.claims.intentId ∈ s.world.ledger.active.keys

/-- The run as it stands once the clock has been read. -/
def AckRun.observe (s : AckRun) (reading : ℤ) : AckRun :=
  { s with readings := s.readings ++ [reading] }

/-- The operation lapses no request of an intent that has a live token.  Only a sweep of the queue
can fail this. -/
def NoLiveLapse (t : AckTransition) : Prop :=
  match t.input with
  | .expireDue env now =>
    ∀ id ∈ lapsedIntents env now t.pre.world.ackRecords.items,
      ∀ token, Live (t.pre.observe now) token → token.claims.intentId ≠ id
  | _ => True

/-! ## What one operation does to the backing -/

/-- The ledger remembers every issued token's intent, and an active reservation expires with its
token. -/
structure Accounted (w : KernelWorld) : Prop where
  ids_seen : ∀ token ∈ w.issued, token.claims.intentId ∈ w.ledger.seenIntentIds
  expiry : ∀ token ∈ w.issued, ∀ r, w.ledger.active.get? token.claims.intentId = some r →
    r.expiresAt = token.claims.expiresAt

/-- The three things an operation can do to the backing: drop reservations, file one for an
admitted intent and sign at most its token, or change amounts. -/
inductive Rebacked (cfg : KernelConfig) (w w' : KernelWorld) (ids : List String) : Prop
  | dropped (hledger : w'.ledger = w.ledger.dropAll ids) (hissued : w'.issued = w.issued)
  | filed (intent : OrderIntent) (context : EvaluationContext) (amount : MoneyMicros)
      (hadm : Admitted w.ledger intent context amount)
      (hledger : w'.ledger =
        w.ledger.add (approvedReservation cfg w.ledger intent context amount))
      (hissued : w'.issued = w.issued ∨
        w'.issued = w.issued ++ [approvedToken cfg w.ledger intent context amount])
      (hids : ids = [])
  | resized (hseen : w'.ledger.seenIntentIds = w.ledger.seenIntentIds)
      (hexpiry : ∀ id, (w'.ledger.active.get? id).map (·.expiresAt) =
        (w.ledger.active.get? id).map (·.expiresAt))
      (hissued : w'.issued = w.issued) (hids : ids = [])

/-- The reservations an operation drops. -/
def droppedBy (w : KernelWorld) : AckOp → List String
  | .ledger (.release _ intentId _) => [intentId]
  | .ledger (.releaseAllActive env reason) => releasedIntents env reason w.ledger.active.keys
  | .ledger (.expireDue env now) => releasedIntents env "expired" (dueIntents w.ledger now)
  | .expireDue env now => lapsedIntents env now w.ackRecords.items
  | _ => []

theorem rebacked_of_backing {cfg : KernelConfig} {w w' : KernelWorld} {ids : List String}
    (h : w'.backing = (w.ledger.dropAll ids, w.issued)) : Rebacked cfg w w' ids :=
  .dropped (congrArg Prod.fst h) (congrArg Prod.snd h)

theorem approve_rebacked (cfg : KernelConfig) (env : KernelEnv) (intent : OrderIntent)
    (context : EvaluationContext) (w : KernelWorld) :
    Rebacked cfg w (finalState ((approve cfg env intent context).run w)) [] := by
  cases h : (approve cfg env intent context).run w with
  | ok outcome w' =>
      rcases approve_ok h with ⟨-, -, rfl⟩ | ⟨amount, hadm, -, -, rfl⟩
      · exact .dropped rfl rfl
      · exact .filed intent context amount hadm rfl (Or.inr rfl) rfl
  | error e w' =>
      obtain ⟨amount, hadm, hledger, hissued⟩ := approve_error h
      exact .filed intent context amount hadm hledger (hissued.imp And.left And.left) rfl

theorem adjust_rebacked (cfg : KernelConfig) (env : KernelEnv) (id : String)
    (remaining : MoneyMicros) (w : KernelWorld) :
    Rebacked cfg w (finalState ((adjust env id remaining).run w)) [] := by
  unfold adjust
  rw [EStateM.run_bind, EStateM.run_get]
  dsimp only
  split
  · exact .dropped rfl rfl
  · rename_i r hr
    split
    · rw [EStateM.run_bind, EStateM.run_set]
      dsimp only
      have hframe := backing_record env (reservationAdjustedEvent id remaining)
        (w.withLedger (w.ledger.resize r remaining (by rw [w.ledger.filed id r hr]; exact hr)))
      generalize finalState ((record env (reservationAdjustedEvent id remaining)).run _) = w'
        at hframe ⊢
      obtain ⟨hledger, hissued⟩ := Prod.mk.inj hframe
      rw [KernelWorld.withLedger_ledger] at hledger
      refine .resized ?_ ?_ hissued rfl
      · rw [hledger]
        rfl
      · intro j
        have hid : r.intentId = id := w.ledger.filed id r hr
        rw [hledger, ReservationLedger.resize_active, OrderedDict.get?_set, hid]
        split
        · rename_i hj
          rw [hj, hr]
          rfl
        · rfl
    · exact .dropped rfl rfl

theorem releaseEach_rebacked (cfg : KernelConfig) (env : KernelEnv) (ids : List String)
    (reason : String) (w : KernelWorld) :
    Rebacked cfg w (finalState ((releaseEach env ids reason).run w))
      (releasedIntents env reason ids) := by
  refine .dropped (releaseEach_finalState env ids reason w) ?_
  have hmem := memory_releaseEach env ids reason w
  simp only [KernelWorld.memory, Prod.mk.injEq] at hmem
  exact hmem.2.2.2

/-- **One operation** on the backing. -/
theorem ackEffect_rebacked (cfg : KernelConfig) (w : KernelWorld) (op : AckOp) :
    Rebacked cfg w (ackEffect cfg w op).2 (droppedBy w op) := by
  cases op with
  | ledger op =>
      rw [ackEffect_ledger]
      cases op with
      | approve env intent context =>
          simp only [ledgerStep, reply_snd]
          exact approve_rebacked cfg env intent context w
      | release env id reason =>
          simp only [ledgerStep, reply_snd, release]
          refine .dropped (releaseLocked_finalState env id reason w) ?_
          exact releaseLocked_issued env id reason w
      | releaseAllActive env reason =>
          simp only [ledgerStep, reply_snd]
          exact releaseEach_rebacked cfg env w.ledger.active.keys reason w
      | adjust env id remaining =>
          simp only [ledgerStep, reply_snd]
          exact adjust_rebacked cfg env id remaining w
      | expireDue env now =>
          simp only [ledgerStep, reply_snd]
          exact releaseEach_rebacked cfg env (dueIntents w.ledger now) "expired" w
  | submit env intent context =>
      have h := submit_backing cfg env intent context w
      simp only [ackEffect, settle_snd]
      cases approve_rebacked cfg env intent (acknowledgedContext w.ackRecords context) w with
      | dropped hledger hissued =>
          exact .dropped ((congrArg Prod.fst h).trans hledger)
            ((congrArg Prod.snd h).trans hissued)
      | filed intent' context' amount hadm hledger hissued hids =>
          refine .filed intent' context' amount hadm ((congrArg Prod.fst h).trans hledger) ?_ rfl
          exact hissued.imp (congrArg Prod.snd h).trans (congrArg Prod.snd h).trans
      | resized hseen hexpiry hissued hids =>
          have hledger := congrArg Prod.fst h
          refine .resized ((congrArg ReservationLedger.seenIntentIds hledger).trans hseen) ?_
            ((congrArg Prod.snd h).trans hissued) rfl
          intro id
          refine Eq.trans ?_ (hexpiry id)
          exact congrArg (fun ledger => (ledger.active.get? id).map (·.expiresAt)) hledger
  | requestAck env id cost now =>
      simp only [ackEffect, settle_snd]
      exact rebacked_of_backing (requestAck_backing cfg env id cost now w)
  | grant env approvalId now =>
      simp only [ackEffect, settle_snd]
      exact rebacked_of_backing (grant_backing env approvalId now w)
  | expireDue env now =>
      simp only [ackEffect, settle_snd]
      exact rebacked_of_backing (queueExpireDue_backing env now w)

/-! ## What every operation keeps -/

theorem Accounted.of_rebacked {cfg : KernelConfig} {w w' : KernelWorld} {ids : List String}
    (h : Accounted w) (hre : Rebacked cfg w w' ids) : Accounted w' := by
  cases hre with
  | dropped hledger hissued =>
      constructor
      · intro token ht
        rw [hissued] at ht
        rw [hledger, ReservationLedger.dropAll_seenIntentIds]
        exact h.ids_seen token ht
      · intro token ht r hr
        rw [hissued] at ht
        rw [hledger, ReservationLedger.get?_dropAll] at hr
        split_ifs at hr
        exact h.expiry token ht r hr
  | filed intent context amount hadm hledger hissued hids =>
      have hseen : w'.ledger.seenIntentIds = insert intent.intentId w.ledger.seenIntentIds := by
        rw [hledger]; rfl
      -- an intent issued before is not the fresh one
      have hother : ∀ token ∈ w.issued, token.claims.intentId ≠ intent.intentId := by
        intro token ht heq
        have hold := h.ids_seen token ht
        rw [heq] at hold
        exact hadm.fresh_id hold
      have hcase : ∀ token ∈ w'.issued, token ∈ w.issued ∨
          token = approvedToken cfg w.ledger intent context amount := by
        intro token ht
        rcases hissued with hissued | hissued
        · rw [hissued] at ht
          exact Or.inl ht
        · rw [hissued, List.mem_append, List.mem_singleton] at ht
          exact ht
      constructor
      · intro token ht
        rw [hseen]
        rcases hcase token ht with ht | rfl
        · exact Finset.mem_insert_of_mem (h.ids_seen token ht)
        · exact Finset.mem_insert_self _ _
      · intro token ht r hr
        rw [hledger, ReservationLedger.add_active, OrderedDict.get?_set] at hr
        rcases hcase token ht with ht | rfl
        · have hne : token.claims.intentId ≠
              (approvedReservation cfg w.ledger intent context amount).intentId :=
            hother token ht
          rw [if_neg hne] at hr
          exact h.expiry token ht r hr
        · have heq : (approvedToken cfg w.ledger intent context amount).claims.intentId =
              (approvedReservation cfg w.ledger intent context amount).intentId := rfl
          rw [if_pos heq] at hr
          rw [← Option.some.inj hr]
          rfl
  | resized hseen hexpiry hissued hids =>
      constructor
      · intro token ht
        rw [hissued] at ht
        rw [hseen]
        exact h.ids_seen token ht
      · intro token ht r hr
        rw [hissued] at ht
        have hmap := hexpiry token.claims.intentId
        rw [hr, Option.map_some] at hmap
        obtain ⟨r', hr', hsame⟩ := Option.map_eq_some_iff.mp hmap.symm
        rw [← hsame]
        exact h.expiry token ht r' hr'

theorem ackStep_accounted (cfg : KernelConfig) (s : AckRun) (op : AckOp) (h : Accounted s.world) :
    Accounted (ackStep cfg s op).2.world :=
  h.of_rebacked (ackEffect_rebacked cfg s.world op)

theorem accounted_fresh (machine : ModeStateMachine) :
    Accounted (AckRun.fresh machine).world := by
  constructor <;> simp [AckRun.fresh, KernelWorld.fresh]

/-- A token that is live after an operation and was issued before it was live before it, at the
operation's own reading of the clock. -/
theorem Live.of_ackStep {cfg : KernelConfig} {s : AckRun} {op : AckOp}
    {token : SignedApprovalToken} (h : Live (ackStep cfg s op).2 token)
    (hissued : token ∈ s.world.issued) :
    Live s token ∧ token.claims.intentId ∉ settledBy s.world op ∧
      ∀ reading ∈ op.reading?, reading < token.claims.expiresAt := by
  have hunsettled := h.unsettled
  have hunexpired := h.unexpired
  simp only [ackStep, List.mem_append, List.mem_filter, decide_eq_true_eq, not_or, not_and]
    at hunsettled hunexpired
  refine ⟨⟨hissued, hunsettled.1, fun reading hr => hunexpired reading (Or.inl hr)⟩,
    hunsettled.2 hissued, fun reading hr => hunexpired reading (Or.inr ?_)⟩
  rw [Option.mem_def.mp hr]
  exact List.mem_singleton_self _

/-- What an operation drops is settled by it, due at its reading of the clock, or lapsed by it. -/
theorem not_dropped_of_live {cfg : KernelConfig} {s : AckRun} {op : AckOp}
    (hacc : Accounted s.world) {token : SignedApprovalToken}
    (hlive : Live (ackStep cfg s op).2 token) (hissued : token ∈ s.world.issued)
    (hguard : NoLiveLapse (transition (ackStep cfg) s op)) :
    token.claims.intentId ∉ droppedBy s.world op := by
  obtain ⟨hpre, hunsettled, hunexpired⟩ := hlive.of_ackStep hissued
  intro hdropped
  cases op with
  | ledger op =>
      cases op with
      | release env id reason => exact hunsettled hdropped
      | releaseAllActive env reason => exact hunsettled hdropped
      | expireDue env now =>
          -- the reservation was due, and it expires with its token
          have hdue := releasedIntents_subset env "expired" _ hdropped
          simp only [dueIntents, List.mem_map, List.mem_filter, decide_eq_true_eq] at hdue
          obtain ⟨r, ⟨hmem, hexpired⟩, hid⟩ := hdue
          obtain ⟨id, hr⟩ := OrderedDict.mem_values_iff.mp hmem
          have hfiled : r.intentId = id := s.world.ledger.filed id r hr
          rw [← hfiled, hid] at hr
          have hexpiry := hacc.expiry token hissued r hr
          have hbefore := hunexpired now rfl
          omega
      | approve env intent context => simp [droppedBy] at hdropped
      | adjust env id remaining => simp [droppedBy] at hdropped
  | expireDue env now =>
      refine hguard _ hdropped token ⟨hissued, hpre.unsettled, ?_⟩ rfl
      intro reading hr
      rcases List.mem_append.mp hr with hr | hr
      · exact hpre.unexpired reading hr
      · rw [List.mem_singleton.mp hr]
        exact hunexpired now rfl
  | submit env intent context => simp [droppedBy] at hdropped
  | requestAck env id cost now => simp [droppedBy] at hdropped
  | grant env approvalId now => simp [droppedBy] at hdropped

/-- **An operation keeps the backing exactly when it lapses no request of a live token's
intent.** -/
theorem ackStep_backed_iff (cfg : KernelConfig) (s : AckRun) (op : AckOp)
    (hacc : Accounted s.world) (hb : Backed s) :
    Backed (ackStep cfg s op).2 ↔ NoLiveLapse (transition (ackStep cfg) s op) := by
  have hre := ackEffect_rebacked cfg s.world op
  constructor
  · intro hpost
    cases op with
    | expireDue env now =>
        intro id hid token hlive heq
        -- the token is still live after the sweep that dropped its reservation
        have hbacking := queueExpireDue_backing env now s.world
        have hworld : (ackStep cfg s (.expireDue env now)).2.world =
            finalState ((queueExpireDue env now).run s.world) := by
          simp only [ackStep, ackEffect, settle_snd]
        have hlive' : Live (ackStep cfg s (.expireDue env now)).2 token := by
          refine ⟨?_, ?_, hlive.unexpired⟩
          · rw [hworld]
            have hissued := congrArg Prod.snd hbacking
            simp only [KernelWorld.backing] at hissued
            rw [hissued]
            exact hlive.issued
          · intro hsettled
            simp only [ackStep, settledBy, List.not_mem_nil, decide_false, List.filter_false,
              List.append_nil] at hsettled
            exact hlive.unsettled hsettled
        have hkeys := hpost token hlive'
        have hledger := congrArg Prod.fst hbacking
        simp only [KernelWorld.backing] at hledger
        rw [hworld, hledger, ReservationLedger.mem_keys_dropAll] at hkeys
        rw [heq] at hkeys
        exact hkeys.1 hid
    | ledger op => trivial
    | submit env intent context => trivial
    | requestAck env id cost now => trivial
    | grant env approvalId now => trivial
  · intro hguard token hlive
    have hworld : (ackStep cfg s op).2.world = (ackEffect cfg s.world op).2 := rfl
    have hissuedPost := hlive.issued
    rw [hworld] at hissuedPost ⊢
    cases hre with
    | dropped hledger hissued =>
        rw [hissued] at hissuedPost
        rw [hledger, ReservationLedger.mem_keys_dropAll]
        exact ⟨not_dropped_of_live hacc hlive hissuedPost hguard,
          hb token (hlive.of_ackStep hissuedPost).1⟩
    | filed intent context amount hadm hledger hissued hids =>
        rw [hledger, ReservationLedger.add_active, OrderedDict.mem_keys_set]
        have hold : token ∈ s.world.issued → token.claims.intentId ∈ s.world.ledger.active.keys :=
          fun ht => hb token (hlive.of_ackStep ht).1
        rcases hissued with hissued | hissued
        · rw [hissued] at hissuedPost
          exact Or.inr (hold hissuedPost)
        · rw [hissued, List.mem_append, List.mem_singleton] at hissuedPost
          rcases hissuedPost with ht | rfl
          · exact Or.inr (hold ht)
          · exact Or.inl rfl
    | resized hseen hexpiry hissued hids =>
        rw [hissued] at hissuedPost
        have hkeys := hb token (hlive.of_ackStep hissuedPost).1
        obtain ⟨r, hr⟩ := OrderedDict.mem_keys_iff.mp hkeys
        have hmap := hexpiry token.claims.intentId
        rw [hr, Option.map_some, Option.map_eq_some_iff] at hmap
        obtain ⟨r', hr', -⟩ := hmap
        exact OrderedDict.mem_keys_iff.mpr ⟨r', hr'⟩

theorem backed_fresh (machine : ModeStateMachine) : Backed (AckRun.fresh machine) := by
  intro token hlive
  have hissued := hlive.issued
  simp [AckRun.fresh, KernelWorld.fresh] at hissued

/-- **A run stays backed exactly when no sweep of the queue lapses a request whose intent has a
live token.** -/
theorem backed_iff_no_live_lapse (cfg : KernelConfig) (machine : ModeStateMachine)
    (ops : List AckOp) :
    (∀ t ∈ trace (ackStep cfg) (AckRun.fresh machine) ops, Backed t.post) ↔
      ∀ t ∈ trace (ackStep cfg) (AckRun.fresh machine) ops, NoLiveLapse t :=
  trace_kept_iff (I := fun s => Accounted s.world) (ackStep_accounted cfg)
    (ackStep_backed_iff cfg) (accounted_fresh machine) (backed_fresh machine) ops

/-! ## A lapse that takes a live token's reservation -/

/-- The sample context at a later second, its readings of the market and the exchange as fresh. -/
def sampleContextAt (now : ℤ) (threshold : Option ℤ) : EvaluationContext :=
  { sampleContext with
    nowEpochS := now
    limits := { sampleLimits with requireHumanAckAboveMicros := threshold.map (⟨·⟩) }
    market :=
      { sampleContext.market with
        quoteSnapshotEpochS := some now
        forecastEpochS := some now
        exchangeClockEpochS := some now
        exchangeStatusEpochS := some now }
    verification := sampleContext.verification.map ({ · with verifiedAtEpochS := now })
    pipelineHeartbeatEpochS := some now }

/-- An intent is held above the operator's threshold, and approved ten seconds before its request
lapses, under a threshold that has since been lifted. -/
def approvedWhilePending : List AckOp :=
  [.submit .quiet sampleIntent (sampleContextAt 1700000000 (some 1)),
    .submit .quiet sampleIntent (sampleContextAt 1700003590 none)]

/-- The sweep that finds the request due. -/
def sweepAfterApproval : AckOp := .expireDue .quiet 1700003600

/-- The sweep releases the reservation of a token that is good for another fifty seconds. -/
theorem live_lapse_releases :
    ¬ ∀ (cfg : KernelConfig) (machine : ModeStateMachine) (ops : List AckOp),
      ∀ t ∈ trace (ackStep cfg) (AckRun.fresh machine) ops, Backed t.post := by
  intro h
  let s := run (ackStep sampleConfig) (AckRun.fresh sampleMachine) approvedWhilePending
  let after := (ackStep sampleConfig s sweepAfterApproval).2
  have hbacked : Backed after :=
    h sampleConfig sampleMachine (approvedWhilePending ++ [sweepAfterApproval])
      (transition (ackStep sampleConfig) s sweepAfterApproval)
      (mem_trace.mpr ⟨approvedWhilePending, [], rfl, rfl⟩)
  have hlive : (after.world.issued.any fun token =>
      decide (token ∉ after.settled) &&
        after.readings.all fun reading => decide (reading < token.claims.expiresAt)) = true := by
    decide +kernel
  have hempty : after.world.ledger.active.keys = [] := by decide +kernel
  simp only [List.any_eq_true, Bool.and_eq_true, decide_eq_true_eq, List.all_eq_true] at hlive
  obtain ⟨token, hissued, hunsettled, hunexpired⟩ := hlive
  have hkey := hbacked token ⟨hissued, hunsettled, hunexpired⟩
  rw [hempty] at hkey
  exact absurd hkey List.not_mem_nil

end Windbreak
