import Windbreak.OrderGateway.Settlement

/-!
# Every submission is authorised

Whatever calls a gateway serves, each call it makes to the submitter stands on a token of its own:
one that verifies, unexpired, for exactly that intent.

* **`Spent`** — the invariant: the slots of the tokens submitted so far are distinct, and all taken.
* **`acked_disclosed`** — a cached acknowledgement is disclosed for a token that verifies, whose slot
  is taken, and for no other.
* **`submissions_authorised`** — the law over every run, from any gateway on.
* **`acked_duplicate_consumes`** — an intent whose acknowledgement is cached is not refused: its
  token is verified, and its slot taken, before the acknowledgement is disclosed.
-/

namespace Windbreak

namespace OrderGateway

open Machine Effects

/-- The registry slot of the token a submission was made under. -/
def Submission.slot (cfg : GatewayConfig) (s : Submission) : String :=
  registrySlot cfg.hmac cfg.verificationKey s.token

/-- A submission whose token is authentic, was unexpired when it was verified, and binds exactly
the submitted intent. -/
structure Authorised (cfg : GatewayConfig) (s : Submission) : Prop where
  authentic : Hex.fromHex s.token.signatureHex =
    .ok (cfg.hmac.digest cfg.verificationKey (canonicalClaimsBytes s.token.claims))
  unexpired : s.verifiedAt < s.token.claims.expiresAt
  binds : ClaimsOf s.intent s.token.claims

/-- The submission was made by this call. -/
def MadeBy (call : GatewayCall) (s : Submission) : Prop :=
  ∃ env, call = .processIntent env s.intent s.token ∧ s.verifiedAt = env.clock

/-- The call presents this intent, and a gate before verification refuses it. -/
def RefusedEarly (cfg : GatewayConfig) (t : CallTransition) : Prop :=
  ∃ env intent token, t.input = .processIntent env intent token ∧ ¬ Passes cfg env intent t.pre

/-- The call presents an intent whose acknowledgement is cached. -/
def PresentsAcked (cfg : GatewayConfig) (t : CallTransition) : Prop :=
  ∃ env intent token, t.input = .processIntent env intent token ∧
    clientOrderId cfg.sha256 intent ∈ t.pre.acks.keys

/-- The token verifies for the intent: authentic, unexpired, for exactly that intent, and unused. -/
structure Verifies (cfg : GatewayConfig) (env : GatewayEnv) (intent : OrderIntent)
    (token : SignedApprovalToken) (registry : InMemorySingleUseRegistry) : Prop where
  authentic : Hex.fromHex token.signatureHex =
    .ok (cfg.hmac.digest cfg.verificationKey (canonicalClaimsBytes token.claims))
  unexpired : env.clock < token.claims.expiresAt
  binds : ClaimsOf intent token.claims
  unused : registrySlot cfg.hmac cfg.verificationKey token ∉ registry.consumed

/-- What a call returns, unless it raises. -/
def returned (cfg : GatewayConfig) (env : GatewayEnv) (intent : OrderIntent)
    (token : SignedApprovalToken) (w : GatewayWorld) : Option GatewayResult :=
  match (processIntent cfg env intent token).run w with
  | .ok result _ => some result
  | .error _ _ => none

/-- What becomes of an intent whose acknowledgement is cached. -/
structure Disclosed (cfg : GatewayConfig) (env : GatewayEnv) (intent : OrderIntent)
    (token : SignedApprovalToken) (ack : SubmissionAck) (t : CallTransition) : Prop where
  nothing : t.post.submissions = t.pre.submissions
  /-- A gateway that accepts approvals replays the acknowledgement, and takes the token's slot. -/
  verified : t.pre.halted = false → t.pre.acceptingApprovals = true →
    Verifies cfg env intent token t.pre.registry →
      returned cfg env intent token t.pre = some (replay (clientOrderId cfg.sha256 intent) ack) ∧
        t.post.registry =
          ⟨insert (registrySlot cfg.hmac cfg.verificationKey token) t.pre.registry.consumed⟩
  /-- In every other case nothing is disclosed, and no slot is taken. -/
  withheld : ¬ (t.pre.halted = false ∧ t.pre.acceptingApprovals = true ∧
      Verifies cfg env intent token t.pre.registry) →
    (∀ result, returned cfg env intent token t.pre = some result → result.ack = none) ∧
      t.post.registry = t.pre.registry

/-- What the law says of one call of a run that starts after so many submissions. -/
structure Lawful (cfg : GatewayConfig) (before : ℕ) (t : CallTransition) : Prop where
  authorised : ∃ new, t.post.submissions = t.pre.submissions ++ new ∧
    ∀ s ∈ new, MadeBy t.input s ∧ Authorised cfg s
  unshared : ((t.post.submissions.drop before).map (·.token)).Nodup
  refused : RefusedEarly cfg t → t.post.registry = t.pre.registry
  acked : ∀ env intent token ack, t.input = .processIntent env intent token →
    t.pre.acks.get? (clientOrderId cfg.sha256 intent) = some ack →
      Disclosed cfg env intent token ack t

/-! ## A token that verifies -/

theorem claimsOf_of_matches {intent : OrderIntent} {claims : ApprovalTokenClaims}
    (h : intentMatchesClaims intent claims = true) : ClaimsOf intent claims := by
  unfold intentMatchesClaims at h
  simp only [Bool.and_eq_true, beq_iff_eq] at h
  obtain ⟨⟨⟨⟨⟨⟨hid, hticker⟩, houtcome⟩, haction⟩, hprice⟩, hsize⟩, hkey⟩ := h
  exact ⟨hid.symm, hticker.symm, houtcome.symm, haction.symm, IntUnit.ext hprice.symm,
    IntUnit.ext hsize.symm, hkey.symm⟩

theorem Verified.authorised {cfg : GatewayConfig} {env : GatewayEnv} {intent : OrderIntent}
    {token : SignedApprovalToken} {w : GatewayWorld} (h : Verified cfg env intent token w)
    (reduceOnly : Bool) : Authorised cfg ⟨intent, token, env.clock, reduceOnly⟩ := by
  obtain ⟨hmatch, hvalid⟩ := verifyAndConsume_ok.mp h.verdict
  obtain ⟨hauthentic, hunexpired, -⟩ := verifyToken_valid.mp hvalid
  exact ⟨hauthentic, hunexpired, claimsOf_of_matches hmatch⟩

theorem Verified.fresh {cfg : GatewayConfig} {env : GatewayEnv} {intent : OrderIntent}
    {token : SignedApprovalToken} {w : GatewayWorld} (h : Verified cfg env intent token w) :
    registrySlot cfg.hmac cfg.verificationKey token ∉ w.registry.consumed :=
  (verifyToken_valid.mp (verifyAndConsume_ok.mp h.verdict).2).2.2

/-! ## The invariant -/

/-- **The slots of the tokens submitted so far are distinct, and all taken.** -/
structure Spent (cfg : GatewayConfig) (before : ℕ) (s : Standing) : Prop where
  started : before ≤ s.submissions.length
  distinct : ((s.submissions.drop before).map (Submission.slot cfg)).Nodup
  taken : ∀ x ∈ s.submissions.drop before, x.slot cfg ∈ s.registry.consumed

section

variable {cfg : GatewayConfig} {before : ℕ} {env : GatewayEnv} {intent : OrderIntent}
  {token : SignedApprovalToken} {w : GatewayWorld}

theorem Spent.consuming (h : Spent cfg before w.standing) (token : SignedApprovalToken) :
    Spent cfg before (w.consuming cfg token).standing where
  started := h.started
  distinct := h.distinct
  taken x hx := Finset.mem_insert_of_mem (h.taken x hx)

theorem Spent.placed (h : Spent cfg before w.standing) (hverified : Verified cfg env intent token w)
    (coid : String) :
    Spent cfg before ((w.consuming cfg token).standing.placed cfg env intent token coid) := by
  have hdrop : ∀ x : Submission,
      (w.submissions ++ [x]).drop before = w.submissions.drop before ++ [x] :=
    fun x => List.drop_append_of_le_length h.started
  refine ⟨?_, ?_, fun x hx => ?_⟩
  · have hstarted : before ≤ w.submissions.length := h.started
    simp only [Standing.placed, GatewayWorld.standing, GatewayWorld.consuming,
      GatewayWorld.withRegistry_submissions, List.length_append]
    omega
  · have hslots : ∀ x ∈ w.submissions.drop before,
        x.slot cfg ≠ registrySlot cfg.hmac cfg.verificationKey token := by
      intro x hx heq
      exact hverified.fresh (heq ▸ h.taken x hx)
    have hdistinct : ((w.submissions.drop before).map (Submission.slot cfg)).Nodup := h.distinct
    simp only [Standing.placed, GatewayWorld.standing, GatewayWorld.consuming,
      GatewayWorld.withRegistry_submissions, hdrop, List.map_append, List.nodup_append]
    refine ⟨hdistinct, by simp, fun slot hslot slot' hslot' => ?_⟩
    obtain ⟨x, hx, rfl⟩ := List.mem_map.mp hslot
    simp only [List.map_cons, List.map_nil, List.mem_singleton] at hslot'
    subst hslot'
    exact hslots x hx
  · simp only [Standing.placed, GatewayWorld.standing, GatewayWorld.consuming,
      GatewayWorld.withRegistry_submissions, hdrop, List.mem_append, List.mem_singleton] at hx
    rcases hx with hx | rfl
    · exact (h.consuming token).taken x hx
    · exact Finset.mem_insert_self _ _

end

theorem Spent.processed {cfg : GatewayConfig} {before : ℕ} {env : GatewayEnv}
    {intent : OrderIntent} {token : SignedApprovalToken} {w : GatewayWorld} {s : Standing}
    (h : Spent cfg before w.standing) (hs : Processed cfg env intent token w s) :
    Spent cfg before s := by
  cases hs with
  | refused => exact h
  | rejected => exact h
  | replayed => exact h.consuming token
  | stalled => exact h.consuming token
  | placed hverified => exact h.placed hverified _

theorem Spent.of_done {cfg : GatewayConfig} {before : ℕ} {s s' : Standing}
    (h : Spent cfg before s) (hregistry : s'.registry = s.registry)
    (hsubmissions : s'.submissions = s.submissions) : Spent cfg before s' := by
  refine ⟨?_, ?_, fun x hx => ?_⟩
  · rw [hsubmissions]
    exact h.started
  · rw [hsubmissions]
    exact h.distinct
  · rw [hsubmissions] at hx
    rw [hregistry]
    exact h.taken x hx

theorem callStep_spent (cfg : GatewayConfig) (before : ℕ) (w : GatewayWorld) (call : GatewayCall)
    (h : Spent cfg before w.standing) : Spent cfg before (callStep cfg w call).2.standing := by
  cases call with
  | processIntent env intent token =>
      exact h.processed (callStep_processIntent cfg env intent token w)
  | recover env =>
      have hrecovered := callStep_recover cfg env w
      exact h.of_done hrecovered.registry hrecovered.submissions
  | venueMoves openOrders => exact h

theorem spent_start (cfg : GatewayConfig) (w : GatewayWorld) :
    Spent cfg w.submissions.length w.standing := by
  have hnone : w.standing.submissions.drop w.submissions.length = [] := List.drop_length
  refine ⟨le_rfl, ?_, ?_⟩
  · simp [hnone]
  · simp [hnone]

/-! ## The law -/

/-- Distinct slots are slots of distinct tokens. -/
theorem Spent.unshared {cfg : GatewayConfig} {before : ℕ} {s : Standing}
    (h : Spent cfg before s) : ((s.submissions.drop before).map (·.token)).Nodup := by
  have hmap : (s.submissions.drop before).map (Submission.slot cfg) =
      ((s.submissions.drop before).map (·.token)).map
        (registrySlot cfg.hmac cfg.verificationKey) := by
    rw [List.map_map]
    rfl
  have hdistinct := h.distinct
  rw [hmap] at hdistinct
  exact hdistinct.of_map _

/-- What a call submits is authorised. -/
theorem Processed.authorised {cfg : GatewayConfig} {env : GatewayEnv} {intent : OrderIntent}
    {token : SignedApprovalToken} {w : GatewayWorld} {s : Standing}
    (h : Processed cfg env intent token w s) :
    ∃ new, s.submissions = w.submissions ++ new ∧
      ∀ x ∈ new, MadeBy (.processIntent env intent token) x ∧ Authorised cfg x := by
  cases h with
  | refused => exact ⟨[], by simp [GatewayWorld.standing], by simp⟩
  | rejected => exact ⟨[], by simp [GatewayWorld.standing], by simp⟩
  | replayed => exact ⟨[], by simp [GatewayWorld.standing, GatewayWorld.consuming], by simp⟩
  | stalled => exact ⟨[], by simp [GatewayWorld.standing, GatewayWorld.consuming], by simp⟩
  | placed hverified =>
      refine ⟨[_], rfl, fun x hx => ?_⟩
      rw [List.mem_singleton] at hx
      subst hx
      exact ⟨⟨env, rfl, rfl⟩, hverified.authorised _⟩

theorem callStep_authorised (cfg : GatewayConfig) (w : GatewayWorld) (call : GatewayCall) :
    ∃ new, (callStep cfg w call).2.submissions = w.submissions ++ new ∧
      ∀ x ∈ new, MadeBy call x ∧ Authorised cfg x := by
  cases call with
  | processIntent env intent token => exact (callStep_processIntent cfg env intent token w).authorised
  | recover env =>
      exact ⟨[], by simpa using (callStep_recover cfg env w).submissions, by simp⟩
  | venueMoves openOrders => exact ⟨[], by simp [callStep], by simp⟩

theorem Processed.unverified_registry {cfg : GatewayConfig} {env : GatewayEnv}
    {intent : OrderIntent} {token : SignedApprovalToken} {w : GatewayWorld} {s : Standing}
    (h : Processed cfg env intent token w s) (hunverified : ¬ Verified cfg env intent token w) :
    s.registry = w.registry := by
  cases h with
  | refused => rfl
  | rejected => rfl
  | replayed hverified => exact absurd hverified hunverified
  | stalled hverified => exact absurd hverified hunverified
  | placed hverified => exact absurd hverified hunverified

theorem Processed.refused_registry {cfg : GatewayConfig} {env : GatewayEnv} {intent : OrderIntent}
    {token : SignedApprovalToken} {w : GatewayWorld} {s : Standing}
    (h : Processed cfg env intent token w s) (hrefused : ¬ Passes cfg env intent w) :
    s.registry = w.registry :=
  h.unverified_registry fun hverified => hrefused hverified.passes

theorem Processed.acked_submissions {cfg : GatewayConfig} {env : GatewayEnv} {intent : OrderIntent}
    {token : SignedApprovalToken} {w : GatewayWorld} {s : Standing}
    (h : Processed cfg env intent token w s)
    (hacked : clientOrderId cfg.sha256 intent ∈ w.acks.keys) : s.submissions = w.submissions := by
  cases h with
  | refused => rfl
  | rejected => rfl
  | replayed => rfl
  | stalled => rfl
  | placed _ hnew => exact absurd hacked hnew

/-! ## A cached acknowledgement -/

theorem verifyAndConsume_verifies {cfg : GatewayConfig} {env : GatewayEnv} {intent : OrderIntent}
    {token : SignedApprovalToken} {registry : InMemorySingleUseRegistry} :
    (verifyAndConsume cfg.hmac token intent cfg.verificationKey env.clock registry).1 = .OK ↔
      Verifies cfg env intent token registry := by
  rw [verifyAndConsume_ok, verifyToken_valid]
  constructor
  · rintro ⟨hmatch, hauthentic, hunexpired, hunused⟩
    exact ⟨hauthentic, hunexpired, claimsOf_of_matches hmatch, hunused⟩
  · rintro ⟨hauthentic, hunexpired, hbinds, hunused⟩
    refine ⟨?_, hauthentic, hunexpired, hunused⟩
    obtain ⟨hid, hticker, houtcome, haction, hprice, hsize, hkey⟩ := hbinds
    simp [intentMatchesClaims, hid, hticker, houtcome, haction, hprice, hsize, hkey]

/-- A call that returns an acknowledgement for a cached id has passed the gates with a token that
verifies. -/
theorem returned_ack {cfg : GatewayConfig} {env : GatewayEnv} {intent : OrderIntent}
    {token : SignedApprovalToken} {w : GatewayWorld} {result : GatewayResult}
    (hcached : clientOrderId cfg.sha256 intent ∈ w.acks.keys)
    (h : returned cfg env intent token w = some result) (hack : result.ack ≠ none) :
    w.halted = false ∧ w.acceptingApprovals = true ∧
      Verifies cfg env intent token w.registry := by
  rw [returned, processIntent, EStateM.run_bind, EStateM.run_get] at h
  dsimp only at h
  cases hhalted : w.halted with
  | true =>
      rw [hhalted, if_pos rfl] at h
      cases h
  | false =>
      rw [hhalted, if_neg Bool.false_ne_true, EStateM.run_bind, gateBeforeVerify, EStateM.run_bind,
        EStateM.run_get] at h
      dsimp only at h
      cases haccepting : w.acceptingApprovals with
      | false =>
          -- recovery has not completed: the refusal carries no acknowledgement
          rw [haccepting, if_pos rfl, run_map, refuseRecoveryPending, EStateM.run_bind] at h
          cases hrecord : (record env (submissionRefusedEvent (clientOrderId cfg.sha256 intent)
              "recovery_pending")).run w with
          | error e u =>
              rw [hrecord] at h
              cases h
          | ok _ u =>
              rw [hrecord] at h
              cases h
              exact absurd rfl hack
      | true =>
          rw [haccepting, if_neg (by decide), if_pos hcached, EStateM.run_pure] at h
          dsimp only at h
          rw [verifyAndSubmit, EStateM.run_bind, verify_run] at h
          dsimp only at h
          by_cases hverdict : (verifyAndConsume cfg.hmac token intent cfg.verificationKey env.clock
              w.registry).1 = .OK
          · exact ⟨rfl, rfl, verifyAndConsume_verifies.mp hverdict⟩
          · rw [if_pos hverdict] at h
            cases h
            exact absurd rfl hack

/-- **A cached acknowledgement is disclosed** for a token that verifies, and for no other. -/
theorem acked_disclosed {cfg : GatewayConfig} {env : GatewayEnv} {intent : OrderIntent}
    {token : SignedApprovalToken} {w : GatewayWorld} {ack : SubmissionAck}
    (hcached : w.acks.get? (clientOrderId cfg.sha256 intent) = some ack) :
    Disclosed cfg env intent token ack
      (transition (callStep cfg) w (.processIntent env intent token)) := by
  have hmem : clientOrderId cfg.sha256 intent ∈ w.acks.keys :=
    OrderedDict.mem_keys_iff.mpr ⟨ack, hcached⟩
  have hprocessed := callStep_processIntent cfg env intent token w
  have hrun : Verified cfg env intent token w → (processIntent cfg env intent token).run w =
      .ok (replay (clientOrderId cfg.sha256 intent) ack) (w.consuming cfg token) := by
    intro hverified
    rw [processIntent_of_verified hverified, hcached]
  refine ⟨hprocessed.acked_submissions hmem, fun hrunning haccepting hverifies => ?_,
    fun hnot => ⟨fun result hresult => ?_, ?_⟩⟩
  · have hverified := hrun ⟨⟨hrunning, haccepting, fun h => absurd hmem h, fun h => absurd hmem h⟩,
      verifyAndConsume_verifies.mpr hverifies⟩
    refine ⟨?_, ?_⟩
    · change returned cfg env intent token w = _
      rw [returned, hverified]
    · change (settle ((processIntent cfg env intent token).run w)).2.registry = _
      rw [hverified]
      rfl
  · by_contra hack
    exact hnot (returned_ack hmem hresult hack)
  · have hunverified : ¬ Verified cfg env intent token w := fun h =>
      hnot ⟨h.passes.running, h.passes.accepting, verifyAndConsume_verifies.mp h.verdict⟩
    exact hprocessed.unverified_registry hunverified

/-! ## Every call is lawful -/

theorem callStep_lawful (cfg : GatewayConfig) (before : ℕ) (w : GatewayWorld)
    (call : GatewayCall) (h : Spent cfg before w.standing) :
    Lawful cfg before (transition (callStep cfg) w call) where
  authorised := callStep_authorised cfg w call
  unshared := (callStep_spent cfg before w call h).unshared
  refused := by
    rintro ⟨env, intent, token, hinput, hrefused⟩
    cases hinput
    exact (callStep_processIntent cfg env intent token w).refused_registry hrefused
  acked := by
    rintro env intent token ack hinput hacked
    cases hinput
    exact acked_disclosed hacked

/-- **Every call to the submitter is authorised, whatever the gateway is asked.** -/
theorem submissions_authorised (cfg : GatewayConfig) (w : GatewayWorld)
    (calls : List GatewayCall) :
    ∀ t ∈ trace (callStep cfg) w calls, Lawful cfg w.submissions.length t :=
  trace_forall (I := fun u => Spent cfg w.submissions.length u.standing)
    (callStep_spent cfg w.submissions.length) (callStep_lawful cfg w.submissions.length)
    (spent_start cfg w) calls

/-! ## A duplicate takes a slot -/

/-- A stand-in for the keyed hash that tells two messages apart. -/
def checksumHmac : HmacSha256 where
  digest _ message := List.replicate 32 (UInt8.ofNat (message.foldl (fun sum b => sum + b.toNat) 0))
  digest_length _ _ := by simp

/-- A gateway with nothing to recover from: it accepts approvals from the start. -/
def volatileGateway : GatewayConfig :=
  { sampleGateway with
    hmac := checksumHmac
    hasWal := false
    hasLedgerReader := false
    hasReconciliationSource := false }

/-- The gateway once it has been handed the sample intent. -/
def presentedOnce : GatewayWorld :=
  run (callStep volatileGateway) (.fresh volatileGateway) [present volatileGateway quietEnv 1]

/-- The intent handed in again, under a token of its own. -/
def presentedAgain : CallTransition :=
  transition (callStep volatileGateway) presentedOnce (present volatileGateway quietEnv 2)

theorem presentedAgain_mem :
    presentedAgain ∈ trace (callStep volatileGateway) (.fresh volatileGateway)
      [present volatileGateway quietEnv 1, present volatileGateway quietEnv 2] :=
  mem_trace.mpr ⟨[present volatileGateway quietEnv 1], [], rfl, rfl⟩

theorem presented_slots :
    clientOrderId volatileGateway.sha256 sampleIntent ∈ presentedOnce.acks.keys ∧
      presentedOnce.registry.consumed.card = 1 ∧
      presentedAgain.post.registry.consumed.card = 2 := by
  decide +kernel

/-- The second presentation of the sample intent, whose acknowledgement is cached by then. -/
theorem second_presentation_lawful :
    Lawful volatileGateway 0 presentedAgain ∧
      clientOrderId volatileGateway.sha256 sampleIntent ∈ presentedOnce.acks.keys ∧
      presentedAgain.post.registry.consumed.card = 2 :=
  ⟨submissions_authorised volatileGateway (.fresh volatileGateway)
      [present volatileGateway quietEnv 1, present volatileGateway quietEnv 2] presentedAgain
      presentedAgain_mem,
    presented_slots.1, presented_slots.2.2⟩

/-- The second presentation takes a slot of the registry. -/
theorem acked_duplicate_consumes :
    ¬ ∀ (cfg : GatewayConfig) (w : GatewayWorld) (calls : List GatewayCall),
      ∀ t ∈ trace (callStep cfg) w calls,
        RefusedEarly cfg t ∨ PresentsAcked cfg t → t.post.registry = t.pre.registry := by
  intro h
  obtain ⟨hcached, hpre, hpost⟩ := presented_slots
  have hsame : presentedAgain.post.registry = presentedOnce.registry :=
    h volatileGateway (.fresh volatileGateway)
      [present volatileGateway quietEnv 1, present volatileGateway quietEnv 2] presentedAgain
      presentedAgain_mem (.inr ⟨quietEnv, sampleIntent, _, rfl, hcached⟩)
  rw [hsame, hpre] at hpost
  exact absurd hpost (by decide)

end OrderGateway

end Windbreak
