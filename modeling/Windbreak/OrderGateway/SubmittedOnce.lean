import Windbreak.OrderGateway.GatewayRuns

/-!
# At most one order per id, across crashes

The venue is to accept an order for a given id at most once, however often the intent is presented
and whatever raises or stops in between.  What the gateway has to go by is its cache and, across
restarts, the journalled acknowledgements.  An order the venue took while its acknowledgement got
lost is in neither: an order that rests makes the next recovery halt, one that filled at placement
leaves nothing to halt on, and within one process nothing is compared at all.

* **`GatewayLives`** — the gateway with the ids it lost the acknowledgement of.
* **`Covered`** — the invariant: an accepted id is lost, or in the cache, or due to be rehydrated.
* **`accepted_nodup_iff`** — the venue accepts no id twice exactly when no lost id is placed again.
* **`acceptedOnce_of_none_placed_again`** — the law, for runs that place none.
* **`filled_order_resubmitted`** — a crash between placement and acknowledgement, and a recovery
  that opens the gateway: the order goes out a second time.
-/

namespace Windbreak

namespace OrderGateway

open Machine Effects

/-! ## Lost acknowledgements -/

/-- A gateway across its lives, with the ids of the orders that the venue took in a call that did
not cache the acknowledgement, as long as no recovery has cached it since. -/
structure GatewayLives where
  world : GatewayWorld
  lost : List String

/-- The id an operation loses the acknowledgement of. -/
def lostBy (cfg : GatewayConfig) (pre post : GatewayWorld) : GatewayOp → List String
  | .call (.processIntent env intent _) =>
    if pre.accepted.length < post.accepted.length ∧ env.cachedAck? cfg = none then
      [clientOrderId cfg.sha256 intent]
    else []
  | _ => []

/-- One operation, with the ids lost before and by it that are not in the cache after it. -/
def livesStep (cfg : GatewayConfig) (s : GatewayLives) (op : GatewayOp) :
    Option GatewayError × GatewayLives :=
  let (raised, world) := gatewayStep cfg s.world op
  (raised, ⟨world, (s.lost ++ lostBy cfg s.world world op).filter (· ∉ world.acks.keys)⟩)

/-- The transitions of a gateway across its lives. -/
abbrev LivesTransition := Transition GatewayLives GatewayOp (Option GatewayError)

def GatewayLives.fresh (cfg : GatewayConfig) : GatewayLives := ⟨.fresh cfg, []⟩

/-- The venue accepted no id twice, or the gateway is halted. -/
def AcceptedOnce (w : GatewayWorld) : Prop := w.accepted.Nodup ∨ w.halted = true

/-- The operation places, under a token that verifies, an order whose acknowledgement is lost, and
the venue takes it. -/
def PlacesLost (cfg : GatewayConfig) (t : LivesTransition) : Prop :=
  ∃ env intent token, t.input = .call (.processIntent env intent token) ∧
    clientOrderId cfg.sha256 intent ∈ t.pre.lost ∧ Verified cfg env intent token t.pre.world ∧
      Prepared cfg env (clientOrderId cfg.sha256 intent) ∧ env.takes = true

/-! ## The invariant -/

/-- **An accepted id** is lost or journalled; while approvals are accepted, it is lost or cached. -/
structure Covered (lost : List String) (s : Standing) : Prop where
  journalled : ∀ c ∈ s.acks.keys, c ∈ s.ackedIds
  durable : ∀ c ∈ s.accepted, c ∈ lost ∨ c ∈ s.ackedIds
  live : s.acceptingApprovals = true → ∀ c ∈ s.accepted, c ∈ lost ∨ c ∈ s.acks.keys
  taken : ∀ c ∈ lost, c ∈ s.accepted
  uncached : ∀ c ∈ lost, c ∉ s.acks.keys

/-- The ids still lost once a cache is there. -/
def stillLost (lost : List String) (acks : OrderedDict String SubmissionAck) : List String :=
  lost.filter (· ∉ acks.keys)

theorem mem_stillLost {lost : List String} {acks : OrderedDict String SubmissionAck} {c : String} :
    c ∈ stillLost lost acks ↔ c ∈ lost ∧ c ∉ acks.keys := by
  simp [stillLost]

/-- A lost id is found in the cache, or still lost. -/
theorem lost_or_cached {lost : List String} {c : String} (h : c ∈ lost)
    (acks : OrderedDict String SubmissionAck) : c ∈ stillLost lost acks ∨ c ∈ acks.keys := by
  by_cases hcached : c ∈ acks.keys
  · exact .inr hcached
  · exact .inl (mem_stillLost.mpr ⟨h, hcached⟩)

/-- What places nothing keeps the ids covered, provided that it opens the gateway only over a
cache that has every journalled id. -/
theorem Covered.of_none_placed {lost : List String} {s s' : Standing} (h : Covered lost s)
    (haccepted : s'.accepted = s.accepted) (hids : s'.ackedIds = s.ackedIds)
    (hwithin : ∀ c ∈ s'.acks.keys, c ∈ s.ackedIds)
    (hopened : s'.acceptingApprovals = true →
      (s.acceptingApprovals = true ∧ ∀ c ∈ s.acks.keys, c ∈ s'.acks.keys) ∨
        ∀ c ∈ s.ackedIds, c ∈ s'.acks.keys) :
    Covered (stillLost lost s'.acks) s' := by
  refine ⟨?_, fun c hc => ?_, fun hopen c hc => ?_, fun c hc => ?_, fun c hc => ?_⟩
  · rw [hids]
    exact hwithin
  · rw [haccepted] at hc
    rw [hids]
    rcases h.durable c hc with hlost | hjournalled
    · exact (lost_or_cached hlost s'.acks).imp_right (hwithin c)
    · exact .inr hjournalled
  · rw [haccepted] at hc
    rcases hopened hopen with ⟨hwas, hkept⟩ | hall
    · rcases h.live hwas c hc with hlost | hcached
      · exact lost_or_cached hlost s'.acks
      · exact .inr (hkept c hcached)
    · rcases h.durable c hc with hlost | hjournalled
      · exact lost_or_cached hlost s'.acks
      · exact .inr (hall c hjournalled)
  · rw [haccepted]
    exact h.taken c (mem_stillLost.mp hc).1
  · exact (mem_stillLost.mp hc).2

theorem Covered.of_same {lost : List String} {s s' : Standing} (h : Covered lost s)
    (haccepted : s'.accepted = s.accepted) (hids : s'.ackedIds = s.ackedIds)
    (hacks : s'.acks = s.acks) (haccepting : s'.acceptingApprovals = s.acceptingApprovals) :
    Covered (stillLost lost s'.acks) s' := by
  refine h.of_none_placed haccepted hids (fun c hc => ?_) fun hopen => .inl ⟨?_, fun c hc => ?_⟩
  · rw [hacks] at hc
    exact h.journalled c hc
  · rwa [haccepting] at hopen
  · rwa [hacks]

/-- An acknowledgement that is cached is journalled, and of an order the venue took. -/
theorem journalled_of_cached {cfg : GatewayConfig} {env : GatewayEnv} (hwal : cfg.hasWal = true)
    (h : env.cachedAck? cfg ≠ none) : env.journalsAck cfg = true ∧ env.takes = true := by
  unfold GatewayEnv.cachedAck? at h
  unfold GatewayEnv.journalsAck GatewayEnv.takes
  cases hplacement : env.placement with
  | refused text => simp [hplacement] at h
  | takenThenRaised restingId text => simp [hplacement] at h
  | acknowledged ack =>
      have hwritten : env.walAck = .written := by simpa [hplacement, hwal] using h
      simp [hwal, hwritten]

section Placed

variable {cfg : GatewayConfig} {env : GatewayEnv} {intent : OrderIntent}
  {token : SignedApprovalToken} {coid c : String} {s : Standing}

/-- The ids lost by a placement. -/
def lostByPlacement (cfg : GatewayConfig) (env : GatewayEnv) (coid : String) : List String :=
  if env.takes = true ∧ env.cachedAck? cfg = none then [coid] else []

theorem mem_lostByPlacement :
    c ∈ lostByPlacement cfg env coid ↔ c = coid ∧ env.takes = true ∧ env.cachedAck? cfg = none := by
  unfold lostByPlacement
  split <;> simp_all

theorem mem_acks_placed :
    c ∈ (s.placed cfg env intent token coid).acks.keys ↔
      c ∈ s.acks.keys ∨ c = coid ∧ env.cachedAck? cfg ≠ none := by
  unfold Standing.placed
  cases env.cachedAck? cfg with
  | none => simp
  | some ack => simp [or_comm]

theorem mem_ackedIds_placed :
    c ∈ (s.placed cfg env intent token coid).ackedIds ↔
      c ∈ s.ackedIds ∨ c = coid ∧ env.journalsAck cfg = true := by
  unfold Standing.placed
  cases env.journalsAck cfg <;> simp

theorem mem_accepted_placed :
    c ∈ (s.placed cfg env intent token coid).accepted ↔
      c ∈ s.accepted ∨ c = coid ∧ env.takes = true := by
  unfold Standing.placed
  cases env.takes <;> simp

end Placed

/-- **A placement** adds an id that is lost, or cached and journalled. -/
theorem Covered.placed {cfg : GatewayConfig} (hwal : cfg.hasWal = true) {lost : List String}
    {s : Standing} (h : Covered lost s) (env : GatewayEnv) (intent : OrderIntent)
    (token : SignedApprovalToken) {coid : String} (hnew : coid ∉ s.acks.keys) :
    Covered
      (stillLost (lost ++ lostByPlacement cfg env coid) (s.placed cfg env intent token coid).acks)
      (s.placed cfg env intent token coid) := by
  -- the placed id itself, in each of the two ways its acknowledgement can go
  have hplaced : env.takes = true →
      coid ∈ stillLost (lost ++ lostByPlacement cfg env coid)
        (s.placed cfg env intent token coid).acks ∨
      coid ∈ (s.placed cfg env intent token coid).acks.keys := fun htakes => by
    by_cases hcached : env.cachedAck? cfg = none
    · have hlost : coid ∈ lostByPlacement cfg env coid :=
        mem_lostByPlacement.mpr ⟨rfl, htakes, hcached⟩
      exact lost_or_cached (List.mem_append_right lost hlost) _
    · exact .inr (mem_acks_placed.mpr (.inr ⟨rfl, hcached⟩))
  have hold : ∀ c ∈ lost, c ∈ stillLost (lost ++ lostByPlacement cfg env coid)
        (s.placed cfg env intent token coid).acks ∨
      c ∈ (s.placed cfg env intent token coid).acks.keys := fun c hc =>
    lost_or_cached (List.mem_append_left _ hc) _
  have hjournalled : ∀ c ∈ (s.placed cfg env intent token coid).acks.keys,
      c ∈ (s.placed cfg env intent token coid).ackedIds := by
    intro c hc
    rw [mem_ackedIds_placed]
    rcases mem_acks_placed.mp hc with hc | ⟨rfl, hcached⟩
    · exact .inl (h.journalled c hc)
    · exact .inr ⟨rfl, (journalled_of_cached hwal hcached).1⟩
  refine ⟨hjournalled, fun c hc => ?_, fun hopen c hc => ?_, fun c hc => ?_, fun c hc => ?_⟩
  · rcases mem_accepted_placed.mp hc with hc | ⟨rfl, htakes⟩
    · rcases h.durable c hc with hlost | hacked
      · exact (hold c hlost).imp_right (hjournalled c)
      · exact .inr (mem_ackedIds_placed.mpr (.inl hacked))
    · exact (hplaced htakes).imp_right (hjournalled c)
  · rcases mem_accepted_placed.mp hc with hc | ⟨rfl, htakes⟩
    · rcases h.live hopen c hc with hlost | hcached
      · exact hold c hlost
      · exact .inr (mem_acks_placed.mpr (.inl hcached))
    · exact hplaced htakes
  · rw [mem_accepted_placed]
    rcases List.mem_append.mp (mem_stillLost.mp hc).1 with hlost | hlost
    · exact .inl (h.taken c hlost)
    · obtain ⟨rfl, htakes, -⟩ := mem_lostByPlacement.mp hlost
      exact .inr ⟨rfl, htakes⟩
  · exact (mem_stillLost.mp hc).2

/-! ## Steps -/

/-- Nothing is lost by what places nothing. -/
theorem lostBy_of_same {cfg : GatewayConfig} {pre post : GatewayWorld}
    (h : post.accepted = pre.accepted) (op : GatewayOp) : lostBy cfg pre post op = [] := by
  unfold lostBy
  split
  · simp [h]
  · rfl

theorem livesStep_of_same {cfg : GatewayConfig} {s : GatewayLives} {op : GatewayOp}
    {w : GatewayWorld} (hw : (gatewayStep cfg s.world op).2 = w)
    (h : w.accepted = s.world.accepted) :
    (livesStep cfg s op).2 = ⟨w, stillLost s.lost w.acks⟩ := by
  subst hw
  have hlives : (livesStep cfg s op).2 =
      ⟨(gatewayStep cfg s.world op).2,
        stillLost (s.lost ++ lostBy cfg s.world (gatewayStep cfg s.world op).2 op)
          (gatewayStep cfg s.world op).2.acks⟩ := rfl
  rw [hlives, lostBy_of_same h, List.append_nil]

theorem lostBy_of_placed {cfg : GatewayConfig} {env : GatewayEnv} {intent : OrderIntent}
    {token : SignedApprovalToken} {pre post : GatewayWorld}
    (h : post.accepted = pre.accepted ++ if env.takes then [clientOrderId cfg.sha256 intent] else []) :
    lostBy cfg pre post (.call (.processIntent env intent token)) =
      lostByPlacement cfg env (clientOrderId cfg.sha256 intent) := by
  unfold lostBy lostByPlacement
  cases htakes : env.takes <;> simp [h, htakes]

/-- **The ids stay covered by a call.** -/
theorem Covered.processed {cfg : GatewayConfig} (hwal : cfg.hasWal = true) {lost : List String}
    {env : GatewayEnv} {intent : OrderIntent} {token : SignedApprovalToken}
    {w w' : GatewayWorld} (h : Covered lost w.standing)
    (hw : Processed cfg env intent token w w'.standing) :
    Covered
      (stillLost (lost ++ lostBy cfg w w' (.call (.processIntent env intent token))) w'.acks)
      w'.standing := by
  have hsame : ∀ registry, w'.standing = { w.standing with registry := registry } →
      Covered
        (stillLost (lost ++ lostBy cfg w w' (.call (.processIntent env intent token))) w'.acks)
        w'.standing := by
    intro registry hs
    have haccepted : w'.accepted = w.accepted := congrArg Standing.accepted hs
    have hcovered : Covered (stillLost lost w'.standing.acks) w'.standing := by
      apply h.of_same <;> rw [hs]
    rw [lostBy_of_same haccepted, List.append_nil]
    exact hcovered
  generalize hs : w'.standing = s at hw
  cases hw with
  | refused => exact hs ▸ hsame w.registry hs
  | rejected => exact hs ▸ hsame w.registry hs
  | replayed => exact hs ▸ hsame _ hs
  | stalled => exact hs ▸ hsame _ hs
  | placed hverified hnew hprepared =>
      have hconsumed : Covered lost (w.consuming cfg token).standing :=
        ⟨h.journalled, h.durable, h.live, h.taken, h.uncached⟩
      have haccepted : w'.accepted =
          w.accepted ++ if env.takes then [clientOrderId cfg.sha256 intent] else [] :=
        congrArg Standing.accepted hs
      have hacks : w'.acks = _ := congrArg Standing.acks hs
      rw [lostBy_of_placed haccepted, hacks]
      exact hconsumed.placed hwal env intent token hnew

theorem Covered.recovered {cfg : GatewayConfig} (hwal : cfg.hasWal = true) {lost : List String}
    {w w' : GatewayWorld} (h : Covered lost w.standing) (hw : Recovered cfg w w') :
    Covered (stillLost lost w'.acks) w'.standing := by
  have hids : w'.standing.ackedIds = w.standing.ackedIds := hw.ackedIds
  refine h.of_none_placed hw.accepted hids (fun c hc => ?_) fun hopen => ?_
  · exact (hw.within c hc).elim (h.journalled c) id
  · rcases hw.opened hopen with hwas | hall
    · exact .inl ⟨hwas, hw.kept⟩
    · exact .inr (hall hwal)

/-- A rebuilt gateway has an empty cache, and accepts nothing before it has recovered. -/
theorem Covered.rebuilt {cfg : GatewayConfig} (hwal : cfg.hasWal = true) {lost : List String}
    {w : GatewayWorld} (h : Covered lost w.standing) :
    Covered (stillLost lost (w.rebuilt cfg).acks) (w.rebuilt cfg).standing := by
  have hempty : ∀ c ∈ (w.rebuilt cfg).standing.acks.keys, c ∈ w.standing.ackedIds :=
    fun c hc => absurd hc List.not_mem_nil
  refine @Covered.of_none_placed lost _ (w.rebuilt cfg).standing h rfl rfl hempty fun hopen => ?_
  have hclosed : (w.rebuilt cfg).acceptingApprovals = false := by
    simp [GatewayConfig.recoveryWired, hwal]
  have haccepting : (w.rebuilt cfg).acceptingApprovals = true := hopen
  rw [hclosed] at haccepting
  exact absurd haccepting (by decide)

/-- **The ids stay covered by every operation.** -/
theorem livesStep_covered {cfg : GatewayConfig} (hwal : cfg.hasWal = true) (s : GatewayLives)
    (op : GatewayOp) (h : Covered s.lost s.world.standing) :
    Covered (livesStep cfg s op).2.lost (livesStep cfg s op).2.world.standing := by
  cases op with
  | restart =>
      rw [livesStep_of_same rfl rfl]
      exact h.rebuilt hwal
  | call call =>
      cases call with
      | processIntent env intent token =>
          exact h.processed hwal (callStep_processIntent cfg env intent token s.world)
      | recover env =>
          have hrecovered := callStep_recover cfg env s.world
          have hsame : (gatewayStep cfg s.world (.call (.recover env))).2.accepted =
            s.world.accepted := hrecovered.accepted
          rw [livesStep_of_same rfl hsame]
          exact h.recovered hwal hrecovered
      | venueMoves openOrders =>
          rw [livesStep_of_same rfl rfl]
          exact h.of_same rfl rfl rfl rfl

theorem covered_fresh (cfg : GatewayConfig) :
    Covered (GatewayLives.fresh cfg).lost (GatewayLives.fresh cfg).world.standing := by
  refine ⟨fun c hc => ?_, fun c hc => ?_, fun _ c hc => ?_, fun c hc => ?_, fun c hc => ?_⟩ <;>
    exact absurd hc List.not_mem_nil

/-! ## At most once -/

/-- What a call adds to the accepted ids. -/
theorem Processed.accepted {cfg : GatewayConfig} {env : GatewayEnv} {intent : OrderIntent}
    {token : SignedApprovalToken} {w : GatewayWorld} {s : Standing}
    (h : Processed cfg env intent token w s) :
    s.accepted = w.accepted ∨
      s.accepted = w.accepted ++ [clientOrderId cfg.sha256 intent] ∧
        Verified cfg env intent token w ∧ clientOrderId cfg.sha256 intent ∉ w.acks.keys ∧
          Prepared cfg env (clientOrderId cfg.sha256 intent) ∧ env.takes = true := by
  cases h with
  | refused => exact .inl rfl
  | rejected => exact .inl rfl
  | replayed => exact .inl rfl
  | stalled => exact .inl rfl
  | placed hverified hnew hprepared =>
      cases htakes : env.takes with
      | false => exact .inl (by simp [Standing.placed, htakes, GatewayWorld.standing, GatewayWorld.consuming])
      | true =>
          exact .inr ⟨by simp [Standing.placed, htakes, GatewayWorld.standing, GatewayWorld.consuming],
            hverified, hnew, hprepared, rfl⟩

/-- A placement the venue takes adds the id. -/
theorem Processed.accepted_of_placed {cfg : GatewayConfig} {env : GatewayEnv} {intent : OrderIntent}
    {token : SignedApprovalToken} {w : GatewayWorld} {s : Standing}
    (h : Processed cfg env intent token w s) (hverified : Verified cfg env intent token w)
    (hnew : clientOrderId cfg.sha256 intent ∉ w.acks.keys)
    (hprepared : Prepared cfg env (clientOrderId cfg.sha256 intent)) (htakes : env.takes = true) :
    s.accepted = w.accepted ++ [clientOrderId cfg.sha256 intent] := by
  cases h with
  | refused hrefused => exact absurd hverified.passes hrefused
  | rejected _ hverdict => exact absurd hverified.verdict hverdict
  | replayed _ hcached => exact absurd hcached hnew
  | stalled _ _ hnot => exact absurd hprepared hnot
  | placed => simp [Standing.placed, htakes, GatewayWorld.standing, GatewayWorld.consuming]

/-- **A call gives the venue an id it has exactly when it places a lost one.** -/
theorem processIntent_nodup_iff {cfg : GatewayConfig} {s : GatewayLives} {env : GatewayEnv}
    {intent : OrderIntent} {token : SignedApprovalToken} (h : Covered s.lost s.world.standing)
    (hnodup : s.world.accepted.Nodup) {after : Standing}
    (hafter : Processed cfg env intent token s.world after) :
    after.accepted.Nodup ↔
      ¬ (clientOrderId cfg.sha256 intent ∈ s.lost ∧ Verified cfg env intent token s.world ∧
        Prepared cfg env (clientOrderId cfg.sha256 intent) ∧ env.takes = true) := by
  constructor
  · rintro hafterNodup ⟨hlost, hverified, hprepared, htakes⟩
    have hnew : clientOrderId cfg.sha256 intent ∉ s.world.acks.keys := h.uncached _ hlost
    have htaken : clientOrderId cfg.sha256 intent ∈ s.world.accepted := h.taken _ hlost
    rw [hafter.accepted_of_placed hverified hnew hprepared htakes, List.nodup_append] at hafterNodup
    exact hafterNodup.2.2 _ htaken _ (List.mem_singleton_self _) rfl
  · intro hnone
    rcases hafter.accepted with hsame | ⟨hadded, hverified, hnew, hprepared, htakes⟩
    · rwa [hsame]
    · have hfresh : clientOrderId cfg.sha256 intent ∉ s.world.accepted := by
        intro htaken
        rcases h.live hverified.passes.accepting _ htaken with hlost | hcached
        · exact hnone ⟨hlost, hverified, hprepared, htakes⟩
        · exact hnew hcached
      rw [hadded, List.nodup_append]
      refine ⟨hnodup, by simp, fun c hc c' hc' => ?_⟩
      rw [List.mem_singleton] at hc'
      rintro rfl
      exact hfresh (hc' ▸ hc)

theorem livesStep_nodup_iff (cfg : GatewayConfig) (s : GatewayLives) (op : GatewayOp)
    (h : Covered s.lost s.world.standing) (hnodup : s.world.accepted.Nodup) :
    (livesStep cfg s op).2.world.accepted.Nodup ↔
      ¬ PlacesLost cfg (transition (livesStep cfg) s op) := by
  have hother : (∀ env intent token, op ≠ .call (.processIntent env intent token)) →
      (gatewayStep cfg s.world op).2.accepted = s.world.accepted →
        ((livesStep cfg s op).2.world.accepted.Nodup ↔
          ¬ PlacesLost cfg (transition (livesStep cfg) s op)) := by
    intro hop haccepted
    rw [livesStep_of_same rfl haccepted, haccepted]
    refine iff_of_true hnodup ?_
    rintro ⟨env, intent, token, hinput, -⟩
    exact hop env intent token hinput
  cases op with
  | restart => exact hother (by simp) rfl
  | call call =>
      cases call with
      | recover env => exact hother (by simp) (callStep_recover cfg env s.world).accepted
      | venueMoves openOrders => exact hother (by simp) rfl
      | processIntent env intent token =>
          have hcall := processIntent_nodup_iff h hnodup
            (callStep_processIntent cfg env intent token s.world)
          refine hcall.trans (not_congr ⟨fun hlost => ⟨env, intent, token, rfl, hlost⟩, ?_⟩)
          rintro ⟨env, intent, token, hinput, hlost⟩
          cases hinput
          exact hlost

/-- **The venue accepts no id twice exactly when no lost one is placed again.** -/
theorem accepted_nodup_iff {cfg : GatewayConfig} (hwal : cfg.hasWal = true) (ops : List GatewayOp) :
    (∀ t ∈ trace (livesStep cfg) (.fresh cfg) ops, t.post.world.accepted.Nodup) ↔
      ∀ t ∈ trace (livesStep cfg) (.fresh cfg) ops, ¬ PlacesLost cfg t :=
  trace_kept_iff (I := fun s : GatewayLives => Covered s.lost s.world.standing)
    (B := fun s : GatewayLives => s.world.accepted.Nodup) (livesStep_covered hwal)
    (livesStep_nodup_iff cfg) (covered_fresh cfg) List.nodup_nil ops

/-- **At most once, or halted**, whatever raises or stops, unless a lost order is placed again. -/
theorem acceptedOnce_of_none_placed_again {cfg : GatewayConfig} (hwal : cfg.hasWal = true)
    (ops : List GatewayOp)
    (h : ∀ t ∈ trace (livesStep cfg) (.fresh cfg) ops, ¬ PlacesLost cfg t) :
    ∀ t ∈ trace (livesStep cfg) (.fresh cfg) ops, AcceptedOnce t.post.world :=
  fun t ht => .inl ((accepted_nodup_iff hwal ops).mpr h t ht)

/-- An order fills, the process stops once it is acknowledged, and the rebuilt gateway is handed
the intent again. -/
def stopAfterAck : List GatewayOp :=
  [.call (.recover quietEnv), .call (present sampleGateway quietEnv 1), .restart,
    .call (.recover quietEnv), .call (present sampleGateway quietEnv 2)]

/-- The acknowledgement is rehydrated, and the intent replayed. -/
theorem stopAfterAck_acceptedOnce :
    sampleGateway.hasWal = true ∧
      ∀ t ∈ trace (livesStep sampleGateway) (.fresh sampleGateway) stopAfterAck,
        AcceptedOnce t.post.world := by
  have hlost : ((trace (livesStep sampleGateway) (.fresh sampleGateway) stopAfterAck).all
      fun t => t.pre.lost.isEmpty) = true := by
    decide +kernel
  refine ⟨rfl, acceptedOnce_of_none_placed_again rfl stopAfterAck fun t ht => ?_⟩
  rintro ⟨env, intent, token, -, hmem, -⟩
  rw [List.isEmpty_iff.mp (List.all_eq_true.mp hlost t ht)] at hmem
  exact absurd hmem List.not_mem_nil

/-! ## Runs that lose no acknowledgement -/

/-! ## A filled order goes out twice -/

/-- The process stops between the venue's answer and the journalled acknowledgement. -/
def stoppedEnv : GatewayEnv := { quietEnv with walAck := .lost }

/-- An order fills, the process stops before it is acknowledged, and the rebuilt gateway is handed
the intent again. -/
def stopBeforeAck : List GatewayOp :=
  [.call (.recover quietEnv), .call (present sampleGateway stoppedEnv 1), .restart,
    .call (.recover quietEnv)]

/-- Nothing rests on the venue, so the recovery opens the gateway, and the order goes out again. -/
theorem filled_order_resubmitted :
    ¬ ∀ (cfg : GatewayConfig), cfg.hasWal = true → ∀ ops : List GatewayOp,
      ∀ t ∈ trace (livesStep cfg) (.fresh cfg) ops, AcceptedOnce t.post.world := by
  intro h
  let s := run (livesStep sampleGateway) (.fresh sampleGateway) stopBeforeAck
  let last : GatewayOp := .call (present sampleGateway quietEnv 2)
  let t := transition (livesStep sampleGateway) s last
  have honce : AcceptedOnce t.post.world :=
    h sampleGateway rfl (stopBeforeAck ++ [last]) t (mem_trace.mpr ⟨stopBeforeAck, [], rfl, rfl⟩)
  have htwice : ¬ (t.post.world.accepted.Nodup ∨ t.post.world.halted = true) := by
    decide +kernel
  exact htwice honce

end OrderGateway

end Windbreak
