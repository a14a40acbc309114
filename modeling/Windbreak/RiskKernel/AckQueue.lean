import Windbreak.RiskKernel.KernelRuns
import Windbreak.RiskKernel.TokenBacking

/-!
# What the acknowledgement queue holds

The queue files every request under its approval id and opens none for an intent that already has
one open.  Both facts are `RequestsFiled`, and every operation of a run keeps them, whichever
collaborators raise and whatever ids the issuer of approval ids draws.

* **`ackEffect_requests`** — what one operation can do to the queue: file one fresh request, grant
  one that is live, or lapse some that are due.
* **`submit_held`** — a submission that is held names the request that was open for its intent, or
  the one it opened.
* **`held_grantable_iff`** — the request a held submission names can be granted at the same instant
  exactly when the one open for the intent has not reached its expiry.  The queue never looks at
  the clock when it answers which requests are open, so one nobody has swept yet is named, and
  refused: `unswept_hold_is_refused`.
-/

namespace Windbreak

open Machine Effects

/-! ## The requests on file -/

theorem AckRecord.isPending_iff {r : AckRecord} : r.isPending = true ↔ r.status = .PENDING :=
  decide_eq_true_iff

theorem mem_pendingAcks {records : OrderedDict String AckRecord} {p : PendingHumanAck} :
    p ∈ pendingAcks records ↔
      ∃ id r, records.get? id = some r ∧ r.status = .PENDING ∧ r.pending = p := by
  simp only [pendingAcks, List.mem_map, List.mem_filter, OrderedDict.mem_values_iff,
    AckRecord.isPending_iff]
  constructor
  · rintro ⟨r, ⟨⟨id, hr⟩, hpending⟩, rfl⟩
    exact ⟨id, r, hr, hpending, rfl⟩
  · rintro ⟨id, r, hr, hpending, rfl⟩
    exact ⟨r, ⟨⟨id, hr⟩, hpending⟩, rfl⟩

theorem mem_acknowledgedIntentIds {records : OrderedDict String AckRecord} {intentId : String} :
    intentId ∈ acknowledgedIntentIds records ↔
      ∃ id r, records.get? id = some r ∧ r.status = .GRANTED ∧ r.pending.intentId = intentId := by
  simp only [acknowledgedIntentIds, List.mem_toFinset, List.mem_map, List.mem_filter,
    OrderedDict.mem_values_iff, decide_eq_true_eq]
  constructor
  · rintro ⟨r, ⟨⟨id, hr⟩, hgranted⟩, rfl⟩
    exact ⟨id, r, hr, hgranted, rfl⟩
  · rintro ⟨id, r, hr, hgranted, rfl⟩
    exact ⟨r, ⟨⟨id, hr⟩, hgranted⟩, rfl⟩

theorem hasPendingIntent_iff {records : OrderedDict String AckRecord} {intentId : String} :
    hasPendingIntent records intentId = true ↔
      ∃ p ∈ pendingAcks records, p.intentId = intentId := by
  simp only [hasPendingIntent, pendingAcks, List.any_eq_true, List.mem_map, List.mem_filter,
    Bool.and_eq_true, beq_iff_eq]
  constructor
  · rintro ⟨r, hr, hpending, hid⟩
    exact ⟨r.pending, ⟨r, ⟨hr, hpending⟩, rfl⟩, hid⟩
  · rintro ⟨p, ⟨r, ⟨hr, hpending⟩, rfl⟩, hid⟩
    exact ⟨r, hr, hpending, hid⟩

/-- **Every request is filed under its approval id, and an intent has at most one open.** -/
structure RequestsFiled (records : OrderedDict String AckRecord) : Prop where
  filed : ∀ id r, records.get? id = some r → r.pending.approvalId = id
  open_once : ∀ p ∈ pendingAcks records, ∀ q ∈ pendingAcks records,
    p.intentId = q.intentId → p = q

theorem RequestsFiled.empty : RequestsFiled .empty := by
  constructor
  · intro id r hr
    simp at hr
  · intro p hp
    simp [pendingAcks] at hp

/-- Filing a record under its own id keeps the requests on file, unless it opens a second one for
its intent. -/
theorem RequestsFiled.set {records : OrderedDict String AckRecord} (h : RequestsFiled records)
    {id : String} {r : AckRecord} (hid : r.pending.approvalId = id)
    (hopen : r.status = .PENDING → ∀ p ∈ pendingAcks records,
      p.intentId = r.pending.intentId → p = r.pending) :
    RequestsFiled (records.set id r) := by
  -- an open request is the new record's, or was open before
  have hcase : ∀ p ∈ pendingAcks (records.set id r),
      p = r.pending ∧ r.status = .PENDING ∨ p ∈ pendingAcks records := by
    intro p hp
    obtain ⟨id', r', hr', hpending, hp⟩ := mem_pendingAcks.mp hp
    rw [OrderedDict.get?_set] at hr'
    split_ifs at hr' with heq
    · cases hr'
      exact Or.inl ⟨hp.symm, hpending⟩
    · exact Or.inr (mem_pendingAcks.mpr ⟨id', r', hr', hpending, hp⟩)
  constructor
  · intro id' r' hr'
    rw [OrderedDict.get?_set] at hr'
    split_ifs at hr' with heq
    · cases hr'
      rw [hid, heq]
    · exact h.filed id' r' hr'
  · intro p hp q hq hsame
    rcases hcase p hp with ⟨rfl, hpending⟩ | hp
    · rcases hcase q hq with ⟨rfl, -⟩ | hq
      · rfl
      · exact (hopen hpending q hq hsame.symm).symm
    · rcases hcase q hq with ⟨rfl, hpending⟩ | hq
      · exact hopen hpending p hp hsame
      · exact h.open_once p hp q hq hsame

/-! ## What one operation does to the queue -/

/-- Every record is as it was, or was open and has lapsed. -/
def Lapsing (records records' : OrderedDict String AckRecord) : Prop :=
  ∀ id, records'.get? id = records.get? id ∨
    ∃ r, records.get? id = some r ∧ r.status = .PENDING ∧
      records'.get? id = some { r with status := .LAPSED }

/-- **What an operation can do to the queue**: leave it, open a request for an intent that has none
open, grant one that is live, or lapse some. -/
inductive QueueMove (op : AckOp) (records records' : OrderedDict String AckRecord) : Prop
  | same (h : records' = records)
  | opened (p : PendingHumanAck) (hnone : ∀ q ∈ pendingAcks records, q.intentId ≠ p.intentId)
      (h : records' = records.set p.approvalId ⟨p, .PENDING⟩)
  | granted (env : KernelEnv) (id : String) (now : ℤ) (r : AckRecord) (hop : op = .grant env id now)
      (hr : records.get? id = some r) (hpending : r.status = .PENDING)
      (hlive : now < r.pending.expiresAt)
      (h : records' = records.set id { r with status := .GRANTED })
  | lapsed (h : Lapsing records records')

theorem records_record (env : KernelEnv) (event : Event) :
    Frames KernelWorld.ackRecords (record env event) :=
  record_frames env event (fun _ _ => rfl) fun _ => rfl

theorem records_ledgerStep (cfg : KernelConfig) (w : KernelWorld) (op : LedgerOp) :
    (ledgerStep cfg w op).2.ackRecords = w.ackRecords :=
  ledgerStep_moves (R := fun s s' : KernelWorld => s'.ackRecords = s.ackRecords) cfg
    (fun _ _ => rfl) (fun env event _ => records_record env event) (fun _ _ => rfl)
    (fun _ _ => rfl) w op

theorem records_approve (cfg : KernelConfig) (env : KernelEnv) (intent : OrderIntent)
    (context : EvaluationContext) : Frames KernelWorld.ackRecords (approve cfg env intent context) := by
  intro w
  have h := records_ledgerStep cfg w (.approve env intent context)
  simpa only [ledgerStep, reply_snd] using h

/-- A request is refused while the intent has one open, and filed otherwise. -/
theorem requestAck_records (cfg : KernelConfig) (env : KernelEnv) (id : String)
    (cost : MoneyMicros) (now : ℤ) (w : KernelWorld) :
    let p : PendingHumanAck := ⟨env.freshToken, id, cost, now, now + cfg.ackTtlSeconds⟩
    (finalState ((requestAck cfg env id cost now).run w)).ackRecords =
      if hasPendingIntent w.ackRecords id then w.ackRecords
      else w.ackRecords.set p.approvalId ⟨p, .PENDING⟩ := by
  intro p
  unfold requestAck
  rw [EStateM.run_bind, EStateM.run_get]
  dsimp only
  by_cases hopen : hasPendingIntent w.ackRecords id = true
  · rw [if_pos hopen, if_pos hopen]
    rfl
  · rw [if_neg hopen, if_neg hopen, EStateM.run_bind, EStateM.run_set]
    exact Moves.bind (records_record env _) (fun _ => Moves.pure _) _

/-- A request that returns was filed as it is returned. -/
theorem requestAck_ok {cfg : KernelConfig} {env : KernelEnv} {id : String} {cost : MoneyMicros}
    {now : ℤ} {p : PendingHumanAck} {w w' : KernelWorld}
    (h : (requestAck cfg env id cost now).run w = .ok p w') :
    p = ⟨env.freshToken, id, cost, now, now + cfg.ackTtlSeconds⟩ ∧
      w'.ackRecords = w.ackRecords.set p.approvalId ⟨p, .PENDING⟩ := by
  unfold requestAck at h
  obtain ⟨w₀, t, hget, h⟩ := run_bind_ok.mp h
  cases hget
  split_ifs at h with hopen
  · cases h
  · obtain ⟨_, t, hset, h⟩ := run_bind_ok.mp h
    cases hset
    obtain ⟨_, t, hrec, h⟩ := run_bind_ok.mp h
    cases h
    exact ⟨rfl, (records_record env _).of_ok hrec⟩

theorem requestAck_moves (cfg : KernelConfig) (env : KernelEnv) (id : String)
    (cost : MoneyMicros) (now : ℤ) (op : AckOp) (w : KernelWorld) :
    QueueMove op w.ackRecords
      (finalState ((requestAck cfg env id cost now).run w)).ackRecords := by
  rw [requestAck_records]
  by_cases hopen : hasPendingIntent w.ackRecords id = true
  · rw [if_pos hopen]
    exact .same rfl
  · rw [if_neg hopen]
    refine .opened ⟨env.freshToken, id, cost, now, now + cfg.ackTtlSeconds⟩ ?_ rfl
    intro q hq hsame
    exact hopen (hasPendingIntent_iff.mpr ⟨q, hq, hsame⟩)

theorem requestOrExistingHold_moves (cfg : KernelConfig) (env : KernelEnv) (intent : OrderIntent)
    (effective : EvaluationContext) (op : AckOp) (w : KernelWorld) :
    QueueMove op w.ackRecords
      (finalState ((requestOrExistingHold cfg env intent effective).run w)).ackRecords := by
  unfold requestOrExistingHold
  rw [EStateM.run_bind, EStateM.run_get]
  dsimp only
  split
  · exact .same rfl
  · rw [EStateM.run_bind]
    cases hcost : orderCost intent effective with
    | error e => exact .same rfl
    | ok cost => exact requestAck_moves cfg env _ cost _ op w

theorem submit_moves (cfg : KernelConfig) (env : KernelEnv) (intent : OrderIntent)
    (context : EvaluationContext) (op : AckOp) (w : KernelWorld) :
    QueueMove op w.ackRecords
      (finalState ((submit cfg env intent context).run w)).ackRecords := by
  unfold submit
  rw [EStateM.run_bind, EStateM.run_get]
  dsimp only
  rw [EStateM.run_bind]
  have happrove := records_approve cfg env intent (acknowledgedContext w.ackRecords context) w
  cases h : (approve cfg env intent (acknowledgedContext w.ackRecords context)).run w with
  | error e t =>
      rw [h] at happrove
      exact .same happrove
  | ok outcome t =>
      rw [h, finalState_ok] at happrove
      dsimp only
      split
      · exact .same happrove
      · split
        · have hhold := requestOrExistingHold_moves cfg env intent
            (acknowledgedContext w.ackRecords context) op t
          rw [happrove] at hhold
          rw [EStateM.run_bind]
          cases hrun : (requestOrExistingHold cfg env intent
              (acknowledgedContext w.ackRecords context)).run t with
          | ok p u => rwa [hrun] at hhold
          | error e u => rwa [hrun] at hhold
        · exact .same happrove

theorem grant_moves (env : KernelEnv) (id : String) (now : ℤ) (w : KernelWorld) :
    QueueMove (.grant env id now) w.ackRecords
      (finalState ((grant env id now).run w)).ackRecords := by
  unfold grant
  rw [EStateM.run_bind, EStateM.run_get]
  dsimp only
  split
  · exact .same rfl
  · rename_i r hr
    by_cases hrefused : r.status ≠ .PENDING ∨ r.pending.expiresAt ≤ now
    · rw [if_pos hrefused]
      exact .same rfl
    · rw [if_neg hrefused, EStateM.run_bind, EStateM.run_set]
      simp only [not_or, not_not, not_le] at hrefused
      refine .granted env id now r rfl hr hrefused.1 hrefused.2 ?_
      exact records_record env _ _

/-- One round of the sweep lapses at most the record it was handed. -/
theorem lapseIfDue_lapsing (env : KernelEnv) (now : ℤ)
    {records : OrderedDict String AckRecord} {item : String × AckRecord}
    (hitem : records.get? item.1 = some item.2) :
    Moves (Keeps fun w : KernelWorld => Lapsing records w.ackRecords) (lapseIfDue env now item) := by
  refine Moves.ite (fun hdue => ?_) fun _ => Moves.pure _
  have hpending : item.2.status = .PENDING := by
    simp only [AckRecord.isDue, Bool.and_eq_true, AckRecord.isPending_iff] at hdue
    exact hdue.1
  have hrecord : ∀ event, Moves (Keeps fun w : KernelWorld => Lapsing records w.ackRecords)
      (record env event) := by
    intro event
    refine (records_record env event).mono fun s s' hsame h => ?_
    dsimp only at h ⊢
    rwa [hsame]
  refine Moves.bind (Moves.modify ?_) fun _ => Moves.bind (hrecord _) fun _ =>
    Moves.bind (Moves.modify fun _ h => h) fun _ => hrecord _
  intro w h id
  rw [KernelWorld.withAckRecords_ackRecords, OrderedDict.get?_set]
  split_ifs with heq
  · rw [heq]
    exact Or.inr ⟨item.2, hitem, hpending, rfl⟩
  · exact h id

theorem queueExpireDue_moves (env : KernelEnv) (now : ℤ) (op : AckOp) (w : KernelWorld) :
    QueueMove op w.ackRecords
      (finalState ((queueExpireDue env now).run w)).ackRecords := by
  refine .lapsed ?_
  have hsweep : Moves (Keeps fun v : KernelWorld => Lapsing w.ackRecords v.ackRecords)
      (forM w.ackRecords.items fun item => lapseIfDue env now item : KernelM PUnit) :=
    Moves.forM fun item hitem => lapseIfDue_lapsing env now (OrderedDict.mem_items_iff.mp hitem)
  exact hsweep w fun id => Or.inl rfl

/-- **One operation** of a run on the queue. -/
theorem ackEffect_requests (cfg : KernelConfig) (w : KernelWorld) (op : AckOp) :
    QueueMove op w.ackRecords (ackEffect cfg w op).2.ackRecords := by
  cases op with
  | ledger op =>
      rw [ackEffect_ledger]
      exact .same (records_ledgerStep cfg w op)
  | submit env intent context =>
      simp only [ackEffect, settle_snd]
      exact submit_moves cfg env intent context _ w
  | requestAck env id cost now =>
      simp only [ackEffect, settle_snd]
      exact requestAck_moves cfg env id cost now _ w
  | grant env approvalId now =>
      simp only [ackEffect, settle_snd]
      exact grant_moves env approvalId now w
  | expireDue env now =>
      simp only [ackEffect, settle_snd]
      exact queueExpireDue_moves env now _ w

/-! ## What a run keeps -/

/-- A lapse opens no request and keeps every one under its id. -/
theorem RequestsFiled.of_lapsing {records records' : OrderedDict String AckRecord}
    (h : RequestsFiled records) (hlapse : Lapsing records records') : RequestsFiled records' := by
  have hopen : ∀ p ∈ pendingAcks records', p ∈ pendingAcks records := by
    intro p hp
    obtain ⟨id, r, hr, hpending, hp⟩ := mem_pendingAcks.mp hp
    rcases hlapse id with hsame | ⟨r₀, -, -, hlapsed⟩
    · exact mem_pendingAcks.mpr ⟨id, r, hsame ▸ hr, hpending, hp⟩
    · rw [hlapsed] at hr
      cases hr
      cases hpending
  constructor
  · intro id r hr
    rcases hlapse id with hsame | ⟨r₀, hr₀, -, hlapsed⟩
    · exact h.filed id r (hsame ▸ hr)
    · rw [hlapsed] at hr
      cases hr
      exact h.filed id r₀ hr₀
  · intro p hp q hq
    exact h.open_once p (hopen p hp) q (hopen q hq)

theorem RequestsFiled.of_move {op : AckOp} {records records' : OrderedDict String AckRecord}
    (h : RequestsFiled records) (hmove : QueueMove op records records') :
    RequestsFiled records' := by
  cases hmove with
  | same hsame => rwa [hsame]
  | opened p hnone hset =>
      rw [hset]
      exact h.set rfl fun _ q hq hsame => absurd hsame (hnone q hq)
  | granted env id now r hop hr hpending hlive hset =>
      rw [hset]
      exact h.set (h.filed id r hr) nofun
  | lapsed hlapse => exact h.of_lapsing hlapse

/-- **In every state a run reaches, the requests are on file.** -/
theorem requestsFiled_run (cfg : KernelConfig) {w : KernelWorld} (h : w.ackRecords = .empty)
    (ops : List AckOp) : RequestsFiled (run (ackEffect cfg) w ops).ackRecords := by
  refine run_invariant (I := fun v : KernelWorld => RequestsFiled v.ackRecords) ?_ ?_ ops
  · intro v op hv
    exact hv.of_move (ackEffect_requests cfg v op)
  · rw [h]
    exact .empty

/-! ## A held submission -/

/-- **A submission that is held** names the request open for its intent, the queue untouched, or
the request it opened because there was none. -/
theorem submit_held {cfg : KernelConfig} {env : KernelEnv} {intent : OrderIntent}
    {context : EvaluationContext} {outcome : AckGatedOutcome} {p : PendingHumanAck}
    {w w' : KernelWorld} (h : (submit cfg env intent context).run w = .ok outcome w')
    (hp : outcome.pendingAck = some p) :
    p.intentId = intent.intentId ∧
      (p ∈ pendingAcks w.ackRecords ∧ w'.ackRecords = w.ackRecords ∨
        (∀ q ∈ pendingAcks w.ackRecords, q.intentId ≠ intent.intentId) ∧
          p.expiresAt = context.nowEpochS + cfg.ackTtlSeconds ∧
          w'.ackRecords = w.ackRecords.set p.approvalId ⟨p, .PENDING⟩) := by
  unfold submit at h
  obtain ⟨w₀, t, hget, h⟩ := run_bind_ok.mp h
  cases hget
  obtain ⟨approval, t, happrove, h⟩ := run_bind_ok.mp h
  have hrecords := (records_approve cfg env intent _).of_ok happrove
  split_ifs at h with hveto hreasons
  · cases h
    cases hp
  · obtain ⟨q, u, hhold, h⟩ := run_bind_ok.mp h
    cases h
    cases hp
    unfold requestOrExistingHold at hhold
    obtain ⟨v, t', hget, hhold⟩ := run_bind_ok.mp hhold
    cases hget
    rw [hrecords] at hhold
    split at hhold
    · rename_i found hfind
      cases hhold
      exact ⟨by simpa using List.find?_some hfind, Or.inl ⟨List.mem_of_find?_eq_some hfind, hrecords⟩⟩
    · rename_i hfind
      have hnone : ∀ q ∈ pendingAcks w.ackRecords, q.intentId ≠ intent.intentId := by
        simpa using hfind
      obtain ⟨cost, u, hcost, hopened⟩ := run_bind_ok.mp hhold
      obtain ⟨-, rfl⟩ := raising_run_ok.mp hcost
      obtain ⟨rfl, hset⟩ := requestAck_ok hopened
      exact ⟨rfl, Or.inr ⟨hnone, rfl, by rw [hset, hrecords]⟩⟩
  · cases h
    cases hp

/-- The grant of an approval id at an instant goes through, for the intent, whenever the writer
takes the event. -/
def Grantable (w : KernelWorld) (approvalId intentId : String) (now : ℤ) : Prop :=
  ∀ env : KernelEnv, (∀ event, env.recordRaises event = false) →
    ∃ r w', w.ackRecords.get? approvalId = some r ∧ r.pending.intentId = intentId ∧
      (grant env approvalId now).run w = .ok () w'

/-- A grant goes through exactly for a request that is open and has not reached its expiry. -/
theorem grantable_iff {w : KernelWorld} {approvalId intentId : String} {now : ℤ} :
    Grantable w approvalId intentId now ↔
      ∃ r, w.ackRecords.get? approvalId = some r ∧ r.pending.intentId = intentId ∧
        r.status = .PENDING ∧ now < r.pending.expiresAt := by
  constructor
  · intro h
    obtain ⟨r, w', hr, hid, hrun⟩ := h .quiet fun _ => rfl
    refine ⟨r, hr, hid, ?_⟩
    unfold grant at hrun
    obtain ⟨w₀, t, hget, hrest⟩ := run_bind_ok.mp hrun
    cases hget
    simp only [hr] at hrest
    split_ifs at hrest with hrefused
    · cases hrest
    · simpa only [not_or, not_not, not_le] using hrefused
  · rintro ⟨r, hr, hid, hpending, hlive⟩ env hquiet
    unfold grant
    rw [EStateM.run_bind, EStateM.run_get]
    simp only [hr]
    rw [if_neg (by simp only [not_or, not_not, not_le]; exact ⟨hpending, hlive⟩),
      EStateM.run_bind, EStateM.run_set]
    simp only [record_run, hquiet, Bool.false_eq_true, if_false]
    exact ⟨r, _, rfl, hid, rfl⟩

/-- **A held submission can be granted at once exactly when** no request open for its intent has
reached its expiry and, where it opened the request itself, the ttl is positive. -/
theorem held_grantable_iff (cfg : KernelConfig) (w₀ : KernelWorld) (hempty : w₀.ackRecords = .empty)
    (ops : List AckOp) (env : KernelEnv) (intent : OrderIntent) (context : EvaluationContext)
    (outcome : AckGatedOutcome) (p : PendingHumanAck) (w' : KernelWorld)
    (hrun : (submit cfg env intent context).run (run (ackEffect cfg) w₀ ops) = .ok outcome w')
    (hp : outcome.pendingAck = some p) :
    let records := (run (ackEffect cfg) w₀ ops).ackRecords
    Grantable w' p.approvalId intent.intentId context.nowEpochS ↔
      (∀ q ∈ pendingAcks records, q.intentId = intent.intentId →
        context.nowEpochS < q.expiresAt) ∧
      ((∃ q ∈ pendingAcks records, q.intentId = intent.intentId) ∨ 0 < cfg.ackTtlSeconds) := by
  intro records
  have hfiled : RequestsFiled records := requestsFiled_run cfg hempty ops
  obtain ⟨hid, ⟨hmem, hsame⟩ | ⟨hnone, hexpires, hset⟩⟩ := submit_held hrun hp
  · -- the open request is the one that is named, and no other is open for the intent
    have hthe : ∀ q ∈ pendingAcks records, q.intentId = intent.intentId → q = p :=
      fun q hq hqid => hfiled.open_once q hq p hmem (hqid.trans hid.symm)
    obtain ⟨id, r, hr, hpending, hrp⟩ := mem_pendingAcks.mp hmem
    have hkey : p.approvalId = id := by
      rw [← hrp]
      exact hfiled.filed id r hr
    rw [grantable_iff, hsame, hkey]
    constructor
    · rintro ⟨r', hr', -, -, hlive⟩
      cases hr.symm.trans hr'
      rw [hrp] at hlive
      refine ⟨fun q hq hqid => ?_, Or.inl ⟨p, hmem, hid⟩⟩
      rwa [hthe q hq hqid]
    · rintro ⟨hlive, -⟩
      refine ⟨r, hr, ?_, hpending, ?_⟩
      · rw [hrp, hid]
      · rw [hrp]
        exact hlive p hmem hid
  · rw [grantable_iff, hset]
    simp only [OrderedDict.get?_set_self, Option.some.injEq, exists_eq_left', hexpires]
    constructor
    · rintro ⟨-, -, hlive⟩
      exact ⟨fun q hq hqid => absurd hqid (hnone q hq), Or.inr (by omega)⟩
    · rintro ⟨-, ⟨q, hq, hqid⟩ | httl⟩
      · exact absurd hqid (hnone q hq)
      · exact ⟨hid, trivial, by omega⟩

/-! ## A hold nobody swept -/

/-- The sample order, submitted at an instant under an operator's threshold it is above. -/
def submitAboveThreshold (now : ℤ) : AckOp :=
  .submit .quiet sampleIntent (sampleContextAt now (some 1))

/-- The request that the sample order, submitted at an instant after a run, is held under. -/
def heldUnder (ops : List AckOp) (now : ℤ) : Option PendingHumanAck :=
  match (submit sampleConfig .quiet sampleIntent (sampleContextAt now (some 1))).run
      (run (ackEffect sampleConfig) sampleWorld ops) with
  | .ok outcome _ => outcome.pendingAck
  | .error _ _ => none

theorem submit_of_heldUnder {ops : List AckOp} {now : ℤ} {p : PendingHumanAck}
    (h : heldUnder ops now = some p) :
    ∃ outcome w', (submit sampleConfig .quiet sampleIntent (sampleContextAt now (some 1))).run
        (run (ackEffect sampleConfig) sampleWorld ops) = .ok outcome w' ∧
      outcome.pendingAck = some p := by
  unfold heldUnder at h
  split at h
  · exact ⟨_, _, ‹_›, h⟩
  · cases h

/-- The first submission opens a request that can be granted at once. -/
theorem fresh_hold_is_grantable :
    ∃ p w', heldUnder [] 1700000000 = some p ∧
      Grantable w' p.approvalId sampleIntent.intentId 1700000000 := by
  have hheld : heldUnder [] 1700000000 =
      some ⟨"", "intent-0001", ⟨5000000⟩, 1700000000, 1700003600⟩ := by decide +kernel
  obtain ⟨outcome, w', hrun, hp⟩ := submit_of_heldUnder hheld
  refine ⟨_, w', hheld, ?_⟩
  refine (held_grantable_iff sampleConfig sampleWorld rfl [] _ _ _ _ _ _ hrun hp).mpr ⟨?_, ?_⟩
  · simp [sampleWorld, KernelWorld.fresh, pendingAcks]
  · exact Or.inr (by decide)

/-- A submission an hour later is held under the same request, which has just reached its expiry,
and its grant is refused. -/
theorem unswept_hold_is_refused :
    ¬ ∀ (cfg : KernelConfig) (w₀ : KernelWorld), w₀.ackRecords = .empty →
      ∀ (ops : List AckOp) (env : KernelEnv) (intent : OrderIntent) (context : EvaluationContext),
        (ops.filterMap AckOp.reading? ++ [context.nowEpochS]).Pairwise (· ≤ ·) →
        ∀ outcome p w', (submit cfg env intent context).run (run (ackEffect cfg) w₀ ops) =
            .ok outcome w' → outcome.pendingAck = some p →
          Grantable w' p.approvalId intent.intentId context.nowEpochS := by
  intro h
  have hheld : heldUnder [submitAboveThreshold 1700000000] 1700003600 =
      some ⟨"", "intent-0001", ⟨5000000⟩, 1700000000, 1700003600⟩ := by decide +kernel
  obtain ⟨outcome, w', hrun, hp⟩ := submit_of_heldUnder hheld
  have hgrant := h sampleConfig sampleWorld rfl _ _ _ _ (by decide) _ _ _ hrun hp
  obtain ⟨-, ⟨hmem, hsame⟩ | ⟨hnone, -, -⟩⟩ := submit_held hrun hp
  · obtain ⟨r, hr, -, -, hlive⟩ := grantable_iff.mp hgrant
    rw [hsame] at hr
    have hexpired : ((run (ackEffect sampleConfig) sampleWorld
        [submitAboveThreshold 1700000000]).ackRecords.get? "").map (·.pending.expiresAt) =
          some 1700003600 := by decide +kernel
    rw [hr, Option.map_some, Option.some.injEq] at hexpired
    rw [hexpired] at hlive
    exact absurd hlive (by decide)
  · have hopen : (pendingAcks (run (ackEffect sampleConfig) sampleWorld
        [submitAboveThreshold 1700000000]).ackRecords).any
          (·.intentId == sampleIntent.intentId) = true := by decide +kernel
    obtain ⟨q, hq, hqid⟩ := List.any_eq_true.mp hopen
    exact hnone q hq (by simpa using hqid)

end Windbreak
