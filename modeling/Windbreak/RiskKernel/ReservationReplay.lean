import Mathlib.Algebra.Order.BigOperators.Group.List
import Mathlib.Data.List.TakeWhile
import Windbreak.RiskKernel.LedgerRuns

/-!
# Replaying reservations

The recorded events of the reservation ledger, folded in order, against the ledger itself.

* **`absorbReservation`** — what an event says happened to the ledger.
* **`reservationStep_recorded`** — a method records what it did, unless the writer raises on it.
* **`reservations_replay_iff`** — the events determine the ledger in every state of a run exactly
  when no method loses an event.
-/

namespace Windbreak

open Machine Effects

/-! ## The methods as one machine -/

/-- A call of a method. -/
inductive ReservationOp where
  | reserve (env : KernelEnv) (intentId : String) (amount : MoneyMicros) (idempotencyKey : String)
      (expiresAt : ℤ)
  | adjust (env : KernelEnv) (intentId : String) (remainingAmount : MoneyMicros)
  | release (env : KernelEnv) (intentId reason : String)
  | releaseAllActive (env : KernelEnv) (reason : String)
  | expireDue (env : KernelEnv) (nowEpochS : ℤ)

def reservationStep (w : KernelWorld) : ReservationOp → LedgerReply × KernelWorld
  | .reserve env intentId amount key expiresAt =>
    reply (fun _ => .done) ((reserve env intentId amount key expiresAt).run w)
  | .adjust env intentId remaining => reply (fun _ => .done) ((adjust env intentId remaining).run w)
  | .release env intentId reason => reply (fun _ => .done) ((release env intentId reason).run w)
  | .releaseAllActive env reason => reply (fun _ => .done) ((releaseAllActive env reason).run w)
  | .expireDue env now => reply (fun _ => .done) ((expireDue env now).run w)

/-! ## The fold -/

/-- The reservation that a creation event spells out. -/
def createdReservation? (event : Event) : Option Reservation := do
  let intentId ← event.str? "intent_id"
  let amount ← event.int? "amount"
  let idempotencyKey ← event.str? "idempotency_key"
  let expiresAt ← event.int? "expires_at"
  let sequenceNumber ← event.int? "sequence_number"
  return ⟨intentId, ⟨amount⟩, idempotencyKey, expiresAt, sequenceNumber⟩

/-- Change the amount of a reservation, if it is active. -/
def ReservationLedger.adjusted (ledger : ReservationLedger) (intentId : String)
    (amount : MoneyMicros) : ReservationLedger :=
  match h : ledger.active.get? intentId with
  | none => ledger
  | some r => ledger.resize r amount (ledger.filed intentId r h ▸ h)

/-- Fold one event into the ledger; events of other types say nothing about it. -/
def absorbReservation (ledger : ReservationLedger) (event : Event) : ReservationLedger :=
  if event.eventType = "ReservationCreated" then
    (createdReservation? event).elim ledger ledger.add
  else if event.eventType = "ReservationAdjusted" then
    match event.str? "intent_id", event.int? "remaining_amount" with
    | some intentId, some amount => ledger.adjusted intentId ⟨amount⟩
    | _, _ => ledger
  else if event.eventType = "ReservationReleased" then
    (event.str? "intent_id").elim ledger ledger.drop
  else ledger

/-- The ledger that a log spells out. -/
def replayReservations (log : List Event) : ReservationLedger := log.foldl absorbReservation .empty

/-- Two ledgers agree: on the active reservations (their amounts and expiries), on the total, and on
the intent ids and idempotency keys ever seen. -/
structure ReservationLedger.SameState (ledger ledger' : ReservationLedger) : Prop where
  active : ledger.active = ledger'.active
  total : ledger.totalReserved = ledger'.totalReserved
  intentIds : ledger.seenIntentIds = ledger'.seenIntentIds
  idempotencyKeys : ledger.seenIdempotencyKeys = ledger'.seenIdempotencyKeys

/-- The log determines the ledger. -/
def Determined (w : KernelWorld) : Prop := (replayReservations w.log).SameState w.ledger

/-- The abbreviation for a transition of this machine. -/
abbrev ReservationTransition := Transition KernelWorld ReservationOp LedgerReply

/-- **A method loses an event**: it changes the ledger, and the writer raises on the event that says
so. -/
def LosesEvent (t : ReservationTransition) : Prop :=
  let ledger := t.pre.ledger
  match t.input with
  | .reserve env intentId amount key expiresAt =>
    intentId ∉ ledger.seenIntentIds ∧ key ∉ ledger.seenIdempotencyKeys ∧
      env.recordRaises (nextReservation ledger intentId amount key expiresAt).createdEvent
  | .adjust env intentId remaining =>
    ∃ r, ledger.active.get? intentId = some r ∧
      (0 < remaining.value ∧ remaining.value < r.amount.value) ∧
        env.recordRaises (reservationAdjustedEvent intentId remaining)
  | .release env intentId reason =>
    intentId ∈ ledger.active.keys ∧ env.recordRaises (reservationReleasedEvent intentId reason)
  | .releaseAllActive env reason =>
    ∃ id ∈ ledger.active.keys, env.recordRaises (reservationReleasedEvent id reason)
  | .expireDue env now =>
    ∃ id ∈ dueIntents ledger now, env.recordRaises (reservationReleasedEvent id "expired")

/-! ## What an event says -/

section

variable (ledger : ReservationLedger)

theorem adjusted_of_active {r : Reservation} {amount : MoneyMicros}
    (h : ledger.active.get? r.intentId = some r) :
    ledger.adjusted r.intentId amount = ledger.resize r amount h := by
  unfold ReservationLedger.adjusted
  split
  · rename_i hnone
    rw [h] at hnone
    cases hnone
  · rename_i s hsome
    have hsame : s = r := Option.some.inj (hsome.symm.trans h)
    subst hsame
    rfl

theorem absorb_releases (reason : String) (ids : List String) :
    (ids.map (reservationReleasedEvent · reason)).foldl absorbReservation ledger =
      ledger.dropAll ids := by
  rw [List.foldl_map]
  rfl

end

/-! ## What a method records -/

/-- What a call does to the ledger and to the log: the events it records say what it did to the
ledger, unless it loses one, and then they do not. -/
def RecordedStep (w : KernelWorld) (op : ReservationOp) : Prop :=
  ∃ events, (reservationStep w op).2.log = w.log ++ events ∧
    (¬ LosesEvent (transition reservationStep w op) →
      events.foldl absorbReservation w.ledger = (reservationStep w op).2.ledger) ∧
    (LosesEvent (transition reservationStep w op) →
      ¬ (events.foldl absorbReservation w.ledger).SameState (reservationStep w op).2.ledger)

/-- Dropping what is not active changes nothing. -/
theorem ReservationLedger.drop_of_not_mem {ledger : ReservationLedger} {id : String}
    (h : id ∉ ledger.active.keys) : ledger.drop id = ledger := by
  have hpop : ledger.active.pop id = ledger.active := OrderedDict.pop_of_not_mem h
  obtain ⟨active, intentIds, keys, sequence, filed, seen⟩ := ledger
  unfold ReservationLedger.drop
  congr

/-- What `reserve` comes to. -/
theorem reserve_run (env : KernelEnv) (id : String) (amount : MoneyMicros) (key : String)
    (expiresAt : ℤ) (w : KernelWorld) :
    (reserve env id amount key expiresAt).run w =
      if id ∈ w.ledger.seenIntentIds then
        .error ⟨.duplicateReservation, s!"intent id already reserved: {id}"⟩ w
      else if key ∈ w.ledger.seenIdempotencyKeys then
        .error ⟨.duplicateReservation, s!"idempotency key already reserved: {key}"⟩ w
      else if env.recordRaises (nextReservation w.ledger id amount key expiresAt).createdEvent then
        .error ⟨.writer, "event writer failed"⟩ ((w.withLedger (w.ledger.add
          (nextReservation w.ledger id amount key expiresAt))).noted
            (.record (nextReservation w.ledger id amount key expiresAt).createdEvent))
      else .ok (nextReservation w.ledger id amount key expiresAt)
        (w.reserved (nextReservation w.ledger id amount key expiresAt)) := by
  unfold reserve
  rw [EStateM.run_bind, EStateM.run_get]
  dsimp only
  by_cases hid : id ∈ w.ledger.seenIntentIds
  · rw [if_pos hid, if_pos hid]
    rfl
  · rw [if_neg hid, if_neg hid]
    by_cases hkey : key ∈ w.ledger.seenIdempotencyKeys
    · rw [if_pos hkey, if_pos hkey]
      rfl
    · rw [if_neg hkey, if_neg hkey, EStateM.run_bind, EStateM.run_set]
      dsimp only
      rw [record_bind_run]
      rfl

section

variable {w : KernelWorld} {op : ReservationOp}

theorem RecordedStep.of_recorded (events : List Event)
    (hlog : (reservationStep w op).2.log = w.log ++ events)
    (hledger : (reservationStep w op).2.ledger = events.foldl absorbReservation w.ledger)
    (hkept : ¬ LosesEvent (transition reservationStep w op)) : RecordedStep w op :=
  ⟨events, hlog, fun _ => hledger.symm, fun hloses => absurd hloses hkept⟩

theorem RecordedStep.of_lost (events : List Event)
    (hlog : (reservationStep w op).2.log = w.log ++ events)
    (hdiffers : ¬ (events.foldl absorbReservation w.ledger).SameState
      (reservationStep w op).2.ledger)
    (hloses : LosesEvent (transition reservationStep w op)) : RecordedStep w op :=
  ⟨events, hlog, fun hkept => absurd hloses hkept, fun _ => hdiffers⟩

theorem reserve_recorded (env : KernelEnv) (id : String) (amount : MoneyMicros) (key : String)
    (expiresAt : ℤ) : RecordedStep w (.reserve env id amount key expiresAt) := by
  have hstep : (reservationStep w (.reserve env id amount key expiresAt)).2 =
      finalState ((reserve env id amount key expiresAt).run w) := reply_snd _ _
  rw [reserve_run] at hstep
  by_cases hid : id ∈ w.ledger.seenIntentIds
  · rw [if_pos hid] at hstep
    refine .of_recorded [] ?_ ?_ fun hloses => hloses.1 hid
    · rw [hstep]
      exact (List.append_nil _).symm
    · rw [hstep]
      rfl
  · rw [if_neg hid] at hstep
    by_cases hkey : key ∈ w.ledger.seenIdempotencyKeys
    · rw [if_pos hkey] at hstep
      refine .of_recorded [] ?_ ?_ fun hloses => hloses.2.1 hkey
      · rw [hstep]
        exact (List.append_nil _).symm
      · rw [hstep]
        rfl
    · rw [if_neg hkey] at hstep
      by_cases hraises :
          env.recordRaises (nextReservation w.ledger id amount key expiresAt).createdEvent
      · rw [if_pos hraises] at hstep
        refine .of_lost [] ?_ ?_ ⟨hid, hkey, hraises⟩
        · rw [hstep]
          exact (List.append_nil _).symm
        · rw [hstep]
          intro hsame
          have hids : w.ledger.seenIntentIds = insert id w.ledger.seenIntentIds := hsame.intentIds
          rw [hids] at hid
          exact hid (Finset.mem_insert_self _ _)
      · rw [if_neg hraises] at hstep
        refine .of_recorded [(nextReservation w.ledger id amount key expiresAt).createdEvent] ?_ ?_
          fun hloses => hraises hloses.2.2
        · rw [hstep]
          rfl
        · rw [hstep]
          rfl

/-- An adjustment that is not a strict decrease of an active reservation is refused. -/
theorem adjust_refused (env : KernelEnv) {id : String} {remaining : MoneyMicros}
    (h : ∀ r, w.ledger.active.get? id = some r →
      ¬ (0 < remaining.value ∧ remaining.value < r.amount.value)) :
    ∃ e, (adjust env id remaining).run w = .error e w := by
  unfold adjust
  rw [EStateM.run_bind, EStateM.run_get]
  dsimp only
  split
  · exact ⟨_, rfl⟩
  · rename_i r hactive
    rw [if_neg (h r hactive)]
    exact ⟨_, rfl⟩

/-- Any other is made, and then recorded. -/
theorem adjust_run (env : KernelEnv) {r : Reservation} {remaining : MoneyMicros}
    (hactive : w.ledger.active.get? r.intentId = some r)
    (hless : 0 < remaining.value ∧ remaining.value < r.amount.value) :
    (adjust env r.intentId remaining).run w =
      (record env (reservationAdjustedEvent r.intentId remaining)).run
        (w.withLedger (w.ledger.resize r remaining hactive)) := by
  unfold adjust
  rw [EStateM.run_bind, EStateM.run_get]
  dsimp only
  split
  · rename_i hnone
    rw [hactive] at hnone
    cases hnone
  · rename_i s hsome
    have hsame : s = r := Option.some.inj (hsome.symm.trans hactive)
    subst hsame
    rw [if_pos hless, EStateM.run_bind, EStateM.run_set]

theorem adjust_recorded (env : KernelEnv) (id : String) (remaining : MoneyMicros) :
    RecordedStep w (.adjust env id remaining) := by
  have hstep : (reservationStep w (.adjust env id remaining)).2 =
      finalState ((adjust env id remaining).run w) := reply_snd _ _
  by_cases hdecrease : ∃ r, w.ledger.active.get? id = some r ∧
      (0 < remaining.value ∧ remaining.value < r.amount.value)
  · obtain ⟨r, hactive, hless⟩ := hdecrease
    have hid : r.intentId = id := w.ledger.filed id r hactive
    subst hid
    rw [adjust_run env hactive hless, record_run] at hstep
    by_cases hraises : env.recordRaises (reservationAdjustedEvent r.intentId remaining)
    · rw [if_pos hraises] at hstep
      refine .of_lost [] ?_ ?_ ⟨r, hactive, hless, hraises⟩
      · rw [hstep]
        exact (List.append_nil _).symm
      · rw [hstep]
        intro hsame
        have hresized : w.ledger.active.get? r.intentId =
            (w.ledger.resize r remaining hactive).active.get? r.intentId :=
          congrArg (OrderedDict.get? · r.intentId) hsame.active
        rw [hactive, ReservationLedger.resize_active, OrderedDict.get?_set_self,
          Option.some.injEq] at hresized
        have hamount := congrArg Reservation.amount hresized
        rw [hamount] at hless
        exact absurd hless.2 (lt_irrefl _)
    · rw [if_neg hraises] at hstep
      refine .of_recorded [reservationAdjustedEvent r.intentId remaining] ?_ ?_ ?_
      · rw [hstep]
        rfl
      · rw [hstep]
        exact (adjusted_of_active w.ledger hactive).symm
      · rintro ⟨-, -, -, hlost⟩
        exact hraises hlost
  · have hrefused : ∀ r, w.ledger.active.get? id = some r →
        ¬ (0 < remaining.value ∧ remaining.value < r.amount.value) :=
      fun r hactive hless => hdecrease ⟨r, hactive, hless⟩
    obtain ⟨e, hrun⟩ := adjust_refused env hrefused
    rw [hrun] at hstep
    refine .of_recorded [] ?_ ?_ ?_
    · rw [hstep]
      exact (List.append_nil _).symm
    · rw [hstep]
      rfl
    · rintro ⟨r, hactive, hless, -⟩
      exact hdecrease ⟨r, hactive, hless⟩

/-- What one release comes to. -/
theorem releaseLocked_run (env : KernelEnv) (id reason : String) (w : KernelWorld) :
    (releaseLocked env id reason).run w =
      if env.recordRaises (reservationReleasedEvent id reason) then
        .error ⟨.writer, "event writer failed"⟩
          ((w.withLedger (w.ledger.drop id)).noted (.record (reservationReleasedEvent id reason)))
      else
        .ok () (((w.withLedger (w.ledger.drop id)).noted
          (.record (reservationReleasedEvent id reason))).logged
            (reservationReleasedEvent id reason)) := by
  unfold releaseLocked
  rw [EStateM.run_bind, EStateM.run_modify]
  exact record_run _ _ _

/-- The releases of a loop that are recorded: those before the first whose record raises. -/
def recordedReleases (env : KernelEnv) (reason : String) (ids : List String) : List String :=
  ids.takeWhile fun id => !env.recordRaises (reservationReleasedEvent id reason)

theorem releaseEach_log (env : KernelEnv) (ids : List String) (reason : String) (w : KernelWorld) :
    (finalState ((releaseEach env ids reason).run w)).log =
      w.log ++ (recordedReleases env reason ids).map (reservationReleasedEvent · reason) := by
  induction ids generalizing w with
  | nil => exact (List.append_nil _).symm
  | cons id ids ih =>
      have hcons : releaseEach env (id :: ids) reason =
          (releaseLocked env id reason >>= fun _ => releaseEach env ids reason) := by
        simp only [releaseEach, List.forM_cons]
      rw [hcons, EStateM.run_bind, releaseLocked_run, recordedReleases, List.takeWhile_cons]
      by_cases hraises : env.recordRaises (reservationReleasedEvent id reason)
      · rw [if_pos hraises, hraises]
        exact (List.append_nil _).symm
      · rw [if_neg hraises, Bool.eq_false_iff.mpr hraises]
        dsimp only
        rw [ih]
        simp [recordedReleases]

/-- A loop of releases records every release it makes, or makes one more. -/
theorem releasedIntents_cases (env : KernelEnv) (reason : String) (ids : List String) :
    (∀ id ∈ ids, env.recordRaises (reservationReleasedEvent id reason) = false) ∧
        releasedIntents env reason ids = recordedReleases env reason ids ∨
      ∃ id ∈ ids, env.recordRaises (reservationReleasedEvent id reason) = true ∧
        releasedIntents env reason ids = recordedReleases env reason ids ++ [id] := by
  induction ids with
  | nil => exact .inl ⟨fun id hid => absurd hid List.not_mem_nil, rfl⟩
  | cons id ids ih =>
      rw [releasedIntents, recordedReleases, List.takeWhile_cons]
      cases hraises : env.recordRaises (reservationReleasedEvent id reason) with
      | true => exact .inr ⟨id, .head _, hraises, rfl⟩
      | false =>
          rcases ih with ⟨hnone, hsame⟩ | ⟨other, hother, hothers, hsame⟩
          · refine .inl ⟨List.forall_mem_cons.mpr ⟨hraises, hnone⟩, ?_⟩
            exact congrArg (id :: ·) hsame
          · refine .inr ⟨other, .tail _ hother, hothers, ?_⟩
            exact congrArg (id :: ·) hsame

/-- A loop of releases of active reservations. -/
theorem releaseEach_recorded {env : KernelEnv} {reason : String} {ids : List String}
    (hstep : (reservationStep w op).2 = finalState ((releaseEach env ids reason).run w))
    (hactive : ∀ id ∈ ids, id ∈ w.ledger.active.keys)
    (hloses : LosesEvent (transition reservationStep w op) ↔
      ∃ id ∈ ids, env.recordRaises (reservationReleasedEvent id reason)) : RecordedStep w op := by
  have hlog : (reservationStep w op).2.log = w.log ++
      (recordedReleases env reason ids).map (reservationReleasedEvent · reason) := by
    rw [hstep, releaseEach_log]
  have hledger : (reservationStep w op).2.ledger =
      w.ledger.dropAll (releasedIntents env reason ids) := by
    rw [hstep, releaseEach_finalState]
  rcases releasedIntents_cases env reason ids with ⟨hnone, hsame⟩ | ⟨id, hid, hraises, hsame⟩
  · refine .of_recorded _ hlog ?_ fun hlost => ?_
    · rw [hledger, hsame, absorb_releases]
    · obtain ⟨id, hid, hraises⟩ := hloses.mp hlost
      rw [hnone id hid] at hraises
      cases hraises
  · refine .of_lost _ hlog ?_ (hloses.mpr ⟨id, hid, hraises⟩)
    rw [absorb_releases, hledger, hsame]
    -- the last release is missing from the log, so its reservation is still active in the fold
    intro hagree
    have hunrecorded : id ∉ recordedReleases env reason ids := by
      intro hmem
      have hquiet := List.mem_takeWhile_imp hmem
      rw [hraises] at hquiet
      cases hquiet
    have hstill : id ∈ (w.ledger.dropAll (recordedReleases env reason ids)).active.keys :=
      ReservationLedger.mem_keys_dropAll.mpr ⟨hunrecorded, hactive id hid⟩
    rw [hagree.active] at hstill
    exact (ReservationLedger.mem_keys_dropAll.mp hstill).1
      (List.mem_append_right _ (.head _))

theorem release_recorded (env : KernelEnv) (id reason : String) :
    RecordedStep w (.release env id reason) := by
  have hstep : (reservationStep w (.release env id reason)).2 =
      finalState ((releaseLocked env id reason).run w) := reply_snd _ _
  rw [releaseLocked_run] at hstep
  by_cases hraises : env.recordRaises (reservationReleasedEvent id reason)
  · rw [if_pos hraises] at hstep
    by_cases hactive : id ∈ w.ledger.active.keys
    · refine .of_lost [] ?_ ?_ ⟨hactive, hraises⟩
      · rw [hstep]
        exact (List.append_nil _).symm
      · rw [hstep]
        intro hsame
        have hkeys : w.ledger.active.keys = (w.ledger.active.pop id).keys :=
          congrArg OrderedDict.keys hsame.active
        rw [hkeys, OrderedDict.mem_keys_pop] at hactive
        exact hactive.1 rfl
    · refine .of_recorded [] ?_ ?_ fun hloses => hactive hloses.1
      · rw [hstep]
        exact (List.append_nil _).symm
      · rw [hstep]
        exact ReservationLedger.drop_of_not_mem hactive
  · rw [if_neg hraises] at hstep
    refine .of_recorded [reservationReleasedEvent id reason] ?_ ?_ fun hloses => hraises hloses.2
    · rw [hstep]
      rfl
    · rw [hstep]
      rfl

/-- What is due is active. -/
theorem dueIntents_active (ledger : ReservationLedger) (now : ℤ) :
    ∀ id ∈ dueIntents ledger now, id ∈ ledger.active.keys := by
  intro id hid
  obtain ⟨r, hr, rfl⟩ := List.mem_map.mp hid
  obtain ⟨k, hk⟩ := OrderedDict.mem_values_iff.mp (List.mem_of_mem_filter hr)
  rw [ledger.filed k r hk]
  exact OrderedDict.mem_keys_iff.mpr ⟨r, hk⟩

/-- **A method records what it did**, unless it loses an event. -/
theorem reservationStep_recorded (w : KernelWorld) (op : ReservationOp) : RecordedStep w op := by
  cases op with
  | reserve env id amount key expiresAt => exact reserve_recorded env id amount key expiresAt
  | adjust env id remaining => exact adjust_recorded env id remaining
  | release env id reason => exact release_recorded env id reason
  | releaseAllActive env reason =>
      exact releaseEach_recorded (reply_snd _ _) (fun id hid => hid) Iff.rfl
  | expireDue env now =>
      exact releaseEach_recorded (reply_snd _ _) (dueIntents_active w.ledger now) Iff.rfl

end

/-! ## The total -/

/-- No active amount is negative. -/
def AmountsNonnegative (w : KernelWorld) : Prop :=
  ∀ id r, w.ledger.active.get? id = some r → 0 ≤ r.amount.value

/-- A call does not reserve a negative amount. -/
def ReservesNonnegative : ReservationOp → Prop
  | .reserve _ _ amount _ _ => 0 ≤ amount.value
  | _ => True

theorem totalReserved_nonneg {w : KernelWorld} (h : AmountsNonnegative w) :
    0 ≤ w.ledger.totalReserved.value := by
  refine List.sum_nonneg fun x hx => ?_
  obtain ⟨r, hr, rfl⟩ := List.mem_map.mp hx
  obtain ⟨id, hid⟩ := OrderedDict.mem_values_iff.mp hr
  exact h id r hid

theorem amounts_releaseEach {w w' : KernelWorld} (h : AmountsNonnegative w) (ids : List String)
    (hledger : w'.ledger = w.ledger.dropAll ids) : AmountsNonnegative w' := by
  intro id r hr
  rw [hledger, ReservationLedger.get?_dropAll] at hr
  split_ifs at hr
  exact h id r hr

theorem reservationStep_amounts {w : KernelWorld} (h : AmountsNonnegative w) {op : ReservationOp}
    (hop : ReservesNonnegative op) : AmountsNonnegative (reservationStep w op).2 := by
  cases op with
  | reserve env id amount key expiresAt =>
      have hadded : AmountsNonnegative (w.withLedger (w.ledger.add
          (nextReservation w.ledger id amount key expiresAt))) := by
        intro other r hr
        change (w.ledger.active.set _ _).get? other = some r at hr
        rw [OrderedDict.get?_set] at hr
        split_ifs at hr
        · rw [← Option.some.inj hr]
          exact hop
        · exact h other r hr
      change AmountsNonnegative (reply _ ((reserve env id amount key expiresAt).run w)).2
      rw [reply_snd, reserve_run]
      split_ifs
      · exact h
      · exact h
      · exact hadded
      · exact hadded
  | adjust env id remaining =>
      change AmountsNonnegative (reply _ ((adjust env id remaining).run w)).2
      rw [reply_snd]
      by_cases hdecrease : ∃ r, w.ledger.active.get? id = some r ∧
          (0 < remaining.value ∧ remaining.value < r.amount.value)
      · obtain ⟨r, hactive, hless⟩ := hdecrease
        have hid : r.intentId = id := w.ledger.filed id r hactive
        subst hid
        have hresized : AmountsNonnegative (w.withLedger (w.ledger.resize r remaining hactive)) := by
          intro other s hs
          change (w.ledger.active.set _ _).get? other = some s at hs
          rw [OrderedDict.get?_set] at hs
          split_ifs at hs
          · rw [← Option.some.inj hs]
            exact hless.1.le
          · exact h other s hs
        rw [adjust_run env hactive hless, record_run]
        split_ifs
        · exact hresized
        · exact hresized
      · have hrefused : ∀ r, w.ledger.active.get? id = some r →
            ¬ (0 < remaining.value ∧ remaining.value < r.amount.value) :=
          fun r hactive hless => hdecrease ⟨r, hactive, hless⟩
        obtain ⟨e, hrun⟩ := adjust_refused env hrefused
        rw [hrun]
        exact h
  | release env id reason =>
      refine amounts_releaseEach h [id] ?_
      change (reply _ ((releaseLocked env id reason).run w)).2.ledger = _
      rw [reply_snd, releaseLocked_finalState]
      rfl
  | releaseAllActive env reason =>
      refine amounts_releaseEach h (releasedIntents env reason w.ledger.active.keys) ?_
      change (reply _ ((releaseEach env w.ledger.active.keys reason).run w)).2.ledger = _
      rw [reply_snd]
      exact releaseEach_finalState _ _ _ _
  | expireDue env now =>
      refine amounts_releaseEach h (releasedIntents env "expired" (dueIntents w.ledger now)) ?_
      change (reply _ ((releaseEach env (dueIntents w.ledger now) "expired").run w)).2.ledger = _
      rw [reply_snd]
      exact releaseEach_finalState _ _ _ _

/-! ## Every run -/

/-- **Replaying reservations**: over every run from a fresh ledger, with the writer raising wherever
it may, the events determine the ledger in every state exactly when no call loses an event; the total
is always the sum of the active amounts, and not negative where no negative amount is reserved. -/
theorem reservations_replay_iff (machine : ModeStateMachine) (ops : List ReservationOp) :
    ((∀ t ∈ trace reservationStep (.fresh machine) ops, Determined t.post) ↔
        ∀ t ∈ trace reservationStep (.fresh machine) ops, ¬ LosesEvent t) ∧
      (∀ t ∈ trace reservationStep (.fresh machine) ops, t.post.ledger.totalReserved =
        ⟨(t.post.ledger.active.values.map fun r => r.amount.value).sum⟩) ∧
      ((∀ op ∈ ops, ReservesNonnegative op) →
        ∀ t ∈ trace reservationStep (.fresh machine) ops, 0 ≤ t.post.ledger.totalReserved.value) := by
  refine ⟨?_, fun t _ => rfl, fun hops t ht => ?_⟩
  · refine trace_shown_iff (B := fun w => replayReservations w.log = w.ledger) (fun w op hw => ?_)
      (fun w op hw hkept => ?_) rfl ops
    · obtain ⟨events, hlog, hrecorded, hlost⟩ := reservationStep_recorded w op
      have hreplay : replayReservations (reservationStep w op).2.log =
          events.foldl absorbReservation w.ledger := by
        rw [hlog, replayReservations, List.foldl_append]
        exact congrArg (events.foldl absorbReservation) hw
      unfold Determined
      rw [hreplay]
      refine ⟨fun hagree hloses => hlost hloses hagree, fun hkept => ?_⟩
      rw [hrecorded hkept]
      exact ⟨rfl, rfl, rfl, rfl⟩
    · obtain ⟨events, hlog, hrecorded, -⟩ := reservationStep_recorded w op
      rw [hlog, replayReservations, List.foldl_append, ← hrecorded hkept]
      exact congrArg (events.foldl absorbReservation) hw
  · refine totalReserved_nonneg (trace_post_of_guard (I := AmountsNonnegative)
      (G := fun t => ReservesNonnegative t.input) (fun w op hw hop => reservationStep_amounts hw hop)
      (fun id r hr => ?_) (fun u hu => ?_) t ht)
    · cases hr
    · obtain ⟨before, after, hsame, -⟩ := mem_trace.mp hu
      exact hops _ (hsame ▸ List.mem_append_right _ (.head _))

/-- **An unrecorded reservation**: the writer raises on the creation event, and the amount stays
reserved. -/
theorem unrecorded_reservation_stays :
    ¬ ∀ (machine : ModeStateMachine) (ops : List ReservationOp),
      ∀ t ∈ trace reservationStep (.fresh machine) ops, Determined t.post := by
  intro hall
  have hdetermined := hall sampleMachine
    [.reserve { KernelEnv.quiet with recordRaises := fun _ => true } "intent-0001" ⟨2000000⟩
      "idem-0001" 1700000060] _ (.head _)
  exact absurd (congrArg OrderedDict.keys hdetermined.active) (by decide)

end Windbreak
