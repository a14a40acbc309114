import Mathlib.Data.String.Basic
import Windbreak.Core.Effects
import Windbreak.Core.LargestRemainder
import Windbreak.Core.OrderedDict

/-!
# Group coherence

The outcomes of one group exclude each other, so their probabilities are normalised to what a
residual bucket leaves of the whole, by largest remainder.  A group whose raw votes stray from that
target is flagged and kept out of live trading.

* **`forecastGroup`** — validate, apportion, build a checked record for every outcome.
* **`forecastGroup_fair`** — what a validated group is given.
-/

namespace Windbreak

open LargestRemainder

/-- The key of the residual bucket. -/
def otherBucketKey : String := "__other__"

/-- One full probability. -/
def groupPpmScale : ℤ := 1000000

/-- What a group or a record is refused for. -/
inductive CoherenceError where
  | emptyVotes
  | negative (field : String) (value : ℤ)
  | otherBucketOutOfRange (value : ℤ)
  | reservedKey
  | voteNotPpm (key : String) (value : ℤ)
  | notPpm (field : String) (value : ℤ)
  | votesSumToNothing
  | emptyField (field : String)
  | flaggedYetEligible
  | keyError (key : String)
  deriving DecidableEq, Repr

/-- A probability in parts per million. -/
def IsPpm (value : ℤ) : Prop := 0 ≤ value ∧ value ≤ groupPpmScale

instance (value : ℤ) : Decidable (IsPpm value) :=
  inferInstanceAs (Decidable (0 ≤ value ∧ value ≤ groupPpmScale))

/-- One outcome's normalised probability, and the verdict on its group. -/
structure GroupCoherenceResult where
  outcomeKey : String
  rawProbabilityPpm : ℤ
  normalizedProbabilityPpm : ℤ
  coherenceGroupSumPpm : ℤ
  coherenceFlag : Bool
  eligibleForLive : Bool
  raw_ppm : IsPpm rawProbabilityPpm
  normalized_ppm : IsPpm normalizedProbabilityPpm
  named : outcomeKey ≠ ""
  sum_nonneg : 0 ≤ coherenceGroupSumPpm
  barred : ¬ (coherenceFlag = true ∧ eligibleForLive = true)

/-- Check a record's fields and build it. -/
def GroupCoherenceResult.init (outcomeKey : String) (rawPpm normalizedPpm groupSum : ℤ)
    (flag eligible : Bool) : Except CoherenceError GroupCoherenceResult :=
  if hraw : IsPpm rawPpm then
    if hnormalized : IsPpm normalizedPpm then
      if hnamed : outcomeKey ≠ "" then
        if hsum : 0 ≤ groupSum then
          if hbarred : ¬ (flag = true ∧ eligible = true) then
            .ok ⟨outcomeKey, rawPpm, normalizedPpm, groupSum, flag, eligible, hraw, hnormalized,
              hnamed, hsum, hbarred⟩
          else .error .flaggedYetEligible
        else .error (.negative "coherence_group_sum_ppm" groupSum)
      else .error (.emptyField "outcome_key")
    else .error (.notPpm "normalized_probability_ppm" normalizedPpm)
  else .error (.notPpm "raw_probability_ppm" rawPpm)

/-- The residual bucket is absent or short of the whole. -/
def validateOtherBucket (otherBucketPpm : Option ℤ) : Except CoherenceError Unit :=
  match otherBucketPpm with
  | none => .ok ()
  | some bucket =>
    if 0 ≤ bucket ∧ bucket < groupPpmScale then .ok ()
    else .error (.otherBucketOutOfRange bucket)

/-- Refuse the first vote that is no probability. -/
def validateVotes : List (String × ℤ) → Except CoherenceError Unit
  | [] => .ok ()
  | vote :: rest =>
    if IsPpm vote.2 then validateVotes rest else .error (.voteNotPpm vote.1 vote.2)

/-- Validate a group and add up its votes. -/
def validateGroupInputs (votesPpm : OrderedDict String ℤ) (tolerancePpm : ℤ)
    (otherBucketPpm : Option ℤ) : Except CoherenceError ℤ := do
  if votesPpm.items = [] then throw .emptyVotes
  if tolerancePpm < 0 then throw (.negative "tolerance_ppm" tolerancePpm)
  validateOtherBucket otherBucketPpm
  if otherBucketKey ∈ votesPpm.keys then throw .reservedKey
  validateVotes votesPpm.items
  if votesPpm.values.sum ≤ 0 then throw .votesSumToNothing
  return votesPpm.values.sum

/-- One more unit for a key. -/
def awardUnit (bases : OrderedDict String ℤ) (key : String) : OrderedDict String ℤ :=
  bases.set key ((bases.get? key).getD 0 + 1)

/-- Share a target out by largest remainder; ties go to the larger vote, then to the smaller key. -/
def hamiltonApportion (votesPpm : OrderedDict String ℤ) (target : ℤ) : OrderedDict String ℤ :=
  let rawSum := votesPpm.values.sum
  let bases := votesPpm.mapValues fun raw => raw * target / rawSum
  let deficit := target - bases.values.sum
  let order := (ranked rawSum target votesPpm.items).map Prod.fst
  (order.take deficit.toNat).foldl awardUnit bases

/-- The record of one outcome. -/
def coherenceResult (outcomeKey : String) (rawPpm normalizedPpm rawSum : ℤ) (coherent : Bool) :
    Except CoherenceError GroupCoherenceResult :=
  GroupCoherenceResult.init outcomeKey rawPpm normalizedPpm rawSum (!coherent) coherent

/-- The record of one vote, with its share. -/
def memberResult (normalized : OrderedDict String ℤ) (rawSum : ℤ) (coherent : Bool)
    (vote : String × ℤ) : Except CoherenceError GroupCoherenceResult :=
  match normalized.get? vote.1 with
  | some share => coherenceResult vote.1 vote.2 share rawSum coherent
  | none => .error (.keyError vote.1)

/-- The record of the residual bucket, where there is one. -/
def bucketResults (otherBucketPpm : Option ℤ) (rawSum : ℤ) (coherent : Bool) :
    Except CoherenceError (List GroupCoherenceResult) :=
  otherBucketPpm.toList.mapM fun bucket =>
    coherenceResult otherBucketKey bucket bucket rawSum coherent

/-- What the residual bucket leaves for the members. -/
def memberTarget (otherBucketPpm : Option ℤ) : ℤ := groupPpmScale - otherBucketPpm.getD 0

/-- Normalise a group and check its coherence. -/
def forecastGroup (votesPpm : OrderedDict String ℤ) (tolerancePpm : ℤ)
    (otherBucketPpm : Option ℤ) : Except CoherenceError (List GroupCoherenceResult) := do
  let rawSum ← validateGroupInputs votesPpm tolerancePpm otherBucketPpm
  let target := memberTarget otherBucketPpm
  let normalized := hamiltonApportion votesPpm target
  let coherent := decide (|rawSum - target| ≤ tolerancePpm)
  let members ← votesPpm.items.mapM (memberResult normalized rawSum coherent)
  let bucket ← bucketResults otherBucketPpm rawSum coherent
  return members ++ bucket

/-! ## The shares -/

theorem get?_foldl_awardUnit {keys : List String} (hnodup : keys.Nodup)
    {bases : OrderedDict String ℤ} {key : String} {value : ℤ} (h : bases.get? key = some value) :
    (keys.foldl awardUnit bases).get? key = some (value + if key ∈ keys then 1 else 0) := by
  induction keys generalizing bases value with
  | nil => simp [h]
  | cons first rest ih =>
      obtain ⟨hnew, hrest⟩ := List.nodup_cons.mp hnodup
      rw [List.foldl_cons]
      by_cases hfirst : key = first
      · subst hfirst
        have hraised : (awardUnit bases key).get? key = some (value + 1) := by
          rw [awardUnit, OrderedDict.get?_set_self, h]
          rfl
        rw [ih hrest hraised, if_neg hnew, if_pos List.mem_cons_self, Int.add_zero]
      · have hkept : (awardUnit bases first).get? key = some value := by
          rw [awardUnit, OrderedDict.get?_set, if_neg hfirst, h]
        rw [ih hrest hkept]
        simp only [List.mem_cons, hfirst, false_or]

theorem keys_foldl_awardUnit {keys : List String} {bases : OrderedDict String ℤ}
    (h : ∀ key ∈ keys, key ∈ bases.keys) : (keys.foldl awardUnit bases).keys = bases.keys := by
  induction keys generalizing bases with
  | nil => rfl
  | cons first rest ih =>
      have hkeys : (awardUnit bases first).keys = bases.keys :=
        OrderedDict.keys_set_of_mem _ (h first (.head _))
      rw [List.foldl_cons, ih fun key hkey => hkeys ▸ h key (.tail _ hkey), hkeys]

/-- **The code's shares are the largest-remainder shares**, under the votes' keys. -/
theorem hamiltonApportion_items (votesPpm : OrderedDict String ℤ) (target : ℤ) :
    (hamiltonApportion votesPpm target).items =
      votesPpm.items.map fun vote => (vote.1, share target votesPpm.items vote) := by
  have hleft : target - (votesPpm.mapValues fun raw =>
      raw * target / votesPpm.values.sum).values.sum = leftOver target votesPpm.items := by
    rw [leftOver, OrderedDict.values, OrderedDict.mapValues, List.map_map]
    rfl
  have hranked := (ranked_perm votesPpm.values.sum target votesPpm.items).map Prod.fst
  have hsub := List.take_sublist (leftOver target votesPpm.items).toNat
    ((ranked votesPpm.values.sum target votesPpm.items).map Prod.fst)
  refine OrderedDict.items_eq_of_keys ?_ fun vote hvote => ?_
  · rw [hamiltonApportion, hleft, keys_foldl_awardUnit]
    · simp [OrderedDict.keys, OrderedDict.mapValues]
    · intro key hkey
      have hin := hranked.mem_iff.mp (hsub.mem hkey)
      simpa [OrderedDict.keys, OrderedDict.mapValues] using hin
  · obtain ⟨raw, hraw, rfl⟩ := List.mem_map.mp hvote
    have hbase : (votesPpm.mapValues fun raw => raw * target / votesPpm.values.sum).get? raw.1 =
        some (raw.2 * target / votesPpm.values.sum) := by
      rw [OrderedDict.get?_mapValues, OrderedDict.mem_items_iff.mp hraw]
      rfl
    rw [hamiltonApportion, hleft, get?_foldl_awardUnit
      (hsub.nodup (hranked.nodup_iff.mpr votesPpm.nodup)) hbase, ← List.map_take]
    rfl

/-- The parts of the shares of a group in the order of its votes. -/
theorem hamiltonApportion_get? (target : ℤ) {votesPpm : OrderedDict String ℤ} {key : String}
    {raw : ℤ} (h : votesPpm.get? key = some raw) :
    (hamiltonApportion votesPpm target).get? key =
      some (share target votesPpm.items (key, raw)) := by
  rw [← OrderedDict.mem_items_iff, hamiltonApportion_items]
  exact List.mem_map.mpr ⟨(key, raw), OrderedDict.mem_items_iff.mpr h, rfl⟩

theorem hamiltonApportion_keys (votesPpm : OrderedDict String ℤ) (target : ℤ) :
    (hamiltonApportion votesPpm target).keys = votesPpm.keys := by
  rw [OrderedDict.keys, hamiltonApportion_items, List.map_map]
  rfl

/-- The shares of a group do not depend on the order of its votes. -/
theorem hamiltonApportion_perm {votesPpm others : OrderedDict String ℤ}
    (h : others.items.Perm votesPpm.items) (target : ℤ) :
    (hamiltonApportion others target).items.Perm (hamiltonApportion votesPpm target).items := by
  rw [hamiltonApportion_items, hamiltonApportion_items, share_perm h]
  exact h.map _

/-- What largest remainder owes to every vote of a group. -/
structure FairApportionment (votesPpm shares : OrderedDict String ℤ) (target : ℤ) : Prop where
  keys : shares.keys = votesPpm.keys
  sum : shares.values.sum = target
  quota : ∀ key raw part, votesPpm.get? key = some raw → shares.get? key = some part →
    |part * votesPpm.values.sum - raw * target| < votesPpm.values.sum
  mono : ∀ key key' raw raw' part part', votesPpm.get? key = some raw →
    votesPpm.get? key' = some raw' → shares.get? key = some part → shares.get? key' = some part' →
      raw' < raw → part' ≤ part
  zero : ∀ key, votesPpm.get? key = some 0 → shares.get? key = some 0

theorem hamiltonApportion_fair {votesPpm : OrderedDict String ℤ} {target : ℤ}
    (hsum : 0 < votesPpm.values.sum) (htarget : 0 < target) :
    FairApportionment votesPpm (hamiltonApportion votesPpm target) target where
  keys := hamiltonApportion_keys votesPpm target
  sum := by
    rw [OrderedDict.values, hamiltonApportion_items, List.map_map]
    exact sum_share hsum votesPpm.nodup
  quota key raw part hraw hpart := by
    rw [hamiltonApportion_get? target hraw] at hpart
    cases hpart
    exact share_near_quota hsum votesPpm.nodup (OrderedDict.mem_items_iff.mpr hraw)
  mono key key' raw raw' part part' hraw hraw' hpart hpart' hless := by
    rw [hamiltonApportion_get? target hraw] at hpart
    rw [hamiltonApportion_get? target hraw'] at hpart'
    cases hpart
    cases hpart'
    exact share_mono hsum votesPpm.nodup htarget (OrderedDict.mem_items_iff.mpr hraw)
      (OrderedDict.mem_items_iff.mpr hraw') hless
  zero key hraw := by
    rw [hamiltonApportion_get? target hraw,
      share_of_zero hsum votesPpm.nodup (OrderedDict.mem_items_iff.mpr hraw) rfl]

/-- Votes that already make up the target are their own shares. -/
theorem hamiltonApportion_of_sum_eq {votesPpm : OrderedDict String ℤ} {target : ℤ}
    (hsum : votesPpm.values.sum = target) (htarget : 0 < target) :
    hamiltonApportion votesPpm target = votesPpm := by
  have hwhole : 0 < total votesPpm.items := lt_of_lt_of_eq htarget hsum.symm
  refine OrderedDict.ext ?_
  rw [hamiltonApportion_items]
  refine (List.map_congr_left fun vote hvote => ?_).trans (List.map_id _)
  exact Prod.ext rfl (share_of_total_eq hwhole votesPpm.nodup hvote hsum)

/-- Every share is a probability. -/
theorem hamiltonApportion_ppm {votesPpm : OrderedDict String ℤ} {target : ℤ}
    (hvotes : ∀ vote ∈ votesPpm.items, IsPpm vote.2) (hsum : 0 < votesPpm.values.sum)
    (htarget : 0 < target) (hscale : target ≤ groupPpmScale) {vote : String × ℤ}
    (hvote : vote ∈ (hamiltonApportion votesPpm target).items) : IsPpm vote.2 := by
  rw [hamiltonApportion_items] at hvote
  have hall : ∀ part ∈ votesPpm.items.map (share target votesPpm.items), 0 ≤ part := by
    intro part hpart
    obtain ⟨raw, hraw, rfl⟩ := List.mem_map.mp hpart
    exact share_nonneg hsum htarget.le (hvotes raw hraw).1
  obtain ⟨raw, hraw, rfl⟩ := List.mem_map.mp hvote
  have hmem := List.mem_map_of_mem (f := share target votesPpm.items) hraw
  have hwhole : (votesPpm.items.map (share target votesPpm.items)).sum = target :=
    sum_share hsum votesPpm.nodup
  exact ⟨hall _ hmem, (List.single_le_sum hall _ hmem).trans (hwhole.trans_le hscale)⟩

/-! ## Validated groups -/

theorem validateOtherBucket_ok_iff {otherBucketPpm : Option ℤ} :
    validateOtherBucket otherBucketPpm = .ok () ↔
      ∀ bucket ∈ otherBucketPpm, 0 ≤ bucket ∧ bucket < groupPpmScale := by
  cases otherBucketPpm with
  | none => simp [validateOtherBucket]
  | some bucket =>
      rw [validateOtherBucket]
      split <;> simp_all

theorem validateVotes_ok_iff {votes : List (String × ℤ)} :
    validateVotes votes = .ok () ↔ ∀ vote ∈ votes, IsPpm vote.2 := by
  induction votes with
  | nil => simp [validateVotes]
  | cons vote rest ih =>
      rw [validateVotes, List.forall_mem_cons]
      by_cases hppm : IsPpm vote.2
      · rw [if_pos hppm, ih]
        exact (and_iff_right hppm).symm
      · rw [if_neg hppm]
        exact iff_of_false (fun h => by cases h) fun h => hppm h.1

/-- What validation asks of a group. -/
structure ValidGroup (votesPpm : OrderedDict String ℤ) (tolerancePpm : ℤ)
    (otherBucketPpm : Option ℤ) : Prop where
  nonempty : votesPpm.items ≠ []
  tolerance : 0 ≤ tolerancePpm
  bucket : ∀ bucket ∈ otherBucketPpm, 0 ≤ bucket ∧ bucket < groupPpmScale
  unreserved : otherBucketKey ∉ votesPpm.keys
  votes : ∀ vote ∈ votesPpm.items, IsPpm vote.2
  sum : 0 < votesPpm.values.sum

/-- **Validation** passes exactly such groups, and answers the sum of the votes. -/
theorem validateGroupInputs_ok_iff {votesPpm : OrderedDict String ℤ} {tolerancePpm rawSum : ℤ}
    {otherBucketPpm : Option ℤ} :
    validateGroupInputs votesPpm tolerancePpm otherBucketPpm = .ok rawSum ↔
      ValidGroup votesPpm tolerancePpm otherBucketPpm ∧ rawSum = votesPpm.values.sum := by
  rw [validateGroupInputs]
  constructor
  · intro h
    by_cases hempty : votesPpm.items = []
    · rw [if_pos hempty] at h
      cases h
    rw [if_neg hempty] at h
    by_cases htolerance : tolerancePpm < 0
    · rw [if_pos htolerance] at h
      cases h
    rw [if_neg htolerance] at h
    obtain ⟨⟨⟩, hbucket, h⟩ := Effects.except_bind_ok.mp h
    by_cases hreserved : otherBucketKey ∈ votesPpm.keys
    · rw [if_pos hreserved] at h
      cases h
    rw [if_neg hreserved] at h
    obtain ⟨⟨⟩, hvotes, h⟩ := Effects.except_bind_ok.mp h
    by_cases hsum : votesPpm.values.sum ≤ 0
    · rw [if_pos hsum] at h
      cases h
    rw [if_neg hsum] at h
    cases h
    exact ⟨⟨hempty, not_lt.mp htolerance, validateOtherBucket_ok_iff.mp hbucket, hreserved,
      validateVotes_ok_iff.mp hvotes, not_le.mp hsum⟩, rfl⟩
  · rintro ⟨h, rfl⟩
    rw [if_neg h.nonempty, if_neg h.tolerance.not_gt, validateOtherBucket_ok_iff.mpr h.bucket,
      if_neg h.unreserved, validateVotes_ok_iff.mpr h.votes, if_neg h.sum.not_ge]
    rfl

theorem ValidGroup.target {votesPpm : OrderedDict String ℤ} {tolerancePpm : ℤ}
    {otherBucketPpm : Option ℤ} (h : ValidGroup votesPpm tolerancePpm otherBucketPpm) :
    0 < memberTarget otherBucketPpm ∧ memberTarget otherBucketPpm ≤ groupPpmScale := by
  cases hbucket : otherBucketPpm with
  | none => decide
  | some bucket =>
      have hrange := h.bucket bucket hbucket
      simp only [memberTarget, Option.getD_some]
      omega

/-- Another order of the votes is as valid. -/
theorem ValidGroup.perm {votesPpm others : OrderedDict String ℤ} {tolerancePpm : ℤ}
    {otherBucketPpm : Option ℤ} (h : ValidGroup votesPpm tolerancePpm otherBucketPpm)
    (hperm : others.items.Perm votesPpm.items) : ValidGroup others tolerancePpm otherBucketPpm where
  nonempty hempty := h.nonempty (hempty ▸ hperm).nil_eq.symm
  tolerance := h.tolerance
  bucket := h.bucket
  unreserved := fun hin => h.unreserved ((hperm.map Prod.fst).mem_iff.mp hin)
  votes := fun vote hvote => h.votes vote (hperm.mem_iff.mp hvote)
  sum := (hperm.map Prod.snd).sum_eq.symm ▸ h.sum

/-- The shares of a valid group are a valid group. -/
theorem ValidGroup.shares {votesPpm : OrderedDict String ℤ} {tolerancePpm : ℤ}
    {otherBucketPpm : Option ℤ} (h : ValidGroup votesPpm tolerancePpm otherBucketPpm)
    {tolerance' : ℤ} (htolerance : 0 ≤ tolerance') :
    ValidGroup (hamiltonApportion votesPpm (memberTarget otherBucketPpm)) tolerance'
      otherBucketPpm where
  nonempty hempty := by
    rw [hamiltonApportion_items, List.map_eq_nil_iff] at hempty
    exact h.nonempty hempty
  tolerance := htolerance
  bucket := h.bucket
  unreserved := by
    rw [hamiltonApportion_keys]
    exact h.unreserved
  votes := fun _ => hamiltonApportion_ppm h.votes h.sum h.target.1 h.target.2
  sum := by
    rw [(hamiltonApportion_fair h.sum h.target.1).sum]
    exact h.target.1

/-! ## The records -/

/-- What a record publishes: its key and its share. -/
def publishedShares (results : List GroupCoherenceResult) : List (String × ℤ) :=
  results.map fun result => (result.outcomeKey, result.normalizedProbabilityPpm)

/-- A record carries what it was built from. -/
theorem coherenceResult_ok {outcomeKey : String} {rawPpm normalizedPpm rawSum : ℤ} {coherent : Bool}
    {result : GroupCoherenceResult}
    (h : coherenceResult outcomeKey rawPpm normalizedPpm rawSum coherent = .ok result) :
    result.outcomeKey = outcomeKey ∧ result.normalizedProbabilityPpm = normalizedPpm ∧
      result.coherenceFlag = !coherent := by
  rw [coherenceResult, GroupCoherenceResult.init] at h
  split at h
  · split at h
    · split at h
      · split at h
        · split at h
          · cases h
            exact ⟨rfl, rfl, rfl⟩
          · cases h
        · cases h
      · cases h
    · cases h
  · cases h

/-- A record of probabilities under a name is built. -/
theorem exists_coherenceResult {outcomeKey : String} {rawPpm normalizedPpm rawSum : ℤ}
    (coherent : Bool) (hraw : IsPpm rawPpm) (hnormalized : IsPpm normalizedPpm)
    (hnamed : outcomeKey ≠ "") (hsum : 0 ≤ rawSum) :
    ∃ result, coherenceResult outcomeKey rawPpm normalizedPpm rawSum coherent = .ok result := by
  have hbarred : ¬ ((!coherent) = true ∧ coherent = true) := by cases coherent <;> decide
  rw [coherenceResult, GroupCoherenceResult.init, dif_pos hraw, dif_pos hnormalized, dif_pos hnamed,
    dif_pos hsum, dif_pos hbarred]
  exact ⟨_, rfl⟩

/-- A record without a name is not. -/
theorem coherenceResult_of_unnamed {rawPpm normalizedPpm : ℤ} (rawSum : ℤ) (coherent : Bool)
    (hraw : IsPpm rawPpm) (hnormalized : IsPpm normalizedPpm) :
    coherenceResult "" rawPpm normalizedPpm rawSum coherent =
      .error (.emptyField "outcome_key") := by
  rw [coherenceResult, GroupCoherenceResult.init, dif_pos hraw, dif_pos hnormalized,
    dif_neg (not_not.mpr rfl)]

/-- Records built vote by vote publish share by share. -/
theorem exists_records {record : String × ℤ → Except CoherenceError GroupCoherenceResult}
    {part : String × ℤ → ℤ} {coherent : Bool} {votes : List (String × ℤ)}
    (h : ∀ vote ∈ votes, ∃ result, record vote = .ok result ∧ result.outcomeKey = vote.1 ∧
      result.normalizedProbabilityPpm = part vote ∧ result.coherenceFlag = !coherent) :
    ∃ results, List.Forall₂ (fun vote result => record vote = .ok result) votes results ∧
      publishedShares results = votes.map (fun vote => (vote.1, part vote)) ∧
        ∀ result ∈ results, result.coherenceFlag = !coherent := by
  induction votes with
  | nil => exact ⟨[], .nil, rfl, fun _ hresult => absurd hresult List.not_mem_nil⟩
  | cons vote rest ih =>
      obtain ⟨result, hresult, hkey, hpart, hflag⟩ := h vote (.head _)
      obtain ⟨results, hresults, hshares, hflags⟩ := ih fun other hother => h other (.tail _ hother)
      refine ⟨result :: results, .cons hresult hresults, ?_, ?_⟩
      · rw [publishedShares, List.map_cons, hkey, hpart, List.map_cons]
        exact congrArg _ hshares
      · exact List.forall_mem_cons.mpr ⟨hflag, hflags⟩

/-- The first vote without a name ends the building of records. -/
theorem mapM_of_unnamed {record : String × ℤ → Except CoherenceError GroupCoherenceResult}
    {error : CoherenceError} {votes : List (String × ℤ)}
    (hnamed : ∀ vote ∈ votes, vote.1 ≠ "" → ∃ result, record vote = .ok result)
    (hunnamed : ∀ vote ∈ votes, vote.1 = "" → record vote = .error error)
    (h : "" ∈ votes.map Prod.fst) : votes.mapM record = .error error := by
  induction votes with
  | nil => exact absurd h List.not_mem_nil
  | cons vote rest ih =>
      rw [List.mapM_cons]
      by_cases hfirst : vote.1 = ""
      · rw [hunnamed vote (.head _) hfirst]
        rfl
      · obtain ⟨result, hresult⟩ := hnamed vote (.head _) hfirst
        have hlater : "" ∈ rest.map Prod.fst :=
          (List.mem_cons.mp h).resolve_left fun heq => hfirst heq.symm
        rw [hresult, ih (fun other hother => hnamed other (.tail _ hother))
          (fun other hother => hunnamed other (.tail _ hother)) hlater]
        rfl

section Results

variable {votesPpm : OrderedDict String ℤ} {tolerancePpm : ℤ} {otherBucketPpm : Option ℤ}

/-- The record that a vote of a group gets. -/
def groupRecord (votesPpm : OrderedDict String ℤ) (otherBucketPpm : Option ℤ) (coherent : Bool) :
    String × ℤ → Except CoherenceError GroupCoherenceResult :=
  memberResult (hamiltonApportion votesPpm (memberTarget otherBucketPpm)) votesPpm.values.sum
    coherent

variable (hvalid : ValidGroup votesPpm tolerancePpm otherBucketPpm)

include hvalid

/-- A group is published record by record, and the bucket after it. -/
theorem ValidGroup.forecastGroup_eq :
    forecastGroup votesPpm tolerancePpm otherBucketPpm = (do
      let members ← votesPpm.items.mapM (groupRecord votesPpm otherBucketPpm
        (decide (|votesPpm.values.sum - memberTarget otherBucketPpm| ≤ tolerancePpm)))
      let bucket ← bucketResults otherBucketPpm votesPpm.values.sum
        (decide (|votesPpm.values.sum - memberTarget otherBucketPpm| ≤ tolerancePpm))
      return members ++ bucket) := by
  rw [forecastGroup, validateGroupInputs_ok_iff.mpr ⟨hvalid, rfl⟩]
  rfl

/-- The record of a vote is built of the vote and its share, both probabilities. -/
theorem ValidGroup.groupRecord_eq {vote : String × ℤ} (hvote : vote ∈ votesPpm.items)
    (coherent : Bool) :
    IsPpm (share (memberTarget otherBucketPpm) votesPpm.items vote) ∧
      groupRecord votesPpm otherBucketPpm coherent vote =
        coherenceResult vote.1 vote.2 (share (memberTarget otherBucketPpm) votesPpm.items vote)
          votesPpm.values.sum coherent := by
  have hpart := hamiltonApportion_get? (memberTarget otherBucketPpm)
    (OrderedDict.mem_items_iff.mp hvote)
  refine ⟨hamiltonApportion_ppm hvalid.votes hvalid.sum hvalid.target.1 hvalid.target.2
    (OrderedDict.mem_items_iff.mpr hpart), ?_⟩
  rw [groupRecord, memberResult, hpart]

theorem ValidGroup.exists_record {vote : String × ℤ} (hvote : vote ∈ votesPpm.items)
    (hnamed : vote.1 ≠ "") (coherent : Bool) :
    ∃ result, groupRecord votesPpm otherBucketPpm coherent vote = .ok result ∧
      result.outcomeKey = vote.1 ∧
      result.normalizedProbabilityPpm =
        share (memberTarget otherBucketPpm) votesPpm.items vote ∧
      result.coherenceFlag = !coherent := by
  obtain ⟨hppm, heq⟩ := hvalid.groupRecord_eq hvote coherent
  obtain ⟨result, hresult⟩ := exists_coherenceResult coherent (hvalid.votes vote hvote) hppm hnamed
    hvalid.sum.le
  exact ⟨result, heq.trans hresult, coherenceResult_ok hresult⟩

/-- The record of the bucket is always built. -/
theorem ValidGroup.exists_bucket (coherent : Bool) :
    ∃ bucket, bucketResults otherBucketPpm votesPpm.values.sum coherent = .ok bucket ∧
      publishedShares bucket = otherBucketPpm.toList.map (fun ppm => (otherBucketKey, ppm)) ∧
        ∀ result ∈ bucket, result.coherenceFlag = !coherent := by
  cases hbucket : otherBucketPpm with
  | none => exact ⟨[], rfl, rfl, fun _ hresult => absurd hresult List.not_mem_nil⟩
  | some ppm =>
      have hrange := hvalid.bucket ppm hbucket
      have hnamed : otherBucketKey ≠ "" := by decide
      obtain ⟨result, hresult⟩ := exists_coherenceResult coherent
        ⟨hrange.1, hrange.2.le⟩ ⟨hrange.1, hrange.2.le⟩ hnamed hvalid.sum.le
      obtain ⟨hkey, hpart, hflag⟩ := coherenceResult_ok hresult
      refine ⟨[result], ?_, ?_, ?_⟩
      · rw [bucketResults, Option.toList_some, List.mapM_cons, hresult]
        rfl
      · rw [publishedShares, List.map_cons, hkey, hpart]
        rfl
      · exact List.forall_mem_singleton.mpr hflag

/-- **A valid group of named outcomes is published**: the shares under their names, and the
bucket. -/
theorem ValidGroup.exists_results (hnamed : "" ∉ votesPpm.keys) :
    ∃ members bucket, forecastGroup votesPpm tolerancePpm otherBucketPpm =
        .ok (members ++ bucket) ∧
      List.Forall₂ (fun vote result => groupRecord votesPpm otherBucketPpm
        (decide (|votesPpm.values.sum - memberTarget otherBucketPpm| ≤ tolerancePpm)) vote =
          .ok result) votesPpm.items members ∧
      publishedShares (members ++ bucket) =
        (hamiltonApportion votesPpm (memberTarget otherBucketPpm)).items ++
          otherBucketPpm.toList.map (fun ppm => (otherBucketKey, ppm)) ∧
      ∀ result ∈ members ++ bucket, result.coherenceFlag =
        !decide (|votesPpm.values.sum - memberTarget otherBucketPpm| ≤ tolerancePpm) := by
  obtain ⟨members, hmembers, hshares, hflags⟩ := exists_records fun vote hvote =>
    hvalid.exists_record hvote (fun hempty => hnamed (hempty ▸ List.mem_map_of_mem hvote))
      (decide (|votesPpm.values.sum - memberTarget otherBucketPpm| ≤ tolerancePpm))
  obtain ⟨bucket, hbucket, hpart, hflag⟩ := hvalid.exists_bucket
    (decide (|votesPpm.values.sum - memberTarget otherBucketPpm| ≤ tolerancePpm))
  refine ⟨members, bucket, ?_, hmembers, ?_, ?_⟩
  · rw [hvalid.forecastGroup_eq, Effects.except_mapM_of_forall₂ hmembers, hbucket]
    rfl
  · rw [publishedShares, List.map_append, hamiltonApportion_items, ← hshares, ← hpart]
    rfl
  · exact List.forall_mem_append.mpr ⟨hflags, hflag⟩

end Results

/-- A group in another order of its votes gets the same records, in that order. -/
theorem forecastGroup_perm {votesPpm others : OrderedDict String ℤ} {tolerancePpm : ℤ}
    {otherBucketPpm : Option ℤ} (hvalid : ValidGroup votesPpm tolerancePpm otherBucketPpm)
    (hperm : others.items.Perm votesPpm.items) {members bucket : List GroupCoherenceResult}
    (hgroup : forecastGroup votesPpm tolerancePpm otherBucketPpm = .ok (members ++ bucket))
    (hmembers : List.Forall₂ (fun vote result => groupRecord votesPpm otherBucketPpm
      (decide (|votesPpm.values.sum - memberTarget otherBucketPpm| ≤ tolerancePpm)) vote =
        .ok result) votesPpm.items members) :
    ∃ results, forecastGroup others tolerancePpm otherBucketPpm = .ok results ∧
      results.Perm (members ++ bucket) := by
  have hsum : others.values.sum = votesPpm.values.sum := (hperm.map Prod.snd).sum_eq
  have hrecord : groupRecord others otherBucketPpm = groupRecord votesPpm otherBucketPpm := by
    funext coherent vote
    rw [groupRecord, groupRecord, memberResult, memberResult, hsum,
      OrderedDict.get?_eq_of_perm (hamiltonApportion_perm hperm _)]
  rw [hvalid.forecastGroup_eq, Effects.except_mapM_of_forall₂ hmembers] at hgroup
  obtain ⟨members₀, hfirst, hgroup⟩ := Effects.except_bind_ok.mp hgroup
  cases hfirst
  obtain ⟨bucket', hbucket, hresults⟩ := Effects.except_bind_ok.mp hgroup
  have hsame := List.append_cancel_left (Except.ok.inj hresults)
  obtain ⟨members', hmembers', hshuffled⟩ := List.perm_comp_forall₂ hperm hmembers
  refine ⟨members' ++ bucket, ?_, hshuffled.append_right bucket⟩
  rw [(hvalid.perm hperm).forecastGroup_eq, hrecord, hsum,
    Effects.except_mapM_of_forall₂ hmembers', ← hsame]
  exact Effects.except_bind_ok.mpr
    ⟨members', rfl, Effects.except_bind_ok.mpr ⟨bucket', hbucket, rfl⟩⟩

/-- **A validated group is shared out fairly**, unless an outcome has the empty name, which no
record takes.  Its shares make up the target, each within one part per million of its quota and in
the order of the votes, whatever order the votes come in, and they are their own shares. -/
theorem forecastGroup_fair {votesPpm : OrderedDict String ℤ} {tolerancePpm rawSum : ℤ}
    {otherBucketPpm : Option ℤ}
    (h : validateGroupInputs votesPpm tolerancePpm otherBucketPpm = .ok rawSum) :
    ("" ∈ votesPpm.keys → forecastGroup votesPpm tolerancePpm otherBucketPpm =
        .error (.emptyField "outcome_key")) ∧
      ("" ∉ votesPpm.keys → ∃ results shares,
        forecastGroup votesPpm tolerancePpm otherBucketPpm = .ok results ∧
        publishedShares results = shares.items ++
          otherBucketPpm.toList.map (fun ppm => (otherBucketKey, ppm)) ∧
        FairApportionment votesPpm shares (groupPpmScale - otherBucketPpm.getD 0) ∧
        (∀ others : OrderedDict String ℤ, others.items.Perm votesPpm.items →
          ∃ results', forecastGroup others tolerancePpm otherBucketPpm = .ok results' ∧
            results'.Perm results) ∧
        ∀ tolerance', 0 ≤ tolerance' → ∃ again,
          forecastGroup shares tolerance' otherBucketPpm = .ok again ∧
            publishedShares again = publishedShares results ∧
              ∀ result ∈ again, result.coherenceFlag = false) := by
  obtain ⟨hvalid, -⟩ := validateGroupInputs_ok_iff.mp h
  constructor
  · intro hunnamed
    rw [hvalid.forecastGroup_eq, mapM_of_unnamed (fun vote hvote hname => ?_)
      (fun vote hvote hname => ?_) hunnamed]
    · rfl
    · obtain ⟨result, hresult, -⟩ := hvalid.exists_record hvote hname _
      exact ⟨result, hresult⟩
    · obtain ⟨hppm, heq⟩ := hvalid.groupRecord_eq hvote _
      rw [heq, hname]
      exact coherenceResult_of_unnamed _ _ (hvalid.votes vote hvote) hppm
  · intro hnamed
    obtain ⟨members, bucket, hgroup, hmembers, hshares, -⟩ := hvalid.exists_results hnamed
    have hfair := hamiltonApportion_fair hvalid.sum hvalid.target.1
    refine ⟨members ++ bucket, hamiltonApportion votesPpm (memberTarget otherBucketPpm), hgroup,
      hshares, hfair, fun others hperm => forecastGroup_perm hvalid hperm hgroup hmembers,
      fun tolerance' htolerance => ?_⟩
    have hnamed' : "" ∉ (hamiltonApportion votesPpm (memberTarget otherBucketPpm)).keys :=
      hfair.keys ▸ hnamed
    obtain ⟨members', bucket', hgroup', -, hshares', hflags⟩ :=
      (hvalid.shares htolerance).exists_results hnamed'
    rw [hamiltonApportion_of_sum_eq hfair.sum hvalid.target.1] at hshares'
    refine ⟨members' ++ bucket', hgroup', hshares'.trans hshares.symm, fun result hresult => ?_⟩
    rw [hflags result hresult, hfair.sum]
    simpa using htolerance

/-- Three outcomes that overlap, and a bucket. -/
def overlappingVotes : OrderedDict String ℤ :=
  ⟨[("low", 600000), ("mid", 600000), ("high", 300000)], by decide⟩

theorem overlappingVotes_valid :
    validateGroupInputs overlappingVotes 100000 (some 50000) = .ok 1500000 := by decide +kernel

theorem forecastGroup_fair_overlapping :
    "" ∉ overlappingVotes.keys ∧ ∃ results, ∃ shares : OrderedDict String ℤ,
      forecastGroup overlappingVotes 100000 (some 50000) = .ok results ∧
        publishedShares results = shares.items ++ [("__other__", 50000)] ∧
          FairApportionment overlappingVotes shares 950000 := by
  have hnamed : "" ∉ overlappingVotes.keys := by decide
  obtain ⟨results, shares, hresults, hshares, hfair, -⟩ :=
    (forecastGroup_fair overlappingVotes_valid).2 hnamed
  exact ⟨hnamed, results, shares, hresults, hshares, hfair⟩

/-- An outcome with the empty name. -/
def unnamedVote : OrderedDict String ℤ := ⟨[("", 400000)], by simp⟩

/-- The empty name passes validation, and its record is refused. -/
theorem unnamed_outcome_raises :
    validateGroupInputs unnamedVote 0 none = .ok 400000 ∧
      ∀ results, forecastGroup unnamedVote 0 none ≠ .ok results := by
  refine ⟨by decide +kernel, fun results h => ?_⟩
  have hraises : (forecastGroup unnamedVote 0 none).toBool = false := by decide +kernel
  rw [h] at hraises
  cases hraises

end Windbreak
