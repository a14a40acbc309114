import Mathlib.Data.List.DropRight
import Mathlib.Data.List.Nodup
import Windbreak.Core.Sums
import Windbreak.Scheduler.LedgerReads

/-!
# When the bounded reads give the whole ledger's figures
-/

namespace Windbreak

variable {store : ReadStore} {nowEpochS : ℤ}

/-! ## The sum and the count

Neither walk stops, and neither fold depends on the order of the rows.
-/

theorem notionalStep_comm (today total : ℤ) (a b : ReadRow) :
    (notionalStep today total a >>= fun t => notionalStep today t b)
      = (notionalStep today total b >>= fun t => notionalStep today t a) := by
  cases ha : a.fillUtcDay with
  | none => cases hb : b.fillUtcDay <;> simp [notionalStep, ha, hb]
  | some dayA =>
    cases hb : b.fillUtcDay with
    | none => simp [notionalStep, ha, hb]
    | some dayB =>
      simp only [notionalStep, ha, hb, Option.bind_eq_bind, Option.bind_some, Option.some.injEq]
      split_ifs <;> omega

theorem ordersStep_comm (cutoffEpochS routed : ℤ) (a b : ReadRow) :
    (ordersStep cutoffEpochS routed a >>= fun t => ordersStep cutoffEpochS t b)
      = (ordersStep cutoffEpochS routed b >>= fun t => ordersStep cutoffEpochS t a) := by
  unfold ordersStep
  cases a.isOrderRouting <;> cases b.isOrderRouting <;> cases a.recordEpochS <;>
    cases b.recordEpochS <;> simp
  split_ifs <;> omega

theorem fillRows_reverse_perm (rows : List ReadRow) :
    (fillRows rows.reverse).Perm (fillRows rows) :=
  (List.reverse_perm rows).filter _

theorem transitionRows_reverse_perm (rows : List ReadRow) :
    (transitionRows rows.reverse).Perm (transitionRows rows) :=
  (List.reverse_perm rows).filter _

theorem readNotionalToday_eq (store : ReadStore) (nowEpochS : ℤ) :
    readNotionalToday store nowEpochS = notionalTodayMicros store.rows nowEpochS := by
  rw [readNotionalToday]
  split
  · exact BoundedWalks.foldlM_perm (notionalStep_comm _) (fillRows_reverse_perm store.rows) 0
  · rfl

theorem readOrdersLastHour_eq (store : ReadStore) (nowEpochS : ℤ) :
    readOrdersLastHour store nowEpochS = ordersLastHourCount store.rows nowEpochS := by
  rw [readOrdersLastHour]
  split
  · exact BoundedWalks.foldlM_perm (ordersStep_comm _) (transitionRows_reverse_perm store.rows) 0
  · rfl

/-! ## The curve

A cursor *covers* some samples when it holds their highest equity, the equity of their newest and
the position of that one.
-/

/-- What a cursor remembers of the samples it has read. -/
inductive Covers (samples : List EquitySample) : EquityCurveCursor → Prop
  | cold (hnone : samples = []) : Covers samples .cold
  | warm (newest highest : EquitySample) (hnewest : newest ∈ samples) (hhighest : highest ∈ samples)
      (hupto : ∀ s ∈ samples, s.sequenceNumber ≤ newest.sequenceNumber)
      (hpeak : ∀ s ∈ samples, s.equityMicros ≤ highest.equityMicros) :
      Covers samples
        ⟨some ⟨highest.equityMicros, newest.equityMicros⟩, newest.sequenceNumber⟩

/-- Only which samples there are matters. -/
theorem Covers.congr {xs ys : List EquitySample} {cursor : EquityCurveCursor}
    (h : Covers xs cursor) (hmem : ∀ s, s ∈ xs ↔ s ∈ ys) : Covers ys cursor := by
  cases h with
  | cold hnone =>
    refine .cold (List.eq_nil_iff_forall_not_mem.mpr fun s hs => ?_)
    rw [← hmem, hnone] at hs
    exact List.not_mem_nil hs
  | warm newest highest hnewest hhighest hupto hpeak =>
    exact .warm newest highest ((hmem _).mp hnewest) ((hmem _).mp hhighest)
      (fun s hs => hupto s ((hmem s).mpr hs)) fun s hs => hpeak s ((hmem s).mpr hs)

/-- One sample more. -/
theorem Covers.step {xs : List EquitySample} {cursor : EquityCurveCursor} (h : Covers xs cursor)
    (sample : EquitySample) : Covers (xs ++ [sample]) (curveStep cursor sample) := by
  cases h with
  | cold hnone =>
    subst hnone
    exact .warm sample sample (by simp) (by simp) (by simp) (by simp)
  | warm newest highest hnewest hhighest hupto hpeak =>
    have hmax : ∃ top ∈ xs ++ [sample],
        top.equityMicros = max highest.equityMicros sample.equityMicros ∧
          ∀ s ∈ xs ++ [sample], s.equityMicros ≤ top.equityMicros := by
      rcases le_total highest.equityMicros sample.equityMicros with hle | hle
      · refine ⟨sample, by simp, (max_eq_right hle).symm, fun s hs => ?_⟩
        rcases List.mem_append.mp hs with hs | hs
        · exact (hpeak s hs).trans hle
        · rw [List.mem_singleton.mp hs]
      · refine ⟨highest, by simp [hhighest], (max_eq_left hle).symm, fun s hs => ?_⟩
        rcases List.mem_append.mp hs with hs | hs
        · exact hpeak s hs
        · rwa [List.mem_singleton.mp hs]
    obtain ⟨top, htop, heq, hle⟩ := hmax
    by_cases hlater : newest.sequenceNumber < sample.sequenceNumber
    · simp only [curveStep, hlater, if_true, ← heq]
      refine .warm sample top (by simp) htop (fun s hs => ?_) hle
      rcases List.mem_append.mp hs with hs | hs
      · exact (hupto s hs).trans hlater.le
      · rw [List.mem_singleton.mp hs]
    · simp only [curveStep, hlater, if_false, ← heq]
      refine .warm newest top (by simp [hnewest]) htop (fun s hs => ?_) hle
      rcases List.mem_append.mp hs with hs | hs
      · exact hupto s hs
      · rw [List.mem_singleton.mp hs]
        exact not_lt.mp hlater

theorem Covers.fold {xs : List EquitySample} {cursor : EquityCurveCursor} (h : Covers xs cursor)
    (ys : List EquitySample) : Covers (xs ++ ys) (foldEquityCurve ys cursor) := by
  induction ys generalizing xs cursor with
  | nil => rwa [List.append_nil]
  | cons y ys ih =>
    rw [List.append_cons]
    exact ih (h.step y)

/-- Where no two samples stand at one position, what a cursor covers determines its curve. -/
theorem Covers.curve_eq {xs : List EquitySample} {c d : EquityCurveCursor} (hc : Covers xs c)
    (hd : Covers xs d)
    (hinj : ∀ s ∈ xs, ∀ t ∈ xs, s.sequenceNumber = t.sequenceNumber → s = t) :
    c.curve = d.curve := by
  cases hc with
  | cold hnone =>
    cases hd with
    | cold => rfl
    | warm newest _ hnewest => exact absurd hnewest (hnone ▸ List.not_mem_nil)
  | warm newest highest hnewest hhighest hupto hpeak =>
    cases hd with
    | cold hnone => exact absurd hnewest (hnone ▸ List.not_mem_nil)
    | warm newest' highest' hnewest' hhighest' hupto' hpeak' =>
      have hsame : newest = newest' := hinj newest hnewest newest' hnewest'
        (le_antisymm (hupto' newest hnewest) (hupto newest' hnewest'))
      have hpeaks : highest.equityMicros = highest'.equityMicros :=
        le_antisymm (hpeak' highest hhighest) (hpeak highest' hhighest')
      rw [hsame, hpeaks]

theorem mem_equitySamples {rows : List ReadRow} {sample : EquitySample} :
    sample ∈ equitySamples rows ↔ ∃ row ∈ rows, row.equitySample = some sample :=
  List.mem_filterMap

theorem equitySample_sequenceNumber {row : ReadRow} {sample : EquitySample}
    (h : row.equitySample = some sample) : sample.sequenceNumber = row.sequenceNumber := by
  unfold ReadRow.equitySample at h
  split at h
  · rw [← Option.some.inj h]
  · cases h

theorem equitySamples_reverse (rows : List ReadRow) :
    equitySamples rows.reverse = (equitySamples rows).reverse :=
  List.filterMap_reverse

/-- The samples of a store stand in the order of their positions. -/
theorem ReadStore.samples_ordered (store : ReadStore) :
    (equitySamples store.rows).Pairwise fun s t => s.sequenceNumber < t.sequenceNumber := by
  refine List.pairwise_filterMap.mpr (store.ordered.imp fun {a b} hab s hs t ht => ?_)
  rw [equitySample_sequenceNumber hs, equitySample_sequenceNumber ht]
  exact hab

theorem ReadStore.sample_positive (store : ReadStore) {sample : EquitySample}
    (h : sample ∈ equitySamples store.rows) : 0 < sample.sequenceNumber := by
  obtain ⟨row, hrow, hsample⟩ := mem_equitySamples.mp h
  rw [equitySample_sequenceNumber hsample]
  exact store.positive row hrow

theorem ReadStore.samples_inj (store : ReadStore) {s t : EquitySample}
    (hs : s ∈ equitySamples store.rows) (ht : t ∈ equitySamples store.rows)
    (h : s.sequenceNumber = t.sequenceNumber) : s = t := by
  have hnodup : ((equitySamples store.rows).map EquitySample.sequenceNumber).Nodup :=
    List.pairwise_map.mpr (store.samples_ordered.imp ne_of_lt)
  exact List.inj_on_of_nodup_map hnodup hs ht h

/-- The walk to a watermark meets exactly the samples above it. -/
theorem mem_samplesAboveTheWatermark {store : ReadStore} {coveredThrough : ℤ}
    {sample : EquitySample} :
    sample ∈ samplesAboveTheWatermark store.rows coveredThrough ↔
      sample ∈ equitySamples store.rows ∧ coveredThrough < sample.sequenceNumber := by
  have hmono : (equitySamples store.rows).Pairwise fun s t =>
      decide (coveredThrough < s.sequenceNumber) = true →
        decide (coveredThrough < t.sequenceNumber) = true := by
    refine store.samples_ordered.imp fun hlt h => ?_
    simp only [decide_eq_true_eq] at h ⊢
    omega
  rw [samplesAboveTheWatermark, equitySamples_reverse, BoundedWalks.takeWhile_reverse hmono,
    List.mem_filter, List.mem_reverse, decide_eq_true_eq]

/-- Cursors as a process can hold them at a ledger: it starts cold, reads with or without the
newest-first walk, and rows are appended between its reads. -/
inductive CursorAt : List ReadRow → EquityCurveCursor → Prop
  | cold (rows : List ReadRow) : CursorAt rows .cold
  | read {cursor : EquityCurveCursor} (store : ReadStore) (h : CursorAt store.rows cursor) :
      CursorAt store.rows (readEquityCurve store cursor)
  | append {rows : List ReadRow} {cursor : EquityCurveCursor} (appended : List ReadRow)
      (h : CursorAt rows cursor) : CursorAt (rows ++ appended) cursor

/-- A read leaves a cursor that covers the head of the rows covering all of them. -/
theorem readEquityCurve_covers (store : ReadStore) {cursor : EquityCurveCursor}
    {seen later : List ReadRow} (hrows : store.rows = seen ++ later)
    (hcovers : Covers (equitySamples seen) cursor) :
    Covers (equitySamples store.rows) (readEquityCurve store cursor) := by
  have hsplit : equitySamples store.rows = equitySamples seen ++ equitySamples later := by
    rw [hrows]
    exact List.filterMap_append
  -- a row appended since stands above every row the cursor has read
  have habove : ∀ s ∈ equitySamples later, cursor.coveredThrough < s.sequenceNumber := by
    intro s hs
    cases hcovers with
    | cold => exact store.sample_positive (hsplit ▸ List.mem_append_right _ hs)
    | warm newest _ hnewest =>
      have hordered := store.samples_ordered
      rw [hsplit] at hordered
      exact (List.pairwise_append.mp hordered).2.2 newest hnewest s hs
  rw [readEquityCurve]
  refine (hcovers.fold _).congr fun s => ?_
  rw [List.mem_append]
  constructor
  · rintro (hs | hs)
    · exact hsplit ▸ List.mem_append_left _ hs
    · split at hs
      · exact (mem_samplesAboveTheWatermark.mp hs).1
      · exact hs
  · intro hs
    have hmem := hs
    rw [hsplit] at hs
    rcases List.mem_append.mp hs with hseen | hlater
    · exact .inl hseen
    · right
      split
      · exact mem_samplesAboveTheWatermark.mpr ⟨hmem, habove s hlater⟩
      · exact hmem

/-- **The watermark.**  What a cursor covers is the head of its ledger. -/
theorem CursorAt.covers {rows : List ReadRow} {cursor : EquityCurveCursor}
    (h : CursorAt rows cursor) :
    ∃ seen later, rows = seen ++ later ∧ Covers (equitySamples seen) cursor := by
  induction h with
  | cold rows => exact ⟨[], rows, rfl, .cold rfl⟩
  | append appended _ ih =>
    obtain ⟨seen, later, rfl, hcovers⟩ := ih
    exact ⟨seen, later ++ appended, List.append_assoc .., hcovers⟩
  | read store _ ih =>
    obtain ⟨seen, later, hrows, hcovers⟩ := ih
    exact ⟨store.rows, [], (List.append_nil _).symm, readEquityCurve_covers store hrows hcovers⟩

/-- A resumed read gives the curve of all rows. -/
theorem readEquityCurve_eq (store : ReadStore) {cursor : EquityCurveCursor}
    (h : CursorAt store.rows cursor) :
    (readEquityCurve store cursor).curve = equityCurveMicros store.rows := by
  obtain ⟨seen, later, hrows, hcovers⟩ := h.covers
  have hread := readEquityCurve_covers store hrows hcovers
  have hcold : Covers [] EquityCurveCursor.cold := .cold rfl
  have hreference := hcold.fold (equitySamples store.rows)
  rw [List.nil_append] at hreference
  exact hread.curve_eq hreference fun s hs t ht => store.samples_inj hs ht

/-! ## The day

The walk stops at the last sample of an earlier day, so what it can miss are samples of today
appended before that one.
-/

/-- The samples of a day, in append order. -/
def samplesOn (day : ℤ) (samples : List EquitySample) : List EquitySample :=
  samples.filter fun sample => utcDay sample.epochS = day

/-- The sample of the earliest instant, the first of them. -/
def firstEarliest (samples : List EquitySample) : Option EquitySample :=
  @List.argmin EquitySample ℤ Int.instLinearOrder.toPreorder Int.decLt EquitySample.epochS samples

/-- The sample of the earliest instant, the last of them. -/
def lastEarliest (samples : List EquitySample) : Option EquitySample :=
  firstEarliest samples.reverse

/-- The lowest equity of some samples. -/
def lowestEquity (samples : List EquitySample) : Option ℤ :=
  (samples.map EquitySample.equityMicros).min?

theorem firstEarliest_concat (samples : List EquitySample) (sample : EquitySample) :
    firstEarliest (samples ++ [sample]) =
      some ((firstEarliest samples).elim sample fun first =>
        if sample.epochS < first.epochS then sample else first) := by
  rw [firstEarliest, List.argmin_concat, ← firstEarliest]
  cases firstEarliest samples with
  | none => rfl
  | some first => exact (apply_ite some ..).symm

theorem lowestEquity_concat (samples : List EquitySample) (sample : EquitySample) :
    lowestEquity (samples ++ [sample]) =
      some ((lowestEquity samples).elim sample.equityMicros fun lowest =>
        min lowest sample.equityMicros) := by
  cases samples with
  | nil => rfl
  | cons first rest =>
    simp only [lowestEquity, List.cons_append, List.map_cons, List.map_append, List.map_nil,
      List.min?_cons', List.foldl_append, List.foldl_cons, List.foldl_nil, Option.elim_some]

theorem firstEarliest_eq_none {samples : List EquitySample} :
    firstEarliest samples = none ↔ samples = [] :=
  List.argmin_eq_none

theorem lowestEquity_eq_none {samples : List EquitySample} :
    lowestEquity samples = none ↔ samples = [] := by
  rw [lowestEquity, List.min?_eq_none_iff, List.map_eq_nil_iff]

theorem samplesOn_append (day : ℤ) (xs ys : List EquitySample) :
    samplesOn day (xs ++ ys) = samplesOn day xs ++ samplesOn day ys :=
  List.filter_append ..

theorem samplesOn_concat (day : ℤ) (samples : List EquitySample) (sample : EquitySample) :
    samplesOn day (samples ++ [sample]) =
      if utcDay sample.epochS = day then samplesOn day samples ++ [sample]
      else samplesOn day samples := by
  rw [samplesOn_append, samplesOn, samplesOn]
  by_cases h : utcDay sample.epochS = day
  · rw [if_pos h, List.filter_cons_of_pos (by simpa using h), List.filter_nil]
  · rw [if_neg h, List.filter_cons_of_neg (by simpa using h), List.filter_nil, List.append_nil]

/-- What the fold holds after some samples. -/
theorem foldl_dayEquityStep (samples : List EquitySample) (today : ℤ) :
    samples.foldl (dayEquityStep today) none =
      (firstEarliest (samplesOn today samples)).bind fun first =>
        (lowestEquity (samplesOn today samples)).map fun lowest =>
          (first.epochS, ⟨first.equityMicros, lowest⟩) := by
  induction samples using List.reverseRecOn with
  | nil => rfl
  | append_singleton samples sample ih =>
    rw [List.foldl_append, List.foldl_cons, List.foldl_nil, ih, samplesOn_concat]
    by_cases htoday : utcDay sample.epochS = today
    · rw [if_pos htoday, firstEarliest_concat, lowestEquity_concat]
      cases hfirst : firstEarliest (samplesOn today samples) with
      | none =>
        have hempty := lowestEquity_eq_none.mpr (firstEarliest_eq_none.mp hfirst)
        simp [dayEquityStep, htoday, hempty]
      | some first =>
        cases hlowest : lowestEquity (samplesOn today samples) with
        | none =>
          have hempty := firstEarliest_eq_none.mpr (lowestEquity_eq_none.mp hlowest)
          rw [hfirst] at hempty
          cases hempty
        | some lowest =>
          by_cases hearlier : sample.epochS < first.epochS <;>
            simp [dayEquityStep, htoday, hearlier]
    · rw [if_neg htoday]
      exact if_pos htoday

/-- The day's figures: the equity of the earliest sample, the first met, and the lowest. -/
theorem foldDayEquity_eq (samples : List EquitySample) (today : ℤ) :
    foldDayEquity samples today =
      (firstEarliest (samplesOn today samples)).bind fun first =>
        (lowestEquity (samplesOn today samples)).map fun lowest =>
          ⟨first.equityMicros, lowest⟩ := by
  rw [foldDayEquity, foldl_dayEquityStep]
  cases firstEarliest (samplesOn today samples) with
  | none => rfl
  | some first => cases lowestEquity (samplesOn today samples) <;> rfl

/-- Two folds agree when both figures do. -/
theorem foldDayEquity_eq_iff {xs ys : List EquitySample} {today : ℤ} :
    foldDayEquity xs today = foldDayEquity ys today ↔
      (firstEarliest (samplesOn today xs)).map EquitySample.equityMicros =
          (firstEarliest (samplesOn today ys)).map EquitySample.equityMicros ∧
        lowestEquity (samplesOn today xs) = lowestEquity (samplesOn today ys) := by
  rw [foldDayEquity_eq, foldDayEquity_eq]
  have key : ∀ zs : List EquitySample, (firstEarliest zs = none ∧ lowestEquity zs = none) ∨
      ∃ first lowest, firstEarliest zs = some first ∧ lowestEquity zs = some lowest := by
    intro zs
    cases zs with
    | nil => exact .inl ⟨rfl, rfl⟩
    | cons z zs =>
      right
      obtain ⟨first, hfirst⟩ := Option.ne_none_iff_exists'.mp
        (mt firstEarliest_eq_none.mp (List.cons_ne_nil z zs))
      obtain ⟨lowest, hlowest⟩ := Option.ne_none_iff_exists'.mp
        (mt lowestEquity_eq_none.mp (List.cons_ne_nil z zs))
      exact ⟨first, lowest, hfirst, hlowest⟩
  rcases key (samplesOn today xs) with ⟨hx, hx'⟩ | ⟨first, lowest, hx, hx'⟩ <;>
    rcases key (samplesOn today ys) with ⟨hy, hy'⟩ | ⟨first', lowest', hy, hy'⟩ <;>
    simp [hx, hx', hy, hy']

/-- The samples of today that the walk reads, in append order. -/
def walkedSamples (samples : List EquitySample) (today : ℤ) : List EquitySample :=
  samplesOn today (samples.rtakeWhile fun sample => today ≤ utcDay sample.epochS)

/-- The samples of today appended before the last sample of an earlier day. -/
def skippedSamples (samples : List EquitySample) (today : ℤ) : List EquitySample :=
  samplesOn today (samples.rdropWhile fun sample => today ≤ utcDay sample.epochS)

theorem samplesOn_eq (samples : List EquitySample) (today : ℤ) :
    samplesOn today samples = skippedSamples samples today ++ walkedSamples samples today := by
  rw [skippedSamples, walkedSamples, ← samplesOn_append, List.rdropWhile_append_rtakeWhile]

/-- What the walk gives the fold. -/
theorem samplesOn_walk (rows : List ReadRow) (today : ℤ) :
    samplesOn today (samplesBackToTheDayBoundary rows today) =
      (walkedSamples (equitySamples rows) today).reverse := by
  rw [samplesBackToTheDayBoundary, equitySamples_reverse, walkedSamples, samplesOn, samplesOn,
    ← List.filter_reverse, List.rtakeWhile, List.reverse_reverse]

theorem lowestEquity_eq_some {samples : List EquitySample} {lowest : ℤ} :
    lowestEquity samples = some lowest ↔
      (∃ s ∈ samples, s.equityMicros = lowest) ∧ ∀ s ∈ samples, lowest ≤ s.equityMicros := by
  rw [lowestEquity, List.min?_eq_some_iff, List.mem_map, List.forall_mem_map]

theorem lowestEquity_reverse (samples : List EquitySample) :
    lowestEquity samples.reverse = lowestEquity samples := by
  refine Option.ext fun lowest => ?_
  simp only [lowestEquity_eq_some, List.mem_reverse]

/-- A head of the samples may be left out where each of them is undercut. -/
theorem lowestEquity_append_iff (xs ys : List EquitySample) :
    lowestEquity (xs ++ ys) = lowestEquity ys ↔
      ∀ s ∈ xs, ∃ t ∈ ys, t.equityMicros ≤ s.equityMicros := by
  constructor
  · intro h s hs
    cases hlowest : lowestEquity ys with
    | none =>
      rw [hlowest, lowestEquity_eq_none, List.append_eq_nil_iff] at h
      exact absurd hs (h.1 ▸ List.not_mem_nil)
    | some lowest =>
      obtain ⟨⟨t, ht, htl⟩, -⟩ := lowestEquity_eq_some.mp hlowest
      rw [hlowest, lowestEquity_eq_some] at h
      exact ⟨t, ht, htl ▸ h.2 s (List.mem_append_left _ hs)⟩
  · intro h
    cases hlowest : lowestEquity ys with
    | none =>
      have hys := lowestEquity_eq_none.mp hlowest
      subst hys
      rw [List.append_nil, lowestEquity_eq_none, List.eq_nil_iff_forall_not_mem]
      intro s hs
      obtain ⟨t, ht, -⟩ := h s hs
      exact List.not_mem_nil ht
    | some lowest =>
      obtain ⟨⟨t, ht, htl⟩, hle⟩ := lowestEquity_eq_some.mp hlowest
      refine lowestEquity_eq_some.mpr ⟨⟨t, List.mem_append_right _ ht, htl⟩, fun s hs => ?_⟩
      rcases List.mem_append.mp hs with hs | hs
      · obtain ⟨u, hu, hus⟩ := h s hs
        exact (hle u hu).trans hus
      · exact hle s hs

/-- When the walk to the day boundary misses nothing. -/
structure DayWalkExact (samples : List EquitySample) (today : ℤ) : Prop where
  /-- The first of the day's earliest samples has the equity of the last of the earliest that the
  walk reads. -/
  baseline : (firstEarliest (samplesOn today samples)).map EquitySample.equityMicros =
    (lastEarliest (walkedSamples samples today)).map EquitySample.equityMicros
  /-- Every sample the walk misses is undercut by one it reads. -/
  trough : ∀ s ∈ skippedSamples samples today, ∃ t ∈ walkedSamples samples today,
    t.equityMicros ≤ s.equityMicros

/-- **The reverse walk.**  It gives the day's figures exactly in these ledgers. -/
theorem readDayEquity_eq_iff (store : ReadStore) (nowEpochS : ℤ) :
    readDayEquity store nowEpochS = dayEquityMicros store.rows nowEpochS ↔
      (store.reverseTypeScan = true →
        DayWalkExact (equitySamples store.rows) (utcDay nowEpochS)) := by
  rw [readDayEquity]
  by_cases hscan : store.reverseTypeScan = true
  · rw [if_pos hscan, dayEquityMicros, eq_comm, foldDayEquity_eq_iff, samplesOn_walk,
      lowestEquity_reverse, ← lastEarliest]
    have htrough := lowestEquity_append_iff
      (skippedSamples (equitySamples store.rows) (utcDay nowEpochS))
      (walkedSamples (equitySamples store.rows) (utcDay nowEpochS))
    rw [← samplesOn_eq] at htrough
    rw [htrough]
    exact ⟨fun h _ => ⟨h.1, h.2⟩, fun h => ⟨(h hscan).baseline, (h hscan).trough⟩⟩
  · rw [if_neg hscan]
    exact ⟨fun _ h => absurd h hscan, fun _ => rfl⟩

/-! ## All four -/

/-- At a ledger and an instant, every bounded read gives the figure of the whole ledger. -/
structure BoundedReadsExact (store : ReadStore) (nowEpochS : ℤ) : Prop where
  dayEquity : readDayEquity store nowEpochS = dayEquityMicros store.rows nowEpochS
  equityCurve : ∀ cursor, CursorAt store.rows cursor →
    (readEquityCurve store cursor).curve = equityCurveMicros store.rows
  notionalToday : readNotionalToday store nowEpochS = notionalTodayMicros store.rows nowEpochS
  ordersLastHour : readOrdersLastHour store nowEpochS = ordersLastHourCount store.rows nowEpochS

/-- The bounded reads are exact where the walk to the day boundary is. -/
theorem boundedReadsExact_iff (store : ReadStore) (nowEpochS : ℤ) :
    BoundedReadsExact store nowEpochS ↔
      (store.reverseTypeScan = true →
        DayWalkExact (equitySamples store.rows) (utcDay nowEpochS)) := by
  rw [← readDayEquity_eq_iff]
  constructor
  · exact BoundedReadsExact.dayEquity
  · intro h
    exact ⟨h, fun cursor hcursor => readEquityCurve_eq store hcursor,
      readNotionalToday_eq store nowEpochS, readOrdersLastHour_eq store nowEpochS⟩

/-- A sample row of equity `equityMicros` at `epochS`. -/
def sampleRow (sequenceNumber epochS equityMicros : ℤ) : ReadRow :=
  ⟨sequenceNumber, some (epochS * 1000000), .equitySampled epochS equityMicros⟩

/-- The clock steps back across midnight once: the day opened at 1,000,000, and the walk sees only
the sample after the step. -/
def steppedBackLedger : ReadStore where
  rows := [sampleRow 1 86400 1000000, sampleRow 2 86399 900000, sampleRow 3 86410 800000]
  reverseTypeScan := true
  positive := by decide
  ordered := by decide

/-- **A baseline lost.**  The walk measures the day from the sample after the step, so it reports no
loss where the whole ledger shows a fifth of the equity gone. -/
theorem baseline_lost_behind_the_boundary :
    ¬ ∀ (store : ReadStore) (nowEpochS : ℤ), BoundedReadsExact store nowEpochS := by
  intro h
  have hday := (h steppedBackLedger 86420).dayEquity
  have hwalk : readDayEquity steppedBackLedger 86420 = some ⟨800000, 800000⟩ := by decide
  have hfull : dayEquityMicros steppedBackLedger.rows 86420 = some ⟨1000000, 800000⟩ := by decide
  rw [hwalk, hfull] at hday
  exact absurd hday (by decide)

end Windbreak
