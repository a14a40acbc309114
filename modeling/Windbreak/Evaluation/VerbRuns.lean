import Windbreak.Evaluation.Verbs

/-!
# Runs of the operator's verbs

A row that was checked against one ledger is appended to another.  What the ledger keeps between the
two is the claim of the market, if no other invocation touches it: then the fold accepts the row.
Otherwise a contradicting row, or a correction of a row that no longer carries the claim, stays in
the ledger for good.
-/

namespace Windbreak

/-! ## The claim of a market, read off the rows -/

/-- The claim that the carrier of a market makes. -/
def currentClaim (rows : List EvaluationRow) (marketTicker : String) : Option MarketClaim :=
  (carrierOf rows marketTicker).bind (·.claim)

/-- A market with a claim keeps one. -/
theorem currentClaim_append_ne_none {rows : List EvaluationRow} {row : EvaluationRow}
    {marketTicker : String} (h : currentClaim rows marketTicker ≠ none) :
    currentClaim (rows ++ [row]) marketTicker ≠ none := by
  intro hnone
  have hcarrier := claim_of_carrier hnone
  rw [carrierOf_append] at hcarrier
  by_cases hcorrects : row.corrects marketTicker = true
  · rw [if_pos hcorrects] at hcarrier
    cases hcarrier
  · rw [if_neg hcorrects] at hcarrier
    have hold := (Option.or_eq_none_iff.mp hcarrier).1
    exact h (by rw [currentClaim, hold]; rfl)

/-- The claim of a market is made by a row. -/
theorem row_of_currentClaim {rows : List EvaluationRow} {marketTicker : String} {claim : MarketClaim}
    (h : currentClaim rows marketTicker = some claim) : ∃ row ∈ rows, row.claim = some claim := by
  obtain ⟨row, hcarrier, hclaim⟩ := Option.bind_eq_some_iff.mp h
  refine ⟨row, ?_, hclaim⟩
  rcases Option.or_eq_some_iff.mp hcarrier with hlast | ⟨-, hfirst⟩
  · exact (List.mem_filter.mp (List.mem_of_getLast? hlast)).1
  · exact List.mem_of_find?_eq_some hfirst

theorem sequenceNumber_of_claim {row : EvaluationRow} {claim : MarketClaim}
    (h : row.claim = some claim) : claim.sequenceNumber = row.sequenceNumber := by
  unfold EvaluationRow.claim at h
  grind

/-- Two rows of a ledger in append order at one position are one row. -/
theorem row_unique {rows : List EvaluationRow} (hordered : Ordered rows)
    {first second : EvaluationRow} (hfirst : first ∈ rows) (hsecond : second ∈ rows)
    (hsame : first.sequenceNumber = second.sequenceNumber) : first = second := by
  have hnodup : (rows.map (·.sequenceNumber)).Nodup :=
    List.pairwise_map.mpr (List.Pairwise.imp (fun hlt => ne_of_lt hlt) hordered)
  exact List.inj_on_of_nodup_map hnodup hfirst hsecond hsame

/-! ## Appending -/

theorem nextPosition_gt {rows : List EvaluationRow} (hordered : Ordered rows) {row : EvaluationRow}
    (hmem : row ∈ rows) : row.sequenceNumber < nextPosition rows := by
  unfold nextPosition
  cases hlast : rows.getLast? with
  | none =>
    rw [List.getLast?_eq_none_iff.mp hlast] at hmem
    cases hmem
  | some last =>
    obtain ⟨front, rfl⟩ := List.getLast?_eq_some_iff.mp hlast
    rcases List.mem_append.mp hmem with hin | hin
    · have := (List.pairwise_append.mp hordered).2.2 _ hin _ (List.mem_cons_self ..)
      show row.sequenceNumber < last.sequenceNumber + 1
      omega
    · rw [List.mem_singleton.mp hin]
      exact Int.lt_succ _

theorem appendRow_ordered {rows : List EvaluationRow} (hordered : Ordered rows)
    (createdAt : CreatedAt) (event : EvaluationEvent) :
    Ordered (appendRow rows createdAt event) := by
  refine List.pairwise_append.mpr ⟨hordered, List.pairwise_singleton _ _, ?_⟩
  intro row hrow last hlast
  rw [List.mem_singleton.mp hlast]
  exact nextPosition_gt hordered hrow

/-! ## A checked invocation -/

/-- What a checked invocation knows of the ledger from then on. -/
structure CheckedOn (rows : List EvaluationRow) (command : ResolutionCommand)
    (seen : Option MarketClaim) : Prop where
  stays : seen ≠ none → currentClaim rows command.marketTicker ≠ none
  ingest : ∀ resolution, command = .ingest resolution → ∀ existing, seen = some existing →
    resolutionsConflict existing.resolution resolution = false
  correct : ∀ correction, command = .correct correction → ∃ claim, seen = some claim ∧
    claim.sequenceNumber = correction.supersededSequenceNumber ∧
    ∃ row ∈ rows, row.claim = some claim

theorem CheckedOn.append {rows : List EvaluationRow} {command : ResolutionCommand}
    {seen : Option MarketClaim} (h : CheckedOn rows command seen) (createdAt : CreatedAt)
    (event : EvaluationEvent) : CheckedOn (appendRow rows createdAt event) command seen := by
  refine ⟨fun hseen => currentClaim_append_ne_none (h.stays hseen), h.ingest, ?_⟩
  intro correction hcommand
  obtain ⟨claim, hseen, hnames, row, hrow, hclaim⟩ := h.correct correction hcommand
  exact ⟨claim, hseen, hnames, row, List.mem_append_left _ hrow, hclaim⟩

/-- The claims that a fold ends with are those that the carriers make. -/
theorem get?_eq_currentClaim {rows : List EvaluationRow} {claims : Claims}
    (h : foldResolutions rows = .ok claims) (marketTicker : String) :
    claims.get? marketTicker = currentClaim rows marketTicker :=
  claims_of_carriers rows h marketTicker

/-- What the check of a command establishes. -/
theorem checkedOn_of_check {rows : List EvaluationRow} {command : ResolutionCommand}
    {seen : Option MarketClaim} (h : checkCommand rows command = .ok seen) :
    CheckedOn rows command seen := by
  unfold checkCommand at h
  cases hfold : foldResolutions rows with
  | error error =>
    rw [hfold] at h
    cases h
  | ok claims =>
    rw [hfold] at h
    have hcurrent := get?_eq_currentClaim hfold
    cases command with
    | ingest resolution =>
      dsimp only at h
      cases hrefusal : conflictingIngestRefusal claims resolution with
      | some refusal =>
        rw [hrefusal] at h
        cases h
      | none =>
        rw [hrefusal] at h
        have hseen : claims.get? resolution.marketTicker = seen := Except.ok.inj h
        refine ⟨fun hne => ?_, ?_, nofun⟩
        · rw [← hcurrent]
          exact hseen ▸ hne
        · rintro _ ⟨⟩ existing hexisting
          unfold conflictingIngestRefusal at hrefusal
          rw [hseen, hexisting] at hrefusal
          by_contra hconflict
          rw [Bool.not_eq_false] at hconflict
          simp only [hconflict, if_true] at hrefusal
          cases hrefusal
    | correct correction =>
      dsimp only at h
      cases hrefusal : correctionRefusal claims correction with
      | some refusal =>
        rw [hrefusal] at h
        cases h
      | none =>
        rw [hrefusal] at h
        have hseen : claims.get? correction.claim.marketTicker = seen := Except.ok.inj h
        unfold correctionRefusal at hrefusal
        cases hclaim : claims.get? correction.claim.marketTicker with
        | none =>
          rw [hclaim] at hrefusal
          cases hrefusal
        | some claim =>
          rw [hclaim] at hrefusal hseen
          have hmade : currentClaim rows correction.claim.marketTicker = some claim :=
            (hcurrent _).symm.trans hclaim
          refine ⟨fun _ => ?_, nofun, ?_⟩
          · rw [show (ResolutionCommand.correct correction).marketTicker =
              correction.claim.marketTicker from rfl, hmade]
            exact nofun
          · rintro _ ⟨⟩
            refine ⟨claim, hseen.symm, ?_, row_of_currentClaim hmade⟩
            by_contra hnames
            simp only [ne_eq, hnames, not_false_eq_true, if_true] at hrefusal
            cases hrefusal

/-- The claim of a command's market is the one that its check saw, or one that an ingest repeats. -/
def StillClaimed (rows : List EvaluationRow) (command : ResolutionCommand)
    (seen : Option MarketClaim) : Prop :=
  currentClaim rows command.marketTicker = seen ∨
    ∃ resolution existing, command = .ingest resolution ∧
      currentClaim rows command.marketTicker = some existing ∧
      resolutionsConflict existing.resolution resolution = false

/-- **The row of a checked invocation** is accepted as it is appended exactly when the claim of its
market still stands. -/
theorem foldRow_checked_iff {rows : List EvaluationRow} {claims : Claims}
    {command : ResolutionCommand} {seen : Option MarketClaim} (hordered : Ordered rows)
    (hfold : foldResolutions rows = .ok claims) (hchecked : CheckedOn rows command seen)
    {row : EvaluationRow} (hrow : row.event = command.event) :
    (∃ after, foldRow claims row = .ok after) ↔ StillClaimed rows command seen := by
  have hcurrent := get?_eq_currentClaim hfold command.marketTicker
  unfold StillClaimed
  rw [← hcurrent]
  constructor
  · rintro ⟨after, hafter⟩
    cases foldRow_ok_iff.mp hafter with
    | ignored hevent =>
      rw [hrow] at hevent
      cases command <;> cases hevent
    | @first resolution hevent hfree =>
      cases command with
      | correct correction => cases hrow.symm.trans hevent
      | ingest candidate =>
        cases hrow.symm.trans hevent
        refine Or.inl ?_
        cases seen with
        | none => exact hfree
        | some existing => exact absurd (hcurrent.symm.trans hfree) (hchecked.stays nofun)
    | @restated resolution existing hevent hclaim hagree =>
      cases command with
      | correct correction => cases hrow.symm.trans hevent
      | ingest candidate =>
        cases hrow.symm.trans hevent
        exact Or.inr ⟨resolution, existing, rfl, hclaim, hagree⟩
    | @corrected correction claim hevent hclaim hnames =>
      cases command with
      | ingest candidate => cases hrow.symm.trans hevent
      | correct candidate =>
        cases hrow.symm.trans hevent
        obtain ⟨old, hseen, hold, carrier, hcarrier, hmade⟩ := hchecked.correct correction rfl
        obtain ⟨present, hpresent, hnow⟩ := row_of_currentClaim (hcurrent.symm.trans hclaim)
        have hsame : carrier = present := by
          refine row_unique hordered hcarrier hpresent ?_
          rw [← sequenceNumber_of_claim hmade, ← sequenceNumber_of_claim hnow, hold, hnames]
        subst hsame
        left
        rw [hseen, ← hmade, hnow]
        exact hclaim
  · intro hstill
    cases command with
    | ingest candidate =>
      rcases hstill with hsame | ⟨resolution, existing, hcommand, hclaim, hagree⟩
      · cases hseen : seen with
        | none => exact ⟨_, foldRow_ok_iff.mpr (.first hrow (hsame.trans hseen))⟩
        | some existing =>
          exact ⟨_, foldRow_ok_iff.mpr (.restated hrow (hsame.trans hseen)
            (hchecked.ingest candidate rfl existing hseen))⟩
      · cases hcommand
        exact ⟨_, foldRow_ok_iff.mpr (.restated hrow hclaim hagree)⟩
    | correct correction =>
      rcases hstill with hsame | ⟨resolution, existing, hcommand, -⟩
      · obtain ⟨claim, hseen, hnames, -⟩ := hchecked.correct correction rfl
        exact ⟨_, foldRow_ok_iff.mpr (.corrected hrow (hsame.trans hseen) hnames)⟩
      · cases hcommand

/-! ## The laws of a run -/

/-- What the rows about settlements say, in order. -/
def settlementEvents (rows : List EvaluationRow) : List EvaluationEvent :=
  (rows.map (·.event)).filter (·.isSettlement)

section Runs

variable {ι : Type}

/-- The last command accepted about a market. -/
def lastAccepted (accepted : List (ι × ResolutionCommand)) (marketTicker : String) :
    Option ResolutionCommand :=
  ((accepted.filter fun entry => entry.2.marketTicker = marketTicker).getLast?).map (·.2)

/-- The claim of every market is that of the last command accepted about it, or the one it had. -/
def FollowsAccepted (before claims : Claims) (accepted : List (ι × ResolutionCommand)) : Prop :=
  ∀ marketTicker,
    (∀ command, lastAccepted accepted marketTicker = some command →
      ∃ claim, claims.get? marketTicker = some claim ∧
        resolutionsConflict claim.resolution command.claimed = false) ∧
    (lastAccepted accepted marketTicker = none →
      claims.get? marketTicker = before.get? marketTicker)

/-- The ledger folds, to the claims of the last commands accepted; and its rows about settlements are
those it had and those of the accepted invocations, so that a refused one has appended none. -/
structure StaysFoldable (initial : List EvaluationRow) (before : Claims) (s : VerbState ι) :
    Prop where
  folds : ∃ claims, foldResolutions s.rows = .ok claims ∧
    FollowsAccepted before claims s.acceptedCommands
  appended : settlementEvents s.rows =
    settlementEvents initial ++ s.acceptedCommands.map (·.2.event)
  refused : ∀ invocation refusal, s.phases invocation = .refused refusal →
    ∀ entry ∈ s.acceptedCommands, entry.1 ≠ invocation

/-- A row that an invocation appends finds the claim that its check saw, or one that it repeats. -/
def Undisturbed (s : VerbState ι) : VerbAction ι → Prop
  | .append invocation _ => ∀ command seen, s.phases invocation = .checked command seen →
    StillClaimed s.rows command seen
  | _ => True

/-- What every run keeps, whatever it appends. -/
structure VerbInvariant (initial : List EvaluationRow) (s : VerbState ι) : Prop where
  ordered : Ordered s.rows
  checked : ∀ {invocation command seen}, s.phases invocation = .checked command seen →
    CheckedOn s.rows command seen
  accepted : ∀ entry ∈ s.acceptedCommands, ∃ position, s.phases entry.1 = .accepted position
  appended : settlementEvents s.rows =
    settlementEvents initial ++ s.acceptedCommands.map (·.2.event)

theorem lastAccepted_append (accepted : List (ι × ResolutionCommand)) (invocation : ι)
    (command : ResolutionCommand) (marketTicker : String) :
    lastAccepted (accepted ++ [(invocation, command)]) marketTicker =
      if command.marketTicker = marketTicker then some command
      else lastAccepted accepted marketTicker := by
  unfold lastAccepted
  rw [List.filter_append]
  by_cases hsame : command.marketTicker = marketTicker
  · simp [hsame]
  · simp [hsame]

theorem settlementEvents_append (rows : List EvaluationRow) (createdAt : CreatedAt)
    (event : EvaluationEvent) :
    settlementEvents (appendRow rows createdAt event) =
      settlementEvents rows ++ if event.isSettlement then [event] else [] := by
  unfold settlementEvents appendRow
  rw [List.map_append, List.filter_append]
  by_cases hevent : event.isSettlement = true
  · simp [hevent]
  · simp [hevent]

/-- An accepted row of a command claims its market, or repeats the claim. -/
theorem foldRow_command {claims after : Claims} {command : ResolutionCommand} {row : EvaluationRow}
    (hrow : row.event = command.event) (h : foldRow claims row = .ok after) :
    after = claims.set command.marketTicker ⟨row.sequenceNumber, command.claimed⟩ ∨
      (after = claims ∧ ∃ existing, claims.get? command.marketTicker = some existing ∧
        resolutionsConflict existing.resolution command.claimed = false) := by
  cases foldRow_ok_iff.mp h with
  | ignored hevent =>
    rw [hrow] at hevent
    cases command <;> cases hevent
  | first hevent hfree =>
    cases command <;> cases hrow.symm.trans hevent
    exact Or.inl rfl
  | restated hevent hclaim hagree =>
    cases command <;> cases hrow.symm.trans hevent
    exact Or.inr ⟨rfl, _, hclaim, hagree⟩
  | corrected hevent hclaim hnames =>
    cases command <;> cases hrow.symm.trans hevent
    exact Or.inl rfl

/-- An accepted row makes the claims follow its command. -/
theorem FollowsAccepted.append {before claims after : Claims}
    {accepted : List (ι × ResolutionCommand)} (h : FollowsAccepted before claims accepted)
    (invocation : ι) {command : ResolutionCommand} {row : EvaluationRow}
    (hrow : row.event = command.event) (hfold : foldRow claims row = .ok after) :
    FollowsAccepted before after (accepted ++ [(invocation, command)]) := by
  intro marketTicker
  rw [lastAccepted_append]
  by_cases hsame : command.marketTicker = marketTicker
  · subst hsame
    rw [if_pos rfl]
    refine ⟨?_, nofun⟩
    rintro _ ⟨⟩
    rcases foldRow_command hrow hfold with rfl | ⟨rfl, hrepeats⟩
    · exact ⟨_, OrderedDict.get?_set_self .., by simp [resolutionsConflict]⟩
    · exact hrepeats
  · rw [if_neg hsame]
    have hkept : after.get? marketTicker = claims.get? marketTicker := by
      rcases foldRow_command hrow hfold with rfl | ⟨rfl, -⟩
      · rw [OrderedDict.get?_set, if_neg (Ne.symm hsame)]
      · rfl
    rw [hkept]
    exact h marketTicker

variable [DecidableEq ι] {arguments : ι → VerbArguments} {initial : List EvaluationRow}

/-- An invocation that has not been accepted has no command among those accepted. -/
theorem VerbInvariant.not_accepted {s : VerbState ι} (h : VerbInvariant initial s) {invocation : ι}
    (hphase : ∀ position, s.phases invocation ≠ .accepted position) :
    ∀ entry ∈ s.acceptedCommands, entry.1 ≠ invocation := by
  rintro entry hentry rfl
  obtain ⟨position, haccepted⟩ := h.accepted entry hentry
  exact hphase position haccepted

omit [DecidableEq ι] in
/-- An invocation in another phase is not accepted. -/
theorem not_accepted_of_eq {s : VerbState ι} {invocation : ι} {phase : InvocationPhase}
    (hphase : s.phases invocation = phase) (hother : ∀ position, phase ≠ .accepted position) :
    ∀ position, s.phases invocation ≠ .accepted position :=
  hphase ▸ hother

/-- Moving one invocation that has not been accepted on, without a row. -/
theorem VerbInvariant.update {s : VerbState ι} (h : VerbInvariant initial s) {invocation : ι}
    (hphase : ∀ position, s.phases invocation ≠ .accepted position) {next : InvocationPhase}
    (hnext : ∀ command seen, next = .checked command seen → CheckedOn s.rows command seen) :
    VerbInvariant initial
      { s with phases := Function.update s.phases invocation next } := by
  refine ⟨h.ordered, ?_, ?_, h.appended⟩
  · intro other command seen hother
    dsimp only at hother
    by_cases hsame : other = invocation
    · subst hsame
      rw [Function.update_self] at hother
      exact hnext command seen hother
    · rw [Function.update_of_ne hsame] at hother
      exact h.checked hother
  · intro entry hentry
    dsimp only
    rw [Function.update_of_ne (h.not_accepted hphase entry hentry)]
    exact h.accepted entry hentry

/-- **One step** keeps the invariant. -/
theorem verbStep_invariant (arguments : ι → VerbArguments) {s : VerbState ι}
    (h : VerbInvariant initial s) (action : VerbAction ι) :
    VerbInvariant initial (verbStep arguments s action) := by
  cases action with
  | check invocation =>
    cases hphase : s.phases invocation with
    | checked _ _ | accepted _ | refused _ | failed =>
      simp only [verbStep, hphase]
      exact h
    | idle =>
      simp only [verbStep, hphase]
      refine h.update (not_accepted_of_eq hphase fun position hsame => by cases hsame)
        fun command seen hchecked => ?_
      split at hchecked
      · cases hchecked
      · rename_i found hfound
        cases hchecked
        obtain ⟨command', hcommand, hseen⟩ := Effects.except_bind_ok.mp hfound
        obtain ⟨seen', hcheck, hpure⟩ := Effects.except_bind_ok.mp hseen
        cases hpure
        exact checkedOn_of_check hcheck
  | append invocation createdAt =>
    cases hphase : s.phases invocation with
    | idle | accepted _ | refused _ | failed =>
      simp only [verbStep, hphase]
      exact h
    | checked command seen =>
      simp only [verbStep, hphase]
      refine ⟨appendRow_ordered h.ordered _ _, ?_, ?_, ?_⟩
      · intro other command' seen' hother
        dsimp only at hother
        by_cases hsame : other = invocation
        · subst hsame
          rw [Function.update_self] at hother
          cases hother
        · rw [Function.update_of_ne hsame] at hother
          exact (h.checked hother).append _ _
      · intro entry hentry
        dsimp only
        rcases List.mem_append.mp hentry with hold | hnew
        · rw [Function.update_of_ne
            (h.not_accepted (not_accepted_of_eq hphase fun position hsame => by cases hsame)
              entry hold)]
          exact h.accepted entry hold
        · rw [List.mem_singleton.mp hnew, Function.update_self]
          exact ⟨_, rfl⟩
      · rw [settlementEvents_append, h.appended, List.map_append, List.append_assoc]
        congr 2
        cases command <;> rfl
  | fail invocation =>
    cases hphase : s.phases invocation with
    | idle | accepted _ | refused _ | failed =>
      simp only [verbStep, hphase]
      exact h
    | checked command seen =>
      simp only [verbStep, hphase]
      exact h.update (not_accepted_of_eq hphase fun position hsame => by cases hsame)
        fun _ _ hchecked => by cases hchecked
  | loop createdAt event other =>
    refine ⟨appendRow_ordered h.ordered _ _, fun hphase => (h.checked hphase).append _ _,
      h.accepted, ?_⟩
    show settlementEvents (appendRow s.rows createdAt event) = _
    rw [settlementEvents_append, other, h.appended]
    exact List.append_nil _

theorem runVerbs_invariant (hordered : Ordered initial) (actions : List (VerbAction ι)) :
    VerbInvariant initial (runVerbs arguments initial actions) := by
  have hinit : VerbInvariant initial (VerbState.init initial : VerbState ι) :=
    ⟨hordered, fun hphase => (by cases hphase), fun _ hentry => absurd hentry List.not_mem_nil,
      (List.append_nil _).symm⟩
  unfold runVerbs
  generalize (VerbState.init initial : VerbState ι) = s at hinit
  induction actions generalizing s with
  | nil => exact hinit
  | cons action rest ih => exact ih _ (verbStep_invariant arguments hinit action)

/-- The fold of a ledger with one more row. -/
theorem foldResolutions_appendRow {rows : List EvaluationRow} {claims : Claims}
    (h : foldResolutions rows = .ok claims) (createdAt : CreatedAt) (event : EvaluationEvent)
    (after : Claims) :
    foldResolutions (appendRow rows createdAt event) = .ok after ↔
      foldRow claims ⟨nextPosition rows, createdAt, event⟩ = .ok after := by
  rw [appendRow, foldResolutions_append]
  constructor
  · rintro ⟨found, hfound, hrow⟩
    cases h.symm.trans hfound
    exact hrow
  · intro hrow
    exact ⟨claims, h, hrow⟩

/-- A ledger that folds still does after a step exactly when the step is undisturbed. -/
theorem verbStep_folds_iff {before : Claims} {s : VerbState ι}
    (hinvariant : VerbInvariant initial s) (h : StaysFoldable initial before s)
    (action : VerbAction ι) :
    (∃ after, foldResolutions (verbStep arguments s action).rows = .ok after ∧
      FollowsAccepted before after (verbStep arguments s action).acceptedCommands) ↔
      Undisturbed s action := by
  obtain ⟨claims, hfold, hfollows⟩ := h.folds
  cases action with
  | check invocation =>
    refine iff_of_true ⟨claims, ?_⟩ trivial
    cases hphase : s.phases invocation <;> simp only [verbStep, hphase] <;>
      exact ⟨hfold, hfollows⟩
  | fail invocation =>
    refine iff_of_true ⟨claims, ?_⟩ trivial
    cases hphase : s.phases invocation <;> simp only [verbStep, hphase] <;>
      exact ⟨hfold, hfollows⟩
  | loop createdAt event other =>
    refine iff_of_true ⟨claims, ?_, hfollows⟩ trivial
    exact (foldResolutions_appendRow hfold createdAt event claims).mpr
      (foldRow_ok_iff.mpr (.ignored other))
  | append invocation createdAt =>
    cases hphase : s.phases invocation with
    | idle | accepted _ | refused _ | failed =>
      simp only [verbStep, hphase]
      refine iff_of_true ⟨claims, hfold, hfollows⟩ fun command seen hchecked => ?_
      rw [hphase] at hchecked
      cases hchecked
    | checked command seen =>
      have hrow := foldRow_checked_iff hinvariant.ordered hfold (hinvariant.checked hphase)
        (show (⟨nextPosition s.rows, createdAt, command.event⟩ : EvaluationRow).event =
          command.event from rfl)
      simp only [verbStep, hphase]
      constructor
      · rintro ⟨after, hafter, -⟩ command' seen' hchecked
        cases hphase.symm.trans hchecked
        exact hrow.mp ⟨after, (foldResolutions_appendRow hfold _ _ after).mp hafter⟩
      · intro hundisturbed
        obtain ⟨after, hafter⟩ := hrow.mpr (hundisturbed command seen hphase)
        exact ⟨after, (foldResolutions_appendRow hfold _ _ after).mpr hafter,
          hfollows.append invocation rfl hafter⟩

theorem verbStep_foldable_iff {before : Claims} {s : VerbState ι}
    (hinvariant : VerbInvariant initial s) (h : StaysFoldable initial before s)
    (action : VerbAction ι) :
    StaysFoldable initial before (verbStep arguments s action) ↔ Undisturbed s action := by
  have hnext := verbStep_invariant arguments hinvariant action
  constructor
  · intro hlater
    exact (verbStep_folds_iff hinvariant h action).mp hlater.folds
  · intro hundisturbed
    refine ⟨(verbStep_folds_iff hinvariant h action).mpr hundisturbed, hnext.appended, ?_⟩
    intro invocation refusal hphase
    exact hnext.not_accepted (not_accepted_of_eq hphase fun position hsame => by cases hsame)

omit [DecidableEq ι] in
/-- Before any verb runs, the ledger folds as it did. -/
theorem init_staysFoldable {before : Claims} (hfold : foldResolutions initial = .ok before) :
    StaysFoldable initial before (VerbState.init initial : VerbState ι) := by
  refine ⟨⟨before, hfold, fun marketTicker => ⟨fun command hlast => ?_, fun _ => rfl⟩⟩,
    (List.append_nil _).symm, fun invocation refusal hphase => ?_⟩
  · cases hlast
  · cases hphase

/-- **The resolution ledger stays foldable** through a run, with the claims of the last invocations
accepted, exactly when every row finds the claim that its check saw, or one that it repeats. -/
theorem ledger_foldable_iff (arguments : ι → VerbArguments) {initial : List EvaluationRow}
    {before : Claims} (hordered : Ordered initial) (hfold : foldResolutions initial = .ok before)
    (actions : List (VerbAction ι)) :
    (∀ done rest, actions = done ++ rest →
      StaysFoldable initial before (runVerbs arguments initial done)) ↔
      ∀ done action rest, actions = done ++ action :: rest →
        Undisturbed (runVerbs arguments initial done) action := by
  have hstep : ∀ (done : List (VerbAction ι)) (action : VerbAction ι),
      runVerbs arguments initial (done ++ [action]) =
        verbStep arguments (runVerbs arguments initial done) action := by
    intro done action
    rw [runVerbs, List.foldl_append]
    rfl
  constructor
  · intro hstays done action rest hsplit
    have hnow := hstays done (action :: rest) hsplit
    have hnext := hstays (done ++ [action]) rest (by rw [hsplit, List.append_assoc]; rfl)
    rw [hstep] at hnext
    exact (verbStep_foldable_iff (runVerbs_invariant hordered done) hnow action).mp hnext
  · intro hundisturbed done
    induction done using List.reverseRecOn with
    | nil =>
      intro rest _
      exact init_staysFoldable hfold
    | append_singleton done action ih =>
      intro rest hsplit
      rw [List.append_assoc] at hsplit
      have hnow := ih (action :: rest) hsplit
      rw [hstep]
      exact (verbStep_foldable_iff (runVerbs_invariant hordered done) hnow action).mpr
        (hundisturbed done action rest hsplit)

end Runs

/-! ## A race -/

/-- Two operators who read one settlement differently. -/
def disagreeing : Bool → VerbArguments
  | false => .ingestResolution "KX" .yes (.aware 5) "exchange"
  | true => .ingestResolution "KX" .no (.aware 5) "operator"

/-- Both check their rows before either appends. -/
theorem racing_ingests_stop_the_fold :
    ∃ error, foldResolutions (runVerbs disagreeing []
      [.check false, .check true, .append false (.aware 10), .append true (.aware 11)]).rows =
        .error error :=
  ⟨_, rfl⟩

/-- The first operator appends before the second checks. -/
theorem sequential_ingests_fold :
    (∀ done rest, [.check false, .append false (.aware 10), .check true, .append true (.aware 11)] =
      done ++ rest → StaysFoldable [] OrderedDict.empty (runVerbs disagreeing [] done)) ↔
      ∀ done action rest,
        [.check false, .append false (.aware 10), .check true, .append true (.aware 11)] =
          done ++ action :: rest → Undisturbed (runVerbs disagreeing [] done) action :=
  ledger_foldable_iff disagreeing List.Pairwise.nil rfl _

end Windbreak
