import Windbreak.Core.JsonCanonical
import Windbreak.Core.Runs
import Windbreak.Ledger.Events
import Windbreak.Ledger.Store

/-!
# Appending to the ledger

An append stamps an event, chains it to the last row and inserts it, in one transaction that is rolled
back when anything in it raises.  The events can be read back from the rows.

* **`append`** — one append, with the ways in which it fails.
* **`eventsFromRecords`**, **`latestRecordOfTypes`** — reading the rows.
* **`appends_keep_chain`** — what holds after every step of a sequence of appends.
-/

namespace Windbreak

open Machine

/-! ## Events -/

/-- An event whose payload is a dictionary: no key occurs twice in any object of it. -/
structure DictEvent where
  event : Event
  distinct : Json.Distinct (.obj event.payload)

/-- The envelope that is persisted for an event. -/
def Event.envelope (event : Event) : Json :=
  .obj [("component", .str event.component), ("data", .obj event.payload),
    ("schema_version", .int event.payloadSchemaVersion)]

/-- An event as it is read back.  The fields of its envelope are whatever they were decoded to. -/
structure DecodedEvent where
  eventType : String
  component : JsonValue
  payloadSchemaVersion : JsonValue
  payload : JsonValue

/-- The event read back exactly: the same fields, the keys of its payload in order. -/
def Event.decoded (event : Event) : DecodedEvent where
  eventType := event.eventType
  component := .str (JsonValue.codes event.component)
  payloadSchemaVersion := .int event.payloadSchemaVersion
  payload := (Json.obj event.payload).toValue.sorted

/-! ## Appending -/

/-- Why an append fails: the envelope cannot be written, or a statement raises. -/
inductive AppendError where
  | unserialisable
  | storage
  deriving DecidableEq, Repr

/-- The clock of an append, whether its payload holds a value without a JSON text, and which of its
statements raise. -/
structure AppendEnv where
  createdAt : String
  dumpsRaises : Bool
  beginRaises : Bool
  insertRaises : Bool
  commitRaises : Bool

/-- The row that an event becomes behind the last one. -/
def nextRecord (sha : Sha256) (createdAt : String) (event : Event) (rows : List LedgerRecord) :
    LedgerRecord :=
  let sequenceNumber := match rows.getLast? with
    | none => 1
    | some last => last.sequenceNumber + 1
  let prevHash := match rows.getLast? with
    | none => genesisPrevHash
    | some last => last.eventHash
  { sequenceNumber := sequenceNumber
    eventType := event.eventType
    createdAt := createdAt
    component := event.component
    payloadJson := event.envelope.canonical
    payloadSchemaVersion := event.payloadSchemaVersion
    prevHash := prevHash
    eventHash := computeEventHash sha sequenceNumber event.eventType createdAt
      event.envelope.canonical prevHash }

/-- Append an event; an append that fails is rolled back. -/
def append (sha : Sha256) (limits : JsonValue.Limits) (env : AppendEnv) (event : Event)
    (rows : List LedgerRecord) : Except AppendError ℤ × List LedgerRecord :=
  if env.dumpsRaises || !event.envelope.serialises limits limits.depth then
    (.error .unserialisable, rows)
  else if env.beginRaises then (.error .storage, rows)
  else if env.insertRaises then (.error .storage, rows)
  else if env.commitRaises then (.error .storage, rows)
  else
    let record := nextRecord sha env.createdAt event rows
    (.ok record.sequenceNumber, rows ++ [record])

/-! ## Reading -/

/-- Why the rows do not decode: an envelope is malformed, or its text is refused otherwise. -/
inductive RecordError where
  | malformed (sequenceNumber : ℤ)
  | refused (error : JsonValue.LoadsError)

/-- The fields of a row's envelope. -/
def loadEnvelope (limits : JsonValue.Limits) (record : LedgerRecord) :
    Except RecordError (List (CodePoints × JsonValue)) :=
  match JsonValue.loads limits record.payloadJson with
  | .error .decode => .error (.malformed record.sequenceNumber)
  | .error e => .error (.refused e)
  | .ok (.obj fields) => .ok fields
  | .ok _ => .error (.malformed record.sequenceNumber)

/-- Rebuild the event of a row. -/
def eventFromRecord (limits : JsonValue.Limits) (record : LedgerRecord) :
    Except RecordError DecodedEvent := do
  let fields ← loadEnvelope limits record
  match JsonValue.lookup "component" fields, JsonValue.lookup "data" fields,
      JsonValue.lookup "schema_version" fields with
  | some component, some payload, some schemaVersion =>
    return ⟨record.eventType, component, schemaVersion, payload⟩
  | _, _, _ => throw (.malformed record.sequenceNumber)

/-- Rebuild the events of the rows, in order. -/
def eventsFromRecords (limits : JsonValue.Limits) (rows : List LedgerRecord) :
    Except RecordError (List DecodedEvent) :=
  rows.mapM (eventFromRecord limits)

/-- The newest row of one type. -/
def newestOfType (eventType : String) (rows : List LedgerRecord) : Option LedgerRecord :=
  (rows.filter fun record => record.eventType = eventType).getLast?

/-- The newer of two rows, the first where neither is. -/
def newer (latest : Option LedgerRecord) (found : Option LedgerRecord) : Option LedgerRecord :=
  match latest, found with
  | latest, none => latest
  | none, some record => some record
  | some latest, some record =>
    if record.sequenceNumber > latest.sequenceNumber then some record else some latest

/-- The newest row whose type is among the requested ones. -/
def latestRecordOfTypes (eventTypes : List String) (rows : List LedgerRecord) :
    Option LedgerRecord :=
  (eventTypes.dedup.insertionSort (· ≤ ·)).foldl
    (fun latest eventType => newer latest (newestOfType eventType rows)) none

/-! ## Sequences of appends -/

/-- The text of a string without surrogates. -/
def text? (s : CodePoints) : Option String :=
  if s.all fun n => n < 55296 || (57343 < n && n < 1114112) then
    some (String.ofList (s.map Char.ofNat))
  else none

/-- What a verification reads of an envelope.  A truth value equals the number it stands for. -/
def readEnvelope (limits : JsonValue.Limits) : EnvelopeReader := fun payloadJson =>
  match JsonValue.loads limits payloadJson with
  | .ok (.obj fields) =>
    match JsonValue.lookup "component" fields, JsonValue.lookup "schema_version" fields with
    | some (.str component), some (.int schemaVersion) =>
      (text? component).map fun component => (component, schemaVersion)
    | some (.str component), some (.bool schemaVersion) =>
      (text? component).map fun component => (component, if schemaVersion then 1 else 0)
    | _, _ => none
  | _ => none

/-- The rows of a ledger, and the events whose append succeeded. -/
structure LedgerRows where
  rows : List LedgerRecord
  appended : List Event

def LedgerRows.empty : LedgerRows := ⟨[], []⟩

structure AppendOp where
  env : AppendEnv
  event : DictEvent

def appendStep (sha : Sha256) (limits : JsonValue.Limits) (w : LedgerRows) (op : AppendOp) :
    Except AppendError ℤ × LedgerRows :=
  match append sha limits op.env op.event.event w.rows with
  | (.ok sequenceNumber, rows) => (.ok sequenceNumber, ⟨rows, w.appended ++ [op.event.event]⟩)
  | (.error e, rows) => (.error e, ⟨rows, w.appended⟩)

/-- A row is the newest whose type is among the given ones, or there is none. -/
def IsLatest (eventTypes : List String) (rows : List LedgerRecord) : Option LedgerRecord → Prop
  | none => ∀ record ∈ rows, record.eventType ∉ eventTypes
  | some latest => latest ∈ rows ∧ latest.eventType ∈ eventTypes ∧
      ∀ record ∈ rows, record.eventType ∈ eventTypes →
        record.sequenceNumber ≤ latest.sequenceNumber

/-- **What an append leaves behind.** -/
structure ChainKept (sha : Sha256) (limits : JsonValue.Limits)
    (t : Transition LedgerRows AppendOp (Except AppendError ℤ)) : Prop where
  contiguous : ∀ i (h : i < t.post.rows.length), (t.post.rows[i]).sequenceNumber = i + 1
  verified : verifyChain sha (readEnvelope limits) t.post.rows = .ok ()
  failed : ∀ e, t.output = .error e → t.post.rows = t.pre.rows ∧ t.post.appended = t.pre.appended
  succeeded : ∀ n, t.output = .ok n → t.post.appended = t.pre.appended ++ [t.input.event.event]
  decoded : eventsFromRecords limits t.post.rows = .ok (t.post.appended.map Event.decoded)
  latest : ∀ eventTypes,
    IsLatest eventTypes t.post.rows (latestRecordOfTypes eventTypes t.post.rows)

/-! ## One append -/

section

variable {sha : Sha256} {limits : JsonValue.Limits} {event : Event} {rows : List LedgerRecord}

/-- An append either adds the next row of a serialisable event, or nothing. -/
theorem append_cases (sha : Sha256) (limits : JsonValue.Limits) (env : AppendEnv) (event : Event)
    (rows : List LedgerRecord) :
    (∃ e, append sha limits env event rows = (.error e, rows)) ∨
      event.envelope.serialises limits limits.depth = true ∧
        append sha limits env event rows =
          (.ok (nextRecord sha env.createdAt event rows).sequenceNumber,
            rows ++ [nextRecord sha env.createdAt event rows]) := by
  unfold append
  by_cases hdumps : (env.dumpsRaises || !event.envelope.serialises limits limits.depth) = true
  · rw [if_pos hdumps]
    exact .inl ⟨_, rfl⟩
  · rw [if_neg hdumps]
    have hserialises : event.envelope.serialises limits limits.depth = true := by
      simp only [Bool.or_eq_true, Bool.not_eq_true', not_or, Bool.not_eq_false] at hdumps
      exact hdumps.2
    by_cases hbegin : env.beginRaises
    · rw [if_pos hbegin]
      exact .inl ⟨_, rfl⟩
    · rw [if_neg hbegin]
      by_cases hinsert : env.insertRaises
      · rw [if_pos hinsert]
        exact .inl ⟨_, rfl⟩
      · rw [if_neg hinsert]
        by_cases hcommit : env.commitRaises
        · rw [if_pos hcommit]
          exact .inl ⟨_, rfl⟩
        · rw [if_neg hcommit]
          exact .inr ⟨hserialises, rfl⟩

/-! ### The envelope, read back -/

theorem nodup_envelope_keys : ["component", "data", "schema_version"].Nodup := by decide

theorem distinct_envelope (h : Json.Distinct (.obj event.payload)) :
    Json.Distinct event.envelope := by
  refine .obj _ nodup_envelope_keys fun f hf => ?_
  simp only [List.mem_cons, List.not_mem_nil, or_false] at hf
  rcases hf with rfl | rfl | rfl
  · exact .str _
  · exact h
  · exact .int _

/-- The fields of an envelope, as they are read back. -/
theorem loads_envelope (h : Json.Distinct (.obj event.payload))
    (hserialises : event.envelope.serialises limits limits.depth = true) :
    ∃ fields, JsonValue.loads limits event.envelope.canonical = .ok (.obj fields) ∧
      JsonValue.lookup "component" fields = some (.str (JsonValue.codes event.component)) ∧
      JsonValue.lookup "data" fields = some (Json.obj event.payload).toValue.sorted ∧
      JsonValue.lookup "schema_version" fields = some (.int event.payloadSchemaVersion) := by
  obtain ⟨fields, hread, -, hlookup⟩ := Json.loads_obj (distinct_envelope h) hserialises
  exact ⟨fields, hread, hlookup "component", hlookup "data", hlookup "schema_version"⟩

/-- A text is its code points. -/
theorem text?_codes (s : String) : text? (JsonValue.codes s) = some s := by
  have hvalid : ((JsonValue.codes s).all fun n => n < 55296 || (57343 < n && n < 1114112)) =
      true := by
    rw [List.all_eq_true]
    intro n hn
    obtain ⟨c, -, rfl⟩ := List.mem_map.mp hn
    have hc := Json.toNat_valid c
    simp only [Bool.or_eq_true, Bool.and_eq_true, decide_eq_true_eq]
    omega
  have hchars : (JsonValue.codes s).map Char.ofNat = s.toList := by
    rw [JsonValue.codes, List.map_map]
    exact (List.map_congr_left fun c _ => Char.ofNat_toNat c).trans (List.map_id _)
  rw [text?, if_pos hvalid, hchars, String.ofList_toList]

/-- A verification reads the columns of a row off its envelope. -/
theorem readEnvelope_envelope (h : Json.Distinct (.obj event.payload))
    (hserialises : event.envelope.serialises limits limits.depth = true) :
    readEnvelope limits event.envelope.canonical =
      some (event.component, event.payloadSchemaVersion) := by
  obtain ⟨fields, hread, hcomponent, -, hschema⟩ := loads_envelope h hserialises
  simp only [readEnvelope, hread, hcomponent, hschema, text?_codes, Option.map_some]

/-- The event of an appended row is the one that was appended. -/
theorem eventFromRecord_nextRecord (createdAt : String) (h : Json.Distinct (.obj event.payload))
    (hserialises : event.envelope.serialises limits limits.depth = true) :
    eventFromRecord limits (nextRecord sha createdAt event rows) = .ok event.decoded := by
  obtain ⟨fields, hread, hcomponent, hdata, hschema⟩ := loads_envelope h hserialises
  have hfields : loadEnvelope limits (nextRecord sha createdAt event rows) = .ok fields := by
    have hpayload : (nextRecord sha createdAt event rows).payloadJson =
      event.envelope.canonical := rfl
    rw [loadEnvelope, hpayload, hread]
  unfold eventFromRecord
  rw [hfields]
  show (match JsonValue.lookup "component" fields, JsonValue.lookup "data" fields,
      JsonValue.lookup "schema_version" fields with
    | some component, some payload, some schemaVersion =>
      (.ok ⟨event.eventType, component, schemaVersion, payload⟩ : Except RecordError DecodedEvent)
    | _, _, _ => .error (.malformed _)) = _
  rw [hcomponent, hdata, hschema]
  rfl

/-! ### The chain -/

/-- The row behind the last one is in its place. -/
theorem rowVerified_nextRecord (createdAt : String) (h : Json.Distinct (.obj event.payload))
    (hserialises : event.envelope.serialises limits limits.depth = true)
    (hposition : ∀ last, rows.getLast? = some last → last.sequenceNumber = rows.length) :
    RowVerified sha (readEnvelope limits)
      (HashChain.tip ChainState.next (1, genesisPrevHash) rows)
      (nextRecord sha createdAt event rows) := by
  rw [tip_eq]
  cases hlast : rows.getLast? with
  | none =>
      have hempty : rows = [] := List.getLast?_eq_none_iff.mp hlast
      refine ⟨?_, rfl, ?_, readEnvelope_envelope h hserialises⟩
      · simp [nextRecord, hempty]
      · simp [nextRecord, hempty]
  | some last =>
      refine ⟨?_, rfl, ?_, readEnvelope_envelope h hserialises⟩
      · simp only [nextRecord, hlast, hposition last hlast]
        omega
      · simp only [nextRecord, hlast, Option.map_some, Option.getD_some]

/-- A row in a chain stands at its position. -/
theorem sequenceNumber_of_accepted {loads : EnvelopeReader} {state : ChainState}
    (h : HashChain.Accepted (RowVerified sha loads) ChainState.next state rows) (i : ℕ)
    (hi : i < rows.length) : (rows[i]).sequenceNumber = state.1 + i := by
  have hposition := (HashChain.accepted_getElem h i hi).position
  rw [tip_eq, List.length_take, Nat.min_eq_left (le_of_lt hi)] at hposition
  exact hposition

/-- The last row of a chain stands at its length. -/
theorem last_sequenceNumber {loads : EnvelopeReader}
    (h : HashChain.Accepted (RowVerified sha loads) ChainState.next (1, genesisPrevHash) rows)
    {last : LedgerRecord} (hlast : rows.getLast? = some last) :
    last.sequenceNumber = rows.length := by
  have hne : rows ≠ [] := fun hnil => by simp [hnil] at hlast
  have hpos := List.length_pos_iff.mpr hne
  have hlt : rows.length - 1 < rows.length := by omega
  have hget : rows[rows.length - 1] = last := by
    rw [List.getLast?_eq_getElem?, List.getElem?_eq_getElem hlt] at hlast
    exact Option.some.inj hlast
  have hposition := sequenceNumber_of_accepted h _ hlt
  rw [hget] at hposition
  rw [hposition]
  show (1 : ℤ) + ((rows.length - 1 : ℕ) : ℤ) = rows.length
  omega

/-- The rows of a chain stand in increasing order. -/
theorem increasing_of_accepted {loads : EnvelopeReader}
    (h : HashChain.Accepted (RowVerified sha loads) ChainState.next (1, genesisPrevHash) rows) :
    rows.Pairwise fun record later => record.sequenceNumber < later.sequenceNumber := by
  rw [List.pairwise_iff_getElem]
  intro i j hi hj hlt
  rw [sequenceNumber_of_accepted h i hi, sequenceNumber_of_accepted h j hj]
  omega

end

/-! ## The newest row of several types -/

section

variable {rows : List LedgerRecord}

/-- The last row of a type is its newest. -/
theorem isLatest_newestOfType
    (hrows : rows.Pairwise fun record later => record.sequenceNumber < later.sequenceNumber)
    (eventType : String) : IsLatest [eventType] rows (newestOfType eventType rows) := by
  have hmem : ∀ record ∈ rows, record.eventType ∈ [eventType] →
      record ∈ rows.filter fun record => record.eventType = eventType := by
    intro record hrecord htype
    exact List.mem_filter.mpr ⟨hrecord, decide_eq_true (List.mem_singleton.mp htype)⟩
  cases hnewest : newestOfType eventType rows with
  | none =>
      have hnone : (rows.filter fun record => record.eventType = eventType) = [] :=
        List.getLast?_eq_none_iff.mp hnewest
      intro record hrecord htype
      have hfound := hmem record hrecord htype
      rw [hnone] at hfound
      exact List.not_mem_nil hfound
  | some latest =>
      obtain ⟨older, hfilter⟩ := List.getLast?_eq_some_iff.mp hnewest
      have hlatest : latest ∈ rows.filter fun record => record.eventType = eventType := by
        simp [hfilter]
      have hsorted := hrows.filter fun record => record.eventType = eventType
      rw [hfilter, List.pairwise_append] at hsorted
      refine ⟨(List.mem_filter.mp hlatest).1,
        List.mem_singleton.mpr (of_decide_eq_true (List.mem_filter.mp hlatest).2), ?_⟩
      intro record hrecord htype
      have hfound := hmem record hrecord htype
      rw [hfilter, List.mem_append, List.mem_singleton] at hfound
      rcases hfound with holder | rfl
      · exact le_of_lt (hsorted.2.2 record holder latest (List.mem_singleton.mpr rfl))
      · exact le_refl _

/-- The newer of two newest rows is the newest of the types of both. -/
theorem isLatest_newer {types types' : List String} {latest found : Option LedgerRecord}
    (h : IsLatest types rows latest) (h' : IsLatest types' rows found) :
    IsLatest (types ++ types') rows (newer latest found) := by
  cases latest with
  | none =>
      cases found with
      | none =>
          intro record hrecord htype
          exact (List.mem_append.mp htype).elim (h record hrecord) (h' record hrecord)
      | some record =>
          obtain ⟨hmem, htype, hmax⟩ := h'
          refine ⟨hmem, List.mem_append_right _ htype, fun other hother hin => ?_⟩
          rcases List.mem_append.mp hin with hin | hin
          · exact absurd hin (h other hother)
          · exact hmax other hother hin
  | some record =>
      obtain ⟨hmem, htype, hmax⟩ := h
      cases found with
      | none =>
          refine ⟨hmem, List.mem_append_left _ htype, fun other hother hin => ?_⟩
          rcases List.mem_append.mp hin with hin | hin
          · exact hmax other hother hin
          · exact absurd hin (h' other hother)
      | some record' =>
          obtain ⟨hmem', htype', hmax'⟩ := h'
          unfold newer
          dsimp only
          by_cases hnewer : record'.sequenceNumber > record.sequenceNumber
          · rw [if_pos hnewer]
            refine ⟨hmem', List.mem_append_right _ htype', fun other hother hin => ?_⟩
            rcases List.mem_append.mp hin with hin | hin
            · exact le_trans (hmax other hother hin) (le_of_lt hnewer)
            · exact hmax' other hother hin
          · rw [if_neg hnewer]
            refine ⟨hmem, List.mem_append_left _ htype, fun other hother hin => ?_⟩
            rcases List.mem_append.mp hin with hin | hin
            · exact hmax other hother hin
            · exact le_trans (hmax' other hother hin) (not_lt.mp hnewer)

/-- Going through the types one by one finds the newest row of all of them. -/
theorem isLatest_foldl
    (hrows : rows.Pairwise fun record later => record.sequenceNumber < later.sequenceNumber)
    (types : List String) {visited : List String} {latest : Option LedgerRecord}
    (h : IsLatest visited rows latest) :
    IsLatest (visited ++ types) rows
      (types.foldl (fun latest eventType => newer latest (newestOfType eventType rows)) latest) := by
  induction types generalizing visited latest with
  | nil => simpa using h
  | cons eventType types ih =>
      rw [List.foldl_cons, List.append_cons]
      exact ih (isLatest_newer h (isLatest_newestOfType hrows eventType))

theorem isLatest_congr {types types' : List String} {latest : Option LedgerRecord}
    (hmem : ∀ eventType, eventType ∈ types ↔ eventType ∈ types') (h : IsLatest types rows latest) :
    IsLatest types' rows latest := by
  cases latest with
  | none => exact fun record hrecord htype => h record hrecord ((hmem _).mpr htype)
  | some latest =>
      obtain ⟨hin, htype, hmax⟩ := h
      exact ⟨hin, (hmem _).mp htype, fun record hrecord hother =>
        hmax record hrecord ((hmem _).mpr hother)⟩

/-- **The record found is the newest of the requested types.** -/
theorem isLatest_latestRecordOfTypes
    (hrows : rows.Pairwise fun record later => record.sequenceNumber < later.sequenceNumber)
    (eventTypes : List String) :
    IsLatest eventTypes rows (latestRecordOfTypes eventTypes rows) := by
  have hnone : IsLatest [] rows none := fun _ _ => List.not_mem_nil
  refine isLatest_congr (fun eventType => ?_) (isLatest_foldl hrows _ hnone)
  rw [List.nil_append, List.mem_insertionSort, List.mem_dedup]

end

/-! ## Every sequence of appends -/

section

variable {sha : Sha256} {limits : JsonValue.Limits}

/-- The rows form a chain, and the events appended are read back off them. -/
structure Recorded (sha : Sha256) (limits : JsonValue.Limits) (w : LedgerRows) : Prop where
  accepted : HashChain.Accepted (RowVerified sha (readEnvelope limits)) ChainState.next
    (1, genesisPrevHash) w.rows
  decoded : eventsFromRecords limits w.rows = .ok (w.appended.map Event.decoded)

theorem recorded_empty : Recorded sha limits .empty := ⟨trivial, rfl⟩

/-- A step that fails leaves everything, one that succeeds adds the next row. -/
theorem appendStep_cases (sha : Sha256) (limits : JsonValue.Limits) (w : LedgerRows)
    (op : AppendOp) :
    (∃ e, appendStep sha limits w op = (.error e, w)) ∨
      op.event.event.envelope.serialises limits limits.depth = true ∧
        appendStep sha limits w op =
          (.ok (nextRecord sha op.env.createdAt op.event.event w.rows).sequenceNumber,
            ⟨w.rows ++ [nextRecord sha op.env.createdAt op.event.event w.rows],
              w.appended ++ [op.event.event]⟩) := by
  unfold appendStep
  rcases append_cases sha limits op.env op.event.event w.rows with ⟨e, h⟩ | ⟨hserialises, h⟩
  · rw [h]
    exact .inl ⟨e, rfl⟩
  · rw [h]
    exact .inr ⟨hserialises, rfl⟩

/-- A step keeps the chain and the events read back. -/
theorem recorded_step (w : LedgerRows) (op : AppendOp) (h : Recorded sha limits w) :
    Recorded sha limits (appendStep sha limits w op).2 := by
  rcases appendStep_cases sha limits w op with ⟨e, hstep⟩ | ⟨hserialises, hstep⟩
  · rw [hstep]
    exact h
  · rw [hstep]
    refine ⟨?_, ?_⟩
    · exact HashChain.accepted_concat.mpr ⟨h.accepted,
        rowVerified_nextRecord _ op.event.distinct hserialises fun last hlast =>
          last_sequenceNumber h.accepted hlast⟩
    · have hread : eventsFromRecords limits
          [nextRecord sha op.env.createdAt op.event.event w.rows] =
            .ok [op.event.event.decoded] := by
        rw [eventsFromRecords, List.mapM_cons,
          eventFromRecord_nextRecord _ op.event.distinct hserialises]
        rfl
      have hold := h.decoded
      rw [eventsFromRecords] at hread hold ⊢
      rw [List.mapM_append, hold, hread, List.map_append]
      rfl

/-- **The chain after every step.**  Whatever the appends are and whichever of them fail, after each
the rows are numbered without gaps and verify, a failed append has changed nothing, the rows decode
to the events whose append succeeded, in order, and the newest record of any types is found. -/
theorem appends_keep_chain (sha : Sha256) (limits : JsonValue.Limits) (ops : List AppendOp)
    (op : AppendOp) :
    ChainKept sha limits
      (transition (appendStep sha limits) (run (appendStep sha limits) .empty ops) op) := by
  have hpre : Recorded sha limits (run (appendStep sha limits) .empty ops) :=
    run_invariant recorded_step recorded_empty ops
  have hpost := recorded_step _ op hpre
  refine ⟨?_, verifyChain_ok_iff.mpr hpost.accepted, ?_, ?_, hpost.decoded, ?_⟩
  · intro i hi
    rw [add_comm]
    exact sequenceNumber_of_accepted hpost.accepted i hi
  · intro e herror
    rcases appendStep_cases sha limits (run (appendStep sha limits) .empty ops) op with
      ⟨e', hstep⟩ | ⟨-, hstep⟩
    · simp only [transition, hstep, and_self]
    · simp only [transition, hstep, reduceCtorEq] at herror
  · intro n hok
    rcases appendStep_cases sha limits (run (appendStep sha limits) .empty ops) op with
      ⟨e', hstep⟩ | ⟨-, hstep⟩
    · simp only [transition, hstep, reduceCtorEq] at hok
    · simp only [transition, hstep]
  · exact isLatest_latestRecordOfTypes (increasing_of_accepted hpost.accepted)

end

end Windbreak
