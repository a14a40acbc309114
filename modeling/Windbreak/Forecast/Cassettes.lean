import Windbreak.Core.Hex
import Windbreak.Core.JsonCanonical
import Windbreak.Core.JsonIndented
import Windbreak.Core.Runs
import Windbreak.Forecast.Providers

/-!
# Recorded completions

`RecordingCassette` writes every completion of a run to one document, under the hash of its request;
`ReplayCassette` serves what the document holds under a request's hash.

* **Writing** — `recordStep` rewrites the whole document after each call.
* **Reading** — `loadRecordedCompletions` reads it back; `load_document`: the document of some
  entries reads as those entries, the surrogates of their texts joined.
* **A run** — `entries_get?`: what is kept of a run is the last completion of each request hash;
  `replays_iff`: the run replays exactly when nothing was lost by that.
-/

namespace Windbreak.Cassettes

open JsonValue Machine

/-- A text: code points, unpaired surrogates included. -/
abbrev Text := {s : CodePoints // ∀ n ∈ s, n < 1114112}

/-- A completion request. -/
structure LlmRequest where
  provider : Text
  modelVersion : Text
  prompt : Text
  deriving DecidableEq

/-- A completion: its text and the tokens its provider reports. -/
structure Completion where
  text : Text
  usage : Option TokenUsage
  deriving DecidableEq

/-- A call of a transport: the request and the completion it returned. -/
abbrev Call := LlmRequest × Completion

/-- What the interpreter allows: an entry of the document nests three levels. -/
structure Interpreter where
  limits : Limits
  depth_enough : 3 ≤ limits.depth

/-! ## Writing -/

/-- The fields of a request, as they are hashed and recorded. -/
def LlmRequest.toJson (request : LlmRequest) : JsonValue :=
  .obj [(codes "provider", .str request.provider.1),
    (codes "model_version", .str request.modelVersion.1), (codes "prompt", .str request.prompt.1)]

/-- `request_hash` -/
def LlmRequest.requestHash (sha256 : Bytes → Bytes) (request : LlmRequest) : CodePoints :=
  codes (Hex.hex (sha256 (String.ofList (dumps request.toJson)).toUTF8.data.toList))

/-- The `usage` block of an entry. -/
def usageJson (usage : TokenUsage) : JsonValue :=
  .obj [(codes "input_tokens", .int usage.inputTokens),
    (codes "output_tokens", .int usage.outputTokens)]

/-- The fields of one entry of the document: an unreported usage has none. -/
def entryFields (call : Call) : List (CodePoints × JsonValue) :=
  [(codes "request", call.1.toJson), (codes "response", .str call.2.text.1)] ++
    (call.2.usage.map fun usage => (codes "usage", usageJson usage)).toList

/-- The whole document. -/
def document (entries : OrderedDict CodePoints Call) : JsonValue :=
  .obj (entries.items.map fun entry => (entry.1, .obj (entryFields entry.2)))

/-- The recorder: the calls it keeps, and the text of its file once there is one. -/
structure RecordingCassette where
  entries : OrderedDict CodePoints Call
  file : Option String

/-- A recorder of no calls. -/
def RecordingCassette.new : RecordingCassette := ⟨.empty, none⟩

section

variable (sha256 : Bytes → Bytes) (py : Interpreter)

/-- `RecordingCassette.complete`: the call is kept, and the document rewritten; an integer of too
many digits cannot be written. -/
def recordStep (s : RecordingCassette) (call : Call) :
    Except LoadsError Completion × RecordingCassette :=
  let entries := s.entries.set (call.1.requestHash sha256) call
  if (document entries).writable py.limits py.limits.depth then
    (.ok call.2, ⟨entries, some (String.ofList (dumpsIndented 0 (document entries) ++ ['\n']))⟩)
  else (.error .digits, { s with entries })

/-- The recorder after a run. -/
def recorded (calls : List Call) : RecordingCassette := run (recordStep sha256 py) .new calls

end

/-! ## Reading -/

/-- Why a recorded document is refused. -/
inductive ReadError where
  | loads (error : LoadsError)
  | floatLeaf (raw : String)
  | notAnObject
  | entryNotAnObject (key : CodePoints)
  | noResponse (key : CodePoints)
  | nonObjectUsage (key : CodePoints)
  | nonIntegerCount (key : CodePoints) (tokenKey : String)
  | negativeCount (tokenKey : String)
  deriving DecidableEq, Repr

mutual

/-- The first float among the leaves of a value. -/
def firstFloat : JsonValue → Option String
  | .float literal =>
    if literal = "NaN" ∨ literal = "Infinity" ∨ literal = "-Infinity" then none else some literal
  | .arr items => firstFloatItems items
  | .obj fields => firstFloatFields fields
  | .null | .bool _ | .int _ | .str _ => none

def firstFloatItems : List JsonValue → Option String
  | [] => none
  | v :: vs => (firstFloat v).or (firstFloatItems vs)

def firstFloatFields : List (CodePoints × JsonValue) → Option String
  | [] => none
  | (_, v) :: fields => (firstFloat v).or (firstFloatFields fields)

end

/-- One token count of a `usage` block. -/
def recordedCount (key : CodePoints) (raw : List (CodePoints × JsonValue)) (tokenKey : String) :
    Except ReadError ℤ :=
  match lookup tokenKey raw with
  | some (.int value) => .ok value
  | _ => .error (.nonIntegerCount key tokenKey)

/-- `TokenUsage.__post_init__` -/
def tokenUsage (inputTokens outputTokens : ℤ) : Except ReadError TokenUsage :=
  if hinput : 0 ≤ inputTokens then
    if houtput : 0 ≤ outputTokens then .ok ⟨inputTokens, outputTokens, hinput, houtput⟩
    else .error (.negativeCount "output_tokens")
  else .error (.negativeCount "input_tokens")

/-- `_recorded_usage` -/
def recordedUsage (entry : List (CodePoints × JsonValue)) (key : CodePoints) :
    Except ReadError (Option TokenUsage) :=
  match lookup "usage" entry with
  | none | some .null => .ok none
  | some (.obj raw) => do
    let inputTokens ← recordedCount key raw "input_tokens"
    let outputTokens ← recordedCount key raw "output_tokens"
    return some (← tokenUsage inputTokens outputTokens)
  | some _ => .error (.nonObjectUsage key)

/-- The completion under a key, its text not yet known to be one. -/
abbrev ReadCompletion := CodePoints × Option TokenUsage

/-- `_completion_from_entry` -/
def completionFromEntry (entry : JsonValue) (key : CodePoints) : Except ReadError ReadCompletion :=
  match entry with
  | .obj fields =>
    match lookup "response" fields with
    | some (.str text) => (recordedUsage fields key).map fun usage => (text, usage)
    | _ => .error (.noResponse key)
  | _ => .error (.entryNotAnObject key)

/-- The completions of the entries, in their order. -/
def completionsOf : List (CodePoints × JsonValue) →
    Except ReadError (List (CodePoints × ReadCompletion))
  | [] => .ok []
  | (key, entry) :: rest => do
    let completion ← completionFromEntry entry key
    let others ← completionsOf rest
    return (key, completion) :: others

/-- The completions of a parsed document. -/
def recordedCompletions (raw : JsonValue) :
    Except ReadError (OrderedDict CodePoints ReadCompletion) :=
  match firstFloat raw, raw with
  | some literal, _ => .error (.floatLeaf literal)
  | none, .obj fields => (completionsOf fields).map .ofList
  | none, _ => .error .notAnObject

/-- `load_recorded_completions`, from the text of the file. A float under a key that comes again is
not seen. -/
def loadRecordedCompletions (py : Interpreter) (text : String) :
    Except ReadError (OrderedDict CodePoints ReadCompletion) :=
  ((loads py.limits text).mapError .loads).bind recordedCompletions

/-- `CassetteMissError`, naming the hash that was not recorded. -/
structure CassetteMiss where
  key : CodePoints
  deriving DecidableEq, Repr

/-- `ReplayCassette.complete` -/
def replayComplete (sha256 : Bytes → Bytes) (entries : OrderedDict CodePoints ReadCompletion)
    (request : LlmRequest) : Except CassetteMiss ReadCompletion :=
  match entries.get? (request.requestHash sha256) with
  | some completion => .ok completion
  | none => .error ⟨request.requestHash sha256⟩

/-! ## Reading the document of some entries -/

/-- The counts of a usage can be written. -/
def CountsFit (py : Interpreter) (usage : TokenUsage) : Prop :=
  (Nat.toDigits 10 usage.inputTokens.natAbs).length ≤ py.limits.digits ∧
    (Nat.toDigits 10 usage.outputTokens.natAbs).length ≤ py.limits.digits

/-- What is read of a call. -/
def readCall (call : Call) : ReadCompletion := (joined call.2.text.1, call.2.usage)

variable {sha256 : Bytes → Bytes} {py : Interpreter}

theorem keys_entryFields (call : Call) : ((entryFields call).map Prod.fst).Nodup := by
  unfold entryFields
  cases call.2.usage with
  | none =>
      have hkeys : [codes "request", codes "response"].Nodup := by decide
      exact hkeys
  | some usage =>
      have hkeys : [codes "request", codes "response", codes "usage"].Nodup := by decide
      exact hkeys

theorem keys_usageJson (usage : TokenUsage) :
    ([(codes "input_tokens", JsonValue.int usage.inputTokens),
      (codes "output_tokens", JsonValue.int usage.outputTokens)].map Prod.fst).Nodup := by
  have hkeys : [codes "input_tokens", codes "output_tokens"].Nodup := by decide
  exact hkeys

/-- **A usage block reads as the usage.** -/
theorem recordedUsage_entry (call : Call) (key : CodePoints) :
    recordedUsage (sortKeys (readBackFields (entryFields call))) key = .ok call.2.usage := by
  unfold recordedUsage lookup
  rw [lookup_readBack (keys_entryFields call)]
  unfold entryFields
  cases husage : call.2.usage with
  | none => rfl
  | some usage =>
      have hblock : (([(codes "request", call.1.toJson),
          (codes "response", JsonValue.str call.2.text.1)] ++
            ((some usage).map fun usage => (codes "usage", usageJson usage)).toList).lookup
              (codes "usage")).map readBack = some (readBack (usageJson usage)) := rfl
      have hcount : ∀ tokenKey value,
          ([(codes "input_tokens", JsonValue.int usage.inputTokens),
            (codes "output_tokens", JsonValue.int usage.outputTokens)]).lookup (codes tokenKey) =
              some (.int value) →
          recordedCount key (sortKeys (readBackFields
            [(codes "input_tokens", JsonValue.int usage.inputTokens),
              (codes "output_tokens", JsonValue.int usage.outputTokens)])) tokenKey = .ok value := by
        intro tokenKey value hvalue
        unfold recordedCount lookup
        rw [lookup_readBack (keys_usageJson usage), hvalue]
        rfl
      rw [hblock, usageJson, readBack]
      dsimp only
      rw [hcount "input_tokens" usage.inputTokens rfl,
        hcount "output_tokens" usage.outputTokens rfl]
      change (tokenUsage usage.inputTokens usage.outputTokens).bind _ = _
      unfold tokenUsage
      rw [dif_pos usage.input_nonneg, dif_pos usage.output_nonneg]
      rfl

/-- **An entry reads as its completion**, the surrogates of its text joined. -/
theorem completionFromEntry_entry (call : Call) (key : CodePoints) :
    completionFromEntry (readBack (.obj (entryFields call))) key = .ok (readCall call) := by
  have hresponse : lookup "response" (sortKeys (readBackFields (entryFields call))) =
      some (.str (joined call.2.text.1)) := by
    unfold lookup
    rw [lookup_readBack (keys_entryFields call)]
    rfl
  rw [readBack, completionFromEntry, hresponse]
  dsimp only
  rw [recordedUsage_entry]
  rfl

theorem completionsOf_map (calls : List (CodePoints × Call)) :
    completionsOf (calls.map fun entry => (entry.1, readBack (.obj (entryFields entry.2)))) =
      .ok (calls.map fun entry => (entry.1, readCall entry.2)) := by
  induction calls with
  | nil => rfl
  | cons entry calls ih =>
      rw [List.map_cons, completionsOf, completionFromEntry_entry, ih]
      rfl

/-! Nothing that is read back holds a float. -/

theorem firstFloatFields_eq_none {fields : List (CodePoints × JsonValue)}
    (h : ∀ f ∈ fields, firstFloat f.2 = none) : firstFloatFields fields = none := by
  induction fields with
  | nil => rfl
  | cons f fields ih =>
      obtain ⟨k, v⟩ := f
      rw [firstFloatFields, h (k, v) (.head _), ih fun g hg => h g (.tail _ hg)]
      rfl

theorem firstFloatItems_eq_none {items : List JsonValue} (h : ∀ v ∈ items, firstFloat v = none) :
    firstFloatItems items = none := by
  induction items with
  | nil => rfl
  | cons v items ih =>
      rw [firstFloatItems, h v (.head _), ih fun u hu => h u (.tail _ hu)]
      rfl

theorem firstFloat_readBack {depth : ℕ} {v : JsonValue} (h : ReadsBack py.limits depth v) :
    firstFloat (readBack v) = none := by
  induction h with
  | null depth => rfl
  | bool depth b => rfl
  | int depth i hdigits => rfl
  | str depth s hcodes => rfl
  | arr depth items hitems ih =>
      rw [readBack, firstFloat, readBackItems_eq]
      refine firstFloatItems_eq_none fun u hu => ?_
      obtain ⟨v, hv, rfl⟩ := List.mem_map.mp hu
      exact ih v hv
  | obj depth fields hkeys hsound hfields ih =>
      rw [readBack, firstFloat, readBackFields_eq]
      refine firstFloatFields_eq_none fun g hg => ?_
      obtain ⟨f, hf, rfl⟩ := List.mem_map.mp ((sortKeys_perm _).mem_iff.mp hg)
      exact ih f hf

/-! ## The document of some entries -/

/-- Entries kept under the hashes of their requests. -/
def Keyed (sha256 : Bytes → Bytes) (entries : OrderedDict CodePoints Call) : Prop :=
  ∀ entry ∈ entries.items, entry.1 = entry.2.1.requestHash sha256

theorem toJson_readsBack (request : LlmRequest) (depth : ℕ) :
    ReadsBack py.limits (depth + 1) request.toJson := by
  have hkeys : [codes "provider", codes "model_version", codes "prompt"].Nodup := by decide
  refine .obj depth _ hkeys ?_ ?_
  · simp only [List.forall_mem_cons]
    exact ⟨Json.sound_codes _, Json.sound_codes _, Json.sound_codes _, fun f hf =>
      absurd hf List.not_mem_nil⟩
  · simp only [List.forall_mem_cons]
    exact ⟨.str depth _ request.provider.2, .str depth _ request.modelVersion.2,
      .str depth _ request.prompt.2, fun f hf => absurd hf List.not_mem_nil⟩

theorem usageJson_readsBack {usage : TokenUsage} (h : CountsFit py usage) (depth : ℕ) :
    ReadsBack py.limits (depth + 1) (usageJson usage) := by
  refine .obj depth _ (keys_usageJson usage) ?_ ?_
  · simp only [List.forall_mem_cons]
    exact ⟨Json.sound_codes _, Json.sound_codes _, fun f hf => absurd hf List.not_mem_nil⟩
  · simp only [List.forall_mem_cons]
    exact ⟨.int depth _ h.1, .int depth _ h.2, fun f hf => absurd hf List.not_mem_nil⟩

/-- The fields of an entry, one by one. -/
theorem forall_entryFields {P : CodePoints × JsonValue → Prop} (call : Call) :
    (∀ f ∈ entryFields call, P f) ↔ P (codes "request", call.1.toJson) ∧
      P (codes "response", .str call.2.text.1) ∧
      ∀ usage ∈ call.2.usage, P (codes "usage", usageJson usage) := by
  unfold entryFields
  rw [List.forall_mem_append, List.forall_mem_cons, List.forall_mem_singleton, and_assoc]
  cases call.2.usage with
  | none => simp
  | some usage => simp

theorem entry_readsBack {call : Call} (h : ∀ usage ∈ call.2.usage, CountsFit py usage)
    (depth : ℕ) : ReadsBack py.limits (depth + 2) (.obj (entryFields call)) := by
  refine .obj (depth + 1) _ (keys_entryFields call) ?_ ?_
  · rw [forall_entryFields]
    exact ⟨Json.sound_codes _, Json.sound_codes _, fun _ _ => Json.sound_codes _⟩
  · rw [forall_entryFields]
    exact ⟨toJson_readsBack call.1 depth, .str _ _ call.2.text.2,
      fun usage husage => usageJson_readsBack (h usage husage) depth⟩

theorem Interpreter.depth_eq (py : Interpreter) : ∃ depth, py.limits.depth = depth + 3 :=
  ⟨py.limits.depth - 3, (Nat.sub_add_cancel py.depth_enough).symm⟩

theorem document_readsBack {entries : OrderedDict CodePoints Call} (hkeyed : Keyed sha256 entries)
    (h : ∀ entry ∈ entries.items, ∀ usage ∈ entry.2.2.usage, CountsFit py usage) :
    ReadsBack py.limits py.limits.depth (document entries) := by
  obtain ⟨depth, hdepth⟩ := py.depth_eq
  rw [hdepth]
  refine .obj (depth + 2) _ ?_ ?_ ?_
  · rw [List.map_map]
    exact entries.nodup
  · intro f hf
    obtain ⟨entry, hentry, rfl⟩ := List.mem_map.mp hf
    dsimp only
    rw [hkeyed entry hentry]
    exact Json.sound_codes _
  · intro f hf
    obtain ⟨entry, hentry, rfl⟩ := List.mem_map.mp hf
    exact entry_readsBack (h entry hentry) depth

/-- An entry is written when its counts can be. -/
theorem entry_writable_iff (call : Call) (depth : ℕ) :
    (JsonValue.obj (entryFields call)).writable py.limits (depth + 2) = true ↔
      ∀ usage ∈ call.2.usage, CountsFit py usage := by
  have husage : ∀ usage, (usageJson usage).writable py.limits (depth + 1) = true ↔
      CountsFit py usage := by
    intro usage
    rw [usageJson, writable, Bool.and_eq_true, writableFields_iff, List.forall_mem_cons,
      List.forall_mem_singleton]
    refine (and_iff_right (decide_eq_true (Nat.succ_ne_zero depth))).trans ?_
    dsimp only
    rw [writable, writable, decide_eq_true_eq, decide_eq_true_eq]
    rfl
  have hrequest : call.1.toJson.writable py.limits (depth + 1) = true := by
    rw [LlmRequest.toJson, writable, Bool.and_eq_true, writableFields_iff]
    refine ⟨decide_eq_true (Nat.succ_ne_zero depth), ?_⟩
    simp only [List.forall_mem_cons]
    exact ⟨rfl, rfl, rfl, fun f hf => absurd hf List.not_mem_nil⟩
  rw [writable, Bool.and_eq_true, writableFields_iff, forall_entryFields]
  constructor
  · rintro ⟨-, -, -, h⟩ usage hmem
    exact (husage usage).mp (h usage hmem)
  · intro h
    exact ⟨decide_eq_true (Nat.succ_ne_zero _), hrequest, rfl,
      fun usage hmem => (husage usage).mpr (h usage hmem)⟩

/-- **The document is written** when the counts of its entries can be. -/
theorem document_writable_iff (entries : OrderedDict CodePoints Call) :
    (document entries).writable py.limits py.limits.depth = true ↔
      ∀ entry ∈ entries.items, ∀ usage ∈ entry.2.2.usage, CountsFit py usage := by
  obtain ⟨depth, hdepth⟩ := py.depth_eq
  rw [hdepth, document, writable, Bool.and_eq_true, writableFields_iff]
  constructor
  · rintro ⟨-, h⟩ entry hentry
    exact (entry_writable_iff entry.2 depth).mp (h _ (List.mem_map_of_mem hentry))
  · intro h
    refine ⟨decide_eq_true (Nat.succ_ne_zero _), fun f hf => ?_⟩
    obtain ⟨entry, hentry, rfl⟩ := List.mem_map.mp hf
    exact (entry_writable_iff entry.2 depth).mpr (h entry hentry)

/-- **The document of some entries reads as those entries**, the surrogates of their texts
joined. -/
theorem load_document {entries : OrderedDict CodePoints Call} (hkeyed : Keyed sha256 entries)
    (h : ∀ entry ∈ entries.items, ∀ usage ∈ entry.2.2.usage, CountsFit py usage) :
    ∃ read, loadRecordedCompletions py
        (String.ofList (dumpsIndented 0 (document entries) ++ ['\n'])) = .ok read ∧
      ∀ key, read.get? key = (entries.get? key).map readCall := by
  have hreads := document_readsBack hkeyed h
  have hfields : readBack (document entries) =
      .obj ((sortKeys entries.items).map fun entry =>
        (entry.1, readBack (.obj (entryFields entry.2)))) := by
    rw [document, readBack, readBackFields_eq, List.map_map]
    exact congrArg obj (sortKeys_map (fun call => readBack (.obj (entryFields call))) entries.items)
  have hkeys : (((sortKeys entries.items).map fun entry =>
      (entry.1, readCall entry.2)).map Prod.fst).Nodup := by
    rw [List.map_map]
    exact ((sortKeys_perm entries.items).map Prod.fst).nodup_iff.mpr entries.nodup
  refine ⟨.ofList ((sortKeys entries.items).map fun entry => (entry.1, readCall entry.2)), ?_, ?_⟩
  · unfold loadRecordedCompletions
    rw [show document entries = .obj _ from rfl, loads_dumpsIndented hreads, ← document]
    change recordedCompletions (readBack (document entries)) = _
    unfold recordedCompletions
    rw [firstFloat_readBack hreads, hfields]
    dsimp only
    rw [completionsOf_map]
    rfl
  · intro key
    rw [← OrderedDict.get?_mapValues]
    refine OrderedDict.get?_eq_of_perm ?_ key
    rw [OrderedDict.items_ofList hkeys]
    exact (sortKeys_perm entries.items).map _

/-! ## What a run keeps -/

/-- The entries after a run. -/
def kept (sha256 : Bytes → Bytes) (entries : OrderedDict CodePoints Call) (calls : List Call) :
    OrderedDict CodePoints Call :=
  calls.foldl (fun entries call => entries.set (call.1.requestHash sha256) call) entries

/-- A kept call is one of the run, under its own hash. -/
theorem mem_of_kept {entries : OrderedDict CodePoints Call} {calls : List Call} {key : CodePoints}
    {call : Call} (h : (kept sha256 entries calls).get? key = some call) :
    (call ∈ calls ∧ call.1.requestHash sha256 = key) ∨ entries.get? key = some call := by
  induction calls generalizing entries with
  | nil => exact .inr h
  | cons first calls ih =>
      rcases ih h with ⟨hmem, hkey⟩ | hset
      · exact .inl ⟨.tail _ hmem, hkey⟩
      · rw [OrderedDict.get?_set] at hset
        by_cases hkey : key = first.1.requestHash sha256
        · rw [if_pos hkey] at hset
          rw [← Option.some.inj hset]
          exact .inl ⟨.head _, hkey.symm⟩
        · rw [if_neg hkey] at hset
          exact .inr hset

/-- What is kept under a hash stays kept, or another call of the run takes its place. -/
theorem kept_isSome {entries : OrderedDict CodePoints Call} {calls : List Call} {key : CodePoints}
    (h : (entries.get? key).isSome ∨ ∃ call ∈ calls, call.1.requestHash sha256 = key) :
    ∃ call, (kept sha256 entries calls).get? key = some call := by
  induction calls generalizing entries with
  | nil =>
      rcases h with h | ⟨call, hcall, -⟩
      · exact Option.isSome_iff_exists.mp h
      · exact absurd hcall List.not_mem_nil
  | cons first calls ih =>
      refine ih ?_
      rw [OrderedDict.get?_set]
      by_cases hkey : key = first.1.requestHash sha256
      · rw [if_pos hkey]
        exact .inl rfl
      · rw [if_neg hkey]
        refine h.imp_right ?_
        rintro ⟨call, hcall, hhash⟩
        rcases List.mem_cons.mp hcall with rfl | hcall
        · exact absurd hhash.symm hkey
        · exact ⟨call, hcall, hhash⟩

theorem keyed_of_get? {entries : OrderedDict CodePoints Call}
    (h : ∀ key call, entries.get? key = some call → call.1.requestHash sha256 = key) :
    Keyed sha256 entries := by
  rintro ⟨key, call⟩ hmem
  exact (h key call (OrderedDict.mem_items_iff.mp hmem)).symm

variable (sha256) (py)

theorem recordStep_entries (s : RecordingCassette) (call : Call) :
    (recordStep sha256 py s call).2.entries =
      s.entries.set (call.1.requestHash sha256) call := by
  unfold recordStep
  dsimp only
  split <;> rfl

theorem run_entries (s : RecordingCassette) (calls : List Call) :
    (run (recordStep sha256 py) s calls).entries = kept sha256 s.entries calls := by
  induction calls generalizing s with
  | nil => rfl
  | cons call calls ih =>
      rw [run_cons, ih, recordStep_entries]
      rfl

variable {sha256} {py}

/-- The text of a document. -/
def documentText (entries : OrderedDict CodePoints Call) : String :=
  String.ofList (dumpsIndented 0 (document entries) ++ ['\n'])

theorem recordStep_of_writable {s : RecordingCassette} {call : Call}
    (h : (document (s.entries.set (call.1.requestHash sha256) call)).writable py.limits
      py.limits.depth = true) :
    recordStep sha256 py s call = (.ok call.2, ⟨s.entries.set (call.1.requestHash sha256) call,
      some (documentText (s.entries.set (call.1.requestHash sha256) call))⟩) := if_pos h

/-- **A completion is handed through** exactly when the document is written. -/
theorem recordStep_ok_iff {s : RecordingCassette} {call : Call} :
    (recordStep sha256 py s call).1 = .ok call.2 ↔
      (document (s.entries.set (call.1.requestHash sha256) call)).writable py.limits
        py.limits.depth = true := by
  constructor
  · intro hok
    by_contra hwritable
    have herror : recordStep sha256 py s call = (.error .digits, _) := if_neg hwritable
    rw [herror] at hok
    cases hok
  · intro hwritable
    rw [recordStep_of_writable hwritable]

/-- The counts of a run's usages can be written. -/
def RunFits (py : Interpreter) (calls : List Call) : Prop :=
  ∀ call ∈ calls, ∀ usage ∈ call.2.usage, CountsFit py usage

theorem kept_fits {calls : List Call} (h : RunFits py calls) :
    ∀ entry ∈ (kept sha256 .empty calls).items, ∀ usage ∈ entry.2.2.usage,
      CountsFit py usage := by
  rintro ⟨key, call⟩ hmem
  rcases mem_of_kept (OrderedDict.mem_items_iff.mp hmem) with ⟨hcall, -⟩ | hempty
  · exact h call hcall
  · cases hempty

theorem kept_keyed (sha256 : Bytes → Bytes) (calls : List Call) :
    Keyed sha256 (kept sha256 .empty calls) := by
  refine keyed_of_get? fun key call hget => ?_
  rcases mem_of_kept hget with ⟨-, hkey⟩ | hempty
  · exact hkey
  · cases hempty

/-- The document after a call is written when every count so far can be. -/
theorem writable_of_fits {before : List Call} {call : Call} (h : RunFits py (before ++ [call])) :
    (document ((recorded sha256 py before).entries.set (call.1.requestHash sha256) call)).writable
      py.limits py.limits.depth = true := by
  have hentries : (recorded sha256 py before).entries.set (call.1.requestHash sha256) call =
      kept sha256 .empty (before ++ [call]) := by
    rw [recorded, run_entries, kept, kept, List.foldl_append]
    rfl
  rw [hentries, document_writable_iff]
  exact kept_fits h

/-- **Every completion of a run is handed through** exactly when its counts can be written. -/
theorem handed_iff (calls : List Call) :
    (∀ t ∈ trace (recordStep sha256 py) .new calls, t.output = .ok t.input.2) ↔
      RunFits py calls := by
  constructor
  · intro h call hcall
    obtain ⟨before, after, rfl⟩ := List.append_of_mem hcall
    have hok := h (transition (recordStep sha256 py) (recorded sha256 py before) call)
      (mem_trace.mpr ⟨before, after, rfl, rfl⟩)
    have hwritable := recordStep_ok_iff.mp hok
    rw [document_writable_iff] at hwritable
    exact hwritable (_, call) (OrderedDict.mem_items_iff.mpr (OrderedDict.get?_set_self _ _ _))
  · intro h t ht
    obtain ⟨before, after, hsplit, htransition⟩ := mem_trace.mp ht
    rw [htransition]
    refine recordStep_ok_iff.mpr (writable_of_fits fun call hcall => h call ?_)
    rw [hsplit]
    rcases List.mem_append.mp hcall with hcall | hcall
    · exact List.mem_append_left _ hcall
    · rw [List.mem_singleton.mp hcall]
      exact List.mem_append_right _ List.mem_cons_self

/-- **The file after a run** holds the document of what is kept. -/
theorem recorded_file {calls : List Call} (hmade : calls ≠ []) (h : RunFits py calls) :
    (recorded sha256 py calls).file = some (documentText (kept sha256 .empty calls)) := by
  rcases List.eq_nil_or_concat' calls with rfl | ⟨before, call, rfl⟩
  · exact absurd rfl hmade
  · have hstep : recorded sha256 py (before ++ [call]) =
        (recordStep sha256 py (recorded sha256 py before) call).2 := run_append ..
    rw [hstep, recordStep_of_writable (writable_of_fits h), recorded, run_entries, kept, kept,
      List.foldl_append]
    rfl

/-! ## Replaying a run -/

/-- **A recorded run replays exactly**: the recorder hands every completion through; its file is
read; the same requests are answered with the same completions, at the same cost; and a request
that was not recorded is a miss. -/
structure Replays (sha256 : Bytes → Bytes) (py : Interpreter) (calls : List Call) : Prop where
  handed : ∀ t ∈ trace (recordStep sha256 py) .new calls, t.output = .ok t.input.2
  replayed : ∃ text entries, (recorded sha256 py calls).file = some text ∧
    loadRecordedCompletions py text = .ok entries ∧
    (∀ call ∈ calls, replayComplete sha256 entries call.1 = .ok (call.2.text.1, call.2.usage)) ∧
    (∀ (table : ModelRateTable) (name : Text → String), ∀ call ∈ calls,
      (replayComplete sha256 entries call.1).map
          (fun answer => table.microsFor (name call.1.modelVersion) answer.2) =
        .ok (table.microsFor (name call.1.modelVersion) call.2.usage)) ∧
    ∀ request, request ∉ calls.map Prod.fst →
      replayComplete sha256 entries request = .error ⟨request.requestHash sha256⟩

/-- **What a run must be to replay**: it calls at least once; its counts can be written; none of its
texts has a high surrogate before a low one; requests of one hash were answered alike; and its
hashes are the hashes of no other request. -/
structure Replayable (sha256 : Bytes → Bytes) (py : Interpreter) (calls : List Call) : Prop where
  made : calls ≠ []
  fits : RunFits py calls
  sound : ∀ call ∈ calls, Sound call.2.text.1
  repeated : ∀ a ∈ calls, ∀ b ∈ calls,
    a.1.requestHash sha256 = b.1.requestHash sha256 → a.2 = b.2
  apart : ∀ call ∈ calls, ∀ request : LlmRequest,
    request.requestHash sha256 = call.1.requestHash sha256 → request ∈ calls.map Prod.fst

/-- What a request is answered with after a run: the call kept under its hash. -/
theorem replayComplete_kept {entries : OrderedDict CodePoints ReadCompletion} {calls : List Call}
    (h : ∀ key, entries.get? key = ((kept sha256 .empty calls).get? key).map readCall)
    (request : LlmRequest) :
    (∃ call ∈ calls, call.1.requestHash sha256 = request.requestHash sha256 ∧
        replayComplete sha256 entries request = .ok (readCall call)) ∨
      (∀ call ∈ calls, call.1.requestHash sha256 ≠ request.requestHash sha256) ∧
        replayComplete sha256 entries request = .error ⟨request.requestHash sha256⟩ := by
  unfold replayComplete
  rw [h]
  cases hkept : (kept sha256 .empty calls).get? (request.requestHash sha256) with
  | some call =>
      rcases mem_of_kept hkept with ⟨hmem, hhash⟩ | hempty
      · exact .inl ⟨call, hmem, hhash, rfl⟩
      · cases hempty
  | none =>
      refine .inr ⟨fun call hcall hhash => ?_, rfl⟩
      have hsome : ∃ other, (kept sha256 .empty calls).get? (request.requestHash sha256) =
          some other := kept_isSome (.inr ⟨call, hcall, hhash⟩)
      obtain ⟨other, hother⟩ := hsome
      rw [hkept] at hother
      cases hother

theorem completion_ext {a b : Completion} (htext : a.text.1 = b.text.1)
    (husage : a.usage = b.usage) : a = b := by
  obtain ⟨atext, ausage⟩ := a
  obtain ⟨btext, busage⟩ := b
  rw [Completion.mk.injEq]
  exact ⟨Subtype.ext htext, husage⟩

/-- What a replayable run reads of a call is the call's own completion. -/
theorem Replayable.readCall_eq {calls : List Call} (h : Replayable sha256 py calls)
    {call other : Call} (hcall : call ∈ calls) (hother : other ∈ calls)
    (hhash : other.1.requestHash sha256 = call.1.requestHash sha256) :
    readCall other = (call.2.text.1, call.2.usage) := by
  rw [readCall, h.repeated other hother call hcall hhash,
    (joined_eq_iff call.2.text.2).mpr (h.sound call hcall)]

/-- **A run that replays** loses nothing by keeping one completion a hash. -/
theorem Replays.replayable {calls : List Call} (h : Replays sha256 py calls) :
    Replayable sha256 py calls := by
  obtain ⟨hhanded, text, entries, hfile, hload, hanswers, -, hmissed⟩ := h
  have hfits := (handed_iff calls).mp hhanded
  have hmade : calls ≠ [] := by
    rintro rfl
    cases hfile
  obtain ⟨entries', hload', hget⟩ := load_document (kept_keyed sha256 calls) (kept_fits hfits)
  rw [recorded_file hmade hfits] at hfile
  rw [← Option.some.inj hfile] at hload
  have hsame : entries = entries' := Except.ok.inj (hload.symm.trans hload')
  subst hsame
  have hrepeated : ∀ a ∈ calls, ∀ b ∈ calls,
      a.1.requestHash sha256 = b.1.requestHash sha256 → a.2 = b.2 := by
    intro a ha b hb hhash
    have hsameAnswer : replayComplete sha256 entries a.1 = replayComplete sha256 entries b.1 := by
      unfold replayComplete
      rw [hhash]
    rw [hanswers a ha, hanswers b hb] at hsameAnswer
    have hfields := Prod.mk.inj (Except.ok.inj hsameAnswer)
    exact completion_ext hfields.1 hfields.2
  refine ⟨hmade, hfits, ?_, hrepeated, ?_⟩
  · intro call hcall
    -- the call is answered with what was kept under its hash
    rcases replayComplete_kept hget call.1 with ⟨other, hother, hhash, hanswer⟩ | ⟨hnone, -⟩
    · rw [hanswers call hcall, readCall, hrepeated other hother call hcall hhash] at hanswer
      exact (joined_eq_iff call.2.text.2).mp (Prod.mk.inj (Except.ok.inj hanswer)).1.symm
    · exact absurd rfl (hnone call hcall)
  · intro call hcall request hhash
    by_contra hnot
    rcases replayComplete_kept hget request with ⟨other, -, -, hanswer⟩ | ⟨hnone, -⟩
    · rw [hmissed request hnot] at hanswer
      cases hanswer
    · exact hnone call hcall hhash.symm

/-- **A replayable run replays.** -/
theorem Replayable.replays {calls : List Call} (h : Replayable sha256 py calls) :
    Replays sha256 py calls := by
  have hread := load_document (kept_keyed sha256 calls) (kept_fits h.fits)
  obtain ⟨entries, hload, hget⟩ := hread
  have hanswers : ∀ call ∈ calls,
      replayComplete sha256 entries call.1 = .ok (call.2.text.1, call.2.usage) := by
    intro call hcall
    rcases replayComplete_kept hget call.1 with ⟨other, hother, hhash, hanswer⟩ | ⟨hnone, -⟩
    · rw [hanswer, h.readCall_eq hcall hother hhash]
    · exact absurd rfl (hnone call hcall)
  refine ⟨(handed_iff calls).mpr h.fits, _, entries, recorded_file h.made h.fits, hload, hanswers,
    fun table name call hcall => by rw [hanswers call hcall]; rfl, ?_⟩
  intro request hnot
  rcases replayComplete_kept hget request with ⟨other, hother, hhash, -⟩ | ⟨-, hmiss⟩
  · exact absurd (h.apart other hother request hhash.symm) hnot
  · exact hmiss

/-- **A recorded run replays exactly when nothing is lost by keeping one completion a hash.** -/
theorem replays_iff (sha256 : Bytes → Bytes) (py : Interpreter) (calls : List Call) :
    Replays sha256 py calls ↔ Replayable sha256 py calls :=
  ⟨Replays.replayable, Replayable.replays⟩

theorem codes_text (s : String) : ∀ n ∈ codes s, n < 1114112 := (Json.sound_codes s).1

/-- A text from a literal. -/
def text (s : String) : Text := ⟨codes s, codes_text s⟩

theorem three_le_default : 3 ≤ 1000 := by decide

/-- The interpreter's own limits. -/
def defaultInterpreter : Interpreter := ⟨⟨4300, 1000⟩, three_le_default⟩

/-- One request, retried: its first completion could not be used. -/
def retriedCalls : List Call :=
  let request : LlmRequest := ⟨text "openai", text "gpt-4o", text "Will it rain?"⟩
  [(request, ⟨text "not json", none⟩), (request, ⟨text "0.42", none⟩)]

theorem retried_not_replayed : ¬ Replays id defaultInterpreter retriedCalls := by
  intro h
  have hsame := h.replayable.repeated _ (.head _) _ (.tail _ (.head _)) rfl
  exact absurd hsame (by decide)

end Windbreak.Cassettes
