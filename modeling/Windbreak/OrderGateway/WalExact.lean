import Windbreak.OrderGateway.WalFormat

/-!
# Which journals are read exactly

Every line is of one of five kinds, told from its decoded object alone.  A line is refused, or it
makes the read raise something other than a `ValueError`, or it is returned, with fields of their
declared types or not.

* **`reads_lineKind`** — what a read makes of a line of each kind.
* **`exact_iff_clean`** — the files of which only typed records are returned and that raise nothing
  but a `ValueError`.
* **`wal_exact_iff`** — those files, and the appends that are read back.
-/

namespace Windbreak

open Effects Machine

/-! ## Kinds of lines -/

/-- What a line can be. -/
inductive LineKind where
  | refused
  | tooDeep
  | notInteger
  | illTyped
  | sound
  deriving DecidableEq, Repr

/-- Whether a read returns a record for the line. -/
def LineKind.returned : LineKind → Bool
  | .illTyped => true
  | .sound => true
  | _ => false

/-- An object with the fields of an acknowledgement. -/
def ackKind (obj : List (CodePoints × JsonValue)) : LineKind :=
  match JsonValue.field "filled" obj with
  | .int _ =>
    if (JsonValue.field "client_order_id" obj).isText &&
        ((JsonValue.field "order_id" obj).isText || (JsonValue.field "order_id" obj).isNull) then
      .sound
    else .illTyped
  | _ => .notInteger

section

variable (sha256 : HexDigest) (floatRepr : String → String) (limits : JsonValue.Limits)

/-- A payload with the fields of an intent, under an id. -/
def intentKind (coid : JsonValue) (payload : List (CodePoints × JsonValue)) : LineKind :=
  match JsonValue.field "price" payload, JsonValue.field "size" payload,
      JsonValue.field "max_notional" payload, JsonValue.field "implied_probability" payload with
  | .int price, .int size, .int maxNotional, .int impliedProbability =>
    let intent : JournalIntent :=
      { intentId := JsonValue.field "intent_id" payload
        marketTicker := JsonValue.field "market_ticker" payload
        outcome := JsonValue.field "outcome" payload
        action := JsonValue.field "action" payload
        price := ⟨price⟩
        size := ⟨size⟩
        maxNotional := ⟨maxNotional⟩
        impliedProbability := ⟨impliedProbability⟩
        idempotencyKey := JsonValue.field "idempotency_key" payload }
    if !coid.equalsText (intent.clientOrderId sha256 floatRepr) then .refused
    else if intent.typed then .sound
    else .illTyped
  | _, _, _, _ => .notInteger

/-- An object. -/
def objectKind (obj : List (CodePoints × JsonValue)) : LineKind :=
  if (JsonValue.field "kind" obj).equalsText "ack" && JsonValue.carries ackRecordFields obj then
    ackKind obj
  else if (JsonValue.field "kind" obj).equalsText "intent" &&
      JsonValue.carries intentRecordFields obj then
    match JsonValue.field "intent" obj with
    | .obj payload =>
      if JsonValue.carries intentPayloadFields payload then
        intentKind sha256 floatRepr (JsonValue.field "client_order_id" obj) payload
      else .refused
    | _ => .refused
  else .refused

/-- **The kind of a line.** -/
def lineKind (line : List Char) : LineKind :=
  match JsonValue.loads limits (String.ofList line) with
  | .error .depth => .tooDeep
  | .ok (.obj obj) => objectKind sha256 floatRepr obj
  | _ => .refused

/-- The kinds of the lines of a file, in order.  Bytes that are no text count as a refused line. -/
def WalFile.kinds : WalFile → List LineKind
  | .missing => []
  | .undecodable => [.refused]
  | .text content => (TextLines.splitLines content.toList).map (lineKind sha256 floatRepr limits)

/-- **A file that is read exactly**: all its records are returned, typed, and make an equivalent file
when they are written again; or the read raises a `ValueError`. -/
def WalFile.Exact (file : WalFile) : Prop :=
  (∃ records, file.readAll sha256 floatRepr limits = .ok records ∧
      (∀ record ∈ records, record.typed = true) ∧
      (journalFile records).readAll sha256 floatRepr limits = .ok records) ∨
    ∃ e, file.readAll sha256 floatRepr limits = .error e ∧ e.isValueError = true

end

/-- The first line that is not returned is refused; or all are returned, and sound. -/
def Clean (kinds : List LineKind) : Prop :=
  match kinds.find? fun kind => !kind.returned with
  | some kind => kind = .refused
  | none => ∀ kind ∈ kinds, kind = .sound

/-! ## One line -/

/-- What a read makes of a line of each kind. -/
def LineKind.Reads (result : Except WalReadError JournalRecord) : LineKind → Prop
  | .refused => ∃ e, result = .error e ∧ e.isValueError = true
  | .tooDeep => ∃ e, result = .error e ∧ e.isValueError = false
  | .notInteger => ∃ e, result = .error e ∧ e.isValueError = false
  | .illTyped => ∃ record, result = .ok record ∧ record.typed = false
  | .sound => ∃ record, result = .ok record ∧ record.typed = true

section

variable {sha256 : HexDigest} {floatRepr : String → String} {limits : JsonValue.Limits}

/-- A record that is returned is sound if its fields are typed. -/
theorem reads_typed (record : JournalRecord) :
    (if record.typed then LineKind.sound else .illTyped).Reads (.ok record) := by
  by_cases htyped : record.typed = true
  · rw [if_pos htyped]
    exact ⟨record, rfl, htyped⟩
  · rw [if_neg htyped]
    exact ⟨record, rfl, Bool.eq_false_iff.mpr htyped⟩

theorem reads_ackKind {obj : List (CodePoints × JsonValue)}
    (hkind : JsonValue.lookup "kind" obj = some (.str (JsonValue.codes "ack")))
    (hcarries : JsonValue.carries ackRecordFields obj = true) (lineno : ℕ) :
    (ackKind obj).Reads (recordFromObject sha256 floatRepr obj lineno) := by
  rw [recordFromObject_ack hkind hcarries]
  unfold ackKind
  cases JsonValue.field "filled" obj with
  | int i => exact reads_typed (.ack _ _ ⟨i⟩)
  | _ => exact ⟨_, rfl, rfl⟩

/-- A payload whose quantities are integers is the intent it spells. -/
theorem intentKind_ok {coid : JsonValue} {payload : List (CodePoints × JsonValue)}
    {intent : JournalIntent} (h : intentFromPayload payload = .ok intent) :
    intentKind sha256 floatRepr coid payload =
      if !coid.equalsText (intent.clientOrderId sha256 floatRepr) then .refused
      else if intent.typed then .sound
      else .illTyped := by
  obtain ⟨hid, hticker, houtcome, haction, hprice, hsize, hnotional, hprobability, hkey⟩ :=
    intentFromPayload_ok h
  unfold intentKind
  rw [hprice, hsize, hnotional, hprobability, ← hid, ← hticker, ← houtcome, ← haction, ← hkey]

/-- A payload that spells no intent has a quantity that is no integer. -/
theorem intentKind_error (sha256 : HexDigest) (floatRepr : String → String) (coid : JsonValue)
    {payload : List (CodePoints × JsonValue)} {e : WalReadError}
    (h : intentFromPayload payload = .error e) :
    intentKind sha256 floatRepr coid payload = .notInteger ∧ e.isValueError = false := by
  unfold intentFromPayload at h
  unfold intentKind
  cases hprice : JsonValue.field "price" payload with
  | int price =>
      rw [hprice] at h
      cases hsize : JsonValue.field "size" payload with
      | int size =>
          rw [hsize] at h
          cases hnotional : JsonValue.field "max_notional" payload with
          | int maxNotional =>
              rw [hnotional] at h
              cases hprobability : JsonValue.field "implied_probability" payload with
              | int impliedProbability =>
                  rw [hprobability] at h
                  cases h
              | _ =>
                  rw [hprobability] at h
                  cases h
                  exact ⟨rfl, rfl⟩
          | _ =>
              rw [hnotional] at h
              cases h
              exact ⟨rfl, rfl⟩
      | _ =>
          rw [hsize] at h
          cases h
          exact ⟨rfl, rfl⟩
  | _ =>
      rw [hprice] at h
      cases h
      exact ⟨rfl, rfl⟩

theorem reads_intentKind {payload : List (CodePoints × JsonValue)}
    (hcarries : JsonValue.carries intentPayloadFields payload = true) (coid : JsonValue)
    (lineno : ℕ) :
    (intentKind sha256 floatRepr coid payload).Reads
      (intentRecord sha256 floatRepr coid (.obj payload) lineno) := by
  rw [intentRecord_obj hcarries]
  cases hintent : intentFromPayload payload with
  | error e =>
      obtain ⟨hkind, hother⟩ := intentKind_error sha256 floatRepr coid hintent
      rw [hkind]
      exact ⟨e, rfl, hother⟩
  | ok intent =>
      rw [intentKind_ok hintent]
      change LineKind.Reads
        (if coid.equalsText (intent.clientOrderId sha256 floatRepr) then .ok (.intent coid intent)
          else .error (.idMismatch (intent.clientOrderId sha256 floatRepr) coid)) _
      by_cases hown : coid.equalsText (intent.clientOrderId sha256 floatRepr) = true
      · have hcoid : coid.isText = true := JsonValue.isText_iff.mpr
          ⟨_, JsonValue.equalsText_iff.mp hown⟩
        have htyped : (JournalRecord.intent coid intent).typed = intent.typed := by
          rw [JournalRecord.typed, hcoid, Bool.true_and]
        rw [if_pos hown, hown, Bool.not_true, if_neg Bool.false_ne_true, ← htyped]
        exact reads_typed (.intent coid intent)
      · rw [if_neg hown, Bool.eq_false_iff.mpr hown, Bool.not_false, if_pos rfl]
        exact ⟨_, rfl, rfl⟩

/-- A kind that no value has, and one that equals a text. -/
theorem equalsText_field {obj : List (CodePoints × JsonValue)} {kind : JsonValue}
    (hkind : JsonValue.lookup "kind" obj = some kind) (s : String) :
    (JsonValue.field "kind" obj).equalsText s = kind.equalsText s := by
  rw [JsonValue.field, hkind, Option.getD_some]

theorem reads_objectKind (obj : List (CodePoints × JsonValue)) (lineno : ℕ) :
    (objectKind sha256 floatRepr obj).Reads (recordFromObject sha256 floatRepr obj lineno) := by
  unfold objectKind
  cases hkind : JsonValue.lookup "kind" obj with
  | none =>
      have hnone : ∀ s, (JsonValue.field "kind" obj).equalsText s = false := fun s => by
        rw [JsonValue.field, hkind]
        rfl
      rw [hnone, hnone, Bool.false_and, if_neg Bool.false_ne_true, Bool.false_and,
        if_neg Bool.false_ne_true]
      unfold recordFromObject
      rw [hkind]
      exact ⟨_, rfl, rfl⟩
  | some kind =>
      rw [equalsText_field hkind, equalsText_field hkind]
      by_cases hack : kind.equalsText "ack" = true
      · have hvalue := JsonValue.equalsText_iff.mp hack
        have hother : kind.equalsText "intent" = false :=
          Bool.eq_false_iff.mpr (hvalue ▸ text_ne (by decide))
        rw [hack, Bool.true_and, hother, Bool.false_and, if_neg Bool.false_ne_true]
        by_cases hcarries : JsonValue.carries ackRecordFields obj = true
        · rw [if_pos hcarries]
          exact reads_ackKind (hvalue ▸ hkind) hcarries lineno
        · rw [if_neg hcarries]
          unfold recordFromObject requireFields
          rw [hkind]
          dsimp only
          rw [hother, if_neg Bool.false_ne_true, if_pos hack, if_neg hcarries]
          exact ⟨_, rfl, rfl⟩
      · rw [Bool.eq_false_iff.mpr hack, Bool.false_and, if_neg Bool.false_ne_true]
        by_cases hintent : kind.equalsText "intent" = true
        · have hvalue := JsonValue.equalsText_iff.mp hintent
          rw [hintent, Bool.true_and]
          by_cases hcarries : JsonValue.carries intentRecordFields obj = true
          · rw [if_pos hcarries, recordFromObject_intent (hvalue ▸ hkind) hcarries]
            cases JsonValue.field "intent" obj with
            | obj payload =>
                dsimp only
                by_cases hpayload : JsonValue.carries intentPayloadFields payload = true
                · rw [if_pos hpayload]
                  exact reads_intentKind hpayload _ lineno
                · rw [if_neg hpayload]
                  exact ⟨_, intentRecord_wrong hpayload _ lineno, rfl⟩
            | _ => exact ⟨_, rfl, rfl⟩
          · rw [if_neg hcarries]
            unfold recordFromObject requireFields
            rw [hkind]
            dsimp only
            rw [if_pos hintent, if_neg hcarries]
            exact ⟨_, rfl, rfl⟩
        · rw [Bool.eq_false_iff.mpr hintent, Bool.false_and, if_neg Bool.false_ne_true]
          unfold recordFromObject
          rw [hkind]
          dsimp only
          rw [if_neg hintent, if_neg hack]
          exact ⟨_, rfl, rfl⟩

/-- **What a read makes of a line** is told by its kind. -/
theorem reads_lineKind (sha256 : HexDigest) (floatRepr : String → String)
    (limits : JsonValue.Limits) (line : List Char) (lineno : ℕ) :
    (lineKind sha256 floatRepr limits line).Reads
      (recordFromLine sha256 floatRepr limits line lineno) := by
  unfold lineKind recordFromLine decodeLine
  cases JsonValue.loads limits (String.ofList line) with
  | error e =>
      cases e with
      | decode => exact ⟨_, rfl, rfl⟩
      | digits => exact ⟨_, rfl, rfl⟩
      | depth => exact ⟨_, rfl, rfl⟩
  | ok v =>
      cases v with
      | obj obj => exact reads_objectKind obj lineno
      | _ => exact ⟨_, rfl, rfl⟩

/-! ## All lines -/

/-- A line whose record is returned is sound or ill-typed, as its record is. -/
theorem kind_of_ok {line : List Char} {lineno : ℕ} {record : JournalRecord}
    (h : recordFromLine sha256 floatRepr limits line lineno = .ok record) :
    lineKind sha256 floatRepr limits line = if record.typed then .sound else .illTyped := by
  have hreads := reads_lineKind sha256 floatRepr limits line lineno
  rw [h] at hreads
  cases hkind : lineKind sha256 floatRepr limits line with
  | refused =>
      rw [hkind] at hreads
      obtain ⟨e, herror, -⟩ := hreads
      cases herror
  | tooDeep =>
      rw [hkind] at hreads
      obtain ⟨e, herror, -⟩ := hreads
      cases herror
  | notInteger =>
      rw [hkind] at hreads
      obtain ⟨e, herror, -⟩ := hreads
      cases herror
  | illTyped =>
      rw [hkind] at hreads
      obtain ⟨other, hsame, htyped⟩ := hreads
      rw [Except.ok.inj hsame, htyped, if_neg Bool.false_ne_true]
  | sound =>
      rw [hkind] at hreads
      obtain ⟨other, hsame, htyped⟩ := hreads
      rw [Except.ok.inj hsame, htyped, if_pos rfl]

/-- A line that is not returned raises a `ValueError` exactly when it is refused. -/
theorem raises_of_kind {line : List Char}
    (h : (lineKind sha256 floatRepr limits line).returned = false) (lineno : ℕ) :
    ∃ e, recordFromLine sha256 floatRepr limits line lineno = .error e ∧
      (e.isValueError = true ↔ lineKind sha256 floatRepr limits line = .refused) := by
  have hreads := reads_lineKind sha256 floatRepr limits line lineno
  cases hkind : lineKind sha256 floatRepr limits line with
  | refused =>
      rw [hkind] at hreads
      obtain ⟨e, herror, hvalue⟩ := hreads
      exact ⟨e, herror, iff_of_true hvalue rfl⟩
  | tooDeep =>
      rw [hkind] at hreads
      obtain ⟨e, herror, hother⟩ := hreads
      exact ⟨e, herror, iff_of_false (Bool.eq_false_iff.mp hother) (by decide)⟩
  | notInteger =>
      rw [hkind] at hreads
      obtain ⟨e, herror, hother⟩ := hreads
      exact ⟨e, herror, iff_of_false (Bool.eq_false_iff.mp hother) (by decide)⟩
  | illTyped =>
      rw [hkind] at h
      cases h
  | sound =>
      rw [hkind] at h
      cases h

/-- A line that is returned has a record. -/
theorem ok_of_kind {line : List Char}
    (h : (lineKind sha256 floatRepr limits line).returned = true) (lineno : ℕ) :
    ∃ record, recordFromLine sha256 floatRepr limits line lineno = .ok record := by
  have hreads := reads_lineKind sha256 floatRepr limits line lineno
  cases hkind : lineKind sha256 floatRepr limits line with
  | illTyped =>
      rw [hkind] at hreads
      exact ⟨_, hreads.choose_spec.1⟩
  | sound =>
      rw [hkind] at hreads
      exact ⟨_, hreads.choose_spec.1⟩
  | refused | tooDeep | notInteger =>
      rw [hkind] at h
      cases h

/-- The first line that is not returned decides what the read raises. -/
theorem recordsFromLines_raises {lines : List (List Char)} {kind : LineKind}
    (h : (lines.map (lineKind sha256 floatRepr limits)).find? (fun kind => !kind.returned) =
      some kind) (lineno : ℕ) :
    ∃ e, recordsFromLines sha256 floatRepr limits lineno lines = .error e ∧
      (e.isValueError = true ↔ kind = .refused) := by
  induction lines generalizing lineno with
  | nil => cases h
  | cons line lines ih =>
      rw [List.map_cons, List.find?_cons] at h
      rw [recordsFromLines]
      cases hreturned : (lineKind sha256 floatRepr limits line).returned with
      | false =>
          rw [hreturned] at h
          obtain ⟨e, herror, hvalue⟩ := raises_of_kind hreturned lineno
          rw [herror, ← Option.some.inj h]
          exact ⟨e, rfl, hvalue⟩
      | true =>
          rw [hreturned] at h
          obtain ⟨record, hrecord⟩ := ok_of_kind hreturned lineno
          obtain ⟨e, herror, hvalue⟩ := ih h (lineno + 1)
          rw [hrecord, herror]
          exact ⟨e, rfl, hvalue⟩

/-- If every line is returned, so are their records. -/
theorem recordsFromLines_returns {lines : List (List Char)}
    (h : (lines.map (lineKind sha256 floatRepr limits)).find? (fun kind => !kind.returned) =
      none) (lineno : ℕ) :
    ∃ records, recordsFromLines sha256 floatRepr limits lineno lines = .ok records := by
  induction lines generalizing lineno with
  | nil => exact ⟨[], rfl⟩
  | cons line lines ih =>
      rw [List.map_cons, List.find?_cons] at h
      rw [recordsFromLines]
      cases hreturned : (lineKind sha256 floatRepr limits line).returned with
      | false =>
          rw [hreturned] at h
          cases h
      | true =>
          rw [hreturned] at h
          obtain ⟨record, hrecord⟩ := ok_of_kind hreturned lineno
          obtain ⟨records, hrecords⟩ := ih h (lineno + 1)
          rw [hrecord, hrecords]
          exact ⟨record :: records, rfl⟩

/-- Records that are returned come from the lines, one from each. -/
theorem forall₂_of_read {lines : List (List Char)} {records : List JournalRecord} {lineno : ℕ}
    (h : recordsFromLines sha256 floatRepr limits lineno lines = .ok records) :
    List.Forall₂ (fun line record => ∃ n,
      recordFromLine sha256 floatRepr limits line n = .ok record) lines records := by
  induction lines generalizing records lineno with
  | nil =>
      cases h
      exact .nil
  | cons line lines ih =>
      obtain ⟨record, hrecord, h⟩ := except_bind_ok.mp h
      obtain ⟨others, hothers, h⟩ := except_bind_ok.mp h
      cases h
      exact .cons ⟨lineno, hrecord⟩ (ih hothers)

/-- Typed records under their own ids, once written, are read back. -/
theorem recordsFromLines_encode {records : List JournalRecord}
    (h : ∀ record ∈ records, JsonValue.Fits limits limits.depth record.encode ∧
      record.typed = true ∧ record.OwnId sha256 floatRepr) (lineno : ℕ) :
    recordsFromLines sha256 floatRepr limits lineno
      (records.map fun record => record.encode.dumps) = .ok records := by
  induction records generalizing lineno with
  | nil => rfl
  | cons record records ih =>
      obtain ⟨⟨hfits, htyped, hown⟩, hrecords⟩ := List.forall_mem_cons.mp h
      rw [List.map_cons, recordsFromLines, recordFromLine_encode hfits htyped hown, ih hrecords]
      rfl

/-- **Typed records under their own ids are read back** from the file that they make. -/
theorem readAll_journalFile {records : List JournalRecord}
    (h : ∀ record ∈ records, JsonValue.Fits limits limits.depth record.encode ∧
      record.typed = true ∧ record.OwnId sha256 floatRepr) :
    (journalFile records).readAll sha256 floatRepr limits = .ok records := by
  have hlines : ∀ line ∈ records.map fun record => record.encode.dumps,
      TextLines.OneLine line := by
    intro line hline
    obtain ⟨record, hrecord, rfl⟩ := List.mem_map.mp hline
    exact TextLines.oneLine_dumps (h record hrecord).1
  rw [journalFile, WalFile.readAll, String.toList_ofList, TextLines.splitLines_unlines hlines]
  exact recordsFromLines_encode h 1

/-! ## Files -/

/-- The records that are returned are typed exactly when the lines are sound. -/
theorem typed_iff_sound {lines : List (List Char)} {records : List JournalRecord}
    (h : List.Forall₂ (fun line record => ∃ n,
      recordFromLine sha256 floatRepr limits line n = .ok record) lines records) :
    (∀ record ∈ records, record.typed = true) ↔
      ∀ kind ∈ lines.map (lineKind sha256 floatRepr limits), kind = .sound := by
  induction h with
  | nil => exact iff_of_true (fun r hr => absurd hr List.not_mem_nil) fun k hk =>
      absurd hk List.not_mem_nil
  | cons hline _ ih =>
      obtain ⟨n, hrecord⟩ := hline
      rw [List.map_cons, List.forall_mem_cons, List.forall_mem_cons, ih, kind_of_ok hrecord]
      refine and_congr_left fun _ => ?_
      split_ifs with htyped
      · exact iff_of_true htyped rfl
      · exact iff_of_false htyped (by decide)

/-- What is returned from sound lines can be written again. -/
theorem writable_of_read {lines : List (List Char)} {records : List JournalRecord}
    (h : List.Forall₂ (fun line record => ∃ n,
      recordFromLine sha256 floatRepr limits line n = .ok record) lines records)
    (htyped : ∀ record ∈ records, record.typed = true) :
    ∀ record ∈ records, JsonValue.Fits limits limits.depth record.encode ∧
      record.typed = true ∧ record.OwnId sha256 floatRepr := by
  induction h with
  | nil => exact fun record hrecord => absurd hrecord List.not_mem_nil
  | cons hline _ ih =>
      obtain ⟨n, hrecord⟩ := hline
      obtain ⟨hone, hothers⟩ := List.forall_mem_cons.mp htyped
      exact List.forall_mem_cons.mpr
        ⟨⟨fits_of_read hrecord hone, hone, ownId_of_read hrecord⟩, ih hothers⟩

/-- **The files that are read exactly.** -/
theorem exact_iff_clean (file : WalFile) :
    file.Exact sha256 floatRepr limits ↔ Clean (file.kinds sha256 floatRepr limits) := by
  cases file with
  | missing =>
      refine iff_of_true (.inl ⟨[], rfl, fun r hr => absurd hr List.not_mem_nil, rfl⟩) ?_
      exact fun kind hkind => absurd hkind List.not_mem_nil
  | undecodable => exact iff_of_true (.inr ⟨_, rfl, rfl⟩) rfl
  | text content =>
      unfold Clean WalFile.kinds
      dsimp only
      cases hfirst : ((TextLines.splitLines content.toList).map
          (lineKind sha256 floatRepr limits)).find? fun kind => !kind.returned with
      | some kind =>
          obtain ⟨e, herror, hvalue⟩ := recordsFromLines_raises hfirst 1
          have hread : (WalFile.text content).readAll sha256 floatRepr limits = .error e := herror
          dsimp only
          rw [← hvalue]
          constructor
          · rintro (⟨records, hok, -⟩ | ⟨e', herror', hvalue'⟩)
            · rw [hread] at hok
              cases hok
            · rw [hread] at herror'
              cases herror'
              exact hvalue'
          · exact fun hvalue' => .inr ⟨e, hread, hvalue'⟩
      | none =>
          obtain ⟨records, hok⟩ := recordsFromLines_returns hfirst 1
          have hread : (WalFile.text content).readAll sha256 floatRepr limits = .ok records := hok
          have hlines := forall₂_of_read hok
          dsimp only
          rw [← typed_iff_sound hlines]
          constructor
          · rintro (⟨others, hok', htyped, -⟩ | ⟨e, herror, -⟩)
            · rw [hread] at hok'
              cases hok'
              exact htyped
            · rw [hread] at herror
              cases herror
          · exact fun htyped => .inl ⟨records, hread, htyped,
              readAll_journalFile (writable_of_read hlines htyped)⟩

/-- Every record that is returned stands under its own id. -/
theorem ownId_of_readAll {file : WalFile} {records : List JournalRecord}
    (h : file.readAll sha256 floatRepr limits = .ok records) :
    ∀ record ∈ records, record.OwnId sha256 floatRepr := by
  cases file with
  | missing =>
      cases h
      exact fun record hrecord => absurd hrecord List.not_mem_nil
  | undecodable => cases h
  | text content =>
      have hlines := forall₂_of_read h
      clear h
      generalize TextLines.splitLines content.toList = lines at hlines
      induction hlines with
      | nil => exact fun record hrecord => absurd hrecord List.not_mem_nil
      | cons hline _ ih =>
          obtain ⟨n, hrecord⟩ := hline
          exact List.forall_mem_cons.mpr ⟨ownId_of_read hrecord, ih⟩

/-! ## Appends -/

/-- The id that a read derives is the one the gateway knows the intent by. -/
theorem clientOrderId_journal (intent : OrderIntent) :
    intent.journal.clientOrderId sha256 floatRepr = clientOrderId sha256 intent := by
  -- a payload of texts and integers has no float to spell otherwise
  rw [clientOrderId, canonicalIntentBytes, Json.canonical_of_toValue
    (v := (JsonValue.obj intent.journal.payload).mapFloats floatRepr) rfl]
  rfl

theorem typed_journal (record : WalRecord) : record.journal.typed = true := by
  cases record with
  | intent coid intent => rfl
  | ack coid orderId filled =>
      cases orderId with
      | none => rfl
      | some id => rfl

theorem toValue_payload (record : WalRecord) : record.payload.toValue = record.journal.encode := by
  cases record with
  | intent coid intent => rfl
  | ack coid orderId filled =>
      cases orderId with
      | none => rfl
      | some id => rfl

/-- A text, an integer or a null has no keys. -/
theorem distinct_leaf {j : Json} (h : (∃ s, j = .str s) ∨ (∃ i, j = .int i) ∨ j = .null) :
    Json.Distinct j := by
  rcases h with ⟨s, rfl⟩ | ⟨i, rfl⟩ | rfl
  · exact .str s
  · exact .int i
  · exact .null

theorem distinct_payload (record : WalRecord) : Json.Distinct record.payload := by
  cases record with
  | intent coid intent =>
      have hkeys : intentRecordFields.Nodup := by decide
      have hinner : intentPayloadFields.Nodup := by decide
      refine .obj _ hkeys fun f hf => ?_
      simp only [List.mem_cons, List.not_mem_nil, or_false] at hf
      rcases hf with rfl | rfl | rfl
      · exact .str _
      · exact .str _
      · refine .obj _ hinner fun g hg => distinct_leaf ?_
        simp only [List.mem_cons, List.not_mem_nil, or_false] at hg
        rcases hg with rfl | rfl | rfl | rfl | rfl | rfl | rfl | rfl | rfl <;> simp
  | ack coid orderId filled =>
      have hkeys : ackRecordFields.Nodup := by decide
      refine .obj _ hkeys fun f hf => distinct_leaf ?_
      simp only [List.mem_cons, List.not_mem_nil, or_false] at hf
      rcases hf with rfl | rfl | rfl | rfl
      · simp
      · simp
      · cases orderId <;> simp
      · simp

/-- The file holds the records that were appended, each of which could be written. -/
structure Journalled (limits : JsonValue.Limits) (w : WalWriter) : Prop where
  file : w.file = if w.appended = [] then .missing
    else journalFile (w.appended.map WalRecord.journal)
  serialises : ∀ record ∈ w.appended, record.payload.serialises limits limits.depth = true

theorem journalled_fresh : Journalled limits .fresh :=
  ⟨rfl, fun _ hrecord => absurd hrecord List.not_mem_nil⟩

/-- One more line in the file of some records. -/
theorem appendLine_journalFile (records : List WalRecord) (record : WalRecord) :
    (if records = [] then WalFile.missing
      else journalFile (records.map WalRecord.journal)).appendLine record.payload.canonical =
      journalFile ((records ++ [record]).map WalRecord.journal) := by
  have hline : record.journal.encode.dumps = record.payload.canonical.toList := by
    rw [← toValue_payload, Json.dumps_toValue]
  rw [List.map_append, List.map_singleton]
  unfold journalFile
  rw [List.map_append, List.map_singleton, TextLines.unlines_concat, hline]
  by_cases hempty : records = []
  · rw [if_pos hempty, hempty]
    refine congrArg WalFile.text (String.toList_injective ?_)
    simp [TextLines.unlines]
  · rw [if_neg hempty]
    refine congrArg WalFile.text (String.toList_injective ?_)
    simp

theorem journalled_step (w : WalWriter) (op : WalAppend) (h : Journalled limits w) :
    Journalled limits (walStep limits w op).2 := by
  unfold walStep
  by_cases hserialises : op.record.payload.serialises limits limits.depth = true
  · rw [hserialises, Bool.not_true, if_neg Bool.false_ne_true]
    by_cases hraises : op.raises = true
    · rw [if_pos hraises]
      exact h
    · rw [if_neg hraises]
      refine ⟨?_, fun record hrecord => ?_⟩
      · rw [if_neg (List.concat_ne_nil op.record w.appended), ← appendLine_journalFile, h.file]
      · rcases List.mem_append.mp hrecord with hrecord | hrecord
        · exact h.serialises record hrecord
        · rw [List.mem_singleton.mp hrecord]
          exact hserialises
  · rw [Bool.eq_false_iff.mpr hserialises, Bool.not_false, if_pos rfl]
    exact h

theorem ownId_journal (sha256 : HexDigest) (floatRepr : String → String) (coid : String)
    (intent : OrderIntent) :
    (WalRecord.intent coid intent).journal.OwnId sha256 floatRepr ↔
      coid = clientOrderId sha256 intent := by
  have hderived : intent.journal.clientOrderId sha256 floatRepr = clientOrderId sha256 intent :=
    clientOrderId_journal intent
  rw [← hderived]
  show (textValue coid).equalsText _ = true ↔ _
  rw [JsonValue.equalsText_iff, textValue, JsonValue.str.injEq]
  exact ⟨Json.codes_injective, fun hsame => congrArg JsonValue.codes hsame⟩

/-- What was appended is read back exactly when each intent was appended under its own id. -/
theorem readAll_appended {w : WalWriter} (h : Journalled limits w) :
    w.file.readAll sha256 floatRepr limits = .ok (w.appended.map WalRecord.journal) ↔
      ∀ coid intent, .intent coid intent ∈ w.appended → coid = clientOrderId sha256 intent := by
  constructor
  · intro hread coid intent hin
    exact (ownId_journal sha256 floatRepr coid intent).mp
      (ownId_of_readAll hread _ (List.mem_map_of_mem hin))
  · intro hown
    have hwritable : ∀ record ∈ w.appended.map WalRecord.journal,
        JsonValue.Fits limits limits.depth record.encode ∧ record.typed = true ∧
          record.OwnId sha256 floatRepr := by
      intro record hrecord
      obtain ⟨appended, hin, rfl⟩ := List.mem_map.mp hrecord
      have hfits := Json.fits_toValue (distinct_payload appended) (h.serialises appended hin)
      refine ⟨toValue_payload appended ▸ hfits, typed_journal appended, ?_⟩
      cases appended with
      | intent coid intent => exact (ownId_journal sha256 floatRepr coid intent).mpr (hown _ _ hin)
      | ack coid orderId filled => exact trivial
    rw [h.file]
    by_cases hempty : w.appended = []
    · rw [if_pos hempty, hempty]
      rfl
    · rw [if_neg hempty]
      exact readAll_journalFile hwritable

/-- **The format of the journal.**  A sequence of appends is read back exactly when each intent was
appended under its own id; and a file is read exactly when its first line that is not returned is
refused, or all its lines are sound. -/
theorem wal_exact_iff (sha256 : HexDigest) (floatRepr : String → String)
    (limits : JsonValue.Limits) :
    (∀ ops, (run (walStep limits) .fresh ops).file.readAll sha256 floatRepr limits =
        .ok ((run (walStep limits) .fresh ops).appended.map WalRecord.journal) ↔
      ∀ coid intent, .intent coid intent ∈ (run (walStep limits) .fresh ops).appended →
        coid = clientOrderId sha256 intent) ∧
    ∀ file : WalFile, file.Exact sha256 floatRepr limits ↔
      Clean (file.kinds sha256 floatRepr limits) :=
  ⟨fun ops => readAll_appended (run_invariant journalled_step journalled_fresh ops),
    exact_iff_clean⟩

/-- An acknowledgement whose order id is a number is returned as it stands, and one whose quantity is
a text raises a `TypeError`. -/
def illTypedAck : WalFile :=
  .text "\x7b\"client_order_id\":\"a\",\"filled\":0,\"kind\":\"ack\",\"order_id\":5\x7d\n"

def textualQuantity : WalFile :=
  .text "\x7b\"client_order_id\":\"a\",\"filled\":\"5\",\"kind\":\"ack\",\"order_id\":null\x7d\n"

/-- Neither file is read exactly. -/
theorem ill_typed_escapes :
    ¬ illTypedAck.Exact (fun _ => "") id ⟨4300, 100⟩ ∧
      ¬ textualQuantity.Exact (fun _ => "") id ⟨4300, 100⟩ := by
  have hill : illTypedAck.kinds (fun _ => "") id ⟨4300, 100⟩ = [.illTyped] := by decide +kernel
  have htextual : textualQuantity.kinds (fun _ => "") id ⟨4300, 100⟩ = [.notInteger] := by
    decide +kernel
  constructor
  · rw [exact_iff_clean, hill]
    intro hclean
    exact absurd (hclean .illTyped (.head _)) (by decide)
  · rw [exact_iff_clean, htextual]
    intro hclean
    have hsame : LineKind.notInteger = .refused := hclean
    cases hsame

end

end Windbreak
