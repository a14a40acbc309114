import Windbreak.Core.Effects
import Windbreak.Core.TextLines
import Windbreak.Ledger.Appends

/-!
# Anchoring the ledger

The head of a verified ledger is pinned, one canonical line at a time, in a file of its own.  A
verification then compares every line of that file with the row it pins.

* **`anchorHead`** — pinning the head.
* **`verifyAnchors`** — comparing the pins; a missing or empty file is refused.
* **`anchors_pin`** — when a run leaves a file that verifies, and what two ledgers that match one
  file have in common.
-/

namespace Windbreak

open Effects Machine

/-! ## Pinning -/

/-- The last row of a ledger. -/
structure ChainHead where
  sequenceNumber : ℤ
  eventHash : String

def head (rows : List LedgerRecord) : Option ChainHead :=
  rows.getLast?.map fun record => ⟨record.sequenceNumber, record.eventHash⟩

inductive AnchorHeadError where
  | notFound
  | integrity (error : ChainIntegrityError)
  | unserialisable
  | storage

/-- The clock of a pinning, and whether the file cannot be opened. -/
structure AnchorEnv where
  anchoredAt : String
  openRaises : Bool

/-- The line that pins a head. -/
def anchorLine (anchoredAt : String) (head : ChainHead) : Json :=
  .obj [("anchored_at", .str anchoredAt), ("event_hash", .str head.eventHash),
    ("sequence_number", .int head.sequenceNumber)]

/-- Verify a ledger and pin its head.  Only a head that was found is written. -/
def anchorHead (sha : Sha256) (limits : JsonValue.Limits) (env : AnchorEnv)
    (ledger : Option (List LedgerRecord)) (anchors : Option String) :
    Except AnchorHeadError (Option ChainHead) × Option String :=
  match ledger with
  | none => (.error .notFound, anchors)
  | some rows =>
    match verifyChain sha (readEnvelope limits) rows with
    | .error e => (.error (.integrity e), anchors)
    | .ok () =>
      match head rows with
      | none => (.ok none, anchors)
      | some head =>
        let line := anchorLine env.anchoredAt head
        if !line.serialises limits limits.depth then (.error .unserialisable, anchors)
        else if env.openRaises then (.error .storage, anchors)
        else (.ok (some head), some (anchors.getD "" ++ line.canonical ++ "\n"))

/-! ## Comparing -/

/-- A pin, as it is read back. -/
structure AnchorRecord where
  sequenceNumber : ℤ
  eventHash : CodePoints
  anchoredAt : CodePoints

/-- Why a ledger does not match its pins.  Text that is refused for its size is not a format error. -/
inductive AnchorError where
  | integrity (error : ChainIntegrityError)
  | format (lineNumber : ℕ)
  | refused (error : JsonValue.LoadsError)
  | mismatch (sequenceNumber : ℤ)

/-- Read one pin. -/
def parseAnchorLine (limits : JsonValue.Limits) (line : List Char) (lineNumber : ℕ) :
    Except AnchorError AnchorRecord :=
  match JsonValue.loads limits (String.ofList line) with
  | .error .decode => .error (.format lineNumber)
  | .error e => .error (.refused e)
  | .ok (.obj fields) =>
    match JsonValue.lookup "sequence_number" fields, JsonValue.lookup "event_hash" fields,
        JsonValue.lookup "anchored_at" fields with
    | some (.int sequenceNumber), some (.str eventHash), some (.str anchoredAt) =>
      if sequenceNumber < 1 then .error (.format lineNumber)
      else .ok ⟨sequenceNumber, eventHash, anchoredAt⟩
    | _, _, _ => .error (.format lineNumber)
  | .ok _ => .error (.format lineNumber)

/-- Read the pins from a line on, without the blank lines. -/
def readAnchorLines (limits : JsonValue.Limits) :
    ℕ → List (List Char) → Except AnchorError (List AnchorRecord)
  | _, [] => .ok []
  | lineNumber, line :: lines =>
    if TextLines.isBlank line then readAnchorLines limits (lineNumber + 1) lines
    else do
      let record ← parseAnchorLine limits line lineNumber
      let records ← readAnchorLines limits (lineNumber + 1) lines
      return record :: records

/-- Read the pins of a file; having none is an error. -/
def readAnchors (limits : JsonValue.Limits) (anchors : Option String) :
    Except AnchorError (List AnchorRecord) :=
  match anchors with
  | none => .error (.format 1)
  | some text =>
    match readAnchorLines limits 1 (TextLines.splitLines text.toList) with
    | .error e => .error e
    | .ok [] => .error (.format 1)
    | .ok (record :: records) => .ok (record :: records)

/-- Compare a pin with the row it pins. -/
def checkAnchor (rows : List LedgerRecord) (anchor : AnchorRecord) : Except AnchorError Unit :=
  if anchor.sequenceNumber > rows.length then .error (.mismatch anchor.sequenceNumber)
  else
    match rows[(anchor.sequenceNumber - 1).toNat]? with
    | none => .error (.mismatch anchor.sequenceNumber)
    | some live =>
      if JsonValue.codes live.eventHash ≠ anchor.eventHash then
        .error (.mismatch anchor.sequenceNumber)
      else .ok ()

/-- Compare the pins in the order of the file. -/
def checkAnchors (rows : List LedgerRecord) : List AnchorRecord → Except AnchorError Unit
  | [] => .ok ()
  | anchor :: anchors => do
    checkAnchor rows anchor
    checkAnchors rows anchors

/-- Verify a ledger and compare it with every pin. -/
def verifyAnchors (sha : Sha256) (loads : EnvelopeReader) (limits : JsonValue.Limits)
    (rows : List LedgerRecord) (anchors : Option String) : Except AnchorError Unit :=
  match verifyChain sha loads rows with
  | .error e => .error (.integrity e)
  | .ok () => do
    let records ← readAnchors limits anchors
    checkAnchors rows records

/-- The highest position that is pinned. -/
def highestAnchored (anchors : List AnchorRecord) : ℤ :=
  anchors.foldr (fun anchor highest => max anchor.sequenceNumber highest) 0

/-! ## Appending and pinning, in any order -/

/-- A ledger file, once a store was opened on it, and the file of its pins. -/
structure AnchoredLedger where
  ledger : Option LedgerRows
  anchors : Option String

def AnchoredLedger.fresh : AnchoredLedger := ⟨none, none⟩

/-- The rows of a ledger; a ledger without a file has none. -/
def AnchoredLedger.rows (w : AnchoredLedger) : List LedgerRecord :=
  (w.ledger.getD .empty).rows

inductive AnchoringOp where
  | openStore
  | append (op : AppendOp)
  | anchorHead (env : AnchorEnv)

inductive AnchoringReply where
  | opened
  | appended (result : Except AppendError ℤ)
  | anchored (result : Except AnchorHeadError (Option ChainHead))

/-- One operation.  An append goes through a store, which opens the file. -/
def anchoringStep (sha : Sha256) (limits : JsonValue.Limits) (w : AnchoredLedger) :
    AnchoringOp → AnchoringReply × AnchoredLedger
  | .openStore => (.opened, { w with ledger := some (w.ledger.getD .empty) })
  | .append op =>
    let (result, ledger) := appendStep sha limits (w.ledger.getD .empty) op
    (.appended result, { w with ledger := some ledger })
  | .anchorHead env =>
    let (result, anchors) := anchorHead sha limits env (w.ledger.map (·.rows)) w.anchors
    (.anchored result, { w with anchors := anchors })

/-- A transition that wrote a pin. -/
def Pinned (t : Transition AnchoredLedger AnchoringOp AnchoringReply) : Prop :=
  ∃ head, t.output = .anchored (.ok (some head))

/-! ## What one file pins in two ledgers -/

section

variable {sha : Sha256} {loads : EnvelopeReader} {limits : JsonValue.Limits}
  {rows rows' : List LedgerRecord}

/-- Two ledgers agree on the hashes, and on the texts hashed, of their first rows. -/
structure PrefixPinned (n : ℤ) (rows rows' : List LedgerRecord) : Prop where
  length : n ≤ rows.length
  length' : n ≤ rows'.length
  agree : ∀ i (h : i < rows.length) (h' : i < rows'.length), (i : ℤ) < n →
    (rows[i]).eventHash = (rows'[i]).eventHash ∧ (rows[i]).digestText = (rows'[i]).digestText

/-- The predecessor's hash of a row has full length. -/
theorem length_prevHash
    (h : HashChain.Accepted (RowVerified sha loads) ChainState.next (1, genesisPrevHash) rows)
    (i : ℕ) (hi : i < rows.length) : (rows[i]).prevHash.length = 64 := by
  cases i with
  | zero =>
      rw [(HashChain.accepted_getElem h 0 hi).linked]
      exact length_genesisPrevHash
  | succ i =>
      have hbefore := HashChain.accepted_getElem h i (Nat.lt_of_succ_lt hi)
      rw [(HashChain.accepted_getElem h (i + 1) hi).linked,
        List.take_succ_eq_append_getElem (Nat.lt_of_succ_lt hi), HashChain.tip_concat]
      show ((rows[i]).eventHash).length = 64
      rw [← hbefore.hashed, sha.length_hexdigest]

/-- A row carries the hash of the row before. -/
theorem prevHash_eq
    (h : HashChain.Accepted (RowVerified sha loads) ChainState.next (1, genesisPrevHash) rows)
    (i : ℕ) (hi : i < rows.length) (hnext : i + 1 < rows.length) :
    (rows[i + 1]).prevHash = (rows[i]).eventHash := by
  rw [(HashChain.accepted_getElem h (i + 1) hnext).linked,
    List.take_succ_eq_append_getElem hi, HashChain.tip_concat]
  rfl

/-- **A hash determines the text hashed, and the hash before.** -/
theorem agree_before (hinj : Set.InjOn sha.digest (hashedBytes rows rows'))
    (h : HashChain.Accepted (RowVerified sha loads) ChainState.next (1, genesisPrevHash) rows)
    (h' : HashChain.Accepted (RowVerified sha loads) ChainState.next (1, genesisPrevHash) rows')
    (i : ℕ) (hi : i < rows.length) (hi' : i < rows'.length)
    (hhash : (rows[i]).eventHash = (rows'[i]).eventHash) :
    (rows[i]).digestText = (rows'[i]).digestText ∧ (rows[i]).prevHash = (rows'[i]).prevHash := by
  have hbytes : (rows[i]).digestBytes = (rows'[i]).digestBytes := by
    refine hinj ⟨_, List.mem_append_left _ (List.getElem_mem hi), rfl⟩
      ⟨_, List.mem_append_right _ (List.getElem_mem hi'), rfl⟩ (Hex.hex_injective ?_)
    show sha.hexdigest _ = sha.hexdigest _
    rw [(HashChain.accepted_getElem h i hi).hashed, (HashChain.accepted_getElem h' i hi').hashed,
      hhash]
  have htext := digestText_of_digestBytes hbytes
  refine ⟨htext, ?_⟩
  have hlength : (rows[i]).prevHash.length = (rows'[i]).prevHash.length := by
    rw [length_prevHash h, length_prevHash h']
  exact (append_inj_right htext hlength).2

/-- Two ledgers that agree on one hash agree on every hash before it. -/
theorem agree_up_to (hinj : Set.InjOn sha.digest (hashedBytes rows rows'))
    (h : HashChain.Accepted (RowVerified sha loads) ChainState.next (1, genesisPrevHash) rows)
    (h' : HashChain.Accepted (RowVerified sha loads) ChainState.next (1, genesisPrevHash) rows')
    (m : ℕ) (hm : m < rows.length) (hm' : m < rows'.length)
    (hhash : (rows[m]).eventHash = (rows'[m]).eventHash) :
    ∀ i ≤ m, ∀ (hi : i < rows.length) (hi' : i < rows'.length),
      (rows[i]).eventHash = (rows'[i]).eventHash := by
  -- from the pinned row down, each row carries the hash of the one before
  induction m with
  | zero =>
      intro i hle hi hi'
      obtain rfl : i = 0 := Nat.le_zero.mp hle
      exact hhash
  | succ m ih =>
      intro i hle hi hi'
      rcases Nat.lt_or_ge m i with hlast | hbefore
      · obtain rfl : i = m + 1 := Nat.le_antisymm hle hlast
        exact hhash
      · have hlt : m < rows.length := Nat.lt_of_succ_lt hm
        have hlt' : m < rows'.length := Nat.lt_of_succ_lt hm'
        have hprev := (agree_before hinj h h' (m + 1) hm hm' hhash).2
        rw [prevHash_eq h m hlt hm, prevHash_eq h' m hlt' hm'] at hprev
        exact ih hlt hlt' hprev i hbefore hi hi'

/-! ### Reading the comparison off -/

theorem checkAnchors_ok_iff {anchors : List AnchorRecord} :
    checkAnchors rows anchors = .ok () ↔ ∀ anchor ∈ anchors, checkAnchor rows anchor = .ok () := by
  induction anchors with
  | nil => exact iff_of_true rfl fun anchor hin => absurd hin List.not_mem_nil
  | cons anchor anchors ih =>
      rw [List.forall_mem_cons, ← ih, checkAnchors, except_bind_ok]
      exact ⟨fun ⟨_, hone, hrest⟩ => ⟨hone, hrest⟩, fun ⟨hone, hrest⟩ => ⟨(), hone, hrest⟩⟩

/-- A pin that matches names a row and its hash. -/
theorem checkAnchor_ok_iff {anchor : AnchorRecord} :
    checkAnchor rows anchor = .ok () ↔
      anchor.sequenceNumber ≤ rows.length ∧
        ∃ live, rows[(anchor.sequenceNumber - 1).toNat]? = some live ∧
          JsonValue.codes live.eventHash = anchor.eventHash := by
  unfold checkAnchor
  by_cases hbeyond : anchor.sequenceNumber > rows.length
  · rw [if_pos hbeyond]
    exact iff_of_false (fun h => by cases h) fun h => absurd h.1 (not_le.mpr hbeyond)
  · rw [if_neg hbeyond]
    have hle := not_lt.mp hbeyond
    cases hlive : rows[(anchor.sequenceNumber - 1).toNat]? with
    | none =>
        refine iff_of_false (fun h => by cases h) ?_
        rintro ⟨-, live, hsome, -⟩
        cases hsome
    | some live =>
        dsimp only
        by_cases hhash : JsonValue.codes live.eventHash ≠ anchor.eventHash
        · rw [if_pos hhash]
          refine iff_of_false (fun h => by cases h) ?_
          rintro ⟨-, other, hsome, hsame⟩
          rw [← Option.some.inj hsome] at hsame
          exact hhash hsame
        · rw [if_neg hhash]
          exact iff_of_true rfl ⟨hle, live, rfl, not_not.mp hhash⟩

theorem verifyAnchors_ok_iff {anchors : Option String} :
    verifyAnchors sha loads limits rows anchors = .ok () ↔
      verifyChain sha loads rows = .ok () ∧
        ∃ records, readAnchors limits anchors = .ok records ∧
          ∀ anchor ∈ records, checkAnchor rows anchor = .ok () := by
  unfold verifyAnchors
  cases verifyChain sha loads rows with
  | error e => exact iff_of_false (fun h => by cases h) fun h => by cases h.1
  | ok a =>
      dsimp only
      rw [except_bind_ok]
      exact ⟨fun ⟨records, hread, hcheck⟩ => ⟨rfl, records, hread, checkAnchors_ok_iff.mp hcheck⟩,
        fun ⟨_, records, hread, hcheck⟩ => ⟨records, hread, checkAnchors_ok_iff.mpr hcheck⟩⟩

/-- The highest pinned position is pinned, if there is one at all. -/
theorem highestAnchored_mem (anchors : List AnchorRecord) :
    highestAnchored anchors = 0 ∨
      ∃ anchor ∈ anchors, anchor.sequenceNumber = highestAnchored anchors := by
  induction anchors with
  | nil => exact .inl rfl
  | cons anchor anchors ih =>
      have hfold : highestAnchored (anchor :: anchors) =
        max anchor.sequenceNumber (highestAnchored anchors) := rfl
      rw [hfold]
      rcases le_total anchor.sequenceNumber (highestAnchored anchors) with hle | hle
      · rw [max_eq_right hle]
        refine ih.imp_right ?_
        rintro ⟨other, hin, hsame⟩
        exact ⟨other, List.mem_cons_of_mem _ hin, hsame⟩
      · rw [max_eq_left hle]
        exact .inr ⟨anchor, .head _, rfl⟩

/-- **Two ledgers that match one file** agree up to the highest position pinned in it. -/
theorem prefixPinned_of_verified (hinj : Set.InjOn sha.digest (hashedBytes rows rows'))
    {anchors : Option String} (h : verifyAnchors sha loads limits rows anchors = .ok ())
    (h' : verifyAnchors sha loads limits rows' anchors = .ok ()) {records : List AnchorRecord}
    (hread : readAnchors limits anchors = .ok records) :
    PrefixPinned (highestAnchored records) rows rows' := by
  obtain ⟨hchain, records₁, hread₁, hcheck⟩ := verifyAnchors_ok_iff.mp h
  obtain ⟨hchain', records₂, hread₂, hcheck'⟩ := verifyAnchors_ok_iff.mp h'
  obtain rfl : records = records₁ := Except.ok.inj (hread.symm.trans hread₁)
  obtain rfl : records = records₂ := Except.ok.inj (hread.symm.trans hread₂)
  rw [verifyChain_ok_iff] at hchain hchain'
  rcases highestAnchored_mem records with hnone | ⟨anchor, hin, hhighest⟩
  · rw [hnone]
    exact ⟨Int.natCast_nonneg _, Int.natCast_nonneg _, fun i _ _ hneg =>
      absurd hneg (not_lt.mpr (Int.natCast_nonneg i))⟩
  · obtain ⟨hle, live, hlive, hhash⟩ := checkAnchor_ok_iff.mp (hcheck anchor hin)
    obtain ⟨hle', live', hlive', hhash'⟩ := checkAnchor_ok_iff.mp (hcheck' anchor hin)
    rw [← hhighest]
    refine ⟨hle, hle', fun i hi hi' hlt => ?_⟩
    obtain ⟨hm, rfl⟩ := List.getElem?_eq_some_iff.mp hlive
    obtain ⟨hm', rfl⟩ := List.getElem?_eq_some_iff.mp hlive'
    have hpinned : _ = _ := Json.codes_injective (hhash.trans hhash'.symm)
    have hagree := agree_up_to hinj hchain hchain' _ hm hm' hpinned i (by omega) hi hi'
    exact ⟨hagree, (agree_before hinj hchain hchain' i hi hi' hagree).1⟩

end

/-! ## Which runs leave a file that verifies -/

section

variable {sha : Sha256} {limits : JsonValue.Limits}

/-- A pin as it is written: the time and the head. -/
structure Pin where
  anchoredAt : String
  head : ChainHead

def Pin.line (pin : Pin) : Json := anchorLine pin.anchoredAt pin.head

/-- A pin as it is read back. -/
def Pin.record (pin : Pin) : AnchorRecord where
  sequenceNumber := pin.head.sequenceNumber
  eventHash := JsonValue.codes pin.head.eventHash
  anchoredAt := JsonValue.codes pin.anchoredAt

/-- The file that some pins make. -/
def pinFile (pins : List Pin) : Option String :=
  if pins = [] then none
  else some (String.ofList (TextLines.unlines (pins.map fun pin => pin.line.canonical.toList)))

/-- A pin that names a row of the ledger, and can be written. -/
structure PinnedRow (limits : JsonValue.Limits) (rows : List LedgerRecord) (pin : Pin) : Prop where
  serialises : pin.line.serialises limits limits.depth = true
  row : ∃ (i : ℕ) (live : LedgerRecord), rows[i]? = some live ∧ pin.head.sequenceNumber = i + 1 ∧
    pin.head.eventHash = live.eventHash

/-- The ledger is a chain, and the file holds pins of its rows. -/
structure PinsKept (sha : Sha256) (limits : JsonValue.Limits) (w : AnchoredLedger)
    (pins : List Pin) : Prop where
  recorded : Recorded sha limits (w.ledger.getD .empty)
  file : w.anchors = pinFile pins
  pinned : ∀ pin ∈ pins, PinnedRow limits w.rows pin

theorem distinct_line (pin : Pin) : Json.Distinct pin.line := by
  have hkeys : ["anchored_at", "event_hash", "sequence_number"].Nodup := by decide
  refine .obj _ hkeys fun f hf => ?_
  simp only [List.mem_cons, List.not_mem_nil, or_false] at hf
  rcases hf with rfl | rfl | rfl
  · exact .str _
  · exact .str _
  · exact .int _

/-- The line of a pin is read back as the pin. -/
theorem parseAnchorLine_line {rows : List LedgerRecord} {pin : Pin}
    (h : PinnedRow limits rows pin) (lineNumber : ℕ) :
    parseAnchorLine limits pin.line.canonical.toList lineNumber = .ok pin.record := by
  obtain ⟨fields, hread, -, hlookup⟩ := Json.loads_obj (distinct_line pin) h.serialises
  have hsequence : JsonValue.lookup "sequence_number" fields =
    some (.int pin.head.sequenceNumber) := hlookup _
  have hhash : JsonValue.lookup "event_hash" fields =
    some (.str (JsonValue.codes pin.head.eventHash)) := hlookup _
  have hstamp : JsonValue.lookup "anchored_at" fields =
    some (.str (JsonValue.codes pin.anchoredAt)) := hlookup _
  have hload : JsonValue.loads limits pin.line.canonical = .ok (.obj fields) := hread
  obtain ⟨i, live, -, hposition, -⟩ := h.row
  have hpositive : ¬ pin.head.sequenceNumber < 1 := by omega
  simp only [parseAnchorLine, String.ofList_toList, hload, hsequence, hhash, hstamp, hpositive,
    if_false]
  rfl

/-- The lines of pins are read back as the pins. -/
theorem readAnchorLines_lines {rows : List LedgerRecord} {pins : List Pin}
    (h : ∀ pin ∈ pins, PinnedRow limits rows pin) (lineNumber : ℕ) :
    readAnchorLines limits lineNumber (pins.map fun pin => pin.line.canonical.toList) =
      .ok (pins.map Pin.record) := by
  induction pins generalizing lineNumber with
  | nil => rfl
  | cons pin pins ih =>
      obtain ⟨hpin, hpins⟩ := List.forall_mem_cons.mp h
      have hfits := Json.fits_toValue (distinct_line pin) hpin.serialises
      have hblank : TextLines.isBlank pin.line.canonical.toList = false := by
        rw [← Json.dumps_toValue]
        exact TextLines.dumps_not_blank hfits
      rw [List.map_cons, readAnchorLines, if_neg (Bool.eq_false_iff.mp hblank),
        parseAnchorLine_line hpin, ih hpins]
      rfl

/-- The file of some pins is read back as the pins; a file that was never written is refused. -/
theorem readAnchors_pinFile {rows : List LedgerRecord} {pins : List Pin}
    (h : ∀ pin ∈ pins, PinnedRow limits rows pin) :
    readAnchors limits (pinFile pins) =
      if pins = [] then .error (.format 1) else .ok (pins.map Pin.record) := by
  cases pins with
  | nil => rfl
  | cons pin pins =>
      have hlines : ∀ line ∈ (pin :: pins).map fun pin => pin.line.canonical.toList,
          TextLines.OneLine line := by
        intro line hline
        obtain ⟨other, hother, rfl⟩ := List.mem_map.mp hline
        rw [← Json.dumps_toValue]
        exact TextLines.oneLine_dumps
          (Json.fits_toValue (distinct_line other) (h other hother).serialises)
      rw [pinFile, if_neg (List.cons_ne_nil pin pins), if_neg (List.cons_ne_nil pin pins),
        readAnchors, String.toList_ofList, TextLines.splitLines_unlines hlines,
        readAnchorLines_lines h]
      rfl

/-- A pin of a row matches it. -/
theorem checkAnchor_record {rows : List LedgerRecord} {pin : Pin}
    (h : PinnedRow limits rows pin) : checkAnchor rows pin.record = .ok () := by
  obtain ⟨i, live, hlive, hposition, hhash⟩ := h.row
  have hsequence : pin.record.sequenceNumber = i + 1 := hposition
  obtain ⟨hi, -⟩ := List.getElem?_eq_some_iff.mp hlive
  refine checkAnchor_ok_iff.mpr ⟨by rw [hsequence]; omega, live, ?_, ?_⟩
  · have hindex : (pin.record.sequenceNumber - 1).toNat = i := by omega
    rw [hindex, hlive]
  · rw [← hhash]
    rfl

/-- **A file of pins verifies**; a file without a pin is refused for its format. -/
theorem verifyAnchors_pins {w : AnchoredLedger} {pins : List Pin} (h : PinsKept sha limits w pins) :
    verifyAnchors sha (readEnvelope limits) limits w.rows w.anchors =
      if pins = [] then .error (.format 1) else .ok () := by
  have hchain : verifyChain sha (readEnvelope limits) w.rows = .ok () :=
    verifyChain_ok_iff.mpr h.recorded.accepted
  by_cases hpins : pins = []
  · rw [if_pos hpins, verifyAnchors, hchain, h.file, readAnchors_pinFile h.pinned, if_pos hpins]
    rfl
  · rw [if_neg hpins, verifyAnchors_ok_iff, h.file, readAnchors_pinFile h.pinned, if_neg hpins]
    refine ⟨hchain, _, rfl, fun anchor hin => ?_⟩
    obtain ⟨pin, hpin, rfl⟩ := List.mem_map.mp hin
    exact checkAnchor_record (h.pinned pin hpin)

/-! ### One operation -/

theorem pinnedRow_append {rows more : List LedgerRecord} {pin : Pin}
    (h : PinnedRow limits rows pin) : PinnedRow limits (rows ++ more) pin := by
  obtain ⟨i, live, hlive, hposition, hhash⟩ := h.row
  obtain ⟨hi, -⟩ := List.getElem?_eq_some_iff.mp hlive
  exact ⟨h.serialises, i, live, (List.getElem?_append_left hi).trans hlive, hposition, hhash⟩

/-- The last row, as it is pinned. -/
theorem head_pins {rows : List LedgerRecord} {last : ChainHead}
    (hchain : HashChain.Accepted (RowVerified sha (readEnvelope limits)) ChainState.next
      (1, genesisPrevHash) rows) (h : head rows = some last) :
    ∃ (i : ℕ) (live : LedgerRecord), rows[i]? = some live ∧ last.sequenceNumber = i + 1 ∧
      last.eventHash = live.eventHash := by
  obtain ⟨live, hlive, rfl⟩ := Option.map_eq_some_iff.mp h
  have hposition := last_sequenceNumber hchain hlive
  have hne : rows ≠ [] := fun hnil => by simp [hnil] at hlive
  have hpos := List.length_pos_iff.mpr hne
  rw [List.getLast?_eq_getElem?] at hlive
  refine ⟨rows.length - 1, live, hlive, ?_, rfl⟩
  show live.sequenceNumber = _
  rw [hposition]
  omega

/-- A pinning changes nothing, or adds the pin of the last row. -/
theorem anchorHead_cases (sha : Sha256) (limits : JsonValue.Limits) (env : AnchorEnv)
    (ledger : Option (List LedgerRecord)) (anchors : Option String) :
    ((∀ last, (anchorHead sha limits env ledger anchors).1 ≠ .ok (some last)) ∧
        (anchorHead sha limits env ledger anchors).2 = anchors) ∨
      ∃ rows last, ledger = some rows ∧ head rows = some last ∧
        (anchorLine env.anchoredAt last).serialises limits limits.depth = true ∧
        anchorHead sha limits env ledger anchors = (.ok (some last),
          some (anchors.getD "" ++ (anchorLine env.anchoredAt last).canonical ++ "\n")) := by
  cases ledger with
  | none => exact .inl ⟨fun last h => (by cases h), rfl⟩
  | some rows =>
      unfold anchorHead
      dsimp only
      cases verifyChain sha (readEnvelope limits) rows with
      | error e => exact .inl ⟨fun last h => (by cases h), rfl⟩
      | ok a =>
          cases hhead : head rows with
          | none => exact .inl ⟨fun last h => (by cases h), rfl⟩
          | some last =>
              dsimp only
              by_cases hserialises :
                  (!(anchorLine env.anchoredAt last).serialises limits limits.depth) = true
              · rw [if_pos hserialises]
                exact .inl ⟨fun other h => (by cases h), rfl⟩
              · rw [if_neg hserialises]
                rw [Bool.not_eq_true', Bool.not_eq_false] at hserialises
                by_cases hopen : env.openRaises
                · rw [if_pos hopen]
                  exact .inl ⟨fun other h => (by cases h), rfl⟩
                · rw [if_neg hopen]
                  exact .inr ⟨rows, last, rfl, hhead, hserialises, rfl⟩

/-- One more line in the file of some pins. -/
theorem pinFile_concat (pins : List Pin) (pin : Pin) :
    some ((pinFile pins).getD "" ++ pin.line.canonical ++ "\n") = pinFile (pins ++ [pin]) := by
  have hne : pins ++ [pin] ≠ [] := List.concat_ne_nil pin pins
  rw [pinFile, pinFile, if_neg hne, List.map_append, List.map_singleton, TextLines.unlines_concat]
  have hold : (if pins = [] then none else
      some (String.ofList (TextLines.unlines (pins.map fun pin => pin.line.canonical.toList)))).getD
        "" = String.ofList (TextLines.unlines (pins.map fun pin => pin.line.canonical.toList)) := by
    by_cases hpins : pins = []
    · rw [if_pos hpins, hpins]
      rfl
    · rw [if_neg hpins]
      rfl
  rw [hold]
  refine congrArg some (String.toList_injective ?_)
  simp

/-- One operation keeps the pins, or adds one and says so. -/
theorem pinsKept_step {w : AnchoredLedger} {pins : List Pin} (h : PinsKept sha limits w pins)
    (op : AnchoringOp) :
    (¬ Pinned (transition (anchoringStep sha limits) w op) ∧
        PinsKept sha limits (anchoringStep sha limits w op).2 pins) ∨
      Pinned (transition (anchoringStep sha limits) w op) ∧
        ∃ pin, PinsKept sha limits (anchoringStep sha limits w op).2 (pins ++ [pin]) := by
  cases op with
  | openStore =>
      refine .inl ⟨fun ⟨last, hout⟩ => (by cases hout), ?_⟩
      exact ⟨h.recorded, h.file, h.pinned⟩
  | append op =>
      refine .inl ⟨fun ⟨last, hout⟩ => (by cases hout), ?_⟩
      refine ⟨recorded_step _ op h.recorded, h.file, fun pin hpin => ?_⟩
      have hpinned := h.pinned pin hpin
      rcases appendStep_cases sha limits (w.ledger.getD .empty) op with ⟨e, hstep⟩ | ⟨-, hstep⟩
      · simpa only [anchoringStep, AnchoredLedger.rows, hstep, Option.getD_some] using hpinned
      · simp only [anchoringStep, AnchoredLedger.rows, hstep, Option.getD_some]
        exact pinnedRow_append hpinned
  | anchorHead env =>
      rcases anchorHead_cases sha limits env (w.ledger.map (·.rows)) w.anchors with
        ⟨hnone, hfile⟩ | ⟨rows, last, hrows, hlast, hserialises, hwritten⟩
      · refine .inl ⟨?_, h.recorded, hfile.trans h.file, h.pinned⟩
        rintro ⟨last, hout⟩
        have hresult : AnchoringReply.anchored (anchorHead sha limits env
          (w.ledger.map (·.rows)) w.anchors).1 = .anchored (.ok (some last)) := hout
        exact hnone last (AnchoringReply.anchored.inj hresult)
      · have hstep : anchoringStep sha limits w (.anchorHead env) = (.anchored (.ok (some last)),
            { w with anchors := some (w.anchors.getD "" ++
              (anchorLine env.anchoredAt last).canonical ++ "\n") }) := by
          simp only [anchoringStep, hwritten]
        obtain ⟨ledger, hledger, rfl⟩ := Option.map_eq_some_iff.mp hrows
        have hsame : w.rows = ledger.rows := by rw [AnchoredLedger.rows, hledger, Option.getD_some]
        have hchain := h.recorded.accepted
        rw [hledger, Option.getD_some] at hchain
        refine .inr ⟨⟨last, congrArg Prod.fst hstep⟩, ⟨env.anchoredAt, last⟩, ?_⟩
        rw [hstep]
        refine ⟨h.recorded, ?_, fun pin hpin => ?_⟩
        · rw [← pinFile_concat, ← h.file]
          rfl
        · rcases List.mem_append.mp hpin with hpin | hpin
          · exact h.pinned pin hpin
          · rw [List.mem_singleton.mp hpin]
            refine ⟨hserialises, ?_⟩
            show ∃ (i : ℕ) (live : LedgerRecord), w.rows[i]? = some live ∧ _
            rw [hsame]
            exact head_pins hchain hlast

/-! ### Every run -/

/-- A run leaves the file of its pins, and there are some exactly when an operation wrote one. -/
theorem pinsKept_run (sha : Sha256) (limits : JsonValue.Limits) (ops : List AnchoringOp) :
    ∃ pins, PinsKept sha limits (run (anchoringStep sha limits) .fresh ops) pins ∧
      (pins ≠ [] ↔ ∃ t ∈ trace (anchoringStep sha limits) .fresh ops, Pinned t) := by
  induction ops using List.reverseRecOn with
  | nil =>
      refine ⟨[], ⟨recorded_empty, rfl, fun pin hpin => absurd hpin List.not_mem_nil⟩, ?_⟩
      exact iff_of_false (fun h => h rfl) fun ⟨t, ht, _⟩ => List.not_mem_nil ht
  | append_singleton ops op ih =>
      obtain ⟨pins, hkept, hsome⟩ := ih
      rw [run_append, trace_append]
      rcases pinsKept_step hkept op with ⟨hnone, hstep⟩ | ⟨hpinned, pin, hstep⟩
      · refine ⟨pins, hstep, hsome.trans ⟨?_, ?_⟩⟩
        · rintro ⟨t, ht, hp⟩
          exact ⟨t, List.mem_append_left _ ht, hp⟩
        · rintro ⟨t, ht, hp⟩
          rcases List.mem_append.mp ht with ht | ht
          · exact ⟨t, ht, hp⟩
          · rw [trace_cons, trace_nil, List.mem_singleton] at ht
            exact absurd (ht ▸ hp) hnone
      · refine ⟨pins ++ [pin], hstep, iff_of_true (List.concat_ne_nil pin pins) ?_⟩
        exact ⟨_, List.mem_append_right _ (.head _), hpinned⟩

/-- **Anchors pin the prefix.**  After any interleaving of appends and pinnings the pins verify when
one was written, and are refused for their format when none was; and two ledgers that verify against
one file, under a hash that is injective on what they hash, agree up to the highest position pinned
in it. -/
theorem anchors_pin :
    (∀ (sha : Sha256) (limits : JsonValue.Limits) (ops : List AnchoringOp),
      ((∃ t ∈ trace (anchoringStep sha limits) .fresh ops, Pinned t) →
        verifyAnchors sha (readEnvelope limits) limits
          (run (anchoringStep sha limits) .fresh ops).rows
          (run (anchoringStep sha limits) .fresh ops).anchors = .ok ()) ∧
      ((∀ t ∈ trace (anchoringStep sha limits) .fresh ops, ¬ Pinned t) →
        verifyAnchors sha (readEnvelope limits) limits
          (run (anchoringStep sha limits) .fresh ops).rows
          (run (anchoringStep sha limits) .fresh ops).anchors = .error (.format 1))) ∧
    ∀ (sha : Sha256) (loads : EnvelopeReader) (limits : JsonValue.Limits)
      (rows rows' : List LedgerRecord) (anchors : Option String) (records : List AnchorRecord),
      Set.InjOn sha.digest (hashedBytes rows rows') →
      verifyAnchors sha loads limits rows anchors = .ok () →
      verifyAnchors sha loads limits rows' anchors = .ok () →
      readAnchors limits anchors = .ok records →
      PrefixPinned (highestAnchored records) rows rows' := by
  constructor
  · intro sha limits ops
    obtain ⟨pins, hkept, hsome⟩ := pinsKept_run sha limits ops
    rw [verifyAnchors_pins hkept]
    refine ⟨fun hwritten => if_neg (hsome.mpr hwritten), fun hnone => if_pos ?_⟩
    by_contra hpins
    obtain ⟨t, ht, hpinned⟩ := hsome.mp hpins
    exact hnone t ht hpinned
  · intro sha loads limits rows rows' anchors records hinj h h' hread
    exact prefixPinned_of_verified hinj h h' hread

/-- SHA-256 on the messages of the first row and of the row behind it. -/
def chainSha : Sha256 :=
  .ofTwo (heartbeatRow heartbeatSha).digestBytes heartbeatDigest
    [93, 185, 244, 30, 63, 109, 204, 0, 84, 148, 33, 170, 235, 235, 174, 114,
      135, 100, 161, 51, 248, 23, 232, 163, 196, 56, 60, 6, 178, 67, 108, 221] rfl rfl

/-- The kernel's next row, behind either first row. -/
def nextHeartbeat (sha : Sha256) : LedgerRecord where
  sequenceNumber := 2
  eventType := "Heartbeat"
  createdAt := "2026-01-01T00:00:10.000000+00:00"
  component := "riskkernel"
  payloadJson := emptyEnvelope
  payloadSchemaVersion := 1
  prevHash := (heartbeatRow sha).eventHash
  eventHash := computeEventHash sha 2 "Heartbeat" "2026-01-01T00:00:10.000000+00:00"
    emptyEnvelope (heartbeatRow sha).eventHash

theorem verifyChain_heartbeats (sha : Sha256) {eventType createdAt : String}
    (hsame : (firstRow sha eventType createdAt).eventHash = (heartbeatRow sha).eventHash) :
    verifyChain sha emptyEnvelopeReader [firstRow sha eventType createdAt, nextHeartbeat sha] =
      .ok () :=
  verifyChain_ok_iff.mpr
    ⟨⟨rfl, rfl, rfl, if_pos rfl⟩, ⟨rfl, rfl, hsame.symm, if_pos rfl⟩, trivial⟩

/-- The pins of both rows, the second written ten seconds after the first. -/
def heartbeatPins : List Pin :=
  [⟨"2026-01-01T00:00:01.000000+00:00", ⟨1, (heartbeatRow chainSha).eventHash⟩⟩,
    ⟨"2026-01-01T00:00:11.000000+00:00", ⟨2, (nextHeartbeat chainSha).eventHash⟩⟩]

/-- One file that two ledgers of two rows match. -/
theorem heartbeat_prefixPinned :
    ∃ records, readAnchors ⟨4300, 1000⟩ (pinFile heartbeatPins) = .ok records ∧
      highestAnchored records = 2 ∧
      PrefixPinned (highestAnchored records) [heartbeatRow chainSha, nextHeartbeat chainSha]
        [shiftedRow chainSha, nextHeartbeat chainSha] := by
  have hpinned : ∀ first : LedgerRecord, first.eventHash = (heartbeatRow chainSha).eventHash →
      ∀ pin ∈ heartbeatPins, PinnedRow ⟨4300, 1000⟩ [first, nextHeartbeat chainSha] pin := by
    intro first hfirst pin hpin
    rcases List.mem_cons.mp hpin with rfl | hpin
    · exact ⟨by decide, 0, _, rfl, rfl, hfirst.symm⟩
    · rw [List.mem_singleton.mp hpin]
      exact ⟨by decide, 1, _, rfl, rfl, rfl⟩
  have hread : readAnchors ⟨4300, 1000⟩ (pinFile heartbeatPins) =
      .ok (heartbeatPins.map Pin.record) := readAnchors_pinFile (hpinned _ rfl)
  have hverified : ∀ first : LedgerRecord,
      first.eventHash = (heartbeatRow chainSha).eventHash →
      verifyChain chainSha emptyEnvelopeReader [first, nextHeartbeat chainSha] = .ok () →
      verifyAnchors chainSha emptyEnvelopeReader ⟨4300, 1000⟩ [first, nextHeartbeat chainSha]
        (pinFile heartbeatPins) = .ok () := by
    intro first hfirst hchain
    refine verifyAnchors_ok_iff.mpr ⟨hchain, _, hread, fun anchor hin => ?_⟩
    obtain ⟨pin, hpin, rfl⟩ := List.mem_map.mp hin
    exact checkAnchor_record (hpinned first hfirst pin hpin)
  have hinj : Set.InjOn chainSha.digest (hashedBytes [heartbeatRow chainSha, nextHeartbeat chainSha]
      [shiftedRow chainSha, nextHeartbeat chainSha]) := by
    refine Sha256.injOn_ofTwo (nextHeartbeat chainSha).digestBytes (by decide) ?_
    rintro message ⟨row, hrow, rfl⟩
    simp only [List.cons_append, List.nil_append, List.mem_cons, List.not_mem_nil, or_false] at hrow
    have hfirst : ∀ sha sha', (heartbeatRow sha).digestBytes = (heartbeatRow sha').digestBytes :=
      fun _ _ => rfl
    rcases hrow with rfl | rfl | rfl | rfl
    · exact .inl (hfirst _ _)
    · exact .inr rfl
    · exact .inl ((digestBytes_shiftedRow chainSha).trans (hfirst _ _))
    · exact .inr rfl
  exact ⟨_, hread, rfl, anchors_pin.2 chainSha emptyEnvelopeReader ⟨4300, 1000⟩ _ _ _ _ hinj
    (hverified _ rfl (verifyChain_heartbeats chainSha rfl))
    (hverified _ (eventHash_shiftedRow chainSha)
      (verifyChain_heartbeats chainSha (eventHash_shiftedRow chainSha))) hread⟩

/-- An append of an event without data. -/
def heartbeatAppend : AppendOp where
  env := ⟨"2026-01-01T00:00:00.000000+00:00", false, false, false, false⟩
  event :=
    { event := ⟨"Heartbeat", "riskkernel", 1, []⟩
      distinct := .obj [] List.nodup_nil fun _ h => absurd h List.not_mem_nil }

/-- A ledger that was appended to, but of which no head was pinned, is refused. -/
theorem unpinned_refused :
    ¬ ∀ (sha : Sha256) (limits : JsonValue.Limits) (ops : List AnchoringOp),
      verifyAnchors sha (readEnvelope limits) limits
        (run (anchoringStep sha limits) .fresh ops).rows
        (run (anchoringStep sha limits) .fresh ops).anchors = .ok () := by
  intro hclaim
  have hrun := hclaim heartbeatSha ⟨4300, 1000⟩ [.append heartbeatAppend]
  obtain ⟨-, records, hread, -⟩ := verifyAnchors_ok_iff.mp hrun
  have hrefused : readAnchors ⟨4300, 1000⟩
      (run (anchoringStep heartbeatSha ⟨4300, 1000⟩) .fresh [.append heartbeatAppend]).anchors =
        .error (.format 1) := rfl
  rw [hrefused] at hread
  cases hread

end

end Windbreak
