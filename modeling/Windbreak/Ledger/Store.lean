import Mathlib.Data.Set.Function
import Windbreak.Core.HashChain
import Windbreak.Core.Hex

/-!
# The hash-chained ledger

A persisted row has eight columns, the last of them a SHA-256 digest over its position, its type,
its timestamp, its payload and the digest of the row before.  `verifyChain` walks the rows and
refuses the first whose position, digest, link or projected columns are wrong.

SHA-256 enters as `Sha256`, a function to 32 bytes.  `json.loads` enters as a reader that returns
what the envelope projects (`none` where it raises, or where a projected value equals no column),
so that everything below holds whatever a payload is.

**What the chain binds, and what it does not.**  The five hashed columns are joined without
separators.  The digests of two verified ledgers therefore determine, row by row, the joined text
only, and `identical_iff_sameSplit` says what is missing: how long the type and the timestamp are.
-/

namespace Windbreak

/-- The unkeyed hash rows are chained with. -/
structure Sha256 where
  digest : Bytes → Bytes
  digest_length : ∀ message, (digest message).length = 32

/-- A digest as lower-case hexadecimal text. -/
def Sha256.hexdigest (sha : Sha256) (message : Bytes) : String := Hex.hex (sha.digest message)

/-- The predecessor hash of the first row. -/
def genesisPrevHash : String := String.ofList (List.replicate 64 '0')

/-- A persisted row. -/
@[ext]
structure LedgerRecord where
  sequenceNumber : ℤ
  eventType : String
  createdAt : String
  component : String
  payloadJson : String
  payloadSchemaVersion : ℤ
  prevHash : String
  eventHash : String
  deriving DecidableEq

/-- The component and the schema version a payload's envelope projects. -/
abbrev EnvelopeReader := String → Option (String × ℤ)

/-- The text a record's hash is taken over. -/
def digestInput (sequenceNumber : ℤ) (eventType createdAt payloadJson prevHash : String) : String :=
  toString sequenceNumber ++ eventType ++ createdAt ++ payloadJson ++ prevHash

/-- A record's chained hash. -/
def computeEventHash (sha : Sha256) (sequenceNumber : ℤ)
    (eventType createdAt payloadJson prevHash : String) : String :=
  sha.hexdigest
    (digestInput sequenceNumber eventType createdAt payloadJson prevHash).toUTF8.data.toList

/-- The position of the first violation. -/
structure ChainIntegrityError where
  sequenceNumber : ℤ
  deriving DecidableEq

/-! ## Verification -/

/-- Check the projected columns of a row against its envelope. -/
def verifyEnvelope (loads : EnvelopeReader) (record : LedgerRecord) (expectedSeq : ℤ) :
    Except ChainIntegrityError Unit :=
  match loads record.payloadJson with
  | none => .error ⟨expectedSeq⟩
  | some (component, schemaVersion) =>
    if record.component = component ∧ record.payloadSchemaVersion = schemaVersion then .ok ()
    else .error ⟨expectedSeq⟩

/-- Check one row against its position and its predecessor's hash. -/
def verifyRow (sha : Sha256) (loads : EnvelopeReader) (record : LedgerRecord) (expectedSeq : ℤ)
    (expectedPrevHash : String) : Except ChainIntegrityError Unit :=
  if record.sequenceNumber ≠ expectedSeq then .error ⟨expectedSeq⟩
  else if computeEventHash sha record.sequenceNumber record.eventType record.createdAt
      record.payloadJson record.prevHash ≠ record.eventHash then .error ⟨expectedSeq⟩
  else if record.prevHash ≠ expectedPrevHash then .error ⟨expectedSeq⟩
  else verifyEnvelope loads record expectedSeq

/-- Check rows from a position and a predecessor's hash on. -/
def verifyRows (sha : Sha256) (loads : EnvelopeReader) :
    ℤ → String → List LedgerRecord → Except ChainIntegrityError Unit
  | _, _, [] => .ok ()
  | expectedSeq, expectedPrevHash, record :: records => do
    verifyRow sha loads record expectedSeq expectedPrevHash
    verifyRows sha loads (expectedSeq + 1) record.eventHash records

/-- Check a whole ledger. -/
def verifyChain (sha : Sha256) (loads : EnvelopeReader) (records : List LedgerRecord) :
    Except ChainIntegrityError Unit :=
  verifyRows sha loads 1 genesisPrevHash records

/-! ## What a verified row satisfies -/

/-- The position and the predecessor's hash that the next row must carry. -/
abbrev ChainState := ℤ × String

def ChainState.next (state : ChainState) (record : LedgerRecord) : ChainState :=
  (state.1 + 1, record.eventHash)

namespace LedgerRecord

/-- The text a row's hash is taken over. -/
def digestText (record : LedgerRecord) : String :=
  digestInput record.sequenceNumber record.eventType record.createdAt record.payloadJson
    record.prevHash

/-- The bytes a row's hash is taken over. -/
def digestBytes (record : LedgerRecord) : Bytes := record.digestText.toUTF8.data.toList

end LedgerRecord

/-- A row in its place. -/
structure RowVerified (sha : Sha256) (loads : EnvelopeReader) (state : ChainState)
    (record : LedgerRecord) : Prop where
  position : record.sequenceNumber = state.1
  hashed : sha.hexdigest record.digestBytes = record.eventHash
  linked : record.prevHash = state.2
  projected : loads record.payloadJson = some (record.component, record.payloadSchemaVersion)

theorem verifyRow_ok_iff {sha : Sha256} {loads : EnvelopeReader} {record : LedgerRecord}
    {expectedSeq : ℤ} {expectedPrevHash : String} :
    verifyRow sha loads record expectedSeq expectedPrevHash = .ok () ↔
      RowVerified sha loads (expectedSeq, expectedPrevHash) record := by
  constructor
  · intro h
    unfold verifyRow verifyEnvelope at h
    split_ifs at h with hseq hhash hprev
    cases hloads : loads record.payloadJson with
    | none => simp [hloads] at h
    | some projection =>
        obtain ⟨component, schemaVersion⟩ := projection
        simp only [hloads] at h
        split_ifs at h with hcolumns
        obtain ⟨rfl, rfl⟩ := hcolumns
        exact ⟨not_not.mp hseq, not_not.mp hhash, not_not.mp hprev, hloads⟩
  · rintro ⟨hseq, hhash, hprev, hloads⟩
    have hsame : computeEventHash sha record.sequenceNumber record.eventType record.createdAt
        record.payloadJson record.prevHash = record.eventHash := hhash
    rw [verifyRow, if_neg (not_not.mpr hseq), if_neg (not_not.mpr hsame),
      if_neg (not_not.mpr hprev), verifyEnvelope, hloads]
    simp

/-- **A ledger that verifies** is one whose rows are each in their place. -/
theorem verifyRows_ok_iff {sha : Sha256} {loads : EnvelopeReader} {records : List LedgerRecord}
    {expectedSeq : ℤ} {expectedPrevHash : String} :
    verifyRows sha loads expectedSeq expectedPrevHash records = .ok () ↔
      HashChain.Accepted (RowVerified sha loads) ChainState.next (expectedSeq, expectedPrevHash)
        records := by
  induction records generalizing expectedSeq expectedPrevHash with
  | nil => exact iff_of_true rfl trivial
  | cons record records ih =>
      rw [HashChain.Accepted, ← verifyRow_ok_iff, verifyRows]
      cases verifyRow sha loads record expectedSeq expectedPrevHash with
      | error e => simp [bind, Except.bind]
      | ok a =>
          simp only [bind, Except.bind, true_and]
          exact ih

theorem verifyChain_ok_iff {sha : Sha256} {loads : EnvelopeReader} {records : List LedgerRecord} :
    verifyChain sha loads records = .ok () ↔
      HashChain.Accepted (RowVerified sha loads) ChainState.next (1, genesisPrevHash) records :=
  verifyRows_ok_iff

/-! ## Lengths of the hashed columns -/

theorem Sha256.length_hexdigest (sha : Sha256) (message : Bytes) :
    (sha.hexdigest message).length = 64 := by
  rw [Sha256.hexdigest, Hex.length_hex, sha.digest_length]

theorem length_genesisPrevHash : genesisPrevHash.length = 64 := by
  unfold genesisPrevHash
  exact String.length_ofList.trans List.length_replicate

/-- Two states that expect the same position, and hashes of full length. -/
structure Comparable (state state' : ChainState) : Prop where
  position : state.1 = state'.1
  length : state.2.length = 64
  length' : state'.2.length = 64

/-- Rows whose type and timestamp are as long as each other's. -/
structure SameSplit (record record' : LedgerRecord) : Prop where
  eventType : record.eventType.length = record'.eventType.length
  createdAt : record.createdAt.length = record'.createdAt.length

/-- A text split in two at a known length from the left. -/
theorem append_inj_left {s t s' t' : String} (h : s ++ t = s' ++ t')
    (hlength : s.length = s'.length) : s = s' ∧ t = t' := by
  have hlist : s.toList ++ t.toList = s'.toList ++ t'.toList := by
    rw [← String.toList_append, ← String.toList_append, h]
  have hparts := List.append_inj hlist (by rw [String.length_toList, String.length_toList, hlength])
  exact ⟨String.toList_injective hparts.1, String.toList_injective hparts.2⟩

/-- A text split in two at a known length from the right. -/
theorem append_inj_right {s t s' t' : String} (h : s ++ t = s' ++ t')
    (hlength : t.length = t'.length) : s = s' ∧ t = t' := by
  have hlist : s.toList ++ t.toList = s'.toList ++ t'.toList := by
    rw [← String.toList_append, ← String.toList_append, h]
  have hparts := List.append_inj' hlist (by rw [String.length_toList, String.length_toList, hlength])
  exact ⟨String.toList_injective hparts.1, String.toList_injective hparts.2⟩

/-- The bytes hashed determine the text hashed. -/
theorem digestText_of_digestBytes {record record' : LedgerRecord}
    (h : record.digestBytes = record'.digestBytes) :
    record.digestText = record'.digestText := by
  have harray : record.digestText.toUTF8 = record'.digestText.toUTF8 :=
    ByteArray.ext (Array.toList_inj.mp h)
  exact String.toByteArray_inj.mp harray

/-! ## One row -/

/-- **The hashed text determines the columns of rows that are split alike**: the position is known,
the predecessor's hash has full length, and what lies between is cut where the other row's is. -/
theorem columns_of_digestText {record record' : LedgerRecord}
    (h : record.digestText = record'.digestText)
    (hseq : record.sequenceNumber = record'.sequenceNumber)
    (hprev : record.prevHash.length = record'.prevHash.length)
    (hsplit : SameSplit record record') :
    record.eventType = record'.eventType ∧ record.createdAt = record'.createdAt ∧
      record.payloadJson = record'.payloadJson ∧ record.prevHash = record'.prevHash := by
  simp only [LedgerRecord.digestText, digestInput, hseq] at h
  obtain ⟨hfront, hlink⟩ := append_inj_right h hprev
  have hcut : (toString record'.sequenceNumber ++ record.eventType ++ record.createdAt).length =
      (toString record'.sequenceNumber ++ record'.eventType ++ record'.createdAt).length := by
    simp only [String.length_append, hsplit.eventType, hsplit.createdAt]
  obtain ⟨hhead, hpayload⟩ := append_inj_left hfront hcut
  obtain ⟨hname, hstamp⟩ := append_inj_right hhead hsplit.createdAt
  exact ⟨(append_inj_left hname rfl).2, hstamp, hpayload, hlink⟩

section Binding

variable {sha : Sha256} {loads : EnvelopeReader}

/-- **A row's hash determines the row and the state before it**, if it is split like the other. -/
theorem row_bound {state state' : ChainState} {record record' : LedgerRecord}
    (hstate : Comparable state state') (hsplit : SameSplit record record')
    (hinj : sha.digest record.digestBytes = sha.digest record'.digestBytes →
      record.digestBytes = record'.digestBytes)
    (h : RowVerified sha loads state record) (h' : RowVerified sha loads state' record')
    (hhash : record.eventHash = record'.eventHash) : record = record' ∧ state = state' := by
  have hseq : record.sequenceNumber = record'.sequenceNumber := by
    rw [h.position, h'.position, hstate.position]
  have hprev : record.prevHash.length = record'.prevHash.length := by
    rw [h.linked, h'.linked, hstate.length, hstate.length']
  have hdigest : sha.digest record.digestBytes = sha.digest record'.digestBytes := by
    apply Hex.hex_injective
    show sha.hexdigest record.digestBytes = sha.hexdigest record'.digestBytes
    rw [h.hashed, h'.hashed, hhash]
  obtain ⟨htype, hstamp, hpayload, hlink⟩ :=
    columns_of_digestText (digestText_of_digestBytes (hinj hdigest)) hseq hprev hsplit
  have hprojected : (record.component, record.payloadSchemaVersion) =
      (record'.component, record'.payloadSchemaVersion) := by
    have hsome := h.projected
    rw [hpayload, h'.projected] at hsome
    exact (Option.some.inj hsome).symm
  simp only [Prod.mk.injEq] at hprojected
  refine ⟨LedgerRecord.ext hseq htype hstamp hprojected.1 hpayload hprojected.2 hlink hhash, ?_⟩
  exact Prod.ext hstate.position (by rw [← h.linked, ← h'.linked, hlink])

/-- The states after two verified rows are comparable again. -/
theorem comparable_next {state state' : ChainState} {record record' : LedgerRecord}
    (hstate : Comparable state state') (h : RowVerified sha loads state record)
    (h' : RowVerified sha loads state' record') :
    Comparable (state.next record) (state'.next record') := by
  refine ⟨congrArg (· + 1) hstate.position, ?_, ?_⟩
  · show record.eventHash.length = 64
    rw [← h.hashed, sha.length_hexdigest]
  · show record'.eventHash.length = 64
    rw [← h'.hashed, sha.length_hexdigest]

/-! ## Two ledgers -/

/-- The tip of a ledger: one position further for each row, and the last row's hash. -/
theorem tip_eq (state : ChainState) (records : List LedgerRecord) :
    HashChain.tip ChainState.next state records =
      (state.1 + records.length, ((records.getLast?).map (·.eventHash)).getD state.2) := by
  induction records generalizing state with
  | nil => simp
  | cons record records ih =>
      rw [HashChain.tip_cons, ih]
      cases records with
      | nil => simp [ChainState.next]
      | cons second rest =>
          simp only [ChainState.next, List.getLast?_cons_cons, List.length_cons]
          refine Prod.ext (by push_cast; omega) ?_
          cases hlast : (second :: rest).getLast? with
          | none => simp at hlast
          | some last => rfl

/-- The bytes that the rows of two ledgers are hashed over. -/
def hashedBytes (records records' : List LedgerRecord) : Set Bytes :=
  {message | ∃ record ∈ records ++ records', record.digestBytes = message}

/-- **What the last hash binds.**  Two ledgers that verify and end on the same hash are identical
exactly when their rows are split alike, row by row.  SHA-256 is assumed injective on what the two
ledgers hash. -/
theorem identical_iff_sameSplit (sha : Sha256) (loads : EnvelopeReader)
    (records records' : List LedgerRecord)
    (hinj : Set.InjOn sha.digest (hashedBytes records records'))
    (hverified : verifyChain sha loads records = .ok ())
    (hverified' : verifyChain sha loads records' = .ok ())
    (hlast : (records.getLast?).map (·.eventHash) = (records'.getLast?).map (·.eventHash)) :
    records = records' ↔ List.Forall₂ SameSplit records records' := by
  constructor
  · rintro rfl
    exact List.forall₂_same.mpr fun _ _ => ⟨rfl, rfl⟩
  · intro hsplit
    -- every row carries along that its bytes are among those the hash is injective on
    have halike : List.Forall₂ (fun record record' =>
        (record.digestBytes ∈ hashedBytes records records' ∧
          record'.digestBytes ∈ hashedBytes records records') ∧ SameSplit record record')
        records records' := by
      rw [List.forall₂_iff_zip]
      refine ⟨hsplit.length_eq, fun {record record'} hmem => ⟨⟨?_, ?_⟩, ?_⟩⟩
      · exact ⟨record, List.mem_append_left _ (List.of_mem_zip hmem).1, rfl⟩
      · exact ⟨record', List.mem_append_right _ (List.of_mem_zip hmem).2, rfl⟩
      · exact (List.forall₂_iff_zip.mp hsplit).2 hmem
    have hstart : Comparable (1, genesisPrevHash) (1, genesisPrevHash) :=
      ⟨rfl, length_genesisPrevHash, length_genesisPrevHash⟩
    have htip : HashChain.tip ChainState.next (1, genesisPrevHash) records =
        HashChain.tip ChainState.next (1, genesisPrevHash) records' := by
      rw [tip_eq, tip_eq, hsplit.length_eq, hlast]
    refine (HashChain.eq_of_tip_eq (fun hstate _ h h' => comparable_next hstate h h') ?_ halike
      hstart (verifyChain_ok_iff.mp hverified) (verifyChain_ok_iff.mp hverified') htip).1
    rintro state state' record record' hstate ⟨⟨hmem, hmem'⟩, hrow⟩ h h' hnext
    exact row_bound hstate hrow (fun hdigest => hinj hmem hmem' hdigest) h h'
      (congrArg Prod.snd hnext)

end Binding

/-! ## A boundary moved -/

/-- An envelope with no data. -/
def emptyEnvelope : String :=
  "\x7b\"component\":\"riskkernel\",\"data\":\x7b\x7d,\"schema_version\":1\x7d"

/-- What `json.loads` reads of it. -/
def emptyEnvelopeReader : EnvelopeReader := fun payload =>
  if payload = emptyEnvelope then some ("riskkernel", 1) else none

/-- A first row with a given type and timestamp, correctly hashed. -/
def firstRow (sha : Sha256) (eventType createdAt : String) : LedgerRecord where
  sequenceNumber := 1
  eventType := eventType
  createdAt := createdAt
  component := "riskkernel"
  payloadJson := emptyEnvelope
  payloadSchemaVersion := 1
  prevHash := genesisPrevHash
  eventHash := computeEventHash sha 1 eventType createdAt emptyEnvelope genesisPrevHash

theorem verifyChain_firstRow (sha : Sha256) (eventType createdAt : String) :
    verifyChain sha emptyEnvelopeReader [firstRow sha eventType createdAt] = .ok () :=
  verifyChain_ok_iff.mpr ⟨⟨rfl, rfl, rfl, if_pos rfl⟩, trivial⟩

/-- A row of the kernel's, and the same row with the first digit of its year moved into its
type. -/
def heartbeatRow (sha : Sha256) : LedgerRecord :=
  firstRow sha "Heartbeat" "2026-01-01T00:00:00.000000+00:00"

def shiftedRow (sha : Sha256) : LedgerRecord :=
  firstRow sha "Heartbeat2" "026-01-01T00:00:00.000000+00:00"

theorem heartbeatRow_ne_shiftedRow (sha : Sha256) : heartbeatRow sha ≠ shiftedRow sha := by
  intro h
  have htype : "Heartbeat" = "Heartbeat2" := congrArg LedgerRecord.eventType h
  exact absurd htype (by decide)

theorem digestBytes_shiftedRow (sha : Sha256) :
    (shiftedRow sha).digestBytes = (heartbeatRow sha).digestBytes := by
  have hjoined : "Heartbeat2" ++ "026-01-01T00:00:00.000000+00:00" =
      "Heartbeat" ++ "2026-01-01T00:00:00.000000+00:00" := by decide
  have htext : (shiftedRow sha).digestText = (heartbeatRow sha).digestText := by
    show toString (1 : ℤ) ++ "Heartbeat2" ++ "026-01-01T00:00:00.000000+00:00" ++ emptyEnvelope ++
      genesisPrevHash = toString (1 : ℤ) ++ "Heartbeat" ++ "2026-01-01T00:00:00.000000+00:00" ++
      emptyEnvelope ++ genesisPrevHash
    have hfront : toString (1 : ℤ) ++ "Heartbeat2" ++ "026-01-01T00:00:00.000000+00:00" =
        toString (1 : ℤ) ++ "Heartbeat" ++ "2026-01-01T00:00:00.000000+00:00" := by
      rw [String.append_assoc, String.append_assoc, hjoined]
    rw [hfront]
  rw [LedgerRecord.digestBytes, htext, LedgerRecord.digestBytes]

theorem eventHash_shiftedRow (sha : Sha256) :
    (shiftedRow sha).eventHash = (heartbeatRow sha).eventHash :=
  congrArg sha.hexdigest (digestBytes_shiftedRow sha)

/-- **Whatever the hash**, the digit that changed columns goes unnoticed. -/
theorem boundary_not_bound :
    ¬ ∃ sha : Sha256, ∀ loads records records',
      verifyChain sha loads records = .ok () → verifyChain sha loads records' = .ok () →
      (records.getLast?).map (·.eventHash) = (records'.getLast?).map (·.eventHash) →
      records = records' := by
  rintro ⟨sha, hclaim⟩
  have hsame := hclaim emptyEnvelopeReader [heartbeatRow sha] [shiftedRow sha]
    (verifyChain_firstRow sha _ _) (verifyChain_firstRow sha _ _)
    (congrArg some (eventHash_shiftedRow sha).symm)
  exact heartbeatRow_ne_shiftedRow sha (List.cons.inj hsame).1

/-- A hash with one digest for a message and another for the rest. -/
def Sha256.ofTwo (message digest digest' : Bytes) (h : digest.length = 32)
    (h' : digest'.length = 32) : Sha256 where
  digest other := if other = message then digest else digest'
  digest_length other := by
    split
    · exact h
    · exact h'

/-- It tells two messages apart. -/
theorem Sha256.injOn_ofTwo {message digest digest' : Bytes} {h : digest.length = 32}
    {h' : digest'.length = 32} (message' : Bytes) (hne : digest ≠ digest') {texts : Set Bytes}
    (htwo : ∀ text ∈ texts, text = message ∨ text = message') :
    Set.InjOn (ofTwo message digest digest' h h').digest texts := by
  intro text htext other hother hsame
  dsimp only [ofTwo] at hsame
  by_cases hfirst : text = message
  · by_cases hfirst' : other = message
    · exact hfirst.trans hfirst'.symm
    · rw [if_pos hfirst, if_neg hfirst'] at hsame
      exact absurd hsame hne
  · by_cases hfirst' : other = message
    · rw [if_neg hfirst, if_pos hfirst'] at hsame
      exact absurd hsame.symm hne
    · exact ((htwo _ htext).resolve_left hfirst).trans ((htwo _ hother).resolve_left hfirst').symm

/-- The digest of the two rows. -/
def heartbeatDigest : Bytes :=
  [122, 206, 225, 255, 132, 88, 38, 19, 66, 73, 234, 69, 185, 235, 6, 156,
    2, 201, 19, 3, 250, 7, 65, 2, 149, 212, 124, 234, 242, 122, 152, 76]

/-- SHA-256 on the one message that the two rows hash. -/
def heartbeatSha : Sha256 := ⟨fun _ => heartbeatDigest, fun _ => rfl⟩

/-- SHA-256 is injective on what the two one-row ledgers hash, which is one message. -/
theorem injOn_heartbeat : Set.InjOn heartbeatSha.digest
    (hashedBytes [heartbeatRow heartbeatSha] [shiftedRow heartbeatSha]) := by
  have hbytes : ∀ row ∈ [heartbeatRow heartbeatSha] ++ [shiftedRow heartbeatSha],
      row.digestBytes = (heartbeatRow heartbeatSha).digestBytes := by
    intro row hrow
    rcases List.mem_cons.mp hrow with rfl | hrow
    · rfl
    · rw [List.mem_singleton.mp hrow, digestBytes_shiftedRow]
  rintro message ⟨record, hrecord, rfl⟩ message' ⟨record', hrecord', rfl⟩ -
  rw [hbytes record hrecord, hbytes record' hrecord']

/-- The two one-row ledgers meet every hypothesis, and are not split alike. -/
theorem shifted_ledgers_not_alike :
    ¬ List.Forall₂ SameSplit [heartbeatRow heartbeatSha] [shiftedRow heartbeatSha] := by
  intro hsplit
  have hsame := (identical_iff_sameSplit heartbeatSha emptyEnvelopeReader _ _ injOn_heartbeat
    (verifyChain_firstRow _ _ _) (verifyChain_firstRow _ _ _)
    (congrArg some (eventHash_shiftedRow _).symm)).mpr hsplit
  exact heartbeatRow_ne_shiftedRow heartbeatSha (List.cons.inj hsame).1

end Windbreak
