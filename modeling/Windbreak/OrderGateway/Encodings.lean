import Windbreak.Core.JsonFlat
import Windbreak.OrderGateway.Wal
import Windbreak.Tokens.Verify

/-!
# One encoding, one order

A token is signed over the canonical bytes of its claims, and an order is known by a digest of the
canonical bytes of its intent.  A text may hold surrogates here, as the strings of the source may:
the escapes of a character beyond the first plane are those of its two halves, so the texts that
differ in how such a character is spelled, and no others, have one encoding.

* **`canonicalClaimsBytes_eq_iff`**, **`canonicalIntentBytes_eq_iff`** — when two encodings are one.
* **`encodings_identify`** — what that means for signatures and for ids.
* **`surrogates_share_encodings`** — two claims, and two intents, with one encoding.
-/

namespace Windbreak.Encodings

open JsonValue

/-- A text: code points, unpaired surrogates included. -/
abbrev Text := {s : CodePoints // ∀ n ∈ s, n < 1114112}

theorem codes_lt (s : String) : ∀ n ∈ codes s, n < 1114112 := (Json.sound_codes s).1

/-- The text that a literal stands for. -/
def text (s : String) : Text := ⟨codes s, codes_lt s⟩

/-- The text with every high surrogate before a low one read as the character of the pair. -/
def Text.joined (s : Text) : Text := ⟨JsonValue.joined s.1, (sound_joined s.2).1⟩

/-! ## Claims -/

/-- The claims a token asserts. -/
structure ApprovalTokenClaims where
  intentId : Text
  marketTicker : Text
  outcome : Text
  action : Text
  limitPricePips : PricePips
  countCentis : ContractCentis
  maxFeeMicros : MoneyMicros
  expiresAt : ℤ
  idempotencyKey : Text
  configHash : Text
  kernelSequenceNumber : ℤ
  deriving DecidableEq

/-- The fields that a signature covers. -/
def claimsFields (claims : ApprovalTokenClaims) : List (CodePoints × JsonValue) :=
  [(codes "token_schema_version", .int 1), (codes "intent_id", .str claims.intentId.1),
    (codes "market_ticker", .str claims.marketTicker.1),
    (codes "outcome", .str claims.outcome.1), (codes "action", .str claims.action.1),
    (codes "limit_price_pips", .int claims.limitPricePips.value),
    (codes "count_centis", .int claims.countCentis.value),
    (codes "max_fee_micros", .int claims.maxFeeMicros.value),
    (codes "expires_at", .int claims.expiresAt),
    (codes "idempotency_key", .str claims.idempotencyKey.1),
    (codes "config_hash", .str claims.configHash.1),
    (codes "kernel_sequence_number", .int claims.kernelSequenceNumber)]

/-- The exact bytes a signature is computed over. -/
def canonicalClaimsBytes (claims : ApprovalTokenClaims) : Bytes :=
  (domainPrefix ++ String.ofList (dumps (.obj (claimsFields claims)))).toUTF8.data.toList

/-- The claims with the pairs of every text joined. -/
def ApprovalTokenClaims.joined (claims : ApprovalTokenClaims) : ApprovalTokenClaims :=
  { claims with
    intentId := claims.intentId.joined
    marketTicker := claims.marketTicker.joined
    outcome := claims.outcome.joined
    action := claims.action.joined
    idempotencyKey := claims.idempotencyKey.joined
    configHash := claims.configHash.joined }

/-- Claims whose texts hold no surrogates, by their code points. -/
def spelledClaims (claims : Windbreak.ApprovalTokenClaims) : ApprovalTokenClaims where
  intentId := text claims.intentId
  marketTicker := text claims.marketTicker
  outcome := text claims.outcome
  action := text claims.action
  limitPricePips := claims.limitPricePips
  countCentis := claims.countCentis
  maxFeeMicros := claims.maxFeeMicros
  expiresAt := claims.expiresAt
  idempotencyKey := text claims.idempotencyKey
  configHash := text claims.configHash
  kernelSequenceNumber := claims.kernelSequenceNumber

/-! ## Intents -/

/-- The fields that define an order. -/
structure OrderIntent where
  intentId : Text
  marketTicker : Text
  outcome : Text
  action : Text
  price : PricePips
  size : ContractCentis
  maxNotional : MoneyMicros
  impliedProbability : ProbabilityPpm
  idempotencyKey : Text
  deriving DecidableEq

/-- The fields that an order's id covers. -/
def intentFields (intent : OrderIntent) : List (CodePoints × JsonValue) :=
  [(codes "intent_id", .str intent.intentId.1), (codes "market_ticker", .str intent.marketTicker.1),
    (codes "outcome", .str intent.outcome.1), (codes "action", .str intent.action.1),
    (codes "price", .int intent.price.value), (codes "size", .int intent.size.value),
    (codes "max_notional", .int intent.maxNotional.value),
    (codes "implied_probability", .int intent.impliedProbability.value),
    (codes "idempotency_key", .str intent.idempotencyKey.1)]

/-- The bytes that are hashed for an id. -/
def canonicalIntentBytes (intent : OrderIntent) : Bytes :=
  (String.ofList (dumps (.obj (intentFields intent)))).toUTF8.data.toList

/-- The content-addressed id of an intent. -/
def clientOrderId (sha256 : HexDigest) (intent : OrderIntent) : String :=
  sha256 (canonicalIntentBytes intent)

/-- The intent with the pairs of every text joined. -/
def OrderIntent.joined (intent : OrderIntent) : OrderIntent :=
  { intent with
    intentId := intent.intentId.joined
    marketTicker := intent.marketTicker.joined
    outcome := intent.outcome.joined
    action := intent.action.joined
    idempotencyKey := intent.idempotencyKey.joined }

/-- An intent whose texts hold no surrogates, by their code points. -/
def spelledIntent (intent : Windbreak.OrderIntent) : OrderIntent where
  intentId := text intent.intentId
  marketTicker := text intent.marketTicker
  outcome := text intent.outcome
  action := text intent.action
  price := intent.price
  size := intent.size
  maxNotional := intent.maxNotional
  impliedProbability := intent.impliedProbability
  idempotencyKey := text intent.idempotencyKey

/-! ## The encodings of the gateway -/

theorem canonicalClaimsBytes_spelled (claims : Windbreak.ApprovalTokenClaims) :
    canonicalClaimsBytes (spelledClaims claims) = Windbreak.canonicalClaimsBytes claims := by
  rw [canonicalClaimsBytes, Windbreak.canonicalClaimsBytes,
    Json.canonical_of_toValue (v := .obj (claimsFields (spelledClaims claims)))]
  simp [Json.toValue, Json.toFields, claimsFields, spelledClaims, text]

theorem canonicalIntentBytes_spelled (intent : Windbreak.OrderIntent) :
    canonicalIntentBytes (spelledIntent intent) = Windbreak.canonicalIntentBytes intent := by
  rw [canonicalIntentBytes, Windbreak.canonicalIntentBytes,
    Json.canonical_of_toValue (v := .obj (intentFields (spelledIntent intent)))]
  simp [Json.toValue, Json.toFields, intentFields, spelledIntent, text]

/-! ## When two encodings are one -/

/-- Two texts with the same bytes are one. -/
theorem text_of_utf8 {s t : String} (h : s.toUTF8.data.toList = t.toUTF8.data.toList) : s = t := by
  have harray : s.toUTF8 = t.toUTF8 := ByteArray.ext (Array.toList_inj.mp h)
  exact String.toByteArray_inj.mp harray

/-- Behind one prefix, flat objects under the same names have one encoding exactly when their fields
are read alike. -/
theorem bytes_eq_iff (domain : String) {fields fields' : List (CodePoints × JsonValue)}
    (hkeys : (fields.map Prod.fst).Nodup) (hsound : ∀ f ∈ fields, Sound f.1)
    (hnames : fields.map Prod.fst = fields'.map Prod.fst) (h : ∀ f ∈ fields, Flat f.2)
    (h' : ∀ f ∈ fields', Flat f.2) :
    (domain ++ String.ofList (dumps (.obj fields))).toUTF8.data.toList =
        (domain ++ String.ofList (dumps (.obj fields'))).toUTF8.data.toList ↔
      fields.map readBackField = fields'.map readBackField := by
  rw [← dumps_obj_iff hkeys hsound hnames h h']
  refine ⟨fun hbytes => ?_, fun hdumps => by rw [hdumps]⟩
  exact String.ofList_inj.mp ((String.append_right_inj domain).mp (text_of_utf8 hbytes))

theorem flat_claimsFields (claims : ApprovalTokenClaims) :
    ∀ f ∈ claimsFields claims, Flat f.2 := by
  simp only [claimsFields, List.forall_mem_cons]
  exact ⟨.int _, .str _ claims.intentId.2, .str _ claims.marketTicker.2, .str _ claims.outcome.2,
    .str _ claims.action.2, .int _, .int _, .int _, .int _, .str _ claims.idempotencyKey.2,
    .str _ claims.configHash.2, .int _, fun _ h => absurd h List.not_mem_nil⟩

theorem flat_intentFields (intent : OrderIntent) : ∀ f ∈ intentFields intent, Flat f.2 := by
  simp only [intentFields, List.forall_mem_cons]
  exact ⟨.str _ intent.intentId.2, .str _ intent.marketTicker.2, .str _ intent.outcome.2,
    .str _ intent.action.2, .int _, .int _, .int _, .int _, .str _ intent.idempotencyKey.2,
    fun _ h => absurd h List.not_mem_nil⟩

/-- **The bytes signed** are those of the claims as they are read. -/
theorem canonicalClaimsBytes_eq_iff {a b : ApprovalTokenClaims} :
    canonicalClaimsBytes a = canonicalClaimsBytes b ↔ a.joined = b.joined := by
  have hkeys : ((claimsFields a).map Prod.fst).Nodup := by
    simp only [claimsFields, List.map_cons, List.map_nil]
    decide
  have hsound : ∀ f ∈ claimsFields a, Sound f.1 := by
    simp [claimsFields, Json.sound_codes]
  have hnames : (claimsFields a).map Prod.fst = (claimsFields b).map Prod.fst := rfl
  rw [canonicalClaimsBytes, canonicalClaimsBytes, bytes_eq_iff domainPrefix hkeys hsound hnames
    (flat_claimsFields a) (flat_claimsFields b)]
  simp [claimsFields, readBackField, readBack, ApprovalTokenClaims.joined, Text.joined,
    IntUnit.ext_iff]

/-- **The bytes behind an id** are those of the intent as it is read. -/
theorem canonicalIntentBytes_eq_iff {a b : OrderIntent} :
    canonicalIntentBytes a = canonicalIntentBytes b ↔ a.joined = b.joined := by
  have hkeys : ((intentFields a).map Prod.fst).Nodup := by
    simp only [intentFields, List.map_cons, List.map_nil]
    decide
  have hsound : ∀ f ∈ intentFields a, Sound f.1 := by
    simp [intentFields, Json.sound_codes]
  have hnames : (intentFields a).map Prod.fst = (intentFields b).map Prod.fst := rfl
  have hbytes := bytes_eq_iff "" hkeys hsound hnames (flat_intentFields a) (flat_intentFields b)
  rw [String.empty_append, String.empty_append] at hbytes
  rw [canonicalIntentBytes, canonicalIntentBytes, hbytes]
  simp [intentFields, readBackField, readBack, OrderIntent.joined, Text.joined, IntUnit.ext_iff]

/-! ## Signatures and ids -/

/-- The signature of claims under a key. -/
def signatureHex (hmac : HmacSha256) (key : SigningKey) (claims : ApprovalTokenClaims) : String :=
  Hex.hex (hmac.digest key.material (canonicalClaimsBytes claims))

/-- **Two orders that are read differently share no encoding**, and so no signature under one key
and no id, unless the hash has one value at their two encodings. -/
theorem encodings_identify (hmac : HmacSha256) (sha256 : HexDigest) :
    (∀ a b, canonicalClaimsBytes a = canonicalClaimsBytes b ↔ a.joined = b.joined) ∧
      (∀ a b, canonicalIntentBytes a = canonicalIntentBytes b ↔ a.joined = b.joined) ∧
      (∀ key a b, signatureHex hmac key a = signatureHex hmac key b → a.joined = b.joined ∨
        canonicalClaimsBytes a ≠ canonicalClaimsBytes b ∧
          hmac.digest key.material (canonicalClaimsBytes a) =
            hmac.digest key.material (canonicalClaimsBytes b)) ∧
      (∀ a b, clientOrderId sha256 a = clientOrderId sha256 b → a.joined = b.joined ∨
        canonicalIntentBytes a ≠ canonicalIntentBytes b ∧
          sha256 (canonicalIntentBytes a) = sha256 (canonicalIntentBytes b)) ∧
      ∀ s : Text, s.joined = s ↔ Sound s.1 := by
  refine ⟨fun a b => canonicalClaimsBytes_eq_iff, fun a b => canonicalIntentBytes_eq_iff,
    fun key a b hsignature => ?_, fun a b hid => ?_, fun s => ?_⟩
  · by_cases hbytes : canonicalClaimsBytes a = canonicalClaimsBytes b
    · exact .inl (canonicalClaimsBytes_eq_iff.mp hbytes)
    · exact .inr ⟨hbytes, Hex.hex_injective hsignature⟩
  · by_cases hbytes : canonicalIntentBytes a = canonicalIntentBytes b
    · exact .inl (canonicalIntentBytes_eq_iff.mp hbytes)
    · exact .inr ⟨hbytes, hid⟩
  · rw [← joined_eq_iff s.2]
    exact Subtype.ext_iff

/-! ## A character and its two surrogates -/

/-- Claims on a market of this name. -/
def claimsOn (ticker : Text) : ApprovalTokenClaims :=
  ⟨text "i", ticker, text "yes", text "buy", ⟨5000⟩, ⟨100⟩, ⟨0⟩, 0, text "k", text "c", 0⟩

/-- An intent on a market of this name. -/
def intentOn (ticker : Text) : OrderIntent :=
  ⟨text "i", ticker, text "yes", text "buy", ⟨5000⟩, ⟨100⟩, ⟨500000⟩, ⟨500000⟩, text "k"⟩

theorem pairSmile_lt : ∀ n ∈ [55357, 56832], n < 1114112 := by decide

theorem plainSmile_lt : ∀ n ∈ [128512], n < 1114112 := by decide

/-- A smile by its two surrogates. -/
def pairSmile : Text := ⟨[55357, 56832], pairSmile_lt⟩

/-- A smile as one character. -/
def plainSmile : Text := ⟨[128512], plainSmile_lt⟩

/-- Claims, and intents, on two markets whose names are spelled differently have one encoding. -/
theorem surrogates_share_encodings :
    (¬ ∀ a b : ApprovalTokenClaims, canonicalClaimsBytes a = canonicalClaimsBytes b → a = b) ∧
      ¬ ∀ a b : OrderIntent, canonicalIntentBytes a = canonicalIntentBytes b → a = b := by
  have hsmile : pairSmile.joined = plainSmile.joined := by decide
  refine ⟨fun h => ?_, fun h => ?_⟩
  · have hsame := h (claimsOn pairSmile) (claimsOn plainSmile) (canonicalClaimsBytes_eq_iff.mpr (by
      rw [ApprovalTokenClaims.joined, ApprovalTokenClaims.joined, claimsOn, claimsOn, hsmile]))
    exact absurd (congrArg ApprovalTokenClaims.marketTicker hsame) (by decide)
  · have hsame := h (intentOn pairSmile) (intentOn plainSmile) (canonicalIntentBytes_eq_iff.mpr (by
      rw [OrderIntent.joined, OrderIntent.joined, intentOn, intentOn, hsmile]))
    exact absurd (congrArg OrderIntent.marketTicker hsame) (by decide)

end Windbreak.Encodings
