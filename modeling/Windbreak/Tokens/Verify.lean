import Windbreak.Core.Hex
import Windbreak.RiskKernel.Context

/-!
# Approval tokens: claims, canonical bytes, verification

A token is a set of claims and a signature over their canonical bytes.  Verification recomputes
the tag, compares it with the decoded signature, checks the expiry, and consumes the single-use
registry last, so that a token that fails an earlier step burns nothing.

HMAC-SHA256 is the one part that is not the program's own: it enters as `HmacSha256`, a function of
key and message with 32-byte output.

* **`verifyToken_valid`** — what a valid verdict means.
* **`verifyToken_registry`** — what any verdict does to the registry.
-/

namespace Windbreak

/-- The keyed hash tokens are signed with. -/
structure HmacSha256 where
  digest : Bytes → Bytes → Bytes
  digest_length : ∀ key message, (digest key message).length = 32

/-- Signing-key material of admissible length. -/
structure SigningKey where
  material : Bytes
  long_enough : 32 ≤ material.length

/-- The claims a token asserts. Their texts hold no surrogates. -/
structure ApprovalTokenClaims where
  intentId : String
  marketTicker : String
  outcome : String
  action : String
  limitPricePips : PricePips
  countCentis : ContractCentis
  maxFeeMicros : MoneyMicros
  expiresAt : ℤ
  idempotencyKey : String
  configHash : String
  kernelSequenceNumber : ℤ
  deriving DecidableEq, Repr

/-- The domain-separation prefix of every signed encoding; it ends in a zero byte. -/
def domainPrefix : String := "windbreak.approval-token.v1\x00"

/-- The exact bytes a signature is computed over. -/
def canonicalClaimsBytes (claims : ApprovalTokenClaims) : Bytes :=
  let payload := Json.obj
    [("token_schema_version", .int 1), ("intent_id", .str claims.intentId),
      ("market_ticker", .str claims.marketTicker), ("outcome", .str claims.outcome),
      ("action", .str claims.action), ("limit_price_pips", .int claims.limitPricePips.value),
      ("count_centis", .int claims.countCentis.value),
      ("max_fee_micros", .int claims.maxFeeMicros.value), ("expires_at", .int claims.expiresAt),
      ("idempotency_key", .str claims.idempotencyKey), ("config_hash", .str claims.configHash),
      ("kernel_sequence_number", .int claims.kernelSequenceNumber)]
  (domainPrefix ++ payload.canonical).toUTF8.data.toList

/-- Claims with their hex-encoded signature. -/
structure SignedApprovalToken where
  claims : ApprovalTokenClaims
  signatureHex : String
  deriving DecidableEq, Repr

/-- Sign claims. -/
def TokenIssuer.issue (hmac : HmacSha256) (key : SigningKey) (claims : ApprovalTokenClaims) :
    SignedApprovalToken :=
  ⟨claims, Hex.hex (hmac.digest key.material (canonicalClaimsBytes claims))⟩

/-! ## The single-use registry -/

/-- The signatures consumed so far, in canonical spelling. -/
structure InMemorySingleUseRegistry where
  consumed : Finset String
  deriving DecidableEq

namespace InMemorySingleUseRegistry

/-- Consume a signature once, reporting whether it was new. -/
def consume (registry : InMemorySingleUseRegistry) (signature : String) :
    Bool × InMemorySingleUseRegistry :=
  if signature ∈ registry.consumed then (false, registry)
  else (true, ⟨insert signature registry.consumed⟩)

end InMemorySingleUseRegistry

/-! ## Verification -/

/-- The verdict on a token. -/
structure VerificationResult where
  valid : Bool
  reason : String
  deriving DecidableEq, Repr

/-- Verify a token, fail-closed, in the pinned order: tag, expiry, single use. -/
def verifyToken (hmac : HmacSha256) (token : SignedApprovalToken) (key : Bytes) (nowEpochS : ℤ)
    (registry : InMemorySingleUseRegistry) : VerificationResult × InMemorySingleUseRegistry :=
  let expected := hmac.digest key (canonicalClaimsBytes token.claims)
  match Hex.fromHex token.signatureHex with
  | .error exc => (⟨false, s!"verification error: {exc}"⟩, registry)
  | .ok provided =>
    if expected ≠ provided then (⟨false, "signature mismatch"⟩, registry)
    else if nowEpochS ≥ token.claims.expiresAt then (⟨false, "token expired"⟩, registry)
    else
      match registry.consume (Hex.hex provided) with
      | (false, registry) => (⟨false, "token already consumed"⟩, registry)
      | (true, registry) => (⟨true, "ok"⟩, registry)

/-- The registry slot of a token that verifies: the canonical spelling of its tag. -/
def registrySlot (hmac : HmacSha256) (key : Bytes) (token : SignedApprovalToken) : String :=
  Hex.hex (hmac.digest key (canonicalClaimsBytes token.claims))

/-- **A valid verdict** means an authentic, unexpired token whose slot was free, and takes the
slot. -/
theorem verifyToken_valid {hmac : HmacSha256} {token : SignedApprovalToken} {key : Bytes} {now : ℤ}
    {registry : InMemorySingleUseRegistry} :
    (verifyToken hmac token key now registry).1.valid = true ↔
      Hex.fromHex token.signatureHex = .ok (hmac.digest key (canonicalClaimsBytes token.claims)) ∧
        now < token.claims.expiresAt ∧ registrySlot hmac key token ∉ registry.consumed := by
  unfold verifyToken
  cases hs : Hex.fromHex token.signatureHex with
  | error exc => simp
  | ok provided =>
      by_cases heq : hmac.digest key (canonicalClaimsBytes token.claims) = provided
      · by_cases hexp : now ≥ token.claims.expiresAt
        · simp [heq, hexp]
        · by_cases hslot : Hex.hex provided ∈ registry.consumed
          · simp [heq, hexp, InMemorySingleUseRegistry.consume, registrySlot, hslot]
          · have hlt : now < token.claims.expiresAt := not_le.mp hexp
            simp [heq, hexp, InMemorySingleUseRegistry.consume, registrySlot, hslot, hlt]
      · simp [heq, Ne.symm heq]

/-- **The registry** grows by the token's slot exactly when the verdict is valid. -/
theorem verifyToken_registry (hmac : HmacSha256) (token : SignedApprovalToken) (key : Bytes)
    (now : ℤ) (registry : InMemorySingleUseRegistry) :
    (verifyToken hmac token key now registry).2 =
      if (verifyToken hmac token key now registry).1.valid then
        ⟨insert (registrySlot hmac key token) registry.consumed⟩
      else registry := by
  unfold verifyToken
  cases hs : Hex.fromHex token.signatureHex with
  | error exc => simp
  | ok provided =>
      by_cases heq : hmac.digest key (canonicalClaimsBytes token.claims) = provided
      · by_cases hexp : now ≥ token.claims.expiresAt
        · simp [heq, hexp]
        · by_cases hslot : Hex.hex provided ∈ registry.consumed
          · simp [heq, hexp, InMemorySingleUseRegistry.consume, hslot]
          · simp [heq, hexp, InMemorySingleUseRegistry.consume, registrySlot, hslot]
      · simp [heq]

end Windbreak
