import Windbreak.Tokens.Verify

/-!
# Verify and consume

The gateway lets a token authorise an intent only when seven fields of its claims equal the
intent's, and only then asks the shared verification for a verdict, which it flattens into one
result.  Anything unrecognised is a rejection.

* **`verifyAndConsume_ok`** — what an `OK` means.
* **`verifyAndConsume_registry`** — only an `OK` takes a slot of the registry.
-/

namespace Windbreak

/-- The flat verdict. -/
inductive VerifyResult where
  | OK
  | INTENT_MISMATCH
  | BAD_SIGNATURE
  | EXPIRED
  | REPLAYED
  | REJECTED
  deriving DecidableEq, Repr

/-- The result a failure's reason maps to, if it is a recognised one. -/
def reasonToResult (reason : String) : Option VerifyResult :=
  if reason = "signature mismatch" then some .BAD_SIGNATURE
  else if reason = "token expired" then some .EXPIRED
  else if reason = "token already consumed" then some .REPLAYED
  else none

/-- Whether claims authorise exactly this intent. -/
def intentMatchesClaims (intent : OrderIntent) (claims : ApprovalTokenClaims) : Bool :=
  intent.intentId == claims.intentId && intent.marketTicker == claims.marketTicker &&
    intent.outcome == claims.outcome && intent.action == claims.action &&
    intent.price.value == claims.limitPricePips.value &&
    intent.size.value == claims.countCentis.value &&
    intent.idempotencyKey == claims.idempotencyKey

/-- Verify that a token authorises an intent, consuming its single use. -/
def verifyAndConsume (hmac : HmacSha256) (token : SignedApprovalToken) (intent : OrderIntent)
    (key : Bytes) (nowEpochS : ℤ) (registry : InMemorySingleUseRegistry) :
    VerifyResult × InMemorySingleUseRegistry :=
  if intentMatchesClaims intent token.claims = false then (.INTENT_MISMATCH, registry)
  else
    let result := verifyToken hmac token key nowEpochS registry
    if result.1.valid then (.OK, result.2)
    else ((reasonToResult result.1.reason).getD .REJECTED, result.2)

theorem reasonToResult_ne_ok (reason : String) :
    (reasonToResult reason).getD .REJECTED ≠ .OK := by
  unfold reasonToResult
  split_ifs <;> simp

/-- **An `OK`** means a match of the claims and a valid verdict. -/
theorem verifyAndConsume_ok {hmac : HmacSha256} {token : SignedApprovalToken}
    {intent : OrderIntent} {key : Bytes} {now : ℤ} {registry : InMemorySingleUseRegistry} :
    (verifyAndConsume hmac token intent key now registry).1 = .OK ↔
      intentMatchesClaims intent token.claims = true ∧
        (verifyToken hmac token key now registry).1.valid = true := by
  unfold verifyAndConsume
  cases intentMatchesClaims intent token.claims with
  | false => simp
  | true =>
      rw [if_neg (by simp)]
      dsimp only
      split
      · rename_i hvalid
        simp [hvalid]
      · rename_i hvalid
        simp [hvalid, reasonToResult_ne_ok]

/-- **The registry** takes the token's slot on an `OK` and is left alone otherwise. -/
theorem verifyAndConsume_registry (hmac : HmacSha256) (token : SignedApprovalToken)
    (intent : OrderIntent) (key : Bytes) (now : ℤ) (registry : InMemorySingleUseRegistry) :
    (verifyAndConsume hmac token intent key now registry).2 =
      if (verifyAndConsume hmac token intent key now registry).1 = .OK then
        ⟨insert (registrySlot hmac key token) registry.consumed⟩
      else registry := by
  have hregistry := verifyToken_registry hmac token key now registry
  by_cases hok : (verifyAndConsume hmac token intent key now registry).1 = .OK
  · obtain ⟨hmatch, hvalid⟩ := verifyAndConsume_ok.mp hok
    rw [if_pos hok, verifyAndConsume, if_neg (by simp [hmatch])]
    dsimp only
    rw [if_pos hvalid]
    rw [if_pos hvalid] at hregistry
    exact hregistry
  · rw [if_neg hok, verifyAndConsume]
    split
    · rfl
    · rename_i hmatch
      have hinvalid : ¬ (verifyToken hmac token key now registry).1.valid = true := fun hvalid =>
        hok (verifyAndConsume_ok.mpr ⟨by simpa using hmatch, hvalid⟩)
      dsimp only
      rw [if_neg hinvalid]
      rw [if_neg hinvalid] at hregistry
      exact hregistry

end Windbreak
