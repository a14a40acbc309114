import Windbreak.Core.Runs
import Windbreak.OrderGateway.Tokens

/-!
# Tokens are single use

Tokens are presented to one registry in any order, under any keys, for any intents and at any times.
A presentation that succeeds takes the slot of the bytes its signature decodes to, so another
spelling of the signature finds the slot taken; one that fails takes none.

* **`present_succeeded`**, **`present_failed`** — what one presentation does to the registry.
* **`tokens_singleUse`** — what every run of presentations does.
-/

namespace Windbreak

/-- A presentation of a token: to the shared verification, or to the gateway's, which also holds the
claims against an intent. -/
inductive Presentation where
  | verify (token : SignedApprovalToken) (key : Bytes) (nowEpochS : ℤ)
  | consume (token : SignedApprovalToken) (intent : OrderIntent) (key : Bytes) (nowEpochS : ℤ)

/-- The token presented. -/
def Presentation.token : Presentation → SignedApprovalToken
  | verify token _ _ => token
  | consume token _ _ _ => token

/-- Present a token, and say whether it was accepted. -/
def present (hmac : HmacSha256) (registry : InMemorySingleUseRegistry) :
    Presentation → Bool × InMemorySingleUseRegistry
  | .verify token key nowEpochS =>
    let result := verifyToken hmac token key nowEpochS registry
    (result.1.valid, result.2)
  | .consume token intent key nowEpochS =>
    let result := verifyAndConsume hmac token intent key nowEpochS registry
    (result.1 == .OK, result.2)

/-- The bytes a token's signature decodes to, however it is spelled. -/
def SignedApprovalToken.tag? (token : SignedApprovalToken) : Option Bytes :=
  (Hex.fromHex token.signatureHex).toOption

/-- Whether a presentation of a signature with these bytes was accepted. -/
def acceptedOf (tag : Bytes)
    (t : Machine.Transition InMemorySingleUseRegistry Presentation Bool) : Bool :=
  t.output && t.input.token.tag? == some tag

/-! ## One presentation -/

theorem verifyToken_taken {hmac : HmacSha256} {token : SignedApprovalToken} {key : Bytes} {now : ℤ}
    {registry : InMemorySingleUseRegistry}
    (h : (verifyToken hmac token key now registry).1.valid = true) :
    ∃ tag, token.tag? = some tag ∧ Hex.hex tag ∉ registry.consumed ∧
      registrySlot hmac key token = Hex.hex tag := by
  obtain ⟨hspelled, -, hfree⟩ := verifyToken_valid.mp h
  refine ⟨_, ?_, hfree, rfl⟩
  rw [SignedApprovalToken.tag?, hspelled]
  rfl

/-- **A presentation that succeeds** found the slot of its bytes free and takes it. -/
theorem present_succeeded {hmac : HmacSha256} {registry : InMemorySingleUseRegistry}
    {call : Presentation} (h : (present hmac registry call).1 = true) :
    ∃ tag, call.token.tag? = some tag ∧ Hex.hex tag ∉ registry.consumed ∧
      (present hmac registry call).2 = ⟨insert (Hex.hex tag) registry.consumed⟩ := by
  cases call with
  | verify token key now =>
      have hvalid : (verifyToken hmac token key now registry).1.valid = true := h
      obtain ⟨tag, htag, hfree, hslot⟩ := verifyToken_taken hvalid
      refine ⟨tag, htag, hfree, ?_⟩
      rw [← hslot]
      exact (verifyToken_registry hmac token key now registry).trans (if_pos hvalid)
  | consume token intent key now =>
      have hok : (verifyAndConsume hmac token intent key now registry).1 = .OK := eq_of_beq h
      obtain ⟨tag, htag, hfree, hslot⟩ := verifyToken_taken (verifyAndConsume_ok.mp hok).2
      refine ⟨tag, htag, hfree, ?_⟩
      rw [← hslot]
      exact (verifyAndConsume_registry hmac token intent key now registry).trans (if_pos hok)

/-- **A presentation that fails** leaves the registry alone. -/
theorem present_failed {hmac : HmacSha256} {registry : InMemorySingleUseRegistry}
    {call : Presentation} (h : (present hmac registry call).1 = false) :
    (present hmac registry call).2 = registry := by
  cases call with
  | verify token key now =>
      have hinvalid : ¬ (verifyToken hmac token key now registry).1.valid = true := by
        intro hvalid
        exact Bool.false_ne_true (h.symm.trans hvalid)
      exact (verifyToken_registry hmac token key now registry).trans (if_neg hinvalid)
  | consume token intent key now =>
      have hrejected : ¬ (verifyAndConsume hmac token intent key now registry).1 = .OK := by
        intro hok
        exact Bool.false_ne_true (h.symm.trans (beq_iff_eq.mpr hok))
      exact (verifyAndConsume_registry hmac token intent key now registry).trans (if_neg hrejected)

theorem present_keeps {hmac : HmacSha256} {registry : InMemorySingleUseRegistry}
    {call : Presentation} {slot : String} (h : slot ∈ registry.consumed) :
    slot ∈ (present hmac registry call).2.consumed := by
  cases hcall : (present hmac registry call).1 with
  | true =>
      obtain ⟨tag, -, -, hregistry⟩ := present_succeeded hcall
      rw [hregistry]
      exact Finset.mem_insert_of_mem h
  | false =>
      rw [present_failed hcall]
      exact h

/-! ## Every run -/

/-- Once a slot is taken, no presentation of its bytes succeeds. -/
theorem none_accepted {hmac : HmacSha256} {registry : InMemorySingleUseRegistry} {tag : Bytes}
    (h : Hex.hex tag ∈ registry.consumed) (calls : List Presentation) :
    (Machine.trace (present hmac) registry calls).filter (acceptedOf tag) = [] := by
  induction calls generalizing registry with
  | nil => rfl
  | cons call calls ih =>
      have hrefused : acceptedOf tag (Machine.transition (present hmac) registry call) = false := by
        by_contra haccepted
        obtain ⟨hsucceeded, hspelled⟩ := Bool.and_eq_true_iff.mp (Bool.eq_true_of_not_eq_false haccepted)
        obtain ⟨taken, htaken, hfree, -⟩ := present_succeeded hsucceeded
        have hsame : taken = tag := Option.some.inj (htaken.symm.trans (eq_of_beq hspelled))
        exact hfree (hsame ▸ h)
      rw [Machine.trace_cons, List.filter_cons_of_neg (by rw [hrefused]; exact Bool.false_ne_true)]
      exact ih (present_keeps h)

/-- **Tokens are single use.**  Whatever is presented to a registry, in whatever order, at most one
presentation of a signature is accepted, in all its spellings together; an accepted signature has
bytes, and a presentation that is not accepted leaves the registry as it was. -/
theorem tokens_singleUse (hmac : HmacSha256) (registry : InMemorySingleUseRegistry)
    (calls : List Presentation) :
    (∀ tag, ((Machine.trace (present hmac) registry calls).filter (acceptedOf tag)).length ≤ 1) ∧
      ∀ t ∈ Machine.trace (present hmac) registry calls,
        (t.output = true → ∃ tag, t.input.token.tag? = some tag) ∧
          (t.output = false → t.post = t.pre) := by
  refine ⟨fun tag => ?_, fun t ht => ?_⟩
  · induction calls generalizing registry with
    | nil => exact Nat.zero_le 1
    | cons call calls ih =>
        rw [Machine.trace_cons]
        cases haccepted : acceptedOf tag (Machine.transition (present hmac) registry call) with
        | true =>
            obtain ⟨hsucceeded, hspelled⟩ := Bool.and_eq_true_iff.mp haccepted
            obtain ⟨taken, htaken, -, hregistry⟩ := present_succeeded hsucceeded
            have hsame : taken = tag := Option.some.inj (htaken.symm.trans (eq_of_beq hspelled))
            have hslot : Hex.hex tag ∈ (present hmac registry call).2.consumed := by
              rw [hregistry, hsame]
              exact Finset.mem_insert_self _ _
            rw [List.filter_cons_of_pos haccepted, none_accepted hslot]
            exact le_refl 1
        | false =>
            rw [List.filter_cons_of_neg (by rw [haccepted]; exact Bool.false_ne_true)]
            exact ih _
  · obtain ⟨before, after, -, h⟩ := Machine.mem_trace.mp ht
    rw [h]
    refine ⟨fun hsucceeded => ?_, present_failed⟩
    obtain ⟨tag, htag, -⟩ := present_succeeded hsucceeded
    exact ⟨tag, htag⟩

end Windbreak
