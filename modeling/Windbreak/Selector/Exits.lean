import Windbreak.Connector.PaperPositions
import Windbreak.OrderGateway.Wal
import Windbreak.RiskKernel.LedgerRuns
import Windbreak.Selector.Types

/-!
# Close intents

A close is built from a trigger, a held row and a price, never larger than what is held.  Its intent
id names the ticker and the trigger, its idempotency key the price and the size as well; the kernel
remembers both for good once it has approved the close.

* **`buildCloseIntent_ok_iff`** — a close is built exactly for a row that is long YES and, when a
  size is asked for, a positive one; it is never larger than the row.
* **`closable_iff`** — a held row can be closed, the kernel's uniqueness checks allowing it, exactly
  when it is long YES and no intent approved before carries the close's id or its key.
* **`closed_once_only`** — a close that was approved and expired unfilled cannot be repeated.
-/

namespace Windbreak

open Machine Effects

/-! ## Building a close -/

/-- What may trigger a close. -/
inductive CloseTrigger where
  | KILL_PATH
  | KERNEL_DERISK
  | OPERATOR_COMMAND
  deriving DecidableEq, Repr

def CloseTrigger.value : CloseTrigger → String
  | .KILL_PATH => "kill_path"
  | .KERNEL_DERISK => "kernel_derisk"
  | .OPERATOR_COMMAND => "operator_command"

/-- The outcome and the action of every close. -/
def outcomeYes : String := "yes"

def actionSellToClose : String := "sell_to_close"

/-- The digest of the close's six identifying fields. -/
def closeIdempotencyKey (sha256 : HexDigest) (trigger : CloseTrigger) (marketTicker : String)
    (pricePips sizeCentis : ℤ) : String :=
  sha256 (Json.obj
    [("trigger", .str trigger.value), ("market_ticker", .str marketTicker),
      ("outcome", .str outcomeYes), ("action", .str actionSellToClose),
      ("price", .int pricePips), ("size", .int sizeCentis)]).canonical.toUTF8.data.toList

/-- The intent id of a close. -/
def closeIntentId (ticker : String) (trigger : CloseTrigger) : String :=
  s!"{ticker}:{outcomeYes}:{actionSellToClose}:{trigger.value}"

/-- A close as the kernel reads it, with the style the selector adds. -/
structure CloseIntent extends OrderIntent where
  executionStyle : ExecutionStyle
  deriving DecidableEq, Repr

/-- The close of `size` out of a row, or of the whole row. -/
def buildCloseIntent (sha256 : HexDigest) (trigger : CloseTrigger) (position : Position)
    (closePrice : PricePips) (size : Option ContractCentis) : Except String CloseIntent :=
  if position.quantity.value ≤ 0 then
    .error s!"cannot close a non-positive position: quantity={position.quantity.value}"
  else if size.any fun requested => requested.value ≤ 0 then
    .error s!"requested close size must be positive: size={(size.getD ⟨0⟩).value}"
  else
    let requested := size.getD position.quantity
    let emittedSize : ContractCentis := ⟨min requested.value position.quantity.value⟩
    .ok
      { intentId := closeIntentId position.ticker trigger
        marketTicker := position.ticker
        outcome := outcomeYes
        action := actionSellToClose
        price := closePrice
        size := emittedSize
        maxNotional := ⟨closePrice.value * emittedSize.value⟩
        impliedProbability := ⟨closePrice.value * 100⟩
        idempotencyKey := closeIdempotencyKey sha256 trigger position.ticker closePrice.value
          emittedSize.value
        executionStyle := .cross }

/-- **A close is built exactly** for a row that is long YES and, when a size is asked for, a
positive one; it is the smaller of the two. -/
theorem buildCloseIntent_ok_iff {sha256 : HexDigest} {trigger : CloseTrigger} {position : Position}
    {closePrice : PricePips} {size : Option ContractCentis} :
    (∃ close, buildCloseIntent sha256 trigger position closePrice size = .ok close ∧
        close.size.value = min (size.getD position.quantity).value position.quantity.value) ↔
      0 < position.quantity.value ∧ ∀ requested ∈ size, 0 < requested.value := by
  unfold buildCloseIntent
  by_cases hlong : position.quantity.value ≤ 0
  · rw [if_pos hlong]
    constructor
    · rintro ⟨close, hbuilt, -⟩
      cases hbuilt
    · intro h
      omega
  · rw [if_neg hlong]
    cases size with
    | none => simpa using hlong
    | some requested =>
        by_cases hsize : requested.value ≤ 0
        · rw [if_pos (by simpa using hsize)]
          constructor
          · rintro ⟨close, hbuilt, -⟩
            cases hbuilt
          · rintro ⟨-, h⟩
            have hpositive := h requested rfl
            omega
        · rw [if_neg (by simpa using hsize)]
          simp only [Option.getD_some, Except.ok.injEq, exists_eq_left', true_iff]
          exact ⟨by omega, fun r hr => by cases hr; omega⟩

/-! ## Closing a row after a run of the kernel -/

/-- The whole of a row can be closed: the close is built, at the size still held, and neither
uniqueness check of the kernel vetoes it. -/
def Closable (sha256 : HexDigest) (w : KernelWorld) (trigger : CloseTrigger) (row : PaperPosition)
    (closePrice : PricePips) : Prop :=
  ∃ close, buildCloseIntent sha256 trigger row.toPosition closePrice none = .ok close ∧
    close.size.value = |row.quantity.value| ∧
    ∀ context, runCheck approvalTokenUniqueness close.toOrderIntent
        (effectiveContext w.ledger context) = none ∧
      runCheck idempotencyKeyUniqueness close.toOrderIntent
        (effectiveContext w.ledger context) = none

theorem uniquenessCheck_passed {id : String} {used : Finset String} {reason : String} :
    (uniquenessCheck id used reason).vetoed = false ↔ id ∉ used := by
  unfold uniquenessCheck
  split_ifs with h <;> simp [h]

theorem buildCloseIntent_whole {sha256 : HexDigest} {trigger : CloseTrigger} {position : Position}
    {closePrice : PricePips} {close : CloseIntent}
    (h : buildCloseIntent sha256 trigger position closePrice none = .ok close) :
    0 < position.quantity.value ∧ close.size = position.quantity ∧
      close.intentId = closeIntentId position.ticker trigger ∧
      close.idempotencyKey = closeIdempotencyKey sha256 trigger position.ticker closePrice.value
        position.quantity.value := by
  unfold buildCloseIntent at h
  by_cases hlong : position.quantity.value ≤ 0
  · rw [if_pos hlong] at h
    cases h
  · rw [if_neg hlong] at h
    cases h
    refine ⟨by omega, ?_, rfl, ?_⟩ <;> simp

/-- **A held row can be closed exactly when** it is long YES and no intent that the kernel approved
before carries the close's id or its key. -/
theorem closable_iff (sha256 : HexDigest) (cfg : KernelConfig) (machine : ModeStateMachine)
    (ops : List LedgerOp) (trigger : CloseTrigger) (row : PaperPosition)
    (closePrice : PricePips) :
    Closable sha256 (run (ledgerStep cfg) (KernelWorld.fresh machine) ops) trigger row closePrice ↔
      0 < row.quantity.value ∧
        ∀ t ∈ trace (ledgerStep cfg) (KernelWorld.fresh machine) ops, ∀ env intent context,
          Approves t env intent context →
            intent.intentId ≠ closeIntentId row.ticker trigger ∧
              intent.idempotencyKey ≠ closeIdempotencyKey sha256 trigger row.ticker
                closePrice.value row.quantity.value := by
  set w := run (ledgerStep cfg) (KernelWorld.fresh machine) ops with hw
  have hid : closeIntentId row.ticker trigger ∈ w.ledger.seenIntentIds ↔ _ :=
    mem_seenIntentIds_run cfg (KernelWorld.fresh machine) ops _
  have hkey : closeIdempotencyKey sha256 trigger row.ticker closePrice.value row.quantity.value ∈
      w.ledger.seenIdempotencyKeys ↔ _ :=
    mem_seenIdempotencyKeys_run cfg (KernelWorld.fresh machine) ops _
  have hfresh : (KernelWorld.fresh machine).ledger = .empty := rfl
  rw [hfresh] at hid hkey
  simp only [ReservationLedger.empty, Finset.notMem_empty, false_or] at hid hkey
  constructor
  · rintro ⟨close, hbuilt, -, hunique⟩
    obtain ⟨hlong, -, hcloseId, hcloseKey⟩ := buildCloseIntent_whole hbuilt
    obtain ⟨hnewId, hnewKey⟩ := hunique sampleContext
    rw [runCheck_eq_none rfl, uniquenessCheck_passed] at hnewId hnewKey
    rw [hcloseId] at hnewId
    rw [hcloseKey] at hnewKey
    refine ⟨hlong, fun t ht env intent context happroves => ⟨fun heq => ?_, fun heq => ?_⟩⟩
    · exact hnewId (hid.mpr ⟨t, ht, env, intent, context, happroves, heq⟩)
    · exact hnewKey (hkey.mpr ⟨t, ht, env, intent, context, happroves, heq⟩)
  · rintro ⟨hlong, hnone⟩
    have hunsized : ∀ requested ∈ (none : Option ContractCentis), 0 < requested.value := nofun
    obtain ⟨close, hbuilt, -⟩ := buildCloseIntent_ok_iff.mpr ⟨hlong, hunsized⟩
    obtain ⟨-, hsize, hcloseId, hcloseKey⟩ := buildCloseIntent_whole hbuilt
    refine ⟨close, hbuilt, ?_, fun context => ⟨?_, ?_⟩⟩
    · rw [hsize, abs_of_pos hlong]
    · rw [runCheck_eq_none rfl, uniquenessCheck_passed, hcloseId]
      intro hmem
      obtain ⟨t, ht, env, intent, context', happroves, heq⟩ := hid.mp hmem
      exact (hnone t ht env intent context' happroves).1 heq
    · rw [runCheck_eq_none rfl, uniquenessCheck_passed, hcloseKey]
      intro hmem
      obtain ⟨t, ht, env, intent, context', happroves, heq⟩ := hkey.mp hmem
      exact (hnone t ht env intent context' happroves).2 heq

/-! ## A close that expired -/

/-- A holding of the sample market. -/
def sampleHeldRow : PaperPosition := ⟨⟨"PRES-2028-DEM", ⟨1000⟩⟩, ⟨5000⟩⟩

/-- The close of the whole holding on the kill path, at a price. -/
def sampleClose (closePrice : PricePips) : OrderIntent :=
  match buildCloseIntent (fun bytes => s!"digest-{bytes.length}") .KILL_PATH
      sampleHeldRow.toPosition closePrice none with
  | .ok close => close.toOrderIntent
  | .error _ => sampleIntent

/-- The close is approved, and its reservation expires a minute later. -/
def closedThenExpired : List LedgerOp :=
  [.approve .quiet (sampleClose ⟨5000⟩)
      { sampleContext with market := { sampleContext.market with openPosition := some ⟨1000⟩ } },
    .expireDue .quiet 1700000060]

/-- The holding is still whole, and no second close on the kill path passes, at whatever price. -/
theorem closed_once_only :
    ¬ ∀ (sha256 : HexDigest) (cfg : KernelConfig) (machine : ModeStateMachine)
      (ops : List LedgerOp) (trigger : CloseTrigger) (row : PaperPosition) (closePrice : PricePips),
      row.quantity.value ≠ 0 →
        Closable sha256 (run (ledgerStep cfg) (KernelWorld.fresh machine) ops) trigger row
          closePrice := by
  intro h
  obtain ⟨close, hbuilt, -, hunique⟩ := h (fun bytes => s!"digest-{bytes.length}") sampleConfig
    sampleMachine closedThenExpired .KILL_PATH sampleHeldRow ⟨4000⟩ (by decide)
  obtain ⟨-, -, hid, -⟩ := buildCloseIntent_whole hbuilt
  have hnew := (hunique sampleContext).1
  rw [runCheck_eq_none rfl, uniquenessCheck_passed, hid] at hnew
  have hseen : closeIntentId sampleHeldRow.ticker .KILL_PATH ∈
      (run (ledgerStep sampleConfig) (KernelWorld.fresh sampleMachine)
        closedThenExpired).ledger.seenIntentIds := by decide +kernel
  exact hnew hseen

end Windbreak
