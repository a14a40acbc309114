import Windbreak.Connector.PaperEffects
import Windbreak.OrderGateway.ReduceOnly

/-!
# Positions of the paper exchange

The log of fills, folded per ticker and side, and one row for each ticker that filled: what was
bought of YES counts up, what was bought of NO counts down.  A ticker with fills on both sides has no
row; reading the positions raises.

* **`held_eq`** — the row of a ticker is the signed sum of its fills.
* **`one_sided`** — when the positions can be read, every ticker has filled on one side only.
-/

namespace Windbreak

open Effects Sums

/-! ## Rows -/

/-- A holding as the exchange reports it. -/
structure PaperPosition extends Position where
  averagePrice : PricePips
  deriving DecidableEq, Repr

/-- Running totals for one side of one ticker. -/
structure SideTotals where
  quantityCentis : ℤ
  notionalMicros : ℤ
  deriving DecidableEq, Repr

/-- A side's totals as a row in the frame of the YES side. -/
def positionRow (ticker side : String) (totals : SideTotals) : Except String PaperPosition := do
  let average ← divide totals.notionalMicros totals.quantityCentis .understateEquity
  return if side = Side.yes.name then ⟨⟨ticker, ⟨totals.quantityCentis⟩⟩, ⟨average⟩⟩
    else ⟨⟨ticker, ⟨-totals.quantityCentis⟩⟩, ⟨complementPips - average⟩⟩

/-- The totals by ticker and side. -/
abbrev FillTotals := OrderedDict (String × String) SideTotals

/-- Add a fill to the totals of its side. -/
def FillTotals.addFill (totals : FillTotals) (fill : Fill) : FillTotals :=
  let entry := (totals.get? (fill.ticker, fill.side)).getD ⟨0, 0⟩
  totals.set (fill.ticker, fill.side) ⟨entry.quantityCentis + fill.quantity.value,
    entry.notionalMicros + (moneyFromPriceAndCount fill.price fill.quantity .overstateCost).value⟩

/-- By ticker, then by side. -/
def keyLe (a b : (String × String) × SideTotals) : Bool :=
  a.1.1 < b.1.1 || (a.1.1 == b.1.1 && decide (a.1.2 ≤ b.1.2))

/-- The rows of some totals; a ticker that comes a second time raises. -/
def positionRows : List String → List ((String × String) × SideTotals) →
    Except PaperError (List PaperPosition)
  | _, [] => .ok []
  | seen, ((ticker, side), totals) :: rest =>
    if ticker ∈ seen then .error (.twoSidedPosition ticker)
    else do
      let row ← (positionRow ticker side totals).mapError .valueError
      let rows ← positionRows (ticker :: seen) rest
      return row :: rows

namespace PaperExchange

/-- The log of fills, folded by ticker and side. -/
def fillTotals (x : PaperExchange) : FillTotals := x.fills.foldl FillTotals.addFill .empty

/-- The holdings that the fills have accumulated, in ticker order. -/
def getPositions (x : PaperExchange) : Except PaperError (List PaperPosition) :=
  positionRows [] (x.fillTotals.items.insertionSort fun a b => keyLe a b)

end PaperExchange

/-- The net holding of a ticker. -/
def heldIn (rows : List PaperPosition) (ticker : String) : ℤ :=
  heldForTicker (rows.map (·.toPosition)) ticker

/-! ## What a row comes to -/

/-- What a quantity of a side counts for, in the frame of the YES side. -/
def signed (side : String) (quantity : ℤ) : ℤ := if side = Side.yes.name then quantity else -quantity

theorem abs_signed (side : String) {quantity : ℤ} (h : 0 ≤ quantity) :
    |signed side quantity| = quantity := by
  unfold signed
  split
  · exact abs_of_nonneg h
  · rw [abs_neg]
    exact abs_of_nonneg h

/-- What the fills of a ticker come to. -/
def signedFills (ticker : String) (fills : List Fill) : ℤ :=
  sumWhere (fun fill => fill.ticker = ticker) (fun fill => signed fill.side fill.quantity.value) fills

/-- What an item of the totals counts for. -/
def signedItem (ticker : String) (item : (String × String) × SideTotals) : ℤ :=
  if item.1.1 = ticker then signed item.1.2 item.2.quantityCentis else 0

theorem positionRow_quantity {ticker side : String} {totals : SideTotals} {row : PaperPosition}
    (h : positionRow ticker side totals = .ok row) :
    row.ticker = ticker ∧ row.quantity.value = signed side totals.quantityCentis := by
  obtain ⟨average, -, h⟩ := except_bind_ok.mp h
  cases h
  unfold signed
  split
  · exact ⟨rfl, rfl⟩
  · exact ⟨rfl, rfl⟩

theorem heldIn_cons (row : PaperPosition) (rows : List PaperPosition) (ticker : String) :
    heldIn (row :: rows) ticker =
      (if row.ticker = ticker then row.quantity.value else 0) + heldIn rows ticker := by
  unfold heldIn heldForTicker
  by_cases hticker : row.ticker = ticker
  · simp [hticker]
  · simp [hticker]

/-- Rows count for what their totals do, and no ticker has two. -/
theorem positionRows_ok {seen : List String} {items : List ((String × String) × SideTotals)}
    {rows : List PaperPosition} (h : positionRows seen items = .ok rows) :
    (∀ ticker, heldIn rows ticker = (items.map (signedItem ticker)).sum) ∧
      (items.map (·.1.1)).Nodup ∧ ∀ item ∈ items, item.1.1 ∉ seen := by
  induction items generalizing seen rows with
  | nil =>
      cases h
      exact ⟨fun ticker => rfl, List.nodup_nil, fun item hitem => absurd hitem List.not_mem_nil⟩
  | cons item rest ih =>
      obtain ⟨⟨ticker, side⟩, totals⟩ := item
      rw [positionRows] at h
      by_cases hseen : ticker ∈ seen
      · rw [if_pos hseen] at h
        cases h
      · rw [if_neg hseen] at h
        obtain ⟨row, hrow, h⟩ := except_bind_ok.mp h
        obtain ⟨more, hmore, h⟩ := except_bind_ok.mp h
        cases h
        obtain ⟨hsum, hnodup, hfresh⟩ := ih hmore
        obtain ⟨hticker, hquantity⟩ := positionRow_quantity (PaperExchange.mapError_ok hrow)
        refine ⟨fun other => ?_, ?_, fun item hitem => ?_⟩
        · rw [heldIn_cons, hsum, hticker, hquantity, List.map_cons, List.sum_cons]
          rfl
        · refine List.nodup_cons.mpr ⟨fun hmem => ?_, hnodup⟩
          obtain ⟨item, hitem, hsame⟩ := List.mem_map.mp hmem
          exact hfresh item hitem (hsame ▸ List.mem_cons_self)
        · rcases List.mem_cons.mp hitem with rfl | hitem
          · exact hseen
          · exact fun hold => hfresh item hitem (List.mem_cons_of_mem _ hold)

/-! ## Folding the log -/

theorem sum_addFill (ticker : String) (totals : FillTotals) (fill : Fill) :
    ((totals.addFill fill).items.map (signedItem ticker)).sum =
      (totals.items.map (signedItem ticker)).sum +
        if fill.ticker = ticker then signed fill.side fill.quantity.value else 0 := by
  have hsum := totals.sum_items_set (signedItem ticker) (fill.ticker, fill.side)
    ⟨((totals.get? (fill.ticker, fill.side)).getD ⟨0, 0⟩).quantityCentis + fill.quantity.value,
      ((totals.get? (fill.ticker, fill.side)).getD ⟨0, 0⟩).notionalMicros +
        (moneyFromPriceAndCount fill.price fill.quantity .overstateCost).value⟩
  change ((totals.addFill fill).items.map _).sum + _ = _ at hsum
  cases hget : totals.get? (fill.ticker, fill.side) with
  | none =>
      rw [hget] at hsum
      simp only [signedItem, signed, Option.elim_none, Option.getD_none] at hsum ⊢
      split_ifs at hsum ⊢ <;> omega
  | some entry =>
      rw [hget] at hsum
      simp only [signedItem, signed, Option.elim_some, Option.getD_some] at hsum ⊢
      split_ifs at hsum ⊢ <;> omega

theorem sum_fillTotals (ticker : String) (fills : List Fill) (totals : FillTotals) :
    ((fills.foldl FillTotals.addFill totals).items.map (signedItem ticker)).sum =
      (totals.items.map (signedItem ticker)).sum + signedFills ticker fills := by
  induction fills generalizing totals with
  | nil => exact (Int.add_zero _).symm
  | cons fill rest ih =>
      rw [List.foldl_cons, ih, sum_addFill]
      unfold signedFills
      rw [sumWhere_cons]
      omega

/-- The sides that a log has filled on. -/
theorem mem_keys_fillTotals {fills : List Fill} {totals : FillTotals} {key : String × String} :
    key ∈ (fills.foldl FillTotals.addFill totals).keys ↔
      key ∈ totals.keys ∨ ∃ fill ∈ fills, (fill.ticker, fill.side) = key := by
  induction fills generalizing totals with
  | nil => simp
  | cons fill rest ih =>
      rw [List.foldl_cons, ih, FillTotals.addFill, OrderedDict.mem_keys_set]
      constructor
      · rintro ((rfl | hkey) | ⟨other, hother, rfl⟩)
        · exact .inr ⟨fill, .head _, rfl⟩
        · exact .inl hkey
        · exact .inr ⟨other, .tail _ hother, rfl⟩
      · rintro (hkey | ⟨other, hother, rfl⟩)
        · exact .inl (.inr hkey)
        · rcases List.mem_cons.mp hother with rfl | hother
          · exact .inl (.inl rfl)
          · exact .inr ⟨other, hother, rfl⟩

namespace PaperExchange

variable {x : PaperExchange} {rows : List PaperPosition}

/-- **The row of a ticker** is the signed sum of its fills. -/
theorem held_eq (h : x.getPositions = .ok rows) (ticker : String) :
    heldIn rows ticker = signedFills ticker x.fills := by
  have hsorted := (positionRows_ok h).1 ticker
  have hperm := x.fillTotals.items.perm_insertionSort fun a b => keyLe a b
  rw [hsorted, (hperm.map _).sum_eq]
  have hfold := sum_fillTotals ticker x.fills .empty
  rw [fillTotals, hfold]
  exact Int.zero_add _

/-- **When the positions can be read**, every ticker has filled on one side only. -/
theorem one_sided (h : x.getPositions = .ok rows) {a b : Fill} (ha : a ∈ x.fills)
    (hb : b ∈ x.fills) (hticker : a.ticker = b.ticker) : a.side = b.side := by
  have hnodup := (positionRows_ok h).2.1
  have hperm := x.fillTotals.items.perm_insertionSort fun a b => keyLe a b
  rw [(hperm.map _).nodup_iff] at hnodup
  have hkey : ∀ fill ∈ x.fills, ∃ item ∈ x.fillTotals.items,
      item.1 = (fill.ticker, fill.side) := fun fill hfill =>
    List.mem_map.mp (mem_keys_fillTotals.mpr (.inr ⟨fill, hfill, rfl⟩))
  obtain ⟨itemA, hmemA, hkeyA⟩ := hkey a ha
  obtain ⟨itemB, hmemB, hkeyB⟩ := hkey b hb
  have hsame : itemA = itemB := by
    refine List.inj_on_of_nodup_map hnodup hmemA hmemB ?_
    rw [hkeyA, hkeyB]
    exact hticker
  rw [hsame, hkeyB] at hkeyA
  exact (congrArg Prod.snd hkeyA).symm

end PaperExchange

end Windbreak
