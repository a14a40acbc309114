import Windbreak.Connector.PaperPositions

/-!
# The rows of the paper exchange and what they cost

The rows that the exchange reports, each against the fills behind it: a ticker that filled on one
side has one row, of what filled there and at the average price of it, rounded down.

* `filledOn`, `notionalOn` — what filled on a side of a ticker, and what it cost.
* **`getPositions_returns`** — where every ticker filled on one side the positions can be read, and
  there is a row for each side that filled.
-/

namespace Windbreak

open Effects Sums

/-! ## The totals of a side -/

/-- What filled on a side of a ticker. -/
def filledOn (key : String × String) (fills : List Fill) : ℤ :=
  sumWhere (fun fill => (fill.ticker, fill.side) = key) (·.quantity.value) fills

/-- What that cost, before fees. -/
def notionalOn (key : String × String) (fills : List Fill) : ℤ :=
  sumWhere (fun fill => (fill.ticker, fill.side) = key)
    (fun fill => fill.price.value * fill.quantity.value) fills

/-- The notional of some fills. -/
def loggedNotional (fills : List Fill) : ℤ :=
  (fills.map fun fill => fill.price.value * fill.quantity.value).sum

theorem loggedNotional_append (fills more : List Fill) :
    loggedNotional (fills ++ more) = loggedNotional fills + loggedNotional more := by
  simp [loggedNotional]

/-- The totals under a key, nothing where it has none. -/
def FillTotals.under (totals : FillTotals) (key : String × String) : SideTotals :=
  (totals.get? key).getD ⟨0, 0⟩

theorem under_foldl (key : String × String) (fills : List Fill) (totals : FillTotals) :
    (fills.foldl FillTotals.addFill totals).under key =
      ⟨(totals.under key).quantityCentis + filledOn key fills,
        (totals.under key).notionalMicros + notionalOn key fills⟩ := by
  induction fills generalizing totals with
  | nil => simp [filledOn, notionalOn]
  | cons fill rest ih =>
    rw [List.foldl_cons, ih]
    have hstep : (totals.addFill fill).under key =
        if key = (fill.ticker, fill.side) then
          ⟨(totals.under (fill.ticker, fill.side)).quantityCentis + fill.quantity.value,
            (totals.under (fill.ticker, fill.side)).notionalMicros +
              fill.price.value * fill.quantity.value⟩
        else totals.under key := by
      unfold FillTotals.under FillTotals.addFill
      rw [OrderedDict.get?_set, moneyFromPriceAndCount_value]
      split <;> rfl
    rw [hstep]
    unfold filledOn notionalOn
    rw [sumWhere_cons, sumWhere_cons]
    by_cases hkey : key = (fill.ticker, fill.side)
    · subst hkey
      rw [if_pos rfl, if_pos rfl, if_pos rfl]
      simp only [add_assoc]
    · rw [if_neg hkey, if_neg (Ne.symm hkey), if_neg (Ne.symm hkey), zero_add, zero_add]

/-- **An item of the totals** is what filled on its side, and something did. -/
theorem mem_fillTotals {x : PaperExchange} {item : (String × String) × SideTotals}
    (h : item ∈ x.fillTotals.items) :
    item.2 = ⟨filledOn item.1 x.fills, notionalOn item.1 x.fills⟩ ∧
      ∃ fill ∈ x.fills, (fill.ticker, fill.side) = item.1 := by
  constructor
  · have hget : x.fillTotals.get? item.1 = some item.2 := OrderedDict.mem_items_iff.mp h
    have hunder := under_foldl item.1 x.fills .empty
    change x.fillTotals.under item.1 = _ at hunder
    rw [FillTotals.under, hget, Option.getD_some] at hunder
    rw [hunder]
    simp [FillTotals.under]
  · have hkey : item.1 ∈ x.fillTotals.keys := List.mem_map_of_mem h
    rcases mem_keys_fillTotals.mp hkey with hnone | hfill
    · exact absurd hnone List.not_mem_nil
    · exact hfill

/-- The notionals of all sides come to that of the log. -/
theorem sum_notional_foldl (fills : List Fill) (totals : FillTotals) :
    ((fills.foldl FillTotals.addFill totals).items.map (·.2.notionalMicros)).sum =
      (totals.items.map (·.2.notionalMicros)).sum + loggedNotional fills := by
  induction fills generalizing totals with
  | nil => simp [loggedNotional]
  | cons fill rest ih =>
    rw [List.foldl_cons, ih]
    have hset := totals.sum_items_set (·.2.notionalMicros) (fill.ticker, fill.side)
      ⟨((totals.get? (fill.ticker, fill.side)).getD ⟨0, 0⟩).quantityCentis + fill.quantity.value,
        ((totals.get? (fill.ticker, fill.side)).getD ⟨0, 0⟩).notionalMicros +
          (moneyFromPriceAndCount fill.price fill.quantity .overstateCost).value⟩
    rw [moneyFromPriceAndCount_value] at hset
    have hstep : ((totals.addFill fill).items.map (·.2.notionalMicros)).sum =
        (totals.items.map (·.2.notionalMicros)).sum + fill.price.value * fill.quantity.value := by
      change ((totals.set _ _).items.map _).sum = _
      cases hget : totals.get? (fill.ticker, fill.side) with
      | none =>
        rw [hget] at hset
        simp only [Option.elim_none, Option.getD_none, zero_add] at hset ⊢
        rw [moneyFromPriceAndCount_value]
        omega
      | some entry =>
        rw [hget] at hset
        simp only [Option.elim_some, Option.getD_some] at hset ⊢
        rw [moneyFromPriceAndCount_value]
        omega
    rw [hstep]
    simp only [loggedNotional, List.map_cons, List.sum_cons]
    omega

/-! ## The rows -/

/-- The row of an item of the totals. -/
def rowOf (item : (String × String) × SideTotals) : PaperPosition :=
  let average := quotient item.2.notionalMicros item.2.quantityCentis .understateEquity
  if item.1.2 = Side.yes.name then ⟨⟨item.1.1, ⟨item.2.quantityCentis⟩⟩, ⟨average⟩⟩
  else ⟨⟨item.1.1, ⟨-item.2.quantityCentis⟩⟩, ⟨complementPips - average⟩⟩

theorem positionRow_eq {ticker side : String} {totals : SideTotals}
    (hquantity : totals.quantityCentis ≠ 0) :
    positionRow ticker side totals = .ok (rowOf ((ticker, side), totals)) := by
  rw [positionRow, divide_of_ne_zero hquantity]
  unfold rowOf
  dsimp only
  split <;> rfl

/-- Where no ticker comes twice, every item has its row. -/
theorem positionRows_returns {seen : List String} {items : List ((String × String) × SideTotals)}
    (hnodup : (items.map (·.1.1)).Nodup) (hfresh : ∀ item ∈ items, item.1.1 ∉ seen)
    (hquantity : ∀ item ∈ items, item.2.quantityCentis ≠ 0) :
    positionRows seen items = .ok (items.map rowOf) := by
  induction items generalizing seen with
  | nil => rfl
  | cons item rest ih =>
    obtain ⟨⟨ticker, side⟩, totals⟩ := item
    obtain ⟨hticker, hrest⟩ := List.nodup_cons.mp hnodup
    rw [positionRows, if_neg (hfresh _ (.head _)), positionRow_eq (hquantity _ (.head _))]
    have hmore : ∀ item ∈ rest, item.1.1 ∉ ticker :: seen := by
      intro item hitem hmem
      rcases List.mem_cons.mp hmem with hsame | hseen
      · exact hticker (hsame ▸ List.mem_map_of_mem (f := fun i => i.1.1) hitem)
      · exact hfresh item (.tail _ hitem) hseen
    have hrows := ih hrest hmore fun other hother => hquantity other (.tail _ hother)
    exact except_bind_ok.mpr ⟨_, rfl, except_bind_ok.mpr ⟨_, hrows, rfl⟩⟩

/-- Every ticker has filled on one side only. -/
def OneSided (fills : List Fill) : Prop :=
  ∀ a ∈ fills, ∀ b ∈ fills, a.ticker = b.ticker → a.side = b.side

/-- Something positive filled on the side of a positive fill. -/
theorem filledOn_pos {fills : List Fill} (hpositive : ∀ fill ∈ fills, 0 < fill.quantity.value)
    {fill : Fill} (hfill : fill ∈ fills) : 0 < filledOn (fill.ticker, fill.side) fills := by
  unfold filledOn
  induction fills with
  | nil => exact absurd hfill List.not_mem_nil
  | cons other rest ih =>
    have hrest : 0 ≤ sumWhere (fun f : Fill => (f.ticker, f.side) = (fill.ticker, fill.side))
        (·.quantity.value) rest :=
      sumWhere_nonneg fun f hf _ => (hpositive f (.tail _ hf)).le
    have hother := hpositive other (.head _)
    rw [sumWhere_cons]
    rcases List.mem_cons.mp hfill with rfl | hmem
    · rw [if_pos rfl]
      omega
    · have hmore := ih (fun f hf => hpositive f (.tail _ hf)) hmem
      split <;> omega

/-- **Where every ticker filled on one side** the positions can be read: a row for each side that
filled. -/
theorem PaperExchange.getPositions_returns {x : PaperExchange} (hsided : OneSided x.fills)
    (hpositive : ∀ fill ∈ x.fills, 0 < fill.quantity.value) :
    ∃ items : List ((String × String) × SideTotals), items.Perm x.fillTotals.items ∧
      x.getPositions = .ok (items.map rowOf) := by
  have hperm := x.fillTotals.items.perm_insertionSort fun a b => keyLe a b
  refine ⟨_, hperm, positionRows_returns ?_ (fun _ _ => List.not_mem_nil) fun item hitem => ?_⟩
  · rw [(hperm.map _).nodup_iff]
    have hkeys : x.fillTotals.items.Nodup := x.fillTotals.nodup.of_map _
    refine hkeys.map_on fun a ha b hb hticker => ?_
    obtain ⟨htotals, fill, hfill, hkey⟩ := mem_fillTotals ha
    obtain ⟨htotals', other, hother, hkey'⟩ := mem_fillTotals hb
    have hsame : a.1 = b.1 := by
      rw [← hkey, ← hkey'] at hticker ⊢
      exact Prod.ext hticker (hsided fill hfill other hother hticker)
    exact Prod.ext hsame (by rw [htotals, htotals', hsame])
  · obtain ⟨htotals, fill, hfill, hkey⟩ := mem_fillTotals (hperm.mem_iff.mp hitem)
    rw [htotals, ← hkey]
    exact (filledOn_pos hpositive hfill).ne'

end Windbreak
