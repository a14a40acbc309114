import Mathlib.Data.List.Sort
import Windbreak.Connector.Models
import Windbreak.Core.Effects
import Windbreak.Core.JsonLoaded

/-!
# A raw book, read

The payload of a book is untyped.  A leaf is multiplied before it is wrapped in a unit, and a
product with a boolean is a whole number, so the wrapper's refusal of booleans comes too late; no
step looks at the size of what it reads.

* `RawBook.normalizeOrderBook` — the payload, read as the source reads it.
* `RawBook.readEntry` — the two numbers that an entry is read as.
* `normalizeOrderBook_ok_iff` — a payload with only such entries is a book, and no other is.
* **`normalized_exactly_iff`** — a book says what the venue quoted exactly when every entry quotes
  whole contracts between one and ninety-nine cents.
-/

/-! ## Books of the venue

The venue reports the bids of both sides, in cents and whole contracts.  A bid for NO is an offer of
YES at the complement of its price; each side is sorted, so that a normalized book is best first
(`normalizeOrderBook_bestFirst`).
-/

namespace Windbreak

def pricePipsPerCent : ℤ := 100

def fullPriceCents : ℤ := 100

def centisPerWholeContract : ℤ := 100

/-- A bid for YES, from its cents and count. -/
def yesBidLevel (pair : ℤ × ℤ) : OrderBookLevel :=
  ⟨⟨pair.1 * pricePipsPerCent⟩, ⟨pair.2 * centisPerWholeContract⟩⟩

/-- A bid for NO, as an ask for YES. -/
def noBidAsYesAsk (pair : ℤ × ℤ) : OrderBookLevel :=
  ⟨⟨(fullPriceCents - pair.1) * pricePipsPerCent⟩, ⟨pair.2 * centisPerWholeContract⟩⟩

/-- A raw book, normalized. -/
def normalizeOrderBook (ticker : String) (yes no : List (ℤ × ℤ)) (fetchedAt : ℤ) :
    OrderBookSnapshot where
  ticker := ticker
  yesBids := (yes.map yesBidLevel).insertionSort fun a b => b.price.value ≤ a.price.value
  yesAsks := (no.map noBidAsYesAsk).insertionSort fun a b => a.price.value ≤ b.price.value
  fetchedAt := fetchedAt

instance priceRising_total : Std.Total fun a b : OrderBookLevel => a.price.value ≤ b.price.value :=
  ⟨fun a b => le_total a.price.value b.price.value⟩

instance priceRising_trans : IsTrans OrderBookLevel fun a b => a.price.value ≤ b.price.value :=
  ⟨fun _ _ _ hab hbc => le_trans hab hbc⟩

/-- **A normalized book is best first**, when the venue counts no contracts below zero. -/
theorem normalizeOrderBook_bestFirst (ticker : String) (yes no : List (ℤ × ℤ)) (fetchedAt : ℤ)
    (hcount : ∀ pair ∈ no, 0 ≤ pair.2) :
    BestFirst (normalizeOrderBook ticker yes no fetchedAt).yesAsks where
  rising := List.pairwise_insertionSort _ _
  quantity_nonneg := fun level hlevel => by
    obtain ⟨pair, hpair, rfl⟩ := List.mem_map.mp ((List.mem_insertionSort _).mp hlevel)
    exact mul_nonneg (hcount pair hpair) (by decide)

end Windbreak

namespace Windbreak

namespace RawBook

open JsonValue (codes lookup)

/-- What a payload is refused with. -/
inductive Refusal where
  | attributeError
  | keyError
  | indexError
  | typeError
  deriving DecidableEq, Repr

/-! ## Leaves -/

/-- `pair[i]`. -/
def item (i : ℕ) : JsonValue → Except Refusal JsonValue
  | .arr items => match items[i]? with
    | some v => .ok v
    | none => .error .indexError
  | .str s => match s[i]? with
    | some c => .ok (.str [c])
    | none => .error .indexError
  | .obj _ => .error .keyError
  | .null | .bool _ | .int _ | .float _ => .error .typeError

/-- `leaf * k`.  A float stays a float: which one is never asked. -/
def times (k : ℕ) : JsonValue → Except Refusal JsonValue
  | .int i => .ok (.int (i * k))
  | .bool b => .ok (.int (b.toInt * k))
  | .float literal => .ok (.float literal)
  | .str s => .ok (.str (List.replicate k s).flatten)
  | .arr items => .ok (.arr (List.replicate k items).flatten)
  | .null | .obj _ => .error .typeError

/-- `k - leaf`. -/
def complement (k : ℕ) : JsonValue → Except Refusal JsonValue
  | .int i => .ok (.int (k - i))
  | .bool b => .ok (.int (k - b.toInt))
  | .float literal => .ok (.float literal)
  | .null | .str _ | .arr _ | .obj _ => .error .typeError

/-- The wrapper of a unit: only an integer is let in, and a boolean is not one. -/
def intUnit (u : UnitName) : JsonValue → Except Refusal (IntUnit u)
  | .int i => .ok ⟨i⟩
  | .null | .bool _ | .float _ | .str _ | .arr _ | .obj _ => .error .typeError

/-! ## Levels -/

def yesBidLevel (pair : JsonValue) : Except Refusal OrderBookLevel := do
  let cents ← item 0 pair
  let count ← item 1 pair
  let price ← intUnit .pricePips (← times 100 cents)
  let quantity ← intUnit .contractCentis (← times 100 count)
  return ⟨price, quantity⟩

def noBidAsYesAsk (pair : JsonValue) : Except Refusal OrderBookLevel := do
  let cents ← item 0 pair
  let count ← item 1 pair
  let yesCents ← complement 100 cents
  let price ← intUnit .pricePips (← times 100 yesCents)
  let quantity ← intUnit .contractCentis (← times 100 count)
  return ⟨price, quantity⟩

/-- The fields of an object; anything else has none. -/
def fieldsOf : Option JsonValue → List (CodePoints × JsonValue)
  | some (.obj fields) => fields
  | _ => []

/-- The book inside a payload; one that is not there is empty. -/
def orderBookMap : JsonValue → Except Refusal (List (CodePoints × JsonValue))
  | .obj raw => .ok (fieldsOf (lookup "orderbook" raw))
  | .null | .bool _ | .int _ | .float _ | .str _ | .arr _ => .error .attributeError

/-- One side of a book; one that is not a list is empty. -/
def rawSide (book : List (CodePoints × JsonValue)) (key : String) : List JsonValue :=
  match lookup key book with
  | some (.arr side) => side
  | _ => []

/-- The raw payload of a book, normalized. -/
def normalizeOrderBook (ticker : String) (raw : JsonValue) (fetchedAt : ℤ) :
    Except Refusal OrderBookSnapshot := do
  let book ← orderBookMap raw
  let yesBids ← (rawSide book "yes").mapM yesBidLevel
  let yesAsks ← (rawSide book "no").mapM noBidAsYesAsk
  return {
    ticker
    yesBids := yesBids.insertionSort fun a b => b.price.value ≤ a.price.value
    yesAsks := yesAsks.insertionSort fun a b => a.price.value ≤ b.price.value
    fetchedAt }

/-! ## What an entry is read as -/

/-- The number that arithmetic takes a leaf for. -/
def number? : JsonValue → Option ℤ
  | .int i => some i
  | .bool b => some b.toInt
  | .null | .float _ | .str _ | .arr _ | .obj _ => none

/-- The cents and the count that an entry is read as. -/
def readEntry : JsonValue → Option (ℤ × ℤ)
  | .arr (cents :: count :: _) => do return (← number? cents, ← number? count)
  | _ => none

/-- **A product is wrapped** exactly when its leaf passes for a number. -/
theorem intUnit_times_ok_iff {u : UnitName} {leaf : JsonValue} {quantity : IntUnit u} :
    (times 100 leaf >>= intUnit u) = .ok quantity ↔
      ∃ n, number? leaf = some n ∧ quantity = ⟨n * 100⟩ := by
  cases leaf with
  | int i =>
      refine ⟨fun h => ⟨i, rfl, (Except.ok.inj h).symm⟩, ?_⟩
      rintro ⟨n, hn, rfl⟩
      rw [← Option.some.inj hn]
      rfl
  | bool b =>
      refine ⟨fun h => ⟨b.toInt, rfl, (Except.ok.inj h).symm⟩, ?_⟩
      rintro ⟨n, hn, rfl⟩
      rw [← Option.some.inj hn]
      rfl
  | _ => exact iff_of_false (fun h => by cases h) fun ⟨n, hn, _⟩ => by cases hn

/-- Taking a leaf from a hundred is taking its number from a hundred. -/
theorem complement_times_ok_iff {leaf : JsonValue} {price : PricePips} :
    (complement 100 leaf >>= fun yesCents => times 100 yesCents >>= intUnit .pricePips) =
        .ok price ↔
      ∃ n, number? leaf = some n ∧ price = ⟨(100 - n) * 100⟩ := by
  cases leaf with
  | int i =>
      refine ⟨fun h => ⟨i, rfl, (Except.ok.inj h).symm⟩, ?_⟩
      rintro ⟨n, hn, rfl⟩
      rw [← Option.some.inj hn]
      rfl
  | bool b =>
      refine ⟨fun h => ⟨b.toInt, rfl, (Except.ok.inj h).symm⟩, ?_⟩
      rintro ⟨n, hn, rfl⟩
      rw [← Option.some.inj hn]
      rfl
  | _ => exact iff_of_false (fun h => by cases h) fun ⟨n, hn, _⟩ => by cases hn

/-- The level of an entry, from what prices its first leaf. -/
def levelOf (priceOf : JsonValue → Except Refusal PricePips) (pair : JsonValue) :
    Except Refusal OrderBookLevel := do
  let cents ← item 0 pair
  let count ← item 1 pair
  let price ← priceOf cents
  let quantity ← times 100 count >>= intUnit .contractCentis
  return ⟨price, quantity⟩

theorem yesBidLevel_eq (pair : JsonValue) :
    yesBidLevel pair = levelOf (fun cents => times 100 cents >>= intUnit .pricePips) pair := by
  simp only [yesBidLevel, levelOf, bind_assoc]

theorem noBidAsYesAsk_eq (pair : JsonValue) :
    noBidAsYesAsk pair = levelOf (fun cents =>
      complement 100 cents >>= fun yesCents => times 100 yesCents >>= intUnit .pricePips) pair := by
  simp only [noBidAsYesAsk, levelOf, bind_assoc]

/-- **A level is built** exactly from an entry that passes for two numbers. -/
theorem levelOf_ok_iff {priceOf : JsonValue → Except Refusal PricePips} {pips : ℤ → ℤ}
    (hprice : ∀ {leaf : JsonValue} {price : PricePips}, priceOf leaf = .ok price ↔
      ∃ n, number? leaf = some n ∧ price = ⟨pips n⟩) {pair : JsonValue} {level : OrderBookLevel} :
    levelOf priceOf pair = .ok level ↔
      ∃ quote, readEntry pair = some quote ∧ level = ⟨⟨pips quote.1⟩, ⟨quote.2 * 100⟩⟩ := by
  constructor
  · intro h
    obtain ⟨cents, hcents, h⟩ := Effects.except_bind_ok.mp h
    obtain ⟨count, hcount, h⟩ := Effects.except_bind_ok.mp h
    obtain ⟨price, hpriced, h⟩ := Effects.except_bind_ok.mp h
    obtain ⟨quantity, hsized, h⟩ := Effects.except_bind_ok.mp h
    obtain ⟨p, hp, rfl⟩ := hprice.mp hpriced
    obtain ⟨q, hq, rfl⟩ := intUnit_times_ok_iff.mp hsized
    cases h
    match pair, hcents, hcount with
    | .arr (_ :: _ :: _), rfl, rfl =>
        refine ⟨(p, q), ?_, rfl⟩
        rw [readEntry, hp, hq]
        rfl
    -- an item of a text is a text, which no number is read from
    | .str (_ :: _), rfl, _ => cases hp
  · rintro ⟨⟨p, q⟩, hentry, rfl⟩
    obtain ⟨cents, count, rest, rfl⟩ :
        ∃ cents count rest, pair = .arr (cents :: count :: rest) := by
      unfold readEntry at hentry
      split at hentry
      · exact ⟨_, _, _, rfl⟩
      · cases hentry
    obtain ⟨p', hp, hrest⟩ := Option.bind_eq_some_iff.mp hentry
    obtain ⟨q', hq, hquote⟩ := Option.bind_eq_some_iff.mp hrest
    cases hquote
    refine Effects.except_bind_ok.mpr ⟨cents, rfl, Effects.except_bind_ok.mpr ⟨count, rfl, ?_⟩⟩
    refine Effects.except_bind_ok.mpr ⟨_, hprice.mpr ⟨p, hp, rfl⟩, ?_⟩
    exact Effects.except_bind_ok.mpr ⟨_, intUnit_times_ok_iff.mpr ⟨q, hq, rfl⟩, rfl⟩

theorem yesBidLevel_ok_iff {pair : JsonValue} {level : OrderBookLevel} :
    yesBidLevel pair = .ok level ↔
      ∃ quote, readEntry pair = some quote ∧ level = Windbreak.yesBidLevel quote := by
  rw [yesBidLevel_eq]
  exact levelOf_ok_iff intUnit_times_ok_iff

theorem noBidAsYesAsk_ok_iff {pair : JsonValue} {level : OrderBookLevel} :
    noBidAsYesAsk pair = .ok level ↔
      ∃ quote, readEntry pair = some quote ∧ level = Windbreak.noBidAsYesAsk quote := by
  rw [noBidAsYesAsk_eq]
  exact levelOf_ok_iff complement_times_ok_iff

/-- A side is read entry by entry. -/
theorem mapM_levels_ok_iff {levelOf : JsonValue → Except Refusal OrderBookLevel}
    {level : ℤ × ℤ → OrderBookLevel}
    (hlevel : ∀ {pair : JsonValue} {l : OrderBookLevel}, levelOf pair = .ok l ↔
      ∃ quote, readEntry pair = some quote ∧ l = level quote)
    {side : List JsonValue} {levels : List OrderBookLevel} :
    side.mapM levelOf = .ok levels ↔
      ∃ quotes, List.Forall₂ (fun pair quote => readEntry pair = some quote) side quotes ∧
        levels = quotes.map level := by
  constructor
  · intro h
    have hread := Effects.except_mapM_ok h
    clear h
    induction hread with
    | nil => exact ⟨[], .nil, rfl⟩
    | cons hpair _ ih =>
        obtain ⟨quote, hquote, rfl⟩ := hlevel.mp hpair
        obtain ⟨quotes, hquotes, rfl⟩ := ih
        exact ⟨quote :: quotes, .cons hquote hquotes, rfl⟩
  · rintro ⟨quotes, hquotes, rfl⟩
    refine Effects.except_mapM_of_forall₂ ?_
    induction hquotes with
    | nil => exact .nil
    | cons hpair _ ih => exact .cons (hlevel.mpr ⟨_, hpair, rfl⟩) ih

/-- One side of a payload's book. -/
def side (raw : JsonValue) (key : String) : List JsonValue :=
  match orderBookMap raw with
  | .ok book => rawSide book key
  | .error _ => []

/-- The numbers that a list of entries is read as. -/
abbrev ReadAs (entries : List JsonValue) (quotes : List (ℤ × ℤ)) : Prop :=
  List.Forall₂ (fun pair quote => readEntry pair = some quote) entries quotes

/-- **A payload is a book** exactly when it is an object whose entries all pass for numbers, and
then the book is that of the numbers. -/
theorem normalizeOrderBook_ok_iff {ticker : String} {raw : JsonValue} {fetchedAt : ℤ}
    {book : OrderBookSnapshot} :
    normalizeOrderBook ticker raw fetchedAt = .ok book ↔
      (∃ fields, raw = .obj fields) ∧
        ∃ yes no, ReadAs (side raw "yes") yes ∧ ReadAs (side raw "no") no ∧
          book = Windbreak.normalizeOrderBook ticker yes no fetchedAt := by
  constructor
  · intro h
    obtain ⟨inner, hinner, h⟩ := Effects.except_bind_ok.mp h
    obtain ⟨bids, hbids, h⟩ := Effects.except_bind_ok.mp h
    obtain ⟨asks, hasks, h⟩ := Effects.except_bind_ok.mp h
    obtain ⟨yes, hyes, rfl⟩ := (mapM_levels_ok_iff yesBidLevel_ok_iff).mp hbids
    obtain ⟨no, hno, rfl⟩ := (mapM_levels_ok_iff noBidAsYesAsk_ok_iff).mp hasks
    have hobject : ∃ fields, raw = .obj fields := by
      cases raw with
      | obj fields => exact ⟨fields, rfl⟩
      | _ => cases hinner
    refine ⟨hobject, yes, no, ?_, ?_, (Except.ok.inj h).symm⟩
    · simpa only [ReadAs, side, hinner] using hyes
    · simpa only [ReadAs, side, hinner] using hno
  · rintro ⟨⟨fields, rfl⟩, yes, no, hyes, hno, rfl⟩
    refine Effects.except_bind_ok.mpr ⟨_, rfl, ?_⟩
    refine Effects.except_bind_ok.mpr
      ⟨_, (mapM_levels_ok_iff yesBidLevel_ok_iff).mpr ⟨yes, hyes, rfl⟩, ?_⟩
    exact Effects.except_bind_ok.mpr
      ⟨_, (mapM_levels_ok_iff noBidAsYesAsk_ok_iff).mpr ⟨no, hno, rfl⟩, rfl⟩

/-! ## Sorted levels -/

/-- Two ladders agree up to the order of the levels of one price. -/
structure SameUpToTies (levels levels' : List OrderBookLevel) : Prop where
  perm : levels'.Perm levels
  prices : levels'.map OrderBookLevel.price = levels.map OrderBookLevel.price

/-- Ladders that are sorted by price and hold the same levels agree up to ties. -/
theorem sameUpToTies_of_sorted {r : ℤ → ℤ → Prop} (hr : ∀ a b, r a b → r b a → a = b)
    {levels levels' : List OrderBookLevel} (hperm : levels'.Perm levels)
    (hsorted : levels.Pairwise fun a b => r a.price.value b.price.value)
    (hsorted' : levels'.Pairwise fun a b => r a.price.value b.price.value) :
    SameUpToTies levels levels' := by
  have hprices : ∀ {ladder : List OrderBookLevel},
      (ladder.Pairwise fun a b => r a.price.value b.price.value) →
        (ladder.map OrderBookLevel.price).Pairwise fun a b => r a.value b.value :=
    fun h => List.pairwise_map.mpr h
  exact ⟨hperm, (hperm.map _).eq_of_pairwise (fun a b _ _ hab hba => IntUnit.ext (hr _ _ hab hba))
    (hprices hsorted') (hprices hsorted)⟩

instance priceFalling_total : Std.Total fun a b : OrderBookLevel => b.price.value ≤ a.price.value :=
  ⟨fun a b => le_total b.price.value a.price.value⟩

instance priceFalling_trans : IsTrans OrderBookLevel fun a b => b.price.value ≤ a.price.value :=
  ⟨fun _ _ _ hab hbc => le_trans hbc hab⟩

/-! ## What the venue quoted -/

/-- An entry quotes these cents and this count, both of them integers. -/
def Quotes (pair : JsonValue) (quote : ℤ × ℤ) : Prop :=
  ∃ rest, pair = .arr (.int quote.1 :: .int quote.2 :: rest)

/-- One or more whole contracts, between one and ninety-nine cents. -/
structure InRange (quote : ℤ × ℤ) : Prop where
  one_le_cents : 1 ≤ quote.1
  cents_le : quote.1 ≤ 99
  one_le_count : 1 ≤ quote.2

/-- An entry quotes a price and a count that are in range. -/
def Genuine (pair : JsonValue) : Prop := ∃ quote, Quotes pair quote ∧ InRange quote

/-- **A book says what its payload quotes**: its levels are those of the entries, priced inside the
range and of a positive size, best first, whatever order the entries stood in. -/
structure ExactBook (raw : JsonValue) (book : OrderBookSnapshot) : Prop where
  priced : ∀ level ∈ book.yesBids ++ book.yesAsks,
    0 < level.price.value ∧ level.price.value < 10000 ∧ 0 < level.quantity.value
  bids_best_first : book.yesBids.Pairwise fun better worse => worse.price.value ≤ better.price.value
  asks_best_first : book.yesAsks.Pairwise fun better worse => better.price.value ≤ worse.price.value
  bids_exact : ∃ quotes, List.Forall₂ Quotes (side raw "yes") quotes ∧
    book.yesBids.Perm (quotes.map fun quote => ⟨⟨quote.1 * 100⟩, ⟨quote.2 * 100⟩⟩)
  asks_exact : ∃ quotes, List.Forall₂ Quotes (side raw "no") quotes ∧
    book.yesAsks.Perm (quotes.map fun quote => ⟨⟨(100 - quote.1) * 100⟩, ⟨quote.2 * 100⟩⟩)
  order_free : ∀ fields, (side (.obj fields) "yes").Perm (side raw "yes") →
    (side (.obj fields) "no").Perm (side raw "no") →
    ∃ book', normalizeOrderBook book.ticker (.obj fields) book.fetchedAt = .ok book' ∧
      SameUpToTies book.yesBids book'.yesBids ∧ SameUpToTies book.yesAsks book'.yesAsks

/-- A payload is refused, or its book says what it quotes. -/
def NormalizedExactly (ticker : String) (raw : JsonValue) (fetchedAt : ℤ) : Prop :=
  ∀ book, normalizeOrderBook ticker raw fetchedAt = .ok book → ExactBook raw book

/-- A quoting entry is read as what it quotes. -/
theorem Quotes.entry {pair : JsonValue} {quote : ℤ × ℤ} (h : Quotes pair quote) :
    readEntry pair = some quote := by
  obtain ⟨rest, rfl⟩ := h
  rfl

/-- A list of genuine entries is read as what they quote. -/
theorem quotes_of_genuine {entries : List JsonValue} (h : ∀ pair ∈ entries, Genuine pair) :
    ∃ quotes, List.Forall₂ Quotes entries quotes ∧ ∀ quote ∈ quotes, InRange quote := by
  induction entries with
  | nil => exact ⟨[], .nil, fun quote hquote => absurd hquote List.not_mem_nil⟩
  | cons pair entries ih =>
      obtain ⟨quote, hquote, hrange⟩ := h pair (List.mem_cons_self ..)
      obtain ⟨quotes, hquotes, hranges⟩ := ih fun other hother =>
        h other (List.mem_cons_of_mem _ hother)
      exact ⟨quote :: quotes, .cons hquote hquotes, List.forall_mem_cons.mpr ⟨hrange, hranges⟩⟩

/-- An entry of a side that is read is read as one of its numbers. -/
theorem exists_quote {r : JsonValue → ℤ × ℤ → Prop} {entries : List JsonValue}
    {quotes : List (ℤ × ℤ)} (h : List.Forall₂ r entries quotes) {pair : JsonValue}
    (hpair : pair ∈ entries) : ∃ quote ∈ quotes, r pair quote := by
  induction h with
  | nil => exact absurd hpair List.not_mem_nil
  | cons hfirst _ ih =>
      rcases List.mem_cons.mp hpair with rfl | hrest
      · exact ⟨_, List.mem_cons_self .., hfirst⟩
      · obtain ⟨quote, hquote, hr⟩ := ih hrest
        exact ⟨quote, List.mem_cons_of_mem _ hquote, hr⟩

/-- **The order of the entries** does not show, beyond ties. -/
theorem normalizeOrderBook_order_free {ticker : String} {yes no : List (ℤ × ℤ)} {fetchedAt : ℤ}
    {raw : JsonValue} (hyes : ReadAs (side raw "yes") yes) (hno : ReadAs (side raw "no") no)
    {fields : List (CodePoints × JsonValue)}
    (hyes' : (side (.obj fields) "yes").Perm (side raw "yes"))
    (hno' : (side (.obj fields) "no").Perm (side raw "no")) :
    ∃ book', normalizeOrderBook ticker (.obj fields) fetchedAt = .ok book' ∧
      SameUpToTies (Windbreak.normalizeOrderBook ticker yes no fetchedAt).yesBids book'.yesBids ∧
      SameUpToTies (Windbreak.normalizeOrderBook ticker yes no fetchedAt).yesAsks
        book'.yesAsks := by
  obtain ⟨yes', hread, hperm⟩ := List.perm_comp_forall₂ hyes' hyes
  obtain ⟨no', hread', hperm'⟩ := List.perm_comp_forall₂ hno' hno
  refine ⟨_, normalizeOrderBook_ok_iff.mpr ⟨⟨fields, rfl⟩, yes', no', hread, hread', rfl⟩, ?_, ?_⟩
  · refine sameUpToTies_of_sorted (r := fun a b => b ≤ a) (fun a b hab hba => le_antisymm hba hab)
      ?_ (List.pairwise_insertionSort _ _) (List.pairwise_insertionSort _ _)
    exact (List.perm_insertionSort _ _).trans
      ((hperm.map _).trans (List.perm_insertionSort _ _).symm)
  · refine sameUpToTies_of_sorted (r := fun a b => a ≤ b) (fun a b hab hba => le_antisymm hab hba)
      ?_ (List.pairwise_insertionSort _ _) (List.pairwise_insertionSort _ _)
    exact (List.perm_insertionSort _ _).trans
      ((hperm'.map _).trans (List.perm_insertionSort _ _).symm)

/-- **Genuine entries** make a book that says what they quote. -/
theorem exactBook_of_genuine {ticker : String} {raw : JsonValue} {fetchedAt : ℤ}
    {book : OrderBookSnapshot} (hbook : normalizeOrderBook ticker raw fetchedAt = .ok book)
    (hgenuine : ∀ pair ∈ side raw "yes" ++ side raw "no", Genuine pair) : ExactBook raw book := by
  obtain ⟨yes, hyes, hyesRange⟩ := quotes_of_genuine fun pair hpair =>
    hgenuine pair (List.mem_append_left _ hpair)
  obtain ⟨no, hno, hnoRange⟩ := quotes_of_genuine fun pair hpair =>
    hgenuine pair (List.mem_append_right _ hpair)
  have hreadYes : ReadAs (side raw "yes") yes := hyes.imp fun _ _ => Quotes.entry
  have hreadNo : ReadAs (side raw "no") no := hno.imp fun _ _ => Quotes.entry
  obtain ⟨hobject, -⟩ := normalizeOrderBook_ok_iff.mp hbook
  have hsame : normalizeOrderBook ticker raw fetchedAt = .ok _ :=
    normalizeOrderBook_ok_iff.mpr ⟨hobject, yes, no, hreadYes, hreadNo, rfl⟩
  obtain rfl := Except.ok.inj (hbook.symm.trans hsame)
  have hbids := List.perm_insertionSort (fun a b : OrderBookLevel => b.price.value ≤ a.price.value)
    (yes.map Windbreak.yesBidLevel)
  have hasks := List.perm_insertionSort (fun a b : OrderBookLevel => a.price.value ≤ b.price.value)
    (no.map Windbreak.noBidAsYesAsk)
  refine ⟨fun level hlevel => ?_, List.pairwise_insertionSort _ _, List.pairwise_insertionSort _ _,
    ⟨yes, hyes, hbids⟩, ⟨no, hno, hasks⟩,
    fun fields => normalizeOrderBook_order_free hreadYes hreadNo⟩
  rcases List.mem_append.mp hlevel with hbid | hask
  · obtain ⟨quote, hquote, rfl⟩ := List.mem_map.mp (hbids.mem_iff.mp hbid)
    obtain ⟨hone, hcents, hcount⟩ := hyesRange quote hquote
    simp only [Windbreak.yesBidLevel, pricePipsPerCent, centisPerWholeContract]
    omega
  · obtain ⟨quote, hquote, rfl⟩ := List.mem_map.mp (hasks.mem_iff.mp hask)
    obtain ⟨hone, hcents, hcount⟩ := hnoRange quote hquote
    simp only [Windbreak.noBidAsYesAsk, pricePipsPerCent, fullPriceCents, centisPerWholeContract]
    omega

/-- **A book that says what its payload quotes** has genuine entries only. -/
theorem genuine_of_exactBook {raw : JsonValue} {book : OrderBookSnapshot} (h : ExactBook raw book) :
    ∀ pair ∈ side raw "yes" ++ side raw "no", Genuine pair := by
  intro pair hpair
  rcases List.mem_append.mp hpair with hyes | hno
  · obtain ⟨quotes, hquotes, hperm⟩ := h.bids_exact
    obtain ⟨quote, hmem, hquote⟩ := exists_quote hquotes hyes
    have hlevel := hperm.mem_iff.mpr (List.mem_map_of_mem hmem)
    obtain ⟨hpositive, hbelow, hsize⟩ := h.priced _ (List.mem_append_left _ hlevel)
    dsimp only at hpositive hbelow hsize
    exact ⟨quote, hquote, by omega, by omega, by omega⟩
  · obtain ⟨quotes, hquotes, hperm⟩ := h.asks_exact
    obtain ⟨quote, hmem, hquote⟩ := exists_quote hquotes hno
    have hlevel := hperm.mem_iff.mpr (List.mem_map_of_mem hmem)
    obtain ⟨hpositive, hbelow, hsize⟩ := h.priced _ (List.mem_append_right _ hlevel)
    dsimp only at hpositive hbelow hsize
    exact ⟨quote, hquote, by omega, by omega, by omega⟩

/-- A list of entries of which each passes for two numbers is read. -/
theorem exists_readAs {entries : List JsonValue} (h : ∀ pair ∈ entries, readEntry pair ≠ none) :
    ∃ quotes, ReadAs entries quotes := by
  induction entries with
  | nil => exact ⟨[], .nil⟩
  | cons pair entries ih =>
      obtain ⟨quote, hquote⟩ := Option.ne_none_iff_exists'.mp (h pair (List.mem_cons_self ..))
      obtain ⟨quotes, hquotes⟩ := ih fun other hother => h other (List.mem_cons_of_mem _ hother)
      exact ⟨quote :: quotes, .cons hquote hquotes⟩

/-- **A payload is refused or exact** exactly when some entry does not pass for two numbers, or
every entry is genuine. -/
theorem normalized_exactly_iff (ticker : String) (raw : JsonValue) (fetchedAt : ℤ) :
    NormalizedExactly ticker raw fetchedAt ↔
      (∃ pair ∈ side raw "yes" ++ side raw "no", readEntry pair = none) ∨
        ∀ pair ∈ side raw "yes" ++ side raw "no", Genuine pair := by
  constructor
  · intro h
    by_cases hread : ∃ pair ∈ side raw "yes" ++ side raw "no", readEntry pair = none
    · exact Or.inl hread
    · right
      push Not at hread
      obtain ⟨yes, hyes⟩ := exists_readAs fun pair hpair =>
        hread pair (List.mem_append_left _ hpair)
      obtain ⟨no, hno⟩ := exists_readAs fun pair hpair =>
        hread pair (List.mem_append_right _ hpair)
      cases raw with
      | obj fields =>
          exact genuine_of_exactBook
            (h _ (normalizeOrderBook_ok_iff.mpr ⟨⟨fields, rfl⟩, yes, no, hyes, hno, rfl⟩))
      -- no other payload has entries
      | _ => exact fun pair hpair => absurd hpair List.not_mem_nil
  · rintro (⟨pair, hpair, hnone⟩ | hgenuine) book hbook
    · obtain ⟨-, yes, no, hyes, hno, -⟩ := normalizeOrderBook_ok_iff.mp hbook
      have hsome : ∃ quote, readEntry pair = some quote := by
        rcases List.mem_append.mp hpair with hmem | hmem
        · obtain ⟨quote, -, hquote⟩ := exists_quote hyes hmem
          exact ⟨quote, hquote⟩
        · obtain ⟨quote, -, hquote⟩ := exists_quote hno hmem
          exact ⟨quote, hquote⟩
      obtain ⟨quote, hquote⟩ := hsome
      cases hnone.symm.trans hquote
    · exact exactBook_of_genuine hbook hgenuine

/-- A bid of a boolean, and an offer of contracts that are owed. -/
def launderedPayload : JsonValue :=
  .obj [(codes "orderbook", .obj
    [(codes "yes", .arr [.arr [.bool true, .bool true]]),
      (codes "no", .arr [.arr [.int 100, .int (-5)]])])]

/-- **Two booleans are a bid** of one contract at a cent. -/
theorem booleans_are_a_bid :
    (normalizeOrderBook "MKT" launderedPayload 0 =
      .ok ⟨"MKT", [⟨⟨100⟩, ⟨100⟩⟩], [⟨⟨0⟩, ⟨-500⟩⟩], 0⟩) ∧
    ¬NormalizedExactly "MKT" launderedPayload 0 := by
  refine ⟨rfl, fun h => ?_⟩
  obtain ⟨_, -, hsize⟩ := (h _ rfl).priced ⟨⟨0⟩, ⟨-500⟩⟩
    (List.mem_cons_of_mem _ (List.mem_cons_self ..))
  cases hsize

end RawBook

end Windbreak
