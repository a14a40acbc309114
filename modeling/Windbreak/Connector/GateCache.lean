import Windbreak.Connector.KalshiAdapter
import Windbreak.Core.Effects
import Windbreak.Core.Runs

/-!
# The gate and its cache

A book is asked for on the verdicts that are kept; they are as old as the walk they come from.

* `Walk.index` — the verdicts of a walk.
* `Retained` — what a connector keeps are the verdicts of the last walk it made.
* `Decided` — what a call for a book does, walk by walk.
* **`cached_gate_agrees`** — as long as the clock is not further behind the verdicts kept than their
  limit, a book is asked for, or refused, as the gate without a cache would on a walk that recent.
-/

namespace Windbreak.Kalshi

open Effects Machine
open JsonValue (codes lookup)

/-! ## Verdicts -/

/-- The verdicts of a walk; one that is not a list of objects has none. -/
def Walk.index (walk : Walk) : Option GateIndex :=
  match walk.catalogue.foldlM recordVerdict OrderedDict.empty with
  | .ok verdicts => some ⟨verdicts, walk.observedAt⟩
  | .error _ => none

/-- One more listing: an object, which changes the verdict on no ticker but its own. -/
theorem recordVerdict_ok {verdicts verdicts' : OrderedDict CodePoints (Option Refusal)}
    {raw : JsonValue} (h : recordVerdict verdicts raw = .ok verdicts') :
    ∃ market, raw = .obj market ∧ ∀ ticker : String, verdicts'.get? (codes ticker) =
      (verdicts.get? (codes ticker)).or
        (if ((lookup "ticker" market).getD .null).equalsText ticker then some (gateProduct market)
          else none) := by
  obtain ⟨market, hmarket, hrest⟩ := except_bind_ok.mp h
  cases raw with
  | null | bool _ | int _ | float _ | str _ | arr _ => cases hmarket
  | obj fields =>
      cases hmarket
      refine ⟨market, rfl, fun ticker => ?_⟩
      cases hticker : lookup "ticker" market with
      | none =>
          rw [hticker] at hrest
          cases hrest
          exact (Option.or_none).symm
      | some v =>
          rw [hticker] at hrest
          cases v with
          | null | bool _ | int _ | float _ | arr _ | obj _ =>
              cases hrest
              exact (Option.or_none).symm
          | str key =>
              have hequals : ((some (JsonValue.str key)).getD .null).equalsText ticker =
                  decide (key = codes ticker) := rfl
              simp only [hequals, decide_eq_true_eq]
              dsimp only at hrest
              by_cases hlisted : key ∈ verdicts.keys
              · rw [if_pos hlisted] at hrest
                cases hrest
                by_cases hsame : key = codes ticker
                · obtain ⟨verdict, hverdict⟩ := OrderedDict.mem_keys_iff.mp (hsame ▸ hlisted)
                  rw [hverdict, Option.some_or]
                · rw [if_neg hsame, Option.or_none]
              · rw [if_neg hlisted] at hrest
                cases hrest
                rw [OrderedDict.get?_set]
                by_cases hsame : key = codes ticker
                · have hfresh := OrderedDict.get?_eq_none_iff.mpr hlisted
                  subst hsame
                  rw [if_pos rfl, if_pos rfl, hfresh, Option.none_or]
                · rw [if_neg (Ne.symm hsame), if_neg hsame, Option.or_none]

/-- A verdict once given stands. -/
theorem foldlM_recordVerdict_kept {catalogue : List JsonValue} {ticker : String}
    {verdict : Option Refusal} {verdicts verdicts' : OrderedDict CodePoints (Option Refusal)}
    (h : catalogue.foldlM recordVerdict verdicts = .ok verdicts')
    (hgiven : verdicts.get? (codes ticker) = some verdict) :
    verdicts'.get? (codes ticker) = some verdict := by
  induction catalogue generalizing verdicts with
  | nil =>
      cases h
      exact hgiven
  | cons raw rest ih =>
      rw [List.foldlM_cons] at h
      obtain ⟨next, hnext, hrest⟩ := except_bind_ok.mp h
      obtain ⟨market, -, hget⟩ := recordVerdict_ok hnext
      exact ih hrest (by rw [hget, hgiven, Option.some_or])

/-- **The verdicts of a catalogue** are those of the gate without a cache. -/
theorem foldlM_recordVerdict (ticker : String) {catalogue : List JsonValue}
    {verdicts verdicts' : OrderedDict CodePoints (Option Refusal)}
    (h : catalogue.foldlM recordVerdict verdicts = .ok verdicts')
    (hfresh : verdicts.get? (codes ticker) = none) :
    (verdicts'.get? (codes ticker) = some none ∧
      ∃ market, gateMarket ticker catalogue = .ok market ∧ gateProduct market = none) ∨
    (verdicts'.get? (codes ticker) ≠ some none ∧
      gateMarket ticker catalogue = .error (.unknownMarketError ticker)) := by
  induction catalogue generalizing verdicts with
  | nil =>
      cases h
      refine .inr ⟨?_, rfl⟩
      rw [hfresh]
      exact (Option.some_ne_none _).symm
  | cons raw rest ih =>
      rw [List.foldlM_cons] at h
      obtain ⟨next, hnext, hrest⟩ := except_bind_ok.mp h
      obtain ⟨market, rfl, hget⟩ := recordVerdict_ok hnext
      have hverdict := hget ticker
      rw [hfresh, Option.none_or] at hverdict
      have hgate : gateMarket ticker (.obj market :: rest) =
          if ((lookup "ticker" market).getD .null).equalsText ticker then
            if (gateProduct market).isSome then .error (.unknownMarketError ticker)
            else .ok market
          else gateMarket ticker rest := rfl
      rw [hgate]
      by_cases hlisted : ((lookup "ticker" market).getD .null).equalsText ticker
      · rw [if_pos hlisted] at hverdict ⊢
        have hstands := foldlM_recordVerdict_kept hrest hverdict
        rw [hstands]
        cases hproduct : gateProduct market with
        | none => exact .inl ⟨rfl, market, rfl, hproduct⟩
        | some refusal => exact .inr ⟨(by simp), rfl⟩
      · rw [if_neg hlisted] at hverdict ⊢
        exact ih hrest hverdict

/-- **A walk's verdict on a ticker** is that of the gate without a cache on its catalogue. -/
theorem Walk.refuses_iff {walk : Walk} {index : GateIndex} (h : walk.index = some index)
    (ticker : String) :
    (index.refuses ticker = true ∧
      gateMarket ticker walk.catalogue = .error (.unknownMarketError ticker)) ∨
    (index.refuses ticker = false ∧
      ∃ market, gateMarket ticker walk.catalogue = .ok market ∧ gateProduct market = none) := by
  unfold Walk.index at h
  cases hfold : walk.catalogue.foldlM recordVerdict OrderedDict.empty with
  | error fault =>
      rw [hfold] at h
      cases h
  | ok verdicts =>
      rw [hfold] at h
      cases h
      unfold GateIndex.refuses
      rcases foldlM_recordVerdict ticker hfold (OrderedDict.get?_empty _) with
        ⟨hverdict, hgate⟩ | ⟨hverdict, hgate⟩
      · dsimp only
        rw [hverdict]
        exact .inr ⟨rfl, hgate⟩
      · refine .inl ⟨?_, hgate⟩
        dsimp only
        cases hget : verdicts.get? (codes ticker) with
        | none => rfl
        | some verdict =>
            cases verdict with
            | none => exact absurd hget hverdict
            | some refusal => rfl

/-! ## What is raised before the gate decides -/

/-- The refusal of a ticker. -/
def Fault.isUnknownMarket : Fault → Bool
  | .unknownMarketError _ => true
  | _ => false

variable {py : Interpreter} {ttl : ℤ}

theorem asMapping_error {v : JsonValue} {fault : Fault} (h : asMapping v = .error fault) :
    fault.isUnknownMarket = false := by
  cases v with
  | obj fields => cases h
  | _ =>
      cases h
      rfl

theorem elements_error {v : JsonValue} {fault : Fault} (h : elements v = .error fault) :
    fault.isUnknownMarket = false := by
  cases v with
  | arr _ | str _ | obj _ => cases h
  | _ =>
      cases h
      rfl

/-- No walk raises the refusal of a ticker. -/
theorem followPages_error {pages : Pages} {endpoint itemKey : String} {left page : ℕ}
    {cursor : Option JsonValue} {fault : Fault}
    (h : followPages py pages endpoint itemKey left page cursor = .error fault) :
    fault.isUnknownMarket = false := by
  induction left generalizing page cursor with
  | zero =>
      cases h
      rfl
  | succ left ih =>
      unfold followPages at h
      rcases except_bind_error.mp h with hpage | ⟨raw, -, h⟩
      · cases hanswer : pages page cursor with
        | ok v =>
            rw [hanswer] at hpage
            cases hpage
        | error e =>
            rw [hanswer] at hpage
            cases hpage
            rfl
      rcases except_bind_error.mp h with hpayload | ⟨payload, -, h⟩
      · exact asMapping_error hpayload
      rcases except_bind_error.mp h with hitems | ⟨items, -, h⟩
      · exact elements_error hitems
      dsimp only at h
      by_cases hnext : truthy py ((lookup "cursor" payload).getD .null)
      · rw [if_pos hnext] at h
        rcases except_bind_error.mp h with hrest | ⟨rest, -, h⟩
        · exact ih hrest
        · cases h
      · rw [if_neg hnext] at h
        cases h

/-- Nor does the reading of its verdicts. -/
theorem foldlM_recordVerdict_error {catalogue : List JsonValue} {fault : Fault}
    {verdicts : OrderedDict CodePoints (Option Refusal)}
    (h : catalogue.foldlM recordVerdict verdicts = .error fault) :
    fault.isUnknownMarket = false := by
  induction catalogue generalizing verdicts with
  | nil => cases h
  | cons raw rest ih =>
      rw [List.foldlM_cons] at h
      rcases except_bind_error.mp h with hfirst | ⟨next, -, hrest⟩
      · rcases except_bind_error.mp hfirst with hmarket | ⟨market, -, hverdict⟩
        · exact asMapping_error hmarket
        · split at hverdict
          · split_ifs at hverdict <;> cases hverdict
          · cases hverdict
      · exact ih hrest

/-! ## What a connector keeps -/

/-- **The verdicts kept** are those of the last walk. -/
def Retained (s : KalshiConnector) : Prop := s.gateIndex = s.walks.getLast?.bind Walk.index

/-- A computation that asks for no book and leaves the verdicts of its last walk. -/
structure Quiet (s t : KalshiConnector) : Prop where
  requests : t.bookRequests = s.bookRequests
  retained : Retained s → Retained t

instance quietPreorder : IsPreorder KalshiConnector Quiet where
  refl _ := ⟨rfl, id⟩
  trans _ _ _ h h' := ⟨h'.requests.trans h.requests, fun hs => h'.retained (h.retained hs)⟩

/-- The state after a walk. -/
def KalshiConnector.walked (s : KalshiConnector) (walk : Walk) (index : GateIndex) :
    KalshiConnector :=
  { s with gateIndex := some index, walks := s.walks ++ [walk] }

theorem quiet_walked (s : KalshiConnector) {walk : Walk} {index : GateIndex}
    (h : walk.index = some index) : Quiet s (s.walked walk index) := by
  refine ⟨rfl, fun _ => ?_⟩
  have hlast : (s.walks ++ [walk]).getLast? = some walk := List.getLast?_concat
  change some index = (s.walks ++ [walk]).getLast?.bind Walk.index
  rw [hlast, Option.bind_some, h]

/-- A catalogue just read leaves its verdicts, or nothing. -/
theorem recordGateIndex_cases (venue : Venue) (raw : List JsonValue) (s : KalshiConnector) :
    (∃ index, (⟨raw, venue.observedNow⟩ : Walk).index = some index ∧
      (recordGateIndex venue raw).run s = .ok index (s.walked ⟨raw, venue.observedNow⟩ index)) ∨
    ∃ fault, fault.isUnknownMarket = false ∧
      (recordGateIndex venue raw).run s = .error fault s := by
  cases hfold : raw.foldlM recordVerdict OrderedDict.empty with
  | ok verdicts =>
      refine .inl ⟨⟨verdicts, venue.observedNow⟩, ?_, ?_⟩
      · unfold Walk.index
        rw [hfold]
      · unfold recordGateIndex
        rw [hfold]
        rfl
  | error fault =>
      refine .inr ⟨fault, foldlM_recordVerdict_error hfold, ?_⟩
      unfold recordGateIndex
      rw [hfold]
      rfl

theorem recordGateIndex_quiet (venue : Venue) (raw : List JsonValue) :
    Moves Quiet (recordGateIndex venue raw) := by
  intro s
  rcases recordGateIndex_cases venue raw s with ⟨index, hindex, hrun⟩ | ⟨fault, -, hrun⟩
  · rw [hrun]
    exact quiet_walked s hindex
  · rw [hrun]
    exact Std.Refl.refl s

theorem record_run (venue : Venue) (event : ConnectorEvent) (s : KalshiConnector) :
    (record venue event).run s = .ok () { s with events := s.events ++ [event] } := by
  have hrun : (record venue event).run s =
      (tryCatch (MonadExcept.ofExcept (venue.write s.events event)) (fun _ => pure ()) :
        Call Unit).run { s with events := s.events ++ [event] } := rfl
  rw [hrun, run_tryCatch, run_ofExcept]
  cases venue.write s.events event <;> rfl

theorem record_quiet (venue : Venue) (event : ConnectorEvent) :
    Moves Quiet (record venue event) := by
  intro s
  rw [record_run]
  exact ⟨rfl, id⟩

theorem stamp_run (venue : Venue) (s : KalshiConnector) :
    (stamp venue).run s = .ok (venue.recordNow s.events.length) s := rfl

theorem stamp_quiet (venue : Venue) : Moves Quiet (stamp venue) := fun s => Std.Refl.refl s

/-- A venue that is open is passed without a trace, and no other is passed. -/
theorem ensureOperational_cases (py : Interpreter) (venue : Venue) (s : KalshiConnector) :
    (ensureOperational py venue).run s = .ok () s ∨
      ∃ fault t, (ensureOperational py venue).run s = .error fault t ∧
        fault.isUnknownMarket = false ∧ Quiet s t := by
  have hrun : (ensureOperational py venue).run s =
      (MonadExcept.ofExcept (getExchangeStatus py venue) >>= fun status =>
        if status.1 = "open" then pure () else
          (stamp venue >>= fun ts =>
            record venue (.connectorHalt "maintenance" status.1 ts)) >>= fun _ =>
              throw (.maintenanceHaltError status.1) : Call Unit).run s := rfl
  rw [hrun, EStateM.run_bind, run_ofExcept]
  cases hstatus : getExchangeStatus py venue with
  | error fault =>
      refine .inr ⟨fault, s, rfl, ?_, Std.Refl.refl s⟩
      rcases except_bind_error.mp hstatus with hanswer | ⟨v, -, hstatus⟩
      · cases hvenue : venue.status with
        | ok v =>
            rw [hvenue] at hanswer
            cases hanswer
        | error e =>
            rw [hvenue] at hanswer
            cases hanswer
            rfl
      · rcases except_bind_error.mp hstatus with hraw | ⟨raw, -, hpure⟩
        · exact asMapping_error hraw
        · cases hpure
  | ok status =>
      dsimp only
      by_cases hopen : status.1 = "open"
      · rw [if_pos hopen]
        exact .inl rfl
      · rw [if_neg hopen]
        refine .inr ⟨.maintenanceHaltError status.1,
          { s with events := s.events ++
            [.connectorHalt "maintenance" status.1 (venue.recordNow s.events.length)] },
          ?_, rfl, rfl, id⟩
        rw [EStateM.run_bind, EStateM.run_bind, stamp_run]
        dsimp only
        rw [record_run]
        rfl

theorem ensureOperational_quiet (venue : Venue) : Moves Quiet (ensureOperational py venue) := by
  intro s
  rcases ensureOperational_cases py venue s with hrun | ⟨fault, t, hrun, -, hquiet⟩
  · rw [hrun]
    exact Std.Refl.refl s
  · rw [hrun]
    exact hquiet

theorem rawMarkets_quiet (venue : Venue) : Moves Quiet (rawMarkets py venue) :=
  .bind (.ofExcept _) fun raw => .bind (recordGateIndex_quiet venue raw) fun _ => .pure _

theorem screenOne_quiet (venue : Venue) (events : List (JsonValue × JsonValue))
    (market : Fields) : Moves Quiet (screenOne py venue events market) := by
  unfold screenOne
  cases gateProduct market with
  | some reason =>
      exact .bind (.bind (stamp_quiet venue) fun _ => record_quiet venue _) fun _ => .pure _
  | none =>
      cases normalizeListed py events market with
      | ok normalized => exact .pure _
      | error fault =>
          exact .ite
            (fun _ => .bind (.bind (stamp_quiet venue) fun _ => record_quiet venue _)
              fun _ => .pure _)
            fun _ => .throw _

theorem screen_quiet (venue : Venue) (events : List (JsonValue × JsonValue))
    (raws : List JsonValue) : Moves Quiet (screen py venue events raws) := by
  induction raws with
  | nil => exact .pure _
  | cons raw rest ih =>
      exact .bind (.ofExcept _) fun market => .bind (screenOne_quiet venue events market) fun _ =>
        .bind ih fun _ => .pure _

/-- A scan asks for no book. -/
theorem listMarkets_quiet (py : Interpreter) (venue : Venue) : Moves Quiet (listMarkets py venue) :=
  .bind (ensureOperational_quiet venue) fun _ => .bind (.ofExcept _) fun events =>
    .bind (rawMarkets_quiet venue) fun raws => screen_quiet venue events raws

/-- Nor does the reading of one market. -/
theorem getMarket_quiet (py : Interpreter) (venue : Venue) (ticker : String) :
    Moves Quiet (getMarket py venue ticker) := by
  refine .bind (ensureOperational_quiet venue) fun _ =>
    .bind (.bind (rawMarkets_quiet venue) fun _ => .ofExcept _) fun raw =>
      .bind (.ofExcept _) fun events => ?_
  cases normalizeListed py events raw with
  | ok market => exact .pure _
  | error fault =>
      exact .ite
        (fun _ => .bind (.bind (stamp_quiet venue) fun _ => record_quiet venue _) fun _ => .throw _)
        fun _ => .throw _

/-! ## A call for a book -/

/-- The verdicts a call consults: of the walk it makes, or of a walk made earlier. -/
structure Consulted (ttl : ℤ) (venue : Venue) (s t : KalshiConnector) (walk : Walk)
    (index : GateIndex) : Prop where
  verdicts : walk.index = some index
  made : walk ∈ t.walks
  age : t.walks = s.walks ++ [walk] ∨
    s.gateIndex = some index ∧ venue.ageNow - index.observedAt < ttl

/-- **What a call for a book does**: it raises before the gate decides, or on a walk's verdicts it
refuses the ticker or asks for its book. -/
inductive Decided (ttl : ℤ) (venue : Venue) (ticker : String) (s : KalshiConnector) :
    Option Fault → KalshiConnector → Prop
  | undecided (fault : Fault) (t : KalshiConnector) (hfault : fault.isUnknownMarket = false)
      (hquiet : Quiet s t) : Decided ttl venue ticker s (some fault) t
  | refused (t : KalshiConnector) (walk : Walk) (index : GateIndex) (hquiet : Quiet s t)
      (hconsulted : Consulted ttl venue s t walk index) (hrefuses : index.refuses ticker = true) :
      Decided ttl venue ticker s (some (.unknownMarketError ticker)) t
  | contacted (out : Option Fault) (t : KalshiConnector) (walk : Walk) (index : GateIndex)
      (hquiet : Quiet s t) (hconsulted : Consulted ttl venue s t walk index)
      (hpasses : index.refuses ticker = false) :
      Decided ttl venue ticker s out { t with bookRequests := t.bookRequests ++ [ticker] }

theorem Walk.index_observedAt {walk : Walk} {index : GateIndex} (h : walk.index = some index) :
    index.observedAt = walk.observedAt := by
  unfold Walk.index at h
  split at h
  · cases h
    rfl
  · cases h

/-- The verdicts consulted are those kept, when young enough, and else those of a new walk. -/
theorem freshGateIndex_cases (py : Interpreter) (ttl : ℤ) (venue : Venue) {s : KalshiConnector}
    (hretained : Retained s) :
    (∃ t walk index, (freshGateIndex py ttl venue).run s = .ok index t ∧ Quiet s t ∧
      Consulted ttl venue s t walk index) ∨
    ∃ fault, (freshGateIndex py ttl venue).run s = .error fault s ∧
      fault.isUnknownMarket = false := by
  cases hcached : s.gateIndex.filter (isCurrent ttl venue.ageNow) with
  | some cached =>
      obtain ⟨hkept, hcurrent⟩ := Option.filter_eq_some_iff.mp hcached
      have hlast : s.walks.getLast?.bind Walk.index = some cached := hretained ▸ hkept
      obtain ⟨walk, hwalk, hindex⟩ := Option.bind_eq_some_iff.mp hlast
      have hrun : (freshGateIndex py ttl venue).run s = .ok cached s := by
        rw [freshGateIndex, EStateM.run_bind, EStateM.run_get]
        dsimp only
        rw [hcached]
        rfl
      exact .inl ⟨s, walk, cached, hrun, Std.Refl.refl s, hindex, List.mem_of_getLast? hwalk,
        .inr ⟨hkept, of_decide_eq_true hcurrent⟩⟩
  | none =>
      have hrun : (freshGateIndex py ttl venue).run s =
          (MonadExcept.ofExcept (paginate py venue.markets "markets" "markets") >>=
            recordGateIndex venue).run s := by
        rw [freshGateIndex, EStateM.run_bind, EStateM.run_get]
        dsimp only
        rw [hcached]
      rw [hrun]
      cases hpages : paginate py venue.markets "markets" "markets" with
      | error fault => exact .inr ⟨fault, rfl, followPages_error hpages⟩
      | ok raw =>
          rcases recordGateIndex_cases venue raw s with
            ⟨index, hindex, hrecord⟩ | ⟨fault, hfault, hrecord⟩
          · exact .inl ⟨_, _, index, hrecord, quiet_walked s hindex, hindex,
              List.mem_append_right _ (List.mem_singleton_self _), .inl rfl⟩
          · exact .inr ⟨fault, hrecord, hfault⟩

/-- **A call for a book**, taken apart. -/
theorem getOrderBook_decided (py : Interpreter) (ttl : ℤ) (venue : Venue) (ticker : String)
    {s : KalshiConnector} (hretained : Retained s) :
    Decided ttl venue ticker s (settle ((getOrderBook py ttl venue ticker).run s)).1
      (settle ((getOrderBook py ttl venue ticker).run s)).2 := by
  unfold getOrderBook
  rw [EStateM.run_bind]
  rcases ensureOperational_cases py venue s with hopen | ⟨fault, t, hhalt, hfault, hquiet⟩
  · rw [hopen]
    dsimp only
    rw [EStateM.run_bind]
    unfold requireAllowedBinary
    rw [EStateM.run_bind]
    rcases freshGateIndex_cases py ttl venue hretained with
      ⟨t, walk, index, hfresh, hquiet, hconsulted⟩ | ⟨fault, hfresh, hfault⟩
    · rw [hfresh]
      dsimp only
      cases hrefuses : index.refuses ticker with
      | true => exact .refused t walk index hquiet hconsulted hrefuses
      | false =>
          cases venue.orderbook with
          | error fault =>
              cases fault with
              | apiError statusCode => exact .contacted _ t walk index hquiet hconsulted hrefuses
              | transport message => exact .contacted _ t walk index hquiet hconsulted hrefuses
          | ok raw =>
              have hbook : ∀ book : Except Fault OrderBookSnapshot,
                  Decided ttl venue ticker s
                    (settle (EStateM.run (MonadExcept.ofExcept book : Call OrderBookSnapshot)
                      { t with bookRequests := t.bookRequests ++ [ticker] })).1
                    (settle (EStateM.run (MonadExcept.ofExcept book : Call OrderBookSnapshot)
                      { t with bookRequests := t.bookRequests ++ [ticker] })).2 := by
                intro book
                rw [run_ofExcept]
                cases book <;> exact .contacted _ t walk index hquiet hconsulted hrefuses
              exact hbook _
    · rw [hfresh]
      exact .undecided fault s hfault (Std.Refl.refl s)
  · rw [hhalt]
    exact .undecided fault t hfault hquiet

/-- A call for a book leaves the verdicts of the last walk. -/
theorem Decided.retained {venue : Venue} {ticker : String} {s t : KalshiConnector}
    {out : Option Fault} (h : Decided ttl venue ticker s out t) (hretained : Retained s) :
    Retained t := by
  cases h with
  | undecided _ t _ hquiet => exact hquiet.retained hretained
  | refused t _ _ hquiet _ _ => exact hquiet.retained hretained
  | contacted _ t _ _ hquiet _ _ => exact hquiet.retained hretained

/-! ## Runs -/

/-- A call. -/
inductive Request where
  | listMarkets
  | getMarket (ticker : String)
  | getOrderBook (ticker : String)
  deriving DecidableEq, Repr

/-- One call and what it is answered. -/
def serve (py : Interpreter) (ttl : ℤ) (s : KalshiConnector) (i : Request × Venue) :
    Option Fault × KalshiConnector :=
  match i.1 with
  | .listMarkets => settle ((listMarkets py i.2).run s)
  | .getMarket ticker => settle ((getMarket py i.2 ticker).run s)
  | .getOrderBook ticker => settle ((getOrderBook py ttl i.2 ticker).run s)

abbrev Served := Transition KalshiConnector (Request × Venue) (Option Fault)

/-- A call that asked for a book. -/
def Contacts (t : Served) : Prop := t.post.bookRequests ≠ t.pre.bookRequests

/-- A call whose gate refused the ticker. -/
def Refuses (t : Served) (ticker : String) : Prop :=
  t.post.bookRequests = t.pre.bookRequests ∧ t.output = some (.unknownMarketError ticker)

/-- A walk that is recent: of the call itself, or no further from it than the limit. -/
def Recent (ttl : ℤ) (t : Served) (walk : Walk) : Prop :=
  walk ∈ t.post.walks ∧ (t.post.walks = t.pre.walks ++ [walk] ∨
    |t.input.2.ageNow - walk.observedAt| ≤ ttl)

/-- A catalogue whose first listing of a ticker is binary. -/
def ListsBinary (ticker : String) (catalogue : List JsonValue) : Prop :=
  ∃ market, gateMarket ticker catalogue = .ok market ∧ gateProduct market = none

/-- **The gate agrees with the one without a cache**, on a recent walk; and the verdicts kept
change with a walk only. -/
structure GateAgrees (ttl : ℤ) (t : Served) : Prop where
  asked : Contacts t → ∃ ticker, t.input.1 = .getOrderBook ticker
  agrees : ∀ ticker, t.input.1 = .getOrderBook ticker → Contacts t ∨ Refuses t ticker →
    ∃ walk, Recent ttl t walk ∧ (Contacts t → ListsBinary ticker walk.catalogue) ∧
      (Refuses t ticker ↔
        gateMarket ticker walk.catalogue = .error (.unknownMarketError ticker))
  failed : t.post.walks = t.pre.walks → t.post.gateIndex = t.pre.gateIndex

/-- The clock is not further behind the verdicts kept than their limit. -/
def InStep (ttl : ℤ) (t : Served) : Prop :=
  ∀ ticker, t.input.1 = .getOrderBook ticker → ∀ index, t.pre.gateIndex = some index →
    index.observedAt - ttl ≤ t.input.2.ageNow

/-- Verdicts of the same walks are the same. -/
theorem Retained.eq_of_walks {s t : KalshiConnector} (hs : Retained s) (ht : Retained t)
    (hwalks : t.walks = s.walks) : t.gateIndex = s.gateIndex := by
  unfold Retained at hs ht
  rw [ht, hs, hwalks]

/-- The verdicts consulted are of a recent walk when the clock is in step with them. -/
theorem Consulted.recent {venue : Venue} {s t : KalshiConnector} {walk : Walk} {index : GateIndex}
    (h : Consulted ttl venue s t walk index)
    (hstep : ∀ index, s.gateIndex = some index → index.observedAt - ttl ≤ venue.ageNow) :
    t.walks = s.walks ++ [walk] ∨ |venue.ageNow - walk.observedAt| ≤ ttl := by
  rcases h.age with hnew | ⟨hkept, hyoung⟩
  · exact .inl hnew
  · have hbehind := hstep index hkept
    rw [Walk.index_observedAt h.verdicts] at hyoung hbehind
    exact .inr (abs_le.mpr ⟨by omega, by omega⟩)

/-- **A call for a book in step with the clock** agrees with the gate without a cache. -/
theorem Decided.agrees {venue : Venue} {ticker : String} {s t : KalshiConnector}
    {out : Option Fault} (h : Decided ttl venue ticker s out t) (hretained : Retained s)
    (hstep : ∀ index, s.gateIndex = some index → index.observedAt - ttl ≤ venue.ageNow) :
    GateAgrees ttl ⟨s, (.getOrderBook ticker, venue), out, t⟩ := by
  cases h with
  | undecided fault t hfault hquiet =>
      refine ⟨fun hcontacts => absurd hquiet.requests hcontacts, fun _ _ hdone => ?_,
        hretained.eq_of_walks (hquiet.retained hretained)⟩
      rcases hdone with hcontacts | ⟨-, hrefused⟩
      · exact absurd hquiet.requests hcontacts
      · cases hrefused
        cases hfault
  | refused t walk index hquiet hconsulted hrefuses =>
      refine ⟨fun hcontacts => absurd hquiet.requests hcontacts, fun asked hasked _ => ?_,
        hretained.eq_of_walks (hquiet.retained hretained)⟩
      obtain rfl := Request.getOrderBook.inj hasked
      refine ⟨walk, ⟨hconsulted.made, hconsulted.recent hstep⟩,
        fun hcontacts => absurd hquiet.requests hcontacts, fun _ => ?_,
        fun _ => ⟨hquiet.requests, rfl⟩⟩
      rcases Walk.refuses_iff hconsulted.verdicts ticker with ⟨-, hgate⟩ | ⟨hpasses, -⟩
      · exact hgate
      · exact absurd (hrefuses.symm.trans hpasses) Bool.true_eq_false.mp
  | contacted out t walk index hquiet hconsulted hpasses =>
      refine ⟨fun _ => ⟨ticker, rfl⟩, fun asked hasked _ => ?_,
        hretained.eq_of_walks (hquiet.retained hretained)⟩
      obtain rfl := Request.getOrderBook.inj hasked
      have hgate : ListsBinary ticker walk.catalogue := by
        rcases Walk.refuses_iff hconsulted.verdicts ticker with ⟨hrefuses, -⟩ | ⟨-, hgate⟩
        · exact absurd (hrefuses.symm.trans hpasses) Bool.true_eq_false.mp
        · exact hgate
      refine ⟨walk, ⟨hconsulted.made, hconsulted.recent hstep⟩, fun _ => hgate,
        fun hrefused => ?_, fun hrefuses => ?_⟩
      · have hsame : t.bookRequests ++ [ticker] = s.bookRequests := hrefused.1
        rw [hquiet.requests] at hsame
        exact absurd hsame (by simp)
      · obtain ⟨market, hmarket, -⟩ := hgate
        rw [hmarket] at hrefuses
        cases hrefuses

/-- A call that is for no book agrees as it stands. -/
theorem agrees_of_quiet {request : Request} {venue : Venue} {s t : KalshiConnector}
    {out : Option Fault} (hrequest : ∀ ticker, request ≠ .getOrderBook ticker)
    (hretained : Retained s) (hquiet : Quiet s t) : GateAgrees ttl ⟨s, (request, venue), out, t⟩ :=
  ⟨fun hcontacts => absurd hquiet.requests hcontacts,
    fun ticker hasked _ => absurd hasked (hrequest ticker),
    hretained.eq_of_walks (hquiet.retained hretained)⟩

/-- **One call** leaves the verdicts of the last walk, and agrees when the clock is in step. -/
theorem serve_spec {s : KalshiConnector} (i : Request × Venue) (hretained : Retained s) :
    Retained (serve py ttl s i).2 ∧
      (InStep ttl (transition (serve py ttl) s i) →
        GateAgrees ttl (transition (serve py ttl) s i)) := by
  obtain ⟨request, venue⟩ := i
  cases request with
  | listMarkets =>
      have hquiet := listMarkets_quiet py venue s
      rw [← settle_snd] at hquiet
      exact ⟨hquiet.retained hretained, fun _ =>
        agrees_of_quiet (fun _ h => by cases h) hretained hquiet⟩
  | getMarket ticker =>
      have hquiet := getMarket_quiet py venue ticker s
      rw [← settle_snd] at hquiet
      exact ⟨hquiet.retained hretained, fun _ =>
        agrees_of_quiet (fun _ h => by cases h) hretained hquiet⟩
  | getOrderBook ticker =>
      have hdecided := getOrderBook_decided py ttl venue ticker hretained
      refine ⟨?_, fun hstep => hdecided.agrees hretained (hstep ticker rfl)⟩
      have hserve : (serve py ttl s (.getOrderBook ticker, venue)).2 =
        (settle ((getOrderBook py ttl venue ticker).run s)).2 := rfl
      rw [hserve]
      exact hdecided.retained hretained

/-- **The cached gate**: from a connector that has made no call, whatever is called and answered,
each call whose clock is not further behind the verdicts kept than their limit agrees with the gate
without a cache. -/
theorem cached_gate_agrees (py : Interpreter) (ttl : ℤ) (calls : List (Request × Venue)) :
    ∀ t ∈ trace (serve py ttl) .new calls, InStep ttl t → GateAgrees ttl t := by
  have hnew : Retained .new := rfl
  exact trace_forall (I := Retained) (P := fun t => InStep ttl t → GateAgrees ttl t)
    (fun _ i hs => (serve_spec i hs).1) (fun _ i hs => (serve_spec i hs).2) hnew calls

/-! ## A clock that steps back -/

/-- An interpreter for texts that are neither numbers nor instants. -/
def plainInterpreter : Interpreter where
  floatOf _ := .notANumber
  intOf _ := .error "invalid literal for int()"
  fromisoformat _ := .error "Invalid isoformat string"
  repr _ := ""
  sameKey _ _ := false
  sha256 _ := "00"

/-- An open venue with a catalogue of one page, read at an instant. -/
def openVenue (markets : List JsonValue) (now : ℤ) : Venue where
  status := .ok (.obj [(codes "exchange_active", .bool true), (codes "trading_active", .bool true)])
  markets _ _ := .ok (.obj [(codes "markets", .arr markets)])
  events _ _ := .ok (.obj [])
  orderbook := .ok (.obj [])
  statusNow := now
  ageNow := now
  observedNow := now
  bookNow := now
  recordNow _ := now
  write _ _ := .ok ()

def binaryListing : JsonValue :=
  .obj [(codes "ticker", .str (codes "A")), (codes "market_type", .str (codes "binary"))]

/-- A book is asked for at 100, and again at 130 of a venue that has delisted the market. -/
def askedAgain : List (Request × Venue) :=
  [(.getOrderBook "A", openVenue [binaryListing] 100), (.getOrderBook "A", openVenue [] 130)]

/-- The connector after the first book. -/
def askedAt100 : KalshiConnector where
  gateIndex := some ⟨OrderedDict.empty.set (codes "A") none, 100⟩
  walks := [⟨[binaryListing], 100⟩]
  bookRequests := ["A"]
  events := []

/-- The second book is answered from the verdicts kept. -/
theorem cached_gate_agrees_kept :
    Contacts (transition (serve plainInterpreter 60) askedAt100
      (.getOrderBook "A", openVenue [] 130)) ∧
    GateAgrees 60 (transition (serve plainInterpreter 60) askedAt100
      (.getOrderBook "A", openVenue [] 130)) := by
  have hfirst : (serve plainInterpreter 60 .new
      (.getOrderBook "A", openVenue [binaryListing] 100)).2 = askedAt100 := rfl
  have hsecond : (serve plainInterpreter 60 askedAt100 (.getOrderBook "A", openVenue [] 130)).2 =
      { askedAt100 with bookRequests := ["A", "A"] } := rfl
  refine ⟨?_, cached_gate_agrees plainInterpreter 60 askedAgain _
    (hfirst ▸ List.mem_cons_of_mem _ (List.mem_cons_self ..)) ?_⟩
  · unfold Contacts transition
    dsimp only
    rw [hsecond]
    decide
  · intro ticker _ index hindex
    cases hindex
    decide

/-- A book is asked for at 100; the market is delisted, and the clock steps back to 0. -/
def steppedBack : List (Request × Venue) :=
  [(.getOrderBook "A", openVenue [binaryListing] 100), (.getOrderBook "A", openVenue [] 0)]

/-- The second book is asked for on verdicts a hundred seconds away. -/
theorem stepped_back_asks :
    ¬ ∀ t ∈ trace (serve plainInterpreter 60) .new steppedBack, GateAgrees 60 t := by
  intro hall
  have hfirst : (serve plainInterpreter 60 .new
      (.getOrderBook "A", openVenue [binaryListing] 100)).2 = askedAt100 := rfl
  have hsecond : (serve plainInterpreter 60 askedAt100 (.getOrderBook "A", openVenue [] 0)).2 =
      { askedAt100 with bookRequests := ["A", "A"] } := rfl
  have hagrees := hall _ (List.mem_cons_of_mem _ (List.mem_cons_self ..))
  rw [hfirst] at hagrees
  have hcontacts : Contacts (transition (serve plainInterpreter 60) askedAt100
      (.getOrderBook "A", openVenue [] 0)) := by
    unfold Contacts transition
    dsimp only
    rw [hsecond]
    decide
  obtain ⟨walk, ⟨hmade, hrecent⟩, -, -⟩ := hagrees.agrees "A" rfl (.inl hcontacts)
  change walk ∈ (serve plainInterpreter 60 askedAt100 (.getOrderBook "A", openVenue [] 0)).2.walks
    at hmade
  change (serve plainInterpreter 60 askedAt100 (.getOrderBook "A", openVenue [] 0)).2.walks =
    askedAt100.walks ++ [walk] ∨ |(0 : ℤ) - walk.observedAt| ≤ 60 at hrecent
  rw [hsecond] at hmade hrecent
  obtain rfl := List.mem_singleton.mp hmade
  rcases hrecent with hnew | hage
  · exact absurd (congrArg List.length hnew) (by decide)
  · exact absurd hage (by decide)

end Windbreak.Kalshi
