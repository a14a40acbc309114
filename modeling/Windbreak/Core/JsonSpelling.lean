import Windbreak.Core.JsonLoaded

/-!
# How a JSON text spells a string

The same string has many spellings: a character may stand for itself, or be escaped by a letter or
by the number of its code unit.  What a reader makes of a literal is decided here from the literal's
own characters, and the member of an object that a lookup returns is found in the text.

* `Written` — units, and one way to write them.
* **`scanUnits_iff`** — a literal is read as the units it is written for.
* `memberText`, **`memberText_spec`** — where in a text the value of a member stands.
* **`spells_iff`** — a token occurs in a decoded string exactly when its literal spells it.
-/

namespace JsonValue

/-! ## Spellings -/

/-- Code units, and characters of a literal that are read as them. -/
inductive Written : List ℕ → List Char → Prop
  | nil : Written [] []
  | verbatim {c : Char} {units : List ℕ} {text : List Char} (hcontrol : 32 ≤ c.toNat)
      (hquote : c ≠ '"') (hescape : c ≠ '\\') (h : Written units text) :
      Written (c.toNat :: units) (c :: text)
  | escape {e : Char} {unit : ℕ} {units : List ℕ} {text : List Char} (he : unescape? e = some unit)
      (h : Written units text) : Written (unit :: units) ('\\' :: e :: text)
  | unicode {a b c d : Char} {unit : ℕ} {units : List ℕ} {text : List Char}
      (hunit : hexUnit? a b c d = some unit) (h : Written units text) :
      Written (unit :: units) ('\\' :: 'u' :: a :: b :: c :: d :: text)

theorem Written.append {units units' : List ℕ} {text text' : List Char} (h : Written units text)
    (h' : Written units' text') : Written (units ++ units') (text ++ text') := by
  induction h with
  | nil => exact h'
  | verbatim hcontrol hquote hescape _ ih => exact .verbatim hcontrol hquote hescape ih
  | escape he _ ih => exact .escape he ih
  | unicode hunit _ ih => exact .unicode hunit ih

/-- Units in two parts are written in two parts. -/
theorem Written.split {first second : List ℕ} {text : List Char}
    (h : Written (first ++ second) text) :
    ∃ text' text'', text = text' ++ text'' ∧ Written first text' ∧ Written second text'' := by
  induction first generalizing text with
  | nil => exact ⟨[], text, rfl, .nil, h⟩
  | cons unit first ih =>
      rw [List.cons_append] at h
      cases h with
      | verbatim hcontrol hquote hescape h =>
          obtain ⟨text', text'', rfl, hfirst, hsecond⟩ := ih h
          exact ⟨_ :: text', text'', rfl, .verbatim hcontrol hquote hescape hfirst, hsecond⟩
      | escape he h =>
          obtain ⟨text', text'', rfl, hfirst, hsecond⟩ := ih h
          exact ⟨_ :: _ :: text', text'', rfl, .escape he hfirst, hsecond⟩
      | unicode hunit h =>
          obtain ⟨text', text'', rfl, hfirst, hsecond⟩ := ih h
          exact ⟨_ :: _ :: _ :: _ :: _ :: _ :: text', text'', rfl, .unicode hunit hfirst, hsecond⟩

theorem unescape?_u : unescape? 'u' = none := rfl

/-- What is written is read. -/
theorem Written.scanUnits {units : List ℕ} {text : List Char} (h : Written units text)
    (rest : List Char) : scanUnits (text ++ '"' :: rest) = some (units, rest) := by
  induction h with
  | nil => rfl
  | @verbatim c units text hcontrol hquote hescape _ ih =>
      rw [List.cons_append, JsonValue.scanUnits, if_neg, ih]
      · rfl
      · exact not_or.mpr ⟨by omega, hescape⟩
      · exact hquote
      · rintro a b c' d cs heq -
        exact hescape heq
      · rintro e cs heq -
        exact hescape heq
  | @escape e unit units text he _ ih =>
      rw [List.cons_append, List.cons_append, JsonValue.scanUnits, he, ih]
      · rfl
      · rintro a b c d cs rfl -
        rw [unescape?_u] at he
        cases he
  | @unicode a b c d unit units text hunit _ ih =>
      simp only [List.cons_append, JsonValue.scanUnits, hunit, ih]
      rfl

/-- **A literal is read as the units it is written for.** -/
theorem scanUnits_iff {cs rest : List Char} {units : List ℕ} :
    scanUnits cs = some (units, rest) ↔
      ∃ text, Written units text ∧ cs = text ++ '"' :: rest := by
  refine ⟨fun h => ?_, fun ⟨text, hwritten, heq⟩ => heq ▸ hwritten.scanUnits rest⟩
  induction cs using scanUnits.induct generalizing units rest with
  | case1 => cases h
  | case2 cs =>
      cases h
      exact ⟨[], .nil, rfl⟩
  | case3 a b c d cs ih =>
      simp only [scanUnits, Option.bind_eq_bind, Option.bind_eq_some_iff] at h
      obtain ⟨unit, hunit, ⟨units', rest'⟩, hscan, hout⟩ := h
      cases hout
      obtain ⟨text, hwritten, rfl⟩ := ih hscan
      exact ⟨_, .unicode hunit hwritten, rfl⟩
  | case4 e cs hother ih =>
      rw [scanUnits] at h
      · simp only [Option.bind_eq_bind, Option.bind_eq_some_iff] at h
        obtain ⟨unit, hunit, ⟨units', rest'⟩, hscan, hout⟩ := h
        cases hout
        obtain ⟨text, hwritten, rfl⟩ := ih hscan
        exact ⟨_, .escape hunit hwritten, rfl⟩
      · exact hother
  | case5 c cs hquote hunicode hescape hcontrol =>
      rw [scanUnits, if_pos hcontrol] at h
      · cases h
      · exact hquote
      · exact hunicode
      · exact hescape
  | case6 c cs hquote hunicode hescape hcontrol ih =>
      rw [scanUnits, if_neg hcontrol] at h
      · simp only [Option.bind_eq_bind, Option.bind_eq_some_iff] at h
        obtain ⟨⟨units', rest'⟩, hscan, hout⟩ := h
        cases hout
        obtain ⟨text, hwritten, rfl⟩ := ih hscan
        rw [not_or] at hcontrol
        exact ⟨_, .verbatim (by omega) (fun heq => hquote heq) hcontrol.2 hwritten, rfl⟩
      · exact hquote
      · exact hunicode
      · exact hescape

/-! ## Joining surrogates keeps other text -/

/-- Text of units that are no surrogates. -/
def Plain (token : List ℕ) : Prop := ∀ unit ∈ token, unit < 55296

theorem prefix_joinSurrogates {token units : List ℕ} (h : Plain token) :
    token <+: joinSurrogates units ↔ token <+: units := by
  induction units using joinSurrogates.induct generalizing token with
  | case1 => rfl
  | case2 unit => rfl
  | case3 high low units hpair ih =>
      rw [joinSurrogates, if_pos hpair]
      rw [Bool.and_eq_true] at hpair
      have hhigh : 55296 ≤ high := (isHigh_iff.mp hpair.1).1
      cases token with
      | nil => simp
      | cons unit token =>
          have hunit := h unit (.head _)
          simp only [List.cons_prefix_cons]
          constructor
          · rintro ⟨heq, -⟩
            omega
          · rintro ⟨heq, -⟩
            omega
  | case4 high low units hpair ih =>
      rw [joinSurrogates, if_neg hpair]
      cases token with
      | nil => simp
      | cons unit token =>
          rw [List.cons_prefix_cons, List.cons_prefix_cons,
            ih fun other hother => h other (.tail _ hother)]

/-- **A token without surrogates occurs in joined units exactly when it occurs in the units.** -/
theorem infix_joinSurrogates {token units : List ℕ} (htoken : token ≠ []) (h : Plain token) :
    token <:+: joinSurrogates units ↔ token <:+: units := by
  have hstart (x y : ℕ) (xs ys : List ℕ) (hx : 55296 ≤ x) (hy : 55296 ≤ y)
      (hrest : token <:+: xs ↔ token <:+: ys) : token <:+: x :: xs ↔ token <:+: y :: ys := by
    have hnot (z : ℕ) (zs : List ℕ) (hz : 55296 ≤ z) : ¬ token <+: z :: zs := by
      cases token with
      | nil => exact absurd rfl htoken
      | cons unit token =>
          intro hprefix
          have hunit := h unit (.head _)
          have heq := (List.cons_prefix_cons.mp hprefix).1
          omega
    rw [List.infix_cons_iff, List.infix_cons_iff, hrest]
    simp [hnot x xs hx, hnot y ys hy]
  induction units using joinSurrogates.induct with
  | case1 => rfl
  | case2 unit => rfl
  | case3 high low units hpair ih =>
      rw [joinSurrogates, if_pos hpair]
      rw [Bool.and_eq_true] at hpair
      have hhigh := isHigh_iff.mp hpair.1
      have hlow := isLow_iff.mp hpair.2
      have hnot : ¬ token <+: low :: units := by
        cases token with
        | nil => exact absurd rfl htoken
        | cons unit token =>
            intro hprefix
            have hunit := h unit (.head _)
            have heq := (List.cons_prefix_cons.mp hprefix).1
            omega
      refine hstart _ _ _ _ (by omega) hhigh.1 ?_
      exact ih.trans (by rw [List.infix_cons_iff, or_iff_right hnot])
  | case4 high low units hpair ih =>
      have hprefix : token <+: high :: joinSurrogates (low :: units) ↔
          token <+: high :: low :: units := by
        have hjoined : token <+: joinSurrogates (high :: low :: units) ↔
            token <+: high :: low :: units := prefix_joinSurrogates h
        rwa [joinSurrogates, if_neg hpair] at hjoined
      rw [joinSurrogates, if_neg hpair, List.infix_cons_iff, List.infix_cons_iff]
      exact or_congr hprefix ih

/-! ## What a literal spells -/

/-- A text starts with a literal that spells a token, in whatever way. -/
def Spells (token : List ℕ) (text : List Char) : Prop :=
  ∃ before piece behind head tail rest,
    text = '"' :: (before ++ piece ++ behind ++ '"' :: rest) ∧
      Written head before ∧ Written token piece ∧ Written tail behind

/-- **A token occurs in what a literal decodes to exactly when the literal spells it.** -/
theorem spells_iff {token : List ℕ} (htoken : token ≠ []) (hplain : Plain token) {cs rest : List Char}
    {s : CodePoints} (h : scanString cs = .ok (s, rest)) :
    Spells token ('"' :: cs) ↔ token <:+: s := by
  unfold scanString at h
  split at h
  · cases h
  · rename_i units rest' hunits
    cases h
    rw [infix_joinSurrogates htoken hplain]
    constructor
    · rintro ⟨before, piece, behind, head, tail, rest', heq, hhead, hpiece, htail⟩
      have hread := ((hhead.append hpiece).append htail).scanUnits rest'
      rw [← (List.cons.inj heq).2, hunits] at hread
      exact ⟨head, tail, (Prod.ext_iff.mp (Option.some.inj hread)).1.symm⟩
    · rintro ⟨head, tail, rfl⟩
      obtain ⟨text, hwritten, rfl⟩ := scanUnits_iff.mp hunits
      obtain ⟨start, behind, rfl, hstart, hbehind⟩ := hwritten.split
      obtain ⟨before, piece, rfl, hbefore, hpiece⟩ := hstart.split
      exact ⟨before, piece, behind, head, tail, rest, rfl, hbefore, hpiece, hbehind⟩

/-! ## Where a value stands -/

/-- A value without parts. -/
def isScalar : JsonValue → Bool
  | .null | .bool _ | .int _ | .float _ => true
  | .str _ | .arr _ | .obj _ => false

theorem scanUnsigned_scalar {limits : Limits} {negative : Bool} {cs rest : List Char}
    {v : JsonValue} (h : scanUnsigned limits negative cs = .ok (v, rest)) : v.isScalar = true := by
  unfold scanUnsigned at h
  split at h
  · cases h
  · dsimp only at h
    split_ifs at h
    all_goals
      cases h
      rfl

theorem scanNumber_scalar {limits : Limits} {cs rest : List Char} {v : JsonValue}
    (h : scanNumber limits cs = .ok (v, rest)) : v.isScalar = true := by
  unfold scanNumber at h
  split at h
  · rw [scanWord_loaded h]
    rfl
  · exact scanUnsigned_scalar h
  · exact scanUnsigned_scalar h

/-- **What a reader of one value returns**, by the character that the text starts with. -/
theorem scanStep_cases {limits : Limits} {nested : Option (Scan JsonValue)} {cs rest : List Char}
    {v : JsonValue} (h : scanStep limits nested cs = .ok (v, rest)) :
    (∃ cs' s, cs = '"' :: cs' ∧ v = .str s ∧ scanString cs' = .ok (s, rest)) ∨
    (∃ items, v = .arr items) ∨
    (∃ cs' value, cs = '{' :: cs' ∧ nested = some value ∧ scanObject value cs' = .ok (v, rest)) ∨
    v.isScalar = true := by
  unfold scanStep at h
  split at h
  · cases h
  · obtain ⟨⟨s, rest'⟩, hstring, h⟩ := Effects.except_bind_ok.mp h
    cases h
    exact .inl ⟨_, s, rfl, rfl, hstring⟩
  · cases nested with
    | none => cases h
    | some value =>
        refine .inr (.inl ?_)
        change scanArray value _ = _ at h
        unfold scanArray at h
        split at h
        · cases h
          exact ⟨[], rfl⟩
        · obtain ⟨⟨items, tail⟩, -, h⟩ := Effects.except_bind_ok.mp h
          cases h
          exact ⟨items, rfl⟩
  · cases nested with
    | none => cases h
    | some value => exact .inr (.inr (.inl ⟨_, value, rfl, rfl, h⟩))
  · rw [scanWord_loaded h]
    exact .inr (.inr (.inr rfl))
  · rw [scanWord_loaded h]
    exact .inr (.inr (.inr rfl))
  · rw [scanWord_loaded h]
    exact .inr (.inr (.inr rfl))
  · rw [scanWord_loaded h]
    exact .inr (.inr (.inr rfl))
  · rw [scanWord_loaded h]
    exact .inr (.inr (.inr rfl))
  · exact .inr (.inr (.inr (scanNumber_scalar h)))

/-- What reads as a string is a literal. -/
theorem scanStep_str {limits : Limits} {nested : Option (Scan JsonValue)} {cs rest : List Char}
    {s : CodePoints} (h : scanStep limits nested cs = .ok (.str s, rest)) :
    ∃ cs', cs = '"' :: cs' ∧ scanString cs' = .ok (s, rest) := by
  rcases scanStep_cases h with ⟨cs', s', hcs, heq, hstring⟩ | ⟨items, heq⟩ |
    ⟨cs', value, -, -, hobject⟩ | hscalar
  · cases heq
    exact ⟨cs', hcs, hstring⟩
  · cases heq
  · unfold scanObject at hobject
    split at hobject
    · cases hobject
    · obtain ⟨⟨fields, tail⟩, -, hout⟩ := Effects.except_bind_ok.mp hobject
      cases hout
  · cases hscalar

/-- A member of an object: its key, and the text from its value on. -/
def scanMember (value : Scan JsonValue) : Scan (CodePoints × List Char)
  | '"' :: cs => do
    let (key, rest) ← scanString cs
    match skipSpace rest with
    | ':' :: rest => do
      let (_, after) ← value (skipSpace rest)
      return ((key, skipSpace rest), after)
    | _ => throw .decode
  | _ => throw .decode

/-- The last entry under a key. -/
def lastUnder {β : Type} (key : CodePoints) : List (CodePoints × β) → Option β
  | [] => none
  | (k, b) :: rest => (lastUnder key rest).or (if k = key then some b else none)

/-- The text from the value of a member on, in a text that holds an object: the last member under
the key counts. -/
def memberText (limits : Limits) (key : CodePoints) (text : String) : Option (List Char) :=
  match skipSpace text.toList with
  | '{' :: cs =>
    match scanList (scanMember (scanValue limits (limits.depth - 1))) '}' (skipSpace cs).length
        (skipSpace cs) with
    | .ok (members, _) => lastUnder key members
    | .error _ => none
  | _ => none

theorem lookup_setItems (k key : CodePoints) (v : JsonValue)
    (fields : List (CodePoints × JsonValue)) :
    (OrderedDict.setItems k v fields).lookup key =
      if k = key then some v else fields.lookup key := by
  induction fields with
  | nil =>
      by_cases hkey : k = key
      · simp [OrderedDict.setItems, hkey]
      · have hb : (key == k) = false := by simpa using Ne.symm hkey
        simp [OrderedDict.setItems, List.lookup_cons, hkey, hb]
  | cons p fields ih =>
      rw [OrderedDict.setItems]
      by_cases hp : p.1 = k
      · rw [if_pos hp, List.lookup_cons, List.lookup_cons, hp]
        by_cases hkey : k = key
        · simp [hkey]
        · have hb : (key == k) = false := by simpa using Ne.symm hkey
          simp [hkey, hb]
      · rw [if_neg hp, List.lookup_cons, List.lookup_cons, ih]
        by_cases hkey : key = p.1
        · have hne : k ≠ key := fun heq => hp (heq ▸ hkey.symm)
          simp [hkey, Ne.symm hp]
        · have hb : (key == p.1) = false := by simpa using hkey
          simp [hb]

/-- A dictionary keeps the last value under a key. -/
theorem lookup_ofPairs (key : CodePoints) (pairs : List (CodePoints × JsonValue)) :
    (ofPairs pairs).lookup key = lastUnder key pairs := by
  have hall : ∀ fields : List (CodePoints × JsonValue),
      (pairs.foldl (fun fields p => OrderedDict.setItems p.1 p.2 fields) fields).lookup key =
        (lastUnder key pairs).or (fields.lookup key) := by
    induction pairs with
    | nil => exact fun fields => rfl
    | cons p pairs ih =>
        intro fields
        rw [List.foldl_cons, ih, lookup_setItems, lastUnder, Option.or_assoc]
        split_ifs <;> rfl
  rw [ofPairs, hall]
  exact Option.or_none

/-- Entries with the same keys in the same order have related last values under a key. -/
theorem lastUnder_rel {β γ : Type} {R : β → γ → Prop} {key : CodePoints}
    {first : List (CodePoints × β)} {second : List (CodePoints × γ)}
    (h : List.Forall₂ (fun p q => p.1 = q.1 ∧ R p.2 q.2) first second) :
    Option.Rel R (lastUnder key first) (lastUnder key second) := by
  induction h with
  | nil => exact .none
  | @cons p q first second hpq _ ih =>
      obtain ⟨hkey, hrel⟩ := hpq
      rw [lastUnder, lastUnder, ← hkey]
      generalize lastUnder key first = b, lastUnder key second = c at ih
      cases ih with
      | some hsome => exact .some hsome
      | none =>
          split_ifs
          · exact .some hrel
          · exact .none

/-- What a reader of elements finds, another reader finds that reads each element as something
related and stops where it does. -/
theorem scanList_rel {β γ : Type} {element : Scan β} {element' : Scan γ} {R : β → γ → Prop}
    {close : Char} (hone : ∀ cs b rest, element cs = .ok (b, rest) →
      ∃ c, element' cs = .ok (c, rest) ∧ R b c) {fuel : ℕ} {cs rest : List Char} {bs : List β}
    (h : scanList element close fuel cs = .ok (bs, rest)) :
    ∃ found, scanList element' close fuel cs = .ok (found, rest) ∧ List.Forall₂ R bs found := by
  induction fuel generalizing cs bs rest with
  | zero => cases h
  | succ fuel ih =>
      rw [scanList] at h
      obtain ⟨⟨b, tail⟩, hfirst, h⟩ := Effects.except_bind_ok.mp h
      obtain ⟨c, hfound, hrel⟩ := hone _ _ _ hfirst
      dsimp only at h
      split at h
      · cases h
      · rename_i after hskip
        split_ifs at h with hcomma hclose
        · obtain ⟨⟨others, tail'⟩, hothers, h⟩ := Effects.except_bind_ok.mp h
          cases h
          obtain ⟨founds, hfounds, hrels⟩ := ih hothers
          refine ⟨c :: founds, ?_, .cons hrel hrels⟩
          rw [scanList]
          refine Effects.except_bind_ok.mpr ⟨_, hfound, ?_⟩
          simp only [hskip, if_pos hcomma]
          exact Effects.except_bind_ok.mpr ⟨_, hfounds, rfl⟩
        · cases h
          refine ⟨[c], ?_, .cons hrel .nil⟩
          rw [scanList]
          refine Effects.except_bind_ok.mpr ⟨_, hfound, ?_⟩
          simp only [hskip, if_neg hcomma, if_pos hclose]
          rfl

theorem scanField_member {value : Scan JsonValue} {cs rest : List Char}
    {field : CodePoints × JsonValue} (h : scanField value cs = .ok (field, rest)) :
    ∃ member, scanMember value cs = .ok (member, rest) ∧ field.1 = member.1 ∧
      ∃ after, value member.2 = .ok (field.2, after) := by
  unfold scanField at h
  split at h
  · obtain ⟨⟨key, tail⟩, hkey, h⟩ := Effects.except_bind_ok.mp h
    dsimp only at h
    split at h
    · rename_i after hskip
      obtain ⟨⟨v, tail'⟩, hvalue, h⟩ := Effects.except_bind_ok.mp h
      cases h
      refine ⟨(key, skipSpace after), ?_, rfl, tail', hvalue⟩
      rw [scanMember]
      refine Effects.except_bind_ok.mpr ⟨_, hkey, ?_⟩
      simp only [hskip]
      exact Effects.except_bind_ok.mpr ⟨_, hvalue, rfl⟩
    · cases h
  · cases h

/-- **The value of a member is read where the member's text starts.** -/
theorem memberText_spec {limits : Limits} {key : CodePoints} {text : String}
    {fields : List (CodePoints × JsonValue)} {v : JsonValue}
    (h : loads limits text = .ok (.obj fields)) (hv : fields.lookup key = some v) :
    ∃ start rest, memberText limits key text = some start ∧
      scanValue limits (limits.depth - 1) start = .ok (v, rest) := by
  unfold loads at h
  split_ifs at h
  obtain ⟨⟨value, rest⟩, hread, h⟩ := Effects.except_bind_ok.mp h
  dsimp only at h
  split_ifs at h
  cases h
  -- the text is an object's, so there is a level below
  obtain ⟨cs, value, hcs, hdepth, hobject⟩ : ∃ cs value, skipSpace text.toList = '{' :: cs ∧
      value = scanValue limits (limits.depth - 1) ∧
        scanObject value cs = .ok (.obj fields, rest) := by
    cases hlimit : limits.depth with
    | zero =>
        rw [hlimit] at hread
        rcases scanStep_cases hread with ⟨-, s, -, heq, -⟩ | ⟨items, heq⟩ |
          ⟨cs, value, -, hnone, -⟩ | hscalar
        · cases heq
        · cases heq
        · cases hnone
        · cases hscalar
    | succ depth =>
        rw [hlimit] at hread
        rcases scanStep_cases hread with ⟨-, s, -, heq, -⟩ | ⟨items, heq⟩ |
          ⟨cs, value, hcs, hsome, hobject⟩ | hscalar
        · cases heq
        · cases heq
        · exact ⟨cs, value, hcs, (Option.some.inj hsome).symm, hobject⟩
        · cases hscalar
  subst hdepth
  unfold scanObject at hobject
  split at hobject
  · cases hobject
    cases hv
  · obtain ⟨⟨pairs, tail⟩, hpairs, hout⟩ := Effects.except_bind_ok.mp hobject
    cases hout
    obtain ⟨members, hmembers, hrel⟩ :=
      scanList_rel (fun _ _ _ hfield => scanField_member hfield) hpairs
    have hlast : Option.Rel
        (fun v start => ∃ after, scanValue limits (limits.depth - 1) start = .ok (v, after))
        (lastUnder key pairs) (lastUnder key members) := lastUnder_rel hrel
    rw [← lookup_ofPairs, hv] at hlast
    generalize hstart : lastUnder key members = start at hlast
    cases hlast with
    | some hvalue =>
        obtain ⟨after, hvalue⟩ := hvalue
        exact ⟨_, after, by rw [memberText, hcs]; simp only [hmembers, hstart], hvalue⟩

end JsonValue
