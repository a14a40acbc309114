import Mathlib.Data.List.Chain
import Mathlib.Data.List.TakeWhile
import Mathlib.Data.Nat.Digits.Defs
import Mathlib.Tactic.Ring
import Windbreak.Core.Effects
import Windbreak.Core.JsonCanonical

/-!
# What JSON text is read as

* `Loaded` — the values that a text can be read as, within the interpreter's limits.
* **`loads_loaded`** — whatever a text is read as is one of them: its strings are sound, its keys
  distinct, its integers short enough to be written again.
-/

namespace JsonValue

/-- **A value that was read**: no integer too long, no key twice, and at most so many levels of
nesting. -/
inductive Loaded (limits : Limits) : ℕ → JsonValue → Prop
  | null (depth : ℕ) : Loaded limits depth .null
  | bool (depth : ℕ) (b : Bool) : Loaded limits depth (.bool b)
  | int (depth : ℕ) (i : ℤ) (h : (Nat.toDigits 10 i.natAbs).length ≤ limits.digits) :
      Loaded limits depth (.int i)
  | float (depth : ℕ) (literal : String) : Loaded limits depth (.float literal)
  | str (depth : ℕ) (s : CodePoints) (h : Sound s) : Loaded limits depth (.str s)
  | arr (depth : ℕ) (items : List JsonValue) (h : ∀ v ∈ items, Loaded limits depth v) :
      Loaded limits (depth + 1) (.arr items)
  | obj (depth : ℕ) (fields : List (CodePoints × JsonValue)) (hkeys : (fields.map Prod.fst).Nodup)
      (hsound : ∀ f ∈ fields, Sound f.1) (h : ∀ f ∈ fields, Loaded limits depth f.2) :
      Loaded limits (depth + 1) (.obj fields)

/-! ## Strings -/

theorem hexUnit?_lt {a b c d : Char} {unit : ℕ} (h : hexUnit? a b c d = some unit) :
    unit < 65536 := by
  have hdigit : ∀ {e : Char} {n : ℕ}, Hex.digitValue? e = some n → n < 16 := by
    intro e n he
    unfold Hex.digitValue? at he
    split_ifs at he with hdecimal hlower hupper
    all_goals
      cases he
      omega
  simp only [hexUnit?, Option.bind_eq_bind, Option.bind_eq_some_iff] at h
  obtain ⟨w, hw, x, hx, y, hy, z, hz, hunit⟩ := h
  have hw := hdigit hw
  have hx := hdigit hx
  have hy := hdigit hy
  have hz := hdigit hz
  have hsum : 4096 * w + 256 * x + 16 * y + z = unit := Option.some.inj hunit
  omega

theorem unescape?_lt {c : Char} {unit : ℕ} (h : unescape? c = some unit) : unit < 65536 := by
  unfold unescape? at h
  split_ifs at h
  all_goals
    rw [← Option.some.inj h]
    decide

/-- The units of a string are code points. -/
theorem scanUnits_lt {cs : List Char} {units : List ℕ} {rest : List Char}
    (h : scanUnits cs = some (units, rest)) : ∀ unit ∈ units, unit < 1114112 := by
  induction cs using scanUnits.induct generalizing units rest with
  | case1 => cases h
  | case2 cs =>
      cases h
      exact fun unit hunit => absurd hunit List.not_mem_nil
  | case3 a b c d cs ih =>
      simp only [scanUnits, Option.bind_eq_bind, Option.bind_eq_some_iff] at h
      obtain ⟨unit, hunit, ⟨units', rest'⟩, hscan, hout⟩ := h
      cases hout
      refine List.forall_mem_cons.mpr ⟨lt_trans (hexUnit?_lt hunit) (by decide), ih hscan⟩
  | case4 e cs hother ih =>
      rw [scanUnits] at h
      · simp only [Option.bind_eq_bind, Option.bind_eq_some_iff] at h
        obtain ⟨unit, hunit, ⟨units', rest'⟩, hscan, hout⟩ := h
        cases hout
        exact List.forall_mem_cons.mpr ⟨lt_trans (unescape?_lt hunit) (by decide), ih hscan⟩
      · exact hother
  | case5 c cs hquote hunicode hescape hcontrol =>
      rw [scanUnits, if_pos hcontrol] at h
      · cases h
      · exact hquote
      · exact hunicode
      · exact hescape
  | case6 c cs hquote hunicode hescape hcontrol ih =>
      rw [scanUnits, if_neg hcontrol] at h
      · simp only [Option.bind_eq_bind, Option.bind_eq_some_iff] at h
        obtain ⟨⟨units', rest'⟩, hscan, hout⟩ := h
        cases hout
        have hvalid := Json.toNat_valid c
        exact List.forall_mem_cons.mpr ⟨by omega, ih hscan⟩
      · exact hquote
      · exact hunicode
      · exact hescape

/-- The first code point of joined units is no low surrogate unless the first unit is one. -/
theorem head_joinSurrogates {unit : ℕ} {units : List ℕ} {n : ℕ}
    (h : (joinSurrogates (unit :: units)).head? = some n) (hlow : isLow n = true) :
    isLow unit = true := by
  cases units with
  | nil =>
      cases h
      exact hlow
  | cons low units =>
      rw [joinSurrogates] at h
      split_ifs at h with hpair
      · have hjoined : _ = n := Option.some.inj h
        rw [isLow_iff] at hlow
        omega
      · have hfirst : unit = n := Option.some.inj h
        rw [hfirst]
        exact hlow

/-- **Joined units are sound.** -/
theorem sound_joinSurrogates {units : List ℕ} (h : ∀ unit ∈ units, unit < 1114112) :
    Sound (joinSurrogates units) := by
  induction units using joinSurrogates.induct with
  | case1 => exact ⟨fun n hn => absurd hn List.not_mem_nil, List.isChain_nil⟩
  | case2 unit => exact ⟨h, List.isChain_singleton _⟩
  | case3 high low units hpair ih =>
      have hrest := ih fun unit hunit => h unit (.tail _ (.tail _ hunit))
      rw [joinSurrogates, if_pos hpair]
      rw [Bool.and_eq_true, isHigh_iff, isLow_iff] at hpair
      refine ⟨List.forall_mem_cons.mpr ⟨by omega, hrest.1⟩, List.isChain_cons.mpr ⟨?_, hrest.2⟩⟩
      rintro n - ⟨hhigh, -⟩
      rw [isHigh_iff] at hhigh
      omega
  | case4 high low units hpair ih =>
      have hrest := ih fun unit hunit => h unit (.tail _ hunit)
      rw [joinSurrogates, if_neg hpair]
      refine ⟨List.forall_mem_cons.mpr ⟨h high (.head _), hrest.1⟩,
        List.isChain_cons.mpr ⟨?_, hrest.2⟩⟩
      rintro n hn ⟨hhigh, hlow⟩
      exact hpair (by rw [hhigh, head_joinSurrogates hn hlow]; rfl)

theorem scanString_sound {cs : List Char} {s : CodePoints} {rest : List Char}
    (h : scanString cs = .ok (s, rest)) : Sound s := by
  unfold scanString at h
  split at h
  · cases h
  · rename_i units rest' hunits
    cases h
    exact sound_joinSurrogates (scanUnits_lt hunits)

/-! ## Numbers -/

/-- A number is shorter than the digits that spell it. -/
theorem ofDigitChars_lt {digits : List Char} (h : ∀ c ∈ digits, c.isDigit = true) (init : ℕ) :
    Nat.ofDigitChars 10 digits init < 10 ^ digits.length * (init + 1) := by
  induction digits generalizing init with
  | nil => simp
  | cons c digits ih =>
      obtain ⟨hc, hdigits⟩ := List.forall_mem_cons.mp h
      have hvalue : c.toNat - '0'.toNat ≤ 9 := by
        simp only [Char.isDigit, Bool.and_eq_true, decide_eq_true_eq, ge_iff_le,
          UInt32.le_iff_toNat_le] at hc
        have hhigh : c.toNat ≤ 57 := hc.2
        have hzero : '0'.toNat = 48 := rfl
        omega
      have hrest := ih hdigits (10 * init + (c.toNat - '0'.toNat))
      rw [Nat.ofDigitChars_cons, List.length_cons, pow_succ]
      calc Nat.ofDigitChars 10 digits (10 * init + (c.toNat - '0'.toNat))
          < 10 ^ digits.length * (10 * init + (c.toNat - '0'.toNat) + 1) := hrest
        _ ≤ 10 ^ digits.length * (10 * (init + 1)) := Nat.mul_le_mul_left _ (by omega)
        _ = 10 ^ digits.length * 10 * (init + 1) := by ring

/-- The digits of an integer are digits, and there is one. -/
theorem scanDigits_digits {cs digits rest : List Char} (h : scanDigits cs = some (digits, rest)) :
    digits ≠ [] ∧ ∀ c ∈ digits, c.isDigit = true := by
  unfold scanDigits at h
  split at h
  · cases h
    exact ⟨List.cons_ne_nil _ _, List.forall_mem_singleton.mpr rfl⟩
  · split_ifs at h with hnone
    cases h
    exact ⟨hnone, fun c hc => List.mem_takeWhile_imp hc⟩

/-- **An integer that was read** is short enough to be written. -/
theorem length_toDigits_le {digits : List Char} (hne : digits ≠ [])
    (h : ∀ c ∈ digits, c.isDigit = true) :
    (Nat.toDigits 10 (Nat.ofDigitChars 10 digits 0)).length ≤ digits.length := by
  have hlt := ofDigitChars_lt h 0
  rw [Nat.zero_add, Nat.mul_one] at hlt
  exact Nat.toDigits_length 10 _ _ (List.length_pos_iff.mpr hne) hlt

theorem scanUnsigned_loaded {limits : Limits} {negative : Bool} {cs rest : List Char}
    {v : JsonValue} (h : scanUnsigned limits negative cs = .ok (v, rest)) (depth : ℕ) :
    Loaded limits depth v := by
  unfold scanUnsigned at h
  cases hdigits : scanDigits cs with
  | none =>
      rw [hdigits] at h
      cases h
  | some scanned =>
      obtain ⟨digits, tail⟩ := scanned
      obtain ⟨hne, hall⟩ := scanDigits_digits hdigits
      rw [hdigits] at h
      dsimp only at h
      by_cases hinteger : (scanFraction tail).1 = [] ∧ (scanExponent (scanFraction tail).2).1 = []
      · rw [if_pos hinteger] at h
        by_cases hlong : limits.digits < digits.length
        · rw [if_pos hlong] at h
          cases h
        · rw [if_neg hlong] at h
          cases h
          refine .int depth _ (le_trans ?_ (not_lt.mp hlong))
          have habs : (if negative = true then -(Nat.ofDigitChars 10 digits 0 : ℤ)
              else (Nat.ofDigitChars 10 digits 0 : ℤ)).natAbs = Nat.ofDigitChars 10 digits 0 := by
            split_ifs
            · rw [Int.natAbs_neg, Int.natAbs_natCast]
            · rw [Int.natAbs_natCast]
          rw [habs]
          exact length_toDigits_le hne hall
      · rw [if_neg hinteger] at h
        cases h
        exact .float depth _

theorem scanWord_loaded {word : List Char} {value v : JsonValue} {cs rest : List Char}
    (h : scanWord word value cs = .ok (v, rest)) : v = value := by
  unfold scanWord at h
  split_ifs at h
  cases h
  rfl

theorem scanNumber_loaded {limits : Limits} {cs rest : List Char} {v : JsonValue}
    (h : scanNumber limits cs = .ok (v, rest)) (depth : ℕ) : Loaded limits depth v := by
  unfold scanNumber at h
  split at h
  · rw [scanWord_loaded h]
    exact .float depth _
  · exact scanUnsigned_loaded h depth
  · exact scanUnsigned_loaded h depth

/-! ## Containers -/

/-- What every element of a list satisfies if each element that is read does. -/
theorem scanList_forall {α : Type} {element : Scan α} {close : Char} {P : α → Prop}
    (hone : ∀ cs a rest, element cs = .ok (a, rest) → P a) {fuel : ℕ} {cs rest : List Char}
    {as : List α} (h : scanList element close fuel cs = .ok (as, rest)) : ∀ a ∈ as, P a := by
  induction fuel generalizing cs as rest with
  | zero => cases h
  | succ fuel ih =>
      rw [scanList] at h
      obtain ⟨⟨a, tail⟩, hfirst, h⟩ := Effects.except_bind_ok.mp h
      dsimp only at h
      split at h
      · cases h
      · split_ifs at h with hcomma hclose
        · obtain ⟨⟨others, tail'⟩, hothers, h⟩ := Effects.except_bind_ok.mp h
          cases h
          exact List.forall_mem_cons.mpr ⟨hone _ _ _ hfirst, ih hothers⟩
        · cases h
          exact List.forall_mem_cons.mpr
            ⟨hone _ _ _ hfirst, fun b hb => absurd hb List.not_mem_nil⟩

/-- A dictionary has distinct keys, and its fields are among the pairs. -/
theorem ofPairs_spec (pairs : List (CodePoints × JsonValue)) :
    ((ofPairs pairs).map Prod.fst).Nodup ∧ ∀ f ∈ ofPairs pairs, f ∈ pairs := by
  have hall : ∀ (todo before : List (CodePoints × JsonValue)), (before.map Prod.fst).Nodup →
      (∀ f ∈ before, f ∈ pairs) → (∀ f ∈ todo, f ∈ pairs) →
        ((todo.foldl (fun fields p => OrderedDict.setItems p.1 p.2 fields) before).map
            Prod.fst).Nodup ∧
          ∀ f ∈ todo.foldl (fun fields p => OrderedDict.setItems p.1 p.2 fields) before,
            f ∈ pairs := by
    intro todo
    induction todo with
    | nil => exact fun before hnodup hbefore _ => ⟨hnodup, hbefore⟩
    | cons p todo ih =>
        intro before hnodup hbefore htodo
        refine ih _ (OrderedDict.nodup_setItems hnodup) (fun f hf => ?_) fun f hf =>
          htodo f (.tail _ hf)
        rcases OrderedDict.mem_setItems hf with rfl | hf
        · exact htodo p (.head _)
        · exact hbefore f hf
  exact hall pairs [] List.nodup_nil (fun f hf => absurd hf List.not_mem_nil) fun f hf => hf

theorem scanField_loaded {value : Scan JsonValue} {P : JsonValue → Prop}
    (hone : ∀ cs v rest, value cs = .ok (v, rest) → P v) {cs rest : List Char}
    {f : CodePoints × JsonValue} (h : scanField value cs = .ok (f, rest)) :
    Sound f.1 ∧ P f.2 := by
  unfold scanField at h
  split at h
  · obtain ⟨⟨key, tail⟩, hkey, h⟩ := Effects.except_bind_ok.mp h
    dsimp only at h
    split at h
    · obtain ⟨⟨v, tail'⟩, hvalue, h⟩ := Effects.except_bind_ok.mp h
      cases h
      exact ⟨scanString_sound hkey, hone _ _ _ hvalue⟩
    · cases h
  · cases h

section

variable {limits : Limits} {value : Scan JsonValue} {depth : ℕ}

theorem scanArray_loaded (hone : ∀ cs v rest, value cs = .ok (v, rest) → Loaded limits depth v)
    {cs rest : List Char} {v : JsonValue} (h : scanArray value cs = .ok (v, rest)) :
    Loaded limits (depth + 1) v := by
  unfold scanArray at h
  split at h
  · cases h
    exact .arr depth [] fun v hv => absurd hv List.not_mem_nil
  · obtain ⟨⟨items, tail⟩, hitems, h⟩ := Effects.except_bind_ok.mp h
    cases h
    exact .arr depth items (scanList_forall hone hitems)

theorem scanObject_loaded (hone : ∀ cs v rest, value cs = .ok (v, rest) → Loaded limits depth v)
    {cs rest : List Char} {v : JsonValue} (h : scanObject value cs = .ok (v, rest)) :
    Loaded limits (depth + 1) v := by
  unfold scanObject at h
  split at h
  · cases h
    exact .obj depth [] List.nodup_nil (fun f hf => absurd hf List.not_mem_nil) fun f hf =>
      absurd hf List.not_mem_nil
  · obtain ⟨⟨pairs, tail⟩, hpairs, h⟩ := Effects.except_bind_ok.mp h
    cases h
    have hfields := scanList_forall (fun cs f rest hf => scanField_loaded hone hf) hpairs
    obtain ⟨hnodup, hmem⟩ := ofPairs_spec pairs
    exact .obj depth _ hnodup (fun f hf => (hfields f (hmem f hf)).1) fun f hf =>
      (hfields f (hmem f hf)).2

/-- One value, if the values inside it are read one level below. -/
theorem scanStep_loaded {nested : Option (Scan JsonValue)}
    (hnested : ∀ value, nested = some value → ∃ below, depth = below + 1 ∧
      ∀ cs v rest, value cs = .ok (v, rest) → Loaded limits below v)
    {cs rest : List Char} {v : JsonValue} (h : scanStep limits nested cs = .ok (v, rest)) :
    Loaded limits depth v := by
  unfold scanStep at h
  split at h
  · cases h
  · obtain ⟨⟨s, tail⟩, hstring, h⟩ := Effects.except_bind_ok.mp h
    cases h
    exact .str depth s (scanString_sound hstring)
  · cases nested with
    | none => cases h
    | some value =>
        obtain ⟨below, rfl, hone⟩ := hnested value rfl
        exact scanArray_loaded hone h
  · cases nested with
    | none => cases h
    | some value =>
        obtain ⟨below, rfl, hone⟩ := hnested value rfl
        exact scanObject_loaded hone h
  · rw [scanWord_loaded h]
    exact .null depth
  · rw [scanWord_loaded h]
    exact .bool depth true
  · rw [scanWord_loaded h]
    exact .bool depth false
  · rw [scanWord_loaded h]
    exact .float depth _
  · rw [scanWord_loaded h]
    exact .float depth _
  · exact scanNumber_loaded h depth

end

theorem scanValue_loaded {limits : Limits} {depth : ℕ} {cs rest : List Char} {v : JsonValue}
    (h : scanValue limits depth cs = .ok (v, rest)) : Loaded limits depth v := by
  induction depth generalizing cs rest v with
  | zero => exact scanStep_loaded (fun value hnone => by cases hnone) h
  | succ depth ih =>
      refine scanStep_loaded (fun value hsome => ⟨depth, rfl, fun cs v rest hread => ?_⟩) h
      rw [← Option.some.inj hsome] at hread
      exact ih hread

/-- **Whatever a text is read as** is within the limits. -/
theorem loads_loaded {limits : Limits} {text : String} {v : JsonValue}
    (h : loads limits text = .ok v) : Loaded limits limits.depth v := by
  unfold loads at h
  split_ifs at h
  obtain ⟨⟨value, rest⟩, hread, h⟩ := Effects.except_bind_ok.mp h
  dsimp only at h
  split_ifs at h
  · cases h
    exact scanValue_loaded hread

/-! ## Looking at a decoded value -/

def isText : JsonValue → Bool
  | .str _ => true
  | _ => false

def isNull : JsonValue → Bool
  | .null => true
  | _ => false

/-- Whether a value equals a text. -/
def equalsText (s : String) : JsonValue → Bool
  | .str cs => cs = codes s
  | _ => false

/-- Whether an object carries exactly the expected fields. -/
def carries (expected : List String) (obj : List (CodePoints × JsonValue)) : Bool :=
  (obj.map Prod.fst).all (fun k => k ∈ expected.map codes) &&
    (expected.map codes).all fun k => k ∈ obj.map Prod.fst

/-- A field that an object is known to carry. -/
def field (key : String) (obj : List (CodePoints × JsonValue)) : JsonValue :=
  (lookup key obj).getD .null

mutual

/-- The same value, its floats spelled otherwise. -/
def mapFloats (g : String → String) : JsonValue → JsonValue
  | .null => .null
  | .bool b => .bool b
  | .int i => .int i
  | .float literal => .float (g literal)
  | .str s => .str s
  | .arr items => .arr (mapFloatsItems g items)
  | .obj fields => .obj (mapFloatsFields g fields)

def mapFloatsItems (g : String → String) : List JsonValue → List JsonValue
  | [] => []
  | v :: vs => mapFloats g v :: mapFloatsItems g vs

def mapFloatsFields (g : String → String) :
    List (CodePoints × JsonValue) → List (CodePoints × JsonValue)
  | [] => []
  | (k, v) :: fields => (k, mapFloats g v) :: mapFloatsFields g fields

end

theorem isText_iff {v : JsonValue} : v.isText = true ↔ ∃ s, v = .str s := by
  cases v with
  | str s => exact iff_of_true rfl ⟨s, rfl⟩
  | _ => exact iff_of_false Bool.false_ne_true fun ⟨s, h⟩ => by cases h

theorem isNull_iff {v : JsonValue} : v.isNull = true ↔ v = .null := by
  cases v with
  | null => exact iff_of_true rfl rfl
  | _ => exact iff_of_false Bool.false_ne_true fun h => by cases h

theorem equalsText_iff {s : String} {v : JsonValue} :
    v.equalsText s = true ↔ v = .str (codes s) := by
  cases v with
  | str cs => rw [equalsText, decide_eq_true_iff, str.injEq]
  | _ => exact iff_of_false Bool.false_ne_true fun h => by cases h

/-- The fields of an object that was read were read one level below. -/
theorem Loaded.field {limits : Limits} {depth : ℕ} {obj : List (CodePoints × JsonValue)}
    (h : Loaded limits depth (.obj obj)) :
    ∃ below, depth = below + 1 ∧ ∀ key, Loaded limits below (JsonValue.field key obj) := by
  cases h with
  | obj below _ _ _ hfields =>
      refine ⟨below, rfl, fun key => ?_⟩
      unfold JsonValue.field lookup
      cases hlookup : obj.lookup (codes key) with
      | none => exact .null below
      | some v =>
          obtain ⟨before, after, hsplit, -⟩ := List.lookup_eq_some_iff.mp hlookup
          exact hfields (codes key, v) (by simp [hsplit])

/-- A text, a null or an integer that was read can be written. -/
theorem Loaded.fits {limits : Limits} {depth : ℕ} {v : JsonValue} (h : Loaded limits depth v)
    (hleaf : v.isText = true ∨ v.isNull = true ∨ ∃ i, v = .int i) (level : ℕ) :
    Fits limits level v := by
  cases h with
  | null => exact .null level
  | int _ i hdigits => exact .int level i hdigits
  | str _ s hsound => exact .str level s hsound
  | bool | float | arr | obj =>
      exact absurd hleaf (by simp [isText, isNull])

section

variable {fields : List (CodePoints × JsonValue)}

theorem sorted_obj (fields : List (CodePoints × JsonValue)) :
    sorted (.obj fields) = .obj (sortKeys (sortedFields fields)) := rfl

/-- Sorting keeps the set of keys. -/
theorem carries_sorted {expected : List String} (h : fields.map Prod.fst = expected.map codes) :
    carries expected (sortKeys (sortedFields fields)) = true := by
  have hmem : ∀ k, k ∈ (sortKeys (sortedFields fields)).map Prod.fst ↔ k ∈ expected.map codes := by
    intro k
    rw [((sortKeys_perm _).map Prod.fst).mem_iff, ← h, sortedFields_eq, List.map_map]
    rfl
  rw [carries, Bool.and_eq_true, List.all_eq_true, List.all_eq_true]
  exact ⟨fun k hk => decide_eq_true ((hmem k).mp hk),
    fun k hk => decide_eq_true ((hmem k).mpr hk)⟩

/-- Sorting keeps the fields. -/
theorem field_sorted (hkeys : (fields.map Prod.fst).Nodup) (key : String) :
    field key (sortKeys (sortedFields fields)) = (field key fields).sorted := by
  rw [field, field, lookup_sorted hkeys]
  cases lookup key fields with
  | none => rfl
  | some v => rfl

end

/-! ## Writing it again -/

mutual

/-- Whether the interpreter writes a value: no integer too long, no nesting too deep. -/
def writable (limits : Limits) : ℕ → JsonValue → Bool
  | _, .null => true
  | _, .bool _ => true
  | _, .int i => (Nat.toDigits 10 i.natAbs).length ≤ limits.digits
  | _, .float _ => true
  | _, .str _ => true
  | depth, .arr items => depth ≠ 0 && writableItems limits (depth - 1) items
  | depth, .obj fields => depth ≠ 0 && writableFields limits (depth - 1) fields

def writableItems (limits : Limits) : ℕ → List JsonValue → Bool
  | _, [] => true
  | depth, v :: vs => writable limits depth v && writableItems limits depth vs

def writableFields (limits : Limits) : ℕ → List (CodePoints × JsonValue) → Bool
  | _, [] => true
  | depth, (_, v) :: fields => writable limits depth v && writableFields limits depth fields

end

theorem writableItems_iff {limits : Limits} {depth : ℕ} {items : List JsonValue} :
    writableItems limits depth items = true ↔ ∀ v ∈ items, writable limits depth v = true := by
  induction items with
  | nil => exact iff_of_true rfl fun v hv => absurd hv List.not_mem_nil
  | cons v vs ih => rw [writableItems, Bool.and_eq_true, ih, List.forall_mem_cons]

theorem writableFields_iff {limits : Limits} {depth : ℕ} {fields : List (CodePoints × JsonValue)} :
    writableFields limits depth fields = true ↔
      ∀ f ∈ fields, writable limits depth f.2 = true := by
  induction fields with
  | nil => exact iff_of_true rfl fun f hf => absurd hf List.not_mem_nil
  | cons f fields ih => rw [writableFields, Bool.and_eq_true, ih, List.forall_mem_cons]

/-- **What was read can be written.** -/
theorem Loaded.writable {limits : Limits} {depth : ℕ} {v : JsonValue} (h : Loaded limits depth v) :
    v.writable limits depth = true := by
  induction h with
  | null depth => rw [JsonValue.writable]
  | bool depth b => rw [JsonValue.writable]
  | int depth i hdigits =>
      rw [JsonValue.writable]
      exact decide_eq_true hdigits
  | float depth literal => rw [JsonValue.writable]
  | str depth s hsound => rw [JsonValue.writable]
  | arr depth items hitems ih =>
      rw [JsonValue.writable, Bool.and_eq_true]
      exact ⟨decide_eq_true (Nat.succ_ne_zero depth), writableItems_iff.mpr ih⟩
  | obj depth fields hkeys hsound hfields ih =>
      rw [JsonValue.writable, Bool.and_eq_true]
      exact ⟨decide_eq_true (Nat.succ_ne_zero depth), writableFields_iff.mpr ih⟩

end JsonValue
