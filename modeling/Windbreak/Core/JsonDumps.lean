import Mathlib.Data.List.Sort
import Mathlib.Data.List.Lex
import Windbreak.Core.JsonScan

/-!
# Writing JSON text, and reading it back

* `dumps` — the canonical text of a value: keys in order, no whitespace, ASCII only.
* `Fits` — the values without floats that the interpreter's limits let through.
* **`loads_dumps`** — the canonical text of such a value reads as that value, its keys in order.
-/

namespace JsonValue

/-! ## The text -/

/-- The escape of one code point. -/
def escapeCode (n : ℕ) : List Char :=
  if n = 34 then ['\\', '"']
  else if n = 92 then ['\\', '\\']
  else if n = 10 then ['\\', 'n']
  else if n = 13 then ['\\', 'r']
  else if n = 9 then ['\\', 't']
  else if n = 12 then ['\\', 'f']
  else if n = 8 then ['\\', 'b']
  else if 32 ≤ n ∧ n ≤ 126 then [Char.ofNat n]
  else if n < 65536 then Json.unicodeEscape n
  else
    Json.unicodeEscape (55296 + (n - 65536) / 1024) ++
      Json.unicodeEscape (56320 + (n - 65536) % 1024)

/-- A quoted string. -/
def quoted (s : CodePoints) : List Char := '"' :: s.flatMap escapeCode ++ ['"']

/-- An integer in decimal. -/
def decimal (i : ℤ) : List Char :=
  if i < 0 then '-' :: Nat.toDigits 10 i.natAbs else Nat.toDigits 10 i.natAbs

/-- Texts with a comma between any two. -/
def commaJoin : List (List Char) → List Char
  | [] => []
  | [x] => x
  | x :: y :: xs => x ++ ',' :: commaJoin (y :: xs)

/-- Keyed entries in the order of their keys. -/
def sortKeys {α : Type} (entries : List (CodePoints × α)) : List (CodePoints × α) :=
  entries.insertionSort fun a b => a.1 ≤ b.1

/-- A field, its value already rendered. -/
def renderField (f : CodePoints × List Char) : List Char := quoted f.1 ++ ':' :: f.2

mutual

/-- **The canonical text** of a value. -/
def dumps : JsonValue → List Char
  | .null => ['n', 'u', 'l', 'l']
  | .bool b => if b then ['t', 'r', 'u', 'e'] else ['f', 'a', 'l', 's', 'e']
  | .int i => decimal i
  | .float literal => literal.toList
  | .str s => quoted s
  | .arr items => '[' :: commaJoin (dumpsItems items) ++ [']']
  | .obj fields => '{' :: commaJoin ((sortKeys (dumpsFields fields)).map renderField) ++ ['}']

def dumpsItems : List JsonValue → List (List Char)
  | [] => []
  | v :: vs => dumps v :: dumpsItems vs

def dumpsFields : List (CodePoints × JsonValue) → List (CodePoints × List Char)
  | [] => []
  | (k, v) :: fields => (k, dumps v) :: dumpsFields fields

end

mutual

/-- The same value, the keys of every object in order. -/
def sorted : JsonValue → JsonValue
  | .null => .null
  | .bool b => .bool b
  | .int i => .int i
  | .float literal => .float literal
  | .str s => .str s
  | .arr items => .arr (sortedItems items)
  | .obj fields => .obj (sortKeys (sortedFields fields))

def sortedItems : List JsonValue → List JsonValue
  | [] => []
  | v :: vs => sorted v :: sortedItems vs

def sortedFields : List (CodePoints × JsonValue) → List (CodePoints × JsonValue)
  | [] => []
  | (k, v) :: fields => (k, sorted v) :: sortedFields fields

end

theorem dumpsItems_eq (items : List JsonValue) : dumpsItems items = items.map dumps := by
  induction items with
  | nil => rfl
  | cons v vs ih => rw [dumpsItems, ih, List.map_cons]

theorem dumpsFields_eq (fields : List (CodePoints × JsonValue)) :
    dumpsFields fields = fields.map fun f => (f.1, dumps f.2) := by
  induction fields with
  | nil => rfl
  | cons f fields ih => rw [dumpsFields, ih, List.map_cons]

theorem sortedItems_eq (items : List JsonValue) : sortedItems items = items.map sorted := by
  induction items with
  | nil => rfl
  | cons v vs ih => rw [sortedItems, ih, List.map_cons]

theorem sortedFields_eq (fields : List (CodePoints × JsonValue)) :
    sortedFields fields = fields.map fun f => (f.1, sorted f.2) := by
  induction fields with
  | nil => rfl
  | cons f fields ih => rw [sortedFields, ih, List.map_cons]

/-- Sorting by key commutes with what is done to the values. -/
theorem sortKeys_map {α β : Type} (g : α → β) (entries : List (CodePoints × α)) :
    sortKeys (entries.map fun f => (f.1, g f.2)) =
      (sortKeys entries).map fun f => (f.1, g f.2) := by
  refine (List.map_insertionSort (fun a b : CodePoints × α => a.1 ≤ b.1)
    (fun a b : CodePoints × β => a.1 ≤ b.1) (fun f => (f.1, g f.2)) entries ?_).symm
  exact fun _ _ _ _ => Iff.rfl

theorem sortKeys_perm {α : Type} (entries : List (CodePoints × α)) :
    (sortKeys entries).Perm entries := List.perm_insertionSort _ _

/-- A lookup does not depend on the order of distinct keys. -/
theorem lookup_perm {fields fields' : List (CodePoints × JsonValue)} (h : fields.Perm fields')
    (hkeys : (fields.map Prod.fst).Nodup) (k : CodePoints) : fields.lookup k = fields'.lookup k := by
  induction h with
  | nil => rfl
  | cons f _ ih =>
      rw [List.lookup_cons, List.lookup_cons, ih (List.nodup_cons.mp hkeys).2]
  | swap f g fields =>
      have hne : g.1 ≠ f.1 := fun hsame => (List.nodup_cons.mp hkeys).1 (hsame ▸ .head _)
      rw [List.lookup_cons, List.lookup_cons, List.lookup_cons, List.lookup_cons]
      by_cases hf : k = f.1
      · have hg : (k == g.1) = false := beq_eq_false_iff_ne.mpr fun hg => hne (hg.symm.trans hf)
        rw [hg, hf, beq_self_eq_true]
      · rw [beq_eq_false_iff_ne.mpr hf]
  | trans hfirst _ ih ih' =>
      rw [ih hkeys, ih' ((hfirst.map Prod.fst).nodup_iff.mp hkeys)]

theorem lookup_map (g : JsonValue → JsonValue) (fields : List (CodePoints × JsonValue))
    (k : CodePoints) : (fields.map fun f => (f.1, g f.2)).lookup k = (fields.lookup k).map g := by
  induction fields with
  | nil => rfl
  | cons f fields ih =>
      rw [List.map_cons, List.lookup_cons, List.lookup_cons, ih]
      cases k == f.1 with
      | true => rfl
      | false => rfl

/-- **A field of a sorted object** is the sorted field. -/
theorem lookup_sorted {fields : List (CodePoints × JsonValue)}
    (hkeys : (fields.map Prod.fst).Nodup) (key : String) :
    lookup key (sortKeys (sortedFields fields)) = (lookup key fields).map sorted := by
  have hperm := sortKeys_perm (sortedFields fields)
  have hsame : (sortedFields fields).map Prod.fst = fields.map Prod.fst := by
    rw [sortedFields_eq, List.map_map]
    rfl
  have hnodup : ((sortKeys (sortedFields fields)).map Prod.fst).Nodup := by
    rw [(hperm.map Prod.fst).nodup_iff, hsame]
    exact hkeys
  unfold lookup
  rw [lookup_perm hperm hnodup, sortedFields_eq, lookup_map]

/-! ## What can be read back -/

/-- A string of code points in which no high surrogate stands before a low one. -/
def Sound (s : CodePoints) : Prop :=
  (∀ n ∈ s, n < 1114112) ∧ s.IsChain fun high low => ¬ (isHigh high ∧ isLow low)

/-- **A value that fits the limits**: no float, no integer too long, no key twice, and at most so many
levels of nesting. -/
inductive Fits (limits : Limits) : ℕ → JsonValue → Prop
  | null (depth : ℕ) : Fits limits depth .null
  | bool (depth : ℕ) (b : Bool) : Fits limits depth (.bool b)
  | int (depth : ℕ) (i : ℤ) (h : (Nat.toDigits 10 i.natAbs).length ≤ limits.digits) :
      Fits limits depth (.int i)
  | str (depth : ℕ) (s : CodePoints) (h : Sound s) : Fits limits depth (.str s)
  | arr (depth : ℕ) (items : List JsonValue) (h : ∀ v ∈ items, Fits limits depth v) :
      Fits limits (depth + 1) (.arr items)
  | obj (depth : ℕ) (fields : List (CodePoints × JsonValue)) (hkeys : (fields.map Prod.fst).Nodup)
      (hsound : ∀ f ∈ fields, Sound f.1) (h : ∀ f ∈ fields, Fits limits depth f.2) :
      Fits limits (depth + 1) (.obj fields)

/-! ## Strings -/

/-- The code units of a code point. -/
def unitsOf (n : ℕ) : List ℕ :=
  if n < 65536 then [n] else [55296 + (n - 65536) / 1024, 56320 + (n - 65536) % 1024]

/-- What a scan of units prepends. -/
def prepend (units : List ℕ) (scanned : List ℕ × List Char) : List ℕ × List Char :=
  (units ++ scanned.1, scanned.2)

theorem hexUnit?_digits {n : ℕ} (h : n < 65536) :
    hexUnit? (Json.hexDigit (n / 4096 % 16)) (Json.hexDigit (n / 256 % 16))
      (Json.hexDigit (n / 16 % 16)) (Json.hexDigit (n % 16)) = some n := by
  unfold hexUnit?
  rw [Hex.digitValue?_hexDigit (Nat.mod_lt _ (by decide)),
    Hex.digitValue?_hexDigit (Nat.mod_lt _ (by decide)),
    Hex.digitValue?_hexDigit (Nat.mod_lt _ (by decide)),
    Hex.digitValue?_hexDigit (Nat.mod_lt _ (by decide))]
  simp only [Option.bind_eq_bind, Option.bind_some, Option.pure_def, Option.some.injEq]
  omega

theorem scanUnits_unicodeEscape {n : ℕ} (h : n < 65536) (cs : List Char) :
    scanUnits (Json.unicodeEscape n ++ cs) = (scanUnits cs).map (prepend [n]) := by
  unfold Json.unicodeEscape
  simp only [List.cons_append, List.nil_append]
  rw [scanUnits, hexUnit?_digits h]
  cases scanUnits cs with
  | none => rfl
  | some scanned => rfl

theorem toNat_ofNat_ascii {n : ℕ} (h : n ≤ 126) : (Char.ofNat n).toNat = n := by
  have hvalid : n.isValidChar := .inl (by omega)
  unfold Char.ofNat
  rw [dif_pos hvalid]
  rfl

theorem scanUnits_short {e : Char} {unit : ℕ} (he : e ≠ 'u') (h : unescape? e = some unit)
    (cs : List Char) : scanUnits ('\\' :: e :: cs) = (scanUnits cs).map (prepend [unit]) := by
  rw [scanUnits, h]
  · cases scanUnits cs with
    | none => rfl
    | some scanned => rfl
  · rintro a b c d rest rfl
    exact absurd rfl he

theorem scanUnits_plain {c : Char} (hquote : c ≠ '"') (hslash : c ≠ '\\') (hprints : 32 ≤ c.toNat)
    (cs : List Char) : scanUnits (c :: cs) = (scanUnits cs).map (prepend [c.toNat]) := by
  rw [scanUnits]
  · rw [if_neg (by simp [hslash, hprints])]
    cases scanUnits cs with
    | none => rfl
    | some scanned => rfl
  · exact hquote
  · rintro a b c d rest rfl
    exact absurd rfl hslash
  · rintro e rest rfl
    exact absurd rfl hslash

/-- **The kinds of escape**: a letter after a backslash, the character itself, one unit or two. -/
theorem escapeCode_cases (n : ℕ) :
    (∃ e : Char, (32 ≤ e.toNat ∧ e.toNat ≤ 126) ∧ e ≠ 'u' ∧ unescape? e = some n ∧ n < 65536 ∧
      escapeCode n = ['\\', e]) ∨
    (n ≠ 34 ∧ n ≠ 92 ∧ (32 ≤ n ∧ n ≤ 126) ∧ escapeCode n = [Char.ofNat n]) ∨
    (n < 65536 ∧ escapeCode n = Json.unicodeEscape n) ∨
    (¬ n < 65536 ∧ escapeCode n = Json.unicodeEscape (55296 + (n - 65536) / 1024) ++
      Json.unicodeEscape (56320 + (n - 65536) % 1024)) := by
  by_cases hshort : n ∈ [34, 92, 10, 13, 9, 12, 8]
  · refine .inl ?_
    simp only [List.mem_cons, List.not_mem_nil, or_false] at hshort
    rcases hshort with rfl | rfl | rfl | rfl | rfl | rfl | rfl
    exacts [⟨'"', by decide⟩, ⟨'\\', by decide⟩, ⟨'n', by decide⟩, ⟨'r', by decide⟩,
      ⟨'t', by decide⟩, ⟨'f', by decide⟩, ⟨'b', by decide⟩]
  · refine .inr ?_
    simp only [List.mem_cons, List.not_mem_nil, or_false, not_or] at hshort
    obtain ⟨h34, h92, h10, h13, h9, h12, h8⟩ := hshort
    rw [escapeCode, if_neg h34, if_neg h92, if_neg h10, if_neg h13, if_neg h9, if_neg h12,
      if_neg h8]
    by_cases hprints : 32 ≤ n ∧ n ≤ 126
    · exact .inl ⟨h34, h92, hprints, if_pos hprints⟩
    · rw [if_neg hprints]
      by_cases hbmp : n < 65536
      · exact .inr (.inl ⟨hbmp, if_pos hbmp⟩)
      · exact .inr (.inr ⟨hbmp, if_neg hbmp⟩)

/-- **One escape** reads as the units of its code point. -/
theorem scanUnits_escapeCode {n : ℕ} (h : n < 1114112) (cs : List Char) :
    scanUnits (escapeCode n ++ cs) = (scanUnits cs).map (prepend (unitsOf n)) := by
  have hbmp : n < 65536 → unitsOf n = [n] := fun hlt => if_pos hlt
  rcases escapeCode_cases n with ⟨e, -, he, hread, hlt, htext⟩ | ⟨hquote, hslash, hprints, htext⟩ |
    ⟨hlt, htext⟩ | ⟨hlt, htext⟩
  · rw [htext, hbmp hlt]
    exact scanUnits_short he hread cs
  · -- printable ASCII stands for itself
    have hvalue : (Char.ofNat n).toNat = n := toNat_ofNat_ascii hprints.2
    rw [htext, hbmp (by omega)]
    have hplain := scanUnits_plain (c := Char.ofNat n) (fun hc => hquote ?_) (fun hc => hslash ?_)
      ?_ cs
    · rw [hvalue] at hplain
      exact hplain
    · rw [← hvalue, hc]
      rfl
    · rw [← hvalue, hc]
      rfl
    · rw [hvalue]
      exact hprints.1
  · rw [htext, hbmp hlt]
    exact scanUnits_unicodeEscape hlt cs
  · -- a surrogate pair
    rw [htext, List.append_assoc, scanUnits_unicodeEscape (by omega),
      scanUnits_unicodeEscape (by omega), unitsOf, if_neg hlt]
    cases scanUnits cs with
    | none => rfl
    | some scanned => rfl

/-- **A quoted string** reads as the units of its code points. -/
theorem scanUnits_escaped {s : CodePoints} (h : ∀ n ∈ s, n < 1114112) (rest : List Char) :
    scanUnits (s.flatMap escapeCode ++ '"' :: rest) = some (s.flatMap unitsOf, rest) := by
  induction s with
  | nil => rw [List.flatMap_nil, List.nil_append, scanUnits, List.flatMap_nil]
  | cons n s ih =>
      rw [List.flatMap_cons, List.append_assoc, scanUnits_escapeCode (h n (.head _)),
        ih fun m hm => h m (.tail _ hm)]
      rfl

theorem isHigh_iff {unit : ℕ} : isHigh unit = true ↔ 55296 ≤ unit ∧ unit ≤ 56319 := by
  simp [isHigh]

theorem isLow_iff {unit : ℕ} : isLow unit = true ↔ 56320 ≤ unit ∧ unit ≤ 57343 := by
  simp [isLow]

/-- The first unit of a code point is a low surrogate only if the code point is one. -/
theorem head_unitsOf {n : ℕ} (h : n < 1114112) :
    ∃ unit rest, unitsOf n = unit :: rest ∧ (isLow unit = true → isLow n = true) := by
  unfold unitsOf
  split_ifs with hlt
  · exact ⟨n, [], rfl, id⟩
  · refine ⟨_, _, rfl, fun hlow => ?_⟩
    rw [isLow_iff] at hlow
    omega

theorem joinSurrogates_pair {n : ℕ} (hbig : 65536 ≤ n) (h : n < 1114112) (units : List ℕ) :
    joinSurrogates (unitsOf n ++ units) = n :: joinSurrogates units := by
  have hpair : (isHigh (55296 + (n - 65536) / 1024) &&
      isLow (56320 + (n - 65536) % 1024)) = true := by
    rw [Bool.and_eq_true, isHigh_iff, isLow_iff]
    omega
  have hjoined : 65536 + (55296 + (n - 65536) / 1024 - 55296) * 1024 +
      (56320 + (n - 65536) % 1024 - 56320) = n := by omega
  rw [unitsOf, if_neg (by omega), List.cons_append, List.cons_append, List.nil_append, joinSurrogates,
    if_pos hpair, hjoined]

/-- **The units of a sound string** join to it. -/
theorem joinSurrogates_units {s : CodePoints} (h : Sound s) :
    joinSurrogates (s.flatMap unitsOf) = s := by
  induction s with
  | nil => rfl
  | cons n s ih =>
      obtain ⟨hcodes, hchain⟩ := h
      have hn := hcodes n (.head _)
      have hrest := ih ⟨fun m hm => hcodes m (.tail _ hm), hchain.of_cons⟩
      rw [List.flatMap_cons]
      by_cases hbig : 65536 ≤ n
      · rw [joinSurrogates_pair hbig hn, hrest]
      · rw [unitsOf, if_pos (by omega), List.singleton_append]
        cases s with
        | nil => rfl
        | cons m s =>
            obtain ⟨unit, rest, hunits, hlow⟩ := head_unitsOf (hcodes m (.tail _ (.head _)))
            -- the next unit does not complete a pair
            have hapart : ¬ (isHigh n && isLow unit) = true := by
              rw [Bool.and_eq_true]
              rintro ⟨hhigh, hunit⟩
              exact (List.isChain_cons_cons.mp hchain).1 ⟨hhigh, hlow hunit⟩
            rw [List.flatMap_cons, hunits, List.cons_append] at hrest ⊢
            rw [joinSurrogates, if_neg hapart, hrest]

/-- A quoted string reads as its units, joined. -/
theorem scanString_units {s : CodePoints} (h : ∀ n ∈ s, n < 1114112) (rest : List Char) :
    scanString (s.flatMap escapeCode ++ '"' :: rest) =
      .ok (joinSurrogates (s.flatMap unitsOf), rest) := by
  unfold scanString
  rw [scanUnits_escaped h]

/-- **A quoted string** reads as itself. -/
theorem scanString_escaped {s : CodePoints} (h : Sound s) (rest : List Char) :
    scanString (s.flatMap escapeCode ++ '"' :: rest) = .ok (s, rest) := by
  rw [scanString_units h.1, joinSurrogates_units h]

/-! ## Numbers -/

/-- What may follow a value inside a text: a comma, a closing bracket or the end of its line. -/
def Ended (rest : List Char) : Prop :=
  ∀ c ∈ rest.head?, c = ',' ∨ c = ']' ∨ c = '}' ∨ c = '\n'

theorem takeWhile_digits {digits rest : List Char} (h : ∀ c ∈ digits, c.isDigit = true)
    (hrest : Ended rest) :
    (digits ++ rest).takeWhile Char.isDigit = digits ∧
      (digits ++ rest).dropWhile Char.isDigit = rest := by
  have hstop : rest.takeWhile Char.isDigit = [] ∧ rest.dropWhile Char.isDigit = rest := by
    cases rest with
    | nil => exact ⟨rfl, rfl⟩
    | cons c rest =>
        have hnot : c.isDigit = false := by
          rcases hrest c rfl with rfl | rfl | rfl | rfl
          all_goals rfl
        rw [List.takeWhile_cons, List.dropWhile_cons, hnot]
        exact ⟨rfl, rfl⟩
  rw [List.takeWhile_append_of_pos h, List.dropWhile_append_of_pos h, hstop.1, hstop.2]
  exact ⟨List.append_nil _, rfl⟩

/-- No number but zero begins with a zero. -/
theorem head_toDigits {n : ℕ} (h : 0 < n) : ∃ c cs, Nat.toDigits 10 n = c :: cs ∧ c ≠ '0' := by
  induction n using Nat.strong_induction_on with
  | _ n ih =>
      rw [Nat.toDigits_eq_if (by decide)]
      split_ifs with hlt
      · refine ⟨_, _, rfl, fun hzero => ?_⟩
        have hvalue := Nat.toNat_digitChar_of_lt_ten hlt
        rw [hzero] at hvalue
        have hcode : '0'.toNat = 48 := rfl
        omega
      · obtain ⟨c, cs, hdigits, hc⟩ := ih (n / 10) (by omega) (by omega)
        rw [hdigits]
        exact ⟨c, _, rfl, hc⟩

theorem scanDigits_toDigits (n : ℕ) {rest : List Char} (hrest : Ended rest) :
    scanDigits (Nat.toDigits 10 n ++ rest) = some (Nat.toDigits 10 n, rest) := by
  by_cases hzero : n = 0
  · rw [hzero, Nat.toDigits_zero]
    rfl
  · obtain ⟨c, cs, hdigits, hc⟩ := head_toDigits (Nat.pos_of_ne_zero hzero)
    have hall : ∀ d ∈ Nat.toDigits 10 n, d.isDigit = true := fun d hd =>
      Nat.isDigit_of_mem_toDigits (by decide) (by decide) hd
    obtain ⟨htake, hdrop⟩ := takeWhile_digits hall hrest
    rw [hdigits] at htake hdrop ⊢
    rw [List.cons_append] at htake hdrop ⊢
    rw [scanDigits, htake, hdrop, if_neg (List.cons_ne_nil c cs)]
    rintro others hsame
    exact hc (List.cons.inj hsame).1

theorem scanFraction_ended {rest : List Char} (hrest : Ended rest) :
    scanFraction rest = ([], rest) := by
  cases rest with
  | nil => rfl
  | cons c rest =>
      rcases hrest c rfl with rfl | rfl | rfl | rfl
      all_goals rfl

theorem scanExponent_ended {rest : List Char} (hrest : Ended rest) :
    scanExponent rest = ([], rest) := by
  cases rest with
  | nil => rfl
  | cons c rest =>
      have hnot : ¬ (c = 'e' ∨ c = 'E') := by
        rcases hrest c rfl with rfl | rfl | rfl | rfl
        all_goals decide
      exact if_neg fun h => hnot h.1

theorem scanUnsigned_toDigits {limits : Limits} (negative : Bool) {n : ℕ}
    (h : (Nat.toDigits 10 n).length ≤ limits.digits) {rest : List Char} (hrest : Ended rest) :
    scanUnsigned limits negative (Nat.toDigits 10 n ++ rest) =
      .ok (.int (if negative then -n else n), rest) := by
  unfold scanUnsigned
  rw [scanDigits_toDigits n hrest]
  dsimp only
  rw [scanFraction_ended hrest]
  dsimp only
  rw [scanExponent_ended hrest]
  dsimp only
  rw [if_pos ⟨rfl, rfl⟩, if_neg (not_lt.mpr h), Nat.ofDigitChars_ten_toDigits]

/-- What a number begins with. -/
theorem head_decimal (i : ℤ) : ∃ c cs, decimal i = c :: cs ∧ (c = '-' ∨ c.isDigit = true) := by
  unfold decimal
  split_ifs
  · exact ⟨_, _, rfl, .inl rfl⟩
  · cases hdigits : Nat.toDigits 10 i.natAbs with
    | nil => exact absurd hdigits Nat.toDigits_ne_nil
    | cons c cs =>
        have hc : c ∈ Nat.toDigits 10 i.natAbs := by
          rw [hdigits]
          exact .head _
        exact ⟨c, cs, rfl, .inr (Nat.isDigit_of_mem_toDigits (by decide) (by decide) hc)⟩

theorem scanNumber_decimal {limits : Limits} {i : ℤ}
    (h : (Nat.toDigits 10 i.natAbs).length ≤ limits.digits) {rest : List Char}
    (hrest : Ended rest) :
    scanNumber limits (decimal i ++ rest) = .ok (.int i, rest) := by
  cases hdigits : Nat.toDigits 10 i.natAbs with
  | nil => exact absurd hdigits Nat.toDigits_ne_nil
  | cons c cs =>
      have hc : c.isDigit = true := by
        refine Nat.isDigit_of_mem_toDigits (by decide) (by decide)
          (hdigits ▸ .head _ : c ∈ Nat.toDigits 10 i.natAbs)
      by_cases hneg : i < 0
      · have hread := scanUnsigned_toDigits true h hrest
        rw [hdigits] at hread
        rw [decimal, if_pos hneg, hdigits, List.cons_append, List.cons_append, scanNumber]
        · rw [List.cons_append] at hread
          rw [hread]
          have hvalue : -(i.natAbs : ℤ) = i := by omega
          rw [if_pos rfl, hvalue]
        · rintro others hsame
          rw [(List.cons.inj hsame).1] at hc
          exact absurd hc (by decide)
      · have hread := scanUnsigned_toDigits false h hrest
        rw [hdigits] at hread
        rw [decimal, if_neg hneg, hdigits, List.cons_append, scanNumber]
        · rw [List.cons_append] at hread
          rw [hread]
          have hvalue : (i.natAbs : ℤ) = i := by omega
          rw [if_neg Bool.false_ne_true, hvalue]
        · rintro others hsame
          rw [(List.cons.inj hsame).1] at hc
          exact absurd hc (by decide)
        · rintro others hsame
          rw [(List.cons.inj hsame).1] at hc
          exact absurd hc (by decide)

/-- A value that begins like a number is read as one. -/
theorem scanStep_number {limits : Limits} {nested : Option (Scan JsonValue)} {c : Char}
    (h : c = '-' ∨ c.isDigit = true) (cs : List Char) :
    scanStep limits nested (c :: cs) = scanNumber limits (c :: cs) := by
  have hother : ∀ d ∈ ['"', '[', '\x7b', 'n', 't', 'f', 'N', 'I'], c ≠ d := by
    rintro d hd rfl
    revert hd
    rcases h with rfl | h
    · decide
    · intro hd
      simp only [List.mem_cons, List.not_mem_nil, or_false] at hd
      rcases hd with rfl | rfl | rfl | rfl | rfl | rfl | rfl | rfl <;> exact absurd h (by decide)
  rw [scanStep]
  · exact fun hnil => absurd hnil (List.cons_ne_nil c cs)
  all_goals exact fun others hsame => hother _ (by decide) (List.cons.inj hsame).1

/-! ## Containers -/

/-- A text that a value may begin: it is not empty, and starts with no space and no closing bracket. -/
def Opens (text : List Char) : Prop :=
  ∃ c cs, text = c :: cs ∧ isSpace c = false ∧ c ≠ ']' ∧ c ≠ '}'

theorem Opens.append {text : List Char} (h : Opens text) (rest : List Char) : Opens (text ++ rest) := by
  obtain ⟨c, cs, rfl, hspace, hsquare, hcurly⟩ := h
  exact ⟨c, cs ++ rest, rfl, hspace, hsquare, hcurly⟩

theorem Opens.skipSpace_eq {text : List Char} (h : Opens text) : skipSpace text = text := by
  obtain ⟨c, cs, rfl, hspace, -, -⟩ := h
  rw [skipSpace, List.dropWhile_cons, hspace]
  rfl

/-- A canonical text opens. -/
theorem dumps_opens (v : JsonValue) (h : ∀ literal, v ≠ .float literal) : Opens (dumps v) := by
  cases v with
  | null => exact ⟨_, _, rfl, by decide, by decide, by decide⟩
  | bool b =>
      cases b with
      | true => exact ⟨_, _, rfl, by decide, by decide, by decide⟩
      | false => exact ⟨_, _, rfl, by decide, by decide, by decide⟩
  | int i =>
      obtain ⟨c, cs, hdecimal, hc⟩ := head_decimal i
      refine ⟨c, cs, hdecimal, ?_⟩
      rcases hc with rfl | hc
      · decide
      · refine ⟨?_, ?_, ?_⟩
        · rw [Bool.eq_false_iff]
          intro hspace
          simp only [isSpace, Bool.or_eq_true, decide_eq_true_eq] at hspace
          rcases hspace with ((rfl | rfl) | rfl) | rfl <;> exact absurd hc (by decide)
        · rintro rfl
          exact absurd hc (by decide)
        · rintro rfl
          exact absurd hc (by decide)
  | float literal => exact absurd rfl (h literal)
  | str s => exact ⟨_, _, rfl, by decide, by decide, by decide⟩
  | arr items => exact ⟨_, _, rfl, by decide, by decide, by decide⟩
  | obj fields => exact ⟨_, _, rfl, by decide, by decide, by decide⟩

/-- A reader reads a text as a value, whatever ends it. -/
def Reads {α : Type} (scan : Scan α) (text : List Char) (a : α) : Prop :=
  ∀ rest, Ended rest → scan (text ++ rest) = .ok (a, rest)

theorem ended_cons {c : Char} (h : c = ',' ∨ c = ']' ∨ c = '}' ∨ c = '\n') (rest : List Char) :
    Ended (c :: rest) := by
  intro d hd
  cases hd
  exact h

theorem commaJoin_cons_cons (x y : List Char) (xs : List (List Char)) :
    commaJoin (x :: y :: xs) = x ++ ',' :: commaJoin (y :: xs) := rfl

/-- A list of texts begins as its first text does. -/
theorem commaJoin_opens {x : List Char} (h : Opens x) (xs : List (List Char)) :
    Opens (commaJoin (x :: xs)) := by
  cases xs with
  | nil => exact h
  | cons y xs => exact h.append _

theorem length_le_commaJoin {xs : List (List Char)} (h : ∀ x ∈ xs, x ≠ []) :
    xs.length ≤ (commaJoin xs).length := by
  induction xs with
  | nil => exact Nat.zero_le _
  | cons x xs ih =>
      have hx : 0 < x.length := List.length_pos_iff.mpr (h x (.head _))
      have hxs := ih fun y hy => h y (.tail _ hy)
      cases xs with
      | nil => exact hx
      | cons y xs =>
          rw [commaJoin_cons_cons]
          simp only [List.length_append, List.length_cons] at hxs ⊢
          omega

/-- An element with a comma after it. -/
theorem scanList_comma {α : Type} {element : Scan α} {close : Char} {fuel : ℕ}
    {cs rest more : List Char} {a : α} (helement : element cs = .ok (a, rest))
    (hskip : skipSpace rest = ',' :: more) :
    scanList element close (fuel + 1) cs =
      (scanList element close fuel (skipSpace more)).map fun others =>
        (a :: others.1, others.2) := by
  rw [scanList, helement]
  dsimp only [bind, Except.bind]
  rw [hskip]
  dsimp only
  rw [if_pos rfl]
  cases scanList element close fuel (skipSpace more) with
  | error e => rfl
  | ok others => rfl

/-- The last element, with the closing bracket after it. -/
theorem scanList_close {α : Type} {element : Scan α} {close : Char} {fuel : ℕ}
    {cs rest more : List Char} {a : α} (helement : element cs = .ok (a, rest))
    (hskip : skipSpace rest = close :: more) (hcomma : close ≠ ',') :
    scanList element close (fuel + 1) cs = .ok ([a], more) := by
  rw [scanList, helement]
  dsimp only [bind, Except.bind]
  rw [hskip]
  dsimp only
  rw [if_neg hcomma, if_pos rfl]
  rfl

/-- **Elements with commas between them** are read one by one. -/
theorem scanList_joined {α β : Type} {element : Scan α} {close : Char} {render : β → List Char}
    {g : β → α} (hclose : close = ']' ∨ close = '}') {xs : List β} (hne : xs ≠ [])
    (h : ∀ x ∈ xs, Opens (render x) ∧ Reads element (render x) (g x)) {fuel : ℕ}
    (hfuel : xs.length ≤ fuel) (rest : List Char) :
    scanList element close fuel (commaJoin (xs.map render) ++ close :: rest) =
      .ok (xs.map g, rest) := by
  have hcomma : close ≠ ',' := by
    rintro rfl
    exact absurd hclose (by decide)
  have hspace : isSpace close = false := by
    rcases hclose with rfl | rfl
    · rfl
    · rfl
  induction xs generalizing fuel with
  | nil => exact absurd rfl hne
  | cons x xs ih =>
      obtain ⟨-, hreads⟩ := h x (.head _)
      cases fuel with
      | zero => exact absurd hfuel (Nat.not_succ_le_zero _)
      | succ fuel =>
          cases xs with
          | nil =>
              have hskip : skipSpace (close :: rest) = close :: rest := by
                rw [skipSpace, List.dropWhile_cons, hspace]
                rfl
              rw [List.map_singleton, commaJoin]
              exact scanList_close (hreads _ (ended_cons (.inr (hclose.imp_right .inl)) rest)) hskip
                hcomma
          | cons y xs =>
              have hnext := ih (List.cons_ne_nil y xs) (fun u hu => h u (.tail _ hu))
                (Nat.le_of_succ_le_succ hfuel)
              have hopens : Opens (commaJoin ((y :: xs).map render) ++ close :: rest) :=
                (commaJoin_opens (h y (.tail _ (.head _))).1 _).append _
              rw [List.map_cons, List.map_cons, commaJoin_cons_cons, ← List.map_cons,
                List.append_assoc, List.cons_append,
                scanList_comma (hreads _ (ended_cons (.inl rfl) _)) rfl, hopens.skipSpace_eq, hnext]
              rfl

/-- A dictionary of pairs with distinct keys is the pairs. -/
theorem ofPairs_of_nodup {pairs : List (CodePoints × JsonValue)} (h : (pairs.map Prod.fst).Nodup) :
    ofPairs pairs = pairs := by
  have hall : ∀ (before : List (CodePoints × JsonValue)),
      ((before ++ pairs).map Prod.fst).Nodup →
        pairs.foldl (fun fields p => OrderedDict.setItems p.1 p.2 fields) before =
          before ++ pairs := by
    clear h
    induction pairs with
    | nil => exact fun before _ => (List.append_nil _).symm
    | cons p pairs ih =>
        intro before hnodup
        have hfresh : p.1 ∉ before.map Prod.fst := by
          intro hmem
          rw [List.map_append, List.nodup_append] at hnodup
          exact hnodup.2.2 _ hmem _ (.head _) rfl
        rw [List.foldl_cons, OrderedDict.setItems_of_not_mem _ hfresh, ih, List.append_assoc]
        · rfl
        · rw [List.append_assoc]
          exact hnodup
  exact hall [] h

theorem scanArray_opens {value : Scan JsonValue} {cs : List Char} (h : Opens cs) :
    scanArray value cs = (do
      let (items, rest) ← scanList value ']' cs.length cs
      return (.arr items, rest) : Except LoadsError (JsonValue × List Char)) := by
  unfold scanArray
  rw [h.skipSpace_eq]
  obtain ⟨c, cs, rfl, -, hclose, -⟩ := h
  split
  · rename_i rest hsame
    exact absurd (List.cons.inj hsame).1 hclose
  · rfl

theorem scanObject_opens {value : Scan JsonValue} {cs : List Char} (h : Opens cs) :
    scanObject value cs = (do
      let (fields, rest) ← scanList (scanField value) '}' cs.length cs
      return (.obj (ofPairs fields), rest) : Except LoadsError (JsonValue × List Char)) := by
  unfold scanObject
  rw [h.skipSpace_eq]
  obtain ⟨c, cs, rfl, -, -, hclose⟩ := h
  split
  · rename_i rest hsame
    exact absurd (List.cons.inj hsame).1 hclose
  · rfl

/-- A key, a colon and a value. -/
theorem scanField_ok {value : Scan JsonValue} {cs rest more last : List Char} {k : CodePoints}
    {v : JsonValue} (hkey : scanString cs = .ok (k, rest)) (hskip : skipSpace rest = ':' :: more)
    (hvalue : value (skipSpace more) = .ok (v, last)) :
    scanField value ('"' :: cs) = .ok ((k, v), last) := by
  rw [scanField, hkey]
  dsimp only [bind, Except.bind]
  rw [hskip]
  show (value (skipSpace more) >>= _) = _
  rw [hvalue]
  rfl

/-- A rendered field is read as its key and its value. -/
theorem scanField_reads {value : Scan JsonValue} {k : CodePoints} (hk : Sound k) {text : List Char}
    (hopens : Opens text) {v : JsonValue} (h : Reads value text v) :
    Reads (scanField value) (renderField (k, text)) (k, v) := by
  intro rest hrest
  have htext : renderField (k, text) ++ rest =
      '"' :: (k.flatMap escapeCode ++ '"' :: ':' :: (text ++ rest)) := by
    simp [renderField, quoted]
  rw [htext]
  refine scanField_ok (scanString_escaped hk _) rfl ?_
  rw [(hopens.append rest).skipSpace_eq]
  exact h rest hrest

theorem Fits.ne_float {limits : Limits} {depth : ℕ} {v : JsonValue} (h : Fits limits depth v)
    (literal : String) : v ≠ .float literal := by
  rintro rfl
  cases h

/-- A value is read in one step, whatever the levels left. -/
theorem scanValue_eq (limits : Limits) (depth : ℕ) :
    ∃ nested, scanValue limits depth = scanStep limits nested := by
  cases depth with
  | zero => exact ⟨none, rfl⟩
  | succ depth => exact ⟨some (scanValue limits depth), rfl⟩

theorem fuel_enough {β : Type} {render : β → List Char} {xs : List β}
    (h : ∀ x ∈ xs, Opens (render x)) (rest : List Char) :
    xs.length ≤ (commaJoin (xs.map render) ++ rest).length := by
  have htexts : ∀ text ∈ xs.map render, text ≠ [] := by
    intro text htext
    obtain ⟨x, hx, rfl⟩ := List.mem_map.mp htext
    obtain ⟨c, cs, hopens, -⟩ := h x hx
    rw [hopens]
    exact List.cons_ne_nil c cs
  have hlength := length_le_commaJoin htexts
  rw [List.length_map] at hlength
  rw [List.length_append]
  omega

/-- **The canonical text of a value** is read as that value. -/
theorem dumps_reads {limits : Limits} {depth : ℕ} {v : JsonValue} (h : Fits limits depth v) :
    Reads (scanValue limits depth) (dumps v) (sorted v) := by
  induction h with
  | null depth =>
      intro rest _
      obtain ⟨nested, hnested⟩ := scanValue_eq limits depth
      rw [hnested]
      rfl
  | bool depth b =>
      intro rest _
      obtain ⟨nested, hnested⟩ := scanValue_eq limits depth
      rw [hnested]
      cases b with
      | true => rfl
      | false => rfl
  | int depth i hdigits =>
      intro rest hrest
      obtain ⟨nested, hnested⟩ := scanValue_eq limits depth
      obtain ⟨c, cs, hdecimal, hc⟩ := head_decimal i
      have hread := scanNumber_decimal hdigits hrest
      rw [hnested, dumps]
      rw [hdecimal] at hread ⊢
      rw [List.cons_append, scanStep_number hc, ← List.cons_append, hread]
      rfl
  | str depth s hsound =>
      intro rest _
      obtain ⟨nested, hnested⟩ := scanValue_eq limits depth
      have htext : quoted s ++ rest = '"' :: (s.flatMap escapeCode ++ '"' :: rest) := by
        simp [quoted]
      rw [hnested, dumps, htext, scanStep, scanString_escaped hsound]
      rfl
  | arr depth items hfits ih =>
      intro rest _
      have htext : dumps (.arr items) ++ rest = '[' :: (commaJoin (items.map dumps) ++ ']' :: rest) := by
        simp [dumps, dumpsItems_eq]
      rw [htext, scanValue, scanStep, sorted, sortedItems_eq]
      change scanArray (scanValue limits depth) _ = _
      cases items with
      | nil => rfl
      | cons v items =>
          have hopen : ∀ u ∈ v :: items, Opens (dumps u) := fun u hu =>
            dumps_opens u (hfits u hu).ne_float
          have hbody : Opens (commaJoin ((v :: items).map dumps) ++ ']' :: rest) :=
            (commaJoin_opens (hopen v (.head _)) _).append _
          rw [scanArray_opens hbody, scanList_joined (.inl rfl) (List.cons_ne_nil v items)
            (fun u hu => ⟨hopen u hu, ih u hu⟩) (fuel_enough hopen _)]
          rfl
  | obj depth fields hkeys hsound hfits ih =>
      intro rest _
      have hmem : ∀ {f}, f ∈ sortKeys fields → f ∈ fields := (sortKeys_perm fields).mem_iff.mp
      have htext : dumps (.obj fields) ++ rest =
          '{' :: (commaJoin ((sortKeys fields).map fun f => renderField (f.1, dumps f.2)) ++
            '}' :: rest) := by
        simp [dumps, dumpsFields_eq, sortKeys_map, Function.comp_def]
      have hsorted : sorted (.obj fields) =
          .obj ((sortKeys fields).map fun f => (f.1, sorted f.2)) := by
        rw [sorted, sortedFields_eq, sortKeys_map]
      have hdistinct : (((sortKeys fields).map fun f => (f.1, sorted f.2)).map Prod.fst).Nodup := by
        rw [List.map_map]
        exact ((sortKeys_perm fields).map Prod.fst).nodup_iff.mpr hkeys
      rw [htext, hsorted, scanValue, scanStep]
      change scanObject (scanValue limits depth) _ = _
      cases hfields : sortKeys fields with
      | nil => rfl
      | cons f others =>
          rw [hfields] at hdistinct
          have hin : ∀ e ∈ f :: others, e ∈ fields := fun e he => hmem (hfields ▸ he)
          have hopen : ∀ e ∈ f :: others, Opens (renderField (e.1, dumps e.2)) := fun e _ =>
            ⟨_, _, rfl, by decide, by decide, by decide⟩
          have hreads : ∀ e ∈ f :: others,
              Reads (scanField (scanValue limits depth)) (renderField (e.1, dumps e.2))
                (e.1, sorted e.2) := fun e he =>
            scanField_reads (hsound e (hin e he)) (dumps_opens e.2 (hfits e (hin e he)).ne_float)
              (ih e (hin e he))
          have hbody : Opens (commaJoin ((f :: others).map fun e => renderField (e.1, dumps e.2)) ++
              '}' :: rest) := (commaJoin_opens (hopen f (.head _)) _).append _
          rw [scanObject_opens hbody, scanList_joined (.inr rfl) (List.cons_ne_nil f others)
            (fun e he => ⟨hopen e he, hreads e he⟩) (fuel_enough hopen _)]
          change Except.ok (JsonValue.obj (ofPairs _), rest) = _
          rw [ofPairs_of_nodup hdistinct]

/-- No canonical text begins with a byte order mark. -/
theorem dumps_not_marked {limits : Limits} {depth : ℕ} {v : JsonValue} (h : Fits limits depth v) :
    (dumps v).head? ≠ some '\uFEFF' := by
  cases h with
  | null depth => decide
  | bool depth b =>
      cases b with
      | true => decide
      | false => decide
  | int depth i hdigits =>
      obtain ⟨c, cs, hdecimal, hc⟩ := head_decimal i
      rw [dumps, hdecimal]
      intro hmark
      rw [Option.some.inj hmark] at hc
      exact absurd hc (by decide)
  | str depth s hsound => exact fun hmark => absurd (Option.some.inj hmark) (by decide)
  | arr depth items hfits => exact fun hmark => absurd (Option.some.inj hmark) (by decide)
  | obj depth fields hkeys hsound hfits =>
      exact fun hmark => absurd (Option.some.inj hmark) (by decide)

/-- **Reading what was written.** -/
theorem loads_dumps {limits : Limits} {v : JsonValue} (h : Fits limits limits.depth v) :
    loads limits (String.ofList (dumps v)) = .ok (sorted v) := by
  have hopens := dumps_opens v h.ne_float
  have hread := dumps_reads h [] fun c hc => by cases hc
  rw [List.append_nil] at hread
  have hmark : (dumps v).head? ≠ some '\uFEFF' := dumps_not_marked h
  unfold loads
  rw [String.toList_ofList, if_neg hmark, hopens.skipSpace_eq, hread]
  rfl

end JsonValue
