import Windbreak.Core.JsonDumps
import Windbreak.Core.JsonLoaded

/-!
# Indented JSON text, and reading it back

The text for people: one field or item a line, two spaces for each level, keys in order.

* `dumpsIndented` — the text of a value at a level.
* `readBack` — the value with its keys in order and the surrogates of its strings joined.
* **`loads_dumpsIndented`** — the text reads as that.
-/

namespace JsonValue

/-! ## Writing -/

/-- A new line at a level. -/
def newLine (level : ℕ) : List Char := '\n' :: List.replicate (2 * level) ' '

/-- Texts on lines of their own, a comma at the end of all but the last. -/
def lineJoin (level : ℕ) : List (List Char) → List Char
  | [] => []
  | [x] => x
  | x :: y :: xs => x ++ ',' :: (newLine level ++ lineJoin level (y :: xs))

/-- Texts between brackets, each on a line of its own. -/
def block (opening closing : Char) (level : ℕ) (texts : List (List Char)) : List Char :=
  if texts = [] then [opening, closing]
  else opening :: (newLine (level + 1) ++ lineJoin (level + 1) texts ++ newLine level ++ [closing])

/-- A field, its value already rendered. -/
def indentedField (f : CodePoints × List Char) : List Char := quoted f.1 ++ ':' :: ' ' :: f.2

mutual

/-- The indented text of a value. -/
def dumpsIndented (level : ℕ) : JsonValue → List Char
  | .arr items => block '[' ']' level (dumpsIndentedItems (level + 1) items)
  | .obj fields =>
    block '{' '}' level ((sortKeys (dumpsIndentedFields (level + 1) fields)).map indentedField)
  | .null => dumps .null
  | .bool b => dumps (.bool b)
  | .int i => dumps (.int i)
  | .float literal => dumps (.float literal)
  | .str s => dumps (.str s)

def dumpsIndentedItems (level : ℕ) : List JsonValue → List (List Char)
  | [] => []
  | v :: vs => dumpsIndented level v :: dumpsIndentedItems level vs

def dumpsIndentedFields (level : ℕ) :
    List (CodePoints × JsonValue) → List (CodePoints × List Char)
  | [] => []
  | (k, v) :: fields => (k, dumpsIndented level v) :: dumpsIndentedFields level fields

end

/-- A string as it is read after it was written: a high surrogate before a low one is joined. -/
def joined (s : CodePoints) : CodePoints := joinSurrogates (s.flatMap unitsOf)

mutual

/-- A value as it is read after it was written. -/
def readBack : JsonValue → JsonValue
  | .null => .null
  | .bool b => .bool b
  | .int i => .int i
  | .float literal => .float literal
  | .str s => .str (joined s)
  | .arr items => .arr (readBackItems items)
  | .obj fields => .obj (sortKeys (readBackFields fields))

def readBackItems : List JsonValue → List JsonValue
  | [] => []
  | v :: vs => readBack v :: readBackItems vs

def readBackFields : List (CodePoints × JsonValue) → List (CodePoints × JsonValue)
  | [] => []
  | (k, v) :: fields => (k, readBack v) :: readBackFields fields

end

/-- **A value that can be read back**: no float, no integer too long, no key twice, and at most so
many levels of nesting. Its strings need not be sound. -/
inductive ReadsBack (limits : Limits) : ℕ → JsonValue → Prop
  | null (depth : ℕ) : ReadsBack limits depth .null
  | bool (depth : ℕ) (b : Bool) : ReadsBack limits depth (.bool b)
  | int (depth : ℕ) (i : ℤ) (h : (Nat.toDigits 10 i.natAbs).length ≤ limits.digits) :
      ReadsBack limits depth (.int i)
  | str (depth : ℕ) (s : CodePoints) (h : ∀ n ∈ s, n < 1114112) : ReadsBack limits depth (.str s)
  | arr (depth : ℕ) (items : List JsonValue) (h : ∀ v ∈ items, ReadsBack limits depth v) :
      ReadsBack limits (depth + 1) (.arr items)
  | obj (depth : ℕ) (fields : List (CodePoints × JsonValue)) (hkeys : (fields.map Prod.fst).Nodup)
      (hsound : ∀ f ∈ fields, Sound f.1) (h : ∀ f ∈ fields, ReadsBack limits depth f.2) :
      ReadsBack limits (depth + 1) (.obj fields)

theorem ReadsBack.ne_float {limits : Limits} {depth : ℕ} {v : JsonValue}
    (h : ReadsBack limits depth v) (literal : String) : v ≠ .float literal := by
  rintro rfl
  cases h

theorem readBackItems_eq (items : List JsonValue) : readBackItems items = items.map readBack := by
  induction items with
  | nil => rfl
  | cons v vs ih => rw [readBackItems, ih, List.map_cons]

theorem readBackFields_eq (fields : List (CodePoints × JsonValue)) :
    readBackFields fields = fields.map fun f => (f.1, readBack f.2) := by
  induction fields with
  | nil => rfl
  | cons f fields ih =>
      obtain ⟨k, v⟩ := f
      rw [readBackFields, ih, List.map_cons]

theorem units_lt {s : CodePoints} (h : ∀ n ∈ s, n < 1114112) :
    ∀ unit ∈ s.flatMap unitsOf, unit < 65536 := by
  intro unit hunit
  obtain ⟨n, hn, hmem⟩ := List.mem_flatMap.mp hunit
  have hcode := h n hn
  unfold unitsOf at hmem
  split at hmem
  · rw [List.mem_singleton] at hmem
    omega
  · simp only [List.mem_cons, List.not_mem_nil, or_false] at hmem
    omega

/-- What is read is sound. -/
theorem sound_joined {s : CodePoints} (h : ∀ n ∈ s, n < 1114112) : Sound (joined s) :=
  sound_joinSurrogates fun unit hunit => (units_lt h unit hunit).trans (by decide)

/-- A sound string is read as itself, and no other string is. -/
theorem joined_eq_iff {s : CodePoints} (h : ∀ n ∈ s, n < 1114112) : joined s = s ↔ Sound s := by
  constructor
  · intro heq
    rw [← heq]
    exact sound_joined h
  · exact joinSurrogates_units

/-- Joined units are the units still. -/
theorem units_joinSurrogates {units : List ℕ} (h : ∀ unit ∈ units, unit < 65536) :
    (joinSurrogates units).flatMap unitsOf = units := by
  induction units using joinSurrogates.induct with
  | case1 => rfl
  | case2 unit =>
      rw [joinSurrogates, List.flatMap_singleton, unitsOf, if_pos (h unit (.head _))]
  | case3 high low units hpair ih =>
      have hrest := ih fun unit hunit => h unit (.tail _ (.tail _ hunit))
      rw [joinSurrogates, if_pos hpair, List.flatMap_cons, hrest]
      rw [Bool.and_eq_true, isHigh_iff, isLow_iff] at hpair
      have hhigh :
          55296 + (65536 + (high - 55296) * 1024 + (low - 56320) - 65536) / 1024 = high := by omega
      have hlow :
          56320 + (65536 + (high - 55296) * 1024 + (low - 56320) - 65536) % 1024 = low := by omega
      rw [unitsOf, if_neg (by omega), hhigh, hlow]
      rfl
  | case4 high low units hpair ih =>
      have hrest := ih fun unit hunit => h unit (.tail _ hunit)
      rw [joinSurrogates, if_neg hpair, List.flatMap_cons, hrest, unitsOf,
        if_pos (h high (.head _))]
      rfl

/-- A code point is escaped as its units are. -/
theorem escapeCode_units {n : ℕ} (h : n < 1114112) :
    (unitsOf n).flatMap escapeCode = escapeCode n := by
  unfold unitsOf
  split_ifs with hsmall
  · exact List.flatMap_singleton escapeCode n
  · have hunit : ∀ unit : ℕ, 127 ≤ unit → unit < 65536 →
        escapeCode unit = Json.unicodeEscape unit := by
      intro unit hlow hhigh
      unfold escapeCode
      rw [if_neg (by omega), if_neg (by omega), if_neg (by omega), if_neg (by omega),
        if_neg (by omega), if_neg (by omega), if_neg (by omega), if_neg (by omega), if_pos hhigh]
    rw [List.flatMap_cons, List.flatMap_singleton, hunit _ (by omega) (by omega),
      hunit _ (by omega) (by omega)]
    unfold escapeCode
    rw [if_neg (by omega), if_neg (by omega), if_neg (by omega), if_neg (by omega),
      if_neg (by omega), if_neg (by omega), if_neg (by omega), if_neg (by omega), if_neg hsmall]

theorem flatMap_escapeCode {s : CodePoints} (h : ∀ n ∈ s, n < 1114112) :
    s.flatMap escapeCode = (s.flatMap unitsOf).flatMap escapeCode := by
  rw [List.flatMap_assoc]
  exact List.flatMap_congr fun n hn => (escapeCode_units (h n hn)).symm

/-- **A string and what is read of it** are written alike. -/
theorem quoted_joined {s : CodePoints} (h : ∀ n ∈ s, n < 1114112) :
    quoted (joined s) = quoted s := by
  have hunits : (joined s).flatMap unitsOf = s.flatMap unitsOf := units_joinSurrogates (units_lt h)
  rw [quoted, quoted, flatMap_escapeCode h, flatMap_escapeCode (sound_joined h).1, hunits]

/-- **A field of a value that is read back** is the field, read back. -/
theorem lookup_readBack {fields : List (CodePoints × JsonValue)}
    (hkeys : (fields.map Prod.fst).Nodup) (k : CodePoints) :
    (sortKeys (readBackFields fields)).lookup k = (fields.lookup k).map readBack := by
  have hperm := sortKeys_perm (readBackFields fields)
  have hsame : (readBackFields fields).map Prod.fst = fields.map Prod.fst := by
    rw [readBackFields_eq, List.map_map]
    rfl
  have hnodup : ((sortKeys (readBackFields fields)).map Prod.fst).Nodup := by
    rw [(hperm.map Prod.fst).nodup_iff, hsame]
    exact hkeys
  rw [lookup_perm hperm hnodup, readBackFields_eq, lookup_map]

theorem dumpsIndentedItems_eq (level : ℕ) (items : List JsonValue) :
    dumpsIndentedItems level items = items.map (dumpsIndented level) := by
  induction items with
  | nil => rfl
  | cons v vs ih => rw [dumpsIndentedItems, ih, List.map_cons]

theorem dumpsIndentedFields_eq (level : ℕ) (fields : List (CodePoints × JsonValue)) :
    dumpsIndentedFields level fields = fields.map fun f => (f.1, dumpsIndented level f.2) := by
  induction fields with
  | nil => rfl
  | cons f fields ih => rw [dumpsIndentedFields, ih, List.map_cons]

/-! ## Lines -/

theorem skipSpace_newLine (level : ℕ) (cs : List Char) :
    skipSpace (newLine level ++ cs) = skipSpace cs := by
  have hspaces : ∀ n, skipSpace (List.replicate n ' ' ++ cs) = skipSpace cs := by
    intro n
    induction n with
    | zero => rfl
    | succ n ih => exact ih
  exact hspaces (2 * level)

theorem ended_newLine (level : ℕ) (cs : List Char) : Ended (newLine level ++ cs) :=
  ended_cons (.inr (.inr (.inr rfl))) _

theorem lineJoin_cons_cons (level : ℕ) (x y : List Char) (xs : List (List Char)) :
    lineJoin level (x :: y :: xs) = x ++ ',' :: (newLine level ++ lineJoin level (y :: xs)) := rfl

/-- Lines begin as the first of them does. -/
theorem lineJoin_opens {x : List Char} (h : Opens x) (level : ℕ) (xs : List (List Char)) :
    Opens (lineJoin level (x :: xs)) := by
  cases xs with
  | nil => exact h
  | cons y xs => exact h.append _

theorem length_le_lineJoin (level : ℕ) {xs : List (List Char)} (h : ∀ x ∈ xs, x ≠ []) :
    xs.length ≤ (lineJoin level xs).length := by
  induction xs with
  | nil => exact Nat.zero_le _
  | cons x xs ih =>
      have hx : 0 < x.length := List.length_pos_iff.mpr (h x (.head _))
      have hxs := ih fun y hy => h y (.tail _ hy)
      cases xs with
      | nil => exact hx
      | cons y xs =>
          rw [lineJoin_cons_cons]
          simp only [List.length_append, List.length_cons] at hxs ⊢
          omega

/-- **Lines are read one by one**, up to the closing bracket on the last. -/
theorem scanList_lines {α β : Type} {element : Scan α} {close : Char} {render : β → List Char}
    {g : β → α} (hclose : close = ']' ∨ close = '}') {xs : List β} (hne : xs ≠ [])
    (h : ∀ x ∈ xs, Opens (render x) ∧ Reads element (render x) (g x)) (level : ℕ) {fuel : ℕ}
    (hfuel : xs.length ≤ fuel) (rest : List Char) :
    scanList element close fuel
        (lineJoin (level + 1) (xs.map render) ++ (newLine level ++ close :: rest)) =
      .ok (xs.map g, rest) := by
  have hcomma : close ≠ ',' := by
    rintro rfl
    exact absurd hclose (by decide)
  have hspace : isSpace close = false := by
    rcases hclose with rfl | rfl
    · rfl
    · rfl
  induction xs generalizing fuel with
  | nil => exact absurd rfl hne
  | cons x xs ih =>
      obtain ⟨-, hreads⟩ := h x (.head _)
      cases fuel with
      | zero => exact absurd hfuel (Nat.not_succ_le_zero _)
      | succ fuel =>
          cases xs with
          | nil =>
              have hskip : skipSpace (newLine level ++ close :: rest) = close :: rest := by
                rw [skipSpace_newLine, skipSpace, List.dropWhile_cons, hspace]
                rfl
              rw [List.map_singleton, lineJoin]
              exact scanList_close (hreads _ (ended_newLine level _)) hskip hcomma
          | cons y xs =>
              have hnext := ih (List.cons_ne_nil y xs) (fun u hu => h u (.tail _ hu))
                (Nat.le_of_succ_le_succ hfuel)
              have hopens : Opens (lineJoin (level + 1) ((y :: xs).map render) ++
                  (newLine level ++ close :: rest)) :=
                (lineJoin_opens (h y (.tail _ (.head _))).1 _ _).append _
              rw [List.map_cons, List.map_cons, lineJoin_cons_cons, ← List.map_cons,
                List.append_assoc, List.cons_append,
                scanList_comma (hreads _ (ended_cons (.inl rfl) _)) rfl, List.append_assoc,
                skipSpace_newLine, hopens.skipSpace_eq, hnext]
              rfl

/-! ## Reading -/

theorem scanArray_newLine (value : Scan JsonValue) (level : ℕ) (cs : List Char) :
    scanArray value (newLine level ++ cs) = scanArray value cs := by
  unfold scanArray
  rw [skipSpace_newLine]

theorem scanObject_newLine (value : Scan JsonValue) (level : ℕ) (cs : List Char) :
    scanObject value (newLine level ++ cs) = scanObject value cs := by
  unfold scanObject
  rw [skipSpace_newLine]

/-- An indented field is read as its key and its value. -/
theorem scanField_indented {value : Scan JsonValue} {k : CodePoints} (hk : Sound k)
    {text : List Char} (hopens : Opens text) {v : JsonValue} (h : Reads value text v) :
    Reads (scanField value) (indentedField (k, text)) (k, v) := by
  intro rest hrest
  have htext : indentedField (k, text) ++ rest =
      '"' :: (k.flatMap escapeCode ++ '"' :: ':' :: ' ' :: (text ++ rest)) := by
    simp [indentedField, quoted]
  have hspace : skipSpace (' ' :: (text ++ rest)) = text ++ rest := (hopens.append rest).skipSpace_eq
  rw [htext]
  refine scanField_ok (scanString_escaped hk _) rfl ?_
  rw [hspace]
  exact h rest hrest

theorem block_opens {opening : Char} (h : opening = '[' ∨ opening = '{') (closing : Char)
    (level : ℕ) (texts : List (List Char)) : Opens (block opening closing level texts) := by
  unfold block
  rcases h with rfl | rfl
  · split_ifs
    · exact ⟨_, _, rfl, by decide, by decide, by decide⟩
    · exact ⟨_, _, rfl, by decide, by decide, by decide⟩
  · split_ifs
    · exact ⟨_, _, rfl, by decide, by decide, by decide⟩
    · exact ⟨_, _, rfl, by decide, by decide, by decide⟩

theorem dumpsIndented_opens (level : ℕ) (v : JsonValue) (h : ∀ literal, v ≠ .float literal) :
    Opens (dumpsIndented level v) := by
  cases v with
  | arr items => exact block_opens (.inl rfl) _ _ _
  | obj fields => exact block_opens (.inr rfl) _ _ _
  | null | bool _ | int _ | str _ => exact dumps_opens _ h
  | float literal => exact absurd rfl (h literal)

theorem lines_fuel {β : Type} {render : β → List Char} {xs : List β}
    (h : ∀ x ∈ xs, Opens (render x)) (level : ℕ) (rest : List Char) :
    xs.length ≤ (lineJoin level (xs.map render) ++ rest).length := by
  have htexts : ∀ text ∈ xs.map render, text ≠ [] := by
    intro text htext
    obtain ⟨x, hx, rfl⟩ := List.mem_map.mp htext
    obtain ⟨c, cs, hopens, -⟩ := h x hx
    rw [hopens]
    exact List.cons_ne_nil c cs
  have hlength := length_le_lineJoin level htexts
  rw [List.length_map] at hlength
  rw [List.length_append]
  omega

/-- The text of a block that is not empty, and what follows it. -/
theorem block_append {texts : List (List Char)} (h : texts ≠ []) (opening closing : Char)
    (level : ℕ) (rest : List Char) :
    block opening closing level texts ++ rest =
      opening :: (newLine (level + 1) ++
        (lineJoin (level + 1) texts ++ (newLine level ++ closing :: rest))) := by
  rw [block, if_neg h]
  simp only [List.cons_append, List.append_assoc, List.nil_append]

/-- **The indented text of a value** is read as what `readBack` makes of it. -/
theorem dumpsIndented_reads {limits : Limits} {depth : ℕ} {v : JsonValue}
    (h : ReadsBack limits depth v) (level : ℕ) :
    Reads (scanValue limits depth) (dumpsIndented level v) (readBack v) := by
  induction h generalizing level with
  | null depth => exact dumps_reads (.null depth)
  | bool depth b => exact dumps_reads (.bool depth b)
  | int depth i hdigits => exact dumps_reads (.int depth i hdigits)
  | str depth s hcodes =>
      intro rest _
      obtain ⟨nested, hnested⟩ := scanValue_eq limits depth
      have htext : quoted s ++ rest = '"' :: (s.flatMap escapeCode ++ '"' :: rest) := by
        simp [quoted]
      rw [hnested, dumpsIndented, dumps, htext, scanStep, scanString_units hcodes]
      rfl
  | arr depth items hfits ih =>
      intro rest _
      rw [dumpsIndented, dumpsIndentedItems_eq, readBack, readBackItems_eq]
      cases items with
      | nil => rfl
      | cons v items =>
          have hopen : ∀ u ∈ v :: items, Opens (dumpsIndented (level + 1) u) := fun u hu =>
            dumpsIndented_opens _ u (hfits u hu).ne_float
          have hbody : Opens (lineJoin (level + 1) ((v :: items).map (dumpsIndented (level + 1))) ++
              (newLine level ++ ']' :: rest)) := (lineJoin_opens (hopen v (.head _)) _ _).append _
          rw [block_append (by exact List.cons_ne_nil _ _), scanValue, scanStep]
          change scanArray (scanValue limits depth) _ = _
          rw [scanArray_newLine, scanArray_opens hbody,
            scanList_lines (.inl rfl) (List.cons_ne_nil v items)
              (fun u hu => ⟨hopen u hu, ih u hu (level + 1)⟩) level (lines_fuel hopen _ _)]
          rfl
  | obj depth fields hkeys hsound hfits ih =>
      intro rest _
      have hmem : ∀ {f}, f ∈ sortKeys fields → f ∈ fields := (sortKeys_perm fields).mem_iff.mp
      have htexts : (sortKeys (dumpsIndentedFields (level + 1) fields)).map indentedField =
          (sortKeys fields).map fun f => indentedField (f.1, dumpsIndented (level + 1) f.2) := by
        rw [dumpsIndentedFields_eq, sortKeys_map, List.map_map]
        rfl
      have hdistinct : (((sortKeys fields).map fun f => (f.1, readBack f.2)).map Prod.fst).Nodup := by
        rw [List.map_map]
        exact ((sortKeys_perm fields).map Prod.fst).nodup_iff.mpr hkeys
      rw [dumpsIndented, htexts, readBack, readBackFields_eq, sortKeys_map]
      cases hfields : sortKeys fields with
      | nil => rfl
      | cons f others =>
          rw [hfields] at hdistinct
          have hin : ∀ e ∈ f :: others, e ∈ fields := fun e he => hmem (hfields ▸ he)
          have hopen : ∀ e ∈ f :: others,
              Opens (indentedField (e.1, dumpsIndented (level + 1) e.2)) := fun e _ =>
            ⟨_, _, rfl, by decide, by decide, by decide⟩
          have hreads : ∀ e ∈ f :: others, Reads (scanField (scanValue limits depth))
              (indentedField (e.1, dumpsIndented (level + 1) e.2)) (e.1, readBack e.2) := fun e he =>
            scanField_indented (hsound e (hin e he))
              (dumpsIndented_opens _ e.2 (hfits e (hin e he)).ne_float) (ih e (hin e he) (level + 1))
          have hbody : Opens (lineJoin (level + 1) ((f :: others).map fun e =>
              indentedField (e.1, dumpsIndented (level + 1) e.2)) ++ (newLine level ++ '}' :: rest)) :=
            (lineJoin_opens (hopen f (.head _)) _ _).append _
          rw [block_append (by exact List.cons_ne_nil _ _), scanValue, scanStep]
          change scanObject (scanValue limits depth) _ = _
          rw [scanObject_newLine, scanObject_opens hbody,
            scanList_lines (.inr rfl) (List.cons_ne_nil f others)
              (fun e he => ⟨hopen e he, hreads e he⟩) level (lines_fuel hopen _ _)]
          change Except.ok (JsonValue.obj (ofPairs _), rest) = _
          rw [ofPairs_of_nodup hdistinct]

/-- **Reading a document of lines.** -/
theorem loads_dumpsIndented {limits : Limits} {fields : List (CodePoints × JsonValue)}
    (h : ReadsBack limits limits.depth (.obj fields)) :
    loads limits (String.ofList (dumpsIndented 0 (.obj fields) ++ ['\n'])) =
      .ok (readBack (.obj fields)) := by
  have hopens := dumpsIndented_opens 0 _ h.ne_float
  have hread := dumpsIndented_reads h 0 ['\n'] (ended_newLine 0 [])
  have hmark : (dumpsIndented 0 (.obj fields) ++ ['\n']).head? ≠ some '\uFEFF' := by
    rw [dumpsIndented, block]
    split_ifs
    all_goals exact fun hmark => absurd (Option.some.inj hmark) (by decide)
  unfold loads
  rw [String.toList_ofList, if_neg hmark, (hopens.append _).skipSpace_eq, hread]
  rfl

end JsonValue
