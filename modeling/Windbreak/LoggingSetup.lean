import Windbreak.Core.JsonDumps
import Windbreak.Core.OrderedDict
import Windbreak.Core.Redaction
import Windbreak.Forecast.Sanitize

/-!
# Redacted logging

`RedactionFilter` scrubs a record in place, `JsonFormatter` renders what is left as one JSON object.

* **Texts** — `redactText`: two patterns, one after the other; `spotless_redactText`: neither is left,
  and a text without them is not touched (`redactText_of_spotless`).
* **Values** — `redactValue` goes through dictionaries, lists and tuples, and touches neither the keys
  nor an object that is only rendered later; `cleanField_iff` says what that leaves.
* **Records** — `emitted`; `redaction_exact`: the emitted object holds no secret exactly when no key,
  rendered object, level or logger name of the record does.
-/

namespace Windbreak.LoggingSetup

open JsonValue Redaction

/-- `REDACTED` -/
def redacted : CodePoints := codes "[REDACTED]"

/-- `DENYLIST_KEY_TOKENS` -/
def denylistKeyTokens : List CodePoints :=
  [codes "api_key", codes "apikey", codes "secret", codes "password", codes "passwd",
    codes "authorization", codes "credential", codes "private_key", codes "access_token",
    codes "refresh_token", codes "api_token", codes "auth_token", codes "id_token",
    codes "bearer_token", codes "session_token"]

/-! ## The patterns -/

/-- `[A-Za-z0-9_\-]` -/
def isTokenChar (c : ℕ) : Bool :=
  (65 ≤ c && c ≤ 90) || (97 ≤ c && c ≤ 122) || (48 ≤ c && c ≤ 57) || c = 95 || c = 45

/-- `sk-[A-Za-z0-9_\-]{8,}` -/
def skPattern : Matcher ℕ := fun text =>
  let run := (text.drop 3).takeWhile isTokenChar
  if codes "sk-" <+: text ∧ 8 ≤ run.length then some (2 + run.length) else none

/-- `Bearer\s+\S+`; what is not a space cannot be taken back from the spaces. -/
def bearerPattern : Matcher ℕ := fun text =>
  let spaces := (text.drop 6).takeWhile isPySpace
  let word := ((text.drop 6).dropWhile isPySpace).takeWhile fun c => !isPySpace c
  if codes "Bearer" <+: text ∧ spaces ≠ [] ∧ word ≠ [] then
    some (5 + spaces.length + word.length)
  else none

/-- `redact_text` -/
def redactText (text : CodePoints) : CodePoints :=
  substitute redacted bearerPattern (substitute redacted skPattern text)

/-- No substring matches a secret pattern. -/
structure Spotless (text : CodePoints) : Prop where
  sk : Clean skPattern text
  bearer : Clean bearerPattern text

theorem skPattern_isSome_iff {text : CodePoints} : (skPattern text).isSome ↔
    ∃ run rest, text = codes "sk-" ++ (run ++ rest) ∧ 8 ≤ run.length ∧
      ∀ c ∈ run, isTokenChar c = true := by
  unfold skPattern
  constructor
  · intro h
    dsimp only at h
    split at h
    · rename_i hmatch
      obtain ⟨⟨rest, rfl⟩, hlong⟩ := hmatch
      have hdrop : (codes "sk-" ++ rest).drop 3 = rest := rfl
      rw [hdrop] at hlong
      exact ⟨rest.takeWhile isTokenChar, rest.dropWhile isTokenChar,
        by rw [List.takeWhile_append_dropWhile], hlong, fun c hc => List.mem_takeWhile_imp hc⟩
    · cases h
  · rintro ⟨run, rest, rfl, hlong, hrun⟩
    have hdrop : (codes "sk-" ++ (run ++ rest)).drop 3 = run ++ rest := rfl
    have htaken : 8 ≤ ((run ++ rest).takeWhile isTokenChar).length := by
      rw [List.takeWhile_append_of_pos hrun, List.length_append]
      omega
    dsimp only
    rw [hdrop, if_pos ⟨List.prefix_append _ _, htaken⟩]
    rfl

theorem bearerPattern_isSome_iff {text : CodePoints} : (bearerPattern text).isSome ↔
    ∃ spaces c rest, text = codes "Bearer" ++ (spaces ++ c :: rest) ∧ spaces ≠ [] ∧
      (∀ s ∈ spaces, isPySpace s = true) ∧ isPySpace c = false := by
  unfold bearerPattern
  constructor
  · intro h
    dsimp only at h
    split at h
    · rename_i hmatch
      obtain ⟨⟨rest, rfl⟩, hspaces, hword⟩ := hmatch
      have hdrop : (codes "Bearer" ++ rest).drop 6 = rest := rfl
      rw [hdrop] at hspaces hword
      cases hback : rest.dropWhile isPySpace with
      | nil =>
          rw [hback] at hword
          exact absurd rfl hword
      | cons c back =>
          have hc : isPySpace c = false := by
            have hhead := List.head_dropWhile_not isPySpace (l := rest) (by rw [hback]; simp)
            simpa [hback] using hhead
          exact ⟨rest.takeWhile isPySpace, c, back,
            by rw [← hback, List.takeWhile_append_dropWhile], hspaces,
            fun s hs => List.mem_takeWhile_imp hs, hc⟩
    · cases h
  · rintro ⟨spaces, c, rest, rfl, hne, hspaces, hc⟩
    have hdrop : (codes "Bearer" ++ (spaces ++ c :: rest)).drop 6 = spaces ++ c :: rest := rfl
    have htaken : (spaces ++ c :: rest).takeWhile isPySpace = spaces := by
      rw [List.takeWhile_append_of_pos hspaces, List.takeWhile_cons, hc]
      exact List.append_nil spaces
    have hdropped : (spaces ++ c :: rest).dropWhile isPySpace = c :: rest := by
      rw [List.dropWhile_append_of_pos hspaces, List.dropWhile_cons, hc]
      rfl
    have hword : (c :: rest).takeWhile (fun c => !isPySpace c) ≠ [] := by
      rw [List.takeWhile_cons, hc]
      exact List.cons_ne_nil _ _
    dsimp only
    rw [hdrop, htaken, hdropped, if_pos ⟨List.prefix_append _ _, hne, hword⟩]
    rfl

/-! ## The marker -/

/-- A text that goes on after a character it does not have ends before it. -/
theorem front_of_append {text rest front back : CodePoints} {c : ℕ}
    (h : text ++ c :: rest = front ++ back) (hc : c ∉ front) :
    ∃ mid, text = front ++ mid ∧ mid ++ c :: rest = back := by
  rcases List.append_eq_append_iff.mp h with ⟨mid, hfront, hback⟩ | ⟨mid, htext, hback⟩
  · cases mid with
    | nil => exact ⟨[], by rw [hfront, List.append_nil, List.append_nil], hback⟩
    | cons d mid =>
        obtain ⟨rfl, -⟩ := List.cons.inj hback
        rw [hfront] at hc
        exact absurd (List.mem_append_right text List.mem_cons_self) hc
  · exact ⟨mid, htext, hback.symm⟩

/-- A suffix of the marker begins with none of the characters that begin a secret. -/
theorem head_of_marker {s : CodePoints} (hs : s <:+ redacted) (hne : s ≠ []) :
    ∃ c rest, s = c :: rest ∧ c ≠ 115 ∧ c ≠ 66 := by
  cases s with
  | nil => exact absurd rfl hne
  | cons c rest =>
      have hchars : ∀ d ∈ redacted, d ≠ 115 ∧ d ≠ 66 := by decide
      exact ⟨c, rest, rfl, hchars c (hs.subset (.head _))⟩

theorem isNone_of_not_isSome {β : Type} {o : Option β} (h : ¬ o.isSome = true) : o = none := by
  rwa [Option.not_isSome_iff_eq_none] at h

/-- **The marker makes no key** of what stands around it. -/
theorem separates_sk (m : Matcher ℕ) : Separates redacted m skPattern where
  nil := rfl
  inside := by
    intro s rest hs hne
    obtain ⟨c, s, rfl, hc, -⟩ := head_of_marker hs hne
    refine isNone_of_not_isSome fun h => ?_
    obtain ⟨run, back, htext, -, -⟩ := skPattern_isSome_iff.mp h
    exact hc (List.cons.inj htext).1
  before := by
    intro text found rest _ _ hnone
    refine isNone_of_not_isSome fun h => ?_
    obtain ⟨run, back, htext, hlong, hrun⟩ := skPattern_isSome_iff.mp h
    have hbracket : 91 ∉ codes "sk-" ++ run := by
      rw [List.mem_append, not_or]
      exact ⟨by decide, fun hmem => absurd (hrun 91 hmem) (by decide)⟩
    rw [← List.append_assoc (codes "sk-")] at htext
    obtain ⟨mid, hmid, -⟩ := front_of_append htext hbracket
    have hsome : (skPattern (text ++ found)).isSome := by
      rw [skPattern_isSome_iff]
      exact ⟨run, mid ++ found, by rw [hmid]; simp only [List.append_assoc], hlong, hrun⟩
    rw [hnone] at hsome
    cases hsome

/-- **The marker makes no header** of what stands around it: where it follows the spaces of one, the
header that it replaces did. -/
theorem separates_bearer : Separates redacted bearerPattern bearerPattern where
  nil := rfl
  inside := by
    intro s rest hs hne
    obtain ⟨c, s, rfl, -, hc⟩ := head_of_marker hs hne
    refine isNone_of_not_isSome fun h => ?_
    obtain ⟨spaces, d, back, htext, -⟩ := bearerPattern_isSome_iff.mp h
    exact hc (List.cons.inj htext).1
  before := by
    intro text found rest _ hfound hnone
    refine isNone_of_not_isSome fun h => ?_
    obtain ⟨spaces, c, back, htext, hne, hspaces, hc⟩ := bearerPattern_isSome_iff.mp h
    obtain ⟨spaces', d, back', rfl, -⟩ := bearerPattern_isSome_iff.mp hfound
    have hbracket : 91 ∉ codes "Bearer" ++ spaces := by
      rw [List.mem_append, not_or]
      exact ⟨by decide, fun hmem => absurd (hspaces 91 hmem) (by decide)⟩
    rw [← List.append_assoc (codes "Bearer")] at htext
    obtain ⟨mid, hmid, hback⟩ := front_of_append htext hbracket
    have hsome : (bearerPattern (text ++ (codes "Bearer" ++ (spaces' ++ d :: back')))).isSome := by
      rw [bearerPattern_isSome_iff, hmid]
      cases mid with
      | nil =>
          -- the spaces are followed by the header that was replaced
          exact ⟨spaces, 66, codes "earer" ++ (spaces' ++ d :: back'),
            by simp only [List.append_nil, List.append_assoc]; rfl, hne, hspaces, by decide⟩
      | cons e mid =>
          obtain ⟨rfl, -⟩ := List.cons.inj hback
          exact ⟨spaces, e, mid ++ (codes "Bearer" ++ (spaces' ++ d :: back')),
            by simp only [List.append_assoc, List.cons_append], hne, hspaces, hc⟩
    rw [hnone] at hsome
    cases hsome

/-- **No secret is left** in a redacted text. -/
theorem spotless_redactText (text : CodePoints) : Spotless (redactText text) :=
  ⟨(clean_substitute (separates_sk skPattern) text).substitute (separates_sk bearerPattern),
    clean_substitute separates_bearer _⟩

theorem redactText_of_spotless {text : CodePoints} (h : Spotless text) : redactText text = text := by
  rw [redactText, substitute_of_clean h.sk, substitute_of_clean h.bearer]

/-- Redacting a text again changes nothing. -/
theorem redactText_redactText (text : CodePoints) :
    redactText (redactText text) = redactText text :=
  redactText_of_spotless (spotless_redactText text)

/-- A secret needs one of two letters. -/
theorem spotless_of_plain {text : CodePoints} (hk : 107 ∉ text) (hb : 66 ∉ text) :
    Spotless text where
  sk := by
    intro suffix hsuffix
    refine isNone_of_not_isSome fun h => ?_
    obtain ⟨run, rest, rfl, -⟩ := skPattern_isSome_iff.mp h
    exact hk (hsuffix.subset (List.mem_append_left _ (by decide)))
  bearer := by
    intro suffix hsuffix
    refine isNone_of_not_isSome fun h => ?_
    obtain ⟨spaces, c, rest, rfl, -⟩ := bearerPattern_isSome_iff.mp h
    exact hb (hsuffix.subset (List.mem_append_left _ (by decide)))

theorem spotless_redacted : Spotless redacted := spotless_of_plain (by decide) (by decide)

/-! ## Values -/

/-- The lower case of an ASCII character. -/
def asciiLower (c : ℕ) : ℕ := if 65 ≤ c ∧ c ≤ 90 then c + 32 else c

/-- `str.lower`; what it does beyond ASCII is given. -/
structure StrLower where
  lower : CodePoints → CodePoints
  ascii : ∀ s, (∀ c ∈ s, c < 128) → lower s = s.map asciiLower

/-- The characters that numbers are written with. -/
def numberChars : CodePoints := codes "0123456789+-.einfatyNI"

/-- The text of a float. -/
abbrev FloatText := {s : CodePoints // ∀ c ∈ s, c ∈ numberChars}

/-- A key of a dictionary; `other` is none that JSON has a text for. -/
inductive LogKey
  | str (s : CodePoints)
  | int (i : ℤ)
  | float (text : FloatText)
  | bool (b : Bool)
  | none
  | other

/-- What a caller may hand to a logger; an `object` is anything else, as `str` renders it. -/
inductive LogValue
  | str (s : CodePoints)
  | int (i : ℤ)
  | float (literal : String)
  | bool (b : Bool)
  | none
  | dict (items : List (LogKey × LogValue))
  | list (items : List LogValue)
  | tuple (items : List LogValue)
  | object (rendered : CodePoints)

section

variable (py : StrLower)

/-- `is_denylisted_key` -/
def isDenylistedKey (key : CodePoints) : Bool :=
  denylistKeyTokens.any fun token => decide (token <:+: py.lower key)

/-- Whether a key of a dictionary drops its value. -/
def LogKey.isDenylisted : LogKey → Bool
  | .str s => isDenylistedKey py s
  | _ => false

mutual

/-- `_redact_value` -/
def redactValue : LogValue → LogValue
  | .str s => .str (redactText s)
  | .dict items => .dict (redactItems items)
  | .list items => .list (redactEach items)
  | .tuple items => .tuple (redactEach items)
  | .int i => .int i
  | .float literal => .float literal
  | .bool b => .bool b
  | .none => .none
  | .object rendered => .object rendered

/-- The items of a dictionary, each of them `_redact_field`. -/
def redactItems : List (LogKey × LogValue) → List (LogKey × LogValue)
  | [] => []
  | (key, value) :: items =>
    (key, if key.isDenylisted py then .str redacted else redactValue value) :: redactItems items

def redactEach : List LogValue → List LogValue
  | [] => []
  | value :: values => redactValue value :: redactEach values

end

/-- `_redact_field` -/
def redactField (key : LogKey) (value : LogValue) : LogValue :=
  if key.isDenylisted py then .str redacted else redactValue py value

/-! ## Rendering -/

/-- The text of a key in JSON. -/
def LogKey.text (digits : ℕ) : LogKey → Option CodePoints
  | .str s => some s
  | .int i =>
    if (Nat.toDigits 10 i.natAbs).length ≤ digits then some ((decimal i).map Char.toNat)
    else Option.none
  | .float text => some text.1
  | .bool true => some (codes "true")
  | .bool false => some (codes "false")
  | .none => some (codes "null")
  | .other => Option.none

mutual

/-- What `json.dumps` writes of a value, objects rendered by `str`; no key of another type, no
integer of too many digits. -/
def toJson (digits : ℕ) : LogValue → Option JsonValue
  | .str s => some (.str s)
  | .int i => if (Nat.toDigits 10 i.natAbs).length ≤ digits then some (.int i) else Option.none
  | .float literal => some (.float literal)
  | .bool b => some (.bool b)
  | .none => some .null
  | .dict items => (toJsonItems digits items).map .obj
  | .list items => (toJsonEach digits items).map .arr
  | .tuple items => (toJsonEach digits items).map .arr
  | .object rendered => some (.str rendered)

def toJsonItems (digits : ℕ) : List (LogKey × LogValue) → Option (List (CodePoints × JsonValue))
  | [] => some []
  | (key, value) :: items => do
    let text ← key.text digits
    let json ← toJson digits value
    let rest ← toJsonItems digits items
    return (text, json) :: rest

def toJsonEach (digits : ℕ) : List LogValue → Option (List JsonValue)
  | [] => some []
  | value :: values => do
    let json ← toJson digits value
    let rest ← toJsonEach digits values
    return json :: rest

end

/-! ## What is clean, and what leaks -/

mutual

/-- **No secret in a rendered value**: no string or key matches a pattern, and nothing stands under a
denylisted key. -/
def CleanJson : JsonValue → Prop
  | .str s => Spotless s
  | .arr items => CleanEach items
  | .obj fields => CleanFields fields
  | .null | .bool _ | .int _ | .float _ => True

def CleanEach : List JsonValue → Prop
  | [] => True
  | json :: items => CleanJson json ∧ CleanEach items

def CleanFields : List (CodePoints × JsonValue) → Prop
  | [] => True
  | (key, json) :: fields =>
    (Spotless key ∧ (isDenylistedKey py key = true → json = .str redacted) ∧ CleanJson json) ∧
      CleanFields fields

end

/-- A key that is no secret itself. -/
def LogKey.Spotless : LogKey → Prop
  | .str s => LoggingSetup.Spotless s
  | _ => True

mutual

/-- **Nothing leaks from a value**: no key of it and no object in it, short of a denylisted key,
matches a pattern. -/
def Leakless : LogValue → Prop
  | .object rendered => Spotless rendered
  | .dict items => LeaklessItems items
  | .list items | .tuple items => LeaklessEach items
  | .str _ | .int _ | .float _ | .bool _ | .none => True

def LeaklessItems : List (LogKey × LogValue) → Prop
  | [] => True
  | (key, value) :: items =>
    (key.Spotless ∧ (key.isDenylisted py = false → Leakless value)) ∧ LeaklessItems items

def LeaklessEach : List LogValue → Prop
  | [] => True
  | value :: values => Leakless value ∧ LeaklessEach values

end

/-! ## Redacting again -/

variable {py}

mutual

theorem redactValue_redactValue :
    ∀ value, redactValue py (redactValue py value) = redactValue py value
  | .str s => by rw [redactValue, redactValue, redactText_redactText]
  | .dict items => by rw [redactValue, redactValue, redactItems_redactItems items]
  | .list items => by rw [redactValue, redactValue, redactEach_redactEach items]
  | .tuple items => by rw [redactValue, redactValue, redactEach_redactEach items]
  | .int i => rfl
  | .float literal => rfl
  | .bool b => rfl
  | .none => rfl
  | .object rendered => rfl

theorem redactItems_redactItems :
    ∀ items, redactItems py (redactItems py items) = redactItems py items
  | [] => rfl
  | (key, value) :: items => by
    rw [redactItems, redactItems, redactItems_redactItems items]
    by_cases hkey : key.isDenylisted py = true
    · simp only [if_pos hkey]
    · simp only [if_neg hkey, redactValue_redactValue value]

theorem redactEach_redactEach :
    ∀ values, redactEach py (redactEach py values) = redactEach py values
  | [] => rfl
  | value :: values => by
    rw [redactEach, redactEach, redactValue_redactValue value, redactEach_redactEach values]

end

theorem redactField_redactField (key : LogKey) (value : LogValue) :
    redactField py key (redactField py key value) = redactField py key value := by
  unfold redactField
  by_cases hkey : key.isDenylisted py = true
  · rw [if_pos hkey, if_pos hkey]
  · rw [if_neg hkey, if_neg hkey, redactValue_redactValue]

/-! ## Keys that are no strings -/

/-- Each denylisted token has a character that no number has. -/
theorem token_not_number : ∀ token ∈ denylistKeyTokens,
    ∃ c ∈ token, c ∉ numberChars.map asciiLower := by
  decide

/-- The text of a number is no denylisted key. -/
theorem not_denylisted_of_number {text : CodePoints} (h : ∀ c ∈ text, c ∈ numberChars) :
    isDenylistedKey py text = false := by
  have hascii : ∀ c ∈ text, c < 128 := by
    have hchars : ∀ c ∈ numberChars, c < 128 := by decide
    exact fun c hc => hchars c (h c hc)
  unfold isDenylistedKey
  rw [py.ascii text hascii, List.any_eq_false]
  intro token htoken
  rw [decide_eq_true_eq]
  intro hwithin
  obtain ⟨c, hc, hnumber⟩ := token_not_number token htoken
  obtain ⟨d, hd, rfl⟩ := List.mem_map.mp (hwithin.subset hc)
  exact hnumber (List.mem_map_of_mem (h d hd))

/-- The text of a number holds no secret. -/
theorem spotless_of_number {text : CodePoints} (h : ∀ c ∈ text, c ∈ numberChars) :
    Spotless text :=
  spotless_of_plain (fun hk => absurd (h 107 hk) (by decide)) fun hb => absurd (h 66 hb) (by decide)

theorem decimal_number (i : ℤ) : ∀ c ∈ (decimal i).map Char.toNat, c ∈ numberChars := by
  have hdigits : ∀ n c, c ∈ (Nat.toDigits 10 n).map Char.toNat → c ∈ numberChars := by
    intro n c hc
    obtain ⟨digit, hdigit, rfl⟩ := List.mem_map.mp hc
    have hisDigit := Nat.isDigit_of_mem_toDigits (by decide) (by decide) hdigit
    rw [Char.isDigit_iff_toNat] at hisDigit
    have hall : ∀ c : Fin 58, 48 ≤ c.1 → c.1 ∈ numberChars := by decide
    exact hall ⟨digit.toNat, Nat.lt_succ_of_le hisDigit.2⟩ hisDigit.1
  intro c hc
  unfold decimal at hc
  split at hc
  · rcases List.mem_cons.mp hc with rfl | hc
    · decide
    · exact hdigits _ c hc
  · exact hdigits _ c hc

/-- A fixed key: its lower case is known. -/
theorem not_denylisted_of_ascii {text : CodePoints} (hascii : ∀ c ∈ text, c < 128)
    (h : ∀ token ∈ denylistKeyTokens, ¬ token <:+: text.map asciiLower) :
    isDenylistedKey py text = false := by
  unfold isDenylistedKey
  rw [py.ascii text hascii, List.any_eq_false]
  intro token htoken
  rw [decide_eq_true_eq]
  exact h token htoken

theorem LogKey.text_str (digits : ℕ) (s : CodePoints) : (LogKey.str s).text digits = some s := rfl

/-- A key that is no string is neither a secret nor denylisted. -/
theorem LogKey.text_of_not_str {key : LogKey} {digits : ℕ} {text : CodePoints}
    (hkey : ∀ s, key ≠ .str s) (h : key.text digits = some text) :
    LoggingSetup.Spotless text ∧ isDenylistedKey py text = false := by
  cases key with
  | str s => exact absurd rfl (hkey s)
  | int i =>
      rw [LogKey.text] at h
      split at h
      · rw [← Option.some.inj h]
        exact ⟨spotless_of_number (decimal_number i), not_denylisted_of_number (decimal_number i)⟩
      · cases h
  | float number =>
      rw [← Option.some.inj h]
      exact ⟨spotless_of_number number.2, not_denylisted_of_number number.2⟩
  | bool b =>
      cases b with
      | false =>
          rw [← Option.some.inj h]
          exact ⟨spotless_of_plain (by decide) (by decide),
            not_denylisted_of_ascii (by decide) (by decide)⟩
      | true =>
          rw [← Option.some.inj h]
          exact ⟨spotless_of_plain (by decide) (by decide),
            not_denylisted_of_ascii (by decide) (by decide)⟩
  | none =>
      rw [← Option.some.inj h]
      exact ⟨spotless_of_plain (by decide) (by decide),
        not_denylisted_of_ascii (by decide) (by decide)⟩
  | other => cases h

/-! ## What redaction leaves -/

/-- A rendered field. -/
def CleanField (py : StrLower) (key : CodePoints) (json : JsonValue) : Prop :=
  LoggingSetup.Spotless key ∧ (isDenylistedKey py key = true → json = .str redacted) ∧
    CleanJson py json

/-- A redacted field, once its value is known to leak or not. -/
theorem cleanField_of_value {digits : ℕ} {key : LogKey} {value : LogValue} {text : CodePoints}
    {json : JsonValue} (htext : key.text digits = some text)
    (hjson : toJson digits (redactField py key value) = some json)
    (hvalue : ∀ json, toJson digits (redactValue py value) = some json →
      (CleanJson py json ↔ Leakless py value)) :
    CleanField py text json ↔
      key.Spotless ∧ (key.isDenylisted py = false → Leakless py value) := by
  unfold redactField at hjson
  by_cases hdenied : key.isDenylisted py = true
  · -- the value is dropped, and only the key can leak
    rw [if_pos hdenied] at hjson
    have hdropped : json = .str redacted := (Option.some.inj hjson).symm
    cases key with
    | str s =>
        rw [← Option.some.inj htext, hdropped]
        constructor
        · rintro ⟨hspotless, -, -⟩
          exact ⟨hspotless, fun hallowed => absurd (hdenied.symm.trans hallowed) (by decide)⟩
        · rintro ⟨hspotless, -⟩
          exact ⟨hspotless, fun _ => rfl, spotless_redacted⟩
    | int _ | float _ | bool _ | none | other => cases hdenied
  · rw [if_neg hdenied] at hjson
    have hallowed : key.isDenylisted py = false := eq_false_of_ne_true hdenied
    unfold CleanField
    rw [hvalue json hjson]
    by_cases hstr : ∃ s, key = .str s
    · obtain ⟨s, rfl⟩ := hstr
      rw [← Option.some.inj htext]
      constructor
      · rintro ⟨hspotless, -, hleak⟩
        exact ⟨hspotless, fun _ => hleak⟩
      · rintro ⟨hspotless, hleak⟩
        exact ⟨hspotless, fun hname => absurd hname hdenied, hleak hallowed⟩
    · have hplain : LoggingSetup.Spotless text ∧ isDenylistedKey py text = false :=
        LogKey.text_of_not_str (fun s hs => hstr ⟨s, hs⟩) htext
      obtain ⟨hspotless, hname⟩ := hplain
      have hkey : key.Spotless := by
        cases key with
        | str s => exact absurd ⟨s, rfl⟩ hstr
        | int _ | float _ | bool _ | none | other => trivial
      constructor
      · rintro ⟨-, -, hleak⟩
        exact ⟨hkey, fun _ => hleak⟩
      · rintro ⟨-, hleak⟩
        exact ⟨hspotless, fun hdeny => absurd (hname.symm.trans hdeny) (by decide), hleak hallowed⟩

mutual

/-- **A redacted value is clean** exactly when it does not leak. -/
theorem cleanJson_iff {digits : ℕ} : ∀ value json, toJson digits (redactValue py value) = some json →
    (CleanJson py json ↔ Leakless py value)
  | .str s, json, h => by
    rw [← Option.some.inj h]
    exact iff_of_true (spotless_redactText s) trivial
  | .dict items, json, h => by
    rw [redactValue, toJson] at h
    obtain ⟨fields, hfields, rfl⟩ := Option.map_eq_some_iff.mp h
    exact cleanFields_iff items fields hfields
  | .list items, json, h => by
    rw [redactValue, toJson] at h
    obtain ⟨values, hvalues, rfl⟩ := Option.map_eq_some_iff.mp h
    exact cleanEach_iff items values hvalues
  | .tuple items, json, h => by
    rw [redactValue, toJson] at h
    obtain ⟨values, hvalues, rfl⟩ := Option.map_eq_some_iff.mp h
    exact cleanEach_iff items values hvalues
  | .int i, json, h => by
    rw [redactValue, toJson] at h
    split at h
    · rw [← Option.some.inj h]
      exact iff_of_true trivial trivial
    · cases h
  | .float literal, json, h => by
    rw [← Option.some.inj h]
    exact iff_of_true trivial trivial
  | .bool b, json, h => by
    rw [← Option.some.inj h]
    exact iff_of_true trivial trivial
  | .none, json, h => by
    rw [← Option.some.inj h]
    exact iff_of_true trivial trivial
  | .object rendered, json, h => by
    rw [← Option.some.inj h]
    exact Iff.rfl

theorem cleanFields_iff {digits : ℕ} : ∀ items fields,
    toJsonItems digits (redactItems py items) = some fields →
      (CleanFields py fields ↔ LeaklessItems py items)
  | [], fields, h => by
    rw [← Option.some.inj h]
    exact Iff.rfl
  | (key, value) :: items, fields, h => by
    rw [redactItems, toJsonItems] at h
    obtain ⟨text, htext, h⟩ := Option.bind_eq_some_iff.mp h
    obtain ⟨json, hjson, h⟩ := Option.bind_eq_some_iff.mp h
    obtain ⟨rest, hrest, h⟩ := Option.bind_eq_some_iff.mp h
    rw [← Option.some.inj h]
    exact and_congr (cleanField_of_value htext hjson (cleanJson_iff value))
      (cleanFields_iff items rest hrest)

theorem cleanEach_iff {digits : ℕ} : ∀ items values,
    toJsonEach digits (redactEach py items) = some values →
      (CleanEach py values ↔ LeaklessEach py items)
  | [], values, h => by
    rw [← Option.some.inj h]
    exact Iff.rfl
  | value :: items, values, h => by
    rw [redactEach, toJsonEach] at h
    obtain ⟨json, hjson, h⟩ := Option.bind_eq_some_iff.mp h
    obtain ⟨rest, hrest, h⟩ := Option.bind_eq_some_iff.mp h
    rw [← Option.some.inj h]
    exact and_congr (cleanJson_iff value json hjson) (cleanEach_iff items rest hrest)

end

/-- **A redacted field is clean** exactly when its key is no secret and its value does not leak. -/
theorem cleanField_iff {digits : ℕ} {key : LogKey} {value : LogValue} {text : CodePoints}
    {json : JsonValue} (htext : key.text digits = some text)
    (hjson : toJson digits (redactField py key value) = some json) :
    CleanField py text json ↔
      key.Spotless ∧ (key.isDenylisted py = false → Leakless py value) :=
  cleanField_of_value htext hjson (cleanJson_iff value)

/-- Every item of what is rendered is rendered. -/
theorem toJsonItems_mem {digits : ℕ} {items : List (LogKey × LogValue)}
    {fields : List (CodePoints × JsonValue)} (h : toJsonItems digits items = some fields) :
    ∀ item ∈ items, ∃ json, toJson digits item.2 = some json := by
  induction items generalizing fields with
  | nil => exact fun item hitem => absurd hitem List.not_mem_nil
  | cons item items ih =>
      obtain ⟨key, value⟩ := item
      rw [toJsonItems] at h
      obtain ⟨text, -, h⟩ := Option.bind_eq_some_iff.mp h
      obtain ⟨json, hjson, h⟩ := Option.bind_eq_some_iff.mp h
      obtain ⟨rest, hrest, -⟩ := Option.bind_eq_some_iff.mp h
      exact List.forall_mem_cons.mpr ⟨⟨json, hjson⟩, ih hrest⟩

/-- Rendered fields, one by one. -/
theorem cleanFields_toJsonItems {digits : ℕ} {items : List (LogKey × LogValue)}
    {fields : List (CodePoints × JsonValue)} (h : toJsonItems digits items = some fields) :
    CleanFields py fields ↔ ∀ item ∈ items, ∀ text json, item.1.text digits = some text →
      toJson digits item.2 = some json → CleanField py text json := by
  induction items generalizing fields with
  | nil =>
      rw [← Option.some.inj h]
      exact iff_of_true trivial fun item hitem => absurd hitem List.not_mem_nil
  | cons item items ih =>
      obtain ⟨key, value⟩ := item
      rw [toJsonItems] at h
      obtain ⟨text, htext, h⟩ := Option.bind_eq_some_iff.mp h
      obtain ⟨json, hjson, h⟩ := Option.bind_eq_some_iff.mp h
      obtain ⟨rest, hrest, h⟩ := Option.bind_eq_some_iff.mp h
      rw [← Option.some.inj h, List.forall_mem_cons, ← ih hrest]
      refine and_congr_left fun _ => ⟨?_, fun hclean => hclean text json htext hjson⟩
      intro hclean text' json' htext' hjson'
      rw [← Option.some.inj (htext.symm.trans htext'), ← Option.some.inj (hjson.symm.trans hjson')]
      exact hclean

end

/-! ## Records -/

/-- `_STANDARD_LOGRECORD_ATTRS` -/
def standardLogrecordAttrs : List CodePoints :=
  [codes "name", codes "msg", codes "args", codes "levelname", codes "levelno", codes "pathname",
    codes "filename", codes "module", codes "exc_info", codes "exc_text", codes "stack_info",
    codes "lineno", codes "funcName", codes "created", codes "msecs", codes "relativeCreated",
    codes "thread", codes "threadName", codes "processName", codes "process", codes "taskName",
    codes "message", codes "asctime"]

/-- A timestamp, as it is written. -/
abbrev StampText := {s : CodePoints // ∀ c ∈ s, c ∈ codes "0123456789-:.TZ"}

/-- A record. Its message is `str(msg)`, its exception the formatted traceback. -/
structure LogRecord (α : Type) where
  created : StampText
  levelname : CodePoints
  name : CodePoints
  msg : CodePoints
  args : Option α
  excInfo : Option CodePoints
  extras : OrderedDict CodePoints LogValue
  extras_own : ∀ key ∈ extras.keys, key ∉ standardLogrecordAttrs

section

variable {α : Type} (py : StrLower) (digits : ℕ) (interpolate : CodePoints → α → Option CodePoints)

/-- `getMessage`: the arguments are interpolated, which may fail. -/
def LogRecord.getMessage (record : LogRecord α) : Option CodePoints :=
  match record.args with
  | none => some record.msg
  | some args => interpolate record.msg args

/-- Redaction keeps the names of the extra fields. -/
theorem extras_redacted (record : LogRecord α) :
    ∀ key ∈ (record.extras.mapItems fun key value => redactField py (.str key) value).keys,
      key ∉ standardLogrecordAttrs := by
  intro key hkey
  refine record.extras_own key ?_
  obtain ⟨item, hitem, rfl⟩ := List.mem_map.mp hkey
  obtain ⟨extra, hextra, rfl⟩ := List.mem_map.mp hitem
  exact List.mem_map.mpr ⟨extra, hextra, rfl⟩

/-- `RedactionFilter.filter` -/
def LogRecord.filter (record : LogRecord α) : Option (LogRecord α) :=
  (record.getMessage interpolate).map fun message =>
    { record with
      msg := redactText message
      args := none
      extras := record.extras.mapItems fun key value => redactField py (.str key) value
      extras_own := extras_redacted py record }

/-- The `component` of a record, or its logger's name. -/
def LogRecord.component (record : LogRecord α) : LogValue :=
  (record.extras.get? (codes "component")).getD (.str record.name)

/-- The fields of every record are different. -/
theorem baseKeys_nodup (ts level component msg : LogValue) :
    ([(codes "ts", ts), (codes "level", level), (codes "component", component),
      (codes "msg", msg)].map Prod.fst).Nodup := by
  have hkeys : [codes "ts", codes "level", codes "component", codes "msg"].Nodup := by decide
  exact hkeys

/-- The fields of every record. -/
def LogRecord.base (record : LogRecord α) (message : CodePoints) : OrderedDict CodePoints LogValue :=
  ⟨[(codes "ts", .str record.created.1), (codes "level", .str record.levelname),
    (codes "component", record.component), (codes "msg", .str message)], baseKeys_nodup _ _ _ _⟩

/-- `_extra_fields` -/
def LogRecord.extraFields (record : LogRecord α) : OrderedDict CodePoints LogValue :=
  record.extras.pop (codes "component")

/-- The payload of a line. -/
def LogRecord.payload (record : LogRecord α) (message : CodePoints) :
    OrderedDict CodePoints LogValue :=
  let payload := (record.base message).update record.extraFields
  match record.excInfo with
  | none => payload
  | some text => payload.set (codes "exc_info") (.str (redactText text))

/-- `JsonFormatter.format`: the fields of the object. -/
def LogRecord.format (record : LogRecord α) : Option (List (CodePoints × JsonValue)) := do
  let message ← record.getMessage interpolate
  toJsonItems digits ((record.payload message).items.map fun item => (.str item.1, item.2))

/-- What reaches the stream of a record. -/
def LogRecord.emitted (record : LogRecord α) : Option (List (CodePoints × JsonValue)) :=
  (record.filter py interpolate).bind (·.format digits interpolate)

/-- **Nothing leaks from a record**: no name of an extra field is a secret, no extra field leaks
short of a denylisted name, and neither the level nor the logger's name is a secret where it is
emitted. -/
structure LogRecord.Leakless (record : LogRecord α) : Prop where
  extras : ∀ key value, record.extras.get? key = some value →
    Spotless key ∧ (isDenylistedKey py key = false → LoggingSetup.Leakless py value)
  level : record.extras.get? (codes "level") = none → Spotless record.levelname
  name : record.extras.get? (codes "component") = none → Spotless record.name

variable {py digits interpolate} {record : LogRecord α}

/-! ## The payload -/

theorem payload_get? (message key : CodePoints) (hkey : key ≠ codes "exc_info") :
    (record.payload message).get? key =
      (record.extraFields.get? key).or ((record.base message).get? key) := by
  unfold LogRecord.payload
  cases record.excInfo with
  | none => exact OrderedDict.get?_update _ _ key
  | some text =>
      dsimp only
      rw [OrderedDict.get?_set, if_neg hkey, OrderedDict.get?_update]

theorem extraFields_get? (key : CodePoints) : record.extraFields.get? key =
    if key = codes "component" then none else record.extras.get? key :=
  OrderedDict.get?_pop _ _ key

/-- The attributes of every record name no extra field. -/
theorem extras_get?_standard {key : CodePoints} (h : key ∈ standardLogrecordAttrs) :
    record.extras.get? key = none :=
  OrderedDict.get?_eq_none_iff.mpr fun hmem => record.extras_own key hmem h

/-- An extra field is in the payload, under its name. -/
theorem payload_extra {key message : CodePoints} {value : LogValue}
    (h : record.extras.get? key = some value) : (record.payload message).get? key = some value := by
  have hkey : key ≠ codes "exc_info" := by
    rintro rfl
    rw [extras_get?_standard (by decide)] at h
    cases h
  rw [payload_get? message key hkey, extraFields_get?]
  by_cases hcomponent : key = codes "component"
  · rw [if_pos hcomponent, hcomponent]
    change some record.component = some value
    rw [LogRecord.component, ← hcomponent, h]
    rfl
  · rw [if_neg hcomponent, h]
    rfl

/-- A field of every record that no extra field takes the place of. -/
theorem payload_base {key message : CodePoints} (hkey : key ≠ codes "exc_info")
    (h : record.extras.get? key = none) :
    (record.payload message).get? key = (record.base message).get? key := by
  rw [payload_get? message key hkey, extraFields_get?, h, ite_self]
  rfl

/-- **Everything in the payload**: an extra field, or what every record has. -/
theorem payload_cases {key message : CodePoints} {value : LogValue}
    (h : (record.payload message).get? key = some value) :
    record.extras.get? key = some value ∨
      (key = codes "ts" ∧ value = .str record.created.1) ∨
      (key = codes "level" ∧ record.extras.get? key = none ∧ value = .str record.levelname) ∨
      (key = codes "component" ∧ record.extras.get? key = none ∧ value = .str record.name) ∨
      (key = codes "msg" ∧ value = .str message) ∨
      key = codes "exc_info" ∧ ∃ text, value = .str (redactText text) := by
  by_cases hexc : key = codes "exc_info"
  · refine .inr (.inr (.inr (.inr (.inr ⟨hexc, ?_⟩))))
    unfold LogRecord.payload at h
    cases hinfo : record.excInfo with
    | some text =>
        rw [hinfo] at h
        dsimp only at h
        rw [OrderedDict.get?_set, if_pos hexc] at h
        exact ⟨text, (Option.some.inj h).symm⟩
    | none =>
        rw [hinfo] at h
        dsimp only at h
        have hnone : ((record.base message).update record.extraFields).get? key = none := by
          rw [OrderedDict.get?_update, extraFields_get?, hexc, extras_get?_standard (by decide),
            ite_self]
          rfl
        rw [hnone] at h
        cases h
  · cases hextra : record.extras.get? key with
    | some extra =>
        rw [payload_extra hextra] at h
        exact .inl h
    | none =>
        rw [payload_base hexc hextra] at h
        have hmem := OrderedDict.mem_items_iff.mpr h
        simp only [LogRecord.base, List.mem_cons, Prod.mk.injEq, List.not_mem_nil, or_false] at hmem
        rcases hmem with hts | hlevel | ⟨hkey, hvalue⟩ | hmsg
        · exact .inr (.inl hts)
        · exact .inr (.inr (.inl ⟨hlevel.1, rfl, hlevel.2⟩))
        · refine .inr (.inr (.inr (.inl ⟨hkey, rfl, ?_⟩)))
          rw [hvalue, LogRecord.component, ← hkey, hextra]
          rfl
        · exact .inr (.inr (.inr (.inr (.inl hmsg))))

/-- The names of the fields of every record are plain. -/
theorem cleanField_base {key s : CodePoints} (hkey : key ∈ [codes "ts", codes "level",
    codes "component", codes "msg", codes "exc_info"]) :
    CleanField py key (.str s) ↔ Spotless s := by
  have hplain : ∀ key ∈ [codes "ts", codes "level", codes "component", codes "msg",
      codes "exc_info"], 107 ∉ key ∧ 66 ∉ key ∧ (∀ c ∈ key, c < 128) ∧
        ∀ token ∈ denylistKeyTokens, ¬ token <:+: key.map asciiLower := by decide
  obtain ⟨hk, hb, hascii, htokens⟩ := hplain key hkey
  have hname : isDenylistedKey py key = false := not_denylisted_of_ascii hascii htokens
  constructor
  · rintro ⟨-, -, hclean⟩
    exact hclean
  · intro hspotless
    exact ⟨spotless_of_plain hk hb, fun hdeny => absurd (hname.symm.trans hdeny) (by decide),
      hspotless⟩

/-- A timestamp holds no secret. -/
theorem spotless_stamp (stamp : StampText) : Spotless stamp.1 :=
  spotless_of_plain (fun hk => absurd (stamp.2 107 hk) (by decide)) fun hb =>
    absurd (stamp.2 66 hb) (by decide)

/-! ## What reaches the stream -/

/-- **What is rendered of a redacted record**, field by field of its payload. -/
theorem cleanFields_format_iff {fields : List (CodePoints × JsonValue)} {message : CodePoints}
    (h : toJsonItems digits ((record.payload message).items.map fun item =>
      (LogKey.str item.1, item.2)) = some fields) :
    CleanFields py fields ↔ ∀ key value, (record.payload message).get? key = some value →
      ∃ json, toJson digits value = some json ∧ CleanField py key json := by
  rw [cleanFields_toJsonItems h, List.forall_mem_map]
  constructor
  · intro hclean key value hget
    have hmem := OrderedDict.mem_items_iff.mpr hget
    obtain ⟨json, hjson⟩ := toJsonItems_mem h (.str key, value)
      (List.mem_map.mpr ⟨(key, value), hmem, rfl⟩)
    exact ⟨json, hjson, hclean (key, value) hmem key json rfl hjson⟩
  · rintro hclean ⟨key, value⟩ hmem text json htext hjson
    obtain ⟨json', hjson', hfield⟩ := hclean key value (OrderedDict.mem_items_iff.mp hmem)
    rw [← Option.some.inj htext, ← Option.some.inj (hjson'.symm.trans hjson)]
    exact hfield

/-- An extra field of a redacted record. -/
theorem filtered_extra {filtered : LogRecord α}
    (hfilter : record.filter py interpolate = some filtered) (key : CodePoints) : filtered.extras.get? key =
      (record.extras.get? key).map (redactField py (.str key)) := by
  obtain ⟨message, -, rfl⟩ := Option.map_eq_some_iff.mp hfilter
  exact OrderedDict.get?_mapItems _ _ key

/-- A redacted record has its redacted message, and keeps its level and its logger's name. -/
theorem filter_eq_some {filtered : LogRecord α}
    (hfilter : record.filter py interpolate = some filtered) :
    (∃ text, filtered.getMessage interpolate = some (redactText text)) ∧
      filtered.levelname = record.levelname ∧ filtered.name = record.name := by
  obtain ⟨message, -, rfl⟩ := Option.map_eq_some_iff.mp hfilter
  exact ⟨⟨message, rfl⟩, rfl, rfl⟩

/-- **What is emitted of a record** is clean exactly when nothing leaks from it. -/
theorem cleanFields_emitted_iff {fields : List (CodePoints × JsonValue)}
    (h : record.emitted py digits interpolate = some fields) :
    CleanFields py fields ↔ record.Leakless py := by
  obtain ⟨filtered, hfilter, hformat⟩ := Option.bind_eq_some_iff.mp h
  have hextra := filtered_extra hfilter
  obtain ⟨⟨text, hmessage⟩, hlevel, hname⟩ := filter_eq_some hfilter
  unfold LogRecord.format at hformat
  obtain ⟨message, hmessage', hfields⟩ := Option.bind_eq_some_iff.mp hformat
  rw [hmessage] at hmessage'
  rw [cleanFields_format_iff hfields]
  constructor
  · intro hclean
    refine ⟨fun key value hvalue => ?_, fun hnone => ?_, fun hnone => ?_⟩
    · have hget : filtered.extras.get? key = some (redactField py (.str key) value) := by
        rw [hextra, hvalue]
        rfl
      obtain ⟨json, hjson, hfield⟩ := hclean key _ (payload_extra hget)
      exact (cleanField_iff (LogKey.text_str digits key) hjson).mp hfield
    · have hget : filtered.extras.get? (codes "level") = none := by rw [hextra, hnone]; rfl
      obtain ⟨json, hjson, hfield⟩ := hclean (codes "level") (.str filtered.levelname)
        (payload_base (by decide) hget)
      rw [← Option.some.inj hjson, cleanField_base (by decide), hlevel] at hfield
      exact hfield
    · have hget : filtered.extras.get? (codes "component") = none := by rw [hextra, hnone]; rfl
      obtain ⟨json, hjson, hfield⟩ := hclean (codes "component") (.str filtered.name) (by
        rw [payload_base (by decide) hget]
        change some filtered.component = _
        rw [LogRecord.component, hget]
        rfl)
      rw [← Option.some.inj hjson, cleanField_base (by decide), hname] at hfield
      exact hfield
  · intro hleakless key value hget
    rcases payload_cases hget with hvalue | ⟨rfl, rfl⟩ | ⟨rfl, hnone, rfl⟩ | ⟨rfl, hnone, rfl⟩ |
      ⟨rfl, rfl⟩ | ⟨rfl, exc, rfl⟩
    · obtain ⟨json, hjson⟩ := toJsonItems_mem hfields (.str key, value)
        (List.mem_map.mpr ⟨(key, value), OrderedDict.mem_items_iff.mpr hget, rfl⟩)
      refine ⟨json, hjson, ?_⟩
      rw [hextra] at hvalue
      obtain ⟨original, horiginal, rfl⟩ := Option.map_eq_some_iff.mp hvalue
      exact (cleanField_iff (LogKey.text_str digits key) hjson).mpr
        (hleakless.extras key original horiginal)
    · exact ⟨_, rfl, (cleanField_base (by decide)).mpr (spotless_stamp _)⟩
    · rw [hextra, Option.map_eq_none_iff] at hnone
      exact ⟨_, rfl, (cleanField_base (by decide)).mpr (hlevel ▸ hleakless.level hnone)⟩
    · rw [hextra, Option.map_eq_none_iff] at hnone
      exact ⟨_, rfl, (cleanField_base (by decide)).mpr (hname ▸ hleakless.name hnone)⟩
    · rw [← Option.some.inj hmessage']
      exact ⟨_, rfl, (cleanField_base (by decide)).mpr (spotless_redactText text)⟩
    · exact ⟨_, rfl, (cleanField_base (by decide)).mpr (spotless_redactText exc)⟩

/-- Redacting the extra fields again changes nothing. -/
theorem mapItems_redactField (extras : OrderedDict CodePoints LogValue) :
    ((extras.mapItems fun key value => redactField py (.str key) value).mapItems
      fun key value => redactField py (.str key) value) =
        extras.mapItems fun key value => redactField py (.str key) value := by
  unfold OrderedDict.mapItems
  rw [OrderedDict.mk.injEq, List.map_map]
  refine List.map_congr_left fun item _ => ?_
  exact congrArg (Prod.mk item.1) (redactField_redactField (.str item.1) item.2)

/-- **Redacting a redacted record** changes nothing. -/
theorem filter_filter {filtered : LogRecord α} (h : record.filter py interpolate = some filtered) :
    filtered.filter py interpolate = some filtered := by
  obtain ⟨message, -, rfl⟩ := Option.map_eq_some_iff.mp h
  refine congrArg some ?_
  rw [LogRecord.mk.injEq]
  exact ⟨rfl, rfl, rfl, redactText_redactText message, rfl, rfl, mapItems_redactField _⟩

end

/-- **No secret reaches the stream** of a record from which nothing leaks, and of no other record. -/
theorem redaction_exact {α : Type} (py : StrLower) (digits : ℕ)
    (interpolate : CodePoints → α → Option CodePoints) (record : LogRecord α)
    (fields : List (CodePoints × JsonValue))
    (h : record.emitted py digits interpolate = some fields) :
    (CleanFields py fields ∧ ∀ filtered, record.filter py interpolate = some filtered →
        filtered.filter py interpolate = some filtered) ↔ record.Leakless py :=
  (and_iff_left fun _ => filter_filter).trans (cleanFields_emitted_iff h)

theorem lower_ascii (s : CodePoints) (_ : ∀ c ∈ s, c < 128) :
    s.map asciiLower = s.map asciiLower := rfl

/-- `str.lower` for ASCII texts. -/
def asciiPy : StrLower := ⟨List.map asciiLower, lower_ascii⟩

theorem noExtras_own : ∀ key ∈ (OrderedDict.empty : OrderedDict CodePoints LogValue).keys,
    key ∉ standardLogrecordAttrs := fun _ hkey => absurd hkey List.not_mem_nil

theorem stamp_chars : ∀ c ∈ codes "2026-07-04T12:00:00.000000Z", c ∈ codes "0123456789-:.TZ" := by
  decide

/-- A record whose message is a header. -/
def headerRecord : LogRecord Empty :=
  ⟨⟨codes "2026-07-04T12:00:00.000000Z", stamp_chars⟩, codes "INFO", codes "windbreak",
    codes "Bearer abc", none, none, .empty, noExtras_own⟩

theorem redaction_exact_header :
    (CleanFields asciiPy [(codes "ts", .str (codes "2026-07-04T12:00:00.000000Z")),
        (codes "level", .str (codes "INFO")), (codes "component", .str (codes "windbreak")),
        (codes "msg", .str redacted)] ∧
      ∀ filtered, headerRecord.filter asciiPy (fun _ _ => none) = some filtered →
        filtered.filter asciiPy (fun _ _ => none) = some filtered) ↔ headerRecord.Leakless asciiPy :=
  redaction_exact asciiPy 4300 (fun _ _ => none) headerRecord _ rfl

theorem errorExtra_own : ∀ key ∈ [codes "error"], key ∉ standardLogrecordAttrs := by decide

/-- A record with an extra field that `str` renders as a header. -/
def leakyRecord : LogRecord Empty :=
  { headerRecord with
    msg := codes "request failed"
    extras := ⟨[(codes "error", .object (codes "Bearer abc"))], List.nodup_singleton _⟩
    extras_own := errorExtra_own }

theorem object_leaks : ∃ fields, leakyRecord.emitted asciiPy 4300 (fun _ _ => none) = some fields ∧
    ¬ CleanFields asciiPy fields := by
  have hemitted : ∃ fields, leakyRecord.emitted asciiPy 4300 (fun _ _ => none) = some fields :=
    ⟨_, rfl⟩
  obtain ⟨fields, hfields⟩ := hemitted
  refine ⟨fields, hfields, fun hclean => ?_⟩
  have hleakless := (cleanFields_emitted_iff hfields).mp hclean
  have hobject := (hleakless.extras (codes "error") _ rfl).2 (by decide)
  exact absurd (hobject.bearer _ List.suffix_rfl) (by decide)

end Windbreak.LoggingSetup
