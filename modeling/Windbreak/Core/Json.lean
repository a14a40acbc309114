import Mathlib.Data.List.Sort

/-!
# JSON values and their canonical text

The values a payload is made of, and the one text they are hashed and signed over: keys in
code-point order, no whitespace, every non-ASCII character escaped.  Floats are left out: the
payloads of this kind are integer-only.

* `Json` — null, booleans, integers, strings, arrays, objects.
* `Json.canonical` — the canonical text.
* `Json.lookup` — a field of an object.
-/

/-- A JSON value without floats.  An object lists its fields; a key occurs once. -/
inductive Json where
  | null
  | bool (b : Bool)
  | int (i : ℤ)
  | str (s : String)
  | arr (items : List Json)
  | obj (fields : List (String × Json))
  deriving Repr, Inhabited

namespace Json

/-! ## Text of the leaves -/

/-- A lower-case hexadecimal digit. -/
def hexDigit (n : ℕ) : Char :=
  if n < 10 then Char.ofNat (48 + n) else Char.ofNat (87 + n)

/-- The escape of one UTF-16 code unit. -/
def unicodeEscape (n : ℕ) : List Char :=
  ['\\', 'u', hexDigit (n / 4096 % 16), hexDigit (n / 256 % 16), hexDigit (n / 16 % 16),
    hexDigit (n % 16)]

/-- The escape of one character: the short forms, ASCII verbatim, one code unit inside the basic
plane and a surrogate pair above it. -/
def escapeChar (c : Char) : List Char :=
  if c = '"' then ['\\', '"']
  else if c = '\\' then ['\\', '\\']
  else if c = '\n' then ['\\', 'n']
  else if c = '\r' then ['\\', 'r']
  else if c = '\t' then ['\\', 't']
  else if c.toNat = 12 then ['\\', 'f']
  else if c.toNat = 8 then ['\\', 'b']
  else if 32 ≤ c.toNat ∧ c.toNat ≤ 126 then [c]
  else if c.toNat < 65536 then unicodeEscape c.toNat
  else
    unicodeEscape (55296 + (c.toNat - 65536) / 1024)
      ++ unicodeEscape (56320 + (c.toNat - 65536) % 1024)

/-- A quoted string. -/
def quoted (s : String) : String :=
  String.ofList ('"' :: s.toList.flatMap escapeChar ++ ['"'])

/-! ## Canonical text -/

/-- Fields in the order of their keys. -/
def sortFields (fields : List (String × String)) : List (String × String) :=
  fields.insertionSort fun a b => a.1 ≤ b.1

/-- An object, its fields already rendered. -/
def renderObject (fields : List (String × String)) : String :=
  "\x7b" ++ String.intercalate ","
    ((sortFields fields).map fun f => quoted f.1 ++ ":" ++ f.2) ++ "\x7d"

mutual

/-- **The canonical text** of a value: sorted keys, no whitespace. -/
def canonical : Json → String
  | .null => "null"
  | .bool b => if b then "true" else "false"
  | .int i => toString i
  | .str s => quoted s
  | .arr items => "[" ++ String.intercalate "," (canonicalItems items) ++ "]"
  | .obj fields => renderObject (canonicalFields fields)

/-- The canonical texts of an array's items. -/
def canonicalItems : List Json → List String
  | [] => []
  | x :: xs => canonical x :: canonicalItems xs

/-- The canonical texts of an object's fields. -/
def canonicalFields : List (String × Json) → List (String × String)
  | [] => []
  | (k, x) :: fields => (k, canonical x) :: canonicalFields fields

end

/-- A field of an object. -/
def lookup (key : String) : List (String × Json) → Option Json
  | [] => none
  | (k, v) :: fields => if k = key then some v else lookup key fields

/-- The integer a value carries, if it is one. -/
def asInt? : Json → Option ℤ
  | .int i => some i
  | _ => none

/-- The string a value carries, if it is one. -/
def asStr? : Json → Option String
  | .str s => some s
  | _ => none

example : (obj [("b", arr [int (-1), str "é\"\n"]), ("a", bool true)]).canonical
    = "\x7b\"a\":true,\"b\":[-1,\"\\u00e9\\\"\\n\"]\x7d" := by decide

end Json
