import Windbreak.Core.Hex
import Windbreak.Core.OrderedDict

/-!
# Reading JSON text

A reader for the JSON of the standard library: what it accepts beyond the grammar (`NaN`,
`Infinity`, a repeated key) and the three ways in which it refuses.

* `JsonValue` — what a text decodes to.  Strings are lists of code points, since an escape may
  spell an unpaired surrogate; a float is kept as its literal.
* `loads` — read a whole text.  Nesting is bounded by the recursion limit, an integer by the limit
  on its digits.
-/

/-- A string as its code points, unpaired surrogates included. -/
abbrev CodePoints := List ℕ

instance CodePoints.lawfulBEq : LawfulBEq CodePoints := inferInstanceAs (LawfulBEq (List ℕ))

/-- A decoded value.  An object lists its fields in the order of first occurrence. -/
inductive JsonValue where
  | null
  | bool (b : Bool)
  | int (i : ℤ)
  | float (literal : String)
  | str (s : CodePoints)
  | arr (items : List JsonValue)
  | obj (fields : List (CodePoints × JsonValue))
  deriving Repr, Inhabited

namespace JsonValue

/-- Why a text is refused: it is not JSON, an integer has too many digits, or it is nested too
deep. -/
inductive LoadsError where
  | decode
  | digits
  | depth
  deriving DecidableEq, Repr

/-- The interpreter's limits: the digits of an integer, and the nesting of containers. -/
structure Limits where
  digits : ℕ
  depth : ℕ
  deriving DecidableEq, Repr

/-- A reader of a part of a text: what the part reads as, and the text after it. -/
abbrev Scan (α : Type) := List Char → Except LoadsError (α × List Char)

/-! ## Leaves -/

def isSpace (c : Char) : Bool := c = ' ' || c = '\t' || c = '\n' || c = '\r'

def skipSpace (cs : List Char) : List Char := cs.dropWhile isSpace

/-- The code unit that four hexadecimal digits spell. -/
def hexUnit? (a b c d : Char) : Option ℕ := do
  let a ← Hex.digitValue? a
  let b ← Hex.digitValue? b
  let c ← Hex.digitValue? c
  let d ← Hex.digitValue? d
  return 4096 * a + 256 * b + 16 * c + d

/-- What a one-character escape stands for. -/
def unescape? (c : Char) : Option ℕ :=
  if c = '"' then some 34
  else if c = '\\' then some 92
  else if c = '/' then some 47
  else if c = 'b' then some 8
  else if c = 'f' then some 12
  else if c = 'n' then some 10
  else if c = 'r' then some 13
  else if c = 't' then some 9
  else none

/-- The code units up to the closing quote. -/
def scanUnits : List Char → Option (List ℕ × List Char)
  | [] => none
  | '"' :: cs => some ([], cs)
  | '\\' :: 'u' :: a :: b :: c :: d :: cs => do
    let unit ← hexUnit? a b c d
    let (units, rest) ← scanUnits cs
    return (unit :: units, rest)
  | '\\' :: e :: cs => do
    let unit ← unescape? e
    let (units, rest) ← scanUnits cs
    return (unit :: units, rest)
  | c :: cs =>
    if c.toNat < 32 ∨ c = '\\' then none
    else do
      let (units, rest) ← scanUnits cs
      return (c.toNat :: units, rest)

attribute [local grind =] scanUnits

def isHigh (unit : ℕ) : Bool := 55296 ≤ unit && unit ≤ 56319

def isLow (unit : ℕ) : Bool := 56320 ≤ unit && unit ≤ 57343

/-- Code points of code units: a high surrogate and the low one after it are one code point. -/
def joinSurrogates : List ℕ → CodePoints
  | [] => []
  | [unit] => [unit]
  | high :: low :: units =>
    if isHigh high && isLow low then
      (65536 + (high - 55296) * 1024 + (low - 56320)) :: joinSurrogates units
    else high :: joinSurrogates (low :: units)

/-- A string, after its opening quote. -/
def scanString (cs : List Char) : Except LoadsError (CodePoints × List Char) :=
  match scanUnits cs with
  | none => .error .decode
  | some (units, rest) => .ok (joinSurrogates units, rest)

/-- A word, or nothing. -/
def scanWord (word : List Char) (value : JsonValue) (cs : List Char) :
    Except LoadsError (JsonValue × List Char) :=
  if word.isPrefixOf cs then .ok (value, cs.drop word.length) else .error .decode

/-- The digits of an integer: a zero, or digits that do not begin with one. -/
def scanDigits : List Char → Option (List Char × List Char)
  | '0' :: cs => some (['0'], cs)
  | cs =>
    if cs.takeWhile Char.isDigit = [] then none
    else some (cs.takeWhile Char.isDigit, cs.dropWhile Char.isDigit)

/-- The fraction of a number: a point and at least one digit, or nothing. -/
def scanFraction : List Char → List Char × List Char
  | '.' :: cs =>
    if cs.takeWhile Char.isDigit = [] then ([], '.' :: cs)
    else ('.' :: cs.takeWhile Char.isDigit, cs.dropWhile Char.isDigit)
  | cs => ([], cs)

/-- A sign, or nothing. -/
def scanSign : List Char → List Char × List Char
  | '+' :: cs => (['+'], cs)
  | '-' :: cs => (['-'], cs)
  | cs => ([], cs)

/-- The exponent of a number: an `e`, perhaps a sign, and at least one digit, or nothing. -/
def scanExponent : List Char → List Char × List Char
  | e :: cs =>
    let (sign, rest) := scanSign cs
    if (e = 'e' ∨ e = 'E') ∧ rest.takeWhile Char.isDigit ≠ [] then
      (e :: sign ++ rest.takeWhile Char.isDigit, rest.dropWhile Char.isDigit)
    else ([], e :: cs)
  | [] => ([], [])

/-- A number without its sign: an integer, or a float. -/
def scanUnsigned (limits : Limits) (negative : Bool) (cs : List Char) : Except LoadsError (JsonValue × List Char) :=
  match scanDigits cs with
  | none => .error .decode
  | some (digits, rest) =>
    let (fraction, rest) := scanFraction rest
    let (exponent, rest) := scanExponent rest
    if fraction = [] ∧ exponent = [] then
      if limits.digits < digits.length then .error .digits
      else
        let n : ℤ := Nat.ofDigitChars 10 digits 0
        .ok (.int (if negative then -n else n), rest)
    else
      let literal := String.ofList (digits ++ fraction ++ exponent)
      .ok (.float (if negative then "-" ++ literal else literal), rest)

/-- A number. -/
def scanNumber (limits : Limits) : Scan JsonValue
  | '-' :: 'I' :: cs => scanWord ['-', 'I', 'n', 'f', 'i', 'n', 'i', 't', 'y'] (.float "-Infinity") ('-' :: 'I' :: cs)
  | '-' :: cs => scanUnsigned limits true cs
  | cs => scanUnsigned limits false cs

/-! ## Containers -/

/-- Elements with commas between them, from the first one on, and the character that closes the
list. -/
def scanList {α : Type} (element : Scan α) (close : Char) : ℕ → Scan (List α)
  | 0, _ => .error .decode
  | fuel + 1, cs => do
    let (a, rest) ← element cs
    match skipSpace rest with
    | [] => throw .decode
    | c :: rest =>
      if c = ',' then do
        let (as, rest) ← scanList element close fuel (skipSpace rest)
        return (a :: as, rest)
      else if c = close then return ([a], rest)
      else throw .decode

/-- One field of an object, and the text after it. -/
def scanField (value : Scan JsonValue) : Scan (CodePoints × JsonValue)
  | '"' :: cs => do
    let (key, rest) ← scanString cs
    match skipSpace rest with
    | ':' :: rest => do
      let (v, rest) ← value (skipSpace rest)
      return ((key, v), rest)
    | _ => throw .decode
  | _ => throw .decode

/-- A dictionary of pairs: a repeated key keeps its place and takes the last value. -/
def ofPairs (pairs : List (CodePoints × JsonValue)) : List (CodePoints × JsonValue) :=
  pairs.foldl (fun fields p => OrderedDict.setItems p.1 p.2 fields) []

/-- An array, after its opening bracket. -/
def scanArray (value : Scan JsonValue) (cs : List Char) :
    Except LoadsError (JsonValue × List Char) :=
  match skipSpace cs with
  | ']' :: rest => .ok (.arr [], rest)
  | cs => do
    let (items, rest) ← scanList value ']' cs.length cs
    return (.arr items, rest)

/-- An object, after its opening brace. -/
def scanObject (value : Scan JsonValue) (cs : List Char) :
    Except LoadsError (JsonValue × List Char) :=
  match skipSpace cs with
  | '}' :: rest => .ok (.obj [], rest)
  | cs => do
    let (fields, rest) ← scanList (scanField value) '}' cs.length cs
    return (.obj (ofPairs fields), rest)

/-- One value; `nested` reads the values inside it, unless the nesting has come to its limit. -/
def scanStep (limits : Limits) (nested : Option (Scan JsonValue)) :
    Scan JsonValue
  | [] => .error .decode
  | '"' :: cs => do
    let (s, rest) ← scanString cs
    return (.str s, rest)
  | '[' :: cs => nested.elim (.error .depth) fun value => scanArray value cs
  | '{' :: cs => nested.elim (.error .depth) fun value => scanObject value cs
  | 'n' :: cs => scanWord ['n', 'u', 'l', 'l'] .null ('n' :: cs)
  | 't' :: cs => scanWord ['t', 'r', 'u', 'e'] (.bool true) ('t' :: cs)
  | 'f' :: cs => scanWord ['f', 'a', 'l', 's', 'e'] (.bool false) ('f' :: cs)
  | 'N' :: cs => scanWord ['N', 'a', 'N'] (.float "NaN") ('N' :: cs)
  | 'I' :: cs => scanWord ['I', 'n', 'f', 'i', 'n', 'i', 't', 'y'] (.float "Infinity") ('I' :: cs)
  | cs => scanNumber limits cs

/-- One value, within a number of levels of nesting. -/
def scanValue (limits : Limits) : ℕ → Scan JsonValue
  | 0 => scanStep limits none
  | depth + 1 => scanStep limits (some (scanValue limits depth))

/-- Read a whole text. -/
def loads (limits : Limits) (text : String) : Except LoadsError JsonValue :=
  if text.toList.head? = some '\uFEFF' then .error .decode
  else do
    let (value, rest) ← scanValue limits limits.depth (skipSpace text.toList)
    if skipSpace rest = [] then return value else throw .decode

/-! ## Reading an object -/

/-- The code points of a text. -/
def codes (s : String) : CodePoints := s.toList.map Char.toNat

/-- A field of an object. -/
def lookup (key : String) (fields : List (CodePoints × JsonValue)) : Option JsonValue :=
  fields.lookup (codes key)

end JsonValue
