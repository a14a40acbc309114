import Windbreak.Config.Versioning
import Mathlib.Algebra.Order.Field.Power
import Mathlib.Data.Nat.Log
import Mathlib.Data.Rat.Cast.Order

/-!
# Loading a configuration

`load_config` builds a configuration from a parsed document by recursion over the schema: keys the
section does not know are refused, each field that is given is coerced to its type, the others
keep their defaults.

* `coerceValue` — the recursion, as the source runs it.
* `Builds` — what it means that a document gives a value: each leaf has its declared type, each
  key of the document is a field's, each absent field has its default.
* `Escapes` — the documents that raise something other than a `ConfigError`: the first offence,
  in the order the loader meets them, is one it does not catch.
-/

namespace Windbreak.Config

open DottedPath

/-! ## Parsed documents -/

/-- A finite float, as the decimal its `str` writes; no float needs more than seventeen digits. -/
structure ShortDecimal where
  coefficient : ℤ
  exponent : ℤ
  short : coefficient.natAbs < 10 ^ 17

/-- A float. -/
inductive PyFloat where
  | nan
  | infinite (negative : Bool)
  | finite (d : ShortDecimal)

/-- A scalar of a document; also what a mapping may have as a key. -/
inductive Scalar where
  | null
  | bool (b : Bool)
  | int (i : ℤ)
  | float (f : PyFloat)
  | str (s : Text)

/-- A parsed document. -/
inductive Yaml where
  | scalar (s : Scalar)
  | list (items : List Yaml)
  | mapping (entries : List (Scalar × Yaml))

/-- `type(value).__name__`. -/
def Yaml.typeName : Yaml → String
  | .scalar .null => "NoneType"
  | .scalar (.bool _) => "bool"
  | .scalar (.int _) => "int"
  | .scalar (.float _) => "float"
  | .scalar (.str _) => "str"
  | .list _ => "list"
  | .mapping _ => "dict"

/-- A scalar is the string `key`. -/
def Scalar.isKey (key : Text) : Scalar → Bool
  | .str s => decide (s = key)
  | _ => false

def Scalar.isStr : Scalar → Bool
  | .str _ => true
  | _ => false

/-- A boolean, an integer or a float: Python orders these among themselves. -/
def Scalar.isNumber : Scalar → Bool
  | .bool _ => true
  | .int _ => true
  | .float _ => true
  | _ => false

/-- A scalar has a text: an integer longer than the interpreter's limit has none. -/
def Scalar.writable (digits : ℕ) : Scalar → Bool
  | .int i => (Nat.toDigits 10 i.natAbs).length ≤ digits
  | _ => true

/-- The value a mapping has under a string key. -/
def lookup (key : String) : List (Scalar × Yaml) → Option Yaml
  | [] => none
  | (k, value) :: entries => if k.isKey (text key) then some value else lookup key entries

/-! ## Errors -/

/-- A `ConfigError`, by the message it is built with. -/
inductive ConfigError where
  /-- "configuration root must be a mapping" -/
  | nonMappingRoot
  /-- "path: expected ..., got ..." -/
  | typeMismatch (path expected got : String)
  /-- "unknown configuration key(s): ... - unknown keys are fatal per SPEC §16", the keys sorted -/
  | unknownKeys (path : String) (keys : List Scalar)
  /-- "path: bootstrap_confidence must be a finite number in [0, 1]" -/
  | notFinite (path : String)
  /-- "path: bootstrap_confidence must be representable as an exact ppm integer" -/
  | notExact (path : String)
  /-- "path: bootstrap_confidence must be between 0 and 1" -/
  | outOfRange (path : String)

/-- What the loader raises. -/
inductive Raised where
  | config (e : ConfigError)
  | typeError
  | overflowError
  | valueError

/-! ## Confidence -/

def ppmScale : ℤ := 1000000

/-- A decimal: a coefficient and a power of ten. -/
structure PyDecimal where
  coefficient : ℤ
  exponent : ℤ

/-- The nearest multiple of `d` to `n`, as a quotient; a tie goes to the even one. -/
def halfEven (n : ℤ) (d : ℕ) : ℤ :=
  let quotient := n.natAbs / d
  let remainder := n.natAbs % d
  n.sign * (if 2 * remainder < d ∨ (2 * remainder = d ∧ quotient % 2 = 0) then quotient
    else quotient + 1 : ℕ)

/-- The decimal context keeps twenty-eight digits of a result. -/
def PyDecimal.rounded (d : PyDecimal) : PyDecimal :=
  if d.coefficient.natAbs < 10 ^ 28 then d
  else
    let dropped := Nat.log 10 d.coefficient.natAbs - 27
    ⟨halfEven d.coefficient (10 ^ dropped), d.exponent + dropped⟩

/-- `Decimal(str(value)) * _PPM_SCALE`. -/
def PyDecimal.scaled (d : PyDecimal) : PyDecimal :=
  PyDecimal.rounded ⟨d.coefficient * ppmScale, d.exponent⟩

/-- `scaled == scaled.to_integral_value()`. -/
def PyDecimal.isIntegral (d : PyDecimal) : Bool :=
  0 ≤ d.exponent || d.coefficient % 10 ^ (-d.exponent).toNat = 0

/-- `int(scaled)`. -/
def PyDecimal.toInt (d : PyDecimal) : ℤ :=
  if 0 ≤ d.exponent then d.coefficient * 10 ^ d.exponent.toNat
  else d.coefficient.tdiv (10 ^ (-d.exponent).toNat)

/-- The confidence of a finite number. -/
def ppmOf (d : PyDecimal) (path : String) : Except Raised ℤ :=
  if ¬ d.scaled.isIntegral then .error (.config (.notExact path))
  else if ¬ (0 ≤ d.scaled.toInt ∧ d.scaled.toInt ≤ ppmScale) then
    .error (.config (.outOfRange path))
  else .ok d.scaled.toInt

/-- From here on an integer is too large for a float. -/
def floatLimit : ℕ := 2 ^ 1024 - 2 ^ 970

/-- `confidence_to_ppm`. `math.isfinite` converts an integer to a float first. -/
def confidenceToPpm (value : Yaml) (path : String) : Except Raised ℤ :=
  match value with
  | .scalar (.int i) =>
    if floatLimit ≤ i.natAbs then .error .overflowError else ppmOf ⟨i, 0⟩ path
  | .scalar (.float (.finite d)) => ppmOf ⟨d.coefficient, d.exponent⟩ path
  | .scalar (.float _) => .error (.config (.notFinite path))
  | _ => .error (.config (.typeMismatch path "a number in [0, 1]" value.typeName))

/-! ## Coercion -/

def typeMismatch {α : Type} (expected : String) (value : Yaml) (path : String) : Except Raised α :=
  .error (.config (.typeMismatch path expected value.typeName))

/-- The keys of a mapping that no field is read from. -/
def unknownKeys (fields : List (Field × Hint)) (entries : List (Scalar × Yaml)) : List Scalar :=
  (entries.map Prod.fst).filter fun key => !fields.any fun f => key.isKey (text f.1.yamlKey)

/-- Python can sort the keys: there is one, or all are strings, or all are numbers. -/
def sortable (keys : List Scalar) : Bool :=
  keys.length ≤ 1 || keys.all Scalar.isStr || keys.all Scalar.isNumber

/-- `_reject_unknown_keys`. At the root a key goes into the message as it is, elsewhere by its
text. -/
def rejectUnknownKeys (digits : ℕ) (fields : List (Field × Hint)) (entries : List (Scalar × Yaml))
    (path : String) : Except Raised Unit :=
  let unknown := unknownKeys fields entries
  if unknown.isEmpty then .ok ()
  else if ¬ sortable unknown then .error .typeError
  else if path = "" ∧ ¬ unknown.all Scalar.isStr then .error .typeError
  else if path ≠ "" ∧ ¬ unknown.all (Scalar.writable digits) then .error .valueError
  else .error (.config (.unknownKeys path unknown))

/-- The items of a list, each coerced under its index. -/
def coerceItems (coerce : Yaml → String → Except Raised Value) (path : String) :
    ℕ → List Yaml → Except Raised (List Value)
  | _, [] => .ok []
  | index, item :: items => do
    let value ← coerce item (join path (toString index))
    let others ← coerceItems coerce path (index + 1) items
    return value :: others

/-- `_coerce_field`, with the coercion to the field's type. -/
def coerceField (coerce : Yaml → String → Except Raised Value) (f : Field) (value : Yaml)
    (path : String) : Except Raised Value :=
  if f.converted then (confidenceToPpm value path).map integer else coerce value path

/-- A field of the dataclass as it is called: what was given, or the default. -/
def argument (given : List (String × Value)) (f : Field) : Except Raised Value :=
  match (given.lookup f.name).or f.default with
  | some value => .ok value
  | none => .error .typeError

/-- The dataclass called with the fields that were given. -/
def construct (given : List (String × Value)) :
    List (Field × Hint) → Except Raised (List (String × Value))
  | [] => .ok []
  | (f, _) :: fields => do
    let value ← argument given f
    let others ← construct given fields
    return (f.name, value) :: others

mutual

/-- `_coerce_value`. -/
def coerceValue (digits : ℕ) : Hint → Yaml → String → Except Raised Value
  | .bool, .scalar (.bool b), _ => .ok (boolean b)
  | .bool, value, path => typeMismatch "a boolean" value path
  | .int, .scalar (.int i), _ => .ok (integer i)
  | .int, value, path => typeMismatch "an integer" value path
  | .str, .scalar (.str s), _ => .ok (.leaf (.str s))
  | .str, value, path => typeMismatch "a string" value path
  | .optional _, .scalar .null, _ => .ok (.leaf .none)
  | .optional member, value, path => coerceValue digits member value path
  | .tuple element, .list items, path =>
    (coerceItems (fun item p => coerceValue digits element item p) path 0 items).map .list
  | .tuple _, value, path => typeMismatch "a list" value path
  | .dataclass fields, .mapping entries, path => do
    rejectUnknownKeys digits fields entries path
    let kwargs ← coerceFields digits fields entries path
    let values ← construct kwargs fields
    return .record values
  | .dataclass _, value, path => typeMismatch "a mapping" value path

/-- The fields a mapping gives, coerced in the order they are declared. -/
def coerceFields (digits : ℕ) : List (Field × Hint) → List (Scalar × Yaml) → String →
    Except Raised (List (String × Value))
  | [], _, _ => .ok []
  | (f, hint) :: fields, entries, path =>
    match lookup f.yamlKey entries with
    | none => coerceFields digits fields entries path
    | some value => do
      let coerced ← coerceField (fun v p => coerceValue digits hint v p) f value
        (join path f.yamlKey)
      let others ← coerceFields digits fields entries path
      return (f.name, coerced) :: others

end

attribute [local grind =] coerceItems construct coerceValue coerceFields

/-! ## What a document gives -/

/-- A document's value is a confidence of so many ppm. -/
def IsConfidence (value : Yaml) (ppm : ℤ) : Prop :=
  (0 ≤ ppm ∧ ppm ≤ ppmScale) ∧
    ((∃ i, value = .scalar (.int i) ∧ ppm = i * ppmScale) ∨
      ∃ d : ShortDecimal, value = .scalar (.float (.finite d)) ∧
        (ppm : ℚ) = d.coefficient * 10 ^ d.exponent * ppmScale)

/-- Every key of a mapping is one that a field is read from. -/
def KeysKnown (fields : List (Field × Hint)) (entries : List (Scalar × Yaml)) : Prop :=
  ∀ key ∈ entries.map Prod.fst, ∃ f ∈ fields, key = .str (text f.1.yamlKey)

/-- A field's value of the document gives a value of the field. -/
def BuildsField (builds : Yaml → Value → Prop) (f : Field) (given : Yaml) (value : Value) : Prop :=
  if f.converted then ∃ ppm, value = integer ppm ∧ IsConfidence given ppm else builds given value

mutual

/-- **A document gives a value of a type**: each leaf of its declared type, each key a field's, each
absent field at its default. -/
def Builds : Hint → Yaml → Value → Prop
  | .bool, given, value => ∃ b, given = .scalar (.bool b) ∧ value = boolean b
  | .int, given, value => ∃ i, given = .scalar (.int i) ∧ value = integer i
  | .str, given, value => ∃ s, given = .scalar (.str s) ∧ value = .leaf (.str s)
  | .optional member, given, value =>
    (given = .scalar .null ∧ value = .leaf .none) ∨
      (given ≠ .scalar .null ∧ Builds member given value)
  | .tuple element, given, value =>
    ∃ items values, given = .list items ∧ value = .list values ∧
      List.Forall₂ (fun item v => Builds element item v) items values
  | .dataclass fields, given, value =>
    ∃ entries values, given = .mapping entries ∧ value = .record values ∧
      KeysKnown fields entries ∧ BuildsFields fields entries values

def BuildsFields : List (Field × Hint) → List (Scalar × Yaml) → List (String × Value) → Prop
  | [], _, values => values = []
  | (f, hint) :: fields, entries, values =>
    ∃ value others, values = (f.name, value) :: others ∧
      ((∃ given, lookup f.yamlKey entries = some given ∧
          BuildsField (fun g v => Builds hint g v) f given value) ∨
        (lookup f.yamlKey entries = none ∧ f.default = some value)) ∧
      BuildsFields fields entries others

end

/-! ## What escapes -/

/-- Unknown keys that the message about them cannot be made of. -/
def Unspeakable (digits : ℕ) (fields : List (Field × Hint)) (entries : List (Scalar × Yaml))
    (path : String) : Prop :=
  unknownKeys fields entries ≠ [] ∧
    (sortable (unknownKeys fields entries) = false ∨
      (path = "" ∧ ∃ key ∈ unknownKeys fields entries, key.isStr = false) ∨
      (path ≠ "" ∧ ∃ key ∈ unknownKeys fields entries, key.writable digits = false))

/-- The field is given nothing it does not take. -/
def GivenBuilds (f : Field × Hint) (entries : List (Scalar × Yaml)) : Prop :=
  ∀ given, lookup f.1.yamlKey entries = some given →
    ∃ value, BuildsField (fun g v => Builds f.2 g v) f.1 given value

/-- A field's value escapes: an integer too large for a float where a confidence is read. -/
def EscapesField (escapes : Yaml → String → Prop) (f : Field) (given : Yaml) (path : String) :
    Prop :=
  if f.converted then ∃ i : ℤ, given = .scalar (.int i) ∧ floatLimit ≤ i.natAbs
  else escapes given path

mutual

/-- **The first offence escapes.** Before it the loader meets none: the items and fields ahead of it
are all right, and where a required field is missing so are all that are given. -/
def Escapes (digits : ℕ) : Hint → Yaml → String → Prop
  | .bool, _, _ => False
  | .int, _, _ => False
  | .str, _, _ => False
  | .optional member, given, path => given ≠ .scalar .null ∧ Escapes digits member given path
  | .tuple element, given, path =>
    ∃ before item after, given = .list (before ++ item :: after) ∧
      (∀ earlier ∈ before, ∃ value, Builds element earlier value) ∧
      Escapes digits element item (join path (toString before.length))
  | .dataclass fields, given, path =>
    ∃ entries, given = .mapping entries ∧
      (Unspeakable digits fields entries path ∨
        (KeysKnown fields entries ∧ EscapesFields digits fields entries path) ∨
        (KeysKnown fields entries ∧ (∀ f ∈ fields, GivenBuilds f entries) ∧
          ∃ f ∈ fields, lookup f.1.yamlKey entries = none ∧ f.1.default = none))

def EscapesFields (digits : ℕ) : List (Field × Hint) → List (Scalar × Yaml) → String → Prop
  | [], _, _ => False
  | (f, hint) :: fields, entries, path =>
    (∃ given, lookup f.yamlKey entries = some given ∧
        EscapesField (fun g p => Escapes digits hint g p) f given (join path f.yamlKey)) ∨
      (GivenBuilds (f, hint) entries ∧ EscapesFields digits fields entries path)

end

end Windbreak.Config
