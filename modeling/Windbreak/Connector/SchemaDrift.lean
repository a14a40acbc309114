import Windbreak.Core.Effects
import Windbreak.Core.JsonLoaded

/-!
# Schema drift

A payload is walked against the schema of its endpoint, object by object: the fields of an object
are looked at first, then those of the objects that its fields hold, in the schema's order.  A list
is looked through, a list inside a list is not.

* `SchemaValidator.findAnomaly` — the walk; `objectsUnder` lists the objects it comes by.
* `findAnomaly_eq` — it stops at the first of them that has an unknown field.
* **`validate_returns_iff`** — a payload passes when none has; otherwise the first is ledgered,
  once, and named in the halt.
-/

namespace Windbreak.SchemaDrift

/-- The fields of an object. -/
abbrev Mapping := List (CodePoints × JsonValue)

/-- A recognized shape.  A recognized field has a shape of its own, or any. -/
inductive ResponseSchema where
  | mk (key : String) (version : ℤ) (recognized : List (CodePoints × Option ResponseSchema))
    (cosmetic : List CodePoints)

namespace ResponseSchema

def key : ResponseSchema → String
  | .mk key _ _ _ => key

def version : ResponseSchema → ℤ
  | .mk _ version _ _ => version

def recognized : ResponseSchema → List (CodePoints × Option ResponseSchema)
  | .mk _ _ recognized _ => recognized

def cosmetic : ResponseSchema → List CodePoints
  | .mk _ _ _ cosmetic => cosmetic

/-- The fields that a schema does not know. -/
def offending (schema : ResponseSchema) (mapping : Mapping) : List CodePoints :=
  (mapping.map Prod.fst).filter fun name =>
    name ∉ schema.recognized.map Prod.fst ∧ name ∉ schema.cosmetic

end ResponseSchema

/-- One detected drift. -/
structure Anomaly where
  schemaKey : String
  version : ℤ
  fields : List CodePoints
  deriving DecidableEq, Repr

/-- The drift of an object itself. -/
def ownAnomaly (schema : ResponseSchema) (mapping : Mapping) : Option Anomaly :=
  if schema.offending mapping = [] then none
  else some ⟨schema.key, schema.version, schema.offending mapping⟩

/-! ## The walk -/

/-- A value that is not a list is looked at as a list of one. -/
def itemsOf : JsonValue → List JsonValue
  | .arr items => items
  | v => [v]

/-- The fields of an item; one that is no object carries no schema. -/
def asMapping? : JsonValue → Option Mapping
  | .obj fields => some fields
  | _ => none

/-- The first drift among the items of a value. -/
def recurseIntoValue (find : Mapping → Option Anomaly) (value : JsonValue) : Option Anomaly :=
  (itemsOf value).findSome? fun item => (asMapping? item).bind find

mutual

/-- The first drift of an object and of what its fields hold. -/
def findAnomaly : ResponseSchema → Mapping → Option Anomaly
  | .mk key version recognized cosmetic, mapping =>
    (ownAnomaly (.mk key version recognized cosmetic) mapping).or
      (firstChildAnomaly recognized mapping)

def firstChildAnomaly : List (CodePoints × Option ResponseSchema) → Mapping → Option Anomaly
  | [], _ => none
  | (_, none) :: rest, mapping => firstChildAnomaly rest mapping
  | (name, some child) :: rest, mapping =>
    ((mapping.lookup name).bind (recurseIntoValue (findAnomaly child))).or
      (firstChildAnomaly rest mapping)

end

/-- The objects that a field holds, itself or as items of its list. -/
def objectItems (value : Option JsonValue) : List Mapping :=
  (value.toList.flatMap itemsOf).filterMap asMapping?

mutual

/-- The objects that the walk comes by, each with its schema: parents before children. -/
def objectsUnder : ResponseSchema → Mapping → List (ResponseSchema × Mapping)
  | .mk key version recognized cosmetic, mapping =>
    (.mk key version recognized cosmetic, mapping) :: objectsBelow recognized mapping

def objectsBelow : List (CodePoints × Option ResponseSchema) → Mapping →
    List (ResponseSchema × Mapping)
  | [], _ => []
  | (_, none) :: rest, mapping => objectsBelow rest mapping
  | (name, some child) :: rest, mapping =>
    (objectItems (mapping.lookup name)).flatMap (objectsUnder child) ++ objectsBelow rest mapping

end

/-! ## The first offending object -/

/-- A search through the parts of every element is a search through them all. -/
theorem findSome?_flatMap {α β γ : Type} (f : α → List β) (g : β → Option γ) (xs : List α) :
    (xs.flatMap f).findSome? g = xs.findSome? fun x => (f x).findSome? g := by
  induction xs with
  | nil => rfl
  | cons x xs ih =>
      rw [List.flatMap_cons, List.findSome?_append, ih, List.findSome?_cons]
      cases (f x).findSome? g with
      | none => rfl
      | some c => rfl

/-- A search through what a field holds is a search through its objects. -/
theorem recurseIntoValue_eq (find : Mapping → Option Anomaly) (value : Option JsonValue) :
    value.bind (recurseIntoValue find) = (objectItems value).findSome? find := by
  cases value with
  | none => rfl
  | some v =>
      have hitems : ∀ items : List JsonValue,
          items.findSome? (fun item => (asMapping? item).bind find) =
            (items.filterMap asMapping?).findSome? find := by
        intro items
        induction items with
        | nil => rfl
        | cons item items ih =>
            rw [List.findSome?_cons, ih]
            cases hitem : asMapping? item with
            | none => rw [List.filterMap_cons_none hitem, Option.bind_none]
            | some fields =>
                rw [List.filterMap_cons_some hitem, Option.bind_some, List.findSome?_cons]
      rw [objectItems, Option.toList_some, List.flatMap_singleton, Option.bind_some,
        recurseIntoValue, hitems]

mutual

/-- **The walk stops at the first object** that has an unknown field. -/
theorem findAnomaly_eq (schema : ResponseSchema) (mapping : Mapping) :
    findAnomaly schema mapping =
      (objectsUnder schema mapping).findSome? fun o => ownAnomaly o.1 o.2 := by
  cases schema with
  | mk key version recognized cosmetic =>
      rw [findAnomaly, objectsUnder, List.findSome?_cons, firstChildAnomaly_eq recognized mapping]
      cases ownAnomaly (.mk key version recognized cosmetic) mapping with
      | none => rfl
      | some anomaly => rfl

theorem firstChildAnomaly_eq (recognized : List (CodePoints × Option ResponseSchema))
    (mapping : Mapping) :
    firstChildAnomaly recognized mapping =
      (objectsBelow recognized mapping).findSome? fun o => ownAnomaly o.1 o.2 := by
  match recognized with
  | [] => rfl
  | (_, none) :: rest => rw [firstChildAnomaly, objectsBelow, firstChildAnomaly_eq rest mapping]
  | (name, some child) :: rest =>
      have hchild : findAnomaly child = fun fields =>
          (objectsUnder child fields).findSome? fun o => ownAnomaly o.1 o.2 :=
        funext fun fields => findAnomaly_eq child fields
      rw [firstChildAnomaly, objectsBelow, List.findSome?_append, findSome?_flatMap,
        recurseIntoValue_eq, hchild, firstChildAnomaly_eq rest mapping]

end

/-! ## Which objects are walked -/

/-- How a field holds an object: itself, or as an item of its list. -/
inductive Held : JsonValue → Mapping → Prop
  | itself (fields : Mapping) : Held (.obj fields) fields
  | item {items : List JsonValue} {fields : Mapping} (h : .obj fields ∈ items) :
      Held (.arr items) fields

/-- How a field holds an object at any nesting of lists. -/
inductive HeldDeep : JsonValue → Mapping → Prop
  | itself (fields : Mapping) : HeldDeep (.obj fields) fields
  | item {items : List JsonValue} {v : JsonValue} {fields : Mapping} (hv : v ∈ items)
      (h : HeldDeep v fields) : HeldDeep (.arr items) fields

/-- **An object under a schema**: the payload itself, or one under a field that has a schema. -/
inductive Under (holds : JsonValue → Mapping → Prop) :
    ResponseSchema → Mapping → ResponseSchema → Mapping → Prop
  | top (schema : ResponseSchema) (mapping : Mapping) : Under holds schema mapping schema mapping
  | field {schema child schema' : ResponseSchema} {mapping fields mapping' : Mapping}
      {name : CodePoints} {value : JsonValue} (hchild : (name, some child) ∈ schema.recognized)
      (hvalue : mapping.lookup name = some value) (hheld : holds value fields)
      (h : Under holds child fields schema' mapping') :
      Under holds schema mapping schema' mapping'

/-- An object that a schema knows every field of. -/
def Clean (schema : ResponseSchema) (mapping : Mapping) : Prop :=
  ∀ name ∈ mapping.map Prod.fst, name ∈ schema.recognized.map Prod.fst ∨ name ∈ schema.cosmetic

theorem ResponseSchema.offending_eq_nil_iff {schema : ResponseSchema} {mapping : Mapping} :
    schema.offending mapping = [] ↔ Clean schema mapping := by
  rw [ResponseSchema.offending, List.filter_eq_nil_iff]
  refine forall₂_congr fun name _ => ?_
  rw [decide_eq_true_iff, not_and_or, not_not, not_not]

theorem ownAnomaly_eq_none_iff {schema : ResponseSchema} {mapping : Mapping} :
    ownAnomaly schema mapping = none ↔ Clean schema mapping := by
  rw [← ResponseSchema.offending_eq_nil_iff, ownAnomaly]
  by_cases hempty : schema.offending mapping = []
  · exact iff_of_true (if_pos hempty) hempty
  · rw [if_neg hempty]
    exact iff_of_false (Option.some_ne_none _) hempty

theorem mem_objectItems {value : JsonValue} {fields : Mapping} :
    fields ∈ objectItems (some value) ↔ Held value fields := by
  have hmapping : ∀ item, asMapping? item = some fields ↔ item = .obj fields := by
    intro item
    cases item with
    | obj fields' => exact ⟨fun h => congrArg _ (Option.some.inj h), fun h => by cases h; rfl⟩
    | _ => exact iff_of_false (fun h => by cases h) fun h => by cases h
  rw [objectItems, Option.toList_some, List.flatMap_singleton, List.mem_filterMap]
  constructor
  · rintro ⟨item, hitem, hfields⟩
    obtain rfl := (hmapping item).mp hfields
    cases value with
    | arr items => exact .item hitem
    | obj fields' =>
        cases List.mem_singleton.mp hitem
        exact .itself fields
    | _ => cases List.mem_singleton.mp hitem
  · rintro (_ | ⟨hitem⟩)
    · exact ⟨.obj fields, List.mem_singleton_self _, rfl⟩
    · exact ⟨.obj fields, hitem, rfl⟩

mutual

/-- **The walk comes by** exactly the objects under the schema. -/
theorem mem_objectsUnder {schema schema' : ResponseSchema} {mapping mapping' : Mapping} :
    (schema', mapping') ∈ objectsUnder schema mapping ↔
      Under Held schema mapping schema' mapping' := by
  cases schema with
  | mk key version recognized cosmetic =>
      rw [objectsUnder, List.mem_cons, mem_objectsBelow]
      constructor
      · rintro (heq | ⟨name, child, value, fields, hchild, hvalue, hheld, h⟩)
        · cases heq
          exact .top _ _
        · exact .field hchild hvalue hheld h
      · intro h
        cases h with
        | top => exact Or.inl rfl
        | field hchild hvalue hheld h => exact Or.inr ⟨_, _, _, _, hchild, hvalue, hheld, h⟩

theorem mem_objectsBelow {recognized : List (CodePoints × Option ResponseSchema)}
    {schema' : ResponseSchema} {mapping mapping' : Mapping} :
    (schema', mapping') ∈ objectsBelow recognized mapping ↔ ∃ name child value fields,
      (name, some child) ∈ recognized ∧ mapping.lookup name = some value ∧ Held value fields ∧
        Under Held child fields schema' mapping' := by
  match recognized with
  | [] =>
      exact iff_of_false List.not_mem_nil fun ⟨_, _, _, _, hchild, _⟩ => List.not_mem_nil hchild
  | (name, none) :: rest =>
      rw [objectsBelow, mem_objectsBelow]
      constructor
      · rintro ⟨name', child, value, fields, hchild, h⟩
        exact ⟨name', child, value, fields, List.mem_cons_of_mem _ hchild, h⟩
      · rintro ⟨name', child, value, fields, hchild, h⟩
        rcases List.mem_cons.mp hchild with heq | hrest
        · cases heq
        · exact ⟨name', child, value, fields, hrest, h⟩
  | (name, some child) :: rest =>
      rw [objectsBelow, List.mem_append, mem_objectsBelow, List.mem_flatMap]
      constructor
      · rintro (⟨fields, hfields, h⟩ | ⟨name', child', value, fields, hchild, h⟩)
        · cases hvalue : mapping.lookup name with
          | none =>
              rw [hvalue] at hfields
              exact absurd hfields List.not_mem_nil
          | some value =>
              rw [hvalue] at hfields
              exact ⟨name, child, value, fields, List.mem_cons_self .., hvalue,
                mem_objectItems.mp hfields, mem_objectsUnder.mp h⟩
        · exact ⟨name', child', value, fields, List.mem_cons_of_mem _ hchild, h⟩
      · rintro ⟨name', child', value, fields, hchild, hvalue, hheld, h⟩
        rcases List.mem_cons.mp hchild with heq | hrest
        · cases heq
          rw [hvalue]
          exact Or.inl ⟨fields, mem_objectItems.mpr hheld, mem_objectsUnder.mpr h⟩
        · exact Or.inr ⟨name', child', value, fields, hrest, hvalue, hheld, h⟩

end

/-! ## The validator -/

/-- A pattern of segments; a star stands for any one of them. -/
def patternMatches (pattern segments : List String) : Bool :=
  pattern.length = segments.length &&
    (pattern.zip segments).all fun pair => pair.1 = "*" || pair.1 = pair.2

/-- The schema of an endpoint: that of the first pattern that matches. -/
def schemaFor (registry : List (List String × ResponseSchema)) (segments : List String) :
    Option ResponseSchema :=
  (registry.find? fun entry => patternMatches entry.1 segments).map Prod.snd

/-- The recorded drift; the moment is rendered as the ledger's text. -/
structure SchemaAnomalyEvent where
  schemaKey : String
  version : ℤ
  fields : List CodePoints
  rawExchangePayloadHash : String
  moment : ℤ
  deriving DecidableEq, Repr

/-- What is raised: the halt, or what stops the payload from being written as text. -/
inductive ValidateError where
  | schemaAnomalyHalt (schemaKey : String) (version : ℤ) (fields : List CodePoints)
  | unserialisable
  deriving DecidableEq, Repr

/-- The events that were attempted, and the ledger behind the writer. -/
structure Audit (σ : Type) where
  attempts : List SchemaAnomalyEvent
  ledger : σ

/-- The seams of a validator, and what it runs on. -/
structure SchemaValidator (σ ε : Type) where
  registry : List (List String × ResponseSchema)
  /-- The ledger's writer, which may raise. -/
  record : SchemaAnomalyEvent → EStateM ε σ Unit
  wallClock : ℤ
  sha256 : List UInt8 → String
  floatRepr : String → String
  limits : JsonValue.Limits

namespace SchemaValidator

variable {σ ε : Type} (validator : SchemaValidator σ ε)

/-- The fingerprint of a payload. -/
def payloadFingerprint (payload : Mapping) : Except ValidateError String :=
  if (JsonValue.obj payload).writable validator.limits validator.limits.depth then
    .ok (validator.sha256 (String.ofList
      ((JsonValue.obj payload).mapFloats validator.floatRepr).dumps).toUTF8.data.toList)
  else .error .unserialisable

/-- Record an event.  What the writer raises is logged and goes no further. -/
def attempt (event : SchemaAnomalyEvent) : EStateM ValidateError (Audit σ) Unit := fun audit =>
  match (validator.record event).run audit.ledger with
  | .ok _ ledger => .ok () ⟨audit.attempts ++ [event], ledger⟩
  | .error _ ledger => .ok () ⟨audit.attempts ++ [event], ledger⟩

def ledgerAnomaly (anomaly : Anomaly) (payload : Mapping) :
    EStateM ValidateError (Audit σ) Unit := do
  match validator.payloadFingerprint payload with
  | .error e => throw e
  | .ok hash =>
    validator.attempt
      ⟨anomaly.schemaKey, anomaly.version, anomaly.fields, hash, validator.wallClock⟩

/-- Validate a payload; an endpoint without a schema halts without an event. -/
def validate (segments : List String) (payload : Mapping) :
    EStateM ValidateError (Audit σ) Unit := do
  match schemaFor validator.registry segments with
  | none => throw (.schemaAnomalyHalt ("/".intercalate segments) 0 [])
  | some schema =>
    match findAnomaly schema payload with
    | none => return ()
    | some anomaly =>
      validator.ledgerAnomaly anomaly payload
      throw (.schemaAnomalyHalt anomaly.schemaKey anomaly.version anomaly.fields)

/-! ## What a validation does -/

/-- **An attempt** is made once, and does not raise. -/
theorem attempt_run (event : SchemaAnomalyEvent) (audit : Audit σ) :
    ∃ ledger, (validator.attempt event).run audit = .ok () ⟨audit.attempts ++ [event], ledger⟩ := by
  rw [EStateM.run, attempt]
  cases (validator.record event).run audit.ledger with
  | ok _ ledger => exact ⟨ledger, rfl⟩
  | error _ ledger => exact ⟨ledger, rfl⟩

/-- A payload that was read has a fingerprint. -/
theorem payloadFingerprint_ok {payload : Mapping}
    (hloaded : JsonValue.Loaded validator.limits validator.limits.depth (.obj payload)) :
    ∃ hash, validator.payloadFingerprint payload = .ok hash := by
  rw [payloadFingerprint, if_pos hloaded.writable]
  exact ⟨_, rfl⟩

/-- A payload without a drift passes, and nothing is recorded. -/
theorem validate_of_none {segments : List String} {schema : ResponseSchema}
    (hschema : schemaFor validator.registry segments = some schema) {payload : Mapping}
    (hnone : findAnomaly schema payload = none) (audit : Audit σ) :
    (validator.validate segments payload).run audit = .ok () audit := by
  rw [validate, hschema]
  dsimp only
  rw [hnone]
  rfl

/-- **A drift halts**, after one attempt to record it. -/
theorem validate_of_some {segments : List String} {schema : ResponseSchema}
    (hschema : schemaFor validator.registry segments = some schema) {payload : Mapping}
    (hloaded : JsonValue.Loaded validator.limits validator.limits.depth (.obj payload))
    {anomaly : Anomaly} (hsome : findAnomaly schema payload = some anomaly) (audit : Audit σ) :
    ∃ hash ledger, (validator.validate segments payload).run audit =
      .error (.schemaAnomalyHalt anomaly.schemaKey anomaly.version anomaly.fields)
        ⟨audit.attempts ++ [⟨anomaly.schemaKey, anomaly.version, anomaly.fields, hash,
          validator.wallClock⟩], ledger⟩ := by
  obtain ⟨hash, hhash⟩ := validator.payloadFingerprint_ok hloaded
  obtain ⟨ledger, hattempt⟩ := validator.attempt_run
    ⟨anomaly.schemaKey, anomaly.version, anomaly.fields, hash, validator.wallClock⟩ audit
  refine ⟨hash, ledger, ?_⟩
  rw [validate, hschema]
  dsimp only
  rw [hsome]
  dsimp only
  rw [EStateM.run_bind, ledgerAnomaly, hhash]
  dsimp only
  rw [hattempt]
  rfl

/-- **A payload passes exactly when** every object under its schema is known field by field;
otherwise the first that is not, parents before children, is named in the halt, after one attempt to
record it. -/
theorem validate_returns_iff (segments : List String) (schema : ResponseSchema)
    (hschema : schemaFor validator.registry segments = some schema) (payload : Mapping)
    (hloaded : JsonValue.Loaded validator.limits validator.limits.depth (.obj payload))
    (audit : Audit σ) :
    ((validator.validate segments payload).run audit = .ok () audit ↔
      ∀ schema' mapping, Under Held schema payload schema' mapping → Clean schema' mapping) ∧
    ((validator.validate segments payload).run audit ≠ .ok () audit →
      ∃ before schema' mapping after hash ledger,
        objectsUnder schema payload = before ++ (schema', mapping) :: after ∧
        (∀ o ∈ before, Clean o.1 o.2) ∧ ¬Clean schema' mapping ∧
        (validator.validate segments payload).run audit =
          .error (.schemaAnomalyHalt schema'.key schema'.version (schema'.offending mapping))
            ⟨audit.attempts ++ [⟨schema'.key, schema'.version, schema'.offending mapping, hash,
              validator.wallClock⟩], ledger⟩) := by
  have hclean : findAnomaly schema payload = none ↔
      ∀ schema' mapping, Under Held schema payload schema' mapping → Clean schema' mapping := by
    rw [findAnomaly_eq, List.findSome?_eq_none_iff]
    constructor
    · intro h schema' mapping hunder
      exact ownAnomaly_eq_none_iff.mp (h _ (mem_objectsUnder.mpr hunder))
    · rintro h ⟨schema', mapping⟩ hmem
      exact ownAnomaly_eq_none_iff.mpr (h _ _ (mem_objectsUnder.mp hmem))
  cases hfound : findAnomaly schema payload with
  | none =>
      have hpasses := validator.validate_of_none hschema hfound audit
      exact ⟨iff_of_true hpasses (hclean.mp hfound), fun hne => absurd hpasses hne⟩
  | some anomaly =>
      obtain ⟨hash, ledger, hhalts⟩ := validator.validate_of_some hschema hloaded hfound audit
      refine ⟨iff_of_false (fun h => ?_) fun h => ?_, fun _ => ?_⟩
      · cases hhalts.symm.trans h
      · cases hfound.symm.trans (hclean.mpr h)
      · rw [findAnomaly_eq, List.findSome?_eq_some_iff] at hfound
        obtain ⟨before, ⟨schema', mapping⟩, after, hsplit, hown, hbefore⟩ := hfound
        have hdirty : schema'.offending mapping ≠ [] := fun h => by
          rw [ownAnomaly, if_pos h] at hown
          cases hown
        rw [ownAnomaly, if_neg hdirty] at hown
        obtain rfl := Option.some.inj hown
        refine ⟨before, schema', mapping, after, hash, ledger, hsplit,
          fun o ho => ownAnomaly_eq_none_iff.mp (hbefore o ho), fun h => ?_, hhalts⟩
        exact hdirty (ResponseSchema.offending_eq_nil_iff.mpr h)

end SchemaValidator

/-! ## A list inside a list -/

/-- A schema of one field, whose objects have no field at all. -/
def nestedSchema : ResponseSchema :=
  .mk "outer" 1 [(JsonValue.codes "f", some (.mk "inner" 1 [] []))] []

/-- A payload with an unknown field two lists down. -/
def nestedPayload (items : List JsonValue) : Mapping := [(JsonValue.codes "f", .arr items)]

/-- An object with an unknown field. -/
def strayObject : JsonValue := .obj [(JsonValue.codes "g", .null)]

/-- A validator of that schema, whose writer raises. -/
def strictValidator : SchemaValidator Unit Unit where
  registry := [(["markets", "*"], nestedSchema)]
  record := fun _ => throw ()
  wallClock := 0
  sha256 := fun _ => "hash"
  floatRepr := id
  limits := ⟨4300, 1000⟩

/-- The stray object has a field that its schema does not know. -/
theorem strayObject_not_clean : ¬Clean (.mk "inner" 1 [] []) [(JsonValue.codes "g", .null)] := by
  intro h
  rcases h (JsonValue.codes "g") (List.mem_cons_self ..) with hname | hname
  · cases hname
  · cases hname

/-- An object of one field, named by a letter. -/
theorem loaded_single {limits : JsonValue.Limits} {depth n : ℕ} (hn : n < 128) {v : JsonValue}
    (hv : JsonValue.Loaded limits depth v) :
    JsonValue.Loaded limits (depth + 1) (.obj [([n], v)]) := by
  have hletter : JsonValue.Sound [n] := by
    refine ⟨fun m hm => ?_, List.isChain_singleton _⟩
    obtain rfl := List.mem_singleton.mp hm
    omega
  exact .obj depth _ (List.nodup_singleton _) (List.forall_mem_singleton.mpr hletter)
    (List.forall_mem_singleton.mpr hv)

theorem nestedPayload_loaded :
    JsonValue.Loaded ⟨4300, 1000⟩ 1000 (.obj (nestedPayload [strayObject])) := by
  have hstray : JsonValue.Loaded ⟨4300, 1000⟩ 998 strayObject := loaded_single (by decide) (.null _)
  exact loaded_single (by decide) (.arr _ _ (List.forall_mem_singleton.mpr hstray))

theorem validate_returns_iff_stray :
    (strictValidator.validate ["markets", "RAIN"] (nestedPayload [strayObject])).run ⟨[], ()⟩ ≠
      .ok () ⟨[], ()⟩ := by
  intro h
  have hall := (strictValidator.validate_returns_iff ["markets", "RAIN"] nestedSchema rfl
    (nestedPayload [strayObject]) nestedPayload_loaded ⟨[], ()⟩).1.mp h
  exact strayObject_not_clean (hall _ _
    (.field (List.mem_cons_self ..) rfl (.item (List.mem_cons_self ..)) (.top _ _)))

/-- **A list inside a list is not walked**: an unknown field passes there. -/
theorem nested_list_passes :
    (strictValidator.validate ["markets", "RAIN"] (nestedPayload [.arr [strayObject]])).run
        ⟨[], ()⟩ = .ok () ⟨[], ()⟩ ∧
      ¬∀ schema' mapping,
        Under HeldDeep nestedSchema (nestedPayload [.arr [strayObject]]) schema' mapping →
          Clean schema' mapping := by
  refine ⟨rfl, fun h => strayObject_not_clean (h _ _ ?_)⟩
  exact .field (List.mem_cons_self ..) rfl
    (.item (List.mem_cons_self ..) (.item (List.mem_cons_self ..) (.itself _))) (.top _ _)

end Windbreak.SchemaDrift
