import Windbreak.Config.Coercion

/-!
# The loader as a whole

* `typed_of_builds` — what a document gives has its declared type.
* `loadConfig` — from the parsed document to the configuration, and to the recorder's events.
* `escaping_loadConfig` — what escapes it.
* **`load_config_contained_iff`** — a document is loaded or refused unless its first offence
  escapes.
-/

namespace Windbreak.Config

/-! ## The types of what is built -/

/-- An integer has a type whatever integer it is. -/
theorem typed_integer (hint : Hint) (i j : ℤ) :
    typed hint (integer i) = typed hint (integer j) := by
  induction hint using leafType.induct with
  | case1 => rfl
  | case2 => rfl
  | case3 => rfl
  | case4 member ih => exact ih
  | case5 element => rfl
  | case6 fields => rfl

mutual

/-- **What a document gives has its declared type.** -/
theorem typed_of_builds {hint : Hint} (h : defaultsTyped hint = true) {given : Yaml} {value : Value}
    (hbuilds : Builds hint given value) : typed hint value = true := by
  cases hint with
  | bool =>
      obtain ⟨b, -, rfl⟩ := hbuilds
      rfl
  | int =>
      obtain ⟨i, -, rfl⟩ := hbuilds
      rfl
  | str =>
      obtain ⟨s, -, rfl⟩ := hbuilds
      rfl
  | optional member =>
      rcases hbuilds with ⟨-, rfl⟩ | ⟨-, hmember⟩
      · rfl
      · have hdefaults : defaultsTyped member = true := h
        exact typed_optional.mpr (.inr (typed_of_builds hdefaults hmember))
  | tuple element =>
      obtain ⟨items, values, -, rfl, hitems⟩ := hbuilds
      have hdefaults : defaultsTyped element = true := h
      have hone : ∀ item value, Builds element item value → typed element value = true :=
        fun _ _ hitem => typed_of_builds hdefaults hitem
      refine typed_tuple.mpr ⟨values, rfl, fun value hvalue => ?_⟩
      obtain ⟨item, -, hitem⟩ := exists_of_forall₂ hitems.flip hvalue
      exact hone item value hitem
  | dataclass fields =>
      obtain ⟨entries, values, -, rfl, -, hfields⟩ := hbuilds
      exact typedFields_of_builds h hfields

theorem typedFields_of_builds {fields : List (Field × Hint)} (h : defaultsTypedFields fields = true)
    {entries : List (Scalar × Yaml)} {values : List (String × Value)}
    (hbuilds : BuildsFields fields entries values) : typedFields fields values = true := by
  cases fields with
  | nil => exact typedFields_nil.mpr hbuilds
  | cons f fields =>
      obtain ⟨f, hint⟩ := f
      obtain ⟨value, others, rfl, hvalue, hothers⟩ := hbuilds
      rw [defaultsTypedFields, Bool.and_eq_true, Bool.and_eq_true, Bool.and_eq_true] at h
      obtain ⟨⟨⟨hdefault, hconverted⟩, hhint⟩, hrest⟩ := h
      refine typedFields_cons.mpr ⟨value, others, rfl, ?_, typedFields_of_builds hrest hothers⟩
      rcases hvalue with ⟨given, -, hgiven⟩ | ⟨-, hsome⟩
      · unfold BuildsField at hgiven
        split_ifs at hgiven with hconvert
        · obtain ⟨ppm, rfl, -⟩ := hgiven
          rw [hconvert, Bool.not_true, Bool.false_or, typed_integer hint 0 ppm] at hconverted
          exact hconverted
        · exact typed_of_builds hhint hgiven
      · rw [hsome] at hdefault
        exact hdefault

end

/-! ## The loader -/

/-- A configuration load as the in-memory recorder keeps it. -/
structure ConfigLoadEvent where
  configHash : String
  diff : ConfigDiff
  source : String

/-- `_parse_mapping`, from the parsed document on. -/
def parseMapping : Yaml → Except Raised (List (Scalar × Yaml))
  | .mapping entries => .ok entries
  | _ => .error (.config .nonMappingRoot)

/-- `_build` at the root. -/
def buildConfig (digits : ℕ) (raw : List (Scalar × Yaml)) : Except Raised WindbreakConfig :=
  match h : coerceValue digits windbreakConfig (.mapping raw) "" with
  | .error e => .error e
  | .ok value =>
    .ok ⟨value, typed_of_builds defaults_typed
      ((coerceValue_ok_iff digits windbreakConfig_faithful _ _ _).mp h)⟩

/-- `_record`. -/
def record (sha256 : List Char → String) (digits : ℕ) (config : WindbreakConfig) (source : String) :
    Option (List ConfigLoadEvent) → Except Raised (Option (List ConfigLoadEvent))
  | none => .ok none
  | some events =>
    match configHash sha256 digits config with
    | none => .error .valueError
    | some hash => .ok (some (events ++ [⟨hash, diffConfigs defaultConfig config, source⟩]))

/-- `load_config`, from the parsed document on: the configuration, and the recorder's events. -/
def loadConfig (sha256 : List Char → String) (digits : ℕ) (recorder : Option (List ConfigLoadEvent))
    (source : String) (parsed : Yaml) :
    Except Raised (WindbreakConfig × Option (List ConfigLoadEvent)) := do
  let raw ← parseMapping parsed
  let config ← buildConfig digits raw
  let events ← record sha256 digits config source recorder
  return (config, events)

/-- A configuration is built of the value that is coerced. -/
theorem buildConfig_value (digits : ℕ) (raw : List (Scalar × Yaml)) :
    (buildConfig digits raw).map WindbreakConfig.value =
      coerceValue digits windbreakConfig (.mapping raw) "" := by
  unfold buildConfig
  split
  · rename_i e h
    exact h.symm
  · rename_i value h
    exact h.symm

theorem buildConfig_ok_iff {digits : ℕ} {raw : List (Scalar × Yaml)} {config : WindbreakConfig} :
    buildConfig digits raw = .ok config ↔ Builds windbreakConfig (.mapping raw) config.value := by
  rw [← coerceValue_ok_iff digits windbreakConfig_faithful _ "", ← buildConfig_value]
  cases buildConfig digits raw with
  | error e => exact iff_of_false (fun hok => by cases hok) fun hok => by cases hok
  | ok built =>
      constructor
      · intro hok
        cases hok
        rfl
      · exact fun hok => congrArg Except.ok (WindbreakConfig.ext (Except.ok.inj hok))

theorem escaping_buildConfig {digits : ℕ} {raw : List (Scalar × Yaml)} :
    Escaping (buildConfig digits raw) ↔ Escapes digits windbreakConfig (.mapping raw) "" := by
  rw [← coerceValue_escapes_iff digits windbreakConfig_faithful, ← buildConfig_value, escaping_map]

/-- A recorder gets no hash of a configuration with an integer too long to write. -/
theorem escaping_record {sha256 : List Char → String} {digits : ℕ} {config : WindbreakConfig}
    {source : String} {recorder : Option (List ConfigLoadEvent)} :
    Escaping (record sha256 digits config source recorder) ↔
      recorder.isSome = true ∧
        ∃ entry ∈ DataTree.leaves config.value, entry.2.writable digits = false := by
  cases recorder with
  | none => exact iff_of_false (not_escaping_ok _) fun h => by cases h.1
  | some events =>
      have hwritable : (flatten config).values.all (Leaf.writable digits) =
          (DataTree.leaves config.value).all fun entry => entry.2.writable digits := by
        unfold OrderedDict.values
        rw [flatten_items, List.map_map, List.all_map]
        rfl
      rw [record, configHash, canonicalJson, hwritable]
      split_ifs with hall
      · refine iff_of_false (not_escaping_ok _) ?_
        rintro ⟨-, entry, hentry, hlong⟩
        have hshort := List.all_eq_true.mp hall entry hentry
        rw [hlong] at hshort
        cases hshort
      · refine iff_of_true ⟨.valueError, rfl, fun c h => by cases h⟩ ⟨rfl, ?_⟩
        rw [List.all_eq_true] at hall
        push Not at hall
        obtain ⟨entry, hentry, hlong⟩ := hall
        exact ⟨entry, hentry, Bool.eq_false_iff.mpr hlong⟩

/-- What does not escape is a result or a `ConfigError`. -/
theorem not_escaping_iff {α : Type} {x : Except Raised α} :
    ¬ Escaping x ↔ (∃ a, x = .ok a) ∨ ∃ c, x = .error (.config c) := by
  cases x with
  | ok a => exact iff_of_true (not_escaping_ok a) (.inl ⟨a, rfl⟩)
  | error e =>
      constructor
      · intro h
        by_contra hnot
        refine h ⟨e, rfl, fun c hc => hnot (.inr ⟨c, by rw [hc]⟩)⟩
      · rintro (⟨a, h⟩ | ⟨c, h⟩)
        · cases h
        · cases h
          exact not_escaping_config c

/-- **What escapes the whole loader.** -/
theorem escaping_loadConfig {sha256 : List Char → String} {digits : ℕ}
    {recorder : Option (List ConfigLoadEvent)} {source : String} {parsed : Yaml} :
    Escaping (loadConfig sha256 digits recorder source parsed) ↔
      Escapes digits windbreakConfig parsed "" ∨
        (recorder.isSome = true ∧ ∃ config : WindbreakConfig,
          Builds windbreakConfig parsed config.value ∧
            ∃ entry ∈ DataTree.leaves config.value, entry.2.writable digits = false) := by
  unfold loadConfig
  by_cases hmapping : ∃ raw, parsed = .mapping raw
  · obtain ⟨raw, rfl⟩ := hmapping
    rw [escaping_bind]
    constructor
    · rintro (hroot | ⟨raw', hraw, hrest⟩)
      · exact absurd hroot (not_escaping_ok _)
      · cases hraw
        rcases escaping_bind.mp hrest with hbuild | ⟨config, hconfig, hrecord⟩
        · exact .inl (escaping_buildConfig.mp hbuild)
        · rcases escaping_bind.mp hrecord with hhash | ⟨events, -, hreturn⟩
          · obtain ⟨hsome, hlong⟩ := escaping_record.mp hhash
            exact .inr ⟨hsome, config, buildConfig_ok_iff.mp hconfig, hlong⟩
          · exact absurd hreturn (not_escaping_ok _)
    · rintro (hescapes | ⟨hsome, config, hbuilds, hlong⟩)
      · exact .inr ⟨raw, rfl, escaping_bind.mpr (.inl (escaping_buildConfig.mpr hescapes))⟩
      · exact .inr ⟨raw, rfl, escaping_bind.mpr (.inr ⟨config, buildConfig_ok_iff.mpr hbuilds,
          escaping_bind.mpr (.inl (escaping_record.mpr ⟨hsome, hlong⟩))⟩)⟩
  · have hroot : parseMapping parsed = .error (.config .nonMappingRoot) := by
      cases parsed with
      | scalar s => rfl
      | list items => rfl
      | mapping raw => exact absurd ⟨raw, rfl⟩ hmapping
    rw [hroot]
    refine iff_of_false (not_escaping_config _) ?_
    rintro (⟨entries, hsame, -⟩ | ⟨-, config, ⟨entries, values, hsame, -⟩, -⟩)
    · exact hmapping ⟨entries, hsame⟩
    · exact hmapping ⟨entries, hsame⟩

/-- What the loader returns is what the document gives. -/
theorem builds_of_loadConfig {sha256 : List Char → String} {digits : ℕ}
    {recorder events : Option (List ConfigLoadEvent)} {source : String} {parsed : Yaml}
    {config : WindbreakConfig}
    (h : loadConfig sha256 digits recorder source parsed = .ok (config, events)) :
    Builds windbreakConfig parsed config.value := by
  obtain ⟨raw, hraw, hrest⟩ := ok_bind_iff.mp h
  obtain ⟨built, hbuilt, hrecord⟩ := ok_bind_iff.mp hrest
  obtain ⟨_, -, hreturn⟩ := ok_bind_iff.mp hrecord
  cases hreturn
  cases parsed with
  | scalar s => cases hraw
  | list items => cases hraw
  | mapping entries =>
      cases hraw
      exact buildConfig_ok_iff.mp hbuilt

/-- The document is loaded, well typed and with nothing of it left over, or refused by a
`ConfigError`. -/
def LoadedOrRefused (sha256 : List Char → String) (digits : ℕ)
    (recorder : Option (List ConfigLoadEvent)) (source : String) (parsed : Yaml) : Prop :=
  (∃ config events, loadConfig sha256 digits recorder source parsed = .ok (config, events) ∧
    typed windbreakConfig config.value = true ∧ Builds windbreakConfig parsed config.value) ∨
  ∃ c, loadConfig sha256 digits recorder source parsed = .error (.config c)

/-- It is if nothing escapes. -/
theorem loadedOrRefused_iff {sha256 : List Char → String} {digits : ℕ}
    {recorder : Option (List ConfigLoadEvent)} {source : String} {parsed : Yaml} :
    LoadedOrRefused sha256 digits recorder source parsed ↔
      ¬ Escaping (loadConfig sha256 digits recorder source parsed) := by
  rw [not_escaping_iff]
  refine or_congr_left ⟨?_, ?_⟩
  · rintro ⟨config, events, h, -⟩
    exact ⟨_, h⟩
  · rintro ⟨⟨config, events⟩, h⟩
    exact ⟨config, events, h, config.wellTyped, builds_of_loadConfig h⟩

/-- **A document is loaded or refused** unless its first offence escapes the loader, or a recorder
is to hash an integer too long to write. -/
theorem load_config_contained_iff (sha256 : List Char → String) (digits : ℕ)
    (recorder : Option (List ConfigLoadEvent)) (source : String) (parsed : Yaml) :
    LoadedOrRefused sha256 digits recorder source parsed ↔
      ¬ Escapes digits windbreakConfig parsed "" ∧
        (recorder.isSome = true → ∀ config : WindbreakConfig,
          Builds windbreakConfig parsed config.value →
            ∀ entry ∈ DataTree.leaves config.value, entry.2.writable digits = true) := by
  rw [loadedOrRefused_iff, escaping_loadConfig, not_or]
  refine and_congr_right fun _ => ⟨fun h hsome config hbuilds entry hentry => ?_, ?_⟩
  · by_contra hlong
    exact h ⟨hsome, config, hbuilds, entry, hentry, Bool.eq_false_iff.mpr hlong⟩
  · rintro h ⟨hsome, config, hbuilds, entry, hentry, hlong⟩
    have hshort := h hsome config hbuilds entry hentry
    rw [hlong] at hshort
    cases hshort

/-- A document whose root has the integer 1 for a key. -/
def integerKey : Yaml := .mapping [(.int 1, .scalar .null)]

/-- A document with an alert sink that has no type. -/
def untypedSink : Yaml :=
  .mapping [(.str (text "alerts"), .mapping [(.str (text "sinks"), .list [.mapping []])])]

/-- Neither is loaded, and neither is refused: each ends in a `TypeError`. -/
theorem type_error_escapes :
    ¬ LoadedOrRefused (fun _ => "") 4300 none "windbreak.yaml" integerKey ∧
      ¬ LoadedOrRefused (fun _ => "") 4300 none "windbreak.yaml" untypedSink := by
  have hkey : loadConfig (fun _ => "") 4300 none "windbreak.yaml" integerKey =
      .error .typeError := rfl
  have hsink : loadConfig (fun _ => "") 4300 none "windbreak.yaml" untypedSink =
      .error .typeError := rfl
  rw [loadedOrRefused_iff, loadedOrRefused_iff, hkey, hsink, not_not]
  exact ⟨⟨_, rfl, fun c h => by cases h⟩, ⟨_, rfl, fun c h => by cases h⟩⟩

end Windbreak.Config
