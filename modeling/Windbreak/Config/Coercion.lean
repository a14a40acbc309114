import Windbreak.Config.Loader
import Mathlib.Tactic.Ring

/-!
# Coercion against the specification

The coercion of `Loader` against what it means that a document gives a value and against what
escapes, type by type.

**Confidence.** `confidenceToPpm_ok_iff`: the converter reads the confidence a number is, exactly;
`escaping_confidenceToPpm`: only an integer too large for a float escapes it.

**Lists and mappings.** A list is read item by item (`coerceItems_ok_iff`,
`escaping_coerceItems`), a mapping field by field (`build_ok_iff`, `escaping_build`).

**Types.** `coerceValue_ok_iff` and `coerceValue_escapes_iff`, by induction on the type.
-/

namespace Windbreak.Config

open DottedPath

/-! ## Confidence -/

/-- A decimal is the integer it is converted to. -/
theorem PyDecimal.toInt_iff (d : PyDecimal) (m : ℤ) :
    (d.isIntegral = true ∧ d.toInt = m) ↔ (m : ℚ) = d.coefficient * 10 ^ d.exponent := by
  obtain ⟨c, e⟩ := d
  unfold PyDecimal.isIntegral PyDecimal.toInt
  by_cases he : 0 ≤ e
  · obtain ⟨n, rfl⟩ := Int.eq_ofNat_of_zero_le he
    have hcast : (c : ℚ) * 10 ^ (n : ℤ) = ((c * 10 ^ n : ℤ) : ℚ) := by
      push_cast
      rw [zpow_natCast]
    simp only [decide_eq_true he, Bool.true_or, true_and, if_pos he, Int.toNat_natCast]
    rw [hcast, Int.cast_inj]
    exact eq_comm
  · obtain ⟨n, hn⟩ : ∃ n : ℕ, -e = n := Int.eq_ofNat_of_zero_le (by omega)
    have hexp : e = -(n : ℤ) := by omega
    have hpos : (0 : ℚ) < 10 ^ n := by positivity
    have hspec : (m : ℚ) = c * 10 ^ e ↔ m * 10 ^ n = c := by
      rw [hexp, zpow_neg, zpow_natCast, ← div_eq_mul_inv, eq_div_iff hpos.ne']
      exact_mod_cast Iff.rfl
    simp only [decide_eq_false he, Bool.false_or, decide_eq_true_eq, if_neg he, hn,
      Int.toNat_natCast]
    rw [hspec]
    constructor
    · rintro ⟨hdvd, rfl⟩
      exact Int.tdiv_mul_cancel (Int.dvd_of_emod_eq_zero hdvd)
    · rintro rfl
      exact ⟨Int.mul_emod_left _ _, Int.mul_tdiv_cancel _ (by positivity)⟩

theorem le_natAbs_halfEven {n : ℤ} {d : ℕ} (hn : n ≠ 0) : n.natAbs / d ≤ (halfEven n d).natAbs := by
  unfold halfEven
  rw [Int.natAbs_mul, Int.natAbs_sign_of_ne_zero hn, one_mul, Int.natAbs_natCast]
  split_ifs <;> omega

/-- Rounding an integer leaves a small one as it is, and a large one large. -/
theorem PyDecimal.rounded_int (n : ℤ) :
    (PyDecimal.rounded ⟨n, 0⟩).isIntegral = true ∧
      (n.natAbs < 10 ^ 28 → (PyDecimal.rounded ⟨n, 0⟩).toInt = n) ∧
      (10 ^ 28 ≤ n.natAbs → 10 ^ 27 ≤ (PyDecimal.rounded ⟨n, 0⟩).toInt.natAbs) := by
  unfold PyDecimal.rounded
  by_cases hsmall : n.natAbs < 10 ^ 28
  · rw [if_pos hsmall]
    refine ⟨rfl, fun _ => ?_, fun hlarge => absurd hlarge (by omega)⟩
    unfold PyDecimal.toInt
    rw [if_pos le_rfl]
    simp
  · rw [if_neg hsmall]
    have hne : n ≠ 0 := by
      rintro rfl
      exact hsmall (by decide)
    have hlog : 27 ≤ Nat.log 10 n.natAbs :=
      Nat.le_log_of_pow_le (by decide) (by omega)
    have hexponent : (0 : ℤ) ≤ 0 + ((Nat.log 10 n.natAbs - 27 : ℕ) : ℤ) := by omega
    refine ⟨?_, fun h => absurd h hsmall, fun _ => ?_⟩
    · unfold PyDecimal.isIntegral
      rw [decide_eq_true hexponent]
      rfl
    · unfold PyDecimal.toInt
      rw [if_pos hexponent, Int.natAbs_mul]
      have hpow : 10 ^ 27 * 10 ^ (Nat.log 10 n.natAbs - 27) ≤ n.natAbs := by
        rw [← pow_add, Nat.add_sub_cancel' hlog]
        exact Nat.pow_log_le_self 10 (Int.natAbs_ne_zero.mpr hne)
      have hquotient : 10 ^ 27 ≤ n.natAbs / 10 ^ (Nat.log 10 n.natAbs - 27) :=
        (Nat.le_div_iff_mul_le (by positivity)).mpr hpow
      calc 10 ^ 27 ≤ (halfEven n (10 ^ (Nat.log 10 n.natAbs - 27))).natAbs :=
            hquotient.trans (le_natAbs_halfEven hne)
        _ ≤ _ := Nat.le_mul_of_pos_right _ (Int.natAbs_pos.mpr (by positivity))

theorem ppmOf_ok_iff {d : PyDecimal} {path : String} {ppm : ℤ} :
    ppmOf d path = .ok ppm ↔
      (d.scaled.isIntegral = true ∧ d.scaled.toInt = ppm) ∧ 0 ≤ ppm ∧ ppm ≤ ppmScale := by
  unfold ppmOf
  by_cases hintegral : d.scaled.isIntegral = true
  · rw [if_neg (not_not.mpr hintegral)]
    by_cases hrange : 0 ≤ d.scaled.toInt ∧ d.scaled.toInt ≤ ppmScale
    · rw [if_neg (not_not.mpr hrange)]
      constructor
      · intro h
        cases h
        exact ⟨⟨hintegral, rfl⟩, hrange⟩
      · rintro ⟨⟨-, rfl⟩, -⟩
        rfl
    · rw [if_pos hrange]
      refine iff_of_false (fun h => ?_) ?_
      · cases h
      · rintro ⟨⟨-, rfl⟩, hppm⟩
        exact hrange hppm
  · rw [if_pos hintegral]
    refine iff_of_false (fun h => ?_) fun h => hintegral h.1.1
    cases h

/-- An integer confidence is zero or one. -/
theorem ppmOf_int_iff {i : ℤ} {path : String} {ppm : ℤ} :
    ppmOf ⟨i, 0⟩ path = .ok ppm ↔ ppm = i * ppmScale ∧ 0 ≤ ppm ∧ ppm ≤ ppmScale := by
  rw [ppmOf_ok_iff]
  obtain ⟨hintegral, hsmall, hlarge⟩ := PyDecimal.rounded_int (i * ppmScale)
  have hscaled : PyDecimal.scaled ⟨i, 0⟩ = PyDecimal.rounded ⟨i * ppmScale, 0⟩ := rfl
  rw [hscaled]
  by_cases hsize : (i * ppmScale).natAbs < 10 ^ 28
  · rw [hsmall hsize]
    exact and_congr_left fun _ => ⟨fun h => h.2.symm, fun h => ⟨hintegral, h.symm⟩⟩
  · have hfar := hlarge (Nat.le_of_not_lt hsize)
    refine iff_of_false ?_ ?_
    · rintro ⟨⟨-, rfl⟩, h0, h1⟩
      have hscale : ppmScale = 1000000 := rfl
      omega
    · rintro ⟨rfl, h0, h1⟩
      have hscale : ppmScale = 1000000 := rfl
      omega

theorem ppmOf_float_iff {d : ShortDecimal} {path : String} {ppm : ℤ} :
    ppmOf ⟨d.coefficient, d.exponent⟩ path = .ok ppm ↔
      (ppm : ℚ) = d.coefficient * 10 ^ d.exponent * ppmScale ∧ 0 ≤ ppm ∧ ppm ≤ ppmScale := by
  have hshort := d.short
  have hscale : ppmScale = 1000000 := rfl
  have hexact : PyDecimal.scaled ⟨d.coefficient, d.exponent⟩ =
      ⟨d.coefficient * ppmScale, d.exponent⟩ := by
    unfold PyDecimal.scaled PyDecimal.rounded
    refine if_pos ?_
    change (d.coefficient * ppmScale).natAbs < 10 ^ 28
    rw [hscale]
    omega
  have hvalue : ((d.coefficient * ppmScale : ℤ) : ℚ) * 10 ^ d.exponent =
      d.coefficient * 10 ^ d.exponent * ppmScale := by
    push_cast
    ring
  rw [ppmOf_ok_iff, hexact, PyDecimal.toInt_iff, hvalue]

/-- A confidence of a million ppm at most is read from no large integer. -/
theorem not_overflow {i : ℤ} (h0 : 0 ≤ i * ppmScale) (h1 : i * ppmScale ≤ ppmScale) :
    ¬ floatLimit ≤ i.natAbs := by
  have hscale : ppmScale = 1000000 := rfl
  have hlimit : 1 < floatLimit := by decide +kernel
  rw [hscale] at h0 h1
  omega

/-- **A confidence is read** where there is one. -/
theorem confidenceToPpm_ok_iff {given : Yaml} {path : String} {ppm : ℤ} :
    confidenceToPpm given path = .ok ppm ↔ IsConfidence given ppm := by
  have hother : (∀ i, given ≠ .scalar (.int i)) → (∀ d, given ≠ .scalar (.float (.finite d))) →
      ¬ IsConfidence given ppm := by
    rintro hint hfloat ⟨-, ⟨i, rfl, -⟩ | ⟨d, rfl, -⟩⟩
    · exact hint i rfl
    · exact hfloat d rfl
  have herror : ∀ e : Raised, (Except.error e : Except Raised ℤ) ≠ .ok ppm := fun e h => by cases h
  cases given with
  | scalar s =>
      cases s with
      | int i =>
          by_cases hlarge : floatLimit ≤ i.natAbs
          · refine iff_of_false ?_ ?_
            · rw [confidenceToPpm, if_pos hlarge]
              exact herror _
            · rintro ⟨⟨h0, h1⟩, ⟨j, hsame, rfl⟩ | ⟨d, hsame, -⟩⟩
              · cases hsame
                exact not_overflow h0 h1 hlarge
              · cases hsame
          · rw [confidenceToPpm, if_neg hlarge, ppmOf_int_iff]
            constructor
            · exact fun h => ⟨h.2, .inl ⟨i, rfl, h.1⟩⟩
            · rintro ⟨hrange, ⟨j, hsame, hppm⟩ | ⟨d, hsame, -⟩⟩
              · cases hsame
                exact ⟨hppm, hrange⟩
              · cases hsame
      | float f =>
          cases f with
          | finite d =>
              rw [confidenceToPpm, ppmOf_float_iff]
              constructor
              · exact fun h => ⟨h.2, .inr ⟨d, rfl, h.1⟩⟩
              · rintro ⟨hrange, ⟨j, hsame, -⟩ | ⟨d', hsame, hppm⟩⟩
                · cases hsame
                · cases hsame
                  exact ⟨hppm, hrange⟩
          | nan => exact iff_of_false (herror _) (hother (by rintro i ⟨⟩) (by rintro d ⟨⟩))
          | infinite negative =>
              exact iff_of_false (herror _) (hother (by rintro i ⟨⟩) (by rintro d ⟨⟩))
      | null => exact iff_of_false (herror _) (hother (by rintro i ⟨⟩) (by rintro d ⟨⟩))
      | bool b => exact iff_of_false (herror _) (hother (by rintro i ⟨⟩) (by rintro d ⟨⟩))
      | str t => exact iff_of_false (herror _) (hother (by rintro i ⟨⟩) (by rintro d ⟨⟩))
  | list items => exact iff_of_false (herror _) (hother (by rintro i ⟨⟩) (by rintro d ⟨⟩))
  | mapping entries =>
      exact iff_of_false (herror _) (hother (by rintro i ⟨⟩) (by rintro d ⟨⟩))

/-! ## Errors that escape -/

/-- A computation raises something other than a `ConfigError`. -/
def Escaping {α : Type} (x : Except Raised α) : Prop := ∃ e, x = .error e ∧ ∀ c, e ≠ .config c

theorem not_escaping_ok {α : Type} (a : α) : ¬ Escaping (.ok a : Except Raised α) := by
  rintro ⟨e, h, -⟩
  cases h

theorem not_escaping_config {α : Type} (c : ConfigError) :
    ¬ Escaping (.error (.config c) : Except Raised α) := by
  rintro ⟨e, h, hnot⟩
  cases h
  exact hnot c rfl

theorem escaping_bind {α β : Type} {x : Except Raised α} {f : α → Except Raised β} :
    Escaping (x >>= f) ↔ Escaping x ∨ ∃ a, x = .ok a ∧ Escaping (f a) := by
  cases x with
  | error e =>
      refine ⟨fun h => .inl ?_, fun h => ?_⟩
      · obtain ⟨e', hsame, hnot⟩ := h
        cases hsame
        exact ⟨e, rfl, hnot⟩
      · rcases h with ⟨e', hsame, hnot⟩ | ⟨a, hsame, -⟩
        · cases hsame
          exact ⟨e, rfl, hnot⟩
        · cases hsame
  | ok a =>
      refine ⟨fun h => .inr ⟨a, rfl, h⟩, fun h => ?_⟩
      rcases h with h | ⟨a', hsame, h⟩
      · exact absurd h (not_escaping_ok a)
      · cases hsame
        exact h

theorem escaping_map {α β : Type} {x : Except Raised α} {g : α → β} :
    Escaping (x.map g) ↔ Escaping x := by
  cases x with
  | error e =>
      constructor
      · rintro ⟨e', hsame, hnot⟩
        cases hsame
        exact ⟨e, rfl, hnot⟩
      · rintro ⟨e', hsame, hnot⟩
        cases hsame
        exact ⟨e, rfl, hnot⟩
  | ok a => exact iff_of_false (not_escaping_ok _) (not_escaping_ok _)

theorem ok_bind_iff {α β : Type} {x : Except Raised α} {f : α → Except Raised β} {b : β} :
    (x >>= f) = .ok b ↔ ∃ a, x = .ok a ∧ f a = .ok b := by
  cases x with
  | error e =>
      refine iff_of_false (fun h => ?_) ?_
      · cases h
      · rintro ⟨a, h, -⟩
        cases h
  | ok a =>
      refine ⟨fun h => ⟨a, rfl, h⟩, ?_⟩
      rintro ⟨a', hsame, h⟩
      cases hsame
      exact h

theorem not_escaping_ppmOf (d : PyDecimal) (path : String) : ¬ Escaping (ppmOf d path) := by
  unfold ppmOf
  split_ifs
  · exact not_escaping_ok _
  · exact not_escaping_config _
  · exact not_escaping_config _

theorem escaping_confidenceToPpm {given : Yaml} {path : String} :
    Escaping (confidenceToPpm given path) ↔
      ∃ i : ℤ, given = .scalar (.int i) ∧ floatLimit ≤ i.natAbs := by
  have hother : (∀ i, given ≠ .scalar (.int i)) →
      ¬ ∃ i : ℤ, given = .scalar (.int i) ∧ floatLimit ≤ i.natAbs := by
    rintro hint ⟨i, rfl, -⟩
    exact hint i rfl
  cases given with
  | scalar s =>
      cases s with
      | int i =>
          rw [confidenceToPpm]
          by_cases hlarge : floatLimit ≤ i.natAbs
          · rw [if_pos hlarge]
            exact iff_of_true ⟨.overflowError, rfl, fun c h => by cases h⟩ ⟨i, rfl, hlarge⟩
          · rw [if_neg hlarge]
            refine iff_of_false (not_escaping_ppmOf _ _) ?_
            rintro ⟨j, hsame, hj⟩
            cases hsame
            exact hlarge hj
      | float f =>
          cases f with
          | finite d =>
              exact iff_of_false (not_escaping_ppmOf _ _) (hother fun i h => by cases h)
          | nan => exact iff_of_false (not_escaping_config _) (hother fun i h => by cases h)
          | infinite negative =>
              exact iff_of_false (not_escaping_config _) (hother fun i h => by cases h)
      | null => exact iff_of_false (not_escaping_config _) (hother fun i h => by cases h)
      | bool b => exact iff_of_false (not_escaping_config _) (hother fun i h => by cases h)
      | str t => exact iff_of_false (not_escaping_config _) (hother fun i h => by cases h)
  | list items => exact iff_of_false (not_escaping_config _) (hother fun i h => by cases h)
  | mapping entries => exact iff_of_false (not_escaping_config _) (hother fun i h => by cases h)

/-! ## Fields -/

theorem isKey_iff {key : Text} {s : Scalar} : s.isKey key = true ↔ s = .str key := by
  cases s with
  | str t => exact (decide_eq_true_iff).trans ⟨fun h => h ▸ rfl, fun h => Scalar.str.inj h⟩
  | null => exact iff_of_false Bool.false_ne_true fun h => by cases h
  | bool b => exact iff_of_false Bool.false_ne_true fun h => by cases h
  | int i => exact iff_of_false Bool.false_ne_true fun h => by cases h
  | float f => exact iff_of_false Bool.false_ne_true fun h => by cases h

/-- No key is unknown where every key is known. -/
theorem unknownKeys_eq_nil_iff {fields : List (Field × Hint)} {entries : List (Scalar × Yaml)} :
    unknownKeys fields entries = [] ↔ KeysKnown fields entries := by
  unfold unknownKeys KeysKnown
  rw [List.filter_eq_nil_iff]
  refine forall₂_congr fun key _ => ?_
  rw [Bool.not_eq_true, Bool.not_eq_false', List.any_eq_true]
  exact exists_congr fun f => and_congr_right fun _ => isKey_iff

theorem rejectUnknownKeys_ok_iff {digits : ℕ} {fields : List (Field × Hint)}
    {entries : List (Scalar × Yaml)} {path : String} {u : Unit} :
    rejectUnknownKeys digits fields entries path = .ok u ↔ KeysKnown fields entries := by
  rw [← unknownKeys_eq_nil_iff]
  unfold rejectUnknownKeys
  by_cases hnil : unknownKeys fields entries = []
  · rw [hnil]
    exact iff_of_true rfl rfl
  · refine iff_of_false ?_ hnil
    dsimp only
    rw [if_neg fun h => hnil (List.isEmpty_iff.mp h)]
    split_ifs <;> exact fun h => by cases h

/-- **Unknown keys escape** where no message can be made of them. -/
theorem escaping_rejectUnknownKeys {digits : ℕ} {fields : List (Field × Hint)}
    {entries : List (Scalar × Yaml)} {path : String} :
    Escaping (rejectUnknownKeys digits fields entries path) ↔
      Unspeakable digits fields entries path := by
  unfold rejectUnknownKeys Unspeakable
  generalize unknownKeys fields entries = unknown
  dsimp only
  by_cases hnil : unknown = []
  · rw [if_pos (List.isEmpty_iff.mpr hnil)]
    exact iff_of_false (not_escaping_ok _) fun h => h.1 hnil
  · rw [if_neg fun h => hnil (List.isEmpty_iff.mp h)]
    have htype : Escaping (.error .typeError : Except Raised Unit) :=
      ⟨_, rfl, fun c h => by cases h⟩
    have hvalue : Escaping (.error .valueError : Except Raised Unit) :=
      ⟨_, rfl, fun c h => by cases h⟩
    have hsome : ∀ p : Scalar → Bool, ¬ unknown.all p = true ↔ ∃ key ∈ unknown, p key = false := by
      intro p
      rw [List.all_eq_true]
      push Not
      exact exists_congr fun key => and_congr_right fun _ => Bool.eq_false_iff.symm
    by_cases hsortable : sortable unknown = true
    · rw [if_neg (not_not.mpr hsortable)]
      by_cases hroot : path = "" ∧ ¬ unknown.all Scalar.isStr = true
      · rw [if_pos hroot]
        exact iff_of_true htype ⟨hnil, .inr (.inl ⟨hroot.1, (hsome _).mp hroot.2⟩)⟩
      · rw [if_neg hroot]
        by_cases hnested : path ≠ "" ∧ ¬ unknown.all (Scalar.writable digits) = true
        · rw [if_pos hnested]
          exact iff_of_true hvalue ⟨hnil, .inr (.inr ⟨hnested.1, (hsome _).mp hnested.2⟩)⟩
        · rw [if_neg hnested]
          refine iff_of_false (not_escaping_config _) ?_
          rintro ⟨-, h | ⟨hpath, h⟩ | ⟨hpath, h⟩⟩
          · rw [hsortable] at h
            cases h
          · exact hroot ⟨hpath, (hsome _).mpr h⟩
          · exact hnested ⟨hpath, (hsome _).mpr h⟩
    · rw [if_pos hsortable]
      exact iff_of_true htype ⟨hnil, .inl (Bool.not_eq_true _ ▸ hsortable)⟩

/-- A coercion, wherever it stands, gives the values a document gives. -/
def Reads (coerce : Yaml → String → Except Raised Value) (builds : Yaml → Value → Prop) : Prop :=
  ∀ given path value, coerce given path = .ok value ↔ builds given value

theorem coerceField_ok_iff {coerce : Yaml → String → Except Raised Value}
    {builds : Yaml → Value → Prop} (h : Reads coerce builds) (f : Field) (given : Yaml)
    (path : String) (value : Value) :
    coerceField coerce f given path = .ok value ↔ BuildsField builds f given value := by
  unfold coerceField BuildsField
  split_ifs
  · constructor
    · intro hmap
      cases hread : confidenceToPpm given path with
      | error e =>
          rw [hread] at hmap
          cases hmap
      | ok ppm =>
          rw [hread] at hmap
          cases hmap
          exact ⟨ppm, rfl, confidenceToPpm_ok_iff.mp hread⟩
    · rintro ⟨ppm, rfl, hppm⟩
      rw [confidenceToPpm_ok_iff.mpr hppm]
      rfl
  · exact h given path value

theorem escaping_coerceField {coerce : Yaml → String → Except Raised Value}
    {escapes : Yaml → String → Prop} (h : ∀ given path, Escaping (coerce given path) ↔
      escapes given path) (f : Field) (given : Yaml) (path : String) :
    Escaping (coerceField coerce f given path) ↔ EscapesField escapes f given path := by
  unfold coerceField EscapesField
  split_ifs
  · rw [escaping_map, escaping_confidenceToPpm]
  · exact h given path

/-! ## Items -/

theorem coerceItems_ok_iff {coerce : Yaml → String → Except Raised Value}
    {builds : Yaml → Value → Prop} (h : Reads coerce builds) (path : String) (index : ℕ)
    (items : List Yaml) (values : List Value) :
    coerceItems coerce path index items = .ok values ↔ List.Forall₂ builds items values := by
  induction items generalizing index values with
  | nil =>
      rw [List.forall₂_nil_left_iff, coerceItems]
      exact ⟨fun hok => (Except.ok.inj hok).symm, fun hnil => by rw [hnil]⟩
  | cons item items ih =>
      rw [coerceItems, ok_bind_iff, List.forall₂_cons_left_iff]
      constructor
      · rintro ⟨value, hvalue, hrest⟩
        obtain ⟨others, hothers, hreturn⟩ := ok_bind_iff.mp hrest
        cases hreturn
        exact ⟨value, others, (h _ _ _).mp hvalue, (ih _ _).mp hothers, rfl⟩
      · rintro ⟨value, others, hvalue, hothers, rfl⟩
        exact ⟨value, (h _ _ _).mpr hvalue, ok_bind_iff.mpr ⟨others, (ih _ _).mpr hothers, rfl⟩⟩

/-- The first item that is not right escapes. -/
theorem escaping_coerceItems {coerce : Yaml → String → Except Raised Value}
    {builds : Yaml → Value → Prop} (h : Reads coerce builds) (path : String) (index : ℕ)
    (items : List Yaml) :
    Escaping (coerceItems coerce path index items) ↔
      ∃ before item after, items = before ++ item :: after ∧
        (∀ earlier ∈ before, ∃ value, builds earlier value) ∧
        Escaping (coerce item (join path (toString (index + before.length)))) := by
  induction items generalizing index with
  | nil =>
      refine iff_of_false (not_escaping_ok _) ?_
      rintro ⟨before, item, after, hnil, -⟩
      exact absurd hnil.symm (List.append_ne_nil_of_right_ne_nil _ (List.cons_ne_nil _ _))
  | cons first items ih =>
      rw [coerceItems, escaping_bind]
      constructor
      · rintro (hfirst | ⟨value, hvalue, hrest⟩)
        · exact ⟨[], first, items, rfl, fun _ hin => absurd hin List.not_mem_nil, hfirst⟩
        · rcases escaping_bind.mp hrest with hothers | ⟨others, -, hreturn⟩
          · obtain ⟨before, item, after, rfl, hbefore, hitem⟩ := (ih _).mp hothers
            refine ⟨first :: before, item, after, rfl,
              List.forall_mem_cons.mpr ⟨⟨value, (h _ _ _).mp hvalue⟩, hbefore⟩, ?_⟩
            rw [List.length_cons, Nat.add_comm before.length, ← Nat.add_assoc]
            exact hitem
          · exact absurd hreturn (not_escaping_ok _)
      · rintro ⟨before, item, after, hsplit, hbefore, hitem⟩
        cases before with
        | nil =>
            obtain ⟨rfl, rfl⟩ := List.cons.inj hsplit
            exact .inl hitem
        | cons earlier before =>
            obtain ⟨rfl, rfl⟩ := List.cons.inj hsplit
            obtain ⟨⟨value, hvalue⟩, hothers⟩ := List.forall_mem_cons.mp hbefore
            rw [List.length_cons, Nat.add_comm before.length, ← Nat.add_assoc] at hitem
            exact .inr ⟨value, (h _ _ _).mpr hvalue,
              escaping_bind.mpr (.inl ((ih _).mpr ⟨before, item, after, rfl, hothers, hitem⟩))⟩

/-! ## Dataclasses -/

/-- The coercion of a field's type, at the field. -/
def coerceGiven (digits : ℕ) (f : Field × Hint) (given : Yaml) (path : String) :
    Except Raised Value :=
  coerceField (fun v p => coerceValue digits f.2 v p) f.1 given (join path f.1.yamlKey)

theorem coerceFields_cons (digits : ℕ) (f : Field × Hint) (fields : List (Field × Hint))
    (entries : List (Scalar × Yaml)) (path : String) :
    coerceFields digits (f :: fields) entries path =
      match lookup f.1.yamlKey entries with
      | none => coerceFields digits fields entries path
      | some given => do
        let coerced ← coerceGiven digits f given path
        let others ← coerceFields digits fields entries path
        return (f.1.name, coerced) :: others := rfl

theorem coerceFields_absent {digits : ℕ} {f : Field × Hint} {fields : List (Field × Hint)}
    {entries : List (Scalar × Yaml)} {path : String} (h : lookup f.1.yamlKey entries = none) :
    coerceFields digits (f :: fields) entries path = coerceFields digits fields entries path := by
  rw [coerceFields_cons, h]

theorem coerceFields_given {digits : ℕ} {f : Field × Hint} {fields : List (Field × Hint)}
    {entries : List (Scalar × Yaml)} {path : String} {given : Yaml}
    (h : lookup f.1.yamlKey entries = some given) :
    coerceFields digits (f :: fields) entries path = (do
      let coerced ← coerceGiven digits f given path
      let others ← coerceFields digits fields entries path
      return (f.1.name, coerced) :: others) := by
  rw [coerceFields_cons, h]

/-- **The fields are coerced** if each that is given can be; then each is given by its value. -/
theorem coerceFields_ok {digits : ℕ} {fields : List (Field × Hint)} {entries : List (Scalar × Yaml)}
    {path : String} (h : ∀ f ∈ fields, ∀ given, lookup f.1.yamlKey entries = some given →
      ∃ value, coerceGiven digits f given path = .ok value) :
    ∃ kwargs, coerceFields digits fields entries path = .ok kwargs := by
  induction fields with
  | nil => exact ⟨[], rfl⟩
  | cons f fields ih =>
      obtain ⟨hfirst, hothers⟩ := List.forall_mem_cons.mp h
      obtain ⟨kwargs, hkwargs⟩ := ih hothers
      cases hgiven : lookup f.1.yamlKey entries with
      | none => exact ⟨kwargs, (coerceFields_absent hgiven).trans hkwargs⟩
      | some given =>
          obtain ⟨value, hvalue⟩ := hfirst given hgiven
          refine ⟨(f.1.name, value) :: kwargs, ?_⟩
          rw [coerceFields_given hgiven, hvalue, hkwargs]
          rfl

theorem names_kwargs {digits : ℕ} {fields : List (Field × Hint)} {entries : List (Scalar × Yaml)}
    {path : String} {kwargs : List (String × Value)}
    (h : coerceFields digits fields entries path = .ok kwargs) :
    ∀ name ∈ kwargs.map Prod.fst, name ∈ fields.map fun f => f.1.name := by
  induction fields generalizing kwargs with
  | nil =>
      cases h
      exact fun name hname => absurd hname List.not_mem_nil
  | cons f fields ih =>
      intro name hname
      cases hgiven : lookup f.1.yamlKey entries with
      | none =>
          rw [coerceFields_absent hgiven] at h
          exact List.mem_cons_of_mem _ (ih h name hname)
      | some given =>
          rw [coerceFields_given hgiven] at h
          obtain ⟨value, -, hrest⟩ := ok_bind_iff.mp h
          obtain ⟨others, hothers, hreturn⟩ := ok_bind_iff.mp hrest
          cases hreturn
          rcases List.mem_cons.mp hname with rfl | hname
          · exact List.mem_cons_self
          · exact List.mem_cons_of_mem _ (ih hothers name hname)

theorem lookup_eq_none_of_fresh {kwargs : List (String × Value)} {name : String}
    (h : name ∉ kwargs.map Prod.fst) : kwargs.lookup name = none := by
  rw [List.lookup_eq_none_iff]
  intro entry hentry
  rw [bne_iff_ne]
  rintro rfl
  exact h (List.mem_map_of_mem hentry)

/-- **What is given** under the name of a field: nothing if the document has nothing under its key,
and its coerced value otherwise. -/
theorem lookup_kwargs {digits : ℕ} {fields : List (Field × Hint)} {entries : List (Scalar × Yaml)}
    {path : String} {kwargs : List (String × Value)} (hnames : (fields.map fun f => f.1.name).Nodup)
    (h : coerceFields digits fields entries path = .ok kwargs) :
    ∀ f ∈ fields,
      (lookup f.1.yamlKey entries = none ∧ kwargs.lookup f.1.name = none) ∨
      ∃ given value, lookup f.1.yamlKey entries = some given ∧
        coerceGiven digits f given path = .ok value ∧ kwargs.lookup f.1.name = some value := by
  induction fields generalizing kwargs with
  | nil => exact fun f hf => absurd hf List.not_mem_nil
  | cons first fields ih =>
      obtain ⟨hfresh, hdistinct⟩ := List.nodup_cons.mp hnames
      intro f hf
      cases hgiven : lookup first.1.yamlKey entries with
      | none =>
          rw [coerceFields_absent hgiven] at h
          rcases List.mem_cons.mp hf with rfl | hf
          · exact .inl ⟨hgiven,
              lookup_eq_none_of_fresh fun hmem => hfresh (names_kwargs h _ hmem)⟩
          · exact ih hdistinct h f hf
      | some given =>
          rw [coerceFields_given hgiven] at h
          obtain ⟨value, hvalue, hrest⟩ := ok_bind_iff.mp h
          obtain ⟨others, hothers, hreturn⟩ := ok_bind_iff.mp hrest
          cases hreturn
          rcases List.mem_cons.mp hf with rfl | hf
          · exact .inr ⟨given, value, hgiven, hvalue, List.lookup_cons_self⟩
          · have hmem : f.1.name ∈ fields.map fun g => g.1.name := List.mem_map_of_mem hf
            have hne : f.1.name ≠ first.1.name := by
              intro hsame
              rw [hsame] at hmem
              exact hfresh hmem
            rw [List.lookup_cons, beq_false_of_ne hne]
            exact ih hdistinct hothers f hf

/-- The class takes each field's value or its default. -/
theorem construct_ok_iff {given : List (String × Value)} {fields : List (Field × Hint)}
    {values : List (String × Value)} :
    construct given fields = .ok values ↔
      List.Forall₂ (fun f v => v.1 = f.1.name ∧
        (given.lookup f.1.name).or f.1.default = some v.2) fields values := by
  induction fields generalizing values with
  | nil =>
      rw [List.forall₂_nil_left_iff, construct]
      exact ⟨fun hok => (Except.ok.inj hok).symm, fun hnil => by rw [hnil]⟩
  | cons f fields ih =>
      obtain ⟨f, hint⟩ := f
      rw [construct, ok_bind_iff, List.forall₂_cons_left_iff]
      constructor
      · rintro ⟨value, hvalue, hrest⟩
        obtain ⟨others, hothers, hreturn⟩ := ok_bind_iff.mp hrest
        cases hreturn
        refine ⟨(f.name, value), others, ⟨rfl, ?_⟩, ih.mp hothers, rfl⟩
        unfold argument at hvalue
        split at hvalue
        · rename_i v hv
          cases hvalue
          exact hv
        · cases hvalue
      · rintro ⟨⟨name, value⟩, others, ⟨rfl, hvalue⟩, hothers, rfl⟩
        refine ⟨value, ?_, ok_bind_iff.mpr ⟨others, ih.mpr hothers, rfl⟩⟩
        unfold argument
        rw [hvalue]

/-- **A required field is missing.** -/
theorem escaping_construct {given : List (String × Value)} {fields : List (Field × Hint)} :
    Escaping (construct given fields) ↔
      ∃ f ∈ fields, given.lookup f.1.name = none ∧ f.1.default = none := by
  induction fields with
  | nil =>
      refine iff_of_false (not_escaping_ok _) ?_
      rintro ⟨f, hf, -⟩
      exact absurd hf List.not_mem_nil
  | cons f fields ih =>
      obtain ⟨f, hint⟩ := f
      rw [construct, escaping_bind, List.exists_mem_cons_iff, ← Option.or_eq_none_iff]
      unfold argument
      cases hargument : (given.lookup f.name).or f.default with
      | none =>
          exact iff_of_true (.inl ⟨.typeError, rfl, fun c h => by cases h⟩) (.inl rfl)
      | some value =>
          constructor
          · rintro (hfirst | ⟨v, -, hrest⟩)
            · exact absurd hfirst (not_escaping_ok _)
            · rcases escaping_bind.mp hrest with hothers | ⟨others, -, hreturn⟩
              · exact .inr (ih.mp hothers)
              · exact absurd hreturn (not_escaping_ok _)
          · rintro (hnone | hothers)
            · cases hnone
            · exact .inr ⟨value, rfl, escaping_bind.mpr (.inl (ih.mpr hothers))⟩

/-- A field of a dataclass as the document gives it. -/
def FieldBuilt (entries : List (Scalar × Yaml)) (f : Field × Hint) (v : String × Value) : Prop :=
  v.1 = f.1.name ∧
    ((∃ given, lookup f.1.yamlKey entries = some given ∧
        BuildsField (fun g value => Builds f.2 g value) f.1 given v.2) ∨
      (lookup f.1.yamlKey entries = none ∧ f.1.default = some v.2))

theorem buildsFields_iff {fields : List (Field × Hint)} {entries : List (Scalar × Yaml)}
    {values : List (String × Value)} :
    BuildsFields fields entries values ↔ List.Forall₂ (FieldBuilt entries) fields values := by
  induction fields generalizing values with
  | nil => rw [List.forall₂_nil_left_iff, BuildsFields]
  | cons f fields ih =>
      obtain ⟨f, hint⟩ := f
      rw [BuildsFields, List.forall₂_cons_left_iff]
      constructor
      · rintro ⟨value, others, rfl, hvalue, hothers⟩
        exact ⟨(f.name, value), others, ⟨rfl, hvalue⟩, ih.mp hothers, rfl⟩
      · rintro ⟨⟨name, value⟩, others, ⟨rfl, hvalue⟩, hothers, rfl⟩
        exact ⟨value, others, rfl, hvalue, ih.mpr hothers⟩

theorem forall₂_congr_left {α β : Type} {R S : α → β → Prop} {as : List α} {bs : List β}
    (h : ∀ a ∈ as, ∀ b, R a b ↔ S a b) : List.Forall₂ R as bs ↔ List.Forall₂ S as bs := by
  induction as generalizing bs with
  | nil => rw [List.forall₂_nil_left_iff, List.forall₂_nil_left_iff]
  | cons a as ih =>
      obtain ⟨hfirst, hothers⟩ := List.forall_mem_cons.mp h
      rw [List.forall₂_cons_left_iff, List.forall₂_cons_left_iff]
      exact exists_congr fun b => exists_congr fun rest =>
        and_congr (hfirst b) (and_congr (ih hothers) Iff.rfl)

theorem exists_of_forall₂ {α β : Type} {R : α → β → Prop} {as : List α} {bs : List β}
    (h : List.Forall₂ R as bs) {a : α} (ha : a ∈ as) : ∃ b ∈ bs, R a b := by
  induction h with
  | nil => exact absurd ha List.not_mem_nil
  | cons hfirst hrest ih =>
      rcases List.mem_cons.mp ha with rfl | ha
      · exact ⟨_, List.mem_cons_self, hfirst⟩
      · obtain ⟨b, hb, hR⟩ := ih ha
        exact ⟨b, List.mem_cons_of_mem _ hb, hR⟩

section Dataclass

variable {digits : ℕ} {fields : List (Field × Hint)} {entries : List (Scalar × Yaml)}
  {path : String}

theorem coerceGiven_ok_iff {f : Field × Hint}
    (h : Reads (coerceValue digits f.2) (Builds f.2)) (given : Yaml) (value : Value) :
    coerceGiven digits f given path = .ok value ↔
      BuildsField (fun g v => Builds f.2 g v) f.1 given value :=
  coerceField_ok_iff h f.1 given _ value

/-- **A dataclass is built** from what the document gives its fields. -/
theorem build_ok_iff (hreads : ∀ f ∈ fields, Reads (coerceValue digits f.2) (Builds f.2))
    (hnames : (fields.map fun f => f.1.name).Nodup) {values : List (String × Value)} :
    (∃ kwargs, coerceFields digits fields entries path = .ok kwargs ∧
      construct kwargs fields = .ok values) ↔ BuildsFields fields entries values := by
  rw [buildsFields_iff]
  -- with the fields coerced, the class takes what the document gives
  have hconstruct : ∀ kwargs, coerceFields digits fields entries path = .ok kwargs →
      (construct kwargs fields = .ok values ↔
        List.Forall₂ (FieldBuilt entries) fields values) := by
    intro kwargs hkwargs
    rw [construct_ok_iff]
    refine forall₂_congr_left fun f hf v => and_congr_right fun _ => ?_
    rcases lookup_kwargs hnames hkwargs f hf with
      ⟨habsent, hnone⟩ | ⟨given, value, hgiven, hok, hsome⟩
    · rw [hnone, habsent, Option.none_or]
      constructor
      · exact fun h => .inr ⟨rfl, h⟩
      · rintro (⟨given, hnot, -⟩ | ⟨-, h⟩)
        · cases hnot
        · exact h
    · rw [hsome, hgiven, Option.some_or]
      constructor
      · rintro h
        cases h
        exact .inl ⟨given, rfl, (coerceGiven_ok_iff (hreads f hf) _ _).mp hok⟩
      · rintro (⟨given', hsame, h⟩ | ⟨hnot, -⟩)
        · cases hsame
          have hagain : coerceGiven digits f given path = .ok v.2 :=
            (coerceGiven_ok_iff (hreads f hf) _ _).mpr h
          rw [hok] at hagain
          exact congrArg some (Except.ok.inj hagain)
        · cases hnot
  constructor
  · rintro ⟨kwargs, hkwargs, hvalues⟩
    exact (hconstruct kwargs hkwargs).mp hvalues
  · intro h
    have hgiven : ∀ f ∈ fields, ∀ given, lookup f.1.yamlKey entries = some given →
        ∃ value, coerceGiven digits f given path = .ok value := by
      intro f hf given hlookup
      obtain ⟨v, -, -, hbuilt⟩ := exists_of_forall₂ h hf
      rcases hbuilt with ⟨given', hsame, hvalue⟩ | ⟨hnot, -⟩
      · rw [hlookup] at hsame
        cases hsame
        exact ⟨v.2, (coerceGiven_ok_iff (hreads f hf) _ _).mpr hvalue⟩
      · rw [hlookup] at hnot
        cases hnot
    obtain ⟨kwargs, hkwargs⟩ := coerceFields_ok hgiven
    exact ⟨kwargs, hkwargs, (hconstruct kwargs hkwargs).mpr h⟩

/-- **The first field that is not right escapes.** -/
theorem escaping_coerceFields
    (hreads : ∀ f ∈ fields, Reads (coerceValue digits f.2) (Builds f.2))
    (hescapes : ∀ f ∈ fields, ∀ given path,
      Escaping (coerceValue digits f.2 given path) ↔ Escapes digits f.2 given path) :
    Escaping (coerceFields digits fields entries path) ↔
      EscapesFields digits fields entries path := by
  induction fields with
  | nil => exact iff_of_false (not_escaping_ok _) id
  | cons f fields ih =>
      obtain ⟨f, hint⟩ := f
      obtain ⟨hread, hreads⟩ := List.forall_mem_cons.mp hreads
      obtain ⟨hescape, hescapes⟩ := List.forall_mem_cons.mp hescapes
      have hrest := ih hreads hescapes
      rw [EscapesFields]
      cases hgiven : lookup f.yamlKey entries with
      | none =>
          rw [coerceFields_absent hgiven, hrest]
          constructor
          · refine fun h => .inr ⟨fun given hlookup => ?_, h⟩
            rw [hgiven] at hlookup
            cases hlookup
          · rintro (⟨given, hlookup, -⟩ | ⟨-, h⟩)
            · cases hlookup
            · exact h
      | some given =>
          have hfield := escaping_coerceField hescape f given (join path f.yamlKey)
          rw [coerceFields_given hgiven, escaping_bind]
          constructor
          · rintro (h | ⟨value, hvalue, h⟩)
            · exact .inl ⟨given, rfl, hfield.mp h⟩
            · rcases escaping_bind.mp h with hothers | ⟨others, -, hreturn⟩
              · refine .inr ⟨fun given' hlookup => ?_, hrest.mp hothers⟩
                rw [hgiven] at hlookup
                cases hlookup
                exact ⟨value, (coerceGiven_ok_iff hread _ _).mp hvalue⟩
              · exact absurd hreturn (not_escaping_ok _)
          · rintro (⟨given', hsame, h⟩ | ⟨hbuilds, h⟩)
            · cases hsame
              exact .inl (hfield.mpr h)
            · obtain ⟨value, hvalue⟩ := hbuilds given hgiven
              exact .inr ⟨value, (coerceGiven_ok_iff hread _ _).mpr hvalue,
                escaping_bind.mpr (.inl (hrest.mpr h))⟩

/-- **A dataclass escapes** by its keys, by a field, or by a required field that is missing. -/
theorem escaping_build
    (hreads : ∀ f ∈ fields, Reads (coerceValue digits f.2) (Builds f.2))
    (hescapes : ∀ f ∈ fields, ∀ given path,
      Escaping (coerceValue digits f.2 given path) ↔ Escapes digits f.2 given path)
    (hnames : (fields.map fun f => f.1.name).Nodup) :
    Escaping (coerceValue digits (.dataclass fields) (.mapping entries) path) ↔
      Escapes digits (.dataclass fields) (.mapping entries) path := by
  have hmissing : ∀ kwargs, coerceFields digits fields entries path = .ok kwargs →
      ((∀ f ∈ fields, GivenBuilds f entries) ∧
        (Escaping (construct kwargs fields) ↔
          ∃ f ∈ fields, lookup f.1.yamlKey entries = none ∧ f.1.default = none)) := by
    intro kwargs hkwargs
    have hlookup := lookup_kwargs hnames hkwargs
    constructor
    · intro f hf given hgiven
      rcases hlookup f hf with ⟨habsent, -⟩ | ⟨given', value, hgiven', hok, -⟩
      · rw [hgiven] at habsent
        cases habsent
      · rw [hgiven] at hgiven'
        cases hgiven'
        exact ⟨value, (coerceGiven_ok_iff (hreads f hf) _ _).mp hok⟩
    · rw [escaping_construct]
      refine exists_congr fun f => and_congr_right fun hf => and_congr_left fun _ => ?_
      rcases hlookup f hf with ⟨habsent, hnone⟩ | ⟨given, value, hgiven, -, hsome⟩
      · exact iff_of_true hnone habsent
      · rw [hsome, hgiven]
        exact iff_of_false (fun h => by cases h) fun h => by cases h
  rw [coerceValue, escaping_bind, escaping_rejectUnknownKeys, Escapes]
  constructor
  · rintro (hkeys | ⟨u, hkeys, hrest⟩)
    · exact ⟨entries, rfl, .inl hkeys⟩
    · have hknown := rejectUnknownKeys_ok_iff.mp hkeys
      rcases escaping_bind.mp hrest with hfields | ⟨kwargs, hkwargs, hcall⟩
      · exact ⟨entries, rfl,
          .inr (.inl ⟨hknown, (escaping_coerceFields hreads hescapes).mp hfields⟩)⟩
      · rcases escaping_bind.mp hcall with hconstruct | ⟨values, -, hreturn⟩
        · obtain ⟨hall, hiff⟩ := hmissing kwargs hkwargs
          exact ⟨entries, rfl, .inr (.inr ⟨hknown, hall, hiff.mp hconstruct⟩)⟩
        · exact absurd hreturn (not_escaping_ok _)
  · rintro ⟨entries', hsame, h⟩
    cases hsame
    rcases h with hkeys | ⟨hknown, hfields⟩ | ⟨hknown, hall, hmissed⟩
    · exact .inl hkeys
    · exact .inr ⟨(), rejectUnknownKeys_ok_iff.mpr hknown,
        escaping_bind.mpr (.inl ((escaping_coerceFields hreads hescapes).mpr hfields))⟩
    · have hgiven : ∀ f ∈ fields, ∀ given, lookup f.1.yamlKey entries = some given →
          ∃ value, coerceGiven digits f given path = .ok value := by
        intro f hf given hlookup
        obtain ⟨value, hvalue⟩ := hall f hf given hlookup
        exact ⟨value, (coerceGiven_ok_iff (hreads f hf) _ _).mpr hvalue⟩
      obtain ⟨kwargs, hkwargs⟩ := coerceFields_ok hgiven
      exact .inr ⟨(), rejectUnknownKeys_ok_iff.mpr hknown, escaping_bind.mpr (.inr ⟨kwargs, hkwargs,
        escaping_bind.mpr (.inl ((hmissing kwargs hkwargs).2.mpr hmissed))⟩)⟩

end Dataclass

/-! ## The loader against the schema -/

theorem faithful_of_leafType {hint : Hint} (h : leafType hint = true) : faithful hint = true := by
  cases hint with
  | bool => rfl
  | int => rfl
  | str => rfl
  | optional member => exact h
  | tuple element => cases h
  | dataclass fields => cases h

theorem typeMismatch_ne_ok {α : Type} (expected : String) (given : Yaml) (path : String) (a : α) :
    typeMismatch expected given path ≠ (.ok a : Except Raised α) := fun h => by cases h

theorem not_escaping_typeMismatch {α : Type} (expected : String) (given : Yaml) (path : String) :
    ¬ Escaping (typeMismatch expected given path : Except Raised α) := not_escaping_config _

section Leaves

variable {α : Type} {make : α → Yaml} {leaf : α → Value} {expected : String}
  {coerce : Yaml → String → Except Raised Value}

/-- A coercion that takes one kind of value as it is and refuses any other reads that kind. -/
theorem leaf_reads (hmatch : ∀ a path, coerce (make a) path = .ok (leaf a))
    (hother : ∀ given path, (∀ a, given ≠ make a) →
      coerce given path = typeMismatch expected given path) (hmake : Function.Injective make) :
    Reads coerce fun given value => ∃ a, given = make a ∧ value = leaf a := by
  intro given path value
  by_cases hkind : ∃ a, given = make a
  · obtain ⟨a, rfl⟩ := hkind
    rw [hmatch]
    constructor
    · intro h
      cases h
      exact ⟨a, rfl, rfl⟩
    · rintro ⟨b, hsame, rfl⟩
      rw [hmake hsame]
  · rw [hother given path (not_exists.mp hkind)]
    exact iff_of_false (typeMismatch_ne_ok _ _ _ _) fun ⟨a, hsame, _⟩ => hkind ⟨a, hsame⟩

/-- And nothing escapes it. -/
theorem leaf_not_escaping (hmatch : ∀ a path, coerce (make a) path = .ok (leaf a))
    (hother : ∀ given path, (∀ a, given ≠ make a) →
      coerce given path = typeMismatch expected given path) (given : Yaml) (path : String) :
    ¬ Escaping (coerce given path) := by
  by_cases hkind : ∃ a, given = make a
  · obtain ⟨a, rfl⟩ := hkind
    rw [hmatch]
    exact not_escaping_ok _
  · rw [hother given path (not_exists.mp hkind)]
    exact not_escaping_typeMismatch _ _ _

end Leaves

theorem coerceValue_bool_other {digits : ℕ} (given : Yaml) (path : String)
    (h : ∀ b, given ≠ .scalar (.bool b)) :
    coerceValue digits .bool given path = typeMismatch "a boolean" given path := by
  rw [coerceValue]
  exact h

theorem coerceValue_int_other {digits : ℕ} (given : Yaml) (path : String)
    (h : ∀ i, given ≠ .scalar (.int i)) :
    coerceValue digits .int given path = typeMismatch "an integer" given path := by
  rw [coerceValue]
  exact h

theorem coerceValue_str_other {digits : ℕ} (given : Yaml) (path : String)
    (h : ∀ s, given ≠ .scalar (.str s)) :
    coerceValue digits .str given path = typeMismatch "a string" given path := by
  rw [coerceValue]
  exact h

theorem coerceValue_optional_given {digits : ℕ} {member : Hint} (given : Yaml) (path : String)
    (h : given ≠ .scalar .null) :
    coerceValue digits (.optional member) given path = coerceValue digits member given path := by
  rw [coerceValue]
  exact h

theorem coerceValue_tuple_other {digits : ℕ} {element : Hint} (given : Yaml) (path : String)
    (h : ∀ items, given ≠ .list items) :
    coerceValue digits (.tuple element) given path = typeMismatch "a list" given path := by
  rw [coerceValue]
  exact h

theorem coerceValue_dataclass_other {digits : ℕ} {fields : List (Field × Hint)} (given : Yaml)
    (path : String) (h : ∀ entries, given ≠ .mapping entries) :
    coerceValue digits (.dataclass fields) given path = typeMismatch "a mapping" given path := by
  rw [coerceValue]
  exact h

theorem scalar_injective {α : Type} {make : α → Scalar} (h : Function.Injective make) :
    Function.Injective fun a => Yaml.scalar (make a) := fun _ _ hsame => h (Yaml.scalar.inj hsame)

mutual

/-- **The loader gives what the document gives**, and nothing else. -/
theorem coerceValue_ok_iff (digits : ℕ) {hint : Hint} (h : faithful hint = true) :
    Reads (coerceValue digits hint) (Builds hint) := by
  cases hint with
  | bool =>
      exact leaf_reads (fun b path => rfl) coerceValue_bool_other
        (scalar_injective fun _ _ => Scalar.bool.inj)
  | int =>
      exact leaf_reads (fun i path => rfl) coerceValue_int_other
        (scalar_injective fun _ _ => Scalar.int.inj)
  | str =>
      exact leaf_reads (fun s path => rfl) coerceValue_str_other
        (scalar_injective fun _ _ => Scalar.str.inj)
  | optional member =>
      have hmember := coerceValue_ok_iff digits (faithful_of_leafType h)
      intro given path value
      rw [Builds]
      by_cases hnull : given = .scalar .null
      · subst hnull
        constructor
        · intro hok
          cases hok
          exact .inl ⟨rfl, rfl⟩
        · rintro (⟨-, rfl⟩ | ⟨hnot, -⟩)
          · rfl
          · exact absurd rfl hnot
      · rw [coerceValue_optional_given given path hnull, hmember]
        constructor
        · exact fun hbuilds => .inr ⟨hnull, hbuilds⟩
        · rintro (⟨hsame, -⟩ | ⟨-, hbuilds⟩)
          · exact absurd hsame hnull
          · exact hbuilds
  | tuple element =>
      have helement := coerceValue_ok_iff digits (Bool.and_eq_true_iff.mp h).2
      intro given path value
      rw [Builds]
      by_cases hlist : ∃ items, given = .list items
      · obtain ⟨items, rfl⟩ := hlist
        rw [coerceValue]
        constructor
        · intro hok
          cases hitems :
              coerceItems (fun item p => coerceValue digits element item p) path 0 items with
          | error e =>
              rw [hitems] at hok
              cases hok
          | ok values =>
              rw [hitems] at hok
              cases hok
              exact ⟨items, values, rfl, rfl,
                (coerceItems_ok_iff helement path 0 items values).mp hitems⟩
        · rintro ⟨items', values, hsame, rfl, hitems⟩
          cases hsame
          rw [(coerceItems_ok_iff helement path 0 items values).mpr hitems]
          rfl
      · rw [coerceValue_tuple_other given path (not_exists.mp hlist)]
        exact iff_of_false (typeMismatch_ne_ok _ _ _ _)
          fun ⟨items, _, hsame, _⟩ => hlist ⟨items, hsame⟩
  | dataclass fields =>
      obtain ⟨hnames, hfields⟩ := Bool.and_eq_true_iff.mp h
      have hreads := coerceFields_reads digits hfields
      intro given path value
      rw [Builds]
      by_cases hmapping : ∃ entries, given = .mapping entries
      · obtain ⟨entries, rfl⟩ := hmapping
        rw [coerceValue, ok_bind_iff]
        constructor
        · rintro ⟨u, hkeys, hrest⟩
          obtain ⟨kwargs, hkwargs, hcall⟩ := ok_bind_iff.mp hrest
          obtain ⟨values, hvalues, hreturn⟩ := ok_bind_iff.mp hcall
          cases hreturn
          exact ⟨entries, values, rfl, rfl, rejectUnknownKeys_ok_iff.mp hkeys,
            (build_ok_iff hreads (of_decide_eq_true hnames)).mp ⟨kwargs, hkwargs, hvalues⟩⟩
        · rintro ⟨entries', values, hsame, rfl, hknown, hbuilt⟩
          cases hsame
          obtain ⟨kwargs, hkwargs, hvalues⟩ :=
            (build_ok_iff hreads (of_decide_eq_true hnames)).mpr hbuilt
          exact ⟨(), rejectUnknownKeys_ok_iff.mpr hknown,
            ok_bind_iff.mpr ⟨kwargs, hkwargs, ok_bind_iff.mpr ⟨values, hvalues, rfl⟩⟩⟩
      · rw [coerceValue_dataclass_other given path (not_exists.mp hmapping)]
        exact iff_of_false (typeMismatch_ne_ok _ _ _ _)
          fun ⟨entries, _, hsame, _⟩ => hmapping ⟨entries, hsame⟩

theorem coerceFields_reads (digits : ℕ) {fields : List (Field × Hint)}
    (h : faithfulFields fields = true) :
    ∀ f ∈ fields, Reads (coerceValue digits f.2) (Builds f.2) := by
  cases fields with
  | nil => exact fun f hf => absurd hf List.not_mem_nil
  | cons f fields =>
      obtain ⟨f, hint⟩ := f
      obtain ⟨hfirst, hrest⟩ := Bool.and_eq_true_iff.mp h
      exact List.forall_mem_cons.mpr ⟨coerceValue_ok_iff digits (Bool.and_eq_true_iff.mp hfirst).2,
        coerceFields_reads digits hrest⟩

end

mutual

/-- **What escapes the loader** is a first offence that it does not catch. -/
theorem coerceValue_escapes_iff (digits : ℕ) {hint : Hint} (h : faithful hint = true)
    (given : Yaml) (path : String) :
    Escaping (coerceValue digits hint given path) ↔ Escapes digits hint given path := by
  cases hint with
  | bool =>
      exact iff_of_false
        (leaf_not_escaping (fun b path => rfl) coerceValue_bool_other given path) id
  | int =>
      exact iff_of_false
        (leaf_not_escaping (fun i path => rfl) coerceValue_int_other given path) id
  | str =>
      exact iff_of_false
        (leaf_not_escaping (fun s path => rfl) coerceValue_str_other given path) id
  | optional member =>
      have hmember := coerceValue_escapes_iff digits (faithful_of_leafType h) given path
      rw [Escapes]
      by_cases hnull : given = .scalar .null
      · subst hnull
        exact iff_of_false (not_escaping_ok _) fun hnot => hnot.1 rfl
      · rw [coerceValue_optional_given given path hnull, hmember, and_iff_right hnull]
  | tuple element =>
      obtain ⟨-, helement⟩ := Bool.and_eq_true_iff.mp h
      have hreads := coerceValue_ok_iff digits helement
      have hescapes := coerceValue_escapes_iff digits helement
      rw [Escapes]
      by_cases hlist : ∃ items, given = .list items
      · obtain ⟨items, rfl⟩ := hlist
        rw [coerceValue, escaping_map, escaping_coerceItems hreads]
        refine exists_congr fun before => exists_congr fun item => exists_congr fun after => ?_
        rw [Nat.zero_add, hescapes]
        exact and_congr ⟨fun hsplit => hsplit ▸ rfl, fun hsame => Yaml.list.inj hsame⟩ Iff.rfl
      · rw [coerceValue_tuple_other given path (not_exists.mp hlist)]
        exact iff_of_false (not_escaping_typeMismatch _ _ _)
          fun ⟨before, item, after, hsame, _⟩ => hlist ⟨_, hsame⟩
  | dataclass fields =>
      obtain ⟨hnames, hfields⟩ := Bool.and_eq_true_iff.mp h
      have hescapes := coerceFields_escapes digits hfields
      by_cases hmapping : ∃ entries, given = .mapping entries
      · obtain ⟨entries, rfl⟩ := hmapping
        exact escaping_build (coerceFields_reads digits hfields) hescapes (of_decide_eq_true hnames)
      · rw [coerceValue_dataclass_other given path (not_exists.mp hmapping), Escapes]
        exact iff_of_false (not_escaping_typeMismatch _ _ _)
          fun ⟨entries, hsame, _⟩ => hmapping ⟨entries, hsame⟩

theorem coerceFields_escapes (digits : ℕ) {fields : List (Field × Hint)}
    (h : faithfulFields fields = true) :
    ∀ f ∈ fields, ∀ given path,
      Escaping (coerceValue digits f.2 given path) ↔ Escapes digits f.2 given path := by
  cases fields with
  | nil => exact fun f hf => absurd hf List.not_mem_nil
  | cons f fields =>
      obtain ⟨f, hint⟩ := f
      obtain ⟨hfirst, hrest⟩ := Bool.and_eq_true_iff.mp h
      exact List.forall_mem_cons.mpr
        ⟨coerceValue_escapes_iff digits (Bool.and_eq_true_iff.mp hfirst).2,
          coerceFields_escapes digits hrest⟩

end

end Windbreak.Config
