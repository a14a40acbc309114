import Windbreak.Core.JsonDumps

/-!
# Payloads as decoded values

A payload is a `Json`; read back, it is a `JsonValue`.

* `Json.toValue` — the decoded value that a payload is.
* **`dumps_toValue`** — the two canonical texts agree.
* **`loads_canonical`** — the canonical text of a payload reads as that payload.
-/

namespace Json

open JsonValue (codes dumps sortKeys)

mutual

/-- The decoded value that a payload is. -/
def toValue : Json → JsonValue
  | .null => .null
  | .bool b => .bool b
  | .int i => .int i
  | .str s => .str (codes s)
  | .arr items => .arr (toValues items)
  | .obj fields => .obj (toFields fields)

def toValues : List Json → List JsonValue
  | [] => []
  | x :: xs => toValue x :: toValues xs

def toFields : List (String × Json) → List (CodePoints × JsonValue)
  | [] => []
  | (k, x) :: fields => (codes k, toValue x) :: toFields fields

end

/-! ## Leaves -/

theorem eq_iff_toNat (c d : Char) : c = d ↔ c.toNat = d.toNat := Char.toNat_inj.symm

theorem escapeChar_eq (c : Char) : escapeChar c = JsonValue.escapeCode c.toNat := by
  have hself : Char.ofNat c.toNat = c := Char.ofNat_toNat c
  unfold escapeChar JsonValue.escapeCode
  simp only [eq_iff_toNat]
  rw [hself]
  rfl

theorem quoted_eq (s : String) : (quoted s).toList = JsonValue.quoted (codes s) := by
  unfold quoted JsonValue.quoted codes
  rw [String.toList_ofList, List.flatMap_map, funext escapeChar_eq]

theorem toString_eq (i : ℤ) : (toString i).toList = JsonValue.decimal i := by
  unfold JsonValue.decimal
  rw [Int.toString_eq_repr, Int.repr_eq_if]
  by_cases hneg : i < 0
  · rw [if_neg (not_le.mpr hneg), if_pos hneg, String.toList_append, Nat.toList_repr]
    have hvalue : (-i).toNat = i.natAbs := by omega
    rw [hvalue]
    rfl
  · rw [if_pos (not_lt.mp hneg), if_neg hneg, Nat.toList_repr]
    have hvalue : i.toNat = i.natAbs := by omega
    rw [hvalue]

theorem intercalate_eq (texts : List String) :
    (String.intercalate "," texts).toList = JsonValue.commaJoin (texts.map String.toList) := by
  induction texts with
  | nil => rfl
  | cons x xs ih =>
      cases xs with
      | nil => rw [String.intercalate_singleton]; rfl
      | cons y ys =>
          rw [String.intercalate_cons_cons, String.toList_append, String.toList_append, ih]
          simp [JsonValue.commaJoin]

/-- Keys compare as their code points do. -/
theorem codes_le_iff (s t : String) : codes s ≤ codes t ↔ s ≤ t := by
  have hmono : ∀ c d : Char, c < d → c.toNat < d.toNat := fun c d h => h
  have hless : codes t < codes s ↔ t.toList < s.toList := by
    constructor
    · intro h
      by_contra hnot
      exact absurd h (List.map_le hmono hnot)
    · exact fun h => List.map_lt hmono h
  exact not_lt.symm.trans (not_congr hless)

/-! ## Containers -/

theorem toValues_eq (items : List Json) : toValues items = items.map toValue := by
  induction items with
  | nil => rfl
  | cons x xs ih => rw [toValues, ih, List.map_cons]

theorem toFields_eq (fields : List (String × Json)) :
    toFields fields = fields.map fun f => (codes f.1, toValue f.2) := by
  induction fields with
  | nil => rfl
  | cons f fields ih => rw [toFields, ih, List.map_cons]

theorem canonicalItems_eq (items : List Json) : canonicalItems items = items.map canonical := by
  induction items with
  | nil => rfl
  | cons x xs ih => rw [canonicalItems, ih, List.map_cons]

theorem canonicalFields_eq (fields : List (String × Json)) :
    canonicalFields fields = fields.map fun f => (f.1, canonical f.2) := by
  induction fields with
  | nil => rfl
  | cons f fields ih => rw [canonicalFields, ih, List.map_cons]

/-- Fields are sorted alike. -/
theorem sortFields_codes (fields : List (String × String)) :
    (sortFields fields).map (fun f => (codes f.1, f.2.toList)) =
      sortKeys (fields.map fun f => (codes f.1, f.2.toList)) := by
  refine List.map_insertionSort (fun a b : String × String => a.1 ≤ b.1)
    (fun a b : CodePoints × List Char => a.1 ≤ b.1) (fun f => (codes f.1, f.2.toList)) fields ?_
  exact fun f _ g _ => (codes_le_iff f.1 g.1).symm

theorem renderObject_eq (fields : List (String × String)) :
    (renderObject fields).toList = '{' :: JsonValue.commaJoin
      ((sortKeys (fields.map fun f => (codes f.1, f.2.toList))).map JsonValue.renderField) ++
        ['}'] := by
  unfold renderObject
  rw [String.toList_append, String.toList_append, intercalate_eq, ← sortFields_codes, List.map_map,
    List.map_map]
  have hfield : String.toList ∘ (fun f : String × String => quoted f.1 ++ ":" ++ f.2) =
      JsonValue.renderField ∘ fun f => (codes f.1, f.2.toList) := by
    funext f
    simp [JsonValue.renderField, quoted_eq]
  rw [hfield]
  rfl

mutual

/-- **The two canonical texts** of a payload agree. -/
theorem dumps_toValue (j : Json) : dumps j.toValue = j.canonical.toList := by
  cases j with
  | null => rfl
  | bool b =>
      cases b with
      | true => rfl
      | false => rfl
  | int i => exact (toString_eq i).symm
  | str s => exact (quoted_eq s).symm
  | arr items =>
      rw [toValue, dumps, JsonValue.dumpsItems_eq, toValues_eq, List.map_map, dumps_items items,
        canonical, String.toList_append, String.toList_append, intercalate_eq, canonicalItems_eq,
        List.map_map]
      rfl
  | obj fields =>
      rw [toValue, dumps, JsonValue.dumpsFields_eq, toFields_eq, List.map_map, dumps_fields fields,
        canonical, renderObject_eq, canonicalFields_eq, List.map_map]
      rfl

theorem dumps_items (items : List Json) :
    items.map (dumps ∘ toValue) = items.map (String.toList ∘ canonical) := by
  cases items with
  | nil => rfl
  | cons x xs =>
      rw [List.map_cons, List.map_cons, dumps_items xs]
      exact congrArg (· :: _) (dumps_toValue x)

theorem dumps_fields (fields : List (String × Json)) :
    fields.map ((fun f => (f.1, dumps f.2)) ∘ fun f => (codes f.1, toValue f.2)) =
      fields.map fun f => (codes f.1, f.2.canonical.toList) := by
  cases fields with
  | nil => rfl
  | cons f fields =>
      rw [List.map_cons, List.map_cons, dumps_fields fields]
      exact congrArg (fun text => (codes f.1, text) :: _) (dumps_toValue f.2)

end

/-- The canonical text of a payload, by the value that the payload is. -/
theorem canonical_of_toValue {j : Json} {v : JsonValue} (h : j.toValue = v) :
    j.canonical = String.ofList (dumps v) := by
  rw [← h, dumps_toValue, String.ofList_toList]

/-! ## What can be read back -/

/-- A character is no surrogate. -/
theorem toNat_valid (c : Char) :
    c.toNat < 55296 ∨ 57343 < c.toNat ∧ c.toNat < 1114112 := c.valid

/-- The code points of a text are sound. -/
theorem sound_codes (s : String) : JsonValue.Sound (codes s) := by
  constructor
  · intro n hn
    obtain ⟨c, -, rfl⟩ := List.mem_map.mp hn
    have hvalid := toNat_valid c
    omega
  · refine List.Pairwise.isChain (List.pairwise_of_forall_mem_list fun n hn _ _ => ?_)
    obtain ⟨c, -, rfl⟩ := List.mem_map.mp hn
    rintro ⟨hhigh, -⟩
    have hvalid := toNat_valid c
    rw [JsonValue.isHigh_iff] at hhigh
    omega

/-- **Reading a payload** gives the payload, its keys in order. -/
theorem loads_canonical {limits : JsonValue.Limits} {j : Json}
    (h : JsonValue.Fits limits limits.depth j.toValue) :
    JsonValue.loads limits j.canonical = .ok j.toValue.sorted := by
  have hread := JsonValue.loads_dumps h
  rw [dumps_toValue, String.ofList_toList] at hread
  exact hread

/-! ## What can be written -/

mutual

/-- Whether the interpreter writes a payload: no integer too long, no nesting too deep. -/
def serialises (limits : JsonValue.Limits) : ℕ → Json → Bool
  | _, .null => true
  | _, .bool _ => true
  | _, .int i => (Nat.toDigits 10 i.natAbs).length ≤ limits.digits
  | _, .str _ => true
  | depth, .arr items => depth ≠ 0 && serialisesItems limits (depth - 1) items
  | depth, .obj fields => depth ≠ 0 && serialisesFields limits (depth - 1) fields

def serialisesItems (limits : JsonValue.Limits) : ℕ → List Json → Bool
  | _, [] => true
  | depth, x :: xs => serialises limits depth x && serialisesItems limits depth xs

def serialisesFields (limits : JsonValue.Limits) : ℕ → List (String × Json) → Bool
  | _, [] => true
  | depth, (_, x) :: fields => serialises limits depth x && serialisesFields limits depth fields

end

/-- **A payload made of dictionaries**: no object has a key twice. -/
inductive Distinct : Json → Prop
  | null : Distinct .null
  | bool (b : Bool) : Distinct (.bool b)
  | int (i : ℤ) : Distinct (.int i)
  | str (s : String) : Distinct (.str s)
  | arr (items : List Json) (h : ∀ x ∈ items, Distinct x) : Distinct (.arr items)
  | obj (fields : List (String × Json)) (hkeys : (fields.map Prod.fst).Nodup)
      (h : ∀ f ∈ fields, Distinct f.2) : Distinct (.obj fields)

theorem serialisesItems_iff {limits : JsonValue.Limits} {depth : ℕ} {items : List Json} :
    serialisesItems limits depth items = true ↔ ∀ x ∈ items, serialises limits depth x = true := by
  induction items with
  | nil => exact iff_of_true rfl fun x hx => absurd hx List.not_mem_nil
  | cons x xs ih => rw [serialisesItems, Bool.and_eq_true, ih, List.forall_mem_cons]

theorem serialisesFields_iff {limits : JsonValue.Limits} {depth : ℕ}
    {fields : List (String × Json)} :
    serialisesFields limits depth fields = true ↔
      ∀ f ∈ fields, serialises limits depth f.2 = true := by
  induction fields with
  | nil => exact iff_of_true rfl fun f hf => absurd hf List.not_mem_nil
  | cons f fields ih => rw [serialisesFields, Bool.and_eq_true, ih, List.forall_mem_cons]

theorem codes_injective {s t : String} (h : codes s = codes t) : s = t := by
  have hlist : s.toList = t.toList := List.map_injective_iff.mpr (fun c d => Char.toNat_inj.mp) h
  exact String.toList_injective hlist

theorem toFields_keys (fields : List (String × Json)) :
    (toFields fields).map Prod.fst = (fields.map Prod.fst).map codes := by
  rw [toFields_eq, List.map_map, List.map_map]
  rfl

theorem nodup_toFields {fields : List (String × Json)} (h : (fields.map Prod.fst).Nodup) :
    ((toFields fields).map Prod.fst).Nodup := by
  rw [toFields_keys]
  exact h.map fun _ _ => codes_injective

/-- A field of a payload is a field of the decoded value. -/
theorem lookup_toFields (key : String) (fields : List (String × Json)) :
    JsonValue.lookup key (toFields fields) = (lookup key fields).map toValue := by
  unfold JsonValue.lookup
  induction fields with
  | nil => rfl
  | cons f fields ih =>
      obtain ⟨k, x⟩ := f
      rw [toFields, List.lookup_cons, lookup, ih]
      by_cases hkey : k = key
      · rw [if_pos hkey, hkey, beq_self_eq_true]
        rfl
      · have hcodes : (codes key == codes k) = false :=
          beq_eq_false_iff_ne.mpr fun h => hkey (codes_injective h).symm
        rw [if_neg hkey, hcodes]

/-- What is written fits. -/
theorem fits_toValue {limits : JsonValue.Limits} {j : Json} (hdistinct : Distinct j) {depth : ℕ}
    (h : serialises limits depth j = true) : JsonValue.Fits limits depth j.toValue := by
  induction hdistinct generalizing depth with
  | null => exact .null depth
  | bool b => exact .bool depth b
  | int i => exact .int depth i (of_decide_eq_true h)
  | str s => exact .str depth _ (sound_codes s)
  | arr items _ ih =>
      rw [serialises, Bool.and_eq_true, serialisesItems_iff] at h
      obtain ⟨hdepth, hitems⟩ := h
      rw [toValue, toValues_eq]
      cases depth with
      | zero => exact absurd rfl (of_decide_eq_true hdepth)
      | succ depth =>
          refine .arr depth _ fun v hv => ?_
          obtain ⟨x, hx, rfl⟩ := List.mem_map.mp hv
          exact ih x hx (hitems x hx)
  | obj fields hkeys _ ih =>
      rw [serialises, Bool.and_eq_true, serialisesFields_iff] at h
      obtain ⟨hdepth, hfields⟩ := h
      rw [toValue, toFields_eq]
      cases depth with
      | zero => exact absurd rfl (of_decide_eq_true hdepth)
      | succ depth =>
          refine .obj depth _ ?_ (fun f hf => ?_) fun f hf => ?_
          · rw [← toFields_eq]
            exact nodup_toFields hkeys
          · obtain ⟨g, -, rfl⟩ := List.mem_map.mp hf
            exact sound_codes g.1
          · obtain ⟨g, hg, rfl⟩ := List.mem_map.mp hf
            exact ih g hg (hfields g hg)

/-- **An object, read back**: the same keys, and behind each the value that was written. -/
theorem loads_obj {limits : JsonValue.Limits} {fields : List (String × Json)}
    (hdistinct : Distinct (.obj fields))
    (h : serialises limits limits.depth (.obj fields) = true) :
    ∃ read, JsonValue.loads limits (canonical (.obj fields)) = .ok (.obj read) ∧
      (read.map Prod.fst).Perm ((fields.map Prod.fst).map codes) ∧
      ∀ key, JsonValue.lookup key read = (lookup key fields).map fun j => j.toValue.sorted := by
  have hread := loads_canonical (fits_toValue hdistinct h)
  cases hdistinct with
  | obj _ hkeys _ =>
      refine ⟨_, hread, ?_, fun key => ?_⟩
      · have hsame : (JsonValue.sortedFields (toFields fields)).map Prod.fst =
            (toFields fields).map Prod.fst := by
          rw [JsonValue.sortedFields_eq, List.map_map]
          rfl
        rw [← toFields_keys, ← hsame]
        exact (JsonValue.sortKeys_perm _).map Prod.fst
      · rw [JsonValue.lookup_sorted (nodup_toFields hkeys), lookup_toFields, Option.map_map]
        rfl

end Json
