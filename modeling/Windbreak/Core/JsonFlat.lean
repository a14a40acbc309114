import Windbreak.Core.JsonIndented
import Windbreak.Core.JsonObjects

/-!
# Records whose texts may hold lone surrogates

A text is written with a surrogate pair for each character beyond the first plane, so a text that
holds the two halves is written as the one that holds the character.  Records of texts and integers
are written alike exactly when they are read back alike.

* **`dumps_arr_iff`** — lists.
* **`dumps_obj_iff`** — objects with the same keys in the same order.
-/

namespace JsonValue

/-- A text or an integer. -/
inductive Flat : JsonValue → Prop
  | str (s : CodePoints) (h : ∀ n ∈ s, n < 1114112) : Flat (.str s)
  | int (i : ℤ) : Flat (.int i)

theorem Flat.dumps_readBack {v : JsonValue} (h : Flat v) : dumps (readBack v) = dumps v := by
  cases h with
  | str s h => exact quoted_joined h
  | int i => rfl

theorem Flat.sorted_readBack {v : JsonValue} (h : Flat v) : (readBack v).sorted = readBack v := by
  cases h with
  | str s h => rfl
  | int i => rfl

/-- Some limit on the digits admits what is read back of flat values. -/
theorem Flat.exists_fits {values : List JsonValue} (h : ∀ v ∈ values, Flat v) :
    ∃ digits, ∀ limits : Limits, digits ≤ limits.digits → ∀ depth,
      ∀ v ∈ values, Fits limits depth (readBack v) := by
  induction values with
  | nil => exact ⟨0, fun limits _ depth v hv => absurd hv List.not_mem_nil⟩
  | cons v values ih =>
      obtain ⟨hfirst, hrest⟩ := List.forall_mem_cons.mp h
      obtain ⟨digits, hdigits⟩ := ih hrest
      have hstep : ∃ needed, ∀ limits : Limits, needed ≤ limits.digits → ∀ depth,
          Fits limits depth (readBack v) := by
        cases hfirst with
        | str s hs => exact ⟨0, fun limits _ depth => .str depth _ (sound_joined hs)⟩
        | int i => exact ⟨_, fun limits hle depth => .int depth i hle⟩
      obtain ⟨needed, hneeded⟩ := hstep
      refine ⟨max needed digits, fun limits hle depth => List.forall_mem_cons.mpr ⟨?_, ?_⟩⟩
      · exact hneeded limits ((le_max_left _ _).trans hle) depth
      · exact hdigits limits ((le_max_right _ _).trans hle) depth

/-- What two values are read as, where they have one text. -/
theorem sorted_eq_of_dumps {limits : Limits} {v w : JsonValue} (hv : Fits limits limits.depth v)
    (hw : Fits limits limits.depth w) (h : dumps v = dumps w) : v.sorted = w.sorted := by
  have hread := loads_dumps hv
  rw [h, loads_dumps hw] at hread
  exact (Except.ok.inj hread).symm

/-- **Lists of texts and integers** have one text exactly when they are read back alike. -/
theorem dumps_arr_iff {values values' : List JsonValue} (h : ∀ v ∈ values, Flat v)
    (h' : ∀ v ∈ values', Flat v) :
    dumps (.arr values) = dumps (.arr values') ↔ values.map readBack = values'.map readBack := by
  have hread : ∀ {items : List JsonValue}, (∀ v ∈ items, Flat v) →
      dumps (.arr (items.map readBack)) = dumps (.arr items) := by
    intro items hitems
    rw [dumps, dumps, dumpsItems_eq, dumpsItems_eq, List.map_map]
    have hmap : items.map (dumps ∘ readBack) = items.map dumps :=
      List.map_congr_left fun v hv => (hitems v hv).dumps_readBack
    rw [hmap]
  have hsorted : ∀ {items : List JsonValue}, (∀ v ∈ items, Flat v) →
      (JsonValue.arr (items.map readBack)).sorted = .arr (items.map readBack) := by
    intro items hitems
    rw [sorted, sortedItems_eq, List.map_map]
    exact congrArg JsonValue.arr
      (List.map_congr_left fun v hv => (hitems v hv).sorted_readBack)
  constructor
  · intro htext
    obtain ⟨digits, hdigits⟩ := Flat.exists_fits h
    obtain ⟨digits', hdigits'⟩ := Flat.exists_fits h'
    have hfits : Fits ⟨max digits digits', 1⟩ 1 (.arr (values.map readBack)) :=
      .arr 0 _ (List.forall_mem_map.mpr (hdigits _ (le_max_left _ _) 0))
    have hfits' : Fits ⟨max digits digits', 1⟩ 1 (.arr (values'.map readBack)) :=
      .arr 0 _ (List.forall_mem_map.mpr (hdigits' _ (le_max_right _ _) 0))
    have hsame := sorted_eq_of_dumps hfits hfits' (by rw [hread h, hread h', htext])
    rw [hsorted h, hsorted h'] at hsame
    exact JsonValue.arr.inj hsame
  · intro hsame
    rw [← hread h, ← hread h', hsame]

/-- A field whose value is read back. -/
def readBackField (f : CodePoints × JsonValue) : CodePoints × JsonValue := (f.1, readBack f.2)

/-- **Objects of texts and integers**, with the same keys in the same order, have one text exactly
when they are read back alike. -/
theorem dumps_obj_iff {fields fields' : List (CodePoints × JsonValue)}
    (hkeys : (fields.map Prod.fst).Nodup) (hsound : ∀ f ∈ fields, Sound f.1)
    (hnames : fields.map Prod.fst = fields'.map Prod.fst) (h : ∀ f ∈ fields, Flat f.2)
    (h' : ∀ f ∈ fields', Flat f.2) :
    dumps (.obj fields) = dumps (.obj fields') ↔
      fields.map readBackField = fields'.map readBackField := by
  have hread : ∀ {items : List (CodePoints × JsonValue)}, (∀ f ∈ items, Flat f.2) →
      dumps (.obj (items.map readBackField)) = dumps (.obj items) := by
    intro items hitems
    rw [dumps, dumps, dumpsFields_eq, dumpsFields_eq, List.map_map]
    have hmap : items.map ((fun f => (f.1, dumps f.2)) ∘ readBackField) =
        items.map fun f => (f.1, dumps f.2) :=
      List.map_congr_left fun f hf => Prod.ext rfl (hitems f hf).dumps_readBack
    rw [hmap]
  have hsorted : ∀ {items : List (CodePoints × JsonValue)}, (∀ f ∈ items, Flat f.2) →
      sortedFields (items.map readBackField) = items.map readBackField := by
    intro items hitems
    rw [sortedFields_eq, List.map_map]
    exact List.map_congr_left fun f hf => Prod.ext rfl (hitems f hf).sorted_readBack
  have hfst : ∀ items : List (CodePoints × JsonValue),
      (items.map readBackField).map Prod.fst = items.map Prod.fst := by
    intro items
    rw [List.map_map]
    rfl
  constructor
  · intro htext
    obtain ⟨digits, hdigits⟩ := Flat.exists_fits (List.forall_mem_map.mpr h)
    obtain ⟨digits', hdigits'⟩ := Flat.exists_fits (List.forall_mem_map.mpr h')
    have hsound' : ∀ f ∈ fields', Sound f.1 := by
      have hall : ∀ k ∈ fields.map Prod.fst, Sound k := List.forall_mem_map.mpr hsound
      rw [hnames] at hall
      exact List.forall_mem_map.mp hall
    have hfits : Fits ⟨max digits digits', 1⟩ 1 (.obj (fields.map readBackField)) :=
      .obj 0 _ (by rw [hfst]; exact hkeys) (List.forall_mem_map.mpr hsound)
        (List.forall_mem_map.mpr fun f hf =>
          hdigits _ (le_max_left _ _) 0 f.2 (List.mem_map_of_mem hf))
    have hfits' : Fits ⟨max digits digits', 1⟩ 1 (.obj (fields'.map readBackField)) :=
      .obj 0 _ (by rw [hfst, ← hnames]; exact hkeys) (List.forall_mem_map.mpr hsound')
        (List.forall_mem_map.mpr fun f hf =>
          hdigits' _ (le_max_right _ _) 0 f.2 (List.mem_map_of_mem hf))
    have hsame := sorted_eq_of_dumps hfits hfits' (by rw [hread h, hread h', htext])
    rw [sorted, sorted, hsorted h, hsorted h'] at hsame
    have hperm : (fields.map readBackField).Perm (fields'.map readBackField) :=
      (sortKeys_perm _).symm.trans (JsonValue.obj.inj hsame ▸ sortKeys_perm _)
    exact Json.eq_of_perm_of_keys (by rw [hfst]; exact hkeys) (by rw [hfst, hfst, hnames]) hperm
  · intro hsame
    rw [← hread h, ← hread h', hsame]

end JsonValue
