import Windbreak.Core.JsonCanonical

/-!
# Objects up to the order of their fields

A dictionary is written with its keys in order, so the order its fields stand in does not show.

* **`dumps_perm`** — one text, whatever the order.
* `Json.plain` — a value without an object inside; reading it back changes nothing.
* **`toFields_perm_of_canonical`** — one text, one object.
-/

namespace JsonValue

/-- Distinct keys have one order. -/
theorem sortKeys_eq_of_perm {α : Type} {entries entries' : List (CodePoints × α)}
    (h : entries.Perm entries') (hkeys : (entries.map Prod.fst).Nodup) :
    sortKeys entries = sortKeys entries' := by
  have hsame : (sortKeys entries).Perm (sortKeys entries') :=
    (sortKeys_perm entries).trans (h.trans (sortKeys_perm entries').symm)
  have hsorted : ∀ fields : List (CodePoints × α),
      (sortKeys fields).Pairwise fun a b => a.1 ≤ b.1 := by
    intro fields
    have htotal : Std.Total fun a b : CodePoints × α => a.1 ≤ b.1 := ⟨fun a b => le_total a.1 b.1⟩
    have htrans : IsTrans (CodePoints × α) fun a b => a.1 ≤ b.1 := ⟨fun _ _ _ h h' => h.trans h'⟩
    exact List.pairwise_insertionSort _ fields
  refine hsame.eq_of_pairwise (fun f g hf hg hle hge => ?_) (hsorted _) (hsorted _)
  have hf' : f ∈ entries := (sortKeys_perm entries).mem_iff.mp hf
  have hg' : g ∈ entries := h.mem_iff.mpr ((sortKeys_perm entries').mem_iff.mp hg)
  exact List.inj_on_of_nodup_map hkeys hf' hg' (le_antisymm hle hge)

/-- **The text of an object** does not show the order of its fields. -/
theorem dumps_perm {fields fields' : List (CodePoints × JsonValue)} (h : fields.Perm fields')
    (hkeys : (fields.map Prod.fst).Nodup) : dumps (.obj fields) = dumps (.obj fields') := by
  have hrendered : sortKeys (dumpsFields fields) = sortKeys (dumpsFields fields') := by
    rw [dumpsFields_eq, dumpsFields_eq]
    refine sortKeys_eq_of_perm (h.map _) ?_
    rw [List.map_map]
    exact hkeys
  rw [dumps, dumps, hrendered]

end JsonValue

namespace Json

mutual

/-- No object inside. -/
def plain : Json → Bool
  | .obj _ => false
  | .arr items => plainItems items
  | _ => true

def plainItems : List Json → Bool
  | [] => true
  | x :: xs => plain x && plainItems xs

end

mutual

/-- A plain value has no keys to put in order. -/
theorem sorted_toValue {j : Json} (h : j.plain = true) : j.toValue.sorted = j.toValue := by
  cases j with
  | null => rfl
  | bool b => rfl
  | int i => rfl
  | str s => rfl
  | arr items =>
      rw [toValue, JsonValue.sorted, sorted_toValues h]
  | obj fields => exact absurd h Bool.false_ne_true

theorem sorted_toValues {items : List Json} (h : plainItems items = true) :
    JsonValue.sortedItems (toValues items) = toValues items := by
  cases items with
  | nil => rfl
  | cons x xs =>
      rw [plainItems, Bool.and_eq_true] at h
      rw [toValues, JsonValue.sortedItems, sorted_toValue h.1, sorted_toValues h.2]

end

mutual

/-- A plain value has no key twice. -/
theorem distinct_of_plain {j : Json} (h : j.plain = true) : Distinct j := by
  cases j with
  | null => exact .null
  | bool b => exact .bool b
  | int i => exact .int i
  | str s => exact .str s
  | arr items => exact .arr items (distinct_of_plainItems h)
  | obj fields => exact absurd h Bool.false_ne_true

theorem distinct_of_plainItems {items : List Json} (h : plainItems items = true) :
    ∀ x ∈ items, Distinct x := by
  cases items with
  | nil => exact fun x hx => absurd hx List.not_mem_nil
  | cons x xs =>
      rw [plainItems, Bool.and_eq_true] at h
      exact List.forall_mem_cons.mpr ⟨distinct_of_plain h.1, distinct_of_plainItems h.2⟩

end

/-- A flat object, read back, has its fields in the order of their keys. -/
theorem sorted_toFields {fields : List (String × Json)} (h : ∀ f ∈ fields, f.2.plain = true) :
    JsonValue.sortedFields (toFields fields) = toFields fields := by
  rw [JsonValue.sortedFields_eq, toFields_eq, List.map_map]
  refine List.map_congr_left fun f hf => ?_
  exact Prod.ext rfl (sorted_toValue (h f hf))

theorem distinct_obj {fields : List (String × Json)} (hkeys : (fields.map Prod.fst).Nodup)
    (h : ∀ f ∈ fields, f.2.plain = true) : Distinct (.obj fields) :=
  .obj fields hkeys fun f hf => distinct_of_plain (h f hf)

mutual

/-- What is written at some nesting is written at less of it. -/
theorem serialises_mono {limits : JsonValue.Limits} {depth depth' : ℕ} (hdepth : depth ≤ depth')
    {j : Json} (h : serialises limits depth j = true) : serialises limits depth' j = true := by
  cases j with
  | null => rfl
  | bool b => rfl
  | int i => exact h
  | str s => rfl
  | arr items =>
      rw [serialises, Bool.and_eq_true, decide_eq_true_eq] at h ⊢
      exact ⟨by omega, serialisesItems_mono (Nat.sub_le_sub_right hdepth 1) h.2⟩
  | obj fields =>
      rw [serialises, Bool.and_eq_true, decide_eq_true_eq] at h ⊢
      exact ⟨by omega, serialisesFields_mono (Nat.sub_le_sub_right hdepth 1) h.2⟩

theorem serialisesItems_mono {limits : JsonValue.Limits} {depth depth' : ℕ}
    (hdepth : depth ≤ depth') {items : List Json} (h : serialisesItems limits depth items = true) :
    serialisesItems limits depth' items = true := by
  cases items with
  | nil => rfl
  | cons x xs =>
      rw [serialisesItems, Bool.and_eq_true] at h ⊢
      exact ⟨serialises_mono hdepth h.1, serialisesItems_mono hdepth h.2⟩

theorem serialisesFields_mono {limits : JsonValue.Limits} {depth depth' : ℕ}
    (hdepth : depth ≤ depth') {fields : List (String × Json)}
    (h : serialisesFields limits depth fields = true) :
    serialisesFields limits depth' fields = true := by
  cases fields with
  | nil => rfl
  | cons f fields =>
      rw [serialisesFields, Bool.and_eq_true] at h ⊢
      exact ⟨serialises_mono hdepth h.1, serialisesFields_mono hdepth h.2⟩

end

/-- **One text, one object**, up to the order of its fields. -/
theorem toFields_perm_of_canonical {limits : JsonValue.Limits} {fields fields' : List (String × Json)}
    (hkeys : (fields.map Prod.fst).Nodup) (hkeys' : (fields'.map Prod.fst).Nodup)
    (hplain : ∀ f ∈ fields, f.2.plain = true) (hplain' : ∀ f ∈ fields', f.2.plain = true)
    (hserialises : serialises limits limits.depth (.obj fields) = true)
    (hserialises' : serialises limits limits.depth (.obj fields') = true)
    (h : canonical (.obj fields) = canonical (.obj fields')) :
    (toFields fields).Perm (toFields fields') := by
  have hread := loads_canonical (fits_toValue (distinct_obj hkeys hplain) hserialises)
  have hread' := loads_canonical (fits_toValue (distinct_obj hkeys' hplain') hserialises')
  rw [h, hread'] at hread
  have hsame := Except.ok.inj hread
  rw [toValue, toValue, JsonValue.sorted, JsonValue.sorted, sorted_toFields hplain,
    sorted_toFields hplain'] at hsame
  have hsorted := JsonValue.obj.inj hsame
  exact (JsonValue.sortKeys_perm _).symm.trans (hsorted ▸ JsonValue.sortKeys_perm _)

/-! ## Records of texts and integers -/

/-- Two arrangements of the same entries, with the same distinct keys in the same order, are one. -/
theorem eq_of_perm_of_keys {α β : Type} {entries entries' : List (α × β)}
    (hkeys : (entries.map Prod.fst).Nodup)
    (hsame : entries.map Prod.fst = entries'.map Prod.fst) (h : entries.Perm entries') :
    entries = entries' := by
  induction entries generalizing entries' with
  | nil => exact h.nil_eq
  | cons entry rest ih =>
      cases entries' with
      | nil => exact h.eq_nil
      | cons entry' rest' =>
          obtain ⟨hfirst, htail⟩ := List.cons.inj hsame
          obtain ⟨hfresh, hkeys⟩ := List.nodup_cons.mp hkeys
          have hhead : entry = entry' := by
            rcases List.mem_cons.mp (h.mem_iff.mp (List.mem_cons_self (l := rest))) with hhead | hin
            · exact hhead
            · -- the key of the first entry stands in no later one
              exact absurd (htail ▸ List.mem_map_of_mem hin) hfresh
          subst hhead
          rw [ih hkeys htail ((List.perm_cons entry).mp h)]

end Json
