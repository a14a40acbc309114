import Mathlib.Algebra.BigOperators.Group.List.Basic
import Mathlib.Algebra.Ring.Int.Defs
import Mathlib.Data.List.Nodup

/-!
# Insertion-ordered dictionaries

A dictionary whose iteration order is the order in which its keys were first inserted: assigning
to a present key changes its value in place, a fresh key goes to the end, removing a key leaves
the others where they are.  The structure carries the fact that no key occurs twice, so every
lookup lemma is unconditional.

* `get?`, `set`, `pop`, `keys`, `values` — the operations.
* **Lookup laws** — `get?_set`, `get?_pop`, `mem_keys_iff`.
* **Sums** — `total f d` adds `f` over the values; `total_set_of_fresh` says what assigning a
  fresh key does to it.
-/

universe u v

/-- A dictionary as the list of its items in insertion order. -/
structure OrderedDict (κ : Type u) (ν : Type v) where
  items : List (κ × ν)
  nodup : (items.map Prod.fst).Nodup

namespace OrderedDict

variable {κ : Type u} {ν : Type v}

@[ext] theorem ext {d d' : OrderedDict κ ν}
    (h : d.items = d'.items) : d = d' := by
  cases d
  cases d'
  simpa using h

instance [DecidableEq κ] [DecidableEq ν] :
    DecidableEq (OrderedDict κ ν) :=
  fun d d' => decidable_of_iff (d.items = d'.items) ⟨ext, fun h => h ▸ rfl⟩

/-! ## Operations -/

/-- The dictionary without items. -/
def empty : OrderedDict κ ν := ⟨[], by simp⟩

/-- The keys in insertion order. -/
def keys (d : OrderedDict κ ν) : List κ := d.items.map Prod.fst

/-- The values in insertion order. -/
def values (d : OrderedDict κ ν) : List ν := d.items.map Prod.snd

/-- The sum of `f` over the values. -/
def total (f : ν → ℤ) (d : OrderedDict κ ν) : ℤ :=
  (d.values.map f).sum

@[simp] theorem keys_empty : (empty : OrderedDict κ ν).keys = [] := rfl

@[simp] theorem values_empty : (empty : OrderedDict κ ν).values = [] := rfl

@[simp] theorem total_empty (f : ν → ℤ) : (empty : OrderedDict κ ν).total f = 0 := rfl

theorem keys_nodup (d : OrderedDict κ ν) : d.keys.Nodup := d.nodup

variable [DecidableEq κ]

/-- The value stored under `k`, if any. -/
def get? (d : OrderedDict κ ν) (k : κ) : Option ν := d.items.lookup k

/-- Assign `v` to `k` in a list of items: in place when `k` is present, at the end otherwise. -/
def setItems (k : κ) (v : ν) : List (κ × ν) → List (κ × ν)
  | [] => [(k, v)]
  | p :: ps => if p.1 = k then (k, v) :: ps else p :: setItems k v ps

theorem mem_map_fst_setItems {k j : κ} {v : ν} {ps : List (κ × ν)} :
    j ∈ (setItems k v ps).map Prod.fst ↔ j = k ∨ j ∈ ps.map Prod.fst := by
  induction ps with
  | nil => simp [setItems]
  | cons p ps ih =>
      by_cases hp : p.1 = k
      · rw [setItems, if_pos hp, List.map_cons, List.map_cons, List.mem_cons, List.mem_cons, hp]
        tauto
      · simp only [setItems, if_neg hp, List.map_cons, List.mem_cons, ih]
        tauto

theorem nodup_setItems {k : κ} {v : ν} {ps : List (κ × ν)} (h : (ps.map Prod.fst).Nodup) :
    ((setItems k v ps).map Prod.fst).Nodup := by
  induction ps with
  | nil => simp [setItems]
  | cons p ps ih =>
      rw [List.map_cons, List.nodup_cons] at h
      by_cases hp : p.1 = k
      · rw [setItems, if_pos hp, List.map_cons, List.nodup_cons, ← hp]
        exact h
      · rw [setItems, if_neg hp, List.map_cons, List.nodup_cons, mem_map_fst_setItems]
        exact ⟨by tauto, ih h.2⟩

/-- An assignment adds no other item. -/
theorem mem_setItems {k : κ} {v : ν} {ps : List (κ × ν)} {p : κ × ν} (h : p ∈ setItems k v ps) :
    p = (k, v) ∨ p ∈ ps := by
  induction ps with
  | nil => exact .inl (List.mem_singleton.mp h)
  | cons q ps ih =>
      by_cases hq : q.1 = k
      · rw [setItems, if_pos hq, List.mem_cons] at h
        exact h.imp_right (List.mem_cons_of_mem q)
      · rw [setItems, if_neg hq, List.mem_cons] at h
        rcases h with rfl | h
        · exact .inr (.head _)
        · exact (ih h).imp_right (List.mem_cons_of_mem q)

/-- Assign `v` to `k`. -/
def set (d : OrderedDict κ ν) (k : κ) (v : ν) : OrderedDict κ ν :=
  ⟨setItems k v d.items, nodup_setItems d.nodup⟩

/-- Remove `k`; nothing happens when it is absent. -/
def pop (d : OrderedDict κ ν) (k : κ) : OrderedDict κ ν :=
  ⟨d.items.filter (fun p => p.1 ≠ k), (List.Sublist.map _ List.filter_sublist).nodup d.nodup⟩

/-! ## Lookup laws -/

@[simp] theorem get?_empty (k : κ) : (empty : OrderedDict κ ν).get? k = none := rfl

@[simp] theorem mem_keys_set {d : OrderedDict κ ν} {k j : κ} {v : ν} :
    j ∈ (d.set k v).keys ↔ j = k ∨ j ∈ d.keys := mem_map_fst_setItems

@[simp] theorem mem_keys_pop {d : OrderedDict κ ν} {k j : κ} :
    j ∈ (d.pop k).keys ↔ j ≠ k ∧ j ∈ d.keys := by
  simp only [keys, pop, List.mem_map, List.mem_filter, decide_eq_true_eq, ne_eq]
  constructor
  · rintro ⟨p, ⟨hp, hk⟩, rfl⟩
    exact ⟨hk, p, hp, rfl⟩
  · rintro ⟨hk, p, hp, rfl⟩
    exact ⟨p, ⟨hp, hk⟩, rfl⟩

theorem mem_items_iff {d : OrderedDict κ ν} {k : κ} {v : ν} :
    (k, v) ∈ d.items ↔ d.get? k = some v := by
  obtain ⟨ps, h⟩ := d
  simp only [get?]
  induction ps with
  | nil => simp
  | cons p ps ih =>
      obtain ⟨j, w⟩ := p
      rw [List.map_cons, List.nodup_cons] at h
      by_cases hk : k = j
      · subst hk
        have hnot : (k, v) ∉ ps := fun hm => h.1 (List.mem_map.mpr ⟨_, hm, rfl⟩)
        simp only [List.mem_cons, hnot, List.lookup_cons, beq_self_eq_true, Option.some.injEq]
        simp [eq_comm]
      · have hb : (k == j) = false := by simpa using hk
        simp [List.lookup_cons, hb, hk, ih h.2]

theorem mem_keys_iff {d : OrderedDict κ ν} {k : κ} : k ∈ d.keys ↔ ∃ v, d.get? k = some v := by
  simp only [keys, List.mem_map, Prod.exists, exists_and_right, exists_eq_right, mem_items_iff]

theorem get?_eq_none_iff {d : OrderedDict κ ν} {k : κ} : d.get? k = none ↔ k ∉ d.keys := by
  rw [mem_keys_iff]
  cases d.get? k <;> simp

theorem isEmpty_items_iff {d : OrderedDict κ ν} :
    d.items.isEmpty = true ↔ ∀ k, d.get? k = none := by
  constructor
  · intro h k
    rw [get?, List.isEmpty_iff.mp h]
    rfl
  · intro h
    rw [List.isEmpty_iff, List.eq_nil_iff_forall_not_mem]
    rintro ⟨k, v⟩ hmem
    rw [mem_items_iff, h k] at hmem
    cases hmem

theorem mem_values_iff {d : OrderedDict κ ν} {v : ν} :
    v ∈ d.values ↔ ∃ k, d.get? k = some v := by
  simp only [values, List.mem_map, Prod.exists, exists_eq_right, mem_items_iff]

theorem lookup_setItems (k j : κ) (v : ν) (ps : List (κ × ν)) :
    (setItems k v ps).lookup j = if j = k then some v else ps.lookup j := by
  induction ps with
  | nil =>
      by_cases hj : j = k
      · simp [setItems, hj]
      · have hb : (j == k) = false := by simpa using hj
        simp [setItems, List.lookup_cons, hj, hb]
  | cons p ps ih =>
      obtain ⟨i, w⟩ := p
      by_cases hp : i = k
      · subst hp
        by_cases hj : j = i
        · simp [setItems, hj]
        · have hb : (j == i) = false := by simpa using hj
          simp [setItems, List.lookup_cons, hj, hb]
      · rw [setItems, if_neg hp, List.lookup_cons, List.lookup_cons, ih]
        by_cases hj : j = k
        · have hb : (j == i) = false := by simpa [hj] using Ne.symm hp
          simp only [hb, if_pos hj]
        · simp only [if_neg hj]

theorem get?_set (d : OrderedDict κ ν) (k j : κ) (v : ν) :
    (d.set k v).get? j = if j = k then some v else d.get? j := lookup_setItems k j v d.items

@[simp] theorem get?_set_self (d : OrderedDict κ ν) (k : κ) (v : ν) :
    (d.set k v).get? k = some v := by simp [get?_set]

theorem get?_pop (d : OrderedDict κ ν) (k j : κ) :
    (d.pop k).get? j = if j = k then none else d.get? j := by
  split
  · rename_i h
    rw [get?_eq_none_iff, mem_keys_pop]
    simp [h]
  · rename_i h
    refine Option.ext fun v => ?_
    rw [← mem_items_iff, ← mem_items_iff]
    simp [pop, h]

/-- Removing an absent key changes nothing. -/
theorem pop_of_not_mem {d : OrderedDict κ ν} {k : κ} (h : k ∉ d.keys) : d.pop k = d := by
  refine ext (List.filter_eq_self.mpr fun p hp => ?_)
  rw [decide_eq_true_eq]
  rintro rfl
  exact h (List.mem_map.mpr ⟨p, hp, rfl⟩)

theorem map_fst_setItems_of_mem {k : κ} (v : ν) {ps : List (κ × ν)} (h : k ∈ ps.map Prod.fst) :
    (setItems k v ps).map Prod.fst = ps.map Prod.fst := by
  induction ps with
  | nil => exact absurd h List.not_mem_nil
  | cons p rest ih =>
      by_cases hp : p.1 = k
      · rw [setItems, if_pos hp, List.map_cons, List.map_cons, hp]
      · have hrest : k ∈ rest.map Prod.fst :=
          (List.mem_cons.mp h).resolve_left fun heq => hp heq.symm
        rw [setItems, if_neg hp, List.map_cons, ih hrest, List.map_cons]

/-- Assigning to a present key leaves the keys as they are. -/
theorem keys_set_of_mem {d : OrderedDict κ ν} {k : κ} (v : ν) (h : k ∈ d.keys) :
    (d.set k v).keys = d.keys := map_fst_setItems_of_mem v h

/-- Keys in order and the values under them are all there is to a dictionary. -/
theorem items_eq_of_keys {d : OrderedDict κ ν} {ps : List (κ × ν)}
    (hkeys : d.keys = ps.map Prod.fst) (h : ∀ p ∈ ps, d.get? p.1 = some p.2) : d.items = ps := by
  have hlength : d.items.length = ps.length := by
    simpa [keys] using congrArg List.length hkeys
  refine List.ext_getElem hlength fun i hi hi' => ?_
  have hname : (d.items[i]).1 = (ps[i]).1 := by
    have hat := List.getElem_of_eq hkeys (i := i) (by simpa [keys] using hi)
    simpa [keys] using hat
  have hvalue : d.get? (d.items[i]).1 = some (d.items[i]).2 :=
    mem_items_iff.mp (List.getElem_mem hi)
  rw [hname, h _ (List.getElem_mem hi')] at hvalue
  exact Prod.ext hname (Option.some.inj hvalue).symm

/-- Lookups do not see the order of the items. -/
theorem get?_eq_of_perm {d e : OrderedDict κ ν} (h : d.items.Perm e.items) (k : κ) :
    d.get? k = e.get? k := by
  refine Option.ext fun v => ?_
  rw [← mem_items_iff, ← mem_items_iff, h.mem_iff]

theorem setItems_of_not_mem {k : κ} (v : ν) {ps : List (κ × ν)} (h : k ∉ ps.map Prod.fst) :
    setItems k v ps = ps ++ [(k, v)] := by
  induction ps with
  | nil => rfl
  | cons p ps ih =>
      rw [List.map_cons, List.mem_cons, not_or] at h
      rw [setItems, if_neg (Ne.symm h.1), ih h.2, List.cons_append]

/-- A fresh key goes to the end. -/
theorem items_set_of_fresh {d : OrderedDict κ ν} {k : κ} (v : ν) (h : k ∉ d.keys) :
    (d.set k v).items = d.items ++ [(k, v)] := setItems_of_not_mem v h

theorem values_set_of_fresh {d : OrderedDict κ ν} {k : κ} (v : ν) (h : k ∉ d.keys) :
    (d.set k v).values = d.values ++ [v] := by
  simp [values, items_set_of_fresh v h]

/-! ## Sums -/

theorem sum_setItems (g : κ × ν → ℤ) (k : κ) (v : ν) (ps : List (κ × ν)) :
    ((setItems k v ps).map g).sum + (ps.lookup k).elim 0 (fun w => g (k, w)) =
      (ps.map g).sum + g (k, v) := by
  induction ps with
  | nil => simp [setItems]
  | cons p ps ih =>
      obtain ⟨j, w⟩ := p
      by_cases hj : j = k
      · subst hj
        simp only [setItems, if_true, List.map_cons, List.sum_cons, List.lookup_cons,
          beq_self_eq_true, Option.elim_some]
        omega
      · have hb : (k == j) = false := by simpa using Ne.symm hj
        simp only [setItems, if_neg hj, List.map_cons, List.sum_cons, List.lookup_cons, hb]
        omega

/-- Assigning to a key changes a sum over the items by the new item less the one it replaces. -/
theorem sum_items_set (g : κ × ν → ℤ) (d : OrderedDict κ ν) (k : κ) (v : ν) :
    ((d.set k v).items.map g).sum + (d.get? k).elim 0 (fun w => g (k, w)) =
      (d.items.map g).sum + g (k, v) := sum_setItems g k v d.items

theorem total_set_of_fresh (f : ν → ℤ) {d : OrderedDict κ ν} {k : κ} (v : ν) (h : k ∉ d.keys) :
    (d.set k v).total f = d.total f + f v := by
  simp [total, values_set_of_fresh v h]

/-! ## Building and mapping -/

section Building

variable {μ : Type*}

/-- Assign the items of a list in turn. -/
def ofList (ps : List (κ × ν)) : OrderedDict κ ν := ps.foldl (fun d p => d.set p.1 p.2) empty

theorem mem_keys_foldl_set {ps : List (κ × ν)} {d : OrderedDict κ ν} {k : κ} :
    k ∈ (ps.foldl (fun d p => d.set p.1 p.2) d).keys ↔ k ∈ ps.map Prod.fst ∨ k ∈ d.keys := by
  induction ps generalizing d with
  | nil => simp
  | cons p ps ih =>
      rw [List.foldl_cons, ih, mem_keys_set, List.map_cons, List.mem_cons, or_assoc, or_left_comm]

theorem mem_keys_ofList {ps : List (κ × ν)} {k : κ} :
    k ∈ (ofList ps).keys ↔ k ∈ ps.map Prod.fst := by
  rw [ofList, mem_keys_foldl_set]
  simp

/-- Every value mapped, under its key. -/
def mapValues (f : ν → μ) (d : OrderedDict κ ν) : OrderedDict κ μ where
  items := d.items.map fun p => (p.1, f p.2)
  nodup := by
    rw [List.map_map]
    exact d.nodup

theorem items_foldl_set {ps : List (κ × ν)} {d : OrderedDict κ ν}
    (h : (d.keys ++ ps.map Prod.fst).Nodup) :
    (ps.foldl (fun d p => d.set p.1 p.2) d).items = d.items ++ ps := by
  induction ps generalizing d with
  | nil => simp
  | cons p ps ih =>
      rw [List.map_cons, List.nodup_append] at h
      have hfresh : p.1 ∉ d.keys := fun hmem => h.2.2 _ hmem _ (List.mem_cons_self ..) rfl
      have hitems := items_set_of_fresh p.2 hfresh
      rw [List.foldl_cons, ih, hitems, List.append_assoc, List.singleton_append]
      rw [keys, hitems, List.map_append, List.append_assoc, List.nodup_append]
      exact h

/-- A list without a repeated key is the items of its dictionary. -/
theorem items_ofList {ps : List (κ × ν)} (h : (ps.map Prod.fst).Nodup) :
    (ofList ps).items = ps := by
  rw [ofList, items_foldl_set (by simpa [keys, empty] using h)]
  rfl

theorem lookup_map_snd (f : ν → μ) (k : κ) (ps : List (κ × ν)) :
    (ps.map fun p => (p.1, f p.2)).lookup k = (ps.lookup k).map f := by
  induction ps with
  | nil => rfl
  | cons p ps ih =>
      rw [List.map_cons, List.lookup_cons, List.lookup_cons]
      cases hk : k == p.1
      · exact ih
      · rfl

theorem get?_mapValues (f : ν → μ) (d : OrderedDict κ ν) (k : κ) :
    (d.mapValues f).get? k = (d.get? k).map f := lookup_map_snd f k d.items

/-- Every value mapped, given its key. -/
def mapItems (f : κ → ν → μ) (d : OrderedDict κ ν) : OrderedDict κ μ where
  items := d.items.map fun p => (p.1, f p.1 p.2)
  nodup := by
    rw [List.map_map]
    exact d.nodup

theorem get?_mapItems (f : κ → ν → μ) (d : OrderedDict κ ν) (k : κ) :
    (d.mapItems f).get? k = (d.get? k).map (f k) := by
  obtain ⟨items, hnodup⟩ := d
  change (items.map fun p => (p.1, f p.1 p.2)).lookup k = (items.lookup k).map (f k)
  clear hnodup
  induction items with
  | nil => rfl
  | cons p ps ih =>
      rw [List.map_cons, List.lookup_cons, List.lookup_cons]
      cases hk : k == p.1 with
      | true => rw [eq_of_beq hk]; rfl
      | false => exact ih

/-- The items of another dictionary assigned in turn. -/
def update (d e : OrderedDict κ ν) : OrderedDict κ ν :=
  e.items.foldl (fun d p => d.set p.1 p.2) d

theorem get?_foldl_set {ps : List (κ × ν)} (h : (ps.map Prod.fst).Nodup) (d : OrderedDict κ ν)
    (k : κ) : (ps.foldl (fun d p => d.set p.1 p.2) d).get? k = (ps.lookup k).or (d.get? k) := by
  induction ps generalizing d with
  | nil => rfl
  | cons p ps ih =>
      obtain ⟨hfresh, hrest⟩ := List.nodup_cons.mp h
      rw [List.foldl_cons, ih hrest, get?_set, List.lookup_cons]
      by_cases hk : k = p.1
      · have hnone : ps.lookup k = none := by
          rw [List.lookup_eq_none_iff]
          intro q hq
          rw [bne_iff_ne]
          rintro rfl
          exact hfresh (hk ▸ List.mem_map_of_mem hq)
        rw [if_pos hk, hnone, hk, beq_self_eq_true]
        rfl
      · rw [if_neg hk, beq_false_of_ne hk]

theorem get?_update (d e : OrderedDict κ ν) (k : κ) :
    (d.update e).get? k = (e.get? k).or (d.get? k) := get?_foldl_set e.nodup d k

omit [DecidableEq κ] in
theorem filterMap_fst_sublist (f : κ → ν → Option μ) (ps : List (κ × ν)) :
    ((ps.filterMap fun p => (f p.1 p.2).map (Prod.mk p.1)).map Prod.fst).Sublist
      (ps.map Prod.fst) := by
  induction ps with
  | nil => exact .slnil
  | cons p ps ih =>
      cases hf : f p.1 p.2 with
      | none =>
        rw [List.filterMap_cons_none (by simp [hf])]
        exact ih.cons _
      | some v =>
        rw [List.filterMap_cons_some (b := (p.1, v)) (by simp [hf])]
        exact ih.cons_cons _

/-- The items that `f` keeps, each under its key. -/
def filterMapItems (f : κ → ν → Option μ) (d : OrderedDict κ ν) : OrderedDict κ μ where
  items := d.items.filterMap fun p => (f p.1 p.2).map (Prod.mk p.1)
  nodup := d.nodup.sublist (filterMap_fst_sublist f d.items)

theorem get?_filterMapItems (f : κ → ν → Option μ) (d : OrderedDict κ ν) (k : κ) :
    (d.filterMapItems f).get? k = (d.get? k).bind (f k) := by
  rcases d with ⟨items, hnodup⟩
  show (items.filterMap fun p => (f p.1 p.2).map (Prod.mk p.1)).lookup k =
    (items.lookup k).bind (f k)
  induction items with
  | nil => rfl
  | cons p ps ih =>
      obtain ⟨hfresh, hrest⟩ := List.nodup_cons.mp hnodup
      rw [List.lookup_cons]
      cases hk : k == p.1 with
      | false =>
        cases hf : f p.1 p.2 with
        | none =>
          rw [List.filterMap_cons_none (by simp [hf])]
          exact ih hrest
        | some v =>
          rw [List.filterMap_cons_some (b := (p.1, v)) (by simp [hf]), List.lookup_cons, hk]
          exact ih hrest
      | true =>
        have hkey : k = p.1 := eq_of_beq hk
        cases hf : f p.1 p.2 with
        | none =>
          rw [List.filterMap_cons_none (by simp [hf]), ih hrest]
          show (ps.lookup k).bind (f k) = f k p.2
          have hnone : ps.lookup k = none := by
            rw [List.lookup_eq_none_iff]
            intro q hq
            have hne : k ≠ q.1 := by
              rintro rfl
              exact hfresh (hkey ▸ List.mem_map_of_mem hq)
            simpa using hne
          rw [hnone, hkey, hf]
          rfl
        | some v =>
          rw [List.filterMap_cons_some (b := (p.1, v)) (by simp [hf]), List.lookup_cons, hk, hkey]
          exact hf.symm

/-- The values that `f` keeps, under their keys. -/
def filterMapValues (f : ν → Option μ) (d : OrderedDict κ ν) : OrderedDict κ μ where
  items := d.items.filterMap fun p => (f p.2).map (Prod.mk p.1)
  nodup := d.nodup.sublist (filterMap_fst_sublist (fun _ => f) d.items)

theorem get?_filterMapValues (f : ν → Option μ) (d : OrderedDict κ ν) (k : κ) :
    (d.filterMapValues f).get? k = (d.get? k).bind f := get?_filterMapItems (fun _ => f) d k

/-- Items of a list with fresh keys, assigned in turn, go to the end. -/
theorem items_update {d e : OrderedDict κ ν} (h : (d.keys ++ e.keys).Nodup) :
    (d.update e).items = d.items ++ e.items := items_foldl_set h

/-- Keys removed in turn. -/
def popAll (d : OrderedDict κ ν) (keys : List κ) : OrderedDict κ ν := keys.foldl pop d

theorem get?_popAll (d : OrderedDict κ ν) (keys : List κ) (k : κ) :
    (d.popAll keys).get? k = if k ∈ keys then none else d.get? k := by
  unfold popAll
  induction keys generalizing d with
  | nil => exact (if_neg List.not_mem_nil).symm
  | cons key keys ih =>
      rw [List.foldl_cons, ih, get?_pop]
      by_cases hin : k ∈ keys
      · rw [if_pos hin, if_pos (List.mem_cons_of_mem key hin)]
      · by_cases hk : k = key
        · rw [if_neg hin, if_pos hk, if_pos (List.mem_cons.mpr (.inl hk))]
        · rw [if_neg hin, if_neg hk, if_neg (fun hmem => (List.mem_cons.mp hmem).elim hk hin)]

theorem isSome_get?_iff {d : OrderedDict κ ν} {k : κ} : (d.get? k).isSome = true ↔ k ∈ d.keys := by
  rw [mem_keys_iff, Option.isSome_iff_exists]

/-- Another dictionary's keys removed in turn. -/
theorem get?_popAll_keys (d : OrderedDict κ ν) (e : OrderedDict κ μ) (k : κ) :
    (d.popAll e.keys).get? k = if (e.get? k).isSome then none else d.get? k := by
  rw [get?_popAll]
  by_cases hk : k ∈ e.keys
  · rw [if_pos hk, if_pos (isSome_get?_iff.mpr hk)]
  · rw [if_neg hk, if_neg fun hsome => hk (isSome_get?_iff.mp hsome)]

end Building

/-! ## Keys under other names -/

section Renaming

variable {κ' : Type*} [DecidableEq κ'] {f : κ → κ'} {k : κ} {ps : List (κ × ν)}

/-- A lookup under another name, where no other key has it. -/
theorem lookup_renamed (h : ∀ p ∈ ps, f p.1 = f k → p.1 = k) :
    (ps.map fun p => (f p.1, p.2)).lookup (f k) = ps.lookup k := by
  induction ps with
  | nil => rfl
  | cons p ps ih =>
      obtain ⟨hfirst, hrest⟩ := List.forall_mem_cons.mp h
      rw [List.map_cons, List.lookup_cons, List.lookup_cons, ih hrest]
      by_cases hk : k = p.1
      · rw [hk, beq_self_eq_true, beq_self_eq_true]
      · have hname : f k ≠ f p.1 := fun hname => hk (hfirst hname.symm).symm
        rw [beq_false_of_ne hk, beq_false_of_ne hname]

/-- An assignment under another name, where no other key has it. -/
theorem setItems_renamed (v : ν) (h : ∀ p ∈ ps, f p.1 = f k → p.1 = k) :
    setItems (f k) v (ps.map fun p => (f p.1, p.2)) =
      (setItems k v ps).map fun p => (f p.1, p.2) := by
  induction ps with
  | nil => rfl
  | cons p ps ih =>
      obtain ⟨hfirst, hrest⟩ := List.forall_mem_cons.mp h
      rw [List.map_cons, setItems, setItems]
      by_cases hk : p.1 = k
      · rw [if_pos hk, if_pos (congrArg f hk)]
        rfl
      · rw [if_neg hk, if_neg fun hname => hk (hfirst hname), ih hrest]
        rfl

end Renaming

end OrderedDict
