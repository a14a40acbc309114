import Windbreak.Config.Schema
import Windbreak.Core.JsonIndented

/-!
# Hashing and comparing configurations

A configuration is flattened to a dictionary from dotted paths to leaves; its hash is taken over
the dictionary as canonical JSON, and two configurations are compared path by path.

**Flattening.** `flatten_items`: the dictionary holds exactly the leaves, each under the text of
its path. What the leaves say of a value of a known type is `eq_of_leaves`; the types of the schema
are of the kind it needs (`windbreakConfig_faithful`).

**The text.** `joinPairs_of_canonicalJson`: one text, one configuration, up to surrogates that the
text cannot tell from the character they stand for.

**The difference.** `diffConfigs_isEmpty` and `applyTo_diffConfigs`.
-/

namespace Windbreak.Config

open DataTree DottedPath

/-! ## Flattening -/

mutual

/-- `_flatten_node`. -/
def flattenNode : Value → String → OrderedDict String Leaf
  | .leaf a, path => OrderedDict.empty.set path a
  | .list items, path => flattenItems items 0 path .empty
  | .record values, path => flattenFields values path .empty

def flattenItems : List Value → ℕ → String → OrderedDict String Leaf → OrderedDict String Leaf
  | [], _, _, result => result
  | value :: items, index, path, result =>
    flattenItems items (index + 1) path
      (result.update (flattenNode value (join path (toString index))))

def flattenFields : List (String × Value) → String → OrderedDict String Leaf →
    OrderedDict String Leaf
  | [], _, result => result
  | (key, value) :: values, path, result =>
    flattenFields values path (result.update (flattenNode value (join path key)))

end

/-- `flatten`. -/
def flatten (config : WindbreakConfig) : OrderedDict String Leaf := flattenNode config.value ""

/-! ## The text and the hash -/

/-- A leaf as JSON. -/
def Leaf.toJson : Leaf → JsonValue
  | .none => .null
  | .bool b => .bool b
  | .int i => .int i
  | .str s => .str s.1

/-- A leaf has a text: an integer of more digits than the interpreter's limit has none. -/
def Leaf.writable (digits : ℕ) : Leaf → Bool
  | .int i => (Nat.toDigits 10 i.natAbs).length ≤ digits
  | _ => true

/-- The fields of the canonical text. -/
def jsonFields (flat : OrderedDict String Leaf) : List (CodePoints × JsonValue) :=
  flat.items.map fun entry => (JsonValue.codes entry.1, entry.2.toJson)

/-- `canonical_json`; `none` is the `ValueError` of an integer too long to write. -/
def canonicalJson (digits : ℕ) (config : WindbreakConfig) : Option (List Char) :=
  if (flatten config).values.all (Leaf.writable digits) then
    some (JsonValue.dumps (.obj (jsonFields (flatten config))))
  else none

/-- `config_hash`. -/
def configHash (sha256 : List Char → String) (digits : ℕ) (config : WindbreakConfig) :
    Option String :=
  (canonicalJson digits config).map sha256

/-! ## The difference -/

/-- The difference between two configurations, path by path. -/
structure ConfigDiff where
  added : OrderedDict String Leaf
  removed : OrderedDict String Leaf
  changed : OrderedDict String (Leaf × Leaf)

/-- `is_empty`. -/
def ConfigDiff.isEmpty (diff : ConfigDiff) : Bool :=
  diff.added.items.isEmpty && diff.removed.items.isEmpty && diff.changed.items.isEmpty

/-- The paths of one dictionary that the other lacks. -/
def lacking (flat other : OrderedDict String Leaf) : OrderedDict String Leaf :=
  flat.filterMapItems fun key value => if key ∈ other.keys then none else some value

/-- The paths of both dictionaries whose leaves differ. -/
def differing (oldFlat newFlat : OrderedDict String Leaf) : OrderedDict String (Leaf × Leaf) :=
  oldFlat.filterMapItems fun key old =>
    (newFlat.get? key).bind fun new => if old ≠ new then some (old, new) else none

/-- `diff_configs`. A path has one type, so a boolean is never compared with an integer. -/
def diffConfigs (old new : WindbreakConfig) : ConfigDiff where
  added := lacking (flatten new) (flatten old)
  removed := lacking (flatten old) (flatten new)
  changed := differing (flatten old) (flatten new)

/-- Removals, additions and changes applied to a flattened configuration. -/
def ConfigDiff.applyTo (diff : ConfigDiff) (flat : OrderedDict String Leaf) :
    OrderedDict String Leaf :=
  ((flat.popAll diff.removed.keys).update diff.added).update (diff.changed.mapValues Prod.snd)

/-! ## The leaves of a configuration -/

/-- A leaf under the text of its path. -/
def entryAt (path : List String) (entry : List String × Leaf) : String × Leaf :=
  (dotted (path ++ entry.1), entry.2)

theorem entryAt_under (path : List String) (label : String) (entry : List String × Leaf) :
    entryAt path (under label entry) = entryAt (path ++ [label]) entry := by
  unfold entryAt under
  rw [List.append_assoc]
  rfl

theorem map_entryAt_under (path : List String) (label : String)
    (entries : List (List String × Leaf)) :
    (entries.map (under label)).map (entryAt path) = entries.map (entryAt (path ++ [label])) := by
  rw [List.map_map]
  exact List.map_congr_left fun entry _ => entryAt_under path label entry

/-- A child's leaves go behind what is there. -/
theorem update_child {result child : OrderedDict String Leaf} {own rest : List (String × Leaf)}
    (hchild : child.items = own) (h : (result.keys ++ (own ++ rest).map Prod.fst).Nodup) :
    (result.update child).items = result.items ++ own ∧
      ((result.update child).keys ++ rest.map Prod.fst).Nodup := by
  rw [List.map_append, ← List.append_assoc] at h
  have hkeys : child.keys = own.map Prod.fst := congrArg (List.map Prod.fst) hchild
  have hitems : (result.update child).items = result.items ++ own := by
    rw [OrderedDict.items_update, hchild]
    rw [hkeys]
    exact (List.nodup_append.mp h).1
  refine ⟨hitems, ?_⟩
  unfold OrderedDict.keys at h ⊢
  rw [hitems, List.map_append]
  exact h

/-- Leaves with paths of their own have keys of their own. -/
theorem nodup_entryAt {path : List String} (hpath : ∀ s ∈ path, Segment s)
    {entries : List (List String × Leaf)} (hsegments : ∀ e ∈ entries, ∀ s ∈ e.1, Segment s)
    (h : (entries.map Prod.fst).Nodup) : ((entries.map (entryAt path)).map Prod.fst).Nodup := by
  have hmap : (entries.map (entryAt path)).map Prod.fst =
      (entries.map Prod.fst).map fun p => dotted (path ++ p) := by
    rw [List.map_map, List.map_map]
    rfl
  have hall : ∀ p ∈ entries.map Prod.fst, ∀ s ∈ path ++ p, Segment s := by
    intro p hp s hs
    obtain ⟨e, he, rfl⟩ := List.mem_map.mp hp
    exact (List.mem_append.mp hs).elim (hpath s) (hsegments e he s)
  rw [hmap]
  refine h.map_on fun p hp q hq hsame => ?_
  exact List.append_cancel_left (dotted_injective (hall p hp) (hall q hq) hsame)

theorem segments_concat {path : List String} (hpath : ∀ s ∈ path, Segment s) {label : String}
    (hlabel : Segment label) : ∀ s ∈ path ++ [label], Segment s := by
  intro s hs
  rcases List.mem_append.mp hs with hs | hs
  · exact hpath s hs
  · exact List.mem_singleton.mp hs ▸ hlabel

mutual

/-- **A tree is flattened to its leaves.** -/
theorem flattenNode_items {value : Value} (h : Labelled value) {path : List String}
    (hpath : ∀ s ∈ path, Segment s) :
    (flattenNode value (dotted path)).items = (leaves value).map (entryAt path) := by
  have hnodup := nodup_entryAt hpath (segments_leaves h) (nodup_leaves h)
  cases value with
  | leaf a =>
      have hkey : dotted (path ++ []) = dotted path := congrArg dotted (List.append_nil path)
      rw [leaves, List.map_singleton, entryAt, hkey]
      rfl
  | list items => exact flattenItems_items h hpath 0 .empty hnodup
  | record values => exact flattenFields_items h.2 hpath .empty hnodup

theorem flattenItems_items {items : List Value} (h : LabelledItems items) {path : List String}
    (hpath : ∀ s ∈ path, Segment s) (index : ℕ) (result : OrderedDict String Leaf)
    (hnodup : (result.keys ++
      ((leavesItems index items).map (entryAt path)).map Prod.fst).Nodup) :
    (flattenItems items index (dotted path) result).items =
      result.items ++ (leavesItems index items).map (entryAt path) := by
  cases items with
  | nil => exact (List.append_nil _).symm
  | cons value items =>
      have hchild := flattenNode_items h.1 (segments_concat hpath (segment_index index))
      rw [leavesItems, List.map_append, map_entryAt_under] at hnodup ⊢
      obtain ⟨hitems, hrest⟩ := update_child hchild hnodup
      rw [flattenItems, join_dotted hpath, flattenItems_items h.2 hpath (index + 1) _ hrest, hitems,
        List.append_assoc]

theorem flattenFields_items {values : List (String × Value)} (h : LabelledFields values)
    {path : List String} (hpath : ∀ s ∈ path, Segment s) (result : OrderedDict String Leaf)
    (hnodup : (result.keys ++ ((leavesFields values).map (entryAt path)).map Prod.fst).Nodup) :
    (flattenFields values (dotted path) result).items =
      result.items ++ (leavesFields values).map (entryAt path) := by
  cases values with
  | nil => exact (List.append_nil _).symm
  | cons v values =>
      obtain ⟨name, value⟩ := v
      have hchild := flattenNode_items h.2.1 (segments_concat hpath h.1)
      rw [leavesFields, List.map_append, map_entryAt_under] at hnodup ⊢
      obtain ⟨hitems, hrest⟩ := update_child hchild hnodup
      rw [flattenFields, join_dotted hpath, flattenFields_items h.2.2 hpath _ hrest, hitems,
        List.append_assoc]

end

/-! ## What the leaves say -/

mutual

/-- Every value of the type has a leaf. -/
def planted : Hint → Bool
  | .bool => true
  | .int => true
  | .str => true
  | .optional member => planted member
  | .tuple _ => false
  | .dataclass fields => plantedFields fields

def plantedFields : List (Field × Hint) → Bool
  | [] => false
  | (_, hint) :: fields => planted hint || plantedFields fields

end

/-- A type of leaves alone. -/
def leafType : Hint → Bool
  | .bool => true
  | .int => true
  | .str => true
  | .optional member => leafType member
  | .tuple _ => false
  | .dataclass _ => false

mutual

/-- A type whose values can be told by their leaves: fields have labels of their own, only a leaf
is optional, and no element of a tuple is without a leaf. -/
def faithful : Hint → Bool
  | .bool => true
  | .int => true
  | .str => true
  | .optional member => leafType member
  | .tuple element => planted element && faithful element
  | .dataclass fields =>
    decide (fields.map fun f => f.1.name).Nodup && faithfulFields fields

def faithfulFields : List (Field × Hint) → Bool
  | [] => true
  | (f, hint) :: fields => isSegment f.name && faithful hint && faithfulFields fields

end

/-- The schema's types are such. -/
theorem windbreakConfig_faithful : faithful windbreakConfig = true := by decide +kernel

theorem names_of_typedFields {fields : List (Field × Hint)} {values : List (String × Value)}
    (h : typedFields fields values = true) :
    values.map Prod.fst = fields.map fun f => f.1.name := by
  induction fields generalizing values with
  | nil => rw [typedFields_nil.mp h]; rfl
  | cons f fields ih =>
      obtain ⟨value, others, rfl, -, hothers⟩ := typedFields_cons.mp h
      rw [List.map_cons, List.map_cons, ih hothers]

theorem leaf_of_leafType {hint : Hint} (h : leafType hint = true) {value : Value}
    (ht : typed hint value = true) : ∃ a, value = .leaf a := by
  induction hint using leafType.induct with
  | case1 =>
      obtain ⟨b, rfl⟩ := typed_bool.mp ht
      exact ⟨.bool b, rfl⟩
  | case2 =>
      obtain ⟨i, rfl⟩ := typed_int.mp ht
      exact ⟨.int i, rfl⟩
  | case3 =>
      obtain ⟨s, rfl⟩ := typed_str.mp ht
      exact ⟨.str s, rfl⟩
  | case4 member ih =>
      rcases typed_optional.mp ht with rfl | hmember
      · exact ⟨.none, rfl⟩
      · exact ih h hmember
  | case5 element => cases h
  | case6 fields => cases h

mutual

/-- A value of a faithful type names its fields once, and by labels. -/
theorem labelled_of_typed {hint : Hint} (h : faithful hint = true) {value : Value}
    (ht : typed hint value = true) : Labelled value := by
  cases hint with
  | bool =>
      obtain ⟨a, rfl⟩ := leaf_of_leafType rfl ht
      trivial
  | int =>
      obtain ⟨a, rfl⟩ := leaf_of_leafType rfl ht
      trivial
  | str =>
      obtain ⟨a, rfl⟩ := leaf_of_leafType rfl ht
      trivial
  | optional member =>
      have hleaf : leafType (.optional member) = true := h
      obtain ⟨a, rfl⟩ := leaf_of_leafType hleaf ht
      trivial
  | tuple element =>
      obtain ⟨items, rfl, hitems⟩ := typed_tuple.mp ht
      have hone : ∀ item ∈ items, Labelled item := fun item hitem =>
        labelled_of_typed (Bool.and_eq_true_iff.mp h).2 (hitems item hitem)
      exact labelledItems_iff.mpr hone
  | dataclass fields =>
      obtain ⟨values, rfl, hvalues⟩ := typed_dataclass.mp ht
      obtain ⟨hnames, hfields⟩ := Bool.and_eq_true_iff.mp h
      refine ⟨?_, labelled_of_typedFields hfields hvalues⟩
      rw [names_of_typedFields hvalues]
      exact of_decide_eq_true hnames

theorem labelled_of_typedFields {fields : List (Field × Hint)} (h : faithfulFields fields = true)
    {values : List (String × Value)} (ht : typedFields fields values = true) :
    LabelledFields values := by
  cases fields with
  | nil =>
      rw [typedFields_nil.mp ht]
      trivial
  | cons f fields =>
      obtain ⟨f, hint⟩ := f
      obtain ⟨value, others, rfl, hvalue, hothers⟩ := typedFields_cons.mp ht
      obtain ⟨hfirst, hrest⟩ := Bool.and_eq_true_iff.mp h
      obtain ⟨hname, hhint⟩ := Bool.and_eq_true_iff.mp hfirst
      exact ⟨segment_of_isSegment hname, labelled_of_typed hhint hvalue,
        labelled_of_typedFields hrest hothers⟩

end

mutual

theorem leaves_ne_nil {hint : Hint} (h : planted hint = true) {value : Value}
    (ht : typed hint value = true) : leaves value ≠ [] := by
  cases hint with
  | bool =>
      obtain ⟨a, rfl⟩ := leaf_of_leafType rfl ht
      exact List.cons_ne_nil _ _
  | int =>
      obtain ⟨a, rfl⟩ := leaf_of_leafType rfl ht
      exact List.cons_ne_nil _ _
  | str =>
      obtain ⟨a, rfl⟩ := leaf_of_leafType rfl ht
      exact List.cons_ne_nil _ _
  | optional member =>
      rcases typed_optional.mp ht with rfl | hmember
      · exact List.cons_ne_nil _ _
      · have hplanted : planted member = true := h
        exact leaves_ne_nil hplanted hmember
  | tuple element => cases h
  | dataclass fields =>
      obtain ⟨values, rfl, hvalues⟩ := typed_dataclass.mp ht
      exact leavesFields_ne_nil h hvalues

theorem leavesFields_ne_nil {fields : List (Field × Hint)} (h : plantedFields fields = true)
    {values : List (String × Value)} (ht : typedFields fields values = true) :
    leavesFields values ≠ [] := by
  cases fields with
  | nil => cases h
  | cons f fields =>
      obtain ⟨f, hint⟩ := f
      obtain ⟨value, others, rfl, hvalue, hothers⟩ := typedFields_cons.mp ht
      rw [leavesFields]
      rcases Bool.or_eq_true_iff.mp h with hhint | hrest
      · intro hnil
        exact leaves_ne_nil hhint hvalue (List.map_eq_nil_iff.mp (List.append_eq_nil_iff.mp hnil).1)
      · exact List.append_ne_nil_of_right_ne_nil _ (leavesFields_ne_nil hrest hothers)

end

/-- A leaf is told by its leaf. -/
theorem eq_of_leaf {a b : Leaf}
    (h : SameLeaves (leaves (.leaf a : Value)) (leaves (.leaf b : Value))) : a = b := by
  have hmem : (([], a) : List String × Leaf) ∈ leaves (.leaf b : Value) := (h _).mp (.head _)
  exact (Prod.mk.inj (List.mem_singleton.mp hmem)).2

/-- A tuple is told by its leaves if its elements are, and none is without a leaf. -/
theorem eq_of_leavesItems {P : Value → Prop} (hplanted : ∀ value, P value → leaves value ≠ [])
    (hone : ∀ value value', P value → P value' → SameLeaves (leaves value) (leaves value') →
      value = value') {items items' : List Value} (hitems : ∀ item ∈ items, P item)
    (hitems' : ∀ item ∈ items', P item) (index : ℕ)
    (h : SameLeaves (leavesFields (indexed index items)) (leavesFields (indexed index items'))) :
    items = items' := by
  induction items generalizing items' index with
  | nil =>
      cases items' with
      | nil => rfl
      | cons value' items' =>
          -- an item on one side only has a leaf on one side only
          obtain ⟨entry, hentry⟩ := List.exists_mem_of_ne_nil _ (hplanted _ (hitems' _ (.head _)))
          have hmem := (h (under (toString index) entry)).mpr
            (List.mem_append_left _ (List.mem_map_of_mem hentry))
          exact absurd hmem List.not_mem_nil
  | cons value items ih =>
      cases items' with
      | nil =>
          obtain ⟨entry, hentry⟩ := List.exists_mem_of_ne_nil _ (hplanted _ (hitems _ (.head _)))
          have hmem := (h (under (toString index) entry)).mp
            (List.mem_append_left _ (List.mem_map_of_mem hentry))
          exact absurd hmem List.not_mem_nil
      | cons value' items' =>
          obtain ⟨hfirst, hrest⟩ := same_cons (index_fresh index items) (index_fresh index items') h
          obtain ⟨hvalue, hothers⟩ := List.forall_mem_cons.mp hitems
          obtain ⟨hvalue', hothers'⟩ := List.forall_mem_cons.mp hitems'
          rw [hone value value' hvalue hvalue' hfirst, ih hothers hothers' (index + 1) hrest]

mutual

/-- **A value of a faithful type is told by its leaves.** -/
theorem eq_of_leaves {hint : Hint} (h : faithful hint = true) {value value' : Value}
    (ht : typed hint value = true) (ht' : typed hint value' = true)
    (hsame : SameLeaves (leaves value) (leaves value')) : value = value' := by
  cases hint with
  | bool =>
      obtain ⟨a, rfl⟩ := leaf_of_leafType rfl ht
      obtain ⟨b, rfl⟩ := leaf_of_leafType rfl ht'
      rw [eq_of_leaf hsame]
  | int =>
      obtain ⟨a, rfl⟩ := leaf_of_leafType rfl ht
      obtain ⟨b, rfl⟩ := leaf_of_leafType rfl ht'
      rw [eq_of_leaf hsame]
  | str =>
      obtain ⟨a, rfl⟩ := leaf_of_leafType rfl ht
      obtain ⟨b, rfl⟩ := leaf_of_leafType rfl ht'
      rw [eq_of_leaf hsame]
  | optional member =>
      have hleaf : leafType (.optional member) = true := h
      obtain ⟨a, rfl⟩ := leaf_of_leafType hleaf ht
      obtain ⟨b, rfl⟩ := leaf_of_leafType hleaf ht'
      rw [eq_of_leaf hsame]
  | tuple element =>
      obtain ⟨items, rfl, hitems⟩ := typed_tuple.mp ht
      obtain ⟨items', rfl, hitems'⟩ := typed_tuple.mp ht'
      obtain ⟨hplanted, helement⟩ := Bool.and_eq_true_iff.mp h
      have hone : ∀ v v' : Value, typed element v = true → typed element v' = true →
          SameLeaves (leaves v) (leaves v') → v = v' :=
        fun _ _ hv hv' hs => eq_of_leaves helement hv hv' hs
      rw [leaves, leaves, leavesItems_eq, leavesItems_eq] at hsame
      rw [eq_of_leavesItems (fun _ hv => leaves_ne_nil hplanted hv) hone hitems hitems' 0 hsame]
  | dataclass fields =>
      obtain ⟨values, rfl, hvalues⟩ := typed_dataclass.mp ht
      obtain ⟨values', rfl, hvalues'⟩ := typed_dataclass.mp ht'
      obtain ⟨hnames, hfields⟩ := Bool.and_eq_true_iff.mp h
      rw [eq_of_leavesFields hfields (of_decide_eq_true hnames) hvalues hvalues' hsame]

theorem eq_of_leavesFields {fields : List (Field × Hint)} (h : faithfulFields fields = true)
    (hnames : (fields.map fun f => f.1.name).Nodup) {values values' : List (String × Value)}
    (ht : typedFields fields values = true) (ht' : typedFields fields values' = true)
    (hsame : SameLeaves (leavesFields values) (leavesFields values')) : values = values' := by
  cases fields with
  | nil => rw [typedFields_nil.mp ht, typedFields_nil.mp ht']
  | cons f fields =>
      obtain ⟨f, hint⟩ := f
      obtain ⟨value, others, rfl, hvalue, hothers⟩ := typedFields_cons.mp ht
      obtain ⟨value', others', rfl, hvalue', hothers'⟩ := typedFields_cons.mp ht'
      obtain ⟨hfirst, hrest⟩ := Bool.and_eq_true_iff.mp h
      obtain ⟨hfresh, hdistinct⟩ := List.nodup_cons.mp hnames
      have hnot : f.name ∉ others.map Prod.fst := by
        rw [names_of_typedFields hothers]
        exact hfresh
      have hnot' : f.name ∉ others'.map Prod.fst := by
        rw [names_of_typedFields hothers']
        exact hfresh
      obtain ⟨hhead, htail⟩ := same_cons hnot hnot' hsame
      rw [eq_of_leaves (Bool.and_eq_true_iff.mp hfirst).2 hvalue hvalue' hhead,
        eq_of_leavesFields hrest hdistinct hothers hothers' htail]

end

/-! ## The dictionary of a configuration -/

theorem WindbreakConfig.labelled (config : WindbreakConfig) : Labelled config.value :=
  labelled_of_typed windbreakConfig_faithful config.wellTyped

/-- **The dictionary holds the leaves**, each under the text of its path. -/
theorem flatten_items (config : WindbreakConfig) :
    (flatten config).items = (leaves config.value).map (entryAt []) :=
  have hroot : ∀ s ∈ ([] : List String), Segment s := fun _ hs => absurd hs List.not_mem_nil
  flattenNode_items config.labelled hroot

/-- A leaf stands under the text of its path, and nowhere else. -/
theorem mem_leaves_iff (config : WindbreakConfig) {path : List String}
    (hpath : ∀ s ∈ path, Segment s) (a : Leaf) :
    (path, a) ∈ leaves config.value ↔ (flatten config).get? (dotted path) = some a := by
  rw [← OrderedDict.mem_items_iff, flatten_items, List.mem_map]
  constructor
  · exact fun h => ⟨(path, a), h, rfl⟩
  · rintro ⟨entry, hentry, hsame⟩
    obtain ⟨hkey, rfl⟩ := Prod.mk.inj hsame
    have hsegments := segments_leaves config.labelled entry hentry
    rw [← dotted_injective hsegments hpath hkey]
    exact hentry

/-- **One dictionary, one configuration.** -/
theorem eq_of_flatten {a b : WindbreakConfig}
    (h : ∀ key, (flatten a).get? key = (flatten b).get? key) : a = b := by
  refine WindbreakConfig.ext (eq_of_leaves windbreakConfig_faithful a.wellTyped b.wellTyped ?_)
  rintro ⟨path, leaf⟩
  constructor
  · intro hmem
    have hpath := segments_leaves a.labelled _ hmem
    rw [mem_leaves_iff b hpath, ← h]
    exact (mem_leaves_iff a hpath leaf).mp hmem
  · intro hmem
    have hpath := segments_leaves b.labelled _ hmem
    rw [mem_leaves_iff a hpath, h]
    exact (mem_leaves_iff b hpath leaf).mp hmem

/-! ## One text, one configuration -/

/-- A leaf with every high surrogate before a low one joined to the character they stand for. -/
def joinPairs : Leaf → Leaf
  | .none => .none
  | .bool b => .bool b
  | .int i => .int i
  | .str s => .str ⟨JsonValue.joined s.1, (JsonValue.sound_joined s.2).1⟩

mutual

/-- Joining surrogates leaves a value its type. -/
theorem typed_joinPairs {hint : Hint} {value : Value} (h : typed hint value = true) :
    typed hint (value.map joinPairs) = true := by
  cases hint with
  | bool =>
      obtain ⟨b, rfl⟩ := typed_bool.mp h
      rfl
  | int =>
      obtain ⟨i, rfl⟩ := typed_int.mp h
      rfl
  | str =>
      obtain ⟨s, rfl⟩ := typed_str.mp h
      rfl
  | optional member =>
      rcases typed_optional.mp h with rfl | hmember
      · rfl
      · exact typed_optional.mpr (.inr (typed_joinPairs hmember))
  | tuple element =>
      obtain ⟨items, rfl, hitems⟩ := typed_tuple.mp h
      refine typed_tuple.mpr ⟨items.map (DataTree.map joinPairs), ?_, ?_⟩
      · rw [DataTree.map, mapItems_eq]
      · intro item hitem
        obtain ⟨inner, hinner, rfl⟩ := List.mem_map.mp hitem
        exact typed_joinPairs (hitems inner hinner)
  | dataclass fields =>
      obtain ⟨values, rfl, hvalues⟩ := typed_dataclass.mp h
      exact typed_dataclass.mpr ⟨_, rfl, typedFields_joinPairs hvalues⟩

theorem typedFields_joinPairs {fields : List (Field × Hint)} {values : List (String × Value)}
    (h : typedFields fields values = true) :
    typedFields fields (mapFields joinPairs values) = true := by
  cases fields with
  | nil =>
      rw [typedFields_nil.mp h]
      rfl
  | cons f fields =>
      obtain ⟨f, hint⟩ := f
      obtain ⟨value, others, rfl, hvalue, hothers⟩ := typedFields_cons.mp h
      exact typedFields_cons.mpr ⟨_, _, rfl, typed_joinPairs hvalue, typedFields_joinPairs hothers⟩

end

/-- A configuration with the surrogates of its strings joined. -/
def WindbreakConfig.joined (config : WindbreakConfig) : WindbreakConfig :=
  ⟨config.value.map joinPairs, typed_joinPairs config.wellTyped⟩

/-- No string of the configuration has a high surrogate before a low one. -/
def WindbreakConfig.Sound (config : WindbreakConfig) : Prop :=
  ∀ entry ∈ leaves config.value, ∀ s : Text, entry.2 = .str s → JsonValue.Sound s.1

theorem dumps_joinPairs (a : Leaf) :
    JsonValue.dumps (joinPairs a).toJson = JsonValue.dumps a.toJson := by
  cases a with
  | none => rfl
  | bool b => rfl
  | int i => rfl
  | str s => exact JsonValue.quoted_joined s.2

theorem writable_joinPairs (digits : ℕ) (a : Leaf) :
    (joinPairs a).writable digits = a.writable digits := by
  cases a with
  | none => rfl
  | bool b => rfl
  | int i => rfl
  | str s => rfl

/-- Joining the surrogates joins them leaf by leaf. -/
theorem flatten_joined (config : WindbreakConfig) :
    (flatten config.joined).items =
      (flatten config).items.map fun entry => (entry.1, joinPairs entry.2) := by
  have hleaves : leaves config.joined.value =
      (leaves config.value).map fun e => (e.1, joinPairs e.2) := leaves_map joinPairs config.value
  rw [flatten_items, flatten_items, hleaves, List.map_map, List.map_map]
  rfl

/-- **The text does not show** whether surrogates are joined. -/
theorem canonicalJson_joined (digits : ℕ) (config : WindbreakConfig) :
    canonicalJson digits config.joined = canonicalJson digits config := by
  have hwritable : (flatten config.joined).values.all (Leaf.writable digits) =
      (flatten config).values.all (Leaf.writable digits) := by
    unfold OrderedDict.values
    rw [flatten_joined, List.map_map, List.all_map, List.all_map]
    exact congrArg _ (funext fun entry => writable_joinPairs digits entry.2)
  have htext : JsonValue.dumps (.obj (jsonFields (flatten config.joined))) =
      JsonValue.dumps (.obj (jsonFields (flatten config))) := by
    have hfields : JsonValue.dumpsFields (jsonFields (flatten config.joined)) =
        JsonValue.dumpsFields (jsonFields (flatten config)) := by
      unfold jsonFields
      rw [JsonValue.dumpsFields_eq, JsonValue.dumpsFields_eq, flatten_joined, List.map_map,
        List.map_map, List.map_map]
      exact List.map_congr_left fun entry _ => Prod.ext rfl (dumps_joinPairs entry.2)
    rw [JsonValue.dumps, JsonValue.dumps, hfields]
  unfold canonicalJson
  rw [hwritable, htext]

theorem WindbreakConfig.joined_sound (config : WindbreakConfig) : config.joined.Sound := by
  intro entry hentry s hs
  have hleaves : leaves config.joined.value =
      (leaves config.value).map fun e => (e.1, joinPairs e.2) := leaves_map joinPairs config.value
  rw [hleaves] at hentry
  obtain ⟨inner, -, rfl⟩ := List.mem_map.mp hentry
  obtain ⟨path, a⟩ := inner
  cases a with
  | none => cases hs
  | bool b => cases hs
  | int i => cases hs
  | str t =>
      cases hs
      exact JsonValue.sound_joined t.2

theorem Leaf.toJson_injective {a b : Leaf} (h : a.toJson = b.toJson) : a = b := by
  cases a with
  | none =>
      cases b with
      | none => rfl
      | bool y => cases h
      | int j => cases h
      | str t => cases h
  | bool x =>
      cases b with
      | bool y => exact congrArg Leaf.bool (JsonValue.bool.inj h)
      | none => cases h
      | int j => cases h
      | str t => cases h
  | int i =>
      cases b with
      | int j => exact congrArg Leaf.int (JsonValue.int.inj h)
      | none => cases h
      | bool y => cases h
      | str t => cases h
  | str s =>
      cases b with
      | str t => exact congrArg Leaf.str (Subtype.ext (JsonValue.str.inj h))
      | none => cases h
      | bool y => cases h
      | int j => cases h

theorem Leaf.sorted_toJson (a : Leaf) : a.toJson.sorted = a.toJson := by
  cases a with
  | none => rfl
  | bool b => rfl
  | int i => rfl
  | str s => rfl

/-- What has a text can be read back from it. -/
theorem fits_jsonFields {digits : ℕ} {config : WindbreakConfig} (hsound : config.Sound)
    (hwritable : (flatten config).values.all (Leaf.writable digits) = true) :
    JsonValue.Fits ⟨digits, 1⟩ 1 (.obj (jsonFields (flatten config))) := by
  refine .obj 0 _ ?_ (fun f hf => ?_) (fun f hf => ?_)
  · have hkeys : (jsonFields (flatten config)).map Prod.fst =
        (flatten config).keys.map JsonValue.codes := by
      unfold jsonFields OrderedDict.keys
      rw [List.map_map, List.map_map]
      rfl
    rw [hkeys]
    exact (flatten config).keys_nodup.map fun _ _ h => Json.codes_injective h
  · obtain ⟨entry, -, rfl⟩ := List.mem_map.mp hf
    exact Json.sound_codes entry.1
  · obtain ⟨entry, hentry, rfl⟩ := List.mem_map.mp hf
    have hwrites := List.all_eq_true.mp hwritable entry.2 (List.mem_map_of_mem hentry)
    rw [flatten_items] at hentry
    obtain ⟨inner, hinner, rfl⟩ := List.mem_map.mp hentry
    obtain ⟨path, a⟩ := inner
    cases a with
    | none => exact .null 0
    | bool b => exact .bool 0 b
    | int i => exact .int 0 i (of_decide_eq_true hwrites)
    | str s => exact .str 0 s.1 (hsound _ hinner s rfl)

/-- A text is read back as the fields of the dictionary it was written from. -/
theorem loads_canonicalJson {digits : ℕ} {config : WindbreakConfig} (hsound : config.Sound)
    {written : List Char} (h : canonicalJson digits config = some written) :
    JsonValue.loads ⟨digits, 1⟩ (String.ofList written) =
      .ok (.obj (JsonValue.sortKeys (jsonFields (flatten config)))) := by
  unfold canonicalJson at h
  split_ifs at h with hwritable
  cases h
  rw [JsonValue.loads_dumps (fits_jsonFields hsound hwritable), JsonValue.sorted,
    JsonValue.sortedFields_eq]
  have hsame : (jsonFields (flatten config)).map (fun f => (f.1, f.2.sorted)) =
      jsonFields (flatten config) := by
    unfold jsonFields
    rw [List.map_map]
    exact List.map_congr_left fun entry _ => Prod.ext rfl (Leaf.sorted_toJson entry.2)
  rw [hsame]

/-- A leaf of the one dictionary is a leaf of the other if the fields are the same. -/
theorem get?_of_jsonFields {flat flat' : OrderedDict String Leaf}
    (h : ∀ f ∈ jsonFields flat, f ∈ jsonFields flat') {key : String} {a : Leaf}
    (hkey : flat.get? key = some a) : flat'.get? key = some a := by
  have hmem := h _ (List.mem_map_of_mem (OrderedDict.mem_items_iff.mpr hkey))
  obtain ⟨entry, hentry, hsame⟩ := List.mem_map.mp hmem
  obtain ⟨hcodes, hleaf⟩ := Prod.mk.inj hsame
  obtain ⟨k, b⟩ := entry
  have hname : k = key := Json.codes_injective hcodes
  have hvalue : b = a := Leaf.toJson_injective hleaf
  rw [← hname, ← hvalue]
  exact OrderedDict.mem_items_iff.mp hentry

theorem eq_of_canonicalJson_sound {digits : ℕ} {a b : WindbreakConfig} (ha : a.Sound) (hb : b.Sound)
    {written : List Char} (h : canonicalJson digits a = some written)
    (h' : canonicalJson digits b = some written) : a = b := by
  have hread := loads_canonicalJson ha h
  rw [loads_canonicalJson hb h'] at hread
  have hsorted : JsonValue.sortKeys (jsonFields (flatten b)) =
      JsonValue.sortKeys (jsonFields (flatten a)) := JsonValue.obj.inj (Except.ok.inj hread)
  have hperm : (jsonFields (flatten a)).Perm (jsonFields (flatten b)) :=
    (JsonValue.sortKeys_perm _).symm.trans (hsorted ▸ JsonValue.sortKeys_perm _)
  refine eq_of_flatten fun key => Option.ext fun leaf => ⟨fun hleaf => ?_, fun hleaf => ?_⟩
  · exact get?_of_jsonFields (fun f hf => hperm.mem_iff.mp hf) hleaf
  · exact get?_of_jsonFields (fun f hf => hperm.mem_iff.mpr hf) hleaf

/-- **One text, one configuration**, once surrogates are joined. -/
theorem joined_of_canonicalJson {digits : ℕ} {a b : WindbreakConfig} {written : List Char}
    (h : canonicalJson digits a = some written) (h' : canonicalJson digits b = some written) :
    a.joined = b.joined :=
  eq_of_canonicalJson_sound a.joined_sound b.joined_sound
    ((canonicalJson_joined digits a).trans h) ((canonicalJson_joined digits b).trans h')

/-! ## What a difference says -/

theorem get?_lacking (flat other : OrderedDict String Leaf) (key : String) :
    (lacking flat other).get? key =
      if (other.get? key).isSome then none else flat.get? key := by
  unfold lacking
  rw [OrderedDict.get?_filterMapItems]
  by_cases hkey : key ∈ other.keys
  · rw [if_pos (OrderedDict.isSome_get?_iff.mpr hkey)]
    cases flat.get? key with
    | none => rfl
    | some a => exact if_pos hkey
  · rw [if_neg fun hsome => hkey (OrderedDict.isSome_get?_iff.mp hsome)]
    cases flat.get? key with
    | none => rfl
    | some a => exact if_neg hkey

theorem get?_differing (oldFlat newFlat : OrderedDict String Leaf) (key : String) :
    (differing oldFlat newFlat).get? key =
      (oldFlat.get? key).bind fun old =>
        (newFlat.get? key).bind fun new => if old ≠ new then some (old, new) else none := by
  unfold differing
  rw [OrderedDict.get?_filterMapItems]

/-- **No difference** at a path: the dictionaries agree there. -/
theorem no_difference_iff (oldFlat newFlat : OrderedDict String Leaf) (key : String) :
    ((lacking newFlat oldFlat).get? key = none ∧ (lacking oldFlat newFlat).get? key = none ∧
      (differing oldFlat newFlat).get? key = none) ↔ oldFlat.get? key = newFlat.get? key := by
  rw [get?_lacking, get?_lacking, get?_differing]
  cases oldFlat.get? key with
  | none =>
      cases newFlat.get? key with
      | none => simp
      | some new => simp
  | some old =>
      cases newFlat.get? key with
      | none => simp
      | some new =>
          by_cases hsame : old = new
          · simp [hsame]
          · simp [hsame]

/-- **The difference is empty** only between a configuration and itself. -/
theorem diffConfigs_isEmpty (old new : WindbreakConfig) :
    (diffConfigs old new).isEmpty = true ↔ old = new := by
  unfold ConfigDiff.isEmpty
  rw [Bool.and_eq_true, Bool.and_eq_true, OrderedDict.isEmpty_items_iff,
    OrderedDict.isEmpty_items_iff, OrderedDict.isEmpty_items_iff]
  constructor
  · rintro ⟨⟨hadded, hremoved⟩, hchanged⟩
    exact eq_of_flatten fun key =>
      (no_difference_iff _ _ key).mp ⟨hadded key, hremoved key, hchanged key⟩
  · rintro rfl
    have hnone := fun key => (no_difference_iff (flatten old) (flatten old) key).mpr rfl
    exact ⟨⟨fun key => (hnone key).1, fun key => (hnone key).2.1⟩, fun key => (hnone key).2.2⟩

/-- **The difference leads** from the one dictionary to the other. -/
theorem applyTo_diffConfigs (old new : WindbreakConfig) (key : String) :
    ((diffConfigs old new).applyTo (flatten old)).get? key = (flatten new).get? key := by
  unfold ConfigDiff.applyTo diffConfigs
  rw [OrderedDict.get?_update, OrderedDict.get?_update, OrderedDict.get?_popAll_keys,
    OrderedDict.get?_mapValues, get?_lacking, get?_lacking, get?_differing]
  cases (flatten old).get? key with
  | none =>
      cases (flatten new).get? key with
      | none => simp
      | some newLeaf => simp
  | some oldLeaf =>
      cases (flatten new).get? key with
      | none => simp
      | some newLeaf =>
          by_cases hsame : oldLeaf = newLeaf
          · simp [hsame]
          · simp [hsame]

/-! ## The hash identifies the configuration -/

/-- **The hash identifies the configuration** up to surrogates a text cannot tell from the
character they stand for. -/
theorem hash_identifies (sha256 : List Char → String) (digits : ℕ) (a b : WindbreakConfig) :
    (∀ written, canonicalJson digits a = some written →
      (canonicalJson digits b = some written ↔ a.joined = b.joined)) ∧
    (a.Sound → b.Sound → ∀ written, canonicalJson digits a = some written →
      canonicalJson digits b = some written → a = b) ∧
    ((diffConfigs a b).isEmpty = true ↔ a = b) ∧
    (∀ key, ((diffConfigs a b).applyTo (flatten a)).get? key = (flatten b).get? key) ∧
    (∀ digest, configHash sha256 digits a = some digest → configHash sha256 digits b = some digest →
      a.joined = b.joined ∨ ∃ first second, first ≠ second ∧ sha256 first = sha256 second) := by
  refine ⟨fun written h => ⟨joined_of_canonicalJson h, fun hjoined => ?_⟩,
    fun ha hb written h h' => eq_of_canonicalJson_sound ha hb h h', diffConfigs_isEmpty a b,
    applyTo_diffConfigs a b, fun digest h h' => ?_⟩
  · rw [← canonicalJson_joined, ← hjoined, canonicalJson_joined]
    exact h
  · obtain ⟨first, hfirst, hdigest⟩ := Option.map_eq_some_iff.mp h
    obtain ⟨second, hsecond, hdigest'⟩ := Option.map_eq_some_iff.mp h'
    by_cases hsame : first = second
    · exact .inl (joined_of_canonicalJson hfirst (hsame ▸ hsecond))
    · exact .inr ⟨first, second, hsame, hdigest.trans hdigest'.symm⟩

/-- A configuration has a text if its leaves have. -/
theorem canonicalJson_of_writable {digits : ℕ} {config : WindbreakConfig}
    (h : (leaves config.value).all (fun entry => entry.2.writable digits) = true) :
    ∃ written, canonicalJson digits config = some written := by
  have hall : (flatten config).values.all (Leaf.writable digits) = true := by
    unfold OrderedDict.values
    rw [flatten_items, List.map_map, List.all_map]
    exact h
  exact ⟨_, if_pos hall⟩

/-- The default configuration with another ceiling. -/
def withCeiling (ceiling : Text) : Value :=
  .record (("mode_ceiling", .leaf (.str ceiling)) :: (defaults windbreakConfigFields).tail)

theorem typed_withCeiling (ceiling : Text) :
    typed windbreakConfig (withCeiling ceiling) = true := by
  have hdefault : typedFields windbreakConfigFields (defaults windbreakConfigFields) = true :=
    default_wellTyped
  obtain ⟨value, others, hsame, -, hothers⟩ := typedFields_cons.mp hdefault
  have htail : (defaults windbreakConfigFields).tail = others := congrArg List.tail hsame
  refine typed_dataclass.mpr ⟨_, rfl, typedFields_cons.mpr ⟨_, _, rfl, rfl, ?_⟩⟩
  rw [htail]
  exact hothers

/-- A smile as a YAML document can write it: by the escapes of its two surrogates. -/
def pairSmile : WindbreakConfig := ⟨withCeiling ⟨[55357, 56832], by decide⟩, typed_withCeiling _⟩

/-- The same smile as one character. -/
def plainSmile : WindbreakConfig := ⟨withCeiling ⟨[128512], by decide⟩, typed_withCeiling _⟩

/-- Two configurations with one text, and so with one hash. -/
theorem surrogates_collide : pairSmile ≠ plainSmile ∧ ∃ written,
    canonicalJson 4300 pairSmile = some written ∧ canonicalJson 4300 plainSmile = some written := by
  have hjoined : pairSmile.joined = plainSmile.joined := by
    refine WindbreakConfig.ext ?_
    rfl
  obtain ⟨written, hwritten⟩ : ∃ written, canonicalJson 4300 pairSmile = some written :=
    canonicalJson_of_writable (by decide +kernel)
  refine ⟨fun h => ?_, written, hwritten, ?_⟩
  · have hceiling : pairSmile.value = plainSmile.value := congrArg WindbreakConfig.value h
    unfold pairSmile plainSmile withCeiling at hceiling
    have hfirst := (List.cons.inj (DataTree.record.inj hceiling)).1
    have htext := Subtype.mk.inj (Leaf.str.inj (DataTree.leaf.inj (Prod.mk.inj hfirst).2))
    exact absurd htext (by decide)
  · rw [← canonicalJson_joined, ← hjoined, canonicalJson_joined]
    exact hwritten

end Windbreak.Config
