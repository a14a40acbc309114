import Mathlib.Data.List.Basic
import Mathlib.Data.List.Nodup
import Mathlib.Data.List.Range

/-!
# Trees of records and lists, and the paths to their leaves

**Paths.** `dotted` joins the labels on the way to a leaf with dots; labels that are not empty and
have no dot in them can be read back from it (`dotted_injective`).

**Leaves.** `leaves` lists a tree's leaves with their paths: an item of a list stands under its
index, a field of a record under its name. In a tree whose records name each field once
(`Labelled`) no path leads to two leaves (`nodup_leaves`).

**What the leaves say.** `SameLeaves` compares trees by their leaves alone; `same_cons` takes the
first children of two lists of children off, and the rest still agree.
-/

/-! ## Names that carry a number

A component that numbers what it creates gives its things the names `stem1`, `stem2`, and so on.
`Numbering stem names` says that some names are exactly those handed out so far; then they are
pairwise distinct, and the next one is new.
-/

namespace Numbered

/-- The name of number `n`. -/
def name (stem : String) (n : ℕ) : String := stem ++ toString n

/-- Two numbers do not have one decimal text. -/
theorem toString_injective : Function.Injective (toString : ℕ → String) := by
  intro m n h
  have hrepr : m.repr = n.repr := h
  rw [Nat.repr_eq_ofList_toDigits, Nat.repr_eq_ofList_toDigits] at hrepr
  have hdigits : Nat.toDigits 10 m = Nat.toDigits 10 n := String.ofList_injective hrepr
  have hm : Nat.ofDigitChars 10 (Nat.toDigits 10 m) 0 = m := Nat.ofDigitChars_ten_toDigits
  rw [hdigits, Nat.ofDigitChars_ten_toDigits] at hm
  exact hm.symm

theorem name_injective (stem : String) : Function.Injective (name stem) := by
  intro m n h
  exact toString_injective (String.append_right_inj stem |>.mp h)

/-- The names of the numbers up to `n`. -/
def upTo (stem : String) (n : ℕ) : List String := (List.range n).map fun k => name stem (k + 1)

theorem upTo_succ (stem : String) (n : ℕ) :
    upTo stem (n + 1) = upTo stem n ++ [name stem (n + 1)] := by
  simp [upTo, List.range_succ]

theorem upTo_nodup (stem : String) (n : ℕ) : (upTo stem n).Nodup :=
  List.nodup_range.map fun _ _ h => Nat.succ_injective (name_injective stem h)

/-- The next name is new. -/
theorem name_not_mem_upTo (stem : String) (n : ℕ) : name stem (n + 1) ∉ upTo stem n := by
  have hnodup := upTo_nodup stem (n + 1)
  rw [upTo_succ] at hnodup
  exact fun hmem => List.disjoint_of_nodup_append hnodup hmem (List.mem_singleton.mpr rfl)

end Numbered

/-! ## Paths -/

namespace DottedPath

/-- A label that a dotted path can be cut at. -/
def Segment (s : String) : Prop := s ≠ "" ∧ '.' ∉ s.toList

/-- The text of a path. -/
def dotted (path : List String) : String := String.intercalate "." path

/-- A key after a path, or a fresh path. -/
def join (path key : String) : String := if path = "" then key else path ++ "." ++ key

theorem dotted_cons {s : String} {path : List String} (h : path ≠ []) :
    dotted (s :: path) = s ++ "." ++ dotted path := String.intercalate_cons_of_ne_nil h

theorem dotted_ne_empty {path : List String} (hne : path ≠ []) (h : ∀ s ∈ path, Segment s) :
    dotted path ≠ "" := by
  intro hempty
  cases path with
  | nil => exact hne rfl
  | cons s path =>
      obtain ⟨hs, -⟩ := h s (.head _)
      by_cases hpath : path = []
      · subst hpath
        exact hs (String.intercalate_singleton.symm.trans hempty)
      · rw [dotted_cons hpath, String.append_eq_empty_iff, String.append_eq_empty_iff] at hempty
        exact hs hempty.1.1

/-- A key is joined to a path's text as it is to the path. -/
theorem join_dotted {path : List String} (h : ∀ s ∈ path, Segment s) (key : String) :
    join (dotted path) key = dotted (path ++ [key]) := by
  unfold join
  by_cases hpath : path = []
  · subst hpath
    exact (if_pos rfl).trans String.intercalate_singleton.symm
  · rw [if_neg (dotted_ne_empty hpath h)]
    unfold dotted
    rw [String.intercalate_append_of_ne_nil hpath (List.cons_ne_nil key []),
      String.intercalate_singleton]

/-- **A path is read back from its text.** -/
theorem dotted_injective {path path' : List String} (h : ∀ s ∈ path, Segment s)
    (h' : ∀ s ∈ path', Segment s) (hsame : dotted path = dotted path') : path = path' := by
  by_cases hne : path = []
  · subst hne
    by_contra hne'
    exact dotted_ne_empty (Ne.symm hne') h' hsame.symm
  · have hne' : path' ≠ [] := by
      rintro rfl
      exact dotted_ne_empty hne h hsame
    have hlists : ['.'].intercalate (path.map String.toList) =
        ['.'].intercalate (path'.map String.toList) := by
      have htexts := congrArg String.toList hsame
      unfold dotted at htexts
      rwa [String.toList_intercalate, String.toList_intercalate] at htexts
    have hcut : ∀ {p : List String}, p ≠ [] → (∀ s ∈ p, Segment s) →
        (['.'].intercalate (p.map String.toList)).splitOn '.' = p.map String.toList := by
      intro p hp hsegments
      refine List.splitOn_intercalate '.' ?_ (fun hnil => hp (List.map_eq_nil_iff.mp hnil))
      intro chars hchars
      obtain ⟨s, hs, rfl⟩ := List.mem_map.mp hchars
      exact (hsegments s hs).2
    have hmaps := (hcut hne h).symm.trans ((congrArg _ hlists).trans (hcut hne' h'))
    exact List.map_injective_iff.mpr (fun _ _ => String.toList_inj.mp) hmaps

/-- `Segment`, decided on the bytes of the text. -/
def isSegment (s : String) : Bool :=
  !s.toByteArray.data.toList.isEmpty && s.toByteArray.data.toList.all fun byte => byte != 46

theorem segment_of_isSegment {s : String} (h : isSegment s = true) : Segment s := by
  obtain ⟨hne, hbytes⟩ := Bool.and_eq_true_iff.mp h
  refine ⟨?_, fun hdot => ?_⟩
  · rintro rfl
    exact absurd hne (by decide)
  · have hencoded : s.toByteArray = s.toList.utf8Encode := by
      rw [← String.toByteArray_ofList, String.ofList_toList]
    have hmem : (46 : UInt8) ∈ s.toByteArray.data.toList := by
      rw [hencoded, List.utf8Encode, List.data_toByteArray, List.toList_toArray]
      exact List.mem_flatMap.mpr ⟨'.', hdot, by decide⟩
    exact absurd (List.all_eq_true.mp hbytes 46 hmem) (by decide)

/-- An index is a label. -/
theorem segment_index (n : ℕ) : Segment (toString n) := by
  have hdigits : ∀ c ∈ (toString n).toList, c.isDigit = true := by
    have hrepr : (toString n).toList = Nat.toDigits 10 n := by
      change n.repr.toList = _
      rw [Nat.repr_eq_ofList_toDigits, String.toList_ofList]
    rw [hrepr]
    exact fun c hc => Nat.isDigit_of_mem_toDigits (by decide) (by decide) hc
  refine ⟨fun hempty => ?_, fun hdot => absurd (hdigits '.' hdot) (by decide)⟩
  have hnil : Nat.toDigits 10 n = [] := by
    have hrepr : n.repr = "" := hempty
    rw [Nat.repr_eq_ofList_toDigits] at hrepr
    exact String.ofList_injective hrepr
  exact absurd hnil Nat.toDigits_ne_nil

end DottedPath

/-! ## Trees -/

/-- Data made of leaves, lists and records. -/
inductive DataTree (α : Type) where
  | leaf (a : α)
  | list (items : List (DataTree α))
  | record (fields : List (String × DataTree α))
  deriving Repr

namespace DataTree

open DottedPath

variable {α β : Type}

/-- A leaf one label further down. -/
def under (label : String) (entry : List String × α) : List String × α :=
  (label :: entry.1, entry.2)

mutual

/-- **The leaves**, each with the labels on the way to it. -/
def leaves : DataTree α → List (List String × α)
  | .leaf a => [([], a)]
  | .list items => leavesItems 0 items
  | .record fields => leavesFields fields

def leavesItems (index : ℕ) : List (DataTree α) → List (List String × α)
  | [] => []
  | t :: items => (leaves t).map (under (toString index)) ++ leavesItems (index + 1) items

def leavesFields : List (String × DataTree α) → List (List String × α)
  | [] => []
  | (name, t) :: fields => (leaves t).map (under name) ++ leavesFields fields

end

mutual

/-- Every record names a field once, and by a label. -/
def Labelled : DataTree α → Prop
  | .leaf _ => True
  | .list items => LabelledItems items
  | .record fields => (fields.map Prod.fst).Nodup ∧ LabelledFields fields

def LabelledItems : List (DataTree α) → Prop
  | [] => True
  | t :: items => Labelled t ∧ LabelledItems items

def LabelledFields : List (String × DataTree α) → Prop
  | [] => True
  | (name, t) :: fields => Segment name ∧ Labelled t ∧ LabelledFields fields

end

mutual

/-- The tree with every leaf changed. -/
def map (g : α → β) : DataTree α → DataTree β
  | .leaf a => .leaf (g a)
  | .list items => .list (mapItems g items)
  | .record fields => .record (mapFields g fields)

def mapItems (g : α → β) : List (DataTree α) → List (DataTree β)
  | [] => []
  | t :: items => map g t :: mapItems g items

def mapFields (g : α → β) : List (String × DataTree α) → List (String × DataTree β)
  | [] => []
  | (name, t) :: fields => (name, map g t) :: mapFields g fields

end

/-- The items of a list under their indices. -/
def indexed (index : ℕ) : List (DataTree α) → List (String × DataTree α)
  | [] => []
  | t :: items => (toString index, t) :: indexed (index + 1) items

theorem labelledItems_iff {items : List (DataTree α)} :
    LabelledItems items ↔ ∀ t ∈ items, Labelled t := by
  induction items with
  | nil => exact iff_of_true trivial fun t ht => absurd ht List.not_mem_nil
  | cons t items ih => rw [LabelledItems, ih, List.forall_mem_cons]

theorem leavesItems_eq (index : ℕ) (items : List (DataTree α)) :
    leavesItems index items = leavesFields (indexed index items) := by
  induction items generalizing index with
  | nil => rfl
  | cons t items ih => rw [leavesItems, indexed, leavesFields, ih]

theorem mem_names_indexed {index : ℕ} {items : List (DataTree α)} {name : String}
    (h : name ∈ (indexed index items).map Prod.fst) : ∃ n, index ≤ n ∧ name = toString n := by
  induction items generalizing index with
  | nil => exact absurd h List.not_mem_nil
  | cons t items ih =>
      rcases List.mem_cons.mp h with rfl | h
      · exact ⟨index, le_rfl, rfl⟩
      · obtain ⟨n, hle, rfl⟩ := ih h
        exact ⟨n, Nat.le_of_succ_le hle, rfl⟩

/-- An index does not come back. -/
theorem index_fresh (index : ℕ) (items : List (DataTree α)) :
    toString index ∉ (indexed (index + 1) items).map Prod.fst := by
  intro hmem
  obtain ⟨n, hle, hsame⟩ := mem_names_indexed hmem
  have hindex : index = n := Numbered.toString_injective hsame
  omega

/-- A path among the leaves of children begins with the name of one. -/
theorem path_of_mem_leavesFields {fields : List (String × DataTree α)} {entry : List String × α}
    (h : entry ∈ leavesFields fields) :
    ∃ name ∈ fields.map Prod.fst, ∃ rest, entry.1 = name :: rest := by
  induction fields with
  | nil => exact absurd h List.not_mem_nil
  | cons f fields ih =>
      obtain ⟨name, t⟩ := f
      rw [leavesFields, List.mem_append, List.mem_map] at h
      rcases h with ⟨inner, -, rfl⟩ | h
      · exact ⟨name, .head _, inner.1, rfl⟩
      · obtain ⟨other, hother, hrest⟩ := ih h
        exact ⟨other, .tail _ hother, hrest⟩

/-! ## One path, one leaf -/

theorem under_injective (label : String) :
    Function.Injective (under label : List String × α → List String × α) := by
  intro e e' h
  obtain ⟨hpath, hleaf⟩ := Prod.mk.inj h
  exact Prod.ext (List.cons.inj hpath).2 hleaf

/-- Children apart, their leaves apart. -/
theorem nodup_cons {name : String} {t : DataTree α} {fields : List (String × DataTree α)}
    (hfresh : name ∉ fields.map Prod.fst) (ht : ((leaves t).map Prod.fst).Nodup)
    (hfields : ((leavesFields fields).map Prod.fst).Nodup) :
    ((leavesFields ((name, t) :: fields)).map Prod.fst).Nodup := by
  rw [leavesFields, List.map_append, List.nodup_append]
  refine ⟨?_, hfields, ?_⟩
  · have hpaths : ((leaves t).map (under name)).map Prod.fst =
        ((leaves t).map Prod.fst).map (List.cons name) := by
      rw [List.map_map, List.map_map]
      rfl
    rw [hpaths]
    exact ht.map fun _ _ h => (List.cons.inj h).2
  · rintro path hpath path' hpath' rfl
    obtain ⟨entry, hentry, rfl⟩ := List.mem_map.mp hpath
    obtain ⟨inner, -, rfl⟩ := List.mem_map.mp hentry
    obtain ⟨other, hother, hsame⟩ := List.mem_map.mp hpath'
    obtain ⟨label, hlabel, rest, hrest⟩ := path_of_mem_leavesFields hother
    have hpaths : label :: rest = name :: inner.1 := hrest.symm.trans hsame
    obtain ⟨rfl, -⟩ := List.cons.inj hpaths
    exact hfresh hlabel

mutual

/-- **No path leads to two leaves.** -/
theorem nodup_leaves {t : DataTree α} (h : Labelled t) : ((leaves t).map Prod.fst).Nodup := by
  cases t with
  | leaf a => exact List.nodup_singleton _
  | list items =>
      rw [leaves, leavesItems_eq]
      exact nodup_leavesItems h 0
  | record fields => exact nodup_leavesFields h.1 h.2

theorem nodup_leavesItems {items : List (DataTree α)} (h : LabelledItems items) (index : ℕ) :
    ((leavesFields (indexed index items)).map Prod.fst).Nodup := by
  cases items with
  | nil => exact List.nodup_nil
  | cons t items =>
      exact nodup_cons (index_fresh index items) (nodup_leaves h.1)
        (nodup_leavesItems h.2 (index + 1))

theorem nodup_leavesFields {fields : List (String × DataTree α)}
    (hnames : (fields.map Prod.fst).Nodup) (h : LabelledFields fields) :
    ((leavesFields fields).map Prod.fst).Nodup := by
  cases fields with
  | nil => exact List.nodup_nil
  | cons f fields =>
      obtain ⟨name, t⟩ := f
      obtain ⟨hfresh, hrest⟩ := List.nodup_cons.mp hnames
      exact nodup_cons hfresh (nodup_leaves h.2.1) (nodup_leavesFields hrest h.2.2)

end

mutual

/-- The paths to the leaves are made of labels. -/
theorem segments_leaves {t : DataTree α} (h : Labelled t) :
    ∀ entry ∈ leaves t, ∀ s ∈ entry.1, Segment s := by
  cases t with
  | leaf a =>
      intro entry hentry s hs
      rw [List.mem_singleton.mp hentry] at hs
      exact absurd hs List.not_mem_nil
  | list items => exact segments_leavesItems h 0
  | record fields => exact segments_leavesFields h.2

theorem segments_leavesItems {items : List (DataTree α)} (h : LabelledItems items) (index : ℕ) :
    ∀ entry ∈ leavesItems index items, ∀ s ∈ entry.1, Segment s := by
  cases items with
  | nil => exact fun entry hentry => absurd hentry List.not_mem_nil
  | cons t items =>
      intro entry hentry s hs
      rcases List.mem_append.mp hentry with hentry | hentry
      · obtain ⟨inner, hinner, rfl⟩ := List.mem_map.mp hentry
        rcases List.mem_cons.mp hs with rfl | hs
        · exact segment_index index
        · exact segments_leaves h.1 inner hinner s hs
      · exact segments_leavesItems h.2 (index + 1) entry hentry s hs

theorem segments_leavesFields {fields : List (String × DataTree α)} (h : LabelledFields fields) :
    ∀ entry ∈ leavesFields fields, ∀ s ∈ entry.1, Segment s := by
  cases fields with
  | nil => exact fun entry hentry => absurd hentry List.not_mem_nil
  | cons f fields =>
      obtain ⟨name, t⟩ := f
      intro entry hentry s hs
      rcases List.mem_append.mp hentry with hentry | hentry
      · obtain ⟨inner, hinner, rfl⟩ := List.mem_map.mp hentry
        rcases List.mem_cons.mp hs with rfl | hs
        · exact h.1
        · exact segments_leaves h.2.1 inner hinner s hs
      · exact segments_leavesFields h.2.2 entry hentry s hs

end

/-! ## Changed leaves -/

mutual

theorem leaves_map (g : α → β) (t : DataTree α) :
    leaves (map g t) = (leaves t).map fun entry => (entry.1, g entry.2) := by
  cases t with
  | leaf a => rfl
  | list items => exact leaves_mapItems g items 0
  | record fields => exact leaves_mapFields g fields

theorem leaves_mapItems (g : α → β) (items : List (DataTree α)) (index : ℕ) :
    leavesItems index (mapItems g items) =
      (leavesItems index items).map fun entry => (entry.1, g entry.2) := by
  cases items with
  | nil => rfl
  | cons t items =>
      rw [mapItems, leavesItems, leavesItems, leaves_map g t, leaves_mapItems g items (index + 1),
        List.map_append, List.map_map, List.map_map]
      rfl

theorem leaves_mapFields (g : α → β) (fields : List (String × DataTree α)) :
    leavesFields (mapFields g fields) =
      (leavesFields fields).map fun entry => (entry.1, g entry.2) := by
  cases fields with
  | nil => rfl
  | cons f fields =>
      obtain ⟨name, t⟩ := f
      rw [mapFields, leavesFields, leavesFields, leaves_map g t, leaves_mapFields g fields,
        List.map_append, List.map_map, List.map_map]
      rfl

end

theorem mapItems_eq (g : α → β) (items : List (DataTree α)) :
    mapItems g items = items.map (map g) := by
  induction items with
  | nil => rfl
  | cons t items ih => rw [mapItems, ih, List.map_cons]

/-! ## Trees with the same leaves -/

/-- Two lists of leaves with the same members. -/
def SameLeaves (entries entries' : List (List String × α)) : Prop :=
  ∀ entry, entry ∈ entries ↔ entry ∈ entries'

/-- A leaf under a child's name is a leaf of the child. -/
theorem under_mem_cons {name : String} {t : DataTree α} {fields : List (String × DataTree α)}
    (hfresh : name ∉ fields.map Prod.fst) (entry : List String × α) :
    under name entry ∈ leavesFields ((name, t) :: fields) ↔ entry ∈ leaves t := by
  rw [leavesFields, List.mem_append]
  constructor
  · rintro (h | h)
    · obtain ⟨inner, hinner, hsame⟩ := List.mem_map.mp h
      exact under_injective name hsame ▸ hinner
    · obtain ⟨label, hlabel, rest, hrest⟩ := path_of_mem_leavesFields h
      have hpath : name :: entry.1 = label :: rest := hrest
      obtain ⟨rfl, -⟩ := List.cons.inj hpath
      exact absurd hlabel hfresh
  · exact fun h => .inl (List.mem_map_of_mem h)

/-- **The first children agree, and the others do.** -/
theorem same_cons {name : String} {t t' : DataTree α} {fields fields' : List (String × DataTree α)}
    (hfresh : name ∉ fields.map Prod.fst) (hfresh' : name ∉ fields'.map Prod.fst)
    (h : SameLeaves (leavesFields ((name, t) :: fields)) (leavesFields ((name, t') :: fields'))) :
    SameLeaves (leaves t) (leaves t') ∧
      SameLeaves (leavesFields fields) (leavesFields fields') := by
  -- a leaf of the other children is not under the first one's name
  have hother : ∀ {u u' : DataTree α} {others others' : List (String × DataTree α)},
      name ∉ others.map Prod.fst →
      (∀ entry, entry ∈ leavesFields ((name, u) :: others) →
        entry ∈ leavesFields ((name, u') :: others')) →
      ∀ entry ∈ leavesFields others, entry ∈ leavesFields others' := by
    intro u u' others others' hnot hsub entry hentry
    have hin := hsub entry (List.mem_append_right _ hentry)
    rcases List.mem_append.mp hin with hin | hin
    · obtain ⟨inner, -, rfl⟩ := List.mem_map.mp hin
      obtain ⟨label, hlabel, rest, hrest⟩ := path_of_mem_leavesFields hentry
      have hpath : name :: inner.1 = label :: rest := hrest
      obtain ⟨rfl, -⟩ := List.cons.inj hpath
      exact absurd hlabel hnot
    · exact hin
  refine ⟨fun entry => ?_, fun entry => ⟨?_, ?_⟩⟩
  · rw [← under_mem_cons hfresh, ← under_mem_cons hfresh']
    exact h _
  · exact hother hfresh (fun e => (h e).mp) entry
  · exact hother hfresh' (fun e => (h e).mpr) entry

end DataTree
