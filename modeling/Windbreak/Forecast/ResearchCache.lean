import Mathlib.Data.Char
import Mathlib.Data.List.Lex
import Mathlib.Data.List.Sort
import Windbreak.Core.Effects
import Windbreak.Core.Eviction
import Windbreak.Core.OrderedDict
import Windbreak.Core.Runs

/-!
# The cache of fetched pages

Every fetched page is written under one directory and the oldest are dropped to hold a cap.  What
counts as a page of the cache is told by its name and by where its name leads; a symbolic link that
leads inside the directory is followed and passes for a page.

* `Disk`, `resolve` — files, directories and links, and where a path leads.
* `store` — a write inside the directory, and the sweep after it.
* `Plain` — no link passes for a page, and the page is written under its own name.
* **`stores_swept`** — in a run of such stores each sweep drops the shortest oldest-first run of
  pages, and nothing else.
-/

namespace Windbreak.Sandbox

open Machine Eviction

/-! ## Files and links -/

abbrev Name := List Char

/-- An absolute path, component by component. -/
abbrev Path := List Name

inductive Node where
  | file (mtimeNs : ℤ) (size : ℕ)
  | directory
  | link (target : List Char)
  deriving DecidableEq, Repr

def Node.isLink : Node → Bool
  | .link _ => true
  | _ => false

abbrev Disk := OrderedDict Path Node

/-- The components of a path that is given as text. -/
def parts (text : List Char) : List Name :=
  (text.splitOn '/').filter fun part => part ≠ [] ∧ part ≠ ['.']

def isAbsolute (text : List Char) : Bool := text.head? = some '/'

/-- Follow components up to the first link: where they lead, or where the link and the rest start
from. -/
def walk (disk : Disk) : Path → List Name → Path ⊕ (Path × List Name)
  | place, [] => .inl place
  | place, name :: rest =>
    if name = ['.', '.'] then walk disk place.dropLast rest
    else match disk.get? (place ++ [name]) with
      | some (.link target) => .inr (if isAbsolute target then [] else place, parts target ++ rest)
      | _ => walk disk (place ++ [name]) rest

/-- Where components lead, from a place, over at most so many links. -/
def resolve (disk : Disk) : ℕ → Path → List Name → Option Path
  | links, place, names => match walk disk place names with
    | .inl path => some path
    | .inr (place', names') => match links with
      | 0 => none
      | links + 1 => resolve disk links place' names'

/-! ## Names of pages -/

def isHexDigit (c : Char) : Bool := ('0' ≤ c && c ≤ '9') || ('a' ≤ c && c ≤ 'f')

/-- The digits of a hash, and the suffix of a page. -/
def isDigestName (name : Name) : Bool :=
  (name.take 64).length = 64 && (name.take 64).all isHexDigit && name.drop 64 = ['.', 't', 'x', 't']

/-- What the pattern of a page matches.  The end it asks for is also found before a line break that
ends the name. -/
def matchesEntry (name : Name) : Bool :=
  isDigestName name || (name.getLast? = some '\n' && isDigestName name.dropLast)

/-! ## The cache -/

/-- A cache: its resolved directory, its cap, and how many links the system follows. -/
structure ResearchCache where
  root : Path
  maxBytes : ℤ
  links : ℕ
  cap_pos : 1 ≤ maxBytes

structure CacheEntry where
  mtimeNs : ℤ
  name : Name
  size : ℕ
  path : List Name
  deriving DecidableEq, Repr

inductive StoreError where
  | sandboxPathViolation
  | io
  deriving DecidableEq, Repr

/-- One store: the name and the bytes of the content, and when the system says it was written. -/
structure Store where
  name : List Char
  size : ℕ
  mtimeNs : ℤ

/-- The name of a path that stands directly in a directory. -/
def childOf : Path → Path → Option Name
  | [], [name] => some name
  | r :: rs, p :: ps => if r = p then childOf rs ps else none
  | _, _ => none

namespace ResearchCache

variable (cache : ResearchCache)

/-- Whether a path leads strictly inside the directory. -/
def inside (path : Path) : Bool := path ≠ cache.root && cache.root.isPrefixOf path

/-- Where a name leads. -/
def leadsTo (disk : Disk) (names : List Name) : Option Path :=
  resolve disk cache.links cache.root names

def isWithinRoot (disk : Disk) (names : List Name) : Except StoreError Bool :=
  match cache.leadsTo disk names with
  | some path => .ok (cache.inside path)
  | none => .error .io

/-- Make the directories that are missing on the way to a file. -/
def makeParents : Disk → Path → List Name → Except StoreError Disk
  | disk, _, [] => .ok disk
  | disk, place, name :: rest =>
    if name = ['.', '.'] then makeParents disk place.dropLast rest
    else match disk.get? (place ++ [name]) with
      | none => makeParents (disk.set (place ++ [name]) .directory) (place ++ [name]) rest
      | some _ => match resolve disk cache.links place [name] with
        | some path =>
          if disk.get? path = some .directory then makeParents disk path rest else .error .io
        | none => .error .io

/-- Write a file where its name leads. -/
def writeText (disk : Disk) (names : List Name) (node : Node) : Except StoreError (Path × Disk) :=
  match cache.leadsTo disk names with
  | none => .error .io
  | some path => match disk.get? path with
    | none => .ok (path, disk.set path node)
    | some (.file _ _) => .ok (path, disk.set path node)
    | some _ => .error .io

/-- A page, told by its name and by what it leads to. -/
def cacheEntry (disk : Disk) (name : Name) : Option CacheEntry :=
  if matchesEntry name then
    match cache.leadsTo disk [name] with
    | some path => match disk.get? path with
      | some (.file mtimeNs size) =>
        if cache.inside path then some ⟨mtimeNs, name, size, [name]⟩ else none
      | _ => none
    | none => none
  else none

def evictableEntries (disk : Disk) : List CacheEntry :=
  disk.keys.filterMap fun path => (childOf cache.root path).bind (cache.cacheEntry disk)

/-- The order of a sweep.  No two entries have one name. -/
def older (a b : CacheEntry) : Prop :=
  a.mtimeNs < b.mtimeNs ∨ (a.mtimeNs = b.mtimeNs ∧ a.name ≤ b.name)

instance (a b : CacheEntry) : Decidable (older a b) := inferInstanceAs (Decidable (_ ∨ _))

/-- The bytes of an entry. -/
def bytes (entry : CacheEntry) : ℤ := entry.size

/-- Delete entries. -/
def unlink (disk : Disk) (entries : List CacheEntry) : Disk :=
  entries.foldl (fun d entry => d.pop (cache.root ++ entry.path)) disk

/-- Delete entries oldest-first until the rest holds the cap, but never the one just written. -/
def evictToCap (disk : Disk) (keep : List Name) : Disk :=
  let entries := cache.evictableEntries disk
  cache.unlink disk (evict bytes cache.maxBytes (fun entry => entry.path = keep)
    (entries.map bytes).sum (entries.insertionSort older))

/-- Write a content under a name that leads inside the directory. -/
def write (disk : Disk) (s : Store) : Except StoreError (Path × Disk) := do
  if isAbsolute s.name then throw .sandboxPathViolation
  if !(← cache.isWithinRoot disk (parts s.name)) then throw .sandboxPathViolation
  let made ← cache.makeParents disk cache.root (parts s.name).dropLast
  cache.writeText made (parts s.name) (.file s.mtimeNs s.size)

def store (disk : Disk) (s : Store) : Except StoreError Disk := do
  let (_, written) ← cache.write disk s
  return cache.evictToCap written (parts s.name)

/-- One store of a run; one that is refused leaves the disk as it was. -/
def storeStep (disk : Disk) (s : Store) : Except StoreError Unit × Disk :=
  match cache.store disk s with
  | .ok after => (.ok (), after)
  | .error e => (.error e, disk)

/-! ## What the cache's own entries are -/

/-- An entry of the cache itself: a regular file under a digest's name, directly in the
directory. -/
def ownEntry (item : Path × Node) : Option CacheEntry :=
  match childOf cache.root item.1, item.2 with
  | some name, .file mtimeNs size =>
    if isDigestName name then some ⟨mtimeNs, name, size, [name]⟩ else none
  | _, _ => none

def ownEntries (disk : Disk) : List CacheEntry := disk.items.filterMap cache.ownEntry

/-- **A sweep in order**, after a file was written: it drops the shortest oldest-first run of the
cache's own entries, never the one just written, that brings the rest under the cap. -/
structure Swept (written : Disk) (target : Path) (after : Disk) : Prop where
  bounded : ((cache.ownEntries after).map bytes).sum ≤ cache.maxBytes ∨
    ∀ entry ∈ cache.ownEntries after, cache.root ++ entry.path = target
  shortest : ∃ order : List CacheEntry, order.Perm (cache.ownEntries written) ∧
    order.Pairwise older ∧
    ∃ k, Shortest bytes cache.maxBytes (fun entry => cache.root ++ entry.path = target)
      ((cache.ownEntries written).map bytes).sum order k ∧
      after = cache.unlink written
        ((droppable (fun entry => cache.root ++ entry.path = target) order).take k)
  keeps_written : after.get? target = written.get? target
  deletes_own : ∀ path, after.get? path ≠ written.get? path →
    ∃ entry ∈ cache.ownEntries written, path = cache.root ++ entry.path

/-- **A write in order**: the file is there, and beside it only missing directories are made. -/
structure Written (before : Disk) (s : Store) (target : Path) (written : Disk) : Prop where
  file : written.get? target = some (.file s.mtimeNs s.size)
  others : ∀ path, path ≠ target → written.get? path = before.get? path ∨
    (before.get? path = none ∧ written.get? path = some .directory)

/-- **A store in order**: a write inside the directory and a sweep, or nothing at all. -/
def StoredInOrder (t : Transition Disk Store (Except StoreError Unit)) : Prop :=
  match t.output with
  | .ok () => ∃ target written, cache.inside target = true ∧
      Written t.pre t.input target written ∧ cache.Swept written target t.post
  | .error _ => t.post = t.pre

/-- **A plain store**: no link passes for a page, nor would one after it; no name ends in a line
break; and where it writes a page, the page's own name was given. -/
structure Plain (t : Transition Disk Store (Except StoreError Unit)) : Prop where
  no_link : ∀ name target, matchesEntry name = true →
    t.pre.get? (cache.root ++ [name]) = some (.link target) →
    ∀ path, cache.leadsTo t.pre [name] = some path → cache.inside path = true →
      (∀ mtimeNs size, t.pre.get? path ≠ some (.file mtimeNs size)) ∧
        cache.leadsTo t.pre (parts t.input.name) ≠ some path
  no_break : ∀ name, matchesEntry name = true → ¬isDigestName name = true →
    (∀ mtimeNs size, t.pre.get? (cache.root ++ [name]) ≠ some (.file mtimeNs size)) ∧
      cache.leadsTo t.pre (parts t.input.name) ≠ some (cache.root ++ [name])
  own_name : ∀ name, isDigestName name = true →
    cache.leadsTo t.pre (parts t.input.name) = some (cache.root ++ [name]) →
      parts t.input.name = [name]

end ResearchCache

/-! ## Where paths lead -/

theorem childOf_eq_some_iff {root path : Path} {name : Name} :
    childOf root path = some name ↔ path = root ++ [name] := by
  induction root generalizing path with
  | nil =>
      match path with
      | [] => exact iff_of_false (fun h => by cases h) fun h => by cases h
      | [n] =>
          rw [childOf, List.nil_append]
          exact ⟨fun h => by rw [Option.some.inj h], fun h => by rw [List.head_eq_of_cons_eq h]⟩
      | n :: m :: rest => exact iff_of_false (fun h => by cases h) fun h => by cases h
  | cons r rs ih =>
      match path with
      | [] => exact iff_of_false (fun h => by cases h) fun h => by cases h
      | p :: ps =>
          rw [childOf, List.cons_append, List.cons.injEq]
          by_cases hp : r = p
          · rw [if_pos hp, ih]
            exact ⟨fun h => ⟨hp.symm, h⟩, And.right⟩
          · rw [if_neg hp]
            exact iff_of_false (fun h => by cases h) fun h => hp h.1.symm

/-- Two disks with the same links. -/
def SameLinks (disk disk' : Disk) : Prop :=
  ∀ path target, disk.get? path = some (.link target) ↔ disk'.get? path = some (.link target)

/-- Only links decide where components lead. -/
theorem walk_congr {disk disk' : Disk} (h : SameLinks disk disk') (place : Path)
    (names : List Name) : walk disk place names = walk disk' place names := by
  induction names generalizing place with
  | nil => rfl
  | cons name rest ih =>
      by_cases hup : name = ['.', '.']
      · rw [walk, walk, if_pos hup, if_pos hup, ih]
      · rw [walk, walk, if_neg hup, if_neg hup]
        by_cases hlink : ∃ target, disk.get? (place ++ [name]) = some (.link target)
        · obtain ⟨target, htarget⟩ := hlink
          rw [htarget, (h _ _).mp htarget]
        · have hlink' : ¬∃ target, disk'.get? (place ++ [name]) = some (.link target) :=
            fun ⟨target, htarget⟩ => hlink ⟨target, (h _ _).mpr htarget⟩
          split
          · next target htarget => exact absurd ⟨target, htarget⟩ hlink
          · split
            · next target htarget => exact absurd ⟨target, htarget⟩ hlink'
            · exact ih _

theorem resolve_congr {disk disk' : Disk} (h : SameLinks disk disk') (links : ℕ) (place : Path)
    (names : List Name) : resolve disk links place names = resolve disk' links place names := by
  induction links generalizing place names with
  | zero => rw [resolve, resolve, walk_congr h]
  | succ links ih =>
      rw [resolve, resolve, walk_congr h]
      cases walk disk' place names with
      | inl path => rfl
      | inr met => exact ih met.1 met.2

/-- A name that is no link leads to itself. -/
theorem resolve_single {disk : Disk} {place : Path} {name : Name} (hup : name ≠ ['.', '.'])
    (hlink : ∀ target, disk.get? (place ++ [name]) ≠ some (.link target)) (links : ℕ) :
    resolve disk links place [name] = some (place ++ [name]) := by
  have hwalk : walk disk place [name] = .inl (place ++ [name]) := by
    rw [walk, if_neg hup]
    split
    · next target htarget => exact absurd htarget (hlink target)
    · rfl
  cases links with
  | zero => rw [resolve, hwalk]
  | succ links => rw [resolve, hwalk]

theorem not_up_of_matchesEntry {name : Name} (h : matchesEntry name = true) :
    name ≠ ['.', '.'] := by
  rintro rfl
  cases h

theorem matchesEntry_of_isDigestName {name : Name} (h : isDigestName name = true) :
    matchesEntry name = true := by rw [matchesEntry, h, Bool.true_or]

namespace ResearchCache

variable (cache : ResearchCache)

theorem inside_child (name : Name) : cache.inside (cache.root ++ [name]) = true := by
  rw [inside, Bool.and_eq_true, decide_eq_true_iff, List.isPrefixOf_iff_prefix]
  refine ⟨fun h => ?_, List.prefix_append _ _⟩
  exact List.cons_ne_nil name [] (List.append_right_eq_self.mp h)

/-! ## What a write does -/

/-- Beside a file, only missing directories are made. -/
def OnlyDirectories (before made : Disk) : Prop :=
  ∀ path, made.get? path = before.get? path ∨
    (before.get? path = none ∧ made.get? path = some .directory)

theorem OnlyDirectories.refl (disk : Disk) : OnlyDirectories disk disk := fun _ => Or.inl rfl

theorem OnlyDirectories.of_set {disk made : Disk} {path : Path} (hnone : disk.get? path = none)
    (h : OnlyDirectories (disk.set path .directory) made) : OnlyDirectories disk made := by
  intro other
  by_cases hother : other = path
  · subst hother
    rcases h other with hsame | ⟨hnew, -⟩
    · rw [OrderedDict.get?_set_self] at hsame
      exact Or.inr ⟨hnone, hsame⟩
    · rw [OrderedDict.get?_set_self] at hnew
      cases hnew
  · have hset := OrderedDict.get?_set disk path other .directory
    rw [if_neg hother] at hset
    rw [← hset]
    exact h other

/-- The directories on the way to a file are all that is made. -/
theorem makeParents_made {disk made : Disk} {place : Path} {names : List Name}
    (h : cache.makeParents disk place names = .ok made) : OnlyDirectories disk made := by
  induction names generalizing disk place with
  | nil =>
      obtain rfl := Except.ok.inj h
      exact .refl disk
  | cons name rest ih =>
      by_cases hup : name = ['.', '.']
      · rw [makeParents, if_pos hup] at h
        exact ih h
      · rw [makeParents, if_neg hup] at h
        cases hnode : disk.get? (place ++ [name]) with
        | none =>
            rw [hnode] at h
            exact .of_set hnode (ih h)
        | some node =>
            rw [hnode] at h
            dsimp only at h
            cases hleads : resolve disk cache.links place [name] with
            | none =>
                rw [hleads] at h
                cases h
            | some path =>
                rw [hleads] at h
                dsimp only at h
                by_cases hdirectory : disk.get? path = some .directory
                · rw [if_pos hdirectory] at h
                  exact ih h
                · rw [if_neg hdirectory] at h
                  cases h

theorem OnlyDirectories.sameLinks {before made : Disk} (h : OnlyDirectories before made) :
    SameLinks before made := by
  intro path target
  rcases h path with hsame | ⟨hnone, hdirectory⟩
  · rw [hsame]
  · rw [hnone, hdirectory]
    exact iff_of_false (fun h => by cases h) fun h => by cases h

/-- **A file is written** where its name leads, and only over nothing or a file. -/
theorem writeText_ok {disk written : Disk} {names : List Name} {node : Node} {target : Path}
    (h : cache.writeText disk names node = .ok (target, written)) :
    cache.leadsTo disk names = some target ∧ written = disk.set target node ∧
      ∀ link, disk.get? target ≠ some (.link link) := by
  unfold writeText at h
  cases hleads : cache.leadsTo disk names with
  | none =>
      rw [hleads] at h
      cases h
  | some path =>
      rw [hleads] at h
      dsimp only at h
      cases hnode : disk.get? path with
      | none =>
          rw [hnode] at h
          cases h
          exact ⟨rfl, rfl, fun link hlink => by rw [hnode] at hlink; cases hlink⟩
      | some old =>
          rw [hnode] at h
          cases old with
          | file mtimeNs size =>
              cases h
              exact ⟨rfl, rfl, fun link hlink => by rw [hnode] at hlink; cases hlink⟩
          | directory => cases h
          | link link => cases h

/-- **A write** leads inside the directory and leaves every link where it was. -/
theorem write_ok {before written : Disk} {s : Store} {target : Path}
    (h : cache.write before s = .ok (target, written)) :
    cache.inside target = true ∧ cache.leadsTo before (parts s.name) = some target ∧
      Written before s target written ∧ SameLinks before written := by
  unfold write at h
  by_cases habsolute : isAbsolute s.name = true
  · rw [if_pos habsolute] at h
    cases h
  rw [if_neg habsolute] at h
  obtain ⟨-, -, h⟩ := Effects.except_bind_ok.mp h
  obtain ⟨within, hwithin, h⟩ := Effects.except_bind_ok.mp h
  cases within with
  | false => cases h
  | true =>
      obtain ⟨-, -, h⟩ := Effects.except_bind_ok.mp h
      obtain ⟨made, hmade, h⟩ := Effects.except_bind_ok.mp h
      obtain ⟨hleads, rfl, hnolink⟩ := cache.writeText_ok h
      have hmade := cache.makeParents_made hmade
      have hbefore : cache.leadsTo before (parts s.name) = some target :=
        (resolve_congr hmade.sameLinks _ _ _).trans hleads
      rw [isWithinRoot, hbefore] at hwithin
      have hothers : ∀ path, path ≠ target →
          (made.set target (.file s.mtimeNs s.size)).get? path = made.get? path := by
        intro path hpath
        rw [OrderedDict.get?_set, if_neg hpath]
      refine ⟨Except.ok.inj hwithin, hbefore, ⟨OrderedDict.get?_set_self _ _ _, ?_⟩, ?_⟩
      · intro path hpath
        rw [hothers path hpath]
        exact hmade path
      · intro path link
        rw [hmade.sameLinks path link]
        by_cases hpath : path = target
        · subst hpath
          rw [OrderedDict.get?_set_self]
          exact iff_of_false (hnolink link) fun h => by cases h
        · rw [hothers path hpath]

/-! ## What the sweep sees -/

theorem ownEntry_eq_some_iff {item : Path × Node} {entry : CacheEntry} :
    cache.ownEntry item = some entry ↔ isDigestName entry.name = true ∧
      entry.path = [entry.name] ∧
      item = (cache.root ++ entry.path, .file entry.mtimeNs entry.size) := by
  obtain ⟨path, node⟩ := item
  constructor
  · intro h
    unfold ownEntry at h
    split at h
    · next name mtimeNs size hchild hnode =>
        dsimp only at hchild hnode
        subst hnode
        by_cases hdigest : isDigestName name = true
        · rw [if_pos hdigest] at h
          obtain rfl := Option.some.inj h
          exact ⟨hdigest, rfl, by rw [childOf_eq_some_iff.mp hchild]⟩
        · rw [if_neg hdigest] at h
          cases h
    · cases h
  · rintro ⟨hdigest, hpath, hitem⟩
    obtain ⟨rfl, rfl⟩ := Prod.mk.inj hitem
    have hchild : childOf cache.root (cache.root ++ entry.path) = some entry.name :=
      childOf_eq_some_iff.mpr (by rw [hpath])
    rw [ownEntry, hchild]
    dsimp only
    rw [if_pos hdigest, ← hpath]

/-- **The cache's own entries**, by what the disk holds under their names. -/
theorem mem_ownEntries {disk : Disk} {entry : CacheEntry} :
    entry ∈ cache.ownEntries disk ↔ isDigestName entry.name = true ∧ entry.path = [entry.name] ∧
      disk.get? (cache.root ++ entry.path) = some (.file entry.mtimeNs entry.size) := by
  rw [ownEntries, List.mem_filterMap]
  constructor
  · rintro ⟨item, hitem, hentry⟩
    obtain ⟨hdigest, hpath, rfl⟩ := (cache.ownEntry_eq_some_iff).mp hentry
    exact ⟨hdigest, hpath, OrderedDict.mem_items_iff.mp hitem⟩
  · rintro ⟨hdigest, hpath, hfile⟩
    exact ⟨_, OrderedDict.mem_items_iff.mpr hfile,
      (cache.ownEntry_eq_some_iff).mpr ⟨hdigest, hpath, rfl⟩⟩

/-- No entry is listed twice. -/
theorem ownEntries_nodup (disk : Disk) : (cache.ownEntries disk).Nodup := by
  refine List.Nodup.filterMap ?_ (List.Nodup.of_map _ disk.nodup)
  intro item item' entry hitem hitem'
  obtain ⟨-, -, rfl⟩ := (cache.ownEntry_eq_some_iff).mp hitem
  obtain ⟨-, -, rfl⟩ := (cache.ownEntry_eq_some_iff).mp hitem'
  rfl

/-- Nothing but the cache's own entries passes for a page. -/
def OnlyOwn (disk : Disk) : Prop :=
  ∀ name, matchesEntry name = true →
    (∀ target, disk.get? (cache.root ++ [name]) = some (.link target) →
      cache.cacheEntry disk name = none) ∧
    (¬isDigestName name = true →
      ∀ mtimeNs size, disk.get? (cache.root ++ [name]) ≠ some (.file mtimeNs size))

/-- The entry of a file, under a name. -/
def fileEntry (name : Name) : Option Node → Option CacheEntry
  | some (.file mtimeNs size) => some ⟨mtimeNs, name, size, [name]⟩
  | _ => none

/-- What stands under a name and is no link passes for a page by what it is itself. -/
theorem cacheEntry_of_not_link {disk : Disk} {name : Name} (hname : matchesEntry name = true)
    {node : Node} (hnode : disk.get? (cache.root ++ [name]) = some node)
    (hlink : ∀ target, node ≠ .link target) :
    cache.cacheEntry disk name = fileEntry name (some node) := by
  have hleads : cache.leadsTo disk [name] = some (cache.root ++ [name]) :=
    resolve_single (not_up_of_matchesEntry hname)
      (fun target htarget => hlink target (Option.some.inj (hnode.symm.trans htarget))) cache.links
  rw [cacheEntry, if_pos hname, hleads]
  dsimp only
  rw [hnode, cache.inside_child]
  cases node with
  | file mtimeNs size => rfl
  | directory => rfl
  | link target => rfl

/-- **Where nothing else passes for a page**, a sweep sees the cache's own entries. -/
theorem evictableEntries_eq {disk : Disk} (h : cache.OnlyOwn disk) :
    cache.evictableEntries disk = cache.ownEntries disk := by
  rw [evictableEntries, OrderedDict.keys, List.filterMap_map, ownEntries]
  refine List.filterMap_congr fun item hitem => ?_
  obtain ⟨path, node⟩ := item
  have hnode := OrderedDict.mem_items_iff.mp hitem
  rw [Function.comp_apply, ownEntry]
  dsimp only
  cases hchild : childOf cache.root path with
  | none => rfl
  | some name =>
      obtain rfl := childOf_eq_some_iff.mp hchild
      rw [Option.bind_some]
      by_cases hname : matchesEntry name = true
      · obtain ⟨hlink, hfile⟩ := h name hname
        cases node with
        | file mtimeNs size =>
            have hdigest : isDigestName name = true := by
              by_contra hdigest
              exact hfile hdigest mtimeNs size hnode
            dsimp only
            rw [if_pos hdigest]
            exact cache.cacheEntry_of_not_link hname hnode fun target h => by cases h
        | directory => exact cache.cacheEntry_of_not_link hname hnode fun target h => by cases h
        | link target => exact hlink target hnode
      · have hdigest : ¬isDigestName name = true := fun hdigest =>
          hname (matchesEntry_of_isDigestName hdigest)
        rw [cacheEntry, if_neg hname]
        cases node with
        | file mtimeNs size =>
            dsimp only
            rw [if_neg hdigest]
        | directory => rfl
        | link target => rfl

/-! ## What the sweep does -/

/-- What is left on a disk after entries were deleted. -/
theorem items_unlink (disk : Disk) (entries : List CacheEntry) :
    (cache.unlink disk entries).items =
      disk.items.filter fun item => ∀ entry ∈ entries, item.1 ≠ cache.root ++ entry.path := by
  induction entries generalizing disk with
  | nil =>
      rw [unlink, List.foldl_nil]
      exact (List.filter_eq_self.mpr fun item _ => decide_eq_true fun entry hentry =>
        absurd hentry List.not_mem_nil).symm
  | cons entry entries ih =>
      have hstep : cache.unlink disk (entry :: entries) =
          cache.unlink (disk.pop (cache.root ++ entry.path)) entries := rfl
      rw [hstep, ih, OrderedDict.pop, List.filter_filter]
      refine List.filter_congr fun item _ => ?_
      rw [Bool.eq_iff_iff, Bool.and_eq_true, decide_eq_true_iff, decide_eq_true_iff,
        decide_eq_true_iff, List.forall_mem_cons, and_comm]

theorem get?_unlink {disk : Disk} {entries : List CacheEntry} {path : Path}
    (h : ∀ entry ∈ entries, path ≠ cache.root ++ entry.path) :
    (cache.unlink disk entries).get? path = disk.get? path := by
  refine Option.ext fun node => ?_
  rw [← OrderedDict.mem_items_iff, ← OrderedDict.mem_items_iff, items_unlink, List.mem_filter,
    decide_eq_true_iff]
  exact and_iff_left h

/-- Two entries of one disk under one path are one. -/
theorem ownEntry_unique {disk : Disk} {entry entry' : CacheEntry}
    (h : entry ∈ cache.ownEntries disk) (h' : entry' ∈ cache.ownEntries disk)
    (hpath : cache.root ++ entry.path = cache.root ++ entry'.path) : entry = entry' := by
  obtain ⟨-, hname, hfile⟩ := (cache.mem_ownEntries).mp h
  obtain ⟨-, hname', hfile'⟩ := (cache.mem_ownEntries).mp h'
  rw [hpath, hfile'] at hfile
  obtain ⟨htime, hsize⟩ := Node.file.inj (Option.some.inj hfile)
  have hpaths := List.append_cancel_left hpath
  obtain ⟨mtimeNs, name, size, path⟩ := entry
  obtain ⟨mtimeNs', name', size', path'⟩ := entry'
  dsimp only at hname hname' htime hsize hpaths
  subst hpaths htime hsize
  rw [hname] at hname'
  rw [List.head_eq_of_cons_eq hname']

/-- Deleting entries leaves the others. -/
theorem ownEntries_unlink {disk : Disk} {entries : List CacheEntry}
    (h : ∀ entry ∈ entries, entry ∈ cache.ownEntries disk) :
    cache.ownEntries (cache.unlink disk entries) =
      (cache.ownEntries disk).filter fun entry => entry ∉ entries := by
  rw [ownEntries, items_unlink, List.filterMap_filter, ownEntries, List.filter_filterMap]
  refine List.filterMap_congr fun item hitem => ?_
  cases hentry : cache.ownEntry item with
  | none => rw [ite_self, Option.filter_none]
  | some entry =>
      have hown : entry ∈ cache.ownEntries disk := List.mem_filterMap.mpr ⟨item, hitem, hentry⟩
      obtain ⟨-, -, rfl⟩ := (cache.ownEntry_eq_some_iff).mp hentry
      by_cases hmem : entry ∈ entries
      · rw [if_neg, Option.filter_some, if_neg]
        · rw [decide_eq_true_iff, not_not]
          exact hmem
        · rw [decide_eq_true_iff]
          exact fun hall => hall entry hmem rfl
      · rw [if_pos, Option.filter_some, if_pos]
        · exact decide_eq_true hmem
        · refine decide_eq_true fun other hother hsame => hmem ?_
          rw [cache.ownEntry_unique hown (h other hother) hsame]
          exact hother

instance older_total : Std.Total older :=
  ⟨fun a b => by
    rcases lt_trichotomy a.mtimeNs b.mtimeNs with hlt | heq | hgt
    · exact Or.inl (Or.inl hlt)
    · exact (le_total a.name b.name).imp (fun h => Or.inr ⟨heq, h⟩) fun h => Or.inr ⟨heq.symm, h⟩
    · exact Or.inr (Or.inl hgt)⟩

instance older_trans : IsTrans CacheEntry older :=
  ⟨fun a b c hab hbc => by
    rcases hab with hab | ⟨hab, hname⟩
    · rcases hbc with hbc | ⟨hbc, -⟩
      · exact Or.inl (hab.trans hbc)
      · exact Or.inl (hbc ▸ hab)
    · rcases hbc with hbc | ⟨hbc, hname'⟩
      · exact Or.inl (hab ▸ hbc)
      · exact Or.inr ⟨hab.trans hbc, hname.trans hname'⟩⟩

/-- **A sweep** of a disk on which nothing else passes for a page, after one was written. -/
theorem evictToCap_swept {written : Disk} {target : Path} {keep : List Name}
    (honly : cache.OnlyOwn written)
    (hkeep : ∀ entry ∈ cache.ownEntries written,
      entry.path = keep ↔ cache.root ++ entry.path = target) :
    cache.Swept written target (cache.evictToCap written keep) := by
  have hperm := List.perm_insertionSort older (cache.ownEntries written)
  generalize horder : (cache.ownEntries written).insertionSort older = order at hperm
  have hevicted : cache.evictToCap written keep = cache.unlink written
      (evict bytes cache.maxBytes (fun entry => cache.root ++ entry.path = target)
        ((cache.ownEntries written).map bytes).sum order) := by
    rw [evictToCap, cache.evictableEntries_eq honly, horder]
    refine congrArg _ (evict_congr (fun entry hentry => ?_) _)
    exact decide_eq_decide.mpr (hkeep entry (hperm.mem_iff.mp hentry))
  obtain ⟨k, hk, hevict, hshortest⟩ := evict_shortest bytes cache.maxBytes
    (fun entry => cache.root ++ entry.path = target)
    ((cache.ownEntries written).map bytes).sum order
  rw [hevict] at hevicted
  rw [hevicted]
  generalize hdropped : (droppable (fun entry => cache.root ++ entry.path = target) order).take k =
    dropped
  have hmem : ∀ entry ∈ dropped,
      entry ∈ cache.ownEntries written ∧ cache.root ++ entry.path ≠ target := by
    intro entry hentry
    rw [← hdropped] at hentry
    obtain ⟨hin, hnot⟩ := List.mem_filter.mp (List.mem_of_mem_take hentry)
    rw [Bool.not_eq_true', decide_eq_false_iff_not] at hnot
    exact ⟨hperm.mem_iff.mp hin, hnot⟩
  have hnodup : dropped.Nodup := by
    rw [← hdropped]
    exact ((hperm.nodup_iff.mpr (cache.ownEntries_nodup written)).filter _).sublist
      (List.take_sublist k _)
  have hleft := cache.ownEntries_unlink fun entry hentry => (hmem entry hentry).1
  refine ⟨?_, ⟨order, hperm, ?_, k, hshortest, by rw [hdropped]⟩, ?_, ?_⟩
  · rw [hleft]
    rcases hshortest.enough with henough | hall
    · left
      rw [left, hdropped] at henough
      rw [sum_remaining (cache.ownEntries_nodup written) hnodup fun entry hentry =>
        (hmem entry hentry).1]
      exact henough
    · -- everything that may be dropped was
      right
      intro entry hentry
      obtain ⟨hown, hnot⟩ := List.mem_filter.mp hentry
      rw [hall, List.take_length] at hdropped
      by_contra htarget
      refine of_decide_eq_true hnot ?_
      rw [← hdropped]
      refine List.mem_filter.mpr ⟨hperm.mem_iff.mpr hown, ?_⟩
      rw [Bool.not_eq_true', decide_eq_false_iff_not]
      exact htarget
  · rw [← horder]
    exact List.pairwise_insertionSort _ _
  · exact cache.get?_unlink fun entry hentry => (hmem entry hentry).2.symm
  · intro path hchanged
    by_contra hnone
    push Not at hnone
    exact hchanged (cache.get?_unlink fun entry hentry => hnone entry (hmem entry hentry).1)

/-! ## Runs of stores -/

/-- After a plain store's write, nothing but the cache's own entries passes for a page. -/
theorem onlyOwn_of_plain {t : Transition Disk Store (Except StoreError Unit)}
    (hplain : cache.Plain t) {target : Path} {written : Disk}
    (hwrite : cache.write t.pre t.input = .ok (target, written)) : cache.OnlyOwn written := by
  obtain ⟨-, hleads, hwritten, hlinks⟩ := cache.write_ok hwrite
  intro name hname
  refine ⟨fun link hlink => ?_, fun hdigest mtimeNs size hfile => ?_⟩
  · have hbefore := (hlinks _ _).mpr hlink
    have hsame : cache.leadsTo written [name] = cache.leadsTo t.pre [name] :=
      (resolve_congr hlinks _ _ _).symm
    rw [cacheEntry, if_pos hname, hsame]
    cases hpath : cache.leadsTo t.pre [name] with
    | none => rfl
    | some path =>
        dsimp only
        split
        · next mtimeNs size hfile =>
            by_cases hinside : cache.inside path = true
            · obtain ⟨hnofile, hnot⟩ := hplain.no_link name link hname hbefore path hpath hinside
              have hne : path ≠ target := fun heq => hnot (heq ▸ hleads)
              rcases hwritten.others path hne with heq | ⟨-, heq⟩
              · exact absurd (heq.symm.trans hfile) (hnofile mtimeNs size)
              · cases heq.symm.trans hfile
            · exact if_neg hinside
        · rfl
  · obtain ⟨hnofile, hnot⟩ := hplain.no_break name hname hdigest
    have hne : cache.root ++ [name] ≠ target := fun heq => hnot (heq ▸ hleads)
    rcases hwritten.others _ hne with heq | ⟨-, heq⟩
    · exact hnofile mtimeNs size (heq.symm.trans hfile)
    · cases heq.symm.trans hfile

/-- **One plain store** is in order. -/
theorem storeStep_inOrder (disk : Disk) (s : Store)
    (hplain : cache.Plain (transition cache.storeStep disk s)) :
    cache.StoredInOrder (transition cache.storeStep disk s) := by
  cases hstore : cache.store disk s with
  | error e =>
      have hstep : cache.storeStep disk s = (.error e, disk) := by rw [storeStep, hstore]
      rw [transition, hstep]
      rfl
  | ok after =>
      have hstep : cache.storeStep disk s = (.ok (), after) := by rw [storeStep, hstore]
      obtain ⟨⟨target, written⟩, hwrite, hafter⟩ := Effects.except_bind_ok.mp hstore
      obtain rfl := Except.ok.inj hafter
      have honly := cache.onlyOwn_of_plain hplain hwrite
      obtain ⟨hinside, hleads, hwritten, hlinks⟩ := cache.write_ok hwrite
      rw [transition, hstep]
      refine ⟨target, written, hinside, hwritten, cache.evictToCap_swept honly ?_⟩
      intro entry hentry
      obtain ⟨hdigest, hpath, hfile⟩ := (cache.mem_ownEntries).mp hentry
      constructor
      · intro hkeep
        have hself : cache.leadsTo written [entry.name] = some (cache.root ++ [entry.name]) := by
          refine resolve_single (not_up_of_matchesEntry (matchesEntry_of_isDigestName hdigest))
            (fun link hlink => ?_) _
          rw [← hpath, hfile] at hlink
          cases hlink
        have hsame : cache.leadsTo written [entry.name] = cache.leadsTo disk [entry.name] :=
          (resolve_congr hlinks _ _ _).symm
        rw [← hkeep, hpath, ← hsame, hself] at hleads
        rw [hpath]
        exact Option.some.inj hleads
      · intro htarget
        rw [hpath] at htarget
        rw [hpath]
        exact (hplain.own_name entry.name hdigest (htarget ▸ hleads)).symm

/-- On a disk without links, whose files under a page's name are pages, a store under a page's own
name is plain. -/
theorem plain_of_no_links {t : Transition Disk Store (Except StoreError Unit)} (name : Name)
    (hlinks : ∀ item ∈ t.pre.items, item.2.isLink = false)
    (hfiles : ∀ item ∈ t.pre.items, ∀ n ∈ childOf cache.root item.1,
      matchesEntry n = true → isDigestName n = true)
    (hname : parts t.input.name = [name]) (hdigest : isDigestName name = true) :
    cache.Plain t := by
  have hlink : ∀ path target, t.pre.get? path ≠ some (.link target) := by
    intro path target h
    have hnot := hlinks _ (OrderedDict.mem_items_iff.mpr h)
    cases hnot
  have hleads : cache.leadsTo t.pre (parts t.input.name) = some (cache.root ++ [name]) := by
    rw [hname]
    exact resolve_single (not_up_of_matchesEntry (matchesEntry_of_isDigestName hdigest))
      (hlink _) _
  have hsame : ∀ n, cache.leadsTo t.pre (parts t.input.name) = some (cache.root ++ [n]) →
      n = name := by
    intro n h
    have hpaths := List.append_cancel_left (Option.some.inj (hleads.symm.trans h))
    exact (List.head_eq_of_cons_eq hpaths).symm
  refine ⟨fun n target _ h => absurd h (hlink _ target), fun n hn hnot => ⟨?_, fun h => hnot ?_⟩,
    fun n _ h => ?_⟩
  · intro mtimeNs size h
    exact hnot (hfiles _ (OrderedDict.mem_items_iff.mpr h) n
      (childOf_eq_some_iff.mpr rfl) hn)
  · rw [hsame n h]
    exact hdigest
  · rw [hsame n h]
    exact hname

/-- **In a run of plain stores** each sweep drops the shortest oldest-first run of the cache's own
entries that brings the rest under the cap, or all but the one just written, and nothing else. -/
theorem stores_swept (disk : Disk) (stores : List Store)
    (hplain : ∀ t ∈ trace cache.storeStep disk stores, cache.Plain t) :
    ∀ t ∈ trace cache.storeStep disk stores, cache.StoredInOrder t := by
  intro t ht
  have ht' := hplain t ht
  obtain ⟨before, after, -, hstep⟩ := mem_trace.mp ht
  rw [hstep] at ht' ⊢
  exact cache.storeStep_inOrder _ _ ht'

end ResearchCache

/-! ## A page, and a link that passes for one -/

/-- The name of a page whose hash is one digit throughout. -/
def pageName (digit : Char) : Name := List.replicate 64 digit ++ ['.', 't', 'x', 't']

def smallCache : ResearchCache := ⟨[['c']], 100, 40, by decide⟩

/-- A store of ten bytes under a page's name. -/
def tenBytes (digit : Char) (mtimeNs : ℤ) : Store := ⟨pageName digit, 10, mtimeNs⟩

/-- A directory with a foreign file of a thousand bytes, and a page's name that links to it. -/
def linkedDisk : Disk :=
  .ofList [([['c'], ['d']], .directory), ([['c'], ['d'], ['f']], .file 1 1000),
    ([['c'], pageName 'a'], .link ['d', '/', 'f'])]

/-- A directory with a foreign file, and a foreign file in a subdirectory. -/
def crowdedDisk : Disk :=
  .ofList [([['c'], ['n']], .file 0 500), ([['c'], ['d']], .directory),
    ([['c'], ['d'], ['f']], .file 1 1000)]

/-- A store of sixty bytes under a page's name. -/
def sixtyBytes (digit : Char) (mtimeNs : ℤ) : Store := ⟨pageName digit, 60, mtimeNs⟩

/-- Two pages are over the cap: the older goes, and the foreign files stay. -/
theorem stores_swept_crowded :
    smallCache.StoredInOrder (transition smallCache.storeStep
      (smallCache.storeStep crowdedDisk (sixtyBytes 'a' 1)).2 (sixtyBytes 'b' 2)) ∧
    (smallCache.storeStep (smallCache.storeStep crowdedDisk (sixtyBytes 'a' 1)).2
      (sixtyBytes 'b' 2)).2.items =
        crowdedDisk.items ++ [([['c'], pageName 'b'], .file 2 60)] := by
  refine ⟨smallCache.stores_swept crowdedDisk [sixtyBytes 'a' 1, sixtyBytes 'b' 2] ?_ _
    (List.mem_cons_of_mem _ (List.mem_cons_self ..)), by decide +kernel⟩
  intro t ht
  rcases List.mem_cons.mp ht with rfl | ht
  · exact smallCache.plain_of_no_links (pageName 'a') (by decide +kernel)
      (by decide +kernel) (by decide) (by decide)
  · obtain rfl := List.mem_singleton.mp ht
    exact smallCache.plain_of_no_links (pageName 'b') (by decide +kernel)
      (by decide +kernel) (by decide) (by decide)

/-- **A link to a foreign file is deleted**, and the file's bytes are counted. -/
theorem link_is_evicted :
    (transition smallCache.storeStep linkedDisk (tenBytes 'b' 5)).post.get? [['c'], pageName 'a'] =
      none ∧
    ¬smallCache.StoredInOrder (transition smallCache.storeStep linkedDisk (tenBytes 'b' 5)) := by
  have hgone : (transition smallCache.storeStep linkedDisk (tenBytes 'b' 5)).post.get?
      [['c'], pageName 'a'] = none := by decide +kernel
  have hok : (transition smallCache.storeStep linkedDisk (tenBytes 'b' 5)).output = .ok () := by
    decide +kernel
  have hlink : linkedDisk.get? [['c'], pageName 'a'] = some (.link ['d', '/', 'f']) := by
    decide +kernel
  refine ⟨hgone, fun h => ?_⟩
  rw [ResearchCache.StoredInOrder, hok] at h
  obtain ⟨target, written, -, hwritten, hswept⟩ := h
  by_cases htarget : [['c'], pageName 'a'] = target
  · have hkept := hswept.keeps_written
    rw [← htarget, hgone, htarget, hwritten.file] at hkept
    cases hkept
  · have hstays : written.get? [['c'], pageName 'a'] = some (.link ['d', '/', 'f']) := by
      rcases hwritten.others _ htarget with hsame | ⟨hnone, -⟩
      · exact hsame.trans hlink
      · cases hlink.symm.trans hnone
    obtain ⟨entry, hentry, hpath⟩ := hswept.deletes_own [['c'], pageName 'a'] (by
      rw [hgone, hstays]
      exact fun h => by cases h)
    obtain ⟨-, -, hfile⟩ := (smallCache.mem_ownEntries).mp hentry
    rw [← hpath, hstays] at hfile
    cases hfile

end Windbreak.Sandbox
