import Mathlib.Data.List.Forall2
import Mathlib.Data.List.TakeWhile
import Mathlib.Order.Basic

/-!
# Scopes that open and close out of order

A stream opens scopes under labels and closes labels.  A closing mark ends the innermost open scope
of its label, and with it every scope opened inside that one; without such a scope it does nothing.
Nothing is asked of the stream: marks may be missing or stray.

* `OpenAt` — what it means that a scope is open, by positions in the stream.
* `stackAfter` — the stack that keeps the open scopes, innermost first.
* **`stackAfter_spec`** — the stack holds exactly the scopes that are open.
-/

namespace Scopes

variable {φ τ : Type}

/-- What one event does to the scopes. -/
inductive Mark (φ τ : Type) where
  | opens (frame : φ)
  | closes (label : τ)
  | passes

section Stack

variable [DecidableEq τ] (label : φ → τ)

/-- Close the innermost scope of a label, and all inside it. -/
def closeNearest (closed : τ) (stack : List φ) : List φ :=
  match stack.dropWhile fun frame => label frame ≠ closed with
  | [] => stack
  | _ :: outer => outer

/-- One mark moves the stack. -/
def markStack (stack : List φ) : Mark φ τ → List φ
  | .opens frame => frame :: stack
  | .closes closed => closeNearest label closed stack
  | .passes => stack

/-- The scopes that stand open after a stream, innermost first. -/
def stackAfter (marks : List (Mark φ τ)) : List φ := marks.foldl (markStack label) []

/-- A closing mark that finds no scope of its label does nothing. -/
theorem closeNearest_of_none {closed : τ} {stack : List φ}
    (h : ∀ frame ∈ stack, label frame ≠ closed) : closeNearest label closed stack = stack := by
  have hdrop : stack.dropWhile (fun frame => label frame ≠ closed) = [] := by
    rw [List.dropWhile_eq_nil_iff]
    exact fun frame hframe => decide_eq_true (h frame hframe)
  rw [closeNearest, hdrop]

/-- A closing mark ends the first scope of its label. -/
theorem closeNearest_append {closed : τ} {inner outer : List φ} {frame : φ}
    (hinner : ∀ other ∈ inner, label other ≠ closed) (hframe : label frame = closed) :
    closeNearest label closed (inner ++ frame :: outer) = outer := by
  have hdrop : (inner ++ frame :: outer).dropWhile (fun other => label other ≠ closed) =
      frame :: outer := by
    induction inner with
    | nil => simp [hframe]
    | cons first rest ih =>
        rw [List.cons_append, List.dropWhile_cons,
          if_pos (decide_eq_true (hinner first (.head _)))]
        exact ih fun other hother => hinner other (.tail _ hother)
  rw [closeNearest, hdrop]

/-- Closing right after opening. -/
theorem closeNearest_cons_self (frame : φ) (stack : List φ) :
    closeNearest label (label frame) (frame :: stack) = stack :=
  closeNearest_append label (fun _ h => absurd h List.not_mem_nil) rfl

end Stack

/-! ## Open scopes, by position -/

/-- The mark at a position opens this scope. -/
def OpensAt (marks : List (Mark φ τ)) (i : ℕ) (frame : φ) : Prop := marks[i]? = some (.opens frame)

/-- A scope is open before a position when no mark since has closed it or a scope around it.  A mark
closes the innermost open scope of its label. -/
def OpenAt (label : φ → τ) (marks : List (Mark φ τ)) (i j : ℕ) : Prop :=
  i < j ∧ (∃ frame, OpensAt marks i frame) ∧
    ∀ m, (_ : m < j) → i < m → ∀ k ≤ i, ¬ ∃ frame, OpensAt marks k frame ∧
      marks[m]? = some (.closes (label frame)) ∧ OpenAt label marks k m ∧
        ∀ inner, k < inner → ∀ other, OpensAt marks inner other → label other = label frame →
          ¬ OpenAt label marks inner m
termination_by j

variable {label : φ → τ} {marks : List (Mark φ τ)}

/-- The mark at a position closes the scope opened at another: the innermost open one of its
label. -/
def ClosesAt (label : φ → τ) (marks : List (Mark φ τ)) (k m : ℕ) : Prop :=
  ∃ frame, OpensAt marks k frame ∧ marks[m]? = some (.closes (label frame)) ∧
    OpenAt label marks k m ∧
      ∀ inner, k < inner → ∀ other, OpensAt marks inner other → label other = label frame →
        ¬ OpenAt label marks inner m

theorem openAt_iff {i j : ℕ} :
    OpenAt label marks i j ↔
      i < j ∧ (∃ frame, OpensAt marks i frame) ∧
        ∀ m < j, i < m → ∀ k ≤ i, ¬ ClosesAt label marks k m := by
  rw [OpenAt]
  rfl

/-- Whatever was opened and is not open has been closed since, itself or a scope around it. -/
theorem exists_closesAt {i j : ℕ} (hij : i < j) {frame : φ} (hopens : OpensAt marks i frame)
    (hclosed : ¬ OpenAt label marks i j) :
    ∃ m, i < m ∧ m < j ∧ ∃ k ≤ i, ClosesAt label marks k m := by
  by_contra hnever
  refine hclosed (openAt_iff.mpr ⟨hij, ⟨frame, hopens⟩, fun m hm him k hk hcloses => hnever ?_⟩)
  exact ⟨m, him, hm, k, hk, hcloses⟩

/-- One mark later. -/
theorem openAt_succ_iff {i n : ℕ} (hin : i < n) :
    OpenAt label marks i (n + 1) ↔
      OpenAt label marks i n ∧ ∀ k ≤ i, ¬ ClosesAt label marks k n := by
  rw [openAt_iff, openAt_iff (j := n)]
  constructor
  · rintro ⟨-, hopens, hnever⟩
    exact ⟨⟨hin, hopens, fun m hm => hnever m (by omega)⟩, hnever n (by omega) hin⟩
  · rintro ⟨⟨-, hopens, hnever⟩, hlast⟩
    refine ⟨by omega, hopens, fun m hm him => ?_⟩
    rcases Nat.lt_succ_iff_lt_or_eq.mp hm with hm | rfl
    · exact hnever m hm him
    · exact hlast

theorem openAt_self_succ_iff {n : ℕ} :
    OpenAt label marks n (n + 1) ↔ ∃ frame, OpensAt marks n frame := by
  rw [openAt_iff]
  exact ⟨fun h => h.2.1, fun h => ⟨by omega, h, fun m hm hnm => by omega⟩⟩

/-- The stack names the open scopes, innermost first. -/
structure Names (label : φ → τ) (marks : List (Mark φ τ)) (n : ℕ) (positions : List ℕ)
    (stack : List φ) : Prop where
  frames : List.Forall₂ (fun i frame => OpensAt marks i frame) positions stack
  innermost : positions.Pairwise fun i k => k < i
  openAt : ∀ i, i ∈ positions ↔ OpenAt label marks i n

theorem not_closesAt_of_ne {n : ℕ} (h : ∀ closed, marks[n]? ≠ some (.closes closed)) (k : ℕ) :
    ¬ ClosesAt label marks k n := by
  rintro ⟨frame, -, hmark, -⟩
  exact h _ hmark

/-- A mark that closes nothing leaves the earlier scopes as they are. -/
theorem openAt_succ_of_not_closes {n : ℕ} (h : ∀ k, ¬ ClosesAt label marks k n) {i : ℕ}
    (hin : i < n) : OpenAt label marks i (n + 1) ↔ OpenAt label marks i n := by
  rw [openAt_succ_iff hin]
  exact and_iff_left fun k _ => h k

theorem OpenAt.lt {i n : ℕ} (h : OpenAt label marks i n) : i < n := (openAt_iff.mp h).1

namespace Names

variable {n : ℕ} {positions : List ℕ} {stack : List φ}

/-- A mark that neither opens nor closes a scope. -/
theorem keep (h : Names label marks n positions stack) (hmark : ∀ frame, ¬ OpensAt marks n frame)
    (hcloses : ∀ k, ¬ ClosesAt label marks k n) : Names label marks (n + 1) positions stack where
  frames := h.frames
  innermost := h.innermost
  openAt i := by
    rw [h.openAt]
    constructor
    · intro hopen
      exact (openAt_succ_of_not_closes hcloses hopen.lt).mpr hopen
    · intro hopen
      rcases Nat.lt_succ_iff_lt_or_eq.mp hopen.lt with hin | rfl
      · exact (openAt_succ_of_not_closes hcloses hin).mp hopen
      · obtain ⟨frame, hframe⟩ := openAt_self_succ_iff.mp hopen
        exact absurd hframe (hmark frame)

/-- A mark that opens a scope. -/
theorem push (h : Names label marks n positions stack) {frame : φ} (hmark : OpensAt marks n frame) :
    Names label marks (n + 1) (n :: positions) (frame :: stack) where
  frames := .cons hmark h.frames
  innermost := List.pairwise_cons.mpr ⟨fun i hi => ((h.openAt i).mp hi).lt, h.innermost⟩
  openAt i := by
    have hcloses : ∀ k, ¬ ClosesAt label marks k n :=
      not_closesAt_of_ne fun closed hclosed => by
        rw [OpensAt, hclosed] at hmark
        cases hmark
    rw [List.mem_cons, h.openAt]
    constructor
    · rintro (rfl | hopen)
      · exact openAt_self_succ_iff.mpr ⟨frame, hmark⟩
      · exact (openAt_succ_of_not_closes hcloses hopen.lt).mpr hopen
    · intro hopen
      rcases Nat.lt_succ_iff_lt_or_eq.mp hopen.lt with hin | rfl
      · exact .inr ((openAt_succ_of_not_closes hcloses hin).mp hopen)
      · exact .inl rfl

end Names

/-- A list related to one cut at an entry is cut at the related entry. -/
theorem exists_cut {α β : Type} {R : α → β → Prop} {xs : List α} {before after : List β} {y : β}
    (h : List.Forall₂ R xs (before ++ y :: after)) :
    ∃ front x back, xs = front ++ x :: back ∧ List.Forall₂ R front before ∧ R x y ∧
      List.Forall₂ R back after := by
  induction before generalizing xs with
  | nil =>
      cases h with
      | cons hfirst hrest => exact ⟨[], _, _, rfl, .nil, hfirst, hrest⟩
  | cons first rest ih =>
      cases h with
      | cons hfirst hrest =>
          obtain ⟨front, x, back, rfl, hfront, hx, hback⟩ := ih hrest
          exact ⟨_ :: front, x, back, rfl, .cons hfirst hfront, hx, hback⟩

theorem exists_related {α β : Type} {R : α → β → Prop} {xs : List α} {ys : List β}
    (h : List.Forall₂ R xs ys) {x : α} (hx : x ∈ xs) : ∃ y ∈ ys, R x y := by
  induction h with
  | nil => exact absurd hx List.not_mem_nil
  | cons hfirst _ ih =>
      rcases List.mem_cons.mp hx with rfl | hx
      · exact ⟨_, .head _, hfirst⟩
      · obtain ⟨y, hy, hrelated⟩ := ih hx
        exact ⟨y, .tail _ hy, hrelated⟩

theorem OpensAt.unique {i : ℕ} {frame frame' : φ} (h : OpensAt marks i frame)
    (h' : OpensAt marks i frame') : frame = frame' := by
  rw [OpensAt, h] at h'
  cases h'
  rfl

namespace Names

variable {n : ℕ} {positions : List ℕ} {stack : List φ}

/-- A closing mark without a scope of its label. -/
theorem ignore (h : Names label marks n positions stack) {closed : τ}
    (hmark : marks[n]? = some (.closes closed)) (hnone : ∀ frame ∈ stack, label frame ≠ closed) :
    Names label marks (n + 1) positions stack := by
  refine h.keep (fun frame hframe => ?_) fun k hk => ?_
  · rw [OpensAt, hmark] at hframe
    cases hframe
  · obtain ⟨frame, hopens, hclosed, hopen, -⟩ := hk
    rw [hmark] at hclosed
    cases hclosed
    obtain ⟨other, hother, hopens'⟩ := exists_related h.frames ((h.openAt k).mpr hopen)
    exact hnone other hother (congrArg label (hopens'.unique hopens))

/-- A closing mark with a scope of its label. -/
theorem pop {inner outer : List φ} {frame : φ} {closed : τ}
    (h : Names label marks n positions (inner ++ frame :: outer))
    (hmark : marks[n]? = some (.closes closed)) (hinner : ∀ other ∈ inner, label other ≠ closed)
    (hframe : label frame = closed) : ∃ left, Names label marks (n + 1) left outer := by
  obtain ⟨front, top, back, rfl, hfront, htop, hback⟩ := exists_cut h.frames
  obtain ⟨-, hbacks, hbefore⟩ := List.pairwise_append.mp h.innermost
  obtain ⟨hunder, hbacks⟩ := List.pairwise_cons.mp hbacks
  have htopOpen : OpenAt label marks top n := (h.openAt top).mp (by simp)
  -- the mark closes the scope at the cut, and no other
  have hcloses : ∀ k, ClosesAt label marks k n ↔ k = top := by
    intro k
    constructor
    · rintro ⟨other, hopens, hclosed, hopen, hnearest⟩
      rw [hmark] at hclosed
      cases hclosed
      rcases List.mem_append.mp ((h.openAt k).mpr hopen) with hin | hin
      · obtain ⟨between, hbetween, hopens'⟩ := exists_related hfront hin
        exact absurd (congrArg label (hopens'.unique hopens)) (hinner between hbetween)
      · rcases List.mem_cons.mp hin with heq | hin
        · exact heq
        · exact absurd htopOpen (hnearest top (hunder k hin) frame htop hframe)
    · rintro rfl
      refine ⟨frame, htop, hframe ▸ hmark, htopOpen, fun i hi other hopens hlabel hopen => ?_⟩
      rcases List.mem_append.mp ((h.openAt i).mpr hopen) with hin | hin
      · obtain ⟨between, hbetween, hopens'⟩ := exists_related hfront hin
        refine hinner between hbetween ?_
        rw [hopens'.unique hopens, hlabel, hframe]
      · rcases List.mem_cons.mp hin with rfl | hin
        · exact lt_irrefl _ hi
        · exact absurd (hunder i hin) (by omega)
  refine ⟨back, hback, hbacks, fun i => ?_⟩
  constructor
  · intro hi
    have hopen : OpenAt label marks i n := (h.openAt i).mp (by simp [hi])
    refine (openAt_succ_iff hopen.lt).mpr ⟨hopen, fun k hk hclosesAt => ?_⟩
    have hlt := hunder i hi
    rw [hcloses] at hclosesAt
    omega
  · intro hopen
    rcases Nat.lt_succ_iff_lt_or_eq.mp hopen.lt with hin | rfl
    · obtain ⟨hopen, hnever⟩ := (openAt_succ_iff hin).mp hopen
      have hbelow : i < top := not_le.mp fun hle => hnever top hle ((hcloses top).mpr rfl)
      rcases List.mem_append.mp ((h.openAt i).mpr hopen) with hfrontmost | hrest
      · exact absurd (hbefore i hfrontmost top (.head _)) (by omega)
      · exact (List.mem_cons.mp hrest).resolve_left (by omega)
    · obtain ⟨other, hopens⟩ := openAt_self_succ_iff.mp hopen
      rw [OpensAt, hmark] at hopens
      cases hopens

end Names

section Spec

variable [DecidableEq τ]

/-- One mark moves the stack as it moves the open scopes. -/
theorem Names.step {n : ℕ} {positions : List ℕ} {stack : List φ}
    (h : Names label marks n positions stack) {mark : Mark φ τ} (hmark : marks[n]? = some mark) :
    ∃ left, Names label marks (n + 1) left (markStack label stack mark) := by
  cases mark with
  | opens frame => exact ⟨_, h.push hmark⟩
  | passes =>
      refine ⟨positions, h.keep (fun frame hframe => ?_) (not_closesAt_of_ne fun closed hclosed => ?_)⟩
      · rw [OpensAt, hmark] at hframe
        cases hframe
      · rw [hmark] at hclosed
        cases hclosed
  | closes closed =>
      by_cases hnone : ∀ frame ∈ stack, label frame ≠ closed
      · rw [markStack, closeNearest_of_none label hnone]
        exact ⟨positions, h.ignore hmark hnone⟩
      · have hdrop : stack.dropWhile (fun frame => label frame ≠ closed) ≠ [] := by
          rw [Ne, List.dropWhile_eq_nil_iff]
          exact fun hall => hnone fun frame hframe => of_decide_eq_true (hall frame hframe)
        obtain ⟨frame, outer, hcut⟩ := List.exists_cons_of_ne_nil hdrop
        have hframe : label frame = closed := by
          have hfirst : (stack.dropWhile fun frame => label frame ≠ closed).head hdrop = frame := by
            simp only [hcut, List.head_cons]
          have hhead := List.head_dropWhile_not _ hdrop
          rw [hfirst] at hhead
          simpa using hhead
        have hstack : stack = stack.takeWhile (fun frame => label frame ≠ closed) ++
            frame :: outer := by
          rw [← hcut, List.takeWhile_append_dropWhile]
        have hinner : ∀ other ∈ stack.takeWhile (fun frame => label frame ≠ closed),
            label other ≠ closed := fun other hother => by
          simpa using List.mem_takeWhile_imp hother
        rw [hstack] at h
        obtain ⟨left, hleft⟩ := h.pop hmark hinner hframe
        refine ⟨left, ?_⟩
        rw [markStack, hstack, closeNearest_append label hinner hframe]
        exact hleft

/-- **The stack holds exactly the scopes that are open.** -/
theorem stackAfter_spec (label : φ → τ) (marks : List (Mark φ τ)) (n : ℕ) :
    ∃ positions, Names label marks n positions (stackAfter label (marks.take n)) := by
  induction n with
  | zero =>
      refine ⟨[], .nil, .nil, fun i => ⟨fun h => absurd h List.not_mem_nil, fun h => ?_⟩⟩
      exact absurd h.lt (Nat.not_lt_zero i)
  | succ n ih =>
      obtain ⟨positions, hnames⟩ := ih
      cases hmark : marks[n]? with
      | some mark =>
          rw [List.take_add_one, hmark, Option.toList_some, stackAfter, List.foldl_append]
          exact hnames.step hmark
      | none =>
          rw [List.take_add_one, hmark, Option.toList_none, List.append_nil]
          refine ⟨positions, hnames.keep (fun frame hframe => ?_)
            (not_closesAt_of_ne fun closed hclosed => ?_)⟩
          · rw [OpensAt, hmark] at hframe
            cases hframe
          · rw [hmark] at hclosed
            cases hclosed

/-- A frame stands in the stack exactly when a scope with it is open. -/
theorem mem_stackAfter_iff {n : ℕ} {frame : φ} :
    frame ∈ stackAfter label (marks.take n) ↔
      ∃ i, OpensAt marks i frame ∧ OpenAt label marks i n := by
  obtain ⟨positions, hnames⟩ := stackAfter_spec label marks n
  constructor
  · intro h
    obtain ⟨i, hi, hopens⟩ := exists_related hnames.frames.flip h
    exact ⟨i, hopens, (hnames.openAt i).mp hi⟩
  · rintro ⟨i, hopens, hopen⟩
    obtain ⟨other, hother, hopens'⟩ := exists_related hnames.frames ((hnames.openAt i).mpr hopen)
    exact hopens'.unique hopens ▸ hother

end Spec

end Scopes
