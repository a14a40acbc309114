import Mathlib.Data.BitVec
import Mathlib.Data.Fintype.Card
import Mathlib.Data.Int.CardIntervalMod

/-!
# Words of a fixed width

A generator that steps through the words of a width by a fixed increment and mixes each of them.

* **Invertible rounds** — `xorShift_injective`, `mul_injective`: a word xored with its own shift, and
  a word times a factor with an inverse, determine the word; `surjective_of_injective` turns what is
  injective into a bijection.
* **The walk** — `walk_injOn`: by an increment with an inverse, no word comes twice in a period.
* **A period** — among as many different words as there are every word comes (`exists_word`), and
  each residue equally often below the largest multiple of a bound (`card_residue`).
* **Drawing below a limit** — `Draws` is the loop, `firstBelow` runs it; it ends when some output
  is below the limit (`firstBelow_isSome`), and time after time it returns those that are
  (`drawsAll_outputs`).
-/

namespace Words

variable {w : ℕ}

/-! ## Invertible rounds -/

/-- A word and its own shift. -/
def xorShift (k : ℕ) (x : BitVec w) : BitVec w := x ^^^ (x >>> k)

/-- Only zero is its own shift. -/
theorem eq_zero_of_shift {k : ℕ} (hk : 0 < k) {d : BitVec w} (h : d = d >>> k) : d = 0#w := by
  have hnat : d.toNat = d.toNat / 2 ^ k := by
    rw [← Nat.shiftRight_eq_div_pow, ← BitVec.toNat_ushiftRight, ← h]
  apply BitVec.eq_of_toNat_eq
  by_contra hne
  have hpos : 0 < d.toNat := Nat.pos_of_ne_zero hne
  exact absurd hnat (Nat.div_lt_self hpos (Nat.one_lt_two_pow hk.ne')).ne'

/-- A word is determined by its xor with its own shift. -/
theorem xorShift_injective {k : ℕ} (hk : 0 < k) :
    Function.Injective (xorShift k : BitVec w → BitVec w) := by
  intro x y h
  have hdiff : x ^^^ y = (x ^^^ y) >>> k := by
    unfold xorShift at h
    rw [BitVec.ushiftRight_xor_distrib]
    calc x ^^^ y = (x ^^^ (x >>> k)) ^^^ (y ^^^ (y >>> k)) ^^^ ((x >>> k) ^^^ (y >>> k)) := by
          generalize x >>> k = a
          generalize y >>> k = b
          apply BitVec.eq_of_getLsbD_eq
          intro i _
          simp only [BitVec.getLsbD_xor]
          cases x.getLsbD i <;> cases y.getLsbD i <;> cases a.getLsbD i <;> cases b.getLsbD i <;> rfl
      _ = (x >>> k) ^^^ (y >>> k) := by rw [h, BitVec.xor_self, BitVec.zero_xor]
  exact BitVec.xor_eq_zero_iff.mp (eq_zero_of_shift hk hdiff)

/-- A word is determined by its product with a factor that has an inverse. -/
theorem mul_injective {m inverse : BitVec w} (h : m * inverse = 1#w) :
    Function.Injective fun x : BitVec w => x * m := by
  intro x y hxy
  have hproduct : x * m * inverse = y * m * inverse := congrArg (· * inverse) hxy
  rwa [BitVec.mul_assoc, BitVec.mul_assoc, h, BitVec.mul_one, BitVec.mul_one] at hproduct

/-- An injection of the words is onto. -/
theorem surjective_of_injective {f : BitVec w → BitVec w} (h : Function.Injective f) :
    Function.Surjective f := by
  have hfin : Function.Injective fun i : Fin (2 ^ w) => (f ⟨i⟩).toFin := fun i j hij =>
    BitVec.ofFin.inj (h (BitVec.toFin_inj.mp hij))
  intro y
  obtain ⟨i, hi⟩ := Finite.injective_iff_surjective.mp hfin y.toFin
  exact ⟨⟨i⟩, BitVec.toFin_inj.mp hi⟩

/-! ## The walk -/

/-- The word after `n` steps. -/
def walk (start increment : BitVec w) (n : ℕ) : BitVec w :=
  start + BitVec.ofNat w n * increment

theorem walk_zero (start increment : BitVec w) : walk start increment 0 = start := by
  rw [walk, BitVec.zero_mul, BitVec.add_zero]

/-- **No word comes twice in a period.** -/
theorem walk_injOn (start : BitVec w) {increment inverse : BitVec w}
    (h : increment * inverse = 1#w) :
    Set.InjOn (walk start increment) {n | n < 2 ^ w} := by
  intro i hi j hj hij
  have hword := mul_injective h (BitVec.add_right_inj start |>.mp hij)
  have hnat := congrArg BitVec.toNat hword
  rwa [BitVec.toNat_ofNat, BitVec.toNat_ofNat, Nat.mod_eq_of_lt hi, Nat.mod_eq_of_lt hj] at hnat

/-- After a period the walk is where it started. -/
theorem walk_period (start increment : BitVec w) : walk start increment (2 ^ w) = start := by
  have hzero : BitVec.ofNat w (2 ^ w) = 0#w := by
    apply BitVec.eq_of_toNat_eq
    rw [BitVec.toNat_ofNat, Nat.mod_self, BitVec.toNat_ofNat, Nat.zero_mod]
  rw [walk, hzero, BitVec.zero_mul, BitVec.add_zero]

theorem walk_succ (start increment : BitVec w) (n : ℕ) :
    walk start increment (n + 1) = walk start increment n + increment := by
  unfold walk
  rw [BitVec.ofNat_add, BitVec.add_mul, BitVec.one_mul, BitVec.add_assoc]

/-! ## Words that come once in a period -/

section

variable {f : ℕ → BitVec w}

/-- **Every word comes** among as many different ones as there are. -/
theorem period_image (h : Set.InjOn f {n | n < 2 ^ w}) :
    (Finset.range (2 ^ w)).image (fun n => (f n).toNat) = Finset.range (2 ^ w) := by
  refine Finset.eq_of_subset_of_card_le ?_ ?_
  · intro x hx
    obtain ⟨n, -, rfl⟩ := Finset.mem_image.mp hx
    exact Finset.mem_range.mpr (f n).isLt
  · rw [Finset.card_image_of_injOn]
    intro i hi j hj hij
    exact h (Finset.mem_range.mp (Finset.mem_coe.mp hi)) (Finset.mem_range.mp (Finset.mem_coe.mp hj))
      (BitVec.eq_of_toNat_eq hij)

/-- A given word comes within a period. -/
theorem exists_word (h : Set.InjOn f {n | n < 2 ^ w}) (x : BitVec w) : ∃ n < 2 ^ w, f n = x := by
  have hmem : x.toNat ∈ (Finset.range (2 ^ w)).image fun n => (f n).toNat := by
    rw [period_image h]
    exact Finset.mem_range.mpr x.isLt
  obtain ⟨n, hn, hx⟩ := Finset.mem_image.mp hmem
  exact ⟨n, Finset.mem_range.mp hn, BitVec.eq_of_toNat_eq hx⟩

/-- The words below the largest multiple of a bound, one residue at a time. -/
theorem count_residue {bound r : ℕ} (hr : r < bound) :
    ((Finset.range (2 ^ w)).filter
      fun x => x < 2 ^ w - 2 ^ w % bound ∧ x % bound = r).card = 2 ^ w / bound := by
  have hbound : 0 < bound := Nat.zero_lt_of_lt hr
  have hlimit : 2 ^ w - 2 ^ w % bound = bound * (2 ^ w / bound) := by
    have hdivision := Nat.div_add_mod (2 ^ w) bound
    omega
  have hsame : (Finset.range (2 ^ w)).filter
        (fun x => x < 2 ^ w - 2 ^ w % bound ∧ x % bound = r) =
      (Finset.range (2 ^ w - 2 ^ w % bound)).filter fun x => x ≡ r [MOD bound] := by
    ext x
    rw [Finset.mem_filter, Finset.mem_filter, Finset.mem_range, Finset.mem_range, Nat.ModEq,
      Nat.mod_eq_of_lt hr]
    omega
  rw [hsame, ← Nat.count_eq_card_filter_range, Nat.count_modEq_card _ hbound, hlimit,
    Nat.mul_mod_right, Nat.mul_div_cancel_left _ hbound, if_neg (Nat.not_lt_zero _), Nat.add_zero]

/-- **Each residue comes equally often** among the words of a period below the largest multiple of
the bound. -/
theorem card_residue (h : Set.InjOn f {n | n < 2 ^ w}) {bound r : ℕ} (hr : r < bound) :
    ((Finset.range (2 ^ w)).filter fun n =>
      (f n).toNat < 2 ^ w - 2 ^ w % bound ∧ (f n).toNat % bound = r).card = 2 ^ w / bound := by
  have himage : ((Finset.range (2 ^ w)).image fun n => (f n).toNat).filter
        (fun x => x < 2 ^ w - 2 ^ w % bound ∧ x % bound = r) =
      ((Finset.range (2 ^ w)).filter fun n =>
        (f n).toNat < 2 ^ w - 2 ^ w % bound ∧ (f n).toNat % bound = r).image
          fun n => (f n).toNat := Finset.filter_image
  rw [period_image h] at himage
  rw [← count_residue hr, himage, Finset.card_image_of_injOn]
  intro i hi j hj hij
  exact h (Finset.mem_range.mp (Finset.mem_filter.mp hi).1)
    (Finset.mem_range.mp (Finset.mem_filter.mp hj).1) (BitVec.eq_of_toNat_eq hij)

end

/-! ## Drawing below a limit -/

universe u

variable {σ : Type u} (next : σ → BitVec w × σ)

/-- The state after some draws. -/
def after : ℕ → σ → σ
  | 0, s => s
  | n + 1, s => after n (next s).2

/-- The draw after some others. -/
def output (s : σ) (n : ℕ) : BitVec w := (next (after next n s)).1

/-- **The loop**: draws are made until one is below the limit. -/
inductive Draws (next : σ → BitVec w × σ) (limit : ℕ) : σ → BitVec w → σ → Prop
  | accepted (s : σ) (h : (next s).1.toNat < limit) : Draws next limit s (next s).1 (next s).2
  | rejected (s : σ) {x : BitVec w} {t : σ} (h : limit ≤ (next s).1.toNat)
      (hrest : Draws next limit (next s).2 x t) : Draws next limit s x t

/-- The loop, one time after another. -/
inductive DrawsAll (next : σ → BitVec w × σ) (limit : ℕ) : σ → List (BitVec w) → σ → Prop
  | nil (s : σ) : DrawsAll next limit s [] s
  | cons {s t u : σ} {x : BitVec w} {xs : List (BitVec w)} (h : Draws next limit s x t)
      (hrest : DrawsAll next limit t xs u) : DrawsAll next limit s (x :: xs) u

/-- The loop, for so many draws at the most. -/
def firstBelow (limit : ℕ) : ℕ → σ → Option (BitVec w × σ)
  | 0, _ => none
  | fuel + 1, s =>
    if limit ≤ (next s).1.toNat then firstBelow limit fuel (next s).2 else some (next s)

variable {next} {limit : ℕ}

/-- The loop, draw by draw. -/
theorem draws_of_firstBelow {fuel : ℕ} {s t : σ} {x : BitVec w}
    (h : firstBelow next limit fuel s = some (x, t)) : Draws next limit s x t := by
  induction fuel generalizing s with
  | zero => cases h
  | succ fuel ih =>
      rw [firstBelow] at h
      by_cases hrejected : limit ≤ (next s).1.toNat
      · rw [if_pos hrejected] at h
        exact .rejected s hrejected (ih h)
      · rw [if_neg hrejected] at h
        have hnext : next s = (x, t) := Option.some.inj h
        have haccepted : Draws next limit s (next s).1 (next s).2 :=
          .accepted s (Nat.not_le.mp hrejected)
        rwa [hnext] at haccepted

/-- Nothing is below zero. -/
theorem firstBelow_zero (fuel : ℕ) (s : σ) : firstBelow next 0 fuel s = none := by
  induction fuel generalizing s with
  | zero => rfl
  | succ fuel ih =>
      rw [firstBelow, if_pos (Nat.zero_le _)]
      exact ih (next s).2

/-- **The loop ends** when some output is below the limit. -/
theorem firstBelow_isSome {fuel : ℕ} {s : σ}
    (h : ∃ n < fuel, (output next s n).toNat < limit) :
    (firstBelow next limit fuel s).isSome := by
  induction fuel generalizing s with
  | zero =>
      obtain ⟨n, hn, -⟩ := h
      exact absurd hn (Nat.not_lt_zero n)
  | succ fuel ih =>
      obtain ⟨n, hn, hbelow⟩ := h
      rw [firstBelow]
      by_cases hrejected : limit ≤ (next s).1.toNat
      · rw [if_pos hrejected]
        cases n with
        | zero => exact absurd hrejected (Nat.not_le.mpr hbelow)
        | succ n => exact ih ⟨n, by omega, hbelow⟩
      · rw [if_neg hrejected]
        rfl

/-- **The loop, one time after another**, returns the outputs below the limit, in order. -/
theorem drawsAll_outputs (n : ℕ) (s : σ) :
    ∃ t, DrawsAll next limit s
      (((List.range n).map (output next s)).filter fun x => x.toNat < limit) t := by
  induction n generalizing s with
  | zero => exact ⟨s, .nil s⟩
  | succ n ih =>
      obtain ⟨t, hrest⟩ := ih (next s).2
      have houtputs : (List.range (n + 1)).map (output next s) =
          (next s).1 :: (List.range n).map (output next (next s).2) := by
        rw [List.range_succ_eq_map, List.map_cons, List.map_map]
        rfl
      rw [houtputs]
      by_cases haccepted : (next s).1.toNat < limit
      · simp only [List.filter_cons, haccepted, decide_true, if_true]
        exact ⟨t, .cons (.accepted s haccepted) hrest⟩
      · simp only [List.filter_cons, haccepted, decide_false, Bool.false_eq_true, if_false]
        generalize ((List.range n).map (output next (next s).2)).filter
          (fun x => x.toNat < limit) = accepted at hrest ⊢
        cases hrest with
        | nil => exact ⟨s, .nil s⟩
        | cons hfirst hothers =>
            exact ⟨t, .cons (.rejected s (Nat.not_lt.mp haccepted) hfirst) hothers⟩

/-- How often a residue is among the outputs below a limit. -/
theorem count_outputs (f : ℕ → BitVec w) (bound r n : ℕ) :
    ((((List.range n).map f).filter fun x => x.toNat < limit).map
      fun x => x.toNat % bound).count r =
    ((Finset.range n).filter fun i => (f i).toNat < limit ∧ (f i).toNat % bound = r).card := by
  have hcard : ∀ p : ℕ → Prop, ∀ [DecidablePred p],
      ((Finset.range n).filter p).card = (List.range n).countP (p ·) := by
    intro p _
    rw [List.countP_eq_length_filter]
    rfl
  rw [hcard, List.count_eq_countP, List.countP_map, List.countP_filter, List.countP_map]
  refine List.countP_congr fun i _ => ?_
  simp only [Function.comp_apply, Bool.and_eq_true, beq_iff_eq, decide_eq_true_eq]
  exact and_comm

end Words
