import Mathlib.Algebra.BigOperators.Group.List.Basic
import Mathlib.Algebra.Order.BigOperators.Group.List
import Mathlib.Algebra.Order.Ring.Int
import Mathlib.Data.List.Sort
import Mathlib.Data.Prod.Lex
import Mathlib.Tactic.Linarith
import Mathlib.Tactic.LinearCombination

/-!
# Largest-remainder apportionment

A target is shared out among parties in proportion to their weights.  Every party first gets its
quota rounded down; the units left over go, one each, to the parties with the largest remainders.
Ties go to the larger weight and then to the smaller name, so that the order of the parties does
not matter.

* `share` — what a party gets.
* **`sum_share`**, **`share_near_quota`**, **`share_mono`**, **`share_perm`** — the shares make up
  the target, none is a whole unit off its quota, a larger weight gets no less, and only the set of
  parties counts.
-/

namespace LargestRemainder

variable {κ : Type} {parties : List (κ × ℤ)}

/-! ## The units left over -/

/-- The sum of the weights. -/
def total (parties : List (κ × ℤ)) : ℤ := (parties.map Prod.snd).sum

/-- A quota rounded down. -/
def base (whole target weight : ℤ) : ℤ := weight * target / whole

/-- What rounding a quota down left, in parts of the whole. -/
def remainder (whole target weight : ℤ) : ℤ := weight * target % whole

/-- The units that the quotas rounded down leave. -/
def leftOver (target : ℤ) (parties : List (κ × ℤ)) : ℤ :=
  target - (parties.map fun party => base (total parties) target party.2).sum

/-- Quotas rounded down and remainders make up the quotas. -/
theorem sum_base_mul_add (whole target : ℤ) (some : List (κ × ℤ)) :
    (some.map fun party => base whole target party.2).sum * whole +
      (some.map fun party => remainder whole target party.2).sum = target * total some := by
  induction some with
  | nil => simp [total]
  | cons party rest ih =>
      have hparty := Int.mul_ediv_add_emod (party.2 * target) whole
      simp only [total, base, remainder, List.map_cons, List.sum_cons] at ih ⊢
      linear_combination ih + hparty

/-- The remainders make up the units left over. -/
theorem leftOver_mul (target : ℤ) (parties : List (κ × ℤ)) :
    leftOver target parties * total parties =
      (parties.map fun party => remainder (total parties) target party.2).sum := by
  have hall := sum_base_mul_add (total parties) target parties
  rw [leftOver]
  linear_combination -hall

theorem remainder_nonneg (target : ℤ) {whole : ℤ} (h : 0 < whole) (weight : ℤ) :
    0 ≤ remainder whole target weight := Int.emod_nonneg _ h.ne'

theorem remainder_lt (target : ℤ) {whole : ℤ} (h : 0 < whole) (weight : ℤ) :
    remainder whole target weight < whole := Int.emod_lt_of_pos _ h

/-- Remainders that add up to some wholes come from at least as many parties. -/
theorem sum_remainder_le (target : ℤ) {whole : ℤ} (h : 0 < whole) (some : List (κ × ℤ)) :
    (some.map fun party => remainder whole target party.2).sum ≤
      (some.countP fun party => 0 < remainder whole target party.2) * (whole - 1) := by
  induction some with
  | nil => simp
  | cons party rest ih =>
      have hparty := remainder_lt target h party.2
      rw [List.map_cons, List.sum_cons, List.countP_cons]
      by_cases hpositive : 0 < remainder whole target party.2
      · rw [if_pos (by simpa using hpositive)]
        push_cast
        linarith
      · rw [if_neg (by simpa using hpositive)]
        push_cast
        linarith

section Positive

variable (target : ℤ) (hwhole : 0 < total parties)

include hwhole

theorem leftOver_nonneg : 0 ≤ leftOver target parties := by
  refine nonneg_of_mul_nonneg_left ?_ hwhole
  rw [leftOver_mul]
  refine List.sum_nonneg fun x hx => ?_
  obtain ⟨party, -, rfl⟩ := List.mem_map.mp hx
  exact remainder_nonneg target hwhole party.2

/-- No more units are left over than there are parties with a remainder. -/
theorem leftOver_le :
    leftOver target parties ≤
      parties.countP fun party => 0 < remainder (total parties) target party.2 := by
  have hsum := sum_remainder_le target hwhole parties
  rw [← leftOver_mul] at hsum
  by_contra hmore
  have hgap : ((parties.countP fun party => 0 < remainder (total parties) target party.2) + 1 : ℤ) *
      total parties ≤ leftOver target parties * total parties :=
    mul_le_mul_of_nonneg_right (by omega) hwhole.le
  have hcount : (0 : ℤ) ≤ parties.countP fun party =>
      0 < remainder (total parties) target party.2 := Int.natCast_nonneg _
  nlinarith

theorem leftOver_toNat_le :
    (leftOver target parties).toNat ≤
      parties.countP fun party => 0 < remainder (total parties) target party.2 := by
  have hle := leftOver_le target hwhole
  omega

end Positive

/-! ## The ranking -/

variable {target : ℤ}

/-- The key of the ranking: larger remainder, then larger weight, then smaller name. -/
def rank (whole target : ℤ) (party : κ × ℤ) : ℤ ×ₗ ℤ ×ₗ κ :=
  toLex (-remainder whole target party.2, toLex (-party.2, party.1))

theorem rank_injective (whole target : ℤ) :
    Function.Injective (rank whole target : κ × ℤ → ℤ ×ₗ ℤ ×ₗ κ) := by
  intro a b h
  have hinner := congrArg (fun key => (ofLex (ofLex key).2)) h
  simp only [rank, ofLex_toLex, Prod.mk.injEq] at hinner
  exact Prod.ext hinner.2 (neg_injective hinner.1)

variable [LinearOrder κ]

/-- The parties as they are served. -/
def ranked (whole target : ℤ) (parties : List (κ × ℤ)) : List (κ × ℤ) :=
  parties.insertionSort fun a b => rank whole target a ≤ rank whole target b

theorem ranked_perm (whole target : ℤ) (parties : List (κ × ℤ)) :
    (ranked whole target parties).Perm parties := List.perm_insertionSort _ _

theorem ranked_pairwise (whole target : ℤ) (parties : List (κ × ℤ)) :
    (ranked whole target parties).Pairwise fun a b => rank whole target a ≤ rank whole target b := by
  have htotal : Std.Total fun a b : κ × ℤ => rank whole target a ≤ rank whole target b :=
    ⟨fun a b => le_total _ _⟩
  have htrans : IsTrans (κ × ℤ) fun a b => rank whole target a ≤ rank whole target b :=
    ⟨fun a b c => le_trans⟩
  exact List.pairwise_insertionSort _ parties

/-- The ranking sees the parties only, not their order. -/
theorem ranked_eq_of_perm {others : List (κ × ℤ)} (whole target : ℤ) (h : parties.Perm others) :
    ranked whole target parties = ranked whole target others :=
  (((ranked_perm whole target parties).trans h).trans
    (ranked_perm whole target others).symm).eq_of_pairwise
      (fun _ _ _ _ hab hba => rank_injective whole target (le_antisymm hab hba))
      (ranked_pairwise whole target parties) (ranked_pairwise whole target others)

/-- Whoever comes later in the ranking has no larger remainder. -/
theorem remainder_le_of_rank_le {whole : ℤ} {a b : κ × ℤ}
    (h : rank whole target a ≤ rank whole target b) :
    remainder whole target b.2 ≤ remainder whole target a.2 := by
  rcases Prod.Lex.toLex_le_toLex.mp h with hlt | ⟨heq, -⟩
  · simp only at hlt
    omega
  · simp only at heq
    omega

/-! ## The shares -/

/-- The parties that get a further unit. -/
def awarded (target : ℤ) (parties : List (κ × ℤ)) : List κ :=
  ((ranked (total parties) target parties).take (leftOver target parties).toNat).map Prod.fst

/-- What a party gets. -/
def share (target : ℤ) (parties : List (κ × ℤ)) (party : κ × ℤ) : ℤ :=
  base (total parties) target party.2 + if party.1 ∈ awarded target parties then 1 else 0

/-- The parties that are served. -/
theorem mem_awarded_iff (hnames : (parties.map Prod.fst).Nodup) {party : κ × ℤ}
    (hparty : party ∈ parties) :
    party.1 ∈ awarded target parties ↔
      party ∈ (ranked (total parties) target parties).take (leftOver target parties).toNat := by
  constructor
  · intro h
    obtain ⟨other, hother, hname⟩ := List.mem_map.mp h
    have hin : other ∈ parties :=
      (ranked_perm _ target parties).mem_iff.mp (List.mem_of_mem_take hother)
    exact List.inj_on_of_nodup_map hnames hin hparty hname ▸ hother
  · exact fun h => List.mem_map_of_mem h

/-- Shares are quotas rounded down and a unit for everyone served. -/
theorem sum_share_eq (some : List (κ × ℤ)) :
    (some.map (share target parties)).sum =
      (some.map fun party => base (total parties) target party.2).sum +
        (((some.map Prod.fst).filter (· ∈ awarded target parties)).length : ℤ) := by
  induction some with
  | nil => rfl
  | cons party rest ih =>
      rw [List.map_cons, List.sum_cons, ih, List.map_cons, List.sum_cons, List.map_cons,
        List.filter_cons, share]
      by_cases hin : party.1 ∈ awarded target parties
      · simp only [hin, decide_true, if_true, List.length_cons]
        push_cast
        omega
      · simp only [hin, decide_false, if_false, Bool.false_eq_true]
        omega

section Shares

variable (hwhole : 0 < total parties) (hnames : (parties.map Prod.fst).Nodup)

include hwhole

/-- **Only parties with a remainder get a further unit.** -/
theorem remainder_pos_of_awarded {party : κ × ℤ}
    (h : party ∈ (ranked (total parties) target parties).take (leftOver target parties).toNat) :
    0 < remainder (total parties) target party.2 := by
  by_contra hnone
  -- then nobody after the ones served has a remainder, and one of those served has none either
  have hcount := leftOver_toNat_le target hwhole
  rw [← (ranked_perm (total parties) target parties).countP_eq,
    ← List.take_append_drop (leftOver target parties).toNat
      (ranked (total parties) target parties), List.countP_append] at hcount
  have hsorted := ranked_pairwise (total parties) target parties
  rw [← List.take_append_drop (leftOver target parties).toNat
    (ranked (total parties) target parties), List.pairwise_append] at hsorted
  have hafter : ((ranked (total parties) target parties).drop
      (leftOver target parties).toNat).countP
        (fun other => 0 < remainder (total parties) target other.2) = 0 := by
    refine List.countP_eq_zero.mpr fun other hother => ?_
    have hless := remainder_le_of_rank_le (hsorted.2.2 party h other hother)
    simpa using hless.trans (not_lt.mp hnone)
  have hserved : ((ranked (total parties) target parties).take
      (leftOver target parties).toNat).countP
        (fun other => 0 < remainder (total parties) target other.2) <
      ((ranked (total parties) target parties).take (leftOver target parties).toNat).length := by
    refine lt_of_le_of_ne List.countP_le_length fun hall => ?_
    exact hnone (by simpa using List.countP_eq_length.mp hall party h)
  have hlength := List.length_take_le (leftOver target parties).toNat
    (ranked (total parties) target parties)
  omega

theorem length_awarded : ((awarded target parties).length : ℤ) = leftOver target parties := by
  have hnonneg := leftOver_nonneg target hwhole
  have hcount := leftOver_toNat_le target hwhole
  have hparties : parties.countP (fun party => 0 < remainder (total parties) target party.2) ≤
      parties.length := List.countP_le_length
  rw [awarded, List.length_map, List.length_take, (ranked_perm _ target parties).length_eq]
  omega

include hnames

/-- **The shares make up the target.** -/
theorem sum_share : (parties.map (share target parties)).sum = target := by
  have hserved : ((parties.map Prod.fst).filter (· ∈ awarded target parties)).Perm
      (awarded target parties) := by
    have hsub : (awarded target parties).Sublist
        ((ranked (total parties) target parties).map Prod.fst) :=
      (List.take_sublist _ _).map Prod.fst
    have hranked := (ranked_perm (total parties) target parties).map Prod.fst
    refine (List.perm_ext_iff_of_nodup (hnames.filter _)
      (hsub.nodup (hranked.nodup_iff.mpr hnames))).mpr fun name => ?_
    rw [List.mem_filter, decide_eq_true_eq]
    exact ⟨And.right, fun h => ⟨hranked.mem_iff.mp (hsub.mem h), h⟩⟩
  rw [sum_share_eq, hserved.length_eq, length_awarded hwhole, leftOver]
  omega

/-- **No share is a whole unit off its quota.** -/
theorem share_near_quota {party : κ × ℤ} (hparty : party ∈ parties) :
    |share target parties party * total parties - party.2 * target| < total parties := by
  have hdivided := Int.mul_ediv_add_emod (party.2 * target) (total parties)
  have hlow := remainder_nonneg target hwhole party.2
  have hhigh := remainder_lt target hwhole party.2
  simp only [remainder] at hlow hhigh
  rw [abs_lt, share, base]
  by_cases hserved : party.1 ∈ awarded target parties
  · have hpositive := remainder_pos_of_awarded hwhole
      ((mem_awarded_iff hnames hparty).mp hserved)
    rw [remainder] at hpositive
    rw [if_pos hserved, add_mul, mul_comm]
    constructor <;> linarith
  · rw [if_neg hserved, add_mul, mul_comm]
    constructor <;> linarith

/-- **A larger weight gets no less.** -/
theorem share_mono (htarget : 0 < target) {a b : κ × ℤ} (ha : a ∈ parties) (hb : b ∈ parties)
    (h : b.2 < a.2) : share target parties b ≤ share target parties a := by
  have hproduct : b.2 * target < a.2 * target := mul_lt_mul_of_pos_right h htarget
  have hbase : base (total parties) target b.2 ≤ base (total parties) target a.2 :=
    Int.ediv_le_ediv hwhole hproduct.le
  rw [share, share]
  by_cases hserved : b.1 ∈ awarded target parties
  · rw [if_pos hserved]
    by_cases hsame : base (total parties) target b.2 = base (total parties) target a.2
    · -- of two equal quotas rounded down the larger weight has the larger remainder
      have hdivided := Int.mul_ediv_add_emod (b.2 * target) (total parties)
      have hdivided' := Int.mul_ediv_add_emod (a.2 * target) (total parties)
      rw [base, base] at hsame
      rw [hsame] at hdivided
      have hahead : a.1 ∈ awarded target parties := by
        rw [mem_awarded_iff hnames hb] at hserved
        rw [mem_awarded_iff hnames ha]
        have hin := (ranked_perm (total parties) target parties).mem_iff.mpr ha
        rw [← List.take_append_drop (leftOver target parties).toNat
          (ranked (total parties) target parties), List.mem_append] at hin
        refine hin.resolve_right fun hlate => ?_
        have hsorted := ranked_pairwise (total parties) target parties
        rw [← List.take_append_drop (leftOver target parties).toNat
          (ranked (total parties) target parties), List.pairwise_append] at hsorted
        have hless := remainder_le_of_rank_le (hsorted.2.2 b hserved a hlate)
        rw [remainder, remainder] at hless
        omega
      rw [if_pos hahead, base, base, hsame]
    · split <;> omega
  · rw [if_neg hserved]
    split <;> omega

/-- Without a remainder a party gets its quota. -/
theorem share_of_remainder_eq_zero {party : κ × ℤ} (hparty : party ∈ parties)
    (h : remainder (total parties) target party.2 = 0) :
    share target parties party = base (total parties) target party.2 := by
  rw [share, if_neg, Int.add_zero]
  rw [mem_awarded_iff hnames hparty]
  exact fun hserved => (remainder_pos_of_awarded hwhole hserved).ne' h

theorem share_of_zero {party : κ × ℤ} (hparty : party ∈ parties) (h : party.2 = 0) :
    share target parties party = 0 := by
  rw [share_of_remainder_eq_zero hwhole hnames hparty (by simp [remainder, h])]
  simp [base, h]

/-- Weights that already make up the target are their own shares. -/
theorem share_of_total_eq {party : κ × ℤ} (hparty : party ∈ parties) (h : total parties = target) :
    share target parties party = party.2 := by
  rw [share_of_remainder_eq_zero hwhole hnames hparty (by simp [remainder, h]), base, h]
  exact Int.mul_ediv_cancel _ (h ▸ hwhole).ne'

end Shares

theorem share_nonneg (hwhole : 0 < total parties) (htarget : 0 ≤ target) {party : κ × ℤ}
    (hweight : 0 ≤ party.2) : 0 ≤ share target parties party := by
  have hbase : 0 ≤ base (total parties) target party.2 :=
    Int.ediv_nonneg (mul_nonneg hweight htarget) hwhole.le
  rw [share]
  split <;> omega

/-- **Only the set of parties counts.** -/
theorem share_perm {others : List (κ × ℤ)} (h : parties.Perm others) :
    share target parties = share target others := by
  have htotal : total parties = total others := (h.map Prod.snd).sum_eq
  have hleft : leftOver target parties = leftOver target others := by
    rw [leftOver, leftOver, htotal, (h.map _).sum_eq]
  funext party
  rw [share, share, awarded, awarded, hleft, htotal, ranked_eq_of_perm _ _ h]

end LargestRemainder
