import Mathlib.Data.Nat.Init
import Mathlib.Tactic.NormNum

/-!
# Calendar dates as text

A calendar date and its ISO text `YYYY-MM-DD`, under which days are kept in a ledger.  Two dates
with the same text are the same date.
-/

namespace Calendar

/-- A calendar date; four digits hold its year. -/
structure UtcDate where
  year : ℕ
  month : ℕ
  day : ℕ
  year_lt : year < 10000
  month_lt : month < 100
  day_lt : day < 100
  deriving DecidableEq, Repr

/-- The character of a decimal digit. -/
def digit (n : ℕ) : Char := Char.ofNat (48 + n % 10)

/-- Two decimal digits. -/
def twoDigits (n : ℕ) : List Char := [digit (n / 10), digit n]

/-- Four decimal digits. -/
def fourDigits (n : ℕ) : List Char := twoDigits (n / 100) ++ twoDigits n

/-- The ISO text of a date. -/
def UtcDate.isoformat (date : UtcDate) : String :=
  String.ofList (fourDigits date.year ++ '-' :: (twoDigits date.month ++ '-' :: twoDigits date.day))

theorem digit_inj {m n : ℕ} : digit m = digit n ↔ m % 10 = n % 10 := by
  have key : ∀ a b : Fin 10, Char.ofNat (48 + a.val) = Char.ofNat (48 + b.val) → a = b := by decide
  constructor
  · intro h
    have := key ⟨m % 10, Nat.mod_lt _ (by omega)⟩ ⟨n % 10, Nat.mod_lt _ (by omega)⟩ h
    exact congrArg Fin.val this
  · intro h
    rw [digit, digit, h]

theorem twoDigits_inj {m n : ℕ} (hm : m < 100) (hn : n < 100) (h : twoDigits m = twoDigits n) :
    m = n := by
  simp only [twoDigits, List.cons.injEq, digit_inj, and_true] at h
  omega

theorem fourDigits_inj {m n : ℕ} (hm : m < 10000) (hn : n < 10000)
    (h : fourDigits m = fourDigits n) : m = n := by
  simp only [fourDigits, twoDigits, List.cons_append, List.nil_append, List.cons.injEq, digit_inj,
    and_true] at h
  omega

/-- **The text determines the date.** -/
theorem isoformat_injective : Function.Injective UtcDate.isoformat := by
  intro d e h
  have hchars := congrArg String.toList h
  simp only [UtcDate.isoformat, String.toList_ofList] at hchars
  obtain ⟨hyear, hrest⟩ := List.append_inj hchars rfl
  obtain ⟨hmonth, hrest⟩ := List.append_inj (List.cons.inj hrest).2 rfl
  have hday := (List.cons.inj hrest).2
  obtain ⟨year, month, day, hy, hm, hd⟩ := d
  obtain ⟨year', month', day', hy', hm', hd'⟩ := e
  obtain rfl : year = year' := fourDigits_inj hy hy' hyear
  obtain rfl : month = month' := twoDigits_inj hm hm' hmonth
  obtain rfl : day = day' := twoDigits_inj hd hd' hday
  rfl

end Calendar
