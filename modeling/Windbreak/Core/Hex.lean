import Windbreak.Core.Json
import Mathlib.Data.UInt

/-!
# Hexadecimal text of bytes

`hex` writes lower-case pairs without separators.  `fromHex` reads more than `hex` writes: either
case, and ASCII whitespace between (never inside) pairs; everything else is refused, at a position.
Different texts may therefore decode to the same bytes, and re-encoding the decoded bytes is the
canonical spelling (`fromHex_hex`).
-/

/-- A string of bytes. -/
abbrev Bytes := List UInt8

namespace Hex

/-- The two digits of a byte. -/
def pair (b : UInt8) : List Char := [Json.hexDigit (b.toNat / 16), Json.hexDigit (b.toNat % 16)]

/-- The canonical spelling of a byte string. -/
def hex (bs : Bytes) : String := String.ofList (bs.flatMap pair)

/-- The value of a hexadecimal digit of either case. -/
def digitValue? (c : Char) : Option ℕ :=
  if 48 ≤ c.toNat ∧ c.toNat ≤ 57 then some (c.toNat - 48)
  else if 97 ≤ c.toNat ∧ c.toNat ≤ 102 then some (c.toNat - 87)
  else if 65 ≤ c.toNat ∧ c.toNat ≤ 70 then some (c.toNat - 55)
  else none

/-- ASCII whitespace. -/
def isSpace (c : Char) : Bool := c.toNat == 32 || (decide (9 ≤ c.toNat) && decide (c.toNat ≤ 13))

/-- Read pairs from the character at a position on; the position of the first offence is the
error. -/
def readPairs : ℕ → List Char → Except ℕ Bytes
  | _, [] => .ok []
  | pos, [c] =>
    if isSpace c then .ok [] else .error (if (digitValue? c).isSome then pos + 1 else pos)
  | pos, c :: d :: cs =>
    if isSpace c then readPairs (pos + 1) (d :: cs)
    else
      match digitValue? c, digitValue? d with
      | none, _ => .error pos
      | some _, none => .error (pos + 1)
      | some hi, some lo => (readPairs (pos + 2) cs).map (UInt8.ofNat (16 * hi + lo) :: ·)

/-- Decode a hexadecimal text. -/
def fromHex (s : String) : Except String Bytes :=
  match s.toList.findIdx? (fun c => 128 ≤ c.toNat) with
  | some pos => .error s!"non-hexadecimal number found in fromhex() arg at position {pos}"
  | none =>
    match readPairs 0 s.toList with
    | .ok bs => .ok bs
    | .error pos => .error s!"non-hexadecimal number found in fromhex() arg at position {pos}"

/-! ## The canonical spelling decodes to itself -/

theorem digitValue?_hexDigit {n : ℕ} (h : n < 16) : digitValue? (Json.hexDigit n) = some n := by
  revert n
  decide

theorem isSpace_hexDigit {n : ℕ} (h : n < 16) : isSpace (Json.hexDigit n) = false := by
  revert n
  decide

theorem toNat_hexDigit_lt {n : ℕ} (h : n < 16) : (Json.hexDigit n).toNat < 128 := by
  revert n
  decide

theorem readPairs_pairs (pos : ℕ) (bs : Bytes) : readPairs pos (bs.flatMap pair) = .ok bs := by
  induction bs generalizing pos with
  | nil => rfl
  | cons b bs ih =>
      have hb : b.toNat < 256 := b.toNat_lt
      have hhi : b.toNat / 16 < 16 := by omega
      have hlo : b.toNat % 16 < 16 := by omega
      have hback : 16 * (b.toNat / 16) + b.toNat % 16 = b.toNat := Nat.div_add_mod _ _
      rw [List.flatMap_cons, pair, List.cons_append, List.cons_append, List.nil_append, readPairs,
        isSpace_hexDigit hhi, digitValue?_hexDigit hhi, digitValue?_hexDigit hlo]
      simp [ih, hback, Except.map]

/-- **The canonical spelling round-trips.** -/
theorem fromHex_hex (bs : Bytes) : fromHex (hex bs) = .ok bs := by
  have hascii : (bs.flatMap pair).findIdx? (fun c => decide (128 ≤ c.toNat)) = none := by
    rw [List.findIdx?_eq_none_iff]
    intro c hc
    obtain ⟨b, -, hcb⟩ := List.mem_flatMap.mp hc
    have hb : b.toNat < 256 := b.toNat_lt
    simp only [pair, List.mem_cons, List.not_mem_nil, or_false] at hcb
    rw [decide_eq_false_iff_not, not_le]
    rcases hcb with rfl | rfl
    · exact toNat_hexDigit_lt (by omega)
    · exact toNat_hexDigit_lt (by omega)
  simp only [fromHex, hex, String.toList_ofList, hascii, readPairs_pairs]

theorem hex_injective : Function.Injective hex := by
  intro bs bs' h
  have hread : fromHex (hex bs) = fromHex (hex bs') := by rw [h]
  rw [fromHex_hex, fromHex_hex] at hread
  exact Except.ok.inj hread

/-- Two digits for each byte. -/
theorem length_hex (bs : Bytes) : (hex bs).length = 2 * bs.length := by
  have hpairs : (bs.flatMap pair).length = 2 * bs.length := by
    induction bs with
    | nil => rfl
    | cons b bs ih =>
        rw [List.flatMap_cons, List.length_append, ih, List.length_cons, pair]
        simp only [List.length_cons, List.length_nil]
        omega
  rw [hex, String.length_ofList, hpairs]

end Hex
