import TwoPass.Text.Numeral

/-!
Hexadecimal numerals of fixed width. A number that fits is written digit by digit, so the numeral has
exactly the width asked for, holds upper-case digits only, and each digit reads back as its value.
-/

namespace TwoPass.Text

/-- The digits that object code is written in. -/
def isUpperHex (c : Char) : Bool :=
  ('0' ≤ c && c ≤ '9') || ('A' ≤ c && c ≤ 'F')

/-- The digit for a value below sixteen. -/
def upperDigit (n : Nat) : Char :=
  n.digitChar.toUpper

theorem isUpperHex_upperDigit : ∀ {n : Nat}, n < 16 → isUpperHex (upperDigit n) = true := by
  decide

theorem hexValue?_upperDigit : ∀ {n : Nat}, n < 16 → hexValue? (upperDigit n) = some n := by
  decide

/-! ## Digit by digit -/

theorem hexNat_one {n : Nat} (h : n < 16) : hexNat 1 n = [upperDigit n] := by
  simp only [hexNat, hexDigits, Nat.toDigits_of_lt_base h, List.map_cons, List.map_nil, padLeft,
    List.length_singleton, Nat.sub_self, List.replicate_zero, List.nil_append, upperDigit]

/-- The last digit of a numeral is the remainder, and the digits before it are those of the quotient. -/
theorem hexNat_succ {w : Nat} (hw : 0 < w) (n : Nat) :
    hexNat (w + 1) n = hexNat w (n / 16) ++ [upperDigit (n % 16)] := by
  by_cases h : n < 16
  · have hz : n / 16 = 0 := by omega
    have hr : List.replicate w '0' = List.replicate (w - 1) '0' ++ ['0'] := by
      rw [← List.replicate_succ', show w - 1 + 1 = w by omega]
    simp only [hexNat, hexDigits, hz, Nat.toDigits_zero, Nat.toDigits_of_lt_base h, Nat.mod_eq_of_lt h,
      List.map_cons, List.map_nil, padLeft, List.length_singleton, Nat.add_sub_cancel, upperDigit, hr]
    rfl
  · simp only [hexNat, hexDigits, Nat.toDigits_of_base_le (b := 16) (by decide) (Nat.le_of_not_lt h),
      List.map_append, List.map_cons, List.map_nil, padLeft, List.length_append, List.length_map,
      List.length_singleton, Nat.add_sub_add_right, List.append_assoc, upperDigit]

/-- Text of exactly `width` upper-case hexadecimal digits. -/
structure IsHex (width : Nat) (cs : List Char) : Prop where
  length : cs.length = width
  digits : ∀ c ∈ cs, isUpperHex c = true

theorem IsHex.append {v w : Nat} {xs ys : List Char} (hx : IsHex v xs) (hy : IsHex w ys) :
    IsHex (v + w) (xs ++ ys) := by
  refine ⟨by rw [List.length_append, hx.length, hy.length], ?_⟩
  intro c hc
  rcases List.mem_append.mp hc with hc | hc
  · exact hx.digits c hc
  · exact hy.digits c hc

theorem isHex_upperDigit {n : Nat} (h : n < 16) : IsHex 1 [upperDigit n] := by
  refine ⟨rfl, ?_⟩
  intro c hc
  rw [List.mem_singleton] at hc
  subst hc
  exact isUpperHex_upperDigit h

/-- A number that fits takes neither more nor less than its width. -/
theorem isHex_hexNat : {w n : Nat} → 0 < w → n < Nat.pow 16 w → IsHex w (hexNat w n)
  | 1, n, _, h => by
      have hn : n < 16 := by simpa using h
      rw [hexNat_one hn]
      exact isHex_upperDigit hn
  | w + 2, n, _, h => by
      have hmul : n < Nat.pow 16 (w + 1) * 16 := h
      have hq : n / 16 < Nat.pow 16 (w + 1) := by omega
      rw [hexNat_succ (Nat.succ_pos w)]
      exact (isHex_hexNat (Nat.succ_pos w) hq).append (isHex_upperDigit (Nat.mod_lt _ (by decide)))

/-! ## The widths of an instruction's fields -/

theorem hexNat_two {n : Nat} (h : n < 256) :
    hexNat 2 n = [upperDigit (n / 16), upperDigit (n % 16)] := by
  rw [hexNat_succ (by decide), hexNat_one (by omega)]
  rfl

theorem hexNat_three {n : Nat} (h : n < 4096) :
    hexNat 3 n = [upperDigit (n / 256), upperDigit (n / 16 % 16), upperDigit (n % 16)] := by
  rw [hexNat_succ (by decide), hexNat_two (by omega), Nat.div_div_eq_div_mul]
  rfl

theorem hexNat_five {n : Nat} (h : n < 1048576) :
    hexNat 5 n = [upperDigit (n / 65536), upperDigit (n / 4096 % 16), upperDigit (n / 256 % 16),
      upperDigit (n / 16 % 16), upperDigit (n % 16)] := by
  rw [hexNat_succ (by decide), hexNat_succ (by decide), hexNat_three (by omega)]
  simp only [Nat.div_div_eq_div_mul]
  rfl

end TwoPass.Text
