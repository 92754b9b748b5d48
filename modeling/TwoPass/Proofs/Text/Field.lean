import TwoPass.Operand.Number
import TwoPass.Proofs.Text.Hexadecimal
import TwoPass.Source.Line

/-!
Fields of fixed width on lines. A numeral takes up exactly its field if the number is below the power that the
field can hold; it reads back as the number in any case. Text without line breaks, written line by line, is split
into the same lines again.
-/

namespace TwoPass.Text

/-! ## Numerals -/

theorem le_length_hexNat (w n : Nat) : w ≤ (hexNat w n).length := by
  simp only [hexNat, padLeft, List.length_append, List.length_replicate]
  omega

theorem length_hexNat_one {n : Nat} (h : 16 ≤ n) : 1 < (hexNat 1 n).length := by
  have hpos : 0 < (Nat.toDigits 16 (n / 16)).length := Nat.length_toDigits_pos
  simp only [hexNat, hexDigits, Nat.toDigits_of_base_le (b := 16) (by decide) h, padLeft, List.length_append,
    List.length_map, List.length_singleton]
  omega

/-- The width is a minimum, and it is kept by the numbers that need no more. -/
theorem length_hexNat_eq_iff : {w : Nat} → 0 < w → (n : Nat) → ((hexNat w n).length = w ↔ n < Nat.pow 16 w)
  | 1, _, n => by
      refine ⟨fun h => ?_, fun h => (isHex_hexNat Nat.one_pos h).length⟩
      refine Nat.lt_of_not_le fun hn => ?_
      have hlong := length_hexNat_one hn
      omega
  | w + 2, _, n => by
      have hpow : Nat.pow 16 (w + 2) = Nat.pow 16 (w + 1) * 16 := rfl
      have ih := length_hexNat_eq_iff (Nat.succ_pos w) (n / 16)
      rw [hexNat_succ (Nat.succ_pos w), List.length_append, List.length_singleton, Nat.add_right_cancel_iff, ih,
        hpow, Nat.div_lt_iff_lt_mul (by decide)]

/-- The number that a field of hexadecimal digits stands for. -/
def fieldValue? (cs : List Char) : Option Nat :=
  (Number.someValues? hexValue? cs).map (ofDigits 16)

theorem ofDigits_snoc (base : Nat) (values : List Nat) (d : Nat) :
    ofDigits base (values ++ [d]) = base * ofDigits base values + d := by
  simp only [ofDigits, List.foldl_append, List.foldl_cons, List.foldl_nil]

theorem values?_snoc {value? : Char → Option Nat} {cs : List Char} {values : List Nat} {c : Char} {v : Nat}
    (h : Number.values? value? cs = some values) (hc : value? c = some v) :
    Number.values? value? (cs ++ [c]) = some (values ++ [v]) := by
  induction cs generalizing values with
  | nil => cases h; simp [Number.values?, hc]
  | cons d rest ih =>
      rw [Number.values?] at h
      split at h
      · rename_i u us hu hus
        cases h
        rw [List.cons_append, Number.values?, hu, ih hus]
        rfl
      · cases h

/-- The digits of a number in any base have the values that make up the number again. -/
theorem exists_values_toDigits {value? : Char → Option Nat} {base : Nat} (hb : 1 < base)
    (hv : ∀ d < base, value? d.digitChar = some d) (n : Nat) :
    ∃ values, Number.values? value? (Nat.toDigits base n) = some values ∧ ofDigits base values = n := by
  induction n using Nat.strongRecOn with
  | ind n ih =>
      by_cases hn : n < base
      · refine ⟨[n], ?_, by simp [ofDigits]⟩
        rw [Nat.toDigits_of_lt_base hn, Number.values?, hv n hn]
        rfl
      · have hle : base ≤ n := Nat.le_of_not_lt hn
        obtain ⟨values, hvalues, hq⟩ := ih (n / base) (Nat.div_lt_self (by omega) hb)
        refine ⟨values ++ [n % base], ?_, ?_⟩
        · rw [Nat.toDigits_of_base_le hb hle]
          exact values?_snoc hvalues (hv _ (Nat.mod_lt n (by omega)))
        · rw [ofDigits_snoc, hq, Nat.div_add_mod]

theorem forall_mem_toDigits {P : Char → Prop} {base : Nat} (hb : 1 < base) (hp : ∀ d < base, P d.digitChar)
    (n : Nat) : ∀ c ∈ Nat.toDigits base n, P c := by
  induction n using Nat.strongRecOn with
  | ind n ih =>
      intro c hc
      by_cases hn : n < base
      · rw [Nat.toDigits_of_lt_base hn, List.mem_singleton] at hc
        exact hc ▸ hp n hn
      · have hle : base ≤ n := Nat.le_of_not_lt hn
        rw [Nat.toDigits_of_base_le hb hle, List.mem_append, List.mem_singleton] at hc
        rcases hc with hc | rfl
        · exact ih (n / base) (Nat.div_lt_self (by omega) hb) c hc
        · exact hp _ (Nat.mod_lt n (by omega))

theorem isNameChar_hexNat (w n : Nat) : ∀ c ∈ hexNat w n, SourceLine.isNameChar c = true := by
  intro c hc
  rw [hexNat, padLeft, hexDigits, List.mem_append, List.mem_map] at hc
  rcases hc with hc | ⟨d, hd, rfl⟩
  · rw [List.eq_of_mem_replicate hc]
    decide
  · exact forall_mem_toDigits (P := fun d => SourceLine.isNameChar d.toUpper = true) (by decide) (by decide) n d hd

theorem values?_map {value? : Char → Option Nat} (f : Char → Char) (cs : List Char) :
    Number.values? value? (cs.map f) = Number.values? (fun c => value? (f c)) cs := by
  induction cs with
  | nil => rfl
  | cons c rest ih => rw [List.map_cons, Number.values?, Number.values?, ih]

theorem exists_values_hexNat (w n : Nat) :
    ∃ values, Number.values? hexValue? (hexNat w n) = some values ∧ ofDigits 16 values = n := by
  rw [hexNat, padLeft]
  induction w - (hexDigits n).length with
  | zero =>
      rw [List.replicate_zero, List.nil_append, hexDigits, values?_map]
      exact exists_values_toDigits (by decide) (fun d hd => hexValue?_upperDigit hd) n
  | succ k ih =>
      obtain ⟨values, hv, hn⟩ := ih
      refine ⟨0 :: values, ?_, by simpa [ofDigits] using hn⟩
      rw [List.replicate_succ, List.cons_append, Number.values?, hv, show hexValue? '0' = some 0 from rfl]

theorem fieldValue?_hexNat (w n : Nat) : fieldValue? (hexNat w n) = some n := by
  obtain ⟨values, hv, hn⟩ := exists_values_hexNat w n
  have hne : (hexNat w n).isEmpty = false := by
    rw [List.isEmpty_eq_false_iff, hexNat, padLeft, hexDigits]
    have hpos : 0 < (Nat.toDigits 16 n).length := Nat.length_toDigits_pos
    exact List.append_ne_nil_of_right_ne_nil _ (List.ne_nil_of_length_pos (by simpa using hpos))
  simp [fieldValue?, Number.someValues?, hne, hv, hn]

theorem hexChars_of_nonneg {n : Int} (h : 0 ≤ n) (w : Nat) : hexChars w n = hexNat w n.toNat := by
  cases n with
  | ofNat n => rfl
  | negSucc n => exact absurd h (by omega)

theorem isHex_hexChars {w : Nat} {n : Int} (hw : 0 < w) (hn : 0 ≤ n) (hlt : n < Nat.pow 16 w) :
    IsHex w (hexChars w n) := by
  rw [hexChars_of_nonneg hn]
  exact isHex_hexNat hw (by omega)

/-! ## Columns -/

/-- A field is found in the columns that it was written to. -/
theorem columns_append {first stop : Nat} {before field after : List Char} (hb : before.length = first)
    (hf : first + field.length = stop) : columns first stop (before ++ field ++ after) = field := by
  subst hb hf
  rw [columns, List.append_assoc, List.drop_left, Nat.add_sub_cancel_left, List.take_left]

/-! ## Lines -/

theorem splitLines_append {line : List Char} (h : ∀ c ∈ line, isLineBreak c = false) (rest : List Char) :
    splitLines (line ++ '\n' :: rest) = line :: splitLines rest := by
  induction line with
  | nil =>
      rw [List.nil_append, splitLines]
      · rfl
      · simp
  | cons c line ih =>
      have hc : isLineBreak c = false := h c (by simp)
      have hne : c ≠ '\r' := by
        rintro rfl
        cases hc
      rw [List.cons_append, splitLines, hc, ih fun d hd => h d (by simp [hd])]
      · rfl
      · exact fun _ h _ => hne h

theorem splitLines_flatMap {lines : List (List Char)} (h : ∀ line ∈ lines, ∀ c ∈ line, isLineBreak c = false) :
    splitLines (lines.flatMap (· ++ ['\n'])) = lines := by
  induction lines with
  | nil => rfl
  | cons line lines ih =>
      rw [List.flatMap_cons, List.append_assoc, List.singleton_append, splitLines_append (h line (by simp)),
        ih fun l hl => h l (by simp [hl])]

theorem isLineBreak_of_range {c : Char} (hlow : 0x20 ≤ c.toNat) (hhigh : c.toNat < 0x80) :
    isLineBreak c = false := by
  simp only [isLineBreak, Bool.or_eq_false_iff, Bool.and_eq_false_iff, decide_eq_false_iff_not,
    beq_eq_false_iff_ne]
  omega

theorem isLineBreak_of_isUpperHex {c : Char} (h : isUpperHex c = true) : isLineBreak c = false := by
  simp only [isUpperHex, Bool.or_eq_true, Bool.and_eq_true, decide_eq_true_eq, Char.le_def,
    UInt32.le_iff_toNat_le] at h
  rcases h with h | h
  · change 0x30 ≤ c.toNat ∧ c.toNat ≤ 0x39 at h
    exact isLineBreak_of_range (by omega) (by omega)
  · change 0x41 ≤ c.toNat ∧ c.toNat ≤ 0x46 at h
    exact isLineBreak_of_range (by omega) (by omega)

end TwoPass.Text
