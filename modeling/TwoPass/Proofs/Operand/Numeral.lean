import TwoPass.Proofs.Statement.Failure
import TwoPass.Proofs.Text.Field

/-!
The grammar of numbers. Digits spell a number by position, and a numeral is made of digits in one of three forms:
decimal with an optional sign, hexadecimal behind `0x`, or hexadecimal before an `h` with a decimal digit in front.
A token of limited length is read as a number exactly if it is a numeral, and as the number that it spells.
-/

namespace TwoPass.Number

open Text (decimalValue? hexValue? ofDigits)

variable {first? other? value? : Char → Option Nat} {base n : Nat} {cs : List Char}

/-! ## Digits -/

/-- Digits and the number they spell, where `first?` knows the leading digit and `other?` those behind it. -/
inductive Digits (first? other? : Char → Option Nat) (base : Nat) : List Char → Nat → Prop
  | leading {c : Char} {v : Nat} (h : first? c = some v) : Digits first? other? base [c] v
  | snoc {cs : List Char} {n : Nat} {c : Char} {v : Nat} (h : Digits first? other? base cs n)
      (hc : other? c = some v) : Digits first? other? base (cs ++ [c]) (base * n + v)

theorem values?_cons {c : Char} {rest : List Char} {vs : List Nat} :
    values? value? (c :: rest) = some vs ↔
      ∃ v us, value? c = some v ∧ values? value? rest = some us ∧ vs = v :: us := by
  rw [values?]
  cases value? c <;> cases values? value? rest <;> simp [eq_comm]

theorem Digits.append {rest : List Char} {vs : List Nat} (h : Digits first? other? base cs n)
    (hv : values? other? rest = some vs) :
    Digits first? other? base (cs ++ rest) (vs.foldl (fun n d => base * n + d) n) := by
  induction rest generalizing cs n vs with
  | nil =>
      cases hv
      rwa [List.append_nil]
  | cons c rest ih =>
      obtain ⟨v, us, hc, hus, rfl⟩ := values?_cons.mp hv
      rw [List.append_cons, List.foldl_cons]
      exact ih (h.snoc hc) hus

theorem Digits.exists_last (h : Digits value? value? base cs n) :
    ∃ front c v, cs = front ++ [c] ∧ value? c = some v := by
  cases h with
  | leading hc => exact ⟨[], _, _, rfl, hc⟩
  | snoc _ hc => exact ⟨_, _, _, rfl, hc⟩

theorem Digits.not_mem {c : Char} (h : Digits first? other? base cs n) (hfirst : first? c = none)
    (hother : other? c = none) : c ∉ cs := by
  induction h with
  | leading hc =>
      rw [List.mem_singleton]
      rintro rfl
      cases hfirst.symm.trans hc
  | snoc _ hc ih =>
      rw [List.mem_append, List.mem_singleton, not_or]
      refine ⟨ih, ?_⟩
      rintro rfl
      cases hother.symm.trans hc

/-- The values of digits from left to right, and their sum by position. -/
theorem digits_iff :
    Digits first? other? base cs n ↔ ∃ c rest v vs, cs = c :: rest ∧ first? c = some v ∧
      values? other? rest = some vs ∧ n = ofDigits base (v :: vs) := by
  constructor
  · intro h
    induction h with
    | leading h => exact ⟨_, [], _, [], rfl, h, rfl, by simp [ofDigits]⟩
    | snoc _ hc ih =>
        obtain ⟨c, rest, v, vs, rfl, hv, hvs, rfl⟩ := ih
        refine ⟨c, rest ++ _, v, vs ++ _, rfl, hv, Text.values?_snoc hvs hc, ?_⟩
        rw [← List.cons_append, Text.ofDigits_snoc]
  · rintro ⟨c, rest, v, vs, rfl, hv, hvs, rfl⟩
    have hone : Digits first? other? base [c] v := .leading hv
    simpa [ofDigits] using hone.append hvs

theorem digits_iff_someValues? :
    Digits value? value? base cs n ↔ (someValues? value? cs).map (ofDigits base) = some n := by
  rw [digits_iff, Option.map_eq_some_iff]
  cases cs with
  | nil => simp [someValues?]
  | cons c rest =>
      simp only [someValues?, List.isEmpty_cons, Bool.false_eq_true, ↓reduceIte, values?_cons]
      constructor
      · rintro ⟨_, _, v, vs, hcs, hv, hvs, rfl⟩
        cases hcs
        exact ⟨v :: vs, ⟨v, vs, hv, hvs, rfl⟩, rfl⟩
      · rintro ⟨_, ⟨v, vs, hv, hvs, rfl⟩, rfl⟩
        exact ⟨c, rest, v, vs, rfl, hv, hvs, rfl⟩

/-! ## Numerals -/

inductive Numeral : List Char → Int → Prop
  | decimal {cs : List Char} {n : Nat} (h : Digits decimalValue? decimalValue? 10 cs n) : Numeral cs n
  | positive {cs : List Char} {n : Nat} (h : Digits decimalValue? decimalValue? 10 cs n) : Numeral ('+' :: cs) n
  | negative {cs : List Char} {n : Nat} (h : Digits decimalValue? decimalValue? 10 cs n) : Numeral ('-' :: cs) (-n)
  | prefixed {mark : Char} {cs : List Char} {n : Nat} (hm : mark = 'x' ∨ mark = 'X')
      (h : Digits hexValue? hexValue? 16 cs n) : Numeral ('0' :: mark :: cs) n
  | suffixed {mark : Char} {cs : List Char} {n : Nat} (hm : mark = 'h' ∨ mark = 'H')
      (h : Digits decimalValue? hexValue? 16 cs n) : Numeral (cs ++ [mark]) n

theorem dropFinalBreak_eq_self (h : cs.getLast? ≠ some '\n') : dropFinalBreak cs = cs := by
  rw [dropFinalBreak, if_neg h]

theorem parseAddress_eq_some_iff (h : cs.getLast? ≠ some '\n') :
    parseAddress cs = some n ↔ Digits hexValue? hexValue? 16 cs n := by
  rw [parseAddress, dropFinalBreak_eq_self h, digits_iff_someValues?]

theorem afterMark?_eq_some_iff :
    afterMark? cs = some n ↔ ∃ mark rest, cs = '0' :: mark :: rest ∧ (mark = 'x' ∨ mark = 'X') ∧
      Digits hexValue? hexValue? 16 rest n := by
  constructor
  · intro h
    unfold afterMark? at h
    split at h
    · rename_i mark rest
      split at h
      · rename_i hmark
        exact ⟨mark, rest, rfl, by simpa using hmark, digits_iff_someValues?.mpr h⟩
      · cases h
    · cases h
  · rintro ⟨mark, rest, rfl, hmark, h⟩
    rw [afterMark?, if_pos (by simpa using hmark)]
    exact digits_iff_someValues?.mp h

theorem beforeMark?_eq_some_iff :
    beforeMark? cs = some n ↔ ∃ mark digits, cs = digits ++ [mark] ∧ (mark = 'h' ∨ mark = 'H') ∧
      Digits decimalValue? hexValue? 16 digits n := by
  constructor
  · intro h
    unfold beforeMark? at h
    split at h
    · rename_i mark first rest hlast hfront
      obtain ⟨digits, rfl⟩ := List.getLast?_eq_some_iff.mp hlast
      rw [List.dropLast_concat] at hfront
      subst hfront
      split at h
      · rename_i hmark
        split at h
        · rename_i v vs hv hvs
          cases h
          exact ⟨mark, first :: rest, rfl, by simpa using hmark, digits_iff.mpr ⟨_, _, v, vs, rfl, hv, hvs, rfl⟩⟩
        · cases h
      · cases h
    · cases h
  · rintro ⟨mark, digits, rfl, hmark, h⟩
    obtain ⟨c, rest, v, vs, rfl, hv, hvs, rfl⟩ := digits_iff.mp h
    rw [beforeMark?, List.getLast?_concat, List.dropLast_concat]
    simp [hmark, hv, hvs]

/-! ## Numbers -/

theorem decimalValue?_sign : decimalValue? '+' = none ∧ decimalValue? '-' = none := by
  decide

theorem splitSign_of_decimal {c : Char} {v : Nat} (h : decimalValue? c = some v) (rest : List Char) :
    splitSign (c :: rest) = (false, c :: rest) := by
  unfold splitSign
  split
  · rename_i heq
    cases heq
    simp [decimalValue?_sign] at h
  · rename_i heq
    cases heq
    simp [decimalValue?_sign] at h
  · rfl

theorem splitSign_cases (cs : List Char) :
    splitSign cs = (false, cs) ∨ ∃ rest, cs = '+' :: rest ∧ splitSign cs = (false, rest) ∨
      cs = '-' :: rest ∧ splitSign cs = (true, rest) := by
  unfold splitSign
  split
  · exact .inr ⟨_, .inl ⟨rfl, rfl⟩⟩
  · exact .inr ⟨_, .inr ⟨rfl, rfl⟩⟩
  · exact .inl rfl

theorem ofDecimal_eq_ok_iff {negative : Bool} {digits : List Nat} {value : Int} :
    ofDecimal negative digits = .ok value ↔ digits.length ≤ maxDigits ∧
      value = if negative then -(ofDigits 10 digits : Int) else ofDigits 10 digits := by
  unfold ofDecimal
  split
  · rename_i h
    simp only [reduceCtorEq, false_iff, not_and]
    omega
  · rename_i h
    simp only [Except.ok.injEq, Nat.not_lt.mp h, true_and]
    exact eq_comm

theorem numeral_of_parse {value : Int} (hb : cs.getLast? ≠ some '\n') (h : parse cs = .ok (some value)) :
    Numeral cs value := by
  simp only [parse, dropFinalBreak_eq_self hb] at h
  split at h
  · rename_i digits hd
    have hvalue : ofDecimal (splitSign cs).1 digits = .ok value := by
      cases hof : ofDecimal (splitSign cs).1 digits with
      | error fault => simp [hof, Except.map] at h
      | ok v => simpa [hof, Except.map] using h
    obtain ⟨-, hvalue⟩ := ofDecimal_eq_ok_iff.mp hvalue
    have hdigits : Digits decimalValue? decimalValue? 10 (splitSign cs).2 (ofDigits 10 digits) :=
      digits_iff_someValues?.mpr (by rw [hd, Option.map_some])
    rcases splitSign_cases cs with hs | ⟨rest, ⟨rfl, hs⟩ | ⟨rfl, hs⟩⟩
    all_goals
      rw [hs] at hvalue hdigits
      rw [hvalue]
    · exact .decimal hdigits
    · exact .positive hdigits
    · exact .negative hdigits
  · simp only [Except.ok.injEq, Option.map_eq_some_iff, Option.or_eq_some_iff] at h
    obtain ⟨n, hn | ⟨-, hn⟩, rfl⟩ := h
    · obtain ⟨mark, rest, rfl, hmark, hdigits⟩ := afterMark?_eq_some_iff.mp hn
      exact .prefixed hmark hdigits
    · obtain ⟨mark, digits, rfl, hmark, hdigits⟩ := beforeMark?_eq_some_iff.mp hn
      exact .suffixed hmark hdigits

/-- Decimal digits behind the sign, if there are not too many of them. -/
theorem parse_of_decimal {negative : Bool} {body : List Char} (hb : cs.getLast? ≠ some '\n')
    (hs : splitSign cs = (negative, body)) (hl : body.length ≤ maxDigits)
    (h : Digits decimalValue? decimalValue? 10 body n) :
    parse cs = .ok (some (if negative then -(n : Int) else n)) := by
  obtain ⟨digits, hd, rfl⟩ := Option.map_eq_some_iff.mp (digits_iff_someValues?.mp h)
  have hlength : digits.length ≤ maxDigits := by rwa [length_of_someValues? hd]
  simp only [parse, dropFinalBreak_eq_self hb, hs, hd, ofDecimal_eq_ok_iff.mpr ⟨hlength, rfl⟩]
  rfl

theorem someValues?_of_marked {mark : Char} (hm : mark ∈ cs) (hv : value? mark = none) :
    someValues? value? cs = none := by
  have hne : cs.isEmpty = false := List.isEmpty_eq_false_iff.mpr (List.ne_nil_of_mem hm)
  simp [someValues?, hne, values?_eq_none_iff.mpr ⟨mark, hm, hv⟩]

theorem decimalValue?_mark {mark : Char} (hm : mark ∈ ['x', 'X', 'h', 'H']) : decimalValue? mark = none := by
  simp only [List.mem_cons, List.not_mem_nil, or_false] at hm
  rcases hm with rfl | rfl | rfl | rfl <;> decide

/-- A character that is no decimal digit rules the decimal form out. -/
theorem parse_of_marked {mark : Char} (hb : cs.getLast? ≠ some '\n') (hs : splitSign cs = (false, cs))
    (hm : mark ∈ cs) (hv : decimalValue? mark = none) :
    parse cs = .ok (((afterMark? cs).or (beforeMark? cs)).map Int.ofNat) := by
  simp only [parse, dropFinalBreak_eq_self hb, hs, someValues?_of_marked hm hv]

/-- The form with `0x` ends with a digit, and the other mark is none. -/
theorem afterMark?_concat {mark : Char} (hm : mark = 'h' ∨ mark = 'H') (digits : List Char) :
    afterMark? (digits ++ [mark]) = none := by
  rw [Option.eq_none_iff_forall_ne_some]
  intro m hsome
  obtain ⟨x, rest, heq, -, hdigits⟩ := afterMark?_eq_some_iff.mp hsome
  obtain ⟨front, c, u, rfl, hc⟩ := hdigits.exists_last
  rw [← List.cons_append, ← List.cons_append] at heq
  obtain ⟨-, hmark⟩ := List.append_inj' heq rfl
  cases hmark
  rcases hm with rfl | rfl <;> cases hc

theorem parse_of_numeral {value : Int} (hb : cs.getLast? ≠ some '\n') (hl : cs.length ≤ maxDigits)
    (h : Numeral cs value) : parse cs = .ok (some value) := by
  cases h with
  | decimal h =>
      obtain ⟨c, rest, v, -, rfl, hv, -⟩ := digits_iff.mp h
      exact parse_of_decimal hb (splitSign_of_decimal hv rest) hl h
  | positive h => exact parse_of_decimal hb rfl (Nat.le_of_succ_le hl) h
  | negative h => exact parse_of_decimal hb rfl (Nat.le_of_succ_le hl) h
  | @prefixed mark cs n hm h =>
      have hv : decimalValue? mark = none := decimalValue?_mark (by rcases hm with rfl | rfl <;> simp)
      have hafter : afterMark? ('0' :: mark :: cs) = some n := afterMark?_eq_some_iff.mpr ⟨mark, cs, rfl, hm, h⟩
      rw [parse_of_marked hb rfl (by simp) hv, hafter]
      rfl
  | @suffixed mark cs n hm h =>
      have hv : decimalValue? mark = none := decimalValue?_mark (by rcases hm with rfl | rfl <;> simp)
      have hbefore : beforeMark? (cs ++ [mark]) = some n := beforeMark?_eq_some_iff.mpr ⟨mark, cs, rfl, hm, h⟩
      obtain ⟨c, rest, v, -, rfl, hc, -⟩ := digits_iff.mp h
      rw [parse_of_marked hb (splitSign_of_decimal hc _) (by simp) hv, afterMark?_concat hm, hbefore]
      rfl

end TwoPass.Number
