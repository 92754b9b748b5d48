import Mathlib.Data.List.Forall2
import TwoPass.Proofs.Operand.LetterCase
import TwoPass.Proofs.Operand.Numeral

/-!
Numbers in ASCII. The digits and the value by position are said here on their own, without the reader. A token of
ASCII has at most one of the three forms, and what the reader makes of it follows from the form alone. Numbers that
are written in a form are read back.
-/

namespace TwoPass.Number

open Text (decimalValue? hexValue? ofDigits)

/-! ## Forms -/

/-- The digits in the order of their values. -/
def alphabet : List Char :=
  "0123456789ABCDEF".toList

/-- The value of a digit is its place among the digits of the base. Letters count in both cases. -/
def digit? (base : Nat) (c : Char) : Option Nat :=
  (alphabet.take base).idxOf? c.toUpper

/-- The sum of digits by position, the first being the most significant. -/
def positional (base : Nat) : List Nat → Nat
  | [] => 0
  | v :: rest => v * Nat.pow base rest.length + positional base rest

/-- Digits of a base and the number that they spell, where the leading digit is one of the base `first`. -/
inductive Spells (first base : Nat) : List Char → Nat → Prop
  | digits {c : Char} {rest : List Char} {v : Nat} {vs : List Nat} (leading : digit? first c = some v)
      (others : List.Forall₂ (fun d u => digit? base d = some u) rest vs) :
      Spells first base (c :: rest) (positional base (v :: vs))

inductive Form
  | decimal (digits : Nat)
  | prefixed
  | suffixed
  deriving DecidableEq

/-- Decimal numerals are limited in length, hexadecimal ones are not. -/
def Form.isReadable : Form → Bool
  | .decimal digits => digits ≤ maxDigits
  | .prefixed | .suffixed => true

/-- A token in one of the three forms, and the number that it stands for. -/
inductive Written : Form → List Char → Int → Prop
  | decimal {cs : List Char} {n : Nat} (h : Spells 10 10 cs n) : Written (.decimal cs.length) cs n
  | positive {cs : List Char} {n : Nat} (h : Spells 10 10 cs n) : Written (.decimal cs.length) ('+' :: cs) n
  | negative {cs : List Char} {n : Nat} (h : Spells 10 10 cs n) : Written (.decimal cs.length) ('-' :: cs) (-n)
  | prefixed {mark : Char} {cs : List Char} {n : Nat} (hm : mark = 'x' ∨ mark = 'X') (h : Spells 16 16 cs n) :
      Written .prefixed ('0' :: mark :: cs) n
  | suffixed {mark : Char} {cs : List Char} {n : Nat} (hm : mark = 'h' ∨ mark = 'H') (h : Spells 10 16 cs n) :
      Written .suffixed (cs ++ [mark]) n

variable {first? other? value? : Char → Option Nat} {first base n : Nat} {cs : List Char}

/-! ## Digits by position -/

theorem foldl_positional (values : List Nat) (n : Nat) :
    values.foldl (fun n d => base * n + d) n = n * Nat.pow base values.length + positional base values := by
  induction values generalizing n with
  | nil => exact (Nat.mul_one n).symm
  | cons v rest ih =>
      have hpow : Nat.pow base (rest.length + 1) = base * Nat.pow base rest.length := Nat.pow_succ'
      rw [List.foldl_cons, ih, List.length_cons, hpow, positional, Nat.add_mul, Nat.add_assoc, Nat.mul_comm base n,
        Nat.mul_assoc]

theorem ofDigits_eq_positional (values : List Nat) : ofDigits base values = positional base values := by
  rw [ofDigits, foldl_positional, Nat.zero_mul, Nat.zero_add]

theorem values?_eq_some_iff {values : List Nat} :
    values? value? cs = some values ↔ List.Forall₂ (fun c v => value? c = some v) cs values := by
  induction cs generalizing values with
  | nil => simp [values?, eq_comm]
  | cons c rest ih =>
      rw [values?_cons]
      constructor
      · rintro ⟨v, us, hc, hus, rfl⟩
        exact .cons hc (ih.mp hus)
      · rintro (_ | ⟨hc, hrest⟩)
        exact ⟨_, _, hc, ih.mpr hrest, rfl⟩

theorem values?_congr {f g : Char → Option Nat} (h : ∀ c ∈ cs, f c = g c) : values? f cs = values? g cs := by
  induction cs with
  | nil => rfl
  | cons c rest ih => rw [values?, values?, h c (by simp), ih fun d hd => h d (by simp [hd])]

/-- Both accounts of digits agree where they agree on each digit. -/
theorem digits_iff_spells (hfirst : ∀ c ∈ cs, first? c = digit? first c)
    (hother : ∀ c ∈ cs, other? c = digit? base c) : Digits first? other? base cs n ↔ Spells first base cs n := by
  rw [digits_iff]
  constructor
  · rintro ⟨c, rest, v, vs, rfl, hv, hvs, rfl⟩
    rw [values?_congr fun d hd => hother d (by simp [hd])] at hvs
    rw [ofDigits_eq_positional]
    exact .digits (hfirst c (by simp) ▸ hv) (values?_eq_some_iff.mp hvs)
  · rintro ⟨hc, hrest⟩
    refine ⟨_, _, _, _, rfl, (hfirst _ (by simp)).trans hc, ?_, (ofDigits_eq_positional _).symm⟩
    rw [values?_congr fun d hd => hother d (by simp [hd])]
    exact values?_eq_some_iff.mpr hrest

theorem decimalValue?_ascii {c : Char} (h : c.toNat < 128) : decimalValue? c = digit? 10 c :=
  Text.forall_ascii (P := fun c => decimalValue? c = digit? 10 c) (by decide +kernel) h

theorem hexValue?_ascii {c : Char} (h : c.toNat < 128) : hexValue? c = digit? 16 c :=
  Text.forall_ascii (P := fun c => hexValue? c = digit? 16 c) (by decide +kernel) h

theorem decimal_iff (h : ∀ c ∈ cs, c.toNat < 128) : Digits decimalValue? decimalValue? 10 cs n ↔ Spells 10 10 cs n :=
  digits_iff_spells (fun c hc => decimalValue?_ascii (h c hc)) fun c hc => decimalValue?_ascii (h c hc)

theorem prefixed_iff (h : ∀ c ∈ cs, c.toNat < 128) : Digits hexValue? hexValue? 16 cs n ↔ Spells 16 16 cs n :=
  digits_iff_spells (fun c hc => hexValue?_ascii (h c hc)) fun c hc => hexValue?_ascii (h c hc)

theorem suffixed_iff (h : ∀ c ∈ cs, c.toNat < 128) : Digits decimalValue? hexValue? 16 cs n ↔ Spells 10 16 cs n :=
  digits_iff_spells (fun c hc => decimalValue?_ascii (h c hc)) fun c hc => hexValue?_ascii (h c hc)

/-! ## The form of a token -/

/-- The form in which the reader finds a token, and the number it stands for. The length is not looked at. -/
def form? (cs : List Char) : Option (Form × Int) :=
  match someValues? decimalValue? (splitSign cs).2 with
  | some values =>
    let n : Int := ofDigits 10 values
    some (.decimal values.length, if (splitSign cs).1 then -n else n)
  | none =>
    match afterMark? cs with
    | some n => some (.prefixed, n)
    | none => (beforeMark? cs).map fun n : Nat => (.suffixed, (n : Int))

/-- What a token is read as, by its form. -/
def Form.outcome : Form × Int → Except Fault (Option Int)
  | (.decimal digits, value) => if maxDigits < digits then .error (.tooManyDigits digits) else .ok (some value)
  | (_, value) => .ok (some value)

theorem parse_eq_outcome (hb : cs.getLast? ≠ some '\n') :
    parse cs = match form? cs with
      | some found => Form.outcome found
      | none => .ok none := by
  simp only [parse, dropFinalBreak_eq_self hb, form?]
  cases someValues? decimalValue? (splitSign cs).2 with
  | some values =>
      simp only [Form.outcome, ofDecimal]
      split <;> rfl
  | none =>
      cases afterMark? cs with
      | some n => rfl
      | none => cases beforeMark? cs <;> rfl

theorem form?_of_decimal {negative : Bool} {body : List Char} (hs : splitSign cs = (negative, body))
    (h : Digits decimalValue? decimalValue? 10 body n) :
    form? cs = some (.decimal body.length, if negative then -(n : Int) else n) := by
  obtain ⟨values, hv, rfl⟩ := Option.map_eq_some_iff.mp (digits_iff_someValues?.mp h)
  rw [form?, hs, hv, ← length_of_someValues? hv]

theorem form?_of_prefixed {mark : Char} (hm : mark = 'x' ∨ mark = 'X') (h : Digits hexValue? hexValue? 16 cs n) :
    form? ('0' :: mark :: cs) = some (.prefixed, (n : Int)) := by
  have hvalue : decimalValue? mark = none := decimalValue?_mark (by rcases hm with rfl | rfl <;> simp)
  have hnone : someValues? decimalValue? ('0' :: mark :: cs) = none := someValues?_of_marked (by simp) hvalue
  have hafter : afterMark? ('0' :: mark :: cs) = some n := afterMark?_eq_some_iff.mpr ⟨mark, cs, rfl, hm, h⟩
  have hs : splitSign ('0' :: mark :: cs) = (false, '0' :: mark :: cs) := rfl
  rw [form?, hs, hnone, hafter]

theorem form?_of_suffixed {mark : Char} (hm : mark = 'h' ∨ mark = 'H') (h : Digits decimalValue? hexValue? 16 cs n) :
    form? (cs ++ [mark]) = some (.suffixed, (n : Int)) := by
  have hvalue : decimalValue? mark = none := decimalValue?_mark (by rcases hm with rfl | rfl <;> simp)
  have hnone : someValues? decimalValue? (cs ++ [mark]) = none := someValues?_of_marked (by simp) hvalue
  have hbefore : beforeMark? (cs ++ [mark]) = some n := beforeMark?_eq_some_iff.mpr ⟨mark, cs, rfl, hm, h⟩
  obtain ⟨c, rest, v, -, rfl, hc, -⟩ := digits_iff.mp h
  have hs : splitSign (c :: rest ++ [mark]) = (false, c :: rest ++ [mark]) := splitSign_of_decimal hc _
  rw [form?, hs, hnone, afterMark?_concat hm, hbefore]
  rfl

/-- The reader finds exactly the forms that are written, so no token has two of them. -/
theorem written_iff {form : Form} {value : Int} (hascii : ∀ c ∈ cs, c.toNat < 128) :
    Written form cs value ↔ form? cs = some (form, value) := by
  constructor
  · intro h
    cases h with
    | decimal h =>
        have hd := (decimal_iff hascii).mpr h
        obtain ⟨c, rest, v, -, rfl, hv, -⟩ := digits_iff.mp hd
        exact form?_of_decimal (splitSign_of_decimal hv rest) hd
    | positive h =>
        have hd := (decimal_iff fun c hc => hascii c (List.mem_cons_of_mem _ hc)).mpr h
        exact form?_of_decimal rfl hd
    | negative h =>
        have hd := (decimal_iff fun c hc => hascii c (List.mem_cons_of_mem _ hc)).mpr h
        exact form?_of_decimal rfl hd
    | prefixed hm h => exact form?_of_prefixed hm ((prefixed_iff fun c hc => hascii c (by simp [hc])).mpr h)
    | suffixed hm h => exact form?_of_suffixed hm ((suffixed_iff fun c hc => hascii c (by simp [hc])).mpr h)
  · intro h
    unfold form? at h
    split at h
    · rename_i values hv
      have hd : Digits decimalValue? decimalValue? 10 (splitSign cs).2 (ofDigits 10 values) :=
        digits_iff_someValues?.mpr (by rw [hv, Option.map_some])
      rw [length_of_someValues? hv] at h
      rcases splitSign_cases cs with hs | ⟨rest, ⟨rfl, hs⟩ | ⟨rfl, hs⟩⟩ <;> rw [hs] at h hd <;> cases h
      · exact .decimal ((decimal_iff hascii).mp hd)
      · exact .positive ((decimal_iff fun c hc => hascii c (by simp [hc])).mp hd)
      · exact .negative ((decimal_iff fun c hc => hascii c (by simp [hc])).mp hd)
    · split at h
      · rename_i n hn
        cases h
        obtain ⟨mark, rest, rfl, hm, hd⟩ := afterMark?_eq_some_iff.mp hn
        exact .prefixed hm ((prefixed_iff fun c hc => hascii c (by simp [hc])).mp hd)
      · obtain ⟨n, hn, heq⟩ := Option.map_eq_some_iff.mp h
        cases heq
        obtain ⟨mark, digits, rfl, hm, hd⟩ := beforeMark?_eq_some_iff.mp hn
        exact .suffixed hm ((suffixed_iff fun c hc => hascii c (by simp [hc])).mp hd)

/-- How a token is read, told by its form alone. -/
structure ReadByForm (cs : List Char) : Prop where
  /-- No token has two forms, or two values. -/
  one : ∀ {f g : Form} {v w : Int}, Written f cs v → Written g cs w → f = g ∧ v = w
  number : ∀ value : Int, parse cs = .ok (some value) ↔ ∃ f : Form, f.isReadable = true ∧ Written f cs value
  nothing : parse cs = .ok none ↔ ¬ ∃ f value, Written f cs value
  overlong : ∀ fault, parse cs = .error fault ↔
    ∃ digits value, maxDigits < digits ∧ Written (.decimal digits) cs value ∧ fault = .tooManyDigits digits

theorem outcome_eq_ok {form : Form} {value : Int} {found : Option Int} :
    Form.outcome (form, value) = .ok found ↔ form.isReadable = true ∧ found = some value := by
  cases form with
  | decimal digits =>
      simp only [Form.outcome, Form.isReadable, decide_eq_true_eq]
      split
      · rename_i hlong
        simp [Nat.not_le.mpr hlong]
      · rename_i hshort
        simp [Nat.not_lt.mp hshort, eq_comm]
  | prefixed => simp [Form.outcome, Form.isReadable, eq_comm]
  | suffixed => simp [Form.outcome, Form.isReadable, eq_comm]

theorem outcome_eq_error {form : Form} {value : Int} {fault : Fault} :
    Form.outcome (form, value) = .error fault ↔
      ∃ digits, maxDigits < digits ∧ form = .decimal digits ∧ fault = .tooManyDigits digits := by
  cases form with
  | decimal digits =>
      simp only [Form.outcome]
      split
      · rename_i hlong
        simp [hlong, eq_comm]
      · rename_i hshort
        simp [hshort]
  | prefixed => simp [Form.outcome]
  | suffixed => simp [Form.outcome]

theorem readByForm (hascii : ∀ c ∈ cs, c.toNat < 128) (hb : cs.getLast? ≠ some '\n') : ReadByForm cs := by
  have hparse := parse_eq_outcome hb
  cases hform : form? cs with
  | none =>
      have hnot (f : Form) (v : Int) : ¬ Written f cs v := by simp [written_iff hascii, hform]
      rw [hform] at hparse
      exact
        { one := fun hf _ => absurd hf (hnot _ _)
          number := by simp [hparse, hnot]
          nothing := by simp [hparse, hnot]
          overlong := by simp [hparse, hnot] }
  | some found =>
      obtain ⟨form, value⟩ := found
      have hwritten {f : Form} {v : Int} : Written f cs v ↔ form = f ∧ value = v := by
        simp [written_iff hascii, hform]
      rw [hform] at hparse
      exact
        { one := fun hf hg => by
            obtain ⟨rfl, rfl⟩ := hwritten.mp hf
            exact hwritten.mp hg
          number := fun v => by
            simp only [hparse, outcome_eq_ok, hwritten, Option.some.injEq]
            constructor
            · rintro ⟨hreadable, rfl⟩
              exact ⟨form, hreadable, rfl, rfl⟩
            · rintro ⟨_, hreadable, rfl, rfl⟩
              exact ⟨hreadable, rfl⟩
          nothing := by
            simp [hparse, outcome_eq_ok, hwritten]
          overlong := fun fault => by
            simp only [hparse, outcome_eq_error, hwritten]
            constructor
            · rintro ⟨digits, hlong, hform, hfault⟩
              exact ⟨digits, value, hlong, ⟨hform, rfl⟩, hfault⟩
            · rintro ⟨digits, _, hlong, ⟨hform, -⟩, hfault⟩
              exact ⟨digits, hlong, hform, hfault⟩ }

/-! ## Rendered numbers -/

theorem digits_toDigits (hb : 1 < base) (hv : ∀ d < base, value? d.digitChar = some d) (n : Nat) :
    Digits value? value? base (Nat.toDigits base n) n := by
  obtain ⟨values, hvalues, hn⟩ := Text.exists_values_toDigits hb hv n
  have hne : Nat.toDigits base n ≠ [] := List.ne_nil_of_length_pos Nat.length_toDigits_pos
  exact digits_iff_someValues?.mpr (by simp [someValues?, hne, hvalues, hn])

theorem digits_ten (n : Nat) : Digits decimalValue? decimalValue? 10 (Nat.toDigits 10 n) n :=
  digits_toDigits (by decide) (by decide) n

theorem digits_sixteen (n : Nat) : Digits hexValue? hexValue? 16 (Nat.toDigits 16 n) n :=
  digits_toDigits (by decide) (by decide) n

theorem getLast?_ne_of_not_mem {c : Char} (h : c ∉ cs) : cs.getLast? ≠ some c :=
  fun heq => h (List.mem_of_getLast? heq)

theorem length_toDigits_le {k : Nat} (hk : 0 < k) (h : n < Nat.pow 10 k) : (Nat.toDigits 10 n).length ≤ k :=
  (Nat.length_toDigits_le_iff (by decide) hk).mpr h

theorem parse_decimalChars {n : Int} (h : n.natAbs < Nat.pow 10 maxDigits) :
    parse (Text.decimalChars n) = .ok (some n) := by
  have hpos : 0 < maxDigits := by decide
  have hbreak (m : Nat) : '\n' ∉ Nat.toDigits 10 m := (digits_ten m).not_mem (by decide) (by decide)
  cases n with
  | ofNat m =>
      obtain ⟨c, rest, v, -, hcs, hv, -⟩ := digits_iff.mp (digits_ten m)
      have hs : splitSign (Nat.toDigits 10 m) = (false, Nat.toDigits 10 m) := by
        rw [hcs]
        exact splitSign_of_decimal hv rest
      rw [Text.decimalChars, parse_eq_outcome (getLast?_ne_of_not_mem (hbreak m)), form?_of_decimal hs (digits_ten m)]
      exact outcome_eq_ok.mpr ⟨decide_eq_true (length_toDigits_le hpos h), rfl⟩
  | negSucc m =>
      have hb : '\n' ∉ '-' :: Nat.toDigits 10 (m + 1) := by simp [hbreak]
      have hs : splitSign ('-' :: Nat.toDigits 10 (m + 1)) = (true, Nat.toDigits 10 (m + 1)) := rfl
      rw [Text.decimalChars, parse_eq_outcome (getLast?_ne_of_not_mem hb), form?_of_decimal hs (digits_ten (m + 1))]
      exact outcome_eq_ok.mpr ⟨decide_eq_true (length_toDigits_le hpos h), rfl⟩

theorem parse_prefixed_hexDigits (n : Nat) : parse ('0' :: 'X' :: Text.hexDigits n) = .ok (some (n : Int)) := by
  have hupper : '0' :: 'X' :: Text.hexDigits n = ('0' :: 'X' :: Nat.toDigits 16 n).map Char.toUpper := rfl
  have hb : '\n' ∉ '0' :: 'X' :: Nat.toDigits 16 n := by
    simp [(digits_sixteen n).not_mem (c := '\n') (by decide) (by decide)]
  rw [hupper, parse_map_toUpper, parse_eq_outcome (getLast?_ne_of_not_mem hb),
    form?_of_prefixed (.inr rfl) (digits_sixteen n)]
  rfl

theorem parse_suffixed_hexDigits (n : Nat) : parse ('0' :: (Text.hexDigits n ++ ['H'])) = .ok (some (n : Int)) := by
  have hupper : '0' :: (Text.hexDigits n ++ ['H']) = ('0' :: Nat.toDigits 16 n ++ ['H']).map Char.toUpper := by
    rw [List.map_append]
    rfl
  obtain ⟨values, hv, hn⟩ : ∃ values, values? hexValue? (Nat.toDigits 16 n) = some values ∧ ofDigits 16 values = n :=
    Text.exists_values_toDigits (by decide) (by decide) n
  have hdigits : Digits decimalValue? hexValue? 16 ('0' :: Nat.toDigits 16 n) n :=
    digits_iff.mpr ⟨'0', _, 0, values, rfl, by decide, hv, by simpa [ofDigits] using hn.symm⟩
  have hb : ('0' :: Nat.toDigits 16 n ++ ['H']).getLast? ≠ some '\n' := by
    rw [List.getLast?_concat]
    decide
  rw [hupper, parse_map_toUpper, parse_eq_outcome hb, form?_of_suffixed (.inr rfl) hdigits]
  rfl

/-- Tokens of ASCII that do not end with a line break are read by their form, and numbers written in any form, with
letters in any case, are read back. -/
theorem parse_grammar :
    (∀ cs : List Char, (∀ c ∈ cs, c.toNat < 128) → cs.getLast? ≠ some '\n' → ReadByForm cs) ∧
    (∀ n : Int, n.natAbs < Nat.pow 10 maxDigits → parse (Text.decimalChars n) = .ok (some n)) ∧
    (∀ (n : Nat) (cs : List Char), cs.map Char.toUpper = '0' :: 'X' :: Text.hexDigits n →
      parse cs = .ok (some (n : Int))) ∧
    (∀ (n : Nat) (cs : List Char), cs.map Char.toUpper = '0' :: (Text.hexDigits n ++ ['H']) →
      parse cs = .ok (some (n : Int))) := by
  refine ⟨fun _ => readByForm, fun _ => parse_decimalChars, fun n cs h => ?_, fun n cs h => ?_⟩
  · rw [← parse_map_toUpper, h, parse_prefixed_hexDigits]
  · rw [← parse_map_toUpper, h, parse_suffixed_hexDigits]

/-- A suffixed token in mixed case, and the three ways to write a number. -/
theorem parse_grammar_mixed :
    ReadByForm "0Ffh".toList ∧ parse (Text.decimalChars (-12)) = .ok (some (-12)) ∧
      parse "0x1Fb".toList = .ok (some 507) ∧ parse "01fBh".toList = .ok (some 507) := by
  have hascii : "0Ffh".toList.all (·.toNat < 128) = true := by decide
  refine ⟨parse_grammar.1 _ (fun c hc => ?_) (by decide), parse_grammar.2.1 _ (by decide +kernel),
    parse_grammar.2.2.1 507 _ (by decide), parse_grammar.2.2.2 507 _ (by decide)⟩
  exact of_decide_eq_true (List.all_eq_true.mp hascii c hc)

end TwoPass.Number
