import TwoPass.Source.Line
import TwoPass.Text.Case
import TwoPass.Text.Digit

/-!
Letter case of ASCII. Blanks, digits and names are the same in both cases, and whatever cuts a text by them or by
a character that is no letter cuts it at the same places in both.
-/

namespace TwoPass

/-! ## Characters -/

namespace Text

/-- A property of all characters of ASCII, checked one by one. -/
theorem forall_ascii {P : Char → Prop} (h : ∀ n < 128, P (Char.ofNat n)) {c : Char} (hc : c.toNat < 128) :
    P c := by
  have hp := h c.toNat hc
  rwa [Char.ofNat_toNat] at hp

theorem upperChar_toUpper {c : Char} (h : c.toNat < 128) : upperChar c.toUpper = [c.toUpper] :=
  forall_ascii (P := fun c => upperChar c.toUpper = [c.toUpper]) (by decide +kernel) h

theorem upperChars_eq_self {cs : List Char} (h : ∀ c ∈ cs, upperChar c = [c]) : upperChars cs = cs := by
  induction cs with
  | nil => rfl
  | cons c rest ih =>
      rw [upperChars, List.flatMap_cons, h c (by simp), ← upperChars, ih fun d hd => h d (by simp [hd])]
      rfl

theorem toUpper_of_not_ascii {c : Char} (h : ¬ c.toNat < 128) : c.toUpper = c := by
  refine dif_neg ?_
  rintro ⟨-, hz⟩
  exact h (Nat.lt_of_le_of_lt (UInt32.le_iff_toNat_le.mp hz) (by decide))

/-- What both cases of each ASCII character have in common is common to both cases of every character, since no
other character has two. -/
theorem apply_toUpper {α : Type} {f : Char → α} (h : ∀ n < 128, f (Char.ofNat n).toUpper = f (Char.ofNat n))
    (c : Char) : f c.toUpper = f c := by
  by_cases hc : c.toNat < 128
  · exact forall_ascii (P := fun c => f c.toUpper = f c) h hc
  · rw [toUpper_of_not_ascii hc]

theorem isBlank_toUpper (c : Char) : isBlank c.toUpper = isBlank c :=
  apply_toUpper (by decide +kernel) c

theorem isDigit_toUpper (c : Char) : isDigit c.toUpper = isDigit c :=
  apply_toUpper (by decide +kernel) c

theorem decimalValue?_toUpper (c : Char) : decimalValue? c.toUpper = decimalValue? c :=
  apply_toUpper (by decide +kernel) c

theorem hexValue?_toUpper (c : Char) : hexValue? c.toUpper = hexValue? c :=
  apply_toUpper (by decide +kernel) c

/-- A character that is no letter is the upper case of itself alone. -/
theorem toUpper_eq_iff {d : Char} (hd : d.isAlpha = false) (c : Char) : c.toUpper = d ↔ c = d := by
  have halpha : c.toUpper.isAlpha = c.isAlpha := apply_toUpper (by decide +kernel) c
  have hself : c.isAlpha = false → c.toUpper = c := by
    by_cases hc : c.toNat < 128
    · exact forall_ascii (P := fun c => c.isAlpha = false → c.toUpper = c) (by decide +kernel) hc
    · exact fun _ => toUpper_of_not_ascii hc
  constructor
  · rintro rfl
    exact (hself (halpha ▸ hd)).symm
  · rintro rfl
    exact hself hd

end Text

/-! ## Texts -/

namespace Text

variable (cs : List Char)

theorem upperChars_map_toUpper : upperChars (cs.map Char.toUpper) = upperChars cs := by
  rw [upperChars, List.flatMap_map]
  exact congrArg cs.flatMap (funext (apply_toUpper (by decide +kernel)))

theorem dropWhile_map_toUpper {p : Char → Bool} (hp : ∀ c, p c.toUpper = p c) :
    (cs.map Char.toUpper).dropWhile p = (cs.dropWhile p).map Char.toUpper := by
  rw [List.dropWhile_map, show p ∘ Char.toUpper = p from funext hp]

theorem dropRightWhile_map_toUpper {p : Char → Bool} (hp : ∀ c, p c.toUpper = p c) :
    dropRightWhile p (cs.map Char.toUpper) = (dropRightWhile p cs).map Char.toUpper := by
  rw [dropRightWhile, ← List.map_reverse, dropWhile_map_toUpper _ hp, ← List.map_reverse, dropRightWhile]

theorem trim_map_toUpper : trim (cs.map Char.toUpper) = (trim cs).map Char.toUpper := by
  rw [trim, trimLeft, trimRight, dropWhile_map_toUpper _ isBlank_toUpper,
    dropRightWhile_map_toUpper _ isBlank_toUpper]
  rfl

theorem columns_map_toUpper (first stop : Nat) :
    columns first stop (cs.map Char.toUpper) = (columns first stop cs).map Char.toUpper := by
  rw [columns, ← List.map_drop, ← List.map_take, columns]

theorem isBlankText_map_toUpper : isBlankText (cs.map Char.toUpper) = isBlankText cs := by
  rw [isBlankText, List.all_map, show isBlank ∘ Char.toUpper = isBlank from funext isBlank_toUpper, isBlankText]

theorem getLast?_map_toUpper {d : Char} (h : d.isAlpha = false) :
    (cs.map Char.toUpper).getLast? = some d ↔ cs.getLast? = some d := by
  rw [List.getLast?_map]
  cases cs.getLast? with
  | none => simp
  | some c => simp [toUpper_eq_iff h]

theorem expandTabs_map_toUpper (column : Nat) :
    expandTabs column (cs.map Char.toUpper) = (expandTabs column cs).map Char.toUpper := by
  induction cs generalizing column with
  | nil => rfl
  | cons c rest ih =>
      rw [List.map_cons, expandTabs, expandTabs]
      simp only [toUpper_eq_iff (d := '\t') (by decide), toUpper_eq_iff (d := '\n') (by decide),
        toUpper_eq_iff (d := '\r') (by decide), ih]
      split
      · rw [List.map_append, List.map_replicate]
        rfl
      · split <;> rfl

theorem splitOn_map_toUpper {separator : Char} (h : separator.isAlpha = false) :
    splitOn separator (cs.map Char.toUpper) = (splitOn separator cs).map (List.map Char.toUpper) := by
  induction cs with
  | nil => rfl
  | cons c rest ih =>
      rw [List.map_cons, splitOn, splitOn, ih]
      simp only [toUpper_eq_iff h]
      split
      · rfl
      · cases splitOn separator rest <;> rfl

end Text

/-! ## Strings -/

namespace Text

variable (s : String)

theorem toList_toUpper : s.toUpper.toList = s.toList.map Char.toUpper := by
  rw [String.toUpper, String.toList_map]

theorem ofList_map_toUpper (cs : List Char) : String.ofList (cs.map Char.toUpper) = (String.ofList cs).toUpper := by
  rw [← String.toList_inj, toList_toUpper, String.toList_ofList, String.toList_ofList]

theorem upper_toUpper : upper s.toUpper = upper s := by
  rw [upper, toList_toUpper, upperChars_map_toUpper, upper]

theorem isEmpty_toUpper : s.toUpper.isEmpty = s.isEmpty := by
  rw [Bool.eq_iff_iff, String.isEmpty_iff, String.isEmpty_iff, ← String.toList_eq_nil_iff, ← String.toList_eq_nil_iff,
    toList_toUpper, List.map_eq_nil_iff]

end Text

/-! ## Fields of a line -/

namespace SourceLine

theorem isRemark_map_toUpper (cs : List Char) : isRemark (cs.map Char.toUpper) = isRemark cs := by
  rw [isRemark, isRemark, Text.trimLeft, Text.dropWhile_map_toUpper _ Text.isBlank_toUpper, Text.trimLeft]
  cases cs.dropWhile Text.isBlank with
  | nil => rfl
  | cons c rest =>
      simp only [List.map_cons, Text.toUpper_eq_iff (d := '.') (by decide),
        Text.toUpper_eq_iff (d := ';') (by decide)]

theorem isName_map_toUpper (cs : List Char) : isName (cs.map Char.toUpper) = isName cs := by
  have hstart (c : Char) : isNameStart c.toUpper = isNameStart c := Text.apply_toUpper (by decide +kernel) c
  have hchar : isNameChar ∘ Char.toUpper = isNameChar := funext (Text.apply_toUpper (by decide +kernel))
  cases cs with
  | nil => rfl
  | cons c rest => rw [List.map_cons, isName, isName, hstart, List.all_map, hchar]

theorem isOperator_of_ne {c : Char} (h : c ≠ '+') (rest : List Char) :
    isOperator (c :: rest) = isName (c :: rest) := by
  unfold isOperator
  split
  · rename_i heq
    exact absurd (List.cons.inj heq).1 h
  · rfl

theorem isOperator_map_toUpper (cs : List Char) : isOperator (cs.map Char.toUpper) = isOperator cs := by
  cases cs with
  | nil => rfl
  | cons c rest =>
      by_cases hc : c = '+'
      · subst hc
        exact isName_map_toUpper rest
      · have hupper : c.toUpper ≠ '+' := mt (Text.toUpper_eq_iff (by decide) c).mp hc
        rw [List.map_cons, isOperator_of_ne hupper, isOperator_of_ne hc, ← List.map_cons, isName_map_toUpper]

theorem expand_toUpper (text : String) : expand text.toUpper = (expand text).map Char.toUpper := by
  rw [expand, Text.toList_toUpper, Text.dropRightWhile_map_toUpper, Text.expandTabs_map_toUpper]
  · rfl
  · intro c
    simp only [Text.toUpper_eq_iff (d := '\n') (by decide), Text.toUpper_eq_iff (d := '\r') (by decide)]

end SourceLine

end TwoPass
