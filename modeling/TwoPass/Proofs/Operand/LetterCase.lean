import TwoPass.Operand.Literal
import TwoPass.Proofs.Text.Field
import TwoPass.Proofs.Text.LetterCase
import TwoPass.Statement.Parse

/-!
Operands in both letter cases. The marks and digits of numbers are taken in either case and names are kept in upper
case, so that a token stands for the same operand however it is written. Only characters between quotation marks
are kept as they are.
-/

namespace TwoPass

/-! ## Numbers -/

namespace Number

open Text (toUpper_eq_iff apply_toUpper decimalValue?_toUpper hexValue?_toUpper)

variable (cs : List Char)

theorem dropFinalBreak_map_toUpper :
    dropFinalBreak (cs.map Char.toUpper) = (dropFinalBreak cs).map Char.toUpper := by
  rw [dropFinalBreak, dropFinalBreak, ← List.map_dropLast]
  simp only [Text.getLast?_map_toUpper cs (d := '\n') (by decide)]
  split <;> rfl

theorem values?_map_toUpper {value? : Char → Option Nat} (h : ∀ c, value? c.toUpper = value? c) :
    values? value? (cs.map Char.toUpper) = values? value? cs := by
  rw [Text.values?_map, show (fun c => value? c.toUpper) = value? from funext h]

theorem someValues?_map_toUpper {value? : Char → Option Nat} (h : ∀ c, value? c.toUpper = value? c) :
    someValues? value? (cs.map Char.toUpper) = someValues? value? cs := by
  rw [someValues?, List.isEmpty_map, values?_map_toUpper cs h, someValues?]

theorem splitSign_map_toUpper :
    splitSign (cs.map Char.toUpper) = ((splitSign cs).1, (splitSign cs).2.map Char.toUpper) := by
  cases cs with
  | nil => rfl
  | cons c rest =>
      by_cases hplus : c = '+'
      · subst hplus
        rfl
      · by_cases hminus : c = '-'
        · subst hminus
          rfl
        · have hplain {d : Char} {ds : List Char} (hp : d ≠ '+') (hm : d ≠ '-') :
              splitSign (d :: ds) = (false, d :: ds) := by
            unfold splitSign
            split <;> simp_all
          rw [List.map_cons, hplain hplus hminus, hplain (mt (toUpper_eq_iff (by decide) c).mp hplus)
            (mt (toUpper_eq_iff (by decide) c).mp hminus)]
          rfl

theorem afterMark?_map_toUpper : afterMark? (cs.map Char.toUpper) = afterMark? cs := by
  have hmark (c : Char) : (c.toUpper = 'x' || c.toUpper = 'X') = (c = 'x' || c = 'X') :=
    apply_toUpper (f := fun c => decide (c = 'x') || decide (c = 'X')) (by decide +kernel) c
  match cs with
  | [] => rfl
  | [c] => unfold afterMark?; simp
  | c :: mark :: rest =>
      by_cases hzero : c = '0'
      · subst hzero
        rw [List.map_cons, List.map_cons, show '0'.toUpper = '0' from by decide, afterMark?, afterMark?, hmark,
          someValues?_map_toUpper rest hexValue?_toUpper]
      · have hnone {d : Char} {ds : List Char} (h : d ≠ '0') : afterMark? (d :: ds) = none := by
          unfold afterMark?
          split <;> simp_all
        rw [List.map_cons, hnone hzero, hnone (mt (toUpper_eq_iff (by decide) c).mp hzero)]

theorem beforeMark?_map_toUpper : beforeMark? (cs.map Char.toUpper) = beforeMark? cs := by
  have hmark (c : Char) : (c.toUpper = 'h' || c.toUpper = 'H') = (c = 'h' || c = 'H') :=
    apply_toUpper (f := fun c => decide (c = 'h') || decide (c = 'H')) (by decide +kernel) c
  rw [beforeMark?, beforeMark?, List.getLast?_map, ← List.map_dropLast]
  cases cs.getLast? with
  | none => rfl
  | some mark =>
      cases cs.dropLast with
      | nil => rfl
      | cons c rest =>
          simp only [Option.map_some, List.map_cons, hmark, decimalValue?_toUpper,
            values?_map_toUpper rest hexValue?_toUpper]

/-- A token is read as the same number in both letter cases. -/
theorem parse_map_toUpper : parse (cs.map Char.toUpper) = parse cs := by
  simp only [parse, dropFinalBreak_map_toUpper, splitSign_map_toUpper, afterMark?_map_toUpper,
    beforeMark?_map_toUpper, someValues?_map_toUpper _ decimalValue?_toUpper]

theorem parseAddress_map_toUpper : parseAddress (cs.map Char.toUpper) = parseAddress cs := by
  rw [parseAddress, dropFinalBreak_map_toUpper, someValues?_map_toUpper _ hexValue?_toUpper, parseAddress]

end Number

/-! ## Operands of instructions -/

namespace Operand

theorem classify_toUpper (token : String) : classify token.toUpper = classify token := by
  have hparse : Number.parse token.toUpper.toList = Number.parse token.toList := by
    rw [Text.toList_toUpper, Number.parse_map_toUpper]
  have hregister : isRegister token.toUpper = isRegister token := by
    unfold isRegister registerNumber?
    rw [Text.upper_toUpper]
  unfold classify ofRegister ofSymbol
  rw [hparse, hregister, Text.upper_toUpper]

theorem ofList_trim_map_toUpper (cs : List Char) :
    String.ofList (Text.trim (cs.map Char.toUpper)) = (String.ofList (Text.trim cs)).toUpper := by
  rw [Text.trim_map_toUpper, Text.ofList_map_toUpper]

theorem splitMarker_toUpper (token : String) :
    splitMarker token.toUpper = ((splitMarker token).1, (splitMarker token).2.toUpper) := by
  unfold splitMarker
  rw [Text.toList_toUpper]
  cases token.toList with
  | nil => rfl
  | cons c rest =>
      rw [List.map_cons]
      by_cases him : c = '#'
      · subst him
        exact congrArg (Prod.mk Marker.immediate) (ofList_trim_map_toUpper rest)
      · by_cases hin : c = '@'
        · subst hin
          exact congrArg (Prod.mk Marker.indirect) (ofList_trim_map_toUpper rest)
        · have him' := mt (Text.toUpper_eq_iff (d := '#') (by decide) c).mp him
          have hin' := mt (Text.toUpper_eq_iff (d := '@') (by decide) c).mp hin
          split <;> simp_all [String.toUpper]

theorem parse_toUpper (token : String) : parse token.toUpper = parse token := by
  unfold parse
  rw [splitMarker_toUpper]
  simp only [classify_toUpper]

theorem split_toUpper (s : String) : split s.toUpper = (split s).map String.toUpper := by
  rw [split, split, Text.toList_toUpper, Text.isBlankText_map_toUpper]
  split
  · rfl
  · rw [Text.splitOn_map_toUpper _ (by decide), List.map_map, List.map_map]
    exact List.map_congr_left fun cs _ => ofList_trim_map_toUpper cs

end Operand

namespace Instruction

theorem isIndexToken_toUpper (token : String) : isIndexToken token.toUpper = isIndexToken token := by
  unfold isIndexToken
  rw [Text.upper_toUpper]

theorem parseTokens_map_toUpper (flags : Flags) (tokens : List String) :
    parseTokens flags (tokens.map String.toUpper) = parseTokens flags tokens := by
  induction tokens generalizing flags with
  | nil => rfl
  | cons token rest ih =>
      rw [List.map_cons]
      unfold parseTokens
      simp only [Operand.parse_toUpper, ih]

/-- An operand field holds the same operands in both letter cases. -/
theorem parseOperands_toUpper (opcode : Opcode) (flags : Flags) (text : String) :
    parseOperands opcode flags text.toUpper = parseOperands opcode flags text := by
  have hindex : isIndexToken ∘ String.toUpper = isIndexToken := funext isIndexToken_toUpper
  have hother : (!isIndexToken ·) ∘ String.toUpper = (!isIndexToken ·) :=
    funext fun token => congrArg (! ·) (isIndexToken_toUpper token)
  simp only [parseOperands, Operand.split_toUpper, List.any_map, List.filter_map, hindex, hother,
    parseTokens_map_toUpper]

end Instruction

/-! ## Literals of data directives -/

namespace Literal

/-- What stands between quotation marks after a letter stands there in both letter cases. -/
theorem enclosed?_map_toUpper {upper lower : Char}
    (hletter : ∀ c : Char, (c.toUpper = upper || c.toUpper = lower) = (c = upper || c = lower)) (cs : List Char) :
    enclosed? upper lower (cs.map Char.toUpper) = (enclosed? upper lower cs).map (List.map Char.toUpper) := by
  have hbreak (ds : List Char) : (ds.map Char.toUpper).contains '\n' = ds.contains '\n' := by
    rw [Bool.eq_iff_iff, List.contains_iff_mem, List.contains_iff_mem, List.mem_map]
    simp [Text.toUpper_eq_iff (d := '\n') (by decide)]
  unfold enclosed?
  rw [Number.dropFinalBreak_map_toUpper]
  match Number.dropFinalBreak cs with
  | [] => rfl
  | [c] => rfl
  | c :: mark :: rest =>
      by_cases hmark : mark = '\x27'
      · subst hmark
        simp only [List.map_cons, show '\x27'.toUpper = '\x27' from by decide, hletter, ← List.map_dropLast, hbreak,
          Text.getLast?_map_toUpper rest (d := '\x27') (by decide)]
        split <;> rfl
      · have hmark' := mt (Text.toUpper_eq_iff (d := '\x27') (by decide) mark).mp hmark
        simp only [List.map_cons]
        split <;> simp_all

theorem enclosed?_characters_toUpper (cs : List Char) :
    enclosed? 'C' 'c' (cs.map Char.toUpper) = (enclosed? 'C' 'c' cs).map (List.map Char.toUpper) :=
  enclosed?_map_toUpper
    (Text.apply_toUpper (f := fun c => decide (c = 'C') || decide (c = 'c')) (by decide +kernel)) cs

theorem toOption_hexadecimal_toUpper (width : Nat) (text : String) (digits : List Char) :
    (hexadecimal width text.toUpper (digits.map Char.toUpper)).toOption
      = (hexadecimal width text digits).toOption := by
  rw [hexadecimal, hexadecimal, Number.parseAddress_map_toUpper]
  cases Number.parseAddress digits with
  | none => rfl
  | some value =>
      simp only
      split <;> rfl

/-- A literal that does not quote characters has the same value in both letter cases. -/
theorem toOption_parse_toUpper {text : String} (h : enclosed? 'C' 'c' text.toList = none) (width : Nat) :
    (parse text.toUpper width).toOption = (parse text width).toOption := by
  have hquoted : enclosed? 'C' 'c' (text.toList.map Char.toUpper) = none := by
    rw [enclosed?_characters_toUpper, h, Option.map_none]
  unfold parse
  rw [Text.toList_toUpper, Number.parse_map_toUpper, hquoted, h, enclosed?_map_toUpper, Operand.ofSymbol,
    Text.upper_toUpper]
  · cases Number.parse text.toList with
    | error fault => rfl
    | ok found =>
        cases found with
        | some value =>
            simp only
            split <;> rfl
        | none =>
            cases enclosed? 'X' 'x' text.toList with
            | none => rfl
            | some digits => exact toOption_hexadecimal_toUpper width text digits
  · exact Text.apply_toUpper (f := fun c => decide (c = 'X') || decide (c = 'x')) (by decide +kernel)

end Literal

end TwoPass
