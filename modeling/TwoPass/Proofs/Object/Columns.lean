import TwoPass.Proofs.Object.Order
import TwoPass.Proofs.Text.Field

/-!
The columns of an object file. Widths of numerals are minimums, so a record keeps to its columns exactly if its
numbers fit their fields. A file that keeps to the columns can be read again by them.
-/

namespace TwoPass

/-! ## Reading by columns -/

/-- What an object file says, every text record with the length that it gives for itself. -/
structure ObjectFile where
  name : List Char
  start : Int
  length : Int
  texts : List (TextRecord × Int)
  entry : Int
  deriving DecidableEq, Repr

namespace ObjectFile

/-- The hexadecimal number in columns of a line. -/
def number? (first stop : Nat) (line : List Char) : Option Int :=
  (Text.fieldValue? (Text.columns first stop line)).map Int.ofNat

def readText? (line : List Char) : Option (TextRecord × Int) :=
  if line.head? = some 'T' then
    match number? 1 7 line, number? 7 9 line with
    | some start, some length => some (⟨start, Text.columns 9 (9 + 2 * length.toNat) line⟩, length)
    | _, _ => none
  else
    none

/-- Text records, and an end record on the last line. -/
def readRest? : List (List Char) → Option (List (TextRecord × Int) × Int)
  | [] => none
  | [line] => if line.head? = some 'E' then (number? 1 7 line).map ([], ·) else none
  | line :: rest =>
    match readText? line, readRest? rest with
    | some text, some (texts, entry) => some (text :: texts, entry)
    | _, _ => none

/-- Reads an object file line by line, a header first. -/
def read? (text : String) : Option ObjectFile :=
  match Text.splitLines text.toList with
  | [] => none
  | header :: rest =>
    if header.head? = some 'H' then
      match number? 7 13 header, number? 13 19 header, readRest? rest with
      | some start, some length, some (texts, entry) =>
        some { name := Text.columns 1 7 header, start, length, texts, entry }
      | _, _, _ => none
    else
      none

theorem number?_append {before after : List Char} {first stop w : Nat} {n : Int} (hb : before.length = first)
    (hs : first + w = stop) (hw : 0 < w) (hn : 0 ≤ n) (hlt : n < Nat.pow 16 w) :
    number? first stop (before ++ Text.hexChars w n ++ after) = some n := by
  have hlength := (Text.isHex_hexChars hw hn hlt).length
  rw [number?, Text.columns_append hb (by rw [hlength, hs]), Text.hexChars_of_nonneg hn,
    Text.fieldValue?_hexNat]
  exact congrArg some (Int.toNat_of_nonneg hn)

end ObjectFile

/-! ## Widths -/

theorem length_hex_eq_iff {w : Nat} {n : Int} (hw : 0 < w) (hn : 0 ≤ n) :
    (Text.hex w n).length = w ↔ n < Nat.pow 16 w := by
  rw [Text.hex, Text.hexChars_of_nonneg hn, String.length_ofList, Text.length_hexNat_eq_iff hw]
  omega

theorem le_length_hex {n : Int} (hn : 0 ≤ n) (w : Nat) : w ≤ (Text.hex w n).length := by
  rw [Text.hex, Text.hexChars_of_nonneg hn, String.length_ofList]
  exact Text.le_length_hexNat w n.toNat

theorem length_address_eq_iff {n : Int} (hn : 0 ≤ n) : (Text.hex 6 n).length = 6 ↔ n < 0x1000000 :=
  length_hex_eq_iff (by decide) hn

theorem isHex_address {n : Int} (hn : 0 ≤ n) (hlt : n < 0x1000000) : Text.IsHex 6 (Text.hexChars 6 n) :=
  Text.isHex_hexChars (by decide) hn hlt

/-- The program name as a header shows it. -/
def nameField (name : String) : List Char :=
  Text.padRight nameWidth (name.toList.take nameWidth)

theorem length_nameField (name : String) : (nameField name).length = 6 := by
  simp only [nameField, Text.padRight, nameWidth, List.length_append, List.length_take, List.length_replicate]
  omega

theorem length_renderHeader_eq_iff {start length : Int} (name : String) (hs : 0 ≤ start) (hl : 0 ≤ length) :
    (renderHeader name start length).length = 19 ↔ start < 0x1000000 ∧ length < 0x1000000 := by
  have hname : (String.ofList (nameField name)).length = 6 := by
    rw [String.length_ofList, length_nameField]
  have hstart := le_length_hex hs 6
  have hlength := le_length_hex hl 6
  have hsum : (renderHeader name start length).length =
      7 + (Text.hex 6 start).length + (Text.hex 6 length).length := by
    rw [renderHeader, String.length_append, String.length_append, String.length_append, ← nameField, hname]
    rfl
  rw [← length_address_eq_iff hs, ← length_address_eq_iff hl, hsum]
  omega

theorem length_renderEnd_eq_iff {start : Int} (hs : 0 ≤ start) :
    (renderEnd start).length = 7 ↔ start < 0x1000000 := by
  have hsum : (renderEnd start).length = 1 + (Text.hex 6 start).length := String.length_append _ _
  rw [← length_address_eq_iff hs, hsum]
  omega

theorem TextRecord.length_lt {r : TextRecord} (h : r.length ≤ 255) : (r.length : Int) < Nat.pow 16 2 := by
  change (r.length : Int) < 256
  omega

theorem TextRecord.length_hex_eq_iff (r : TextRecord) :
    (Text.hex 2 r.length).length = 2 ↔ r.length ≤ 255 := by
  rw [TwoPass.length_hex_eq_iff (by decide) (Int.natCast_nonneg _)]
  change (r.length : Int) < 256 ↔ _
  omega

theorem TextRecord.length_render_eq_iff {r : TextRecord} (hs : 0 ≤ r.start) (he : r.data.length % 2 = 0) :
    r.render.length = 9 + 2 * r.length ↔ r.start < 0x1000000 ∧ r.length ≤ 255 := by
  have hstart := le_length_hex hs 6
  have hlength := le_length_hex (Int.natCast_nonneg r.length) 2
  have hdata : 2 * r.length = r.data.length := by unfold TextRecord.length; omega
  have hsum : r.render.length = 1 + (Text.hex 6 r.start).length + (Text.hex 2 r.length).length + 2 * r.length := by
    rw [render, String.length_append, String.length_append, String.length_append, hdata,
      String.length_ofList (l := r.data)]
    rfl
  rw [← length_address_eq_iff hs, ← r.length_hex_eq_iff, hsum]
  omega

/-! ## Characters -/

theorem toList_renderHeader (name : String) (start length : Int) : (renderHeader name start length).toList =
    ['H'] ++ nameField name ++ Text.hexChars 6 start ++ Text.hexChars 6 length := by
  simp [renderHeader, nameField, Text.hex]

theorem toList_renderEnd (start : Int) : (renderEnd start).toList = ['E'] ++ Text.hexChars 6 start := by
  simp [renderEnd, Text.hex]

theorem TextRecord.toList_render (r : TextRecord) : r.render.toList =
    ['T'] ++ Text.hexChars 6 r.start ++ Text.hexChars 2 r.length ++ r.data := by
  simp [render, Text.hex]

/-- Text that stays on its line. -/
def IsLine (cs : List Char) : Prop :=
  ∀ c ∈ cs, Text.isLineBreak c = false

theorem IsLine.append {xs ys : List Char} (hx : IsLine xs) (hy : IsLine ys) : IsLine (xs ++ ys) :=
  fun c hc => (List.mem_append.mp hc).elim (hx c) (hy c)

theorem isLine_of_digits {cs : List Char} (h : ∀ c ∈ cs, Text.isUpperHex c = true) : IsLine cs :=
  fun c hc => Text.isLineBreak_of_isUpperHex (h c hc)

theorem isLine_of_isHex {w : Nat} {cs : List Char} (h : Text.IsHex w cs) : IsLine cs :=
  isLine_of_digits h.digits

theorem isLine_nameField {name : String} (h : IsLine name.toList) : IsLine (nameField name) := by
  refine IsLine.append (fun c hc => h c (List.take_subset _ _ hc)) fun c hc => ?_
  rw [List.eq_of_mem_replicate hc]
  rfl

namespace ObjectProgram

/-- The program keeps to the columns: each record has a line of its own, the lines have the widths of a header,
of text records with as many bytes as they hold, and of an end record, and lengths have two digits. -/
structure FixedColumns (p : ObjectProgram) : Prop where
  lines : sourceLines p.render = p.records
  widths : p.records.map String.length = 19 :: (p.texts.map (fun r => 9 + 2 * r.length) ++ [7])
  lengths : ∀ r ∈ p.texts, (Text.hex 2 r.length).length = 2

/-- Addresses have at most 24 bits, and lengths of text records 8. -/
structure Fits (p : ObjectProgram) : Prop where
  start : p.start < 0x1000000
  length : p.length < 0x1000000
  texts : ∀ r ∈ p.texts, r.start < 0x1000000 ∧ r.length ≤ 255

/-- No number is negative, code is whole bytes of digits, and the name has no line break. -/
structure Printable (p : ObjectProgram) : Prop where
  name : IsLine p.name.toList
  start : 0 ≤ p.start
  length : 0 ≤ p.length
  texts : ∀ r ∈ p.texts, 0 ≤ r.start ∧ r.data.length % 2 = 0 ∧ ∀ c ∈ r.data, Text.isUpperHex c = true

variable {p : ObjectProgram}

theorem widths_iff (h : p.Printable) :
    p.records.map String.length = 19 :: (p.texts.map (fun r => 9 + 2 * r.length) ++ [7]) ↔ p.Fits := by
  have htexts : p.texts.map (String.length ∘ (·.render)) = p.texts.map (fun r => 9 + 2 * r.length) ↔
      ∀ r ∈ p.texts, r.start < 0x1000000 ∧ r.length ≤ 255 := by
    rw [List.map_inj_left]
    exact forall₂_congr fun r hr => TextRecord.length_render_eq_iff (h.texts r hr).1 (h.texts r hr).2.1
  rw [records, List.map_cons, List.map_append, List.map_map, List.map_singleton, List.cons.injEq,
    List.append_singleton_inj, htexts, length_renderHeader_eq_iff p.name h.start h.length,
    length_renderEnd_eq_iff h.start]
  constructor
  · rintro ⟨⟨hstart, hlength⟩, hall, -⟩
    exact ⟨hstart, hlength, hall⟩
  · rintro ⟨hstart, hlength, hall⟩
    exact ⟨⟨hstart, hlength⟩, hall, hstart⟩

theorem isLine_records (h : p.Printable) (hf : p.Fits) : ∀ line ∈ p.records, IsLine line.toList := by
  have hfixed : ∀ c : Char, Text.isLineBreak c = false → IsLine [c] := by simp [IsLine]
  have hstart := isLine_of_isHex (isHex_address h.start hf.start)
  intro line hline
  simp only [records, List.mem_cons, List.mem_append, List.mem_map, List.not_mem_nil, or_false] at hline
  rcases hline with rfl | ⟨r, hr, rfl⟩ | rfl
  · have hlength := isLine_of_isHex (isHex_address h.length hf.length)
    rw [toList_renderHeader]
    exact (((hfixed 'H' rfl).append (isLine_nameField h.name)).append hstart).append hlength
  · obtain ⟨hnonneg, -, hdigits⟩ := h.texts r hr
    obtain ⟨hlow, hbytes⟩ := hf.texts r hr
    have hfirst := isLine_of_isHex (isHex_address hnonneg hlow)
    have hlength := isLine_of_isHex
      (Text.isHex_hexChars (by decide) (Int.natCast_nonneg _) (TextRecord.length_lt hbytes))
    rw [TextRecord.toList_render]
    exact (((hfixed 'T' rfl).append hfirst).append hlength).append (isLine_of_digits hdigits)
  · rw [toList_renderEnd]
    exact (hfixed 'E' rfl).append hstart

theorem toList_render (p : ObjectProgram) :
    p.render.toList = (p.records.map (·.toList)).flatMap (· ++ ['\n']) := by
  simp [render, String.toList_join, List.flatMap_map]

theorem splitLines_render (h : p.Printable) (hf : p.Fits) :
    Text.splitLines p.render.toList = p.records.map (·.toList) := by
  rw [toList_render]
  refine Text.splitLines_flatMap fun cs hcs => ?_
  obtain ⟨line, hline, rfl⟩ := List.mem_map.mp hcs
  exact isLine_records h hf line hline

/-- The columns are kept exactly if no number is too large for its field. -/
theorem fixedColumns_iff (h : p.Printable) : p.FixedColumns ↔ p.Fits := by
  refine ⟨fun hc => (widths_iff h).mp hc.widths, fun hf => ⟨?_, (widths_iff h).mpr hf, fun r hr => ?_⟩⟩
  · rw [sourceLines, splitLines_render h hf, List.map_map]
    simp [Function.comp_def]
  · exact r.length_hex_eq_iff.mpr (hf.texts r hr).2

/-! ## Reading back -/

/-- What a reader should learn of the program. -/
def file (p : ObjectProgram) : ObjectFile where
  name := nameField p.name
  start := p.start
  length := p.length
  texts := p.texts.map fun r => (r, (r.length : Int))
  entry := p.start

end ObjectProgram

namespace ObjectFile

theorem readText?_render {r : TextRecord} (hs : 0 ≤ r.start) (he : r.data.length % 2 = 0)
    (hlow : r.start < 0x1000000) (hbytes : r.length ≤ 255) :
    readText? r.render.toList = some (r, (r.length : Int)) := by
  have hwidth := (isHex_address hs hlow).length
  have hfits := TextRecord.length_lt hbytes
  have hdigits := (Text.isHex_hexChars (by decide) (Int.natCast_nonneg r.length) hfits).length
  have hstart : number? 1 7 r.render.toList = some r.start := by
    rw [r.toList_render, List.append_assoc]
    exact number?_append rfl rfl (by decide) hs hlow
  have hlength : number? 7 9 r.render.toList = some (r.length : Int) := by
    rw [r.toList_render]
    exact number?_append (by rw [List.length_append, hwidth]; rfl) rfl (by decide) (Int.natCast_nonneg _) hfits
  have hdata : Text.columns 9 (9 + 2 * r.length) r.render.toList = r.data := by
    rw [r.toList_render, ← List.append_nil (_ ++ r.data)]
    refine Text.columns_append ?_ ?_
    · rw [List.length_append, List.length_append, hwidth, hdigits]
      rfl
    · unfold TextRecord.length
      omega
  have hhead : r.render.toList.head? = some 'T' := by rw [r.toList_render]; rfl
  rw [readText?, if_pos hhead, hstart, hlength]
  simp only [Int.toNat_natCast, hdata]

theorem readRest?_render {p : ObjectProgram} {texts : List TextRecord} (h : p.Printable) (hf : p.Fits)
    (ht : ∀ r ∈ texts, r ∈ p.texts) :
    readRest? (texts.map (·.render.toList) ++ [(renderEnd p.start).toList]) =
      some (texts.map fun r => (r, (r.length : Int)), p.start) := by
  induction texts with
  | nil =>
      have hentry : number? 1 7 (renderEnd p.start).toList = some p.start := by
        rw [toList_renderEnd, ← List.append_nil (_ ++ _)]
        exact number?_append rfl rfl (by decide) h.start hf.start
      have hhead : (renderEnd p.start).toList.head? = some 'E' := by rw [toList_renderEnd]; rfl
      rw [List.map_nil, List.nil_append, readRest?, if_pos hhead, hentry]
      rfl
  | cons r rest ih =>
      have hr := ht r (by simp)
      obtain ⟨hs, he, -⟩ := h.texts r hr
      obtain ⟨hlow, hbytes⟩ := hf.texts r hr
      rw [List.map_cons, List.cons_append, readRest?, readText?_render hs he hlow hbytes,
        ih fun t hm => ht t (by simp [hm])]
      · rfl
      · simp

/-- Reading by the columns gives back all that was written. -/
theorem read?_render {p : ObjectProgram} (h : p.Printable) (hf : p.Fits) : read? p.render = some p.file := by
  have hname := length_nameField p.name
  have hwidth := (isHex_address h.start hf.start).length
  have hline := toList_renderHeader p.name p.start p.length
  have hcolumns : Text.columns 1 7 (renderHeader p.name p.start p.length).toList = nameField p.name := by
    rw [hline, List.append_assoc (_ ++ _)]
    exact Text.columns_append rfl (by rw [hname])
  have hstart : number? 7 13 (renderHeader p.name p.start p.length).toList = some p.start := by
    rw [hline]
    exact number?_append (by rw [List.length_append, hname]; rfl) rfl (by decide) h.start hf.start
  have hlength : number? 13 19 (renderHeader p.name p.start p.length).toList = some p.length := by
    rw [hline, ← List.append_nil (_ ++ Text.hexChars 6 p.length)]
    refine number?_append ?_ rfl (by decide) h.length hf.length
    rw [List.length_append, List.length_append, hname, hwidth]
    rfl
  have hhead : (renderHeader p.name p.start p.length).toList.head? = some 'H' := by rw [hline]; rfl
  have hrest := readRest?_render h hf fun r hr => hr
  rw [read?, ObjectProgram.splitLines_render h hf, ObjectProgram.records, List.map_cons, List.map_append,
    List.map_map, List.map_singleton]
  dsimp only [Function.comp_def]
  rw [if_pos hhead, hstart, hlength, hrest, hcolumns]
  rfl

end ObjectFile

end TwoPass
