import TwoPass.Proofs.Assembly.ObjectFile
import TwoPass.Proofs.Session.Writing
import TwoPass.Proofs.Source.Canonical

/-!
Symbols on paper. The symbol file and the last part of a listing are read back here as names with addresses. After a
first pass both give the whole table in the order of the names, since a name is a word, stands in the table once, and
has an address that is not negative.
-/

namespace TwoPass

/-! ## Tables in order -/

namespace SymbolTable

variable {table : SymbolTable}

/-- Names and addresses in the order of the table. -/
def entries (table : SymbolTable) : List (String × Int) :=
  table.map fun s => (s.name, s.address)

/-- A table that can be written and read back. -/
structure Legible (table : SymbolTable) : Prop where
  once : table.names.Nodup
  names : ∀ s ∈ table, SourceLine.isName s.name.toList = true
  addresses : ∀ s ∈ table, 0 ≤ s.address

theorem sorted_perm (table : SymbolTable) : table.sorted.Perm table :=
  List.mergeSort_perm table _

theorem mem_sorted {s : Symbol} : s ∈ table.sorted ↔ s ∈ table :=
  (sorted_perm table).mem_iff

theorem pairwise_sorted (h : table.names.Nodup) : table.sorted.Pairwise fun s t => s.name < t.name := by
  have hle : table.sorted.Pairwise fun s t => decide (s.name ≤ t.name) = true := by
    refine List.pairwise_mergeSort (fun s t u hst htu => ?_) (fun s t => ?_) table
    · exact decide_eq_true (String.le_trans (of_decide_eq_true hst) (of_decide_eq_true htu))
    · simpa using String.le_total s.name t.name
  have hne : table.sorted.Pairwise fun s t => s.name ≠ t.name := by
    have hperm : table.sorted.names.Perm table.names := (sorted_perm table).map _
    exact List.pairwise_map.mp (hperm.nodup_iff.mpr h)
  refine (hle.and hne).imp fun {s t} hst => String.not_le.mp fun hts => ?_
  exact hst.2 (String.le_antisymm (of_decide_eq_true hst.1) hts)

end SymbolTable

/-! ## Words -/

/-- Letters, digits and underscores only. -/
def IsWord (cs : List Char) : Prop :=
  ∀ c ∈ cs, SourceLine.isNameChar c = true

namespace IsWord

variable {cs : List Char}

theorem not_mem {c : Char} (h : IsWord cs) (hc : SourceLine.isNameChar c = false) : c ∉ cs := by
  intro hmem
  cases hc.symm.trans (h c hmem)

theorem trim_eq (h : IsWord cs) : Text.trim cs = cs :=
  Text.trim_eq_self (Text.isTrimmed_of_visible fun c hc => SourceLine.isBlank_of_isNameChar (h c hc))

theorem isLine (h : IsWord cs) : IsLine cs := by
  intro c hc
  exact Text.forall_ascii (P := fun c => SourceLine.isNameChar c = true → Text.isLineBreak c = false)
    (by decide +kernel) (SourceLine.toNat_lt_of_isNameChar (h c hc)) (h c hc)

end IsWord

namespace Symbol

variable {s : Symbol}

theorem isWord_name (h : SourceLine.isName s.name.toList = true) : IsWord s.name.toList :=
  SourceLine.isNameChar_of_isName h

/-- The address as it is written in rows. -/
def digits (s : Symbol) : List Char :=
  Text.hexNat 6 s.address.toNat

theorem isWord_digits (s : Symbol) : IsWord s.digits :=
  Text.isNameChar_hexNat 6 _

theorem fieldValue?_digits (s : Symbol) : Text.fieldValue? s.digits = some s.address.toNat :=
  Text.fieldValue?_hexNat 6 _

theorem hex_address (h : 0 ≤ s.address) : (Text.hex 6 s.address).toList = s.digits := by
  rw [Text.hex, String.toList_ofList, Text.hexChars_of_nonneg h, digits]

end Symbol

namespace Assembly

/-! ## The symbol file -/

/-- A row of the symbol file: name and address, with a single space between them. -/
def readRow? (row : List Char) : Option (String × Int) :=
  match Text.splitOn ' ' row with
  | [name, address] => (Text.fieldValue? address).map fun n : Nat => (String.ofList name, (n : Int))
  | _ => none

/-- The rows of a symbol file, which begins with two lines of comment. -/
def readSymbolFile? (text : String) : Option (List (String × Int)) :=
  match Text.splitLines text.toList with
  | first :: second :: rows =>
    if first.head? = some '#' && second.head? = some '#' then rows.mapM readRow? else none
  | _ => none

def fileRow (s : Symbol) : List Char :=
  s.name.toList ++ ' ' :: s.digits

theorem toList_fileSymbol {s : Symbol} (h : 0 ≤ s.address) : (fileSymbol s).toList = fileRow s ++ ['\n'] := by
  simp [fileSymbol, fileRow, Symbol.hex_address h]

theorem readRow?_fileRow {s : Symbol} (hname : SourceLine.isName s.name.toList = true) (haddress : 0 ≤ s.address) :
    readRow? (fileRow s) = some (s.name, s.address) := by
  have hsplit : Text.splitOn ' ' (fileRow s) = [s.name.toList, s.digits] := by
    rw [fileRow, Text.splitOn_append, Text.splitOn_of_notMem ((Symbol.isWord_name hname).not_mem (by decide)),
      Text.splitOn_of_notMem (s.isWord_digits.not_mem (by decide))]
    rfl
  simp [readRow?, hsplit, s.fieldValue?_digits, Int.toNat_of_nonneg haddress]

theorem isLine_fileRow {s : Symbol} (hname : SourceLine.isName s.name.toList = true) : IsLine (fileRow s) := by
  intro c hc
  rcases List.mem_append.mp hc with hc | hc
  · exact (Symbol.isWord_name hname).isLine c hc
  · rcases List.mem_cons.mp hc with rfl | hc
    · decide
    · exact s.isWord_digits.isLine c hc

theorem mapM_map_eq_some {α β γ : Type} {read? : β → Option γ} {write : α → β} {value : α → γ} {l : List α}
    (h : ∀ x ∈ l, read? (write x) = some (value x)) : (l.map write).mapM read? = some (l.map value) := by
  induction l with
  | nil => rfl
  | cons x rest ih => simp [List.mapM_cons, h x List.mem_cons_self, ih fun y hy => h y (List.mem_cons_of_mem x hy)]

theorem splitLines_symbolFile {a : Assembly} (h : a.symbols.Legible) :
    Text.splitLines a.symbolFile.toList
      = "# Symbol table".toList :: "# Generated by sicasm".toList :: a.symbols.sorted.map fileRow := by
  have hline {cs : List Char} (hcs : cs.all (!Text.isLineBreak ·) = true) : IsLine cs := by
    simpa [IsLine] using hcs
  have hfirst : IsLine "# Symbol table".toList := hline (by decide)
  have hsecond : IsLine "# Generated by sicasm".toList := hline (by decide)
  have hhead : "# Symbol table\n# Generated by sicasm\n".toList
      = "# Symbol table".toList ++ '\n' :: ("# Generated by sicasm".toList ++ ['\n']) := by
    decide
  have hjoin : (String.join (a.symbols.sorted.map fileSymbol)).toList
      = (a.symbols.sorted.map fileRow).flatMap (· ++ ['\n']) := by
    rw [String.toList_join, List.flatMap_map, List.flatMap_map]
    exact List.flatMap_congr fun s hs => toList_fileSymbol (h.addresses s (SymbolTable.mem_sorted.mp hs))
  have htext : a.symbolFile.toList = "# Symbol table".toList ++ '\n' :: ("# Generated by sicasm".toList ++ '\n' ::
      (a.symbols.sorted.map fileRow).flatMap (· ++ ['\n'])) := by
    unfold symbolFile
    rw [String.toList_append, hjoin, hhead]
    simp only [List.append_assoc, List.cons_append, List.nil_append]
  rw [htext, Text.splitLines_append hfirst, Text.splitLines_append hsecond, Text.splitLines_flatMap]
  intro row hrow
  obtain ⟨s, hs, rfl⟩ := List.mem_map.mp hrow
  exact isLine_fileRow (h.names s (SymbolTable.mem_sorted.mp hs))

theorem readSymbolFile?_symbolFile {a : Assembly} (h : a.symbols.Legible) :
    readSymbolFile? a.symbolFile = some a.symbols.sorted.entries := by
  rw [readSymbolFile?, splitLines_symbolFile h]
  refine Eq.trans (if_pos (by decide)) (mapM_map_eq_some fun s hs => ?_)
  have hs := SymbolTable.mem_sorted.mp hs
  exact readRow?_fileRow (h.names s hs) (h.addresses s hs)

/-! ## The table in the listing -/

/-- A row of the table in a listing: name and address about an equals sign, with blanks around both. -/
def readListed? (row : List Char) : Option (String × Int) :=
  match Text.splitOn '=' row with
  | [name, address] =>
    (Text.fieldValue? (Text.trim address)).map fun n : Nat => (String.ofList (Text.trim name), (n : Int))
  | _ => none

/-- The lines behind the last line that is equal to `heading`. -/
def behindLast (heading : List Char) (lines : List (List Char)) : List (List Char) :=
  (lines.reverse.takeWhile (· ≠ heading)).reverse

/-- The rows of the table in a listing, which has a heading with a rule below it. Text of the source may look like
the heading, so the last one counts. -/
def readListing? (text : String) : Option (List (String × Int)) :=
  ((behindLast "Symbol Table".toList (Text.splitOn '\n' text.toList)).drop 1).mapM readListed?

theorem behindLast_append {heading : List Char} {rest : List (List Char)} (h : heading ∉ rest)
    (front : List (List Char)) : behindLast heading (front ++ heading :: rest) = rest := by
  have hrest : ∀ line ∈ rest.reverse, decide (line ≠ heading) = true := by
    intro line hline
    rw [List.mem_reverse] at hline
    refine decide_eq_true ?_
    rintro rfl
    exact h hline
  rw [behindLast, List.reverse_append, List.reverse_cons, List.append_assoc, List.takeWhile_append_of_pos hrest,
    List.singleton_append, List.takeWhile_cons_of_neg (by simp), List.append_nil, List.reverse_reverse]

theorem toList_listSymbol {s : Symbol} (h : 0 ≤ s.address) :
    (listSymbol s).toList = (Text.padRight 20 s.name.toList ++ [' ']) ++ '=' :: (' ' :: s.digits) := by
  simp [listSymbol, Symbol.hex_address h]

theorem readListed?_listSymbol {s : Symbol} (hname : SourceLine.isName s.name.toList = true)
    (haddress : 0 ≤ s.address) : readListed? (listSymbol s).toList = some (s.name, s.address) := by
  have hword := Symbol.isWord_name hname
  have hleft : '=' ∉ Text.padRight 20 s.name.toList ++ [' '] := by
    simp [Text.padRight, List.mem_replicate, hword.not_mem (c := '=') (by decide)]
  have hright : '=' ∉ ' ' :: s.digits := by
    simp [s.isWord_digits.not_mem (c := '=') (by decide)]
  have hsplit : Text.splitOn '=' (listSymbol s).toList
      = [Text.padRight 20 s.name.toList ++ [' '], ' ' :: s.digits] := by
    rw [toList_listSymbol haddress, Text.splitOn_append, Text.splitOn_of_notMem hleft, Text.splitOn_of_notMem hright]
    rfl
  have hblank : ∀ c ∈ [' '], Text.isBlank c = true := Text.isBlank_of_mem_replicate (n := 1)
  have htrim : Text.trim (Text.padRight 20 s.name.toList ++ [' ']) = s.name.toList := by
    rw [Text.trim_append hblank, Text.trim_padRight, hword.trim_eq]
  have hdigits : Text.trim (' ' :: s.digits) = s.digits := s.isWord_digits.trim_eq
  simp [readListed?, hsplit, htrim, hdigits, s.fieldValue?_digits, Int.toNat_of_nonneg haddress]

theorem break_not_mem_listSymbol {s : Symbol} (hname : SourceLine.isName s.name.toList = true)
    (haddress : 0 ≤ s.address) : '\n' ∉ (listSymbol s).toList := by
  rw [toList_listSymbol haddress]
  simp [Text.padRight, List.mem_replicate, (Symbol.isWord_name hname).not_mem (c := '\n') (by decide),
    s.isWord_digits.not_mem (c := '\n') (by decide)]

/-- A listing ends with the heading, a rule and one line for each symbol. -/
theorem exists_front {a : Assembly} {text : String} (h : a.symbols.Legible) (ht : a.listing = .ok text) :
    ∃ front, Text.splitOn '\n' text.toList = front ++ "Symbol Table".toList :: (repeated '-' 30).toList ::
      a.symbols.sorted.map fun s => (listSymbol s).toList := by
  unfold listing at ht
  cases hlines : listStatements a.statements with
  | error fault =>
      rw [hlines] at ht
      cases ht
  | ok lines =>
      rw [hlines] at ht
      cases ht
      have htail : ∀ t ∈ "Symbol Table" :: repeated '-' 30 :: a.symbols.sorted.map listSymbol, '\n' ∉ t.toList := by
        intro t ht
        rcases List.mem_cons.mp ht with rfl | ht
        · decide
        · rcases List.mem_cons.mp ht with rfl | ht
          · decide
          · obtain ⟨s, hs, rfl⟩ := List.mem_map.mp ht
            have hs := SymbolTable.mem_sorted.mp hs
            exact break_not_mem_listSymbol (h.names s hs) (h.addresses s hs)
      have hparts : ∀ (head rows : List String) (rule : String),
          head ++ lines ++ ["", "Symbol Table", rule] ++ rows
            = (head ++ lines ++ [""]) ++ ("Symbol Table" :: rule :: rows) := by
        simp
      dsimp only
      rw [hparts, Text.splitOn_joinWith_append rfl htail (by simp) (by simp), List.map_cons, List.map_cons,
        List.map_map]
      exact ⟨_, rfl⟩

theorem readListing?_listing {a : Assembly} {text : String} (h : a.symbols.Legible) (ht : a.listing = .ok text) :
    readListing? text = some a.symbols.sorted.entries := by
  obtain ⟨front, hfront⟩ := exists_front h ht
  have hheading : "Symbol Table".toList ∉ (repeated '-' 30).toList ::
      a.symbols.sorted.map fun s => (listSymbol s).toList := by
    intro hmem
    rcases List.mem_cons.mp hmem with heq | hmem
    · exact absurd heq (by decide)
    · obtain ⟨s, hs, heq⟩ := List.mem_map.mp hmem
      have hsign : '=' ∈ "Symbol Table".toList := by
        rw [← heq, toList_listSymbol (h.addresses s (SymbolTable.mem_sorted.mp hs))]
        simp
      exact absurd hsign (by decide)
  rw [readListing?, hfront, behindLast_append hheading, List.drop_one, List.tail_cons]
  refine mapM_map_eq_some fun s hs => ?_
  have hs := SymbolTable.mem_sorted.mp hs
  exact readListed?_listSymbol (h.names s hs) (h.addresses s hs)

/-! ## After the first pass -/

theorem nodup_eraseDups : (l : List String) → l.eraseDups.Nodup
  | [] => List.nodup_nil
  | name :: rest => by
      rw [List.eraseDups_cons, List.nodup_cons]
      refine ⟨?_, nodup_eraseDups _⟩
      simp [List.mem_eraseDups]
termination_by l => l.length
decreasing_by exact Nat.lt_succ_of_le (List.length_filter_le _ _)

/-- The table of a first pass holds labels, each once, with addresses of statements. -/
theorem legible_of_pass1 {settings : Settings} {file : String} {lines : List String} {ok : Bool} {a₀ a : Assembly}
    (h₀ : create settings file = .ok a₀) (h₁ : pass1 lines a₀ = .ok ok a) : a.symbols.Legible := by
  have hrecorded := (placed_of_pass1 h₀ h₁).recorded
  have hloadable : Loadable a := (preserves_pass1 lines a₀ (loadable_create h₀)).of_ok h₁
  refine ⟨?_, fun s hs => ?_, fun s hs => ?_⟩
  · rw [hrecorded.names]
    exact nodup_eraseDups _
  · exact isName_of_mem_names h₀ h₁ (List.mem_map_of_mem hs)
  · obtain ⟨t, ht, haddress, -⟩ := hrecorded.first s hs
    rw [haddress]
    exact (hloadable.statements t (List.mem_of_find?_eq_some ht)).2

/-- After a first pass the symbol file and the listing are read back as the same names and addresses, which are the
whole table in the order of the names. -/
theorem pass1_symbols_read_back {settings : Settings} {file : String} {lines : List String} {ok : Bool}
    {a₀ a : Assembly} (h₀ : create settings file = .ok a₀) (h₁ : pass1 lines a₀ = .ok ok a) :
    ∃ entries text, readSymbolFile? a.symbolFile = some entries ∧
      entries.Pairwise (fun x y => x.1 < y.1) ∧ entries.Perm a.symbols.entries ∧
      a.listing = .ok text ∧ readListing? text = some entries := by
  have hlegible := legible_of_pass1 h₀ h₁
  have hloadable : Loadable a := (preserves_pass1 lines a₀ (loadable_create h₀)).of_ok h₁
  obtain ⟨text, htext⟩ := exists_listing fun s hs => (hloadable.statements s hs).1
  refine ⟨a.symbols.sorted.entries, text, readSymbolFile?_symbolFile hlegible, ?_, ?_, htext,
    readListing?_listing hlegible htext⟩
  · exact List.pairwise_map.mpr (SymbolTable.pairwise_sorted hlegible.once)
  · exact (SymbolTable.sorted_perm _).map _

/-- Names out of order, one of them defined twice, and an address of seven digits. -/
theorem pass1_symbols_read_back_three :
    let lines := ["P       START  FFFFFFF", "Zeta    WORD   1", "alpha   RSUB", "ZETA    RSUB"]
    ∃ a₀ ok a, create {} "three.asm" = .ok a₀ ∧ pass1 lines a₀ = .ok ok a ∧
      ∃ entries text, readSymbolFile? a.symbolFile = some entries ∧
        entries.Pairwise (fun x y => x.1 < y.1) ∧
        entries.Perm [("P", 0xFFFFFFF), ("ZETA", 0xFFFFFFF), ("ALPHA", 0x10000002)] ∧
        a.listing = .ok text ∧ readListing? text = some entries := by
  intro lines
  obtain ⟨a₀, h₀⟩ : ∃ a₀, create {} "three.asm" = .ok a₀ := ⟨_, rfl⟩
  have hrun : (pass1 lines).value? a₀ = some false ∧ ((pass1 lines).after a₀).symbols.entries
      = [("P", 0xFFFFFFF), ("ZETA", 0xFFFFFFF), ("ALPHA", 0x10000002)] := by
    cases h₀
    decide +kernel
  have h₁ := TwoPass.Action.eq_ok_of_value? hrun.1
  refine ⟨a₀, false, _, h₀, h₁, ?_⟩
  rw [← hrun.2]
  exact pass1_symbols_read_back h₀ h₁

end Assembly

end TwoPass
