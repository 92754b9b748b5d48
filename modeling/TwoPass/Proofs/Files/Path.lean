import TwoPass.Files.Path

/-!
Plain paths. A path is laid out from its root and its names, and both can be read off it again; so the plain form
of a path is plain, and so is the path beside a file with another ending, which differs from that of the file in the
ending of the last name. No character comes into a path that was not in it, apart from slashes and points.
-/

namespace TwoPass

/-! ## Pieces of a text -/

namespace Text

variable {separator c : Char} {cs piece : List Char}

theorem mem_of_mem_splitOn (h : piece ∈ splitOn separator cs) (hc : c ∈ piece) : c ∈ cs ∧ c ≠ separator := by
  induction cs generalizing piece with
  | nil =>
      rw [List.mem_singleton.mp h] at hc
      cases hc
  | cons d rest ih =>
      unfold splitOn at h
      split at h
      · rcases List.mem_cons.mp h with rfl | h
        · cases hc
        · exact ⟨List.mem_cons_of_mem d (ih h hc).1, (ih h hc).2⟩
      · rename_i hd
        split at h
        · rw [List.mem_singleton.mp h, List.mem_singleton] at hc
          subst hc
          exact ⟨List.mem_cons_self, hd⟩
        · rename_i first others hs
          rcases List.mem_cons.mp h with rfl | h
          · rcases List.mem_cons.mp hc with rfl | hc
            · exact ⟨List.mem_cons_self, hd⟩
            · have hrest := ih (hs ▸ List.mem_cons_self) hc
              exact ⟨List.mem_cons_of_mem d hrest.1, hrest.2⟩
          · have hrest := ih (hs ▸ List.mem_cons_of_mem first h) hc
            exact ⟨List.mem_cons_of_mem d hrest.1, hrest.2⟩

theorem splitOn_ne_nil (cs : List Char) : splitOn separator cs ≠ [] := by
  cases cs with
  | nil => simp [splitOn]
  | cons c rest =>
      rw [splitOn]
      split
      · simp
      · split <;> simp

theorem splitOn_append (cs rest : List Char) :
    splitOn separator (cs ++ separator :: rest) = splitOn separator cs ++ splitOn separator rest := by
  induction cs with
  | nil => simp [splitOn]
  | cons c cs ih =>
      rw [List.cons_append, splitOn, splitOn, ih]
      split
      · rfl
      · cases h : splitOn separator cs with
        | nil => exact absurd h (splitOn_ne_nil cs)
        | cons piece pieces => rfl

theorem splitOn_of_notMem (h : separator ∉ cs) : splitOn separator cs = [cs] := by
  induction cs with
  | nil => rfl
  | cons d rest ih =>
      obtain ⟨hd, hrest⟩ : separator ≠ d ∧ separator ∉ rest := by simpa using h
      rw [splitOn, if_neg (Ne.symm hd), ih hrest]

theorem joinWith_cons (between text : String) {rest : List String} (h : rest ≠ []) :
    joinWith between (text :: rest) = text ++ between ++ joinWith between rest := by
  cases rest with
  | nil => exact absurd rfl h
  | cons next rest => rfl

theorem joinWith_append (between : String) {xs ys : List String} (hx : xs ≠ []) (hy : ys ≠ []) :
    joinWith between (xs ++ ys) = joinWith between xs ++ between ++ joinWith between ys := by
  induction xs with
  | nil => exact absurd rfl hx
  | cons x rest ih =>
      rw [List.cons_append, joinWith_cons between x (List.append_ne_nil_of_right_ne_nil rest hy)]
      by_cases hrest : rest = []
      · subst hrest
        rfl
      · rw [ih hrest, joinWith_cons between x hrest]
        simp only [String.append_assoc]

theorem splitOn_joinWith {between : String} {texts : List String} (hb : between.toList = [separator])
    (h : ∀ t ∈ texts, separator ∉ t.toList) (hne : texts ≠ []) :
    splitOn separator (joinWith between texts).toList = texts.map String.toList := by
  induction texts with
  | nil => exact absurd rfl hne
  | cons text rest ih =>
      have htext := h text List.mem_cons_self
      by_cases hrest : rest = []
      · subst hrest
        exact splitOn_of_notMem htext
      · have hcs : (joinWith between (text :: rest)).toList
            = text.toList ++ separator :: (joinWith between rest).toList := by
          simp [joinWith_cons between text hrest, hb]
        rw [hcs, splitOn_append, splitOn_of_notMem htext, ih (fun t ht => h t (List.mem_cons_of_mem text ht)) hrest]
        rfl

/-- The last texts stand at the end, whatever the others hold. -/
theorem splitOn_joinWith_append {between : String} {xs ys : List String} (hb : between.toList = [separator])
    (h : ∀ t ∈ ys, separator ∉ t.toList) (hx : xs ≠ []) (hy : ys ≠ []) :
    splitOn separator (joinWith between (xs ++ ys)).toList
      = splitOn separator (joinWith between xs).toList ++ ys.map String.toList := by
  rw [joinWith_append between hx hy, String.toList_append, String.toList_append, hb, List.append_assoc,
    List.singleton_append, splitOn_append, splitOn_joinWith hb h hy]

theorem mem_joinWith {between : String} {texts : List String} (h : c ∈ (joinWith between texts).toList) :
    c ∈ between.toList ∨ ∃ t ∈ texts, c ∈ t.toList := by
  induction texts with
  | nil => simp [joinWith] at h
  | cons text rest ih =>
      by_cases hrest : rest = []
      · subst hrest
        exact .inr ⟨text, List.mem_cons_self, h⟩
      · rw [joinWith_cons between text hrest, String.toList_append, String.toList_append, List.mem_append,
          List.mem_append] at h
        rcases h with (h | h) | h
        · exact .inr ⟨text, List.mem_cons_self, h⟩
        · exact .inl h
        · rcases ih h with h | ⟨t, ht, h⟩
          · exact .inl h
          · exact .inr ⟨t, List.mem_cons_of_mem text ht, h⟩

end Text

namespace Path

/-! ## Names -/

/-- A name that says something. -/
structure IsName (name : String) : Prop where
  nonempty : name ≠ ""
  not_point : name ≠ "."
  no_slash : '/' ∉ name.toList

/-- What an absolute path begins with, or nothing. -/
def IsRoot (text : String) : Prop :=
  text = "" ∨ text = "/" ∨ text = "//"

variable {path name : String} {c : Char}

theorem isRoot_root (path : String) : IsRoot (root path) := by
  unfold root
  split
  · exact .inr (.inl rfl)
  · exact .inr (.inr rfl)
  · exact .inr (.inl rfl)
  · exact .inl rfl

theorem mem_plainNames (h : name ∈ plainNames path) (hc : c ∈ name.toList) : c ∈ path.toList ∧ c ≠ '/' := by
  obtain ⟨piece, hpiece, rfl⟩ := List.mem_map.mp (List.mem_filter.mp h).1
  rw [String.toList_ofList] at hc
  exact Text.mem_of_mem_splitOn hpiece hc

theorem isName_of_mem (h : name ∈ plainNames path) : IsName name := by
  obtain ⟨hempty, hpoint⟩ : name ≠ "" ∧ name ≠ "." := by simpa using (List.mem_filter.mp h).2
  exact ⟨hempty, hpoint, fun hc => (mem_plainNames h hc).2 rfl⟩

/-! ## Layout -/

/-- A path from its root and names. -/
def laid (root : String) (names : List String) : String :=
  root ++ Text.joinWith "/" names

variable {first : String} {names : List String}

theorem components_joinWith (h : ∀ n ∈ names, IsName n) (hne : names ≠ []) :
    (Text.splitOn '/' (Text.joinWith "/" names).toList).map String.ofList = names := by
  rw [Text.splitOn_joinWith rfl (fun n hn => (h n hn).no_slash) hne, List.map_map]
  simp [Function.comp_def]

theorem plainNames_laid (hfirst : IsRoot first) (h : ∀ n ∈ names, IsName n) :
    plainNames (laid first names) = names := by
  by_cases hne : names = []
  · subst hne
    rcases hfirst with rfl | rfl | rfl <;> decide +kernel
  · have hkept : (names.filter fun name => name ≠ "" && name ≠ ".") = names := by
      refine List.filter_eq_self.mpr fun n hn => ?_
      simp [(h n hn).nonempty, (h n hn).not_point]
    have hslash (cs : List Char) : Text.splitOn '/' ('/' :: cs) = [] :: Text.splitOn '/' cs :=
      Text.splitOn_append [] cs
    rw [plainNames, components, laid, String.toList_append]
    rcases hfirst with rfl | rfl | rfl
    · rw [show "".toList = [] from rfl, List.nil_append, components_joinWith h hne, hkept]
    · rw [show "/".toList = ['/'] from rfl, List.singleton_append, hslash, List.map_cons, components_joinWith h hne,
        List.filter_cons_of_neg (by decide), hkept]
    · rw [show "//".toList = ['/', '/'] from rfl, List.cons_append, List.singleton_append, hslash, hslash,
        List.map_cons, List.map_cons, components_joinWith h hne, List.filter_cons_of_neg (by decide),
        List.filter_cons_of_neg (by decide), hkept]

theorem laid_ne_empty (hfirst : IsRoot first) (h : ∀ n ∈ names, IsName n) (hne : names ≠ []) :
    laid first names ≠ "" := by
  intro hempty
  have hnames := plainNames_laid hfirst h
  rw [hempty, show plainNames "" = [] by decide +kernel] at hnames
  exact hne hnames.symm

theorem head_joinWith (h : IsName name) (rest : List String) :
    ∃ c cs, (Text.joinWith "/" (name :: rest)).toList = c :: cs ∧ c ≠ '/' := by
  obtain ⟨c, cs, hcs⟩ : ∃ c cs, name.toList = c :: cs := by
    refine List.exists_cons_of_ne_nil fun hnil => h.nonempty ?_
    rw [← String.ofList_toList (s := name), hnil]
  have hc : c ≠ '/' := by
    rintro rfl
    exact h.no_slash (hcs ▸ List.mem_cons_self)
  by_cases hrest : rest = []
  · subst hrest
    exact ⟨c, cs, hcs, hc⟩
  · refine ⟨c, cs ++ ("/" ++ Text.joinWith "/" rest).toList, ?_, hc⟩
    rw [Text.joinWith_cons "/" name hrest, String.append_assoc, String.toList_append, hcs, List.cons_append]

theorem root_laid (hfirst : IsRoot first) (h : ∀ n ∈ names, IsName n) : root (laid first names) = first := by
  cases names with
  | nil => rcases hfirst with rfl | rfl | rfl <;> decide +kernel
  | cons name rest =>
      obtain ⟨c, cs, hcs, hc⟩ := head_joinWith (h name List.mem_cons_self) rest
      unfold root laid
      rw [String.toList_append, hcs]
      rcases hfirst with rfl | rfl | rfl
      · simp [hc]
      · simp [hc]
      · simp [hc]

theorem plain_laid (hfirst : IsRoot first) (h : ∀ n ∈ names, IsName n) (hne : laid first names ≠ "") :
    plain (laid first names) = laid first names := by
  rw [plain, root_laid hfirst h, plainNames_laid hfirst h]
  exact if_neg (by simpa [laid] using hne)

theorem plain_eq (path : String) : plain path = "." ∨
    (plain path = laid (root path) (plainNames path) ∧ plain path ≠ "") := by
  unfold plain
  dsimp only
  split
  · exact .inl rfl
  · rename_i hne
    exact .inr ⟨rfl, by simpa using hne⟩

theorem plain_plain (path : String) : plain (plain path) = plain path := by
  rcases plain_eq path with h | ⟨h, hne⟩
  · rw [h]
    decide +kernel
  · rw [h] at hne ⊢
    exact plain_laid (isRoot_root path) (fun _ => isName_of_mem) hne

/-! ## Another ending -/

theorem mem_stem {cs : List Char} (h : c ∈ stem cs) : c ∈ cs := by
  unfold stem at h
  dsimp only at h
  split at h
  · exact h
  · exact List.mem_reverse.mp (List.mem_of_mem_drop (List.mem_reverse.mp h))

theorem isName_withEnding {ending : String} (h : IsName name) (hlength : 2 ≤ ending.length)
    (hslash : '/' ∉ ending.toList) : IsName (String.ofList (stem name.toList) ++ ending) := by
  have hlong : 2 ≤ (String.ofList (stem name.toList) ++ ending).length := by
    rw [String.length_append]
    omega
  refine ⟨fun hempty => ?_, fun hpoint => ?_, fun hc => ?_⟩
  · rw [hempty] at hlong
    simp at hlong
  · rw [hpoint] at hlong
    revert hlong
    decide
  · rw [String.toList_append, String.toList_ofList, List.mem_append] at hc
    exact hc.elim (fun hc => h.no_slash (mem_stem hc)) hslash

theorem withEnding_eq (path ending : String) : withEnding path ending = plain path ∨
    ∃ name above, (plainNames path).reverse = name :: above ∧ withEnding path ending =
      laid (root path) ((String.ofList (stem name.toList) ++ ending) :: above).reverse := by
  unfold withEnding
  split
  · exact .inl rfl
  · rename_i name above h
    exact .inr ⟨name, above, h, rfl⟩

theorem plain_withEnding (path : String) {ending : String} (hlength : 2 ≤ ending.length)
    (hslash : '/' ∉ ending.toList) : plain (withEnding path ending) = withEnding path ending := by
  rcases withEnding_eq path ending with h | ⟨name, above, hnames, h⟩
  · rw [h, plain_plain]
  · rw [h]
    have hmem {n : String} (hn : n ∈ name :: above) : n ∈ plainNames path := by
      rw [← List.mem_reverse, hnames]
      exact hn
    have hall : ∀ n ∈ ((String.ofList (stem name.toList) ++ ending) :: above).reverse, IsName n := by
      intro n hn
      rcases List.mem_cons.mp (List.mem_reverse.mp hn) with rfl | hn
      · exact isName_withEnding (isName_of_mem (hmem List.mem_cons_self)) hlength hslash
      · exact isName_of_mem (hmem (List.mem_cons_of_mem name hn))
    exact plain_laid (isRoot_root path) hall (laid_ne_empty (isRoot_root path) hall (by simp))

/-- The beginning of a path up to its last name. -/
def IsFront (front : String) : Prop :=
  front = "" ∨ ∃ text, front = text ++ "/"

/-- The second path is the first with `ending` in the place of the ending of its last name, or behind it if the name
has no ending. A point with which a name begins or ends does not begin an ending. -/
inductive Renamed (ending : String) : String → String → Prop
  | replaced (front stem own : String) : IsFront front → '/' ∉ stem.toList → '/' ∉ own.toList → stem ≠ "" → own ≠ "" →
      '.' ∉ own.toList → Renamed ending (front ++ (stem ++ "." ++ own)) (front ++ (stem ++ ending))
  | added (front name : String) : IsFront front → '/' ∉ name.toList → name ≠ "" →
      (∀ stem own, name = stem ++ "." ++ own → stem ≠ "" → own ≠ "" → '.' ∈ own.toList) →
      Renamed ending (front ++ name) (front ++ (name ++ ending))

theorem takeWhile_reverse {before behind : List Char} (h : '.' ∉ behind) :
    (before ++ '.' :: behind).reverse.takeWhile (· ≠ '.') = behind.reverse := by
  have hall : ∀ c ∈ behind.reverse, decide (c ≠ '.') = true := by
    intro c hc
    refine decide_eq_true fun hpoint => h ?_
    rwa [← hpoint, ← List.mem_reverse]
  rw [List.reverse_append, List.reverse_cons, List.append_assoc, List.takeWhile_append_of_pos hall]
  simp

/-- The last point is the one that counts. -/
theorem stem_append (before : List Char) {behind : List Char} (h : '.' ∉ behind) :
    stem (before ++ '.' :: behind) =
      if behind = [] ∨ before = [] then before ++ '.' :: behind else before := by
  have hdrop : (behind.reverse ++ ('.' :: before.reverse)).drop (behind.reverse.length + 1) = before.reverse := by
    rw [List.drop_append, List.drop_eq_nil_of_le (by omega)]
    simp
  unfold stem
  rw [takeWhile_reverse h, List.reverse_append, List.reverse_cons, List.append_assoc, List.singleton_append]
  dsimp only
  rw [hdrop]
  simp

theorem stem_cases (cs : List Char) :
    (∃ before behind, cs = before ++ '.' :: behind ∧ before ≠ [] ∧ behind ≠ [] ∧ '.' ∉ behind ∧ stem cs = before) ∨
      stem cs = cs ∧ ∀ before behind, cs = before ++ '.' :: behind → before ≠ [] → behind ≠ [] → '.' ∈ behind := by
  by_cases hpoint : '.' ∈ cs
  · obtain ⟨behind, before, hsplit, hlast⟩ := List.eq_append_cons_of_mem (List.mem_reverse.mpr hpoint)
    have hcs : cs = before.reverse ++ '.' :: behind.reverse := by
      rw [← List.reverse_reverse cs, hsplit]
      simp
    have hlast' : '.' ∉ behind.reverse := by simpa using hlast
    have hstem := stem_append before.reverse hlast'
    rw [← hcs] at hstem
    by_cases hcounts : behind.reverse = [] ∨ before.reverse = []
    · refine .inr ⟨by rw [hstem, if_pos hcounts, hcs], ?_⟩
      intro before' behind' hcs' hbefore hbehind
      -- Otherwise this would be the last point as well.
      refine Classical.byContradiction fun hmore => ?_
      have hsame : behind'.reverse = behind.reverse.reverse := by
        rw [← takeWhile_reverse hmore, ← hcs', hcs, takeWhile_reverse hlast']
      rw [List.reverse_reverse] at hsame
      have hfront : before' = before.reverse := by
        have heq := hcs'.symm.trans hcs
        rw [← hsame, List.reverse_reverse] at heq
        exact List.append_cancel_right heq
      rcases hcounts with hnil | hnil
      · exact hbehind (by rw [← List.reverse_reverse behind', hsame, hnil])
      · exact hbefore (hfront.trans hnil)
    · rw [if_neg hcounts] at hstem
      exact .inl ⟨_, _, hcs, fun h => hcounts (.inr h), fun h => hcounts (.inl h), hlast', hstem⟩
  · refine .inr ⟨?_, fun before behind hcs => absurd (by simp [hcs]) hpoint⟩
    have hall : ∀ c ∈ cs.reverse, decide (c ≠ '.') = true := by
      intro c hc
      refine decide_eq_true fun hc' => hpoint ?_
      rwa [← hc', ← List.mem_reverse]
    have hwhole : (cs.reverse ++ []).takeWhile (· ≠ '.') = cs.reverse ++ [] := List.takeWhile_append_of_pos hall
    rw [List.append_nil] at hwhole
    unfold stem
    rw [hwhole]
    simp

/-- All names but the last are in front of it. -/
theorem exists_front (hfirst : IsRoot first) (names : List String) :
    ∃ front, IsFront front ∧ ∀ name, laid first (names ++ [name]) = front ++ name := by
  by_cases hne : names = []
  · subst hne
    refine ⟨first, ?_, fun name => rfl⟩
    rcases hfirst with rfl | rfl | rfl
    · exact .inl rfl
    · exact .inr ⟨"", rfl⟩
    · exact .inr ⟨"/", rfl⟩
  · refine ⟨first ++ Text.joinWith "/" names ++ "/", .inr ⟨_, rfl⟩, fun name => ?_⟩
    rw [laid, Text.joinWith_append "/" hne (List.cons_ne_nil name []), Text.joinWith]
    simp only [String.append_assoc]

theorem renamed_name {front ending : String} (hfront : IsFront front) (h : IsName name) :
    Renamed ending (front ++ name) (front ++ (String.ofList (stem name.toList) ++ ending)) := by
  have hname (before behind : List Char) (hcs : name.toList = before ++ '.' :: behind) :
      name = String.ofList before ++ "." ++ String.ofList behind := by
    rw [← String.toList_inj]
    simpa using hcs
  rcases stem_cases name.toList with ⟨before, behind, hcs, hbefore, hbehind, hlast, hstem⟩ | ⟨hstem, hnone⟩
  · have hslash : '/' ∉ before ++ '.' :: behind := hcs ▸ h.no_slash
    rw [hstem, hname before behind hcs]
    refine .replaced front _ _ hfront ?_ ?_ ?_ ?_ ?_
    · simpa using fun hc => hslash (List.mem_append_left _ hc)
    · simpa using fun hc => hslash (List.mem_append_right _ (List.mem_cons_of_mem _ hc))
    · simpa [← String.toList_inj] using hbefore
    · simpa [← String.toList_inj] using hbehind
    · simpa using hlast
  · rw [hstem, String.ofList_toList]
    refine .added front name hfront h.no_slash h.nonempty fun stem own hcut hs ho => ?_
    refine hnone stem.toList own.toList (by rw [hcut]; simp) ?_ ?_
    · exact fun hnil => hs (String.toList_inj.mp hnil)
    · exact fun hnil => ho (String.toList_inj.mp hnil)

theorem renamed_withEnding (ending : String) (h : plainNames path ≠ []) :
    Renamed ending (plain path) (withEnding (plain path) ending) := by
  have hroot := isRoot_root path
  have hnames : ∀ n ∈ plainNames path, IsName n := fun _ => isName_of_mem
  have hplain : plain path = laid (root path) (plainNames path) :=
    if_neg (by simpa [laid] using laid_ne_empty hroot hnames h)
  obtain ⟨above, name, hlast⟩ : ∃ above name, plainNames path = above ++ [name] :=
    ⟨_, _, (List.dropLast_concat_getLast h).symm⟩
  obtain ⟨front, hfront, hlaid⟩ := exists_front hroot above
  have hwith : withEnding (plain path) ending = front ++ (String.ofList (stem name.toList) ++ ending) := by
    rw [withEnding, hplain, plainNames_laid hroot hnames, root_laid hroot hnames, hlast, List.reverse_append,
      List.reverse_singleton, List.singleton_append]
    dsimp only
    rw [List.reverse_cons, List.reverse_reverse]
    exact hlaid _
  rw [hwith, hplain, hlast, hlaid]
  exact renamed_name hfront (hnames name (by rw [hlast]; simp))

/-! ## Null characters -/

theorem mem_laid (hfirst : IsRoot first) (h : c ∈ (laid first names).toList) :
    c = '/' ∨ ∃ n ∈ names, c ∈ n.toList := by
  rw [laid, String.toList_append, List.mem_append] at h
  rcases h with h | h
  · rcases hfirst with rfl | rfl | rfl
    · cases h
    · exact .inl (by simpa using h)
    · exact .inl (by simpa using h)
  · exact (Text.mem_joinWith h).imp_left fun h => by simpa using h

theorem hasNull_eq_false_iff : hasNull path = false ↔ '\x00' ∉ path.toList := by
  simp [hasNull]

theorem hasNull_plain (h : hasNull path = false) : hasNull (plain path) = false := by
  rcases plain_eq path with hp | ⟨hp, -⟩
  · rw [hp]
    decide
  · rw [hp, hasNull_eq_false_iff]
    intro hc
    rcases mem_laid (isRoot_root path) hc with hc | ⟨n, hn, hc⟩
    · revert hc
      decide
    · exact hasNull_eq_false_iff.mp h (mem_plainNames hn hc).1

theorem hasNull_withEnding {ending : String} (h : hasNull path = false) (hending : hasNull ending = false) :
    hasNull (withEnding path ending) = false := by
  rcases withEnding_eq path ending with hw | ⟨name, above, hnames, hw⟩
  · rw [hw]
    exact hasNull_plain h
  · rw [hw, hasNull_eq_false_iff]
    intro hc
    rcases mem_laid (isRoot_root path) hc with hc | ⟨n, hn, hc⟩
    · revert hc
      decide
    · have hclean {n : String} (hn : n ∈ name :: above) (hc : '\x00' ∈ n.toList) : False := by
        rw [← hnames, List.mem_reverse] at hn
        exact hasNull_eq_false_iff.mp h (mem_plainNames hn hc).1
      rcases List.mem_cons.mp (List.mem_reverse.mp hn) with rfl | hn
      · rw [String.toList_append, String.toList_ofList, List.mem_append] at hc
        rcases hc with hc | hc
        · exact hclean List.mem_cons_self (mem_stem hc)
        · exact hasNull_eq_false_iff.mp hending hc
      · exact hclean (List.mem_cons_of_mem name hn) hc

end Path

end TwoPass
