import TwoPass.Files.Store

/-!
What writing does to a store of files. A path leads to the same place before and after, as far as it leads to a
place at all; the place that was written to has the new text, and all others have what they had. So a row of
writes keeps to the places it names, and if these are different each has its own text in the end.
-/

namespace TwoPass.FileStore

/-! ## Nodes -/

variable {store : FileStore} {place other : List String} {node : FileNode} {content : String}

theorem lookup_replace (entries : Entries) (place other : List String) (node : FileNode) :
    (entries.map fun entry => if entry.1 = place then (place, node) else entry).lookup other =
      if other = place then (entries.lookup other).map fun _ => node else entries.lookup other := by
  induction entries with
  | nil => simp
  | cons entry rest ih =>
      obtain ⟨key, value⟩ := entry
      by_cases hkey : key = place
      · subst hkey
        by_cases hother : other = key
        · simp [hother]
        · simp only [hother, if_false] at ih
          simp [List.lookup_cons, beq_false_of_ne hother, hother, ih]
      · by_cases hother : other = key
        · simp [hkey, hother]
        · simp [List.lookup_cons, beq_false_of_ne hother, hkey, ih]

theorem lookup_put (store : FileStore) (place other : List String) (node : FileNode) :
    (store.put place node).entries.lookup other =
      if other = place then some node else store.entries.lookup other := by
  unfold put
  dsimp only
  split
  · rename_i hsome
    rw [lookup_replace]
    by_cases hother : other = place
    · obtain ⟨old, hold⟩ := Option.isSome_iff_exists.mp hsome
      simp [hother, hold]
    · simp [hother]
  · rename_i hnone
    rw [List.lookup_append]
    by_cases hother : other = place
    · simp [hother, Option.not_isSome_iff_eq_none.mp hnone]
    · simp [List.lookup_cons, beq_false_of_ne hother, hother]

theorem node?_put (h : store.isStanding place = false) :
    (store.put place node).node? other = if other = place then some node else store.node? other := by
  have hstanding : (store.put place node).isStanding other = store.isStanding other := rfl
  unfold node?
  rw [lookup_put, hstanding]
  by_cases hother : other = place
  · simp [hother, h]
  · simp [hother]

/-- A text can be put here: there is one that may be lost, or a directory for a new one. -/
def IsWritable (store : FileStore) (place : List String) : Prop :=
  (store.node? place = none ∧ store.node? (above place) = some .directory) ∨
    ∃ content, store.node? place = some (.text content)

theorem IsWritable.not_standing (h : store.IsWritable place) : store.isStanding place = false := by
  rw [Bool.eq_false_iff]
  intro hstanding
  simp [IsWritable, node?, hstanding] at h

/-- A new text is a directory as little as what was there before. -/
theorem IsWritable.directory_iff (h : store.IsWritable place) :
    (store.put place (.text content)).node? other = some .directory ↔ store.node? other = some .directory := by
  rw [node?_put h.not_standing]
  by_cases hother : other = place
  · subst hother
    rcases h with ⟨h, -⟩ | ⟨_, h⟩ <;> simp [h]
  · rw [if_neg hother]

/-! ## Places -/

/-- The place itself, whether or not something is there. -/
def Place.place? : Place → Option (List String)
  | .found place _ | .vacant place => some place
  | .noWay | .blocked | .tooLong => none

def Place.node? : Place → Option FileNode
  | .found _ node => some node
  | _ => none

/-- The place that a path leads to. Paths name the same file if they lead to the same place. -/
def place? (store : FileStore) (path : String) : Option (List String) :=
  (store.locate path).place?

theorem arrive_node? (here : List String) : (store.arrive here).node? = (store.arrive here).place?.bind store.node? := by
  unfold arrive
  cases h : store.node? here with
  | none =>
      dsimp only
      split
      · exact h.symm
      · rfl
  | some node => exact h.symm

theorem walk_node? (here rest : List String) :
    (store.walk here rest).node? = (store.walk here rest).place?.bind store.node? := by
  induction rest generalizing here with
  | nil => exact arrive_node? here
  | cons name rest ih =>
      rw [walk]
      split
      · rfl
      · rfl
      · rfl
      · split
        · exact ih here
        · split
          · exact ih (above here)
          · split
            · rfl
            · exact ih (store.settle (here ++ [name]))

theorem arrive_put (h : store.IsWritable place) (here : List String) :
    ((store.put place (.text content)).arrive here).place? = (store.arrive here).place? := by
  unfold arrive
  rw [node?_put h.not_standing]
  by_cases hhere : here = place
  · subst hhere
    rcases h with ⟨h, habove⟩ | ⟨_, h⟩
    · simp [h, habove, Place.place?]
    · simp [h, Place.place?]
  · simp only [hhere, if_false, h.directory_iff]

/-- A text on the way stops a walk as well as nothing does. -/
theorem walk_put (h : store.IsWritable place) (here rest : List String) :
    ((store.put place (.text content)).walk here rest).place? = (store.walk here rest).place? := by
  have hput (here : List String) : (store.put place (.text content)).node? here =
      if here = place then some (.text content) else store.node? here := node?_put h.not_standing
  induction rest generalizing here with
  | nil => exact arrive_put h here
  | cons name rest ih =>
      rw [walk, walk, hput]
      by_cases hhere : here = place
      · -- Names are left over, and neither nothing nor a text has room for them.
        subst hhere
        rcases h with ⟨h, -⟩ | ⟨_, h⟩ <;> simp [h, Place.place?]
      · simp only [hhere, if_false]
        split
        · rfl
        · rfl
        · rfl
        · split
          · exact ih here
          · split
            · exact ih (above here)
            · split
              · rfl
              · exact ih (store.settle (here ++ [name]))

theorem look?_eq_node? (store : FileStore) (path : String) : store.look? path = (store.locate path).node? := by
  unfold look?
  cases store.locate path <;> rfl

/-- What is at a path is what is at its place. -/
theorem look?_eq (store : FileStore) (path : String) : store.look? path = (store.place? path).bind store.node? := by
  rw [look?_eq_node?]
  unfold place? locate follow
  split
  · rfl
  · split
    · rfl
    · exact walk_node? _ _
    · exact walk_node? _ _

theorem walk_blank {here names : List String} (hhere : store.node? here = some .directory)
    (h : ∀ name ∈ names, name = "" ∨ name = ".") : store.walk here names = .found here .directory := by
  induction names with
  | nil => rw [walk, arrive, hhere]
  | cons name rest ih =>
      have hblank : (name = "" || name = ".") = true := by simpa using h name List.mem_cons_self
      rw [walk, hhere]
      dsimp only
      rw [if_pos hblank]
      exact ih fun name hname => h name (List.mem_cons_of_mem _ hname)

/-- A path to anything but a directory has a name. -/
theorem plainNames_ne_nil {path : String} (h : store.look? path = some node) (hnode : node ≠ .directory) :
    Path.plainNames path ≠ [] := by
  intro hnil
  have hblank : ∀ name ∈ Path.components path, name = "" ∨ name = "." := by
    intro name hname
    have hkept := List.filter_eq_nil_iff.mp hnil name hname
    simpa [Decidable.or_iff_not_imp_left] using hkept
  have hwalk {here : List String} (hhere : here.isPrefixOf store.home = true) :
      store.walk here (Path.components path) = .found here .directory :=
    walk_blank (if_pos hhere) hblank
  rw [look?_eq_node?] at h
  unfold locate follow at h
  split at h
  · cases h
  · split at h
    · cases h
    · rw [hwalk rfl] at h
      exact hnode (Option.some.inj h).symm
    · rw [hwalk (by simp)] at h
      exact hnode (Option.some.inj h).symm

theorem place?_put (h : store.IsWritable place) (path : String) :
    (store.put place (.text content)).place? path = store.place? path := by
  unfold place? locate follow
  split
  · rfl
  · split
    · rfl
    · exact walk_put h _ _
    · exact walk_put h _ _

/-! ## Writing -/

variable {path : String}

/-- A path that asks for a directory leads for writing to nothing but a directory. -/
theorem locate_of_locateTarget {target : Place} (htarget : store.locateTarget path = target)
    (hplace : target.place? = some place) (hnode : target.node? ≠ some .directory) : store.locate path = target := by
  subst htarget
  unfold locateTarget at hplace hnode ⊢
  cases hway : Path.directoryWay? path with
  | none => rfl
  | some way =>
      rw [hway] at hplace hnode
      dsimp only at hplace hnode
      cases hfollow : store.follow path way with
      | found here node =>
          rw [hfollow] at hplace hnode
          cases node with
          | text old => cases hplace
          | directory => exact absurd rfl hnode
          | sink => cases hplace
      | _ =>
          rw [hfollow] at hplace
          cases hplace

theorem isWritable_of_arrive {here : List String} (h : store.arrive here = .vacant place) : store.IsWritable place := by
  unfold arrive at h
  split at h
  · cases h
  · rename_i hnone
    split at h
    · rename_i habove
      cases h
      exact .inl ⟨hnone, habove⟩
    · cases h

theorem isWritable_of_walk {here rest : List String} (h : store.walk here rest = .vacant place) :
    store.IsWritable place := by
  induction rest generalizing here with
  | nil => exact isWritable_of_arrive h
  | cons name rest ih =>
      rw [walk] at h
      split at h
      · cases h
      · cases h
      · cases h
      · split at h
        · exact ih h
        · split at h
          · exact ih h
          · split at h
            · cases h
            · exact ih h

theorem isWritable_of_vacant (h : store.locate path = .vacant place) : store.IsWritable place := by
  unfold locate follow at h
  split at h
  · cases h
  · split at h
    · cases h
    · exact isWritable_of_walk h
    · exact isWritable_of_walk h

/-- What a write can come to. -/
inductive Written (store : FileStore) (path content : String) : FileStore × Option FileFault → Prop
  | taken (place : List String) : store.place? path = some place → store.IsWritable place →
      Written store path content (store.put place (.text content), none)
  | lost : store.look? path = some .sink → Written store path content (store, none)
  | refused (fault : FileFault) : Written store path content (store, some fault)
  /-- The write was begun, and something else is left. -/
  | broken (place : List String) (left : String) (fault : FileFault) : store.place? path = some place →
      store.IsWritable place → Written store path content (store.put place (.text left), some fault)

theorem written_of_isWritable (hplace : store.place? path = some place) (h : store.IsWritable place) :
    Written store path content
      (match store.refusal store.entries place content with
      | none => (store.put place (.text content), none)
      | some refusal => (store.leave place refusal.left, some (.other refusal.message))) := by
  split
  · exact .taken place hplace h
  · rename_i refusal _
    unfold leave
    cases refusal.left with
    | none => exact .refused _
    | some left => exact .broken place left _ hplace h

theorem written_write (store : FileStore) (path content : String) :
    Written store path content (store.write path content) := by
  unfold write
  have hlook := look?_eq store path
  cases htarget : store.locateTarget path with
  | found place node =>
      cases node with
      | directory => exact .refused _
      | text old =>
          have hlocate := locate_of_locateTarget htarget rfl (by simp [Place.node?])
          have hplace : store.place? path = some place := by rw [place?, hlocate]; rfl
          rw [look?_eq_node?, hlocate, hplace] at hlook
          exact written_of_isWritable hplace (.inr ⟨old, hlook.symm⟩)
      | sink =>
          have hlocate := locate_of_locateTarget htarget rfl (by simp [Place.node?])
          dsimp only
          cases store.refusal store.entries place content with
          | none => exact .lost (by rw [look?_eq_node?, hlocate]; rfl)
          | some refusal => exact .refused _
  | vacant place =>
      have hlocate := locate_of_locateTarget htarget rfl (by simp [Place.node?])
      have hplace : store.place? path = some place := by rw [place?, hlocate]; rfl
      exact written_of_isWritable hplace (isWritable_of_vacant hlocate)
  | noWay => exact .refused _
  | blocked => exact .refused _
  | tooLong => exact .refused _

section

variable {result : FileStore × Option FileFault}

/-- Nothing but the entries changes. -/
theorem Written.frame (h : Written store path content result) :
    result.1 = { store with entries := result.1.entries } := by
  cases h <;> rfl

/-- Where paths lead does not change. -/
theorem Written.place? (h : Written store path content result) (path' : String) :
    result.1.place? path' = store.place? path' := by
  cases h with
  | taken place _ hw => exact place?_put hw path'
  | lost => rfl
  | refused => rfl
  | broken place left _ _ hw => exact place?_put hw path'

theorem Written.node?_other (h : Written store path content result) (hother : store.place? path ≠ some other) :
    result.1.node? other = store.node? other := by
  have hput {place : List String} {text : String} (hplace : store.place? path = some place)
      (hw : store.IsWritable place) : (store.put place (.text text)).node? other = store.node? other := by
    rw [node?_put hw.not_standing, if_neg]
    rintro rfl
    exact hother hplace
  cases h with
  | taken place hplace hw => exact hput hplace hw
  | lost => rfl
  | refused => rfl
  | broken place left _ hplace hw => exact hput hplace hw

theorem Written.look?_other (h : Written store path content result) {path' : String}
    (hother : store.place? path' ≠ store.place? path) : result.1.look? path' = store.look? path' := by
  rw [look?_eq, look?_eq, h.place?]
  cases hplace : store.place? path' with
  | none => rfl
  | some place => exact h.node?_other fun hsame => hother (hplace.trans hsame.symm)

theorem Written.look?_self (h : Written store path content result) (hall : result.2 = none)
    (hsink : store.look? path ≠ some .sink) : result.1.look? path = some (.text content) := by
  cases h with
  | taken place hplace hw =>
      rw [look?_eq, place?_put hw, hplace, Option.bind_some, node?_put hw.not_standing, if_pos rfl]
  | lost h => exact absurd h hsink
  | refused => cases hall
  | broken => cases hall

end

/-! ## Rows of writes -/

/-- Writes texts to their paths in order, up to the first that cannot be written. -/
def writeAll (store : FileStore) : List (String × String) → FileStore × Option FileFault
  | [] => (store, none)
  | (path, content) :: rest =>
    match store.write path content with
    | (store, none) => store.writeAll rest
    | (store, some fault) => (store, some fault)

variable {orders : List (String × String)}

theorem writeAll_append (store : FileStore) (orders more : List (String × String)) :
    store.writeAll (orders ++ more) =
      match store.writeAll orders with
      | (store, none) => store.writeAll more
      | (store, some fault) => (store, some fault) := by
  induction orders generalizing store with
  | nil => rfl
  | cons order rest ih =>
      obtain ⟨path, content⟩ := order
      rw [List.cons_append, writeAll, writeAll]
      rcases store.write path content with ⟨store, _ | fault⟩
      · exact ih store
      · rfl

theorem writeAll_single (store : FileStore) (path content : String) :
    store.writeAll [(path, content)] = store.write path content := by
  rw [writeAll]
  rcases store.write path content with ⟨store, _ | fault⟩ <;> rfl

/-- Nothing has changed but what is at the places that the orders are for, and paths lead where they led. -/
structure Kept (store : FileStore) (orders : List (String × String)) (store' : FileStore) : Prop where
  frame : store' = { store with entries := store'.entries }
  places : ∀ path, store'.place? path = store.place? path
  others : ∀ place, (∀ order ∈ orders, store.place? order.1 ≠ some place) → store'.node? place = store.node? place

theorem Kept.refl (store : FileStore) (orders : List (String × String)) : store.Kept orders store :=
  ⟨rfl, fun _ => rfl, fun _ _ => rfl⟩

theorem Kept.mono {store' : FileStore} {more : List (String × String)} (h : store.Kept orders store')
    (hsub : ∀ order ∈ orders, order ∈ more) : store.Kept more store' :=
  ⟨h.frame, h.places, fun place hplace => h.others place fun order horder => hplace order (hsub order horder)⟩

theorem Kept.trans {store' store'' : FileStore} (h : store.Kept orders store') (h' : store'.Kept orders store'') :
    store.Kept orders store'' := by
  refine ⟨?_, fun path => (h'.places path).trans (h.places path), fun place hplace => ?_⟩
  · rw [h'.frame, h.frame]
  · rw [h'.others place fun order horder => ?_, h.others place hplace]
    rw [h.places]
    exact hplace order horder

/-- A path whose place is not one of the orders' leads to what it led to. -/
theorem Kept.look? {store' : FileStore} (h : store.Kept orders store') (path : String)
    (hother : ∀ order ∈ orders, store.place? path ≠ store.place? order.1) : store'.look? path = store.look? path := by
  rw [look?_eq, look?_eq, h.places]
  cases hplace : store.place? path with
  | none => rfl
  | some place => exact h.others place fun order horder hsame => hother order horder (hplace.trans hsame.symm)

theorem Written.kept {result : FileStore × Option FileFault} (h : Written store path content result)
    (rest : List (String × String)) : store.Kept ((path, content) :: rest) result.1 :=
  ⟨h.frame, h.place?, fun _ hplace => h.node?_other (hplace (path, content) List.mem_cons_self)⟩

/-- Only the places of the orders may change, also if a write fails. -/
theorem kept_writeAll (store : FileStore) (orders : List (String × String)) :
    store.Kept orders (store.writeAll orders).1 := by
  induction orders generalizing store with
  | nil => exact .refl store []
  | cons order rest ih =>
      obtain ⟨path, content⟩ := order
      rw [writeAll]
      have hfirst := (written_write store path content).kept rest
      rcases hwrite : store.write path content with ⟨store', _ | fault⟩
      · rw [hwrite] at hfirst
        exact hfirst.trans ((ih store').mono fun _ => List.mem_cons_of_mem _)
      · rw [hwrite] at hfirst
        exact hfirst

/-- Orders for different places are all carried out, and what is not thrown away is there in the end. -/
theorem look?_writeAll (hall : (store.writeAll orders).2 = none)
    (hdistinct : orders.Pairwise fun order order' => store.place? order.1 ≠ store.place? order'.1) :
    ∀ order ∈ orders, store.look? order.1 ≠ some .sink →
      (store.writeAll orders).1.look? order.1 = some (.text order.2) := by
  induction orders generalizing store with
  | nil => exact fun order horder => absurd horder List.not_mem_nil
  | cons order rest ih =>
      obtain ⟨path, content⟩ := order
      obtain ⟨hfirst, hrest⟩ := List.pairwise_cons.mp hdistinct
      have hwritten := written_write store path content
      rw [writeAll] at hall ⊢
      rcases hwrite : store.write path content with ⟨store', _ | fault⟩
      · rw [hwrite] at hall hwritten
        intro order horder hsink
        rcases List.mem_cons.mp horder with rfl | horder
        · rw [← hwritten.look?_self rfl hsink]
          refine (kept_writeAll store' rest).look? path fun order horder => ?_
          rw [hwritten.place?, hwritten.place?]
          exact hfirst order horder
        · refine ih hall (hrest.imp fun hne => ?_) order horder ?_
          · rwa [hwritten.place?, hwritten.place?]
          · rwa [hwritten.look?_other (hfirst order horder).symm]
      · rw [hwrite] at hall
        cases hall

end TwoPass.FileStore
