import JobShell.Files

/-!
# What writing does to the files

* `FileTree.node?_setNode` is the one view of a change of the tree: what stands at each place
  afterwards.
* `Opened t t' p` lists what opening a file for writing may come to, and `opened_of_openOutput` says
  that it comes to nothing else: an empty regular file stands where nothing, a regular file or a
  program stood, a device is left as it is, and nothing happens anywhere else.
* `Opened.append` says what becomes of bytes that are then written: the file holds those that there
  is room for.
* `walk_cons_iff` says how names are followed, one by one. `Extends t t'` says that paths lead where
  they led (`Extends.place`); `place_of_openOutput` says that the path by which a file was opened
  leads to it afterwards, also by way of links.

Nothing is asked of the rules of the file system.
-/

namespace JobShell

namespace FileTree

variable {t t' : FileTree} {p q : Place} {n : Node}

/-! ## 1. One place -/

/-- Replacing the entries of a place shows there, if there are any, and nowhere else. -/
theorem find?_replace (l : List (Place × Node)) (p : Place) (n : Node) (q : Place) :
    ((l.map fun e => if e.1 == p then (p, n) else e).find? (·.1 == q)).map (·.2) =
      if q = p then (l.find? (·.1 == p)).map fun _ => n else (l.find? (·.1 == q)).map (·.2) := by
  induction l with
  | nil => simp
  | cons e l ih =>
    rw [List.map_cons, List.find?_cons, List.find?_cons, List.find?_cons]
    by_cases hep : e.1 = p
    · have hself : (e.1 == p) = true := beq_iff_eq.2 hep
      by_cases hqp : q = p
      · simp [hself, hqp]
      · have hpq : (p == q) = false := beq_eq_false_iff_ne.2 (Ne.symm hqp)
        have heq : (e.1 == q) = false := by rw [hep, hpq]
        simp only [hself, hpq, heq, if_true, hqp, if_false]
        rw [ih, if_neg hqp]
    · have hother : (e.1 == p) = false := beq_eq_false_iff_ne.2 hep
      by_cases heq : e.1 = q
      · have hqp : ¬ q = p := fun h => hep (heq.trans h)
        simp [heq, hqp]
      · have hne : (e.1 == q) = false := beq_eq_false_iff_ne.2 heq
        simp only [hother, hne, Bool.false_eq_true, if_false]
        exact ih

/-- **What is put at a place stands there, and nothing else changes.** -/
theorem node?_setNode (t : FileTree) (hp : p ≠ []) (n : Node) (q : Place) :
    (t.setNode p n).node? q = if q = p then some n else t.node? q := by
  by_cases hroot : q = []
  · rw [if_neg fun h => hp (h.symm.trans hroot), hroot]
    rfl
  have hq : ¬ q.isEmpty = true := by simpa using hroot
  rw [node?, node?, if_neg hq, if_neg hq, setNode]
  by_cases hany : t.nodes.any (·.1 == p) = true
  · rw [if_pos hany, find?_replace]
    obtain ⟨e, he, hep⟩ := List.any_eq_true.1 hany
    have hfound : (t.nodes.find? (·.1 == p)).isSome = true := List.find?_isSome.2 ⟨e, he, hep⟩
    obtain ⟨d, hd⟩ := Option.isSome_iff_exists.1 hfound
    rw [hd]
    rfl
  · rw [if_neg hany]
    show ((t.nodes ++ [(p, n)]).find? (·.1 == q)).map (·.2) = _
    rw [List.find?_append, List.find?_singleton]
    by_cases hqp : q = p
    · have hnone : t.nodes.find? (·.1 == q) = none :=
        List.find?_eq_none.2 fun d hd h => hany (List.any_eq_true.2 ⟨d, hd, hqp ▸ h⟩)
      rw [hnone, hqp]
      simp
    · have hpq : ¬ (p == q) = true := by simpa using Ne.symm hqp
      rw [if_neg hpq, if_neg hqp, Option.or_none]

/-! ## 2. Opening -/

/-- Where there is no refusal, what comes of an access is as it was. -/
theorem unlessRefused_eq_ok_iff {α : Type} {refusal? : Option Reason} {r : Except Reason α} {a : α} :
    unlessRefused refusal? r = .ok a ↔ refusal? = none ∧ r = .ok a := by
  cases refusal? with
  | none => simp [unlessRefused]
  | some reason => simp [unlessRefused]

@[simp] theorem setNode_workDir (t : FileTree) (p : Place) (n : Node) :
    (t.setNode p n).workDir = t.workDir := by
  unfold setNode
  split
  · rfl
  · rfl

@[simp] theorem setNode_rules (t : FileTree) (p : Place) (n : Node) :
    (t.setNode p n).rules = t.rules := by
  unfold setNode
  split
  · rfl
  · rfl

/-- The permissions of the empty file that stands at a place once it was opened for writing, by what
stood there. -/
def openedMode? : Option Node → Option Nat
  | none => some newFileMode
  | some (.regular mode _) => some mode
  | some (.program _) => some programMode
  | some .directory => none
  | some (.device _) => none

/-- **What opening a file for writing comes to.** -/
inductive Opened (t : FileTree) : FileTree → Place → Prop
  /-- A file is made or emptied. -/
  | file {p : Place} {mode : Nat} (hmode : openedMode? (t.node? p) = some mode) :
      Opened t (t.setNode p (.regular mode [])) p
  | device {p : Place} {d : Device} (hnode : t.node? p = some (.device d)) : Opened t t p

/-- It is not the root that is made or emptied. -/
theorem ne_root_of_openedMode? {mode : Nat} (h : openedMode? (t.node? p) = some mode) : p ≠ [] := by
  rintro rfl
  cases h

theorem opened_of_openAt (h : t.openAt q = .ok (t', p)) : p = q ∧ Opened t t' p := by
  unfold openAt at h
  split at h
  · rename_i hnone
    split at h
    · cases h
    · obtain ⟨-, hopen⟩ := unlessRefused_eq_ok_iff.1 h
      cases hopen
      exact ⟨rfl, .file (by rw [hnone]; rfl)⟩
  · cases h
  · rename_i hold
    obtain ⟨-, hopen⟩ := unlessRefused_eq_ok_iff.1 h
    cases hopen
    exact ⟨rfl, .file (by rw [hold]; rfl)⟩
  · rename_i hold
    obtain ⟨-, hopen⟩ := unlessRefused_eq_ok_iff.1 h
    cases hopen
    exact ⟨rfl, .file (by rw [hold]; rfl)⟩
  · rename_i hdevice
    obtain ⟨-, hopen⟩ := unlessRefused_eq_ok_iff.1 h
    cases hopen
    exact ⟨rfl, .device hdevice⟩

/-- A file that was opened stands where the name leads, in a directory that can be searched. -/
theorem openEntry_ok {dir : Place} {name : String} (h : t.openEntry dir name = .ok (t', p)) :
    t.refusal? .search dir = none ∧ ¬ Text.width name.toList > nameLimit ∧
      t.rules.follow (dir ++ [name]) = .ok p ∧ Opened t t' p := by
  obtain ⟨hsearch, hopen⟩ := unlessRefused_eq_ok_iff.1 h
  split at hopen
  · cases hopen
  rename_i hlong
  split at hopen
  · cases hopen
  rename_i q hfollow
  obtain ⟨rfl, hopened⟩ := opened_of_openAt hopen
  exact ⟨hsearch, hlong, hfollow, hopened⟩

/-! ## 3. Writing -/

/-- What is taken is told by the rules alone. -/
theorem taken_setNode (t : FileTree) (p : Place) (n : Node) (q : Place) (size : Nat)
    (bs : List UInt8) : (t.setNode p n).taken q size bs = t.taken q size bs := by
  rw [taken, taken, setNode_rules]

/-- The bytes that there is room for are the first ones. -/
theorem taken_append {size : Nat} (bs bs' : List UInt8) : t.taken p size (bs ++ bs') =
    if (t.taken p size bs).length = bs.length then bs ++ t.taken p (size + bs.length) bs'
    else t.taken p size bs := by
  unfold taken
  cases t.rules.room? p with
  | none => rw [if_pos rfl]
  | some room =>
    dsimp only
    rw [List.length_take, List.take_append]
    split
    · rename_i hwhole
      rw [List.take_of_length_le (by omega), Nat.sub_sub]
    · rename_i hcut
      rw [show room - size - bs.length = 0 by omega, List.take_zero, List.append_nil]

theorem length_taken_le (t : FileTree) (p : Place) (size : Nat) (bs : List UInt8) :
    (t.taken p size bs).length ≤ bs.length := by
  unfold taken
  split
  · exact List.length_take_le' ..
  · exact Nat.le_refl _

/-- What is as long as all is all. -/
theorem taken_eq_of_length {size : Nat} {bs : List UInt8}
    (h : (t.taken p size bs).length = bs.length) : t.taken p size bs = bs := by
  unfold taken at h ⊢
  cases hroom : t.rules.room? p with
  | none => rfl
  | some room =>
    rw [hroom] at h
    exact (List.take_prefix _ _).eq_of_length h

/-- Where there is room, all bytes are taken. -/
theorem taken_of_room {size : Nat} {bs : List UInt8}
    (h : ∀ room, t.rules.room? p = some room → size + bs.length ≤ room) :
    t.taken p size bs = bs := by
  unfold taken
  split
  · rename_i room hroom
    exact List.take_of_length_le (by have hfits := h room hroom; omega)
  · rfl

/-- **What is written into a file that was opened is all that it holds**, as far as there is room
for it, and no other file changes; a device stays as it is. -/
theorem Opened.append (h : Opened t t' p) (bs : List UInt8) :
    (∀ q, q ≠ p → (t'.append p bs).1.node? q = t.node? q) ∧
      ((∃ mode, (t'.append p bs).1.node? p = some (.regular mode (t.taken p 0 bs))) ∨
        ∃ d, t.node? p = some (.device d) ∧ (t'.append p bs).1 = t) := by
  cases h with
  | @file _ mode hmode =>
    have hp : p ≠ [] := ne_root_of_openedMode? hmode
    have hempty : (t.setNode p (.regular mode [])).node? p = some (.regular mode []) := by
      rw [node?_setNode t hp, if_pos rfl]
    rw [FileTree.append, hempty]
    refine ⟨fun q hq => ?_, Or.inl ⟨mode, ?_⟩⟩
    · rw [node?_setNode _ hp, if_neg hq, node?_setNode t hp, if_neg hq]
    · rw [node?_setNode _ hp, if_pos rfl]
      show some (Node.regular mode ((t.setNode p (.regular mode [])).taken p 0 bs)) = _
      rw [taken_setNode]
  | @device _ d hnode =>
    have hsame : (t.append p bs).1 = t := by
      rw [FileTree.append, hnode]
      cases d with
      | null => rfl
      | full => rfl
    exact ⟨fun q _ => by rw [hsame], Or.inr ⟨d, hnode, hsame⟩⟩

/-! ## 4. Following a path -/

variable {here : Place} {name path : String} {names : List String}

/-- **Names are followed one after the other.** -/
theorem walk_cons_iff : t.walk here (name :: names) = .ok p ↔
    ∃ q, t.next here name = .ok q ∧ t.walk q names = .ok p := by
  rw [walk]
  cases t.next here name with
  | error r => simp
  | ok q => simp

theorem walk_append_iff {rest : List String} : t.walk here (names ++ rest) = .ok p ↔
    ∃ q, t.walk here names = .ok q ∧ t.walk q rest = .ok p := by
  induction names generalizing here with
  | nil =>
    refine ⟨fun h => ⟨here, rfl, h⟩, ?_⟩
    rintro ⟨q, hq, hrest⟩
    cases hq
    exact hrest
  | cons name names ih =>
    rw [List.cons_append, walk_cons_iff]
    constructor
    · rintro ⟨next, hnext, h⟩
      obtain ⟨q, hq, hrest⟩ := ih.1 h
      exact ⟨q, walk_cons_iff.2 ⟨next, hnext, hq⟩, hrest⟩
    · rintro ⟨q, hq, hrest⟩
      obtain ⟨next, hnext, hq⟩ := walk_cons_iff.1 hq
      exact ⟨next, hnext, ih.2 ⟨q, hq, hrest⟩⟩

/-- The empty name leads nowhere else, but needs a directory. -/
theorem next_empty (h : t.next here "" = .ok p) : t.isDirectory here = true ∧ p = here := by
  rw [next] at h
  split at h
  · cases h
  rename_i hdir
  cases h
  exact ⟨by simpa using hdir, rfl⟩

/-- What can be walked in one tree can be walked in the other. -/
structure Extends (t t' : FileTree) : Prop where
  directories : ∀ q, t.isDirectory q = true → t'.isDirectory q = true
  nodes : ∀ q, t.node? q ≠ none → t'.node? q ≠ none
  workDir : t'.workDir = t.workDir
  rules : t'.rules = t.rules

theorem Extends.refl (t : FileTree) : Extends t t := ⟨fun _ h => h, fun _ h => h, rfl, rfl⟩

/-- Putting a node where there is no directory hides nothing. -/
theorem extends_setNode (hp : p ≠ []) (hdir : t.isDirectory p = false) (n : Node) :
    Extends t (t.setNode p n) where
  directories q hq := by
    have hne : q ≠ p := by
      rintro rfl
      rw [hdir] at hq
      cases hq
    rwa [isDirectory, node?_setNode t hp, if_neg hne]
  nodes q hq := by
    rw [node?_setNode t hp]
    split
    · exact Option.some_ne_none n
    · exact hq
  workDir := setNode_workDir t p n
  rules := setNode_rules t p n

theorem Extends.trans {t'' : FileTree} (h : Extends t t') (h' : Extends t' t'') :
    Extends t t'' where
  directories q hq := h'.directories q (h.directories q hq)
  nodes q hq := h'.nodes q (h.nodes q hq)
  workDir := h'.workDir.trans h.workDir
  rules := h'.rules.trans h.rules

theorem Extends.refusal? (h : Extends t t') (hdir : t.isDirectory p = true) (a : Access) :
    t'.refusal? a p = t.refusal? a p := by
  have hnode : t.node? p = some .directory := beq_iff_eq.1 hdir
  have hnode' : t'.node? p = some .directory := beq_iff_eq.1 (h.directories p hdir)
  rw [FileTree.refusal?, FileTree.refusal?, hnode, hnode', h.rules]

theorem Extends.next (h : Extends t t') (hnext : t.next here name = .ok p) :
    t'.next here name = .ok p := by
  rw [FileTree.next] at hnext ⊢
  split at hnext
  · cases hnext
  rename_i hdir
  have hdir' : t.isDirectory here = true := by simpa using hdir
  rw [h.directories here hdir', if_neg (by decide), h.refusal? hdir', h.rules]
  by_cases hempty : name = ""
  · rw [if_pos hempty] at hnext ⊢
    exact hnext
  rw [if_neg hempty] at hnext ⊢
  obtain ⟨hsearch, hleads⟩ := unlessRefused_eq_ok_iff.1 hnext
  refine unlessRefused_eq_ok_iff.2 ⟨hsearch, ?_⟩
  by_cases hdot : name = "."
  · rw [if_pos hdot] at hleads ⊢
    exact hleads
  by_cases hup : name = ".."
  · rw [if_neg hdot, if_pos hup] at hleads ⊢
    exact hleads
  rw [if_neg hdot, if_neg hup] at hleads ⊢
  split at hleads
  · cases hleads
  rename_i hlong
  rw [if_neg hlong]
  split at hleads
  · cases hleads
  rename_i q hfollow
  split at hleads
  · cases hleads
  rename_i hthere
  have hthere' : ¬ (t'.node? q).isNone = true := by
    simpa using h.nodes q (by simpa using hthere)
  exact (if_neg hthere').trans hleads

theorem Extends.walk (h : Extends t t') (hwalk : t.walk here names = .ok p) :
    t'.walk here names = .ok p := by
  induction names generalizing here with
  | nil => exact hwalk
  | cons name names ih =>
    obtain ⟨q, hnext, hrest⟩ := walk_cons_iff.1 hwalk
    exact walk_cons_iff.2 ⟨q, h.next hnext, ih hrest⟩

theorem Extends.start (h : Extends t t') (path : String) : t'.start path = t.start path := by
  rw [FileTree.start, FileTree.start, h.workDir]

/-- **Paths lead where they led.** -/
theorem Extends.place (h : Extends t t') (hplace : t.place path = .ok p) :
    t'.place path = .ok p := by
  rw [FileTree.place] at hplace ⊢
  cases hfault : pathFault? path with
  | some r =>
    rw [hfault] at hplace
    cases hplace
  | none =>
    rw [hfault] at hplace
    rw [h.start]
    exact h.walk hplace

/-! ## 5. Finding what was opened -/

/-- **Opening a file for writing opens an entry of a directory** that the path leads to but for its
last name. -/
theorem openOutput_ok (h : t.openOutput path = .ok (t', p)) :
    ∃ dirs last dir, pathFault? path = none ∧ FileTree.names path = dirs ++ [last] ∧
      last ≠ "" ∧ last ≠ "." ∧ last ≠ ".." ∧
      t.walk (t.start path) dirs = .ok dir ∧ t.isDirectory dir = true ∧
      t.openEntry dir last = .ok (t', p) := by
  unfold openOutput at h
  dsimp only at h
  split at h
  · cases h
  rename_i hfault
  split at h
  · split at h
    · cases h
    · cases h
  rename_i hdots
  obtain ⟨hdot, hup⟩ := not_or.1 hdots
  split at h
  · cases h
  rename_i dir hwalk
  split at h
  · cases h
  rename_i hlast
  have hall : FileTree.names path ≠ [] := fun hnil => hlast (by rw [hnil]; rfl)
  have hsplit : FileTree.names path =
      (FileTree.names path).dropLast ++ [(FileTree.names path).getLastD ""] := by
    rw [List.getLastD_eq_getLast?, List.getLast?_eq_some_getLast hall]
    exact (List.dropLast_concat_getLast hall).symm
  -- the empty name behind the directories is there to ask for a directory
  rw [if_neg hlast] at hwalk
  obtain ⟨q, hdirs, hempty⟩ := walk_append_iff.1 hwalk
  obtain ⟨q', hnext, hnil⟩ := walk_cons_iff.1 hempty
  obtain ⟨hdir, rfl⟩ := next_empty hnext
  cases hnil
  exact ⟨_, _, _, hfault, hsplit, hlast, hdot, hup, hdirs, hdir, h⟩

/-- **Opening a file for writing comes to nothing else.** -/
theorem opened_of_openOutput (h : t.openOutput path = .ok (t', p)) : Opened t t' p := by
  obtain ⟨dirs, last, dir, -, -, -, -, -, -, -, hentry⟩ := openOutput_ok h
  exact (openEntry_ok hentry).2.2.2

theorem Opened.extends (h : Opened t t' p) : Extends t t' := by
  cases h with
  | file hmode =>
    refine extends_setNode (ne_root_of_openedMode? hmode) ?_ _
    rw [isDirectory]
    cases hnode : t.node? p with
    | none => rfl
    | some n =>
      rw [hnode] at hmode
      cases n with
      | directory => cases hmode
      | regular mode content => rfl
      | device d => rfl
      | program name => rfl
  | device hnode => exact .refl t

theorem Opened.exists_node (h : Opened t t' p) : ∃ n, t'.node? p = some n := by
  cases h with
  | file hmode => exact ⟨_, (node?_setNode t (ne_root_of_openedMode? hmode) _ p).trans (if_pos rfl)⟩
  | device hnode => exact ⟨_, hnode⟩

/-- **The path by which a file was opened leads to it.** -/
theorem place_of_openOutput (h : t.openOutput path = .ok (t', p)) : t'.place path = .ok p := by
  obtain ⟨dirs, last, dir, hfault, hsplit, hlast, hdot, hup, hwalk, hdir, hentry⟩ := openOutput_ok h
  obtain ⟨hsearch, hlong, hfollow, hopened⟩ := openEntry_ok hentry
  have hext : Extends t t' := hopened.extends
  obtain ⟨n, hnode⟩ := hopened.exists_node
  have hthere : ¬ (t'.node? p).isNone = true := by
    rw [hnode]
    exact Bool.false_ne_true
  have hnext : t'.next dir last = .ok p := by
    rw [next, hext.directories dir hdir, if_neg (by decide), if_neg hlast]
    refine unlessRefused_eq_ok_iff.2 ⟨(hext.refusal? hdir .search).trans hsearch, ?_⟩
    rw [if_neg hdot, if_neg hup, if_neg hlong, hext.rules, hfollow]
    exact if_neg hthere
  rw [place, hfault]
  show t'.walk (t'.start path) (FileTree.names path) = _
  rw [hext.start, hsplit]
  exact walk_append_iff.2 ⟨dir, hext.walk hwalk, walk_cons_iff.2 ⟨p, hnext, rfl⟩⟩

end FileTree

end JobShell
