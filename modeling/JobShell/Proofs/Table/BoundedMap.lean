import Mathlib.Data.Finmap
import Mathlib.Order.Bounds.Defs
import JobShell.Proofs.Table.Order
import JobShell.Proofs.Table.Runs

/-!
# The table as a bounded map

The table is an array with holes. Its users see a finite map from numbers to what is known of jobs,
and nothing of the array.

* `JobMap` is the map. `JobMap.Step` says what a change does to it and what is answered: it knows
  numbers, processes and states, but no slots and no order of looking.
* `JobTable.toMap` is the map of a table, and `JobTable.Shows` says that the look-ups of a table are
  those of a map.
* `WellFormed.step_toMap` is one change, `WellFormed.run_toMap` is a run of them: the table answers
  as the map does, and goes where the map goes.
* `run_empty_acts_as_map` puts this together for the tables that changes of the empty one lead to.
-/

namespace JobShell

/-! ## 1. The map -/

/-- What is known of a job besides its number. -/
structure Entry where
  pid : Int
  state : JobState
  cmdline : StoredLine
  deriving DecidableEq

/-- The entry of a job. -/
def Job.entry (a : Job) : Entry := ⟨a.pid, a.state, a.cmdline⟩

/-- The job of a number and an entry. -/
def Entry.job (id : Nat) (e : Entry) : Job := ⟨id, e.pid, e.state, e.cmdline⟩

theorem Entry.job_entry (a : Job) : a.entry.job a.id = a := rfl

/-- What is known of jobs, by their numbers. -/
abbrev JobMap := Finmap fun _ : Nat => Entry

/-- What is said to a change. -/
inductive Answer where
  | entered (id : Nat)
  | refused (reason : AddError)
  | forgotten
  | restated (done : Bool)
  deriving DecidableEq

namespace JobMap

variable (m : JobMap)

/-- A number that a new job can have. -/
def Free (id : Nat) : Prop := 1 ≤ id ∧ id ≤ capacity ∧ id ∉ m

/-- A process has a job. -/
def Tracks (pid : Int) : Prop := ∃ id e, m.lookup id = some e ∧ e.pid = pid

/-- A job is in the foreground. -/
def Owns (id : Nat) : Prop := ∃ e, m.lookup id = some e ∧ e.state = .foreground

/-- Nobody is in the way of a new job in a state. -/
def Idle (state : JobState) : Prop := state = .background ∨ ∀ id, ¬ m.Owns id

/-- **When a new job is entered.** -/
structure Admits (pid : Int) (state : JobState) : Prop where
  fresh : ¬ m.Tracks pid
  idle : m.Idle state
  room : m.keys.card < capacity

/-- **When a job is given a state.** -/
structure Grants (id : Nat) (state : JobState) : Prop where
  live : id ∈ m
  defined : state ≠ .undefined
  idle : state ≠ .foreground ∨ ∀ k, m.Owns k → k = id

/-- **What a change does to the map, and what is answered.** A new job is refused for the first of
three reasons, and takes the least number there is. -/
inductive Step : JobTable.Op → Answer → JobMap → Prop where
  | entered {pid state cmdline id} :
      m.Admits pid state → IsLeast {k | m.Free k} id →
      Step (.add pid state cmdline) (.entered id)
        (m.insert id ⟨pid, state, StoredLine.ofString cmdline⟩)
  | duplicate {pid state cmdline} :
      m.Tracks pid →
      Step (.add pid state cmdline) (.refused (.duplicatePid pid)) m
  | busy {pid cmdline owner} :
      ¬ m.Tracks pid → m.Owns owner →
      Step (.add pid .foreground cmdline) (.refused (.foregroundBusy owner)) m
  | full {pid state cmdline} :
      ¬ m.Tracks pid → m.Idle state → m.keys.card = capacity →
      Step (.add pid state cmdline) (.refused .full) m
  | forgotten {id} :
      Step (.remove id) .forgotten (m.erase id)
  | restated {id state e} :
      m.Grants id state → m.lookup id = some e →
      Step (.setState id state) (.restated true) (m.insert id { e with state })
  | kept {id state} :
      ¬ m.Grants id state →
      Step (.setState id state) (.restated false) m

/-- Changes one after the other. -/
inductive Run : JobMap → List JobTable.Op → List Answer → JobMap → Prop where
  | nil {s} : Run s [] [] s
  | cons {s s' s'' op answer ops answers} :
      s.Step op answer s' → Run s' ops answers s'' → Run s (op :: ops) (answer :: answers) s''

variable {m} {m' : JobMap}

/-- **A new job is entered exactly if it is admitted**: whatever is answered otherwise has a reason
that keeps it out. -/
theorem Step.entered_iff {pid : Int} {state : JobState} {cmdline : String} {answer : Answer}
    (h : m.Step (.add pid state cmdline) answer m') :
    (∃ id, answer = .entered id) ↔ m.Admits pid state := by
  have never : ∀ reason, ¬ ∃ id, Answer.refused reason = .entered id := by
    intro reason hentered
    obtain ⟨_, hno⟩ := hentered
    cases hno
  cases h with
  | entered hadmits _ => exact ⟨fun _ => hadmits, fun _ => ⟨_, rfl⟩⟩
  | duplicate htracks => exact iff_of_false (never _) fun hadmits => hadmits.fresh htracks
  | busy _ howns =>
    refine iff_of_false (never _) fun hadmits => ?_
    rcases hadmits.idle with hback | hnone
    · cases hback
    · exact hnone _ howns
  | full _ _ hfull => exact iff_of_false (never _) fun hadmits => hadmits.room.ne hfull

/-- **A state is given exactly if it is granted.** -/
theorem Step.restated_iff {id : Nat} {state : JobState} {answer : Answer}
    (h : m.Step (.setState id state) answer m') :
    answer = .restated true ↔ m.Grants id state := by
  cases h with
  | restated hgrants _ => exact ⟨fun _ => hgrants, fun _ => rfl⟩
  | kept hnot => exact iff_of_false (by decide) hnot

end JobMap

/-! ## 2. The map of a table -/

namespace JobTable

/-- A new job starts in the foreground or in the background. -/
def Op.IsProper : Op → Prop
  | .add _ state _ => state = .foreground ∨ state = .background
  | .remove _ | .setState _ _ => True

instance : DecidablePred Op.IsProper
  | .add _ state _ => inferInstanceAs (Decidable (state = .foreground ∨ state = .background))
  | .remove _ | .setState _ _ => .isTrue trivial

/-- What the table answers to a change. -/
def answer (t : JobTable) : Op → Answer
  | .add pid state cmdline =>
    match t.add pid state cmdline with
    | .ok (id, _) => .entered id
    | .error e => .refused e
  | .remove _ => .forgotten
  | .setState id state => .restated (t.setState id state).isSome

theorem answer_add_of_ok {t t' : JobTable} {pid : Int} {state : JobState} {cmdline : String}
    {id : Nat} (h : t.add pid state cmdline = .ok (id, t')) :
    t.answer (.add pid state cmdline) = .entered id := by
  simp only [answer, h]

theorem answer_add_of_error {t : JobTable} {pid : Int} {state : JobState} {cmdline : String}
    {e : AddError} (h : t.add pid state cmdline = .error e) :
    t.answer (.add pid state cmdline) = .refused e := by
  simp only [answer, h]

/-- What it answers to changes one after the other. -/
def answers (t : JobTable) : List Op → List Answer
  | [] => []
  | op :: ops => t.answer op :: (t.apply op).answers ops

/-- What is known of the jobs of a table. -/
def toMap (t : JobTable) : JobMap :=
  (t.jobs.map fun a => (⟨a.id, a.entry⟩ : Sigma fun _ : Nat => Entry)).toFinmap

/-- **The look-ups of a table are those of a map.** -/
structure Shows (t : JobTable) (m : JobMap) : Prop where
  get? : ∀ id, t.get? id = (m.lookup id).map (Entry.job id)
  contains : ∀ id, t.contains id = true ↔ id ∈ m
  size : t.size = m.keys.card
  isFull : t.isFull = true ↔ m.keys.card = capacity
  isEmpty : t.isEmpty = true ↔ m = ∅
  /-- The listing holds what the map holds, by increasing numbers. -/
  jobs : ∀ a, a ∈ t.jobs ↔ m.lookup a.id = some a.entry
  sorted : t.jobs.Pairwise (·.id < ·.id)

/-- **Nothing of a table is hidden**: tables that show one map are one table. -/
theorem Shows.unique {t t' : JobTable} {m : JobMap} (h : t.Shows m) (h' : t'.Shows m) : t = t' :=
  eq_of_get? fun id => (h.get? id).trans (h'.get? id).symm

section View

variable {t : JobTable}

theorem WellFormed.sorted_jobs (ht : t.WellFormed) : t.jobs.Pairwise (·.id < ·.id) :=
  pairwise_jobs fun _ _ _ _ ha hb hlt => by rwa [ht.id_eq ha, ht.id_eq hb]

theorem WellFormed.nodup_ids (ht : t.WellFormed) : (t.jobs.map (·.id)).Nodup :=
  List.pairwise_map.2 (ht.sorted_jobs.imp Nat.ne_of_lt)

/-- The listing holds the job of a number at its number. -/
theorem WellFormed.mem_jobs_iff (ht : t.WellFormed) {a : Job} :
    a ∈ t.jobs ↔ t.get? a.id = some a := by
  rw [JobTable.mem_jobs_iff]
  constructor
  · intro h
    obtain ⟨id, ha⟩ := h
    rwa [ht.id_eq ha]
  · exact fun h => ⟨a.id, h⟩

theorem WellFormed.lookup_toMap (ht : t.WellFormed) (id : Nat) :
    t.toMap.lookup id = (t.get? id).map Job.entry := by
  unfold toMap
  rw [Finmap.dlookup_list_toFinmap]
  cases hget : t.get? id with
  | none =>
    refine List.dlookup_eq_none.2 fun hkey => ?_
    obtain ⟨e, hmem⟩ := List.mem_keys.1 hkey
    obtain ⟨a, ha, he⟩ := List.mem_map.1 hmem
    cases he
    rw [ht.mem_jobs_iff, hget] at ha
    cases ha
  | some a =>
    have hnodup : (t.jobs.map fun a => (⟨a.id, a.entry⟩ : Sigma fun _ : Nat => Entry)).NodupKeys := by
      unfold List.NodupKeys List.keys
      rw [List.map_map]
      exact ht.nodup_ids
    refine List.mem_dlookup hnodup (List.mem_map.2 ⟨a, ?_, ?_⟩)
    · rw [JobTable.mem_jobs_iff]
      exact ⟨id, hget⟩
    · rw [ht.id_eq hget]

theorem WellFormed.mem_toMap (ht : t.WellFormed) {id : Nat} :
    id ∈ t.toMap ↔ (t.get? id).isSome := by
  rw [← Finmap.lookup_isSome, ht.lookup_toMap, Option.isSome_map]

theorem WellFormed.toMap_eq_iff (ht : t.WellFormed) {m : JobMap} :
    t.toMap = m ↔ ∀ id, (t.get? id).map Job.entry = m.lookup id := by
  constructor
  · intro hmap id
    rw [← hmap, ht.lookup_toMap]
  · exact fun h => Finmap.ext_lookup fun id => (ht.lookup_toMap id).trans (h id)

theorem WellFormed.card_toMap (ht : t.WellFormed) : t.toMap.keys.card = t.size := by
  have hkeys : t.toMap.keys = (t.jobs.map (·.id)).toFinset := by
    ext id
    rw [Finmap.mem_keys, ht.mem_toMap, List.mem_toFinset, List.mem_map, Option.isSome_iff_exists]
    constructor
    · intro hlive
      obtain ⟨a, ha⟩ := hlive
      exact ⟨a, JobTable.mem_jobs_iff.2 ⟨id, ha⟩, ht.id_eq ha⟩
    · intro hlisted
      obtain ⟨a, hmem, rfl⟩ := hlisted
      exact ⟨a, ht.mem_jobs_iff.1 hmem⟩
  rw [hkeys, List.toFinset_card_of_nodup ht.nodup_ids, List.length_map]
  rfl

theorem size_le (t : JobTable) : t.size ≤ capacity :=
  t.length_slots ▸ List.length_filterMap_le id t.slots

/-- The table is full exactly if it holds as many jobs as it has slots. -/
theorem isFull_iff : t.isFull = true ↔ t.size = capacity := by
  unfold isFull size jobs
  rw [← t.length_slots, List.all_eq_true]
  exact List.filterMap_length_eq_length.symm

/-- **The look-ups of a table are those of its map.** -/
theorem WellFormed.shows_toMap (ht : t.WellFormed) : t.Shows t.toMap where
  get? id := by
    rw [ht.lookup_toMap]
    cases ha : t.get? id with
    | none => rfl
    | some a =>
      obtain rfl := ht.id_eq ha
      rfl
  contains _ := ht.mem_toMap.symm
  size := ht.card_toMap.symm
  isFull := by rw [isFull_iff, ht.card_toMap]
  isEmpty := by
    have hempty : t.toMap = ∅ ↔ t.toMap.keys = ∅ := by
      constructor
      · exact fun h => h ▸ Finmap.keys_empty
      · intro h
        refine Finmap.ext_lookup fun id => ?_
        rw [Finmap.lookup_empty, Finmap.lookup_eq_none, ← Finmap.mem_keys, h]
        exact Finset.notMem_empty id
    rw [isEmpty, beq_iff_eq, ← ht.card_toMap, Finset.card_eq_zero, hempty]
  jobs a := by
    rw [ht.mem_jobs_iff, ht.lookup_toMap, Option.map_eq_some_iff]
    constructor
    · exact fun ha => ⟨a, ha, rfl⟩
    · intro hshown
      obtain ⟨b, hb, hentry⟩ := hshown
      have hab : b = a := by
        rw [← Entry.job_entry b, ← Entry.job_entry a, hentry, ht.id_eq hb]
      rwa [hab] at hb
  sorted := ht.sorted_jobs

/-! ## 3. What stands in the way of a change -/

theorem WellFormed.tracks_toMap (ht : t.WellFormed) {pid : Int} :
    t.toMap.Tracks pid ↔ (t.ofPid? pid).isSome := by
  rw [Option.isSome_iff_exists]
  refine exists_congr fun id => ?_
  rw [ht.ofPid?_eq_some_iff, ht.lookup_toMap]
  constructor
  · intro htracks
    obtain ⟨e, he, hpid⟩ := htracks
    obtain ⟨a, ha, rfl⟩ := Option.map_eq_some_iff.1 he
    exact ⟨a, ha, hpid⟩
  · intro hjob
    obtain ⟨a, ha, hpid⟩ := hjob
    exact ⟨a.entry, Option.map_eq_some_iff.2 ⟨a, ha, rfl⟩, hpid⟩

theorem WellFormed.owns_toMap (ht : t.WellFormed) {id : Nat} :
    t.toMap.Owns id ↔ t.foreground? = some id := by
  unfold JobMap.Owns
  rw [ht.foreground?_eq_some_iff, ht.lookup_toMap]
  constructor
  · intro howns
    obtain ⟨e, he, hst⟩ := howns
    obtain ⟨a, ha, rfl⟩ := Option.map_eq_some_iff.1 he
    exact ⟨a, ha, hst⟩
  · intro hjob
    obtain ⟨a, ha, hst⟩ := hjob
    exact ⟨a.entry, Option.map_eq_some_iff.2 ⟨a, ha, rfl⟩, hst⟩

/-- Nobody is in the way if the look-up that a start in the foreground makes finds no one. -/
theorem WellFormed.idle_toMap (ht : t.WellFormed) {state : JobState}
    (hstate : state = .foreground ∨ state = .background)
    (h : state = .foreground → t.foreground? = none) : t.toMap.Idle state := by
  rcases hstate with hfore | hback
  · refine Or.inr fun id howns => ?_
    rw [ht.owns_toMap, h hfore] at howns
    cases howns
  · exact Or.inl hback

/-- **The lowest free slot is the place of the least number there is.** -/
theorem WellFormed.isLeast_free (ht : t.WellFormed) {i : Nat} (h : t.freeSlot? = some i) :
    IsLeast {k | t.toMap.Free k} (i + 1) := by
  obtain ⟨hi, hnone⟩ := freeSlot?_eq_some h
  refine ⟨⟨Nat.succ_pos i, hi, ?_⟩, ?_⟩
  · rw [ht.mem_toMap, hnone]
    exact Bool.false_ne_true
  · intro k hk
    obtain ⟨hpos, _, hfree⟩ := hk
    refine Nat.le_of_not_lt fun hlt => hfree ?_
    obtain ⟨j, rfl⟩ : ∃ j, k = j + 1 := ⟨k - 1, by omega⟩
    have hj : j < i := Nat.lt_of_succ_lt_succ hlt
    -- The search went past slot `j`, so it is taken.
    obtain ⟨hlen, _, htaken⟩ := List.findIdx?_eq_some_iff_getElem.1 h
    have hlt : j < t.slots.length := hj.trans hlen
    have hsome : t.slots[j].isSome := by
      simpa [Option.isSome_iff_ne_none] using htaken j hj
    rwa [ht.mem_toMap, get?_succ, List.getElem?_eq_getElem, Option.join_some]

/-- There is room exactly while a slot is free. -/
theorem size_lt_iff : t.size < capacity ↔ t.freeSlot? ≠ none := by
  rw [Ne, freeSlot?_eq_none_iff, isFull_iff]
  have hle := t.size_le
  omega

/-! ## 4. Changes -/

/-- A job entered or replaced in the table is one in the map. -/
theorem WellFormed.toMap_eq_insert {t' : JobTable} (ht : t.WellFormed) (ht' : t'.WellFormed)
    {id : Nat} {a : Job} (h : ∀ k, t'.get? k = if k = id then some a else t.get? k) :
    t'.toMap = t.toMap.insert id a.entry := by
  refine ht'.toMap_eq_iff.2 fun k => ?_
  rw [h]
  by_cases hk : k = id
  · rw [if_pos hk, hk, Finmap.lookup_insert]
    rfl
  · rw [if_neg hk, Finmap.lookup_insert_of_ne _ hk, ht.lookup_toMap]

theorem WellFormed.step_add (ht : t.WellFormed) {pid : Int} {state : JobState}
    (hstate : state = .foreground ∨ state = .background) (cmdline : String) :
    t.toMap.Step (.add pid state cmdline) (t.answer (.add pid state cmdline))
      (t.apply (.add pid state cmdline)).toMap := by
  cases h : t.add pid state cmdline with
  | ok r =>
    obtain ⟨id, t'⟩ := r
    obtain ⟨_, hpid, hfg, i, hfree, hid, _⟩ := add_eq_ok h
    have hadmits : t.toMap.Admits pid state := by
      refine ⟨?_, ht.idle_toMap hstate hfg, ?_⟩
      · rw [ht.tracks_toMap, hpid]
        exact Bool.false_ne_true
      · rw [ht.card_toMap, size_lt_iff, hfree]
        exact Option.some_ne_none i
    rw [answer_add_of_ok h, apply_add_of_ok h, ht.toMap_eq_insert (ht.add h) (get?_add h).2]
    exact .entered hadmits (hid ▸ ht.isLeast_free hfree)
  | error e =>
    rw [answer_add_of_error h, apply_add_of_error h]
    have hfresh : t.ofPid? pid = none → ¬ t.toMap.Tracks pid := by
      intro hnone
      rw [ht.tracks_toMap, hnone]
      exact Bool.false_ne_true
    rcases add_eq_error h with
      ⟨_, hf, hb⟩ | ⟨rfl, hdup⟩ | ⟨owner, rfl, rfl, howner, hnone⟩ | ⟨rfl, hfree, hnone, hfg⟩
    · exact absurd hstate (not_or.2 ⟨hf, hb⟩)
    · exact .duplicate (ht.tracks_toMap.2 hdup)
    · exact .busy (hfresh hnone) (ht.owns_toMap.2 howner)
    · refine .full (hfresh hnone) (ht.idle_toMap hstate hfg) ?_
      rw [ht.card_toMap, ← isFull_iff, ← freeSlot?_eq_none_iff]
      exact hfree

theorem WellFormed.step_remove (ht : t.WellFormed) (id : Nat) :
    t.toMap.Step (.remove id) .forgotten (t.remove id).toMap := by
  have herase : (t.remove id).toMap = t.toMap.erase id := by
    refine (ht.remove id).toMap_eq_iff.2 fun k => ?_
    rw [get?_remove]
    by_cases hk : k = id
    · rw [if_pos hk, hk, Finmap.lookup_erase]
      rfl
    · rw [if_neg hk, Finmap.lookup_erase_ne hk, ht.lookup_toMap]
  rw [herase]
  exact .forgotten

theorem WellFormed.step_setState (ht : t.WellFormed) (id : Nat) (state : JobState) :
    t.toMap.Step (.setState id state) (t.answer (.setState id state))
      (t.withState id state).toMap := by
  show t.toMap.Step _ (.restated (t.setState id state).isSome) ((t.setState id state).getD t).toMap
  cases h : t.setState id state with
  | some t' =>
    obtain ⟨hdefined, hfg, a, ha, _⟩ := setState_eq_some h
    have hgrants : t.toMap.Grants id state := by
      refine ⟨?_, hdefined, ?_⟩
      · rw [ht.mem_toMap, ha]
        rfl
      · by_cases hst : state = .foreground
        · exact Or.inr fun k howns => hfg hst k (ht.owns_toMap.1 howns)
        · exact Or.inl hst
    have hview : ∀ k, t'.get? k = if k = id then some { a with state } else t.get? k := by
      intro k
      rw [get?_setState h, ha]
      rfl
    have hinsert : t'.toMap = t.toMap.insert id { a.entry with state } :=
      ht.toMap_eq_insert (ht.setState h) hview
    show t.toMap.Step _ _ t'.toMap
    rw [hinsert]
    exact .restated hgrants (by rw [ht.lookup_toMap, ha]; rfl)
  | none =>
    refine .kept fun hgrants => ?_
    obtain ⟨a, ha⟩ := Option.isSome_iff_exists.1 (ht.mem_toMap.1 hgrants.live)
    have hsome : (t.setState id state).isSome := by
      refine setState_isSome ha hgrants.defined fun hst k hk => ?_
      exact hgrants.idle.resolve_left (fun hne => hne hst) k (ht.owns_toMap.2 hk)
    rw [h] at hsome
    cases hsome

/-- **One change of the table is one of its map**, with the answer that the map gives. -/
theorem WellFormed.step_toMap (ht : t.WellFormed) {op : Op} (hop : op.IsProper) :
    t.toMap.Step op (t.answer op) (t.apply op).toMap := by
  cases op with
  | add pid state cmdline => exact ht.step_add hop cmdline
  | remove id => exact ht.step_remove id
  | setState id state => exact ht.step_setState id state

/-- **A run of changes of the table is one of its map.** -/
theorem WellFormed.run_toMap (ht : t.WellFormed) {ops : List Op} (hops : ∀ op ∈ ops, op.IsProper) :
    t.toMap.Run ops (t.answers ops) (t.run ops).toMap := by
  induction ops generalizing t with
  | nil => exact .nil
  | cons op ops ih =>
    refine .cons (ht.step_toMap (hops op List.mem_cons_self)) (ih (ht.apply op) fun op' h => ?_)
    exact hops op' (List.mem_cons_of_mem op h)

/-- Forgetting a job that is not there changes nothing. -/
theorem remove_of_get?_eq_none {id : Nat} (h : t.get? id = none) : t.remove id = t := by
  refine eq_of_get? fun k => ?_
  rw [get?_remove]
  by_cases hk : k = id
  · rw [if_pos hk, hk, h]
  · rw [if_neg hk]

/-- Forgetting a job a second time changes nothing. -/
theorem remove_remove (t : JobTable) (id : Nat) : (t.remove id).remove id = t.remove id := by
  refine remove_of_get?_eq_none ?_
  rw [get?_remove, if_pos rfl]

end View

/-! ## 5. The tables that changes lead to -/

/-- **A table that acts as a bounded map.** -/
structure ActsAsMap (t : JobTable) : Prop where
  bounded : ∀ id ∈ t.toMap, 1 ≤ id ∧ id ≤ capacity
  shows : t.Shows t.toMap
  /-- A change does to the map what it has to, and the answer is the right one. -/
  step : ∀ op, op.IsProper → t.toMap.Step op (t.answer op) (t.apply op).toMap
  entered : ∀ pid state cmdline, (Op.add pid state cmdline).IsProper →
    ((∃ id, t.answer (.add pid state cmdline) = .entered id) ↔ t.toMap.Admits pid state)
  restated : ∀ id state, t.answer (.setState id state) = .restated true ↔ t.toMap.Grants id state
  /-- What is refused changes nothing, in the table itself. -/
  refused : ∀ op e, t.answer op = .refused e → t.apply op = t
  kept : ∀ id state, t.answer (.setState id state) = .restated false →
    t.apply (.setState id state) = t
  absent : ∀ id ∉ t.toMap, t.remove id = t
  idempotent : ∀ id, (t.remove id).remove id = t.remove id

theorem WellFormed.actsAsMap {t : JobTable} (ht : t.WellFormed) : t.ActsAsMap where
  bounded id hid := by
    obtain ⟨a, ha⟩ := Option.isSome_iff_exists.1 (ht.mem_toMap.1 hid)
    exact le_capacity_of_get? ha
  shows := ht.shows_toMap
  step _ hop := ht.step_toMap hop
  entered pid state cmdline hop := (ht.step_toMap hop).entered_iff
  restated id state := (ht.step_setState id state).restated_iff
  refused op e h := by
    cases op with
    | add pid state cmdline =>
      cases hadd : t.add pid state cmdline with
      | ok r =>
        rw [answer_add_of_ok hadd] at h
        cases h
      | error e' => exact apply_add_of_error hadd
    | remove id => cases h
    | setState id state => cases h
  kept id state h := by
    show (t.setState id state).getD t = t
    cases hset : t.setState id state with
    | none => rfl
    | some t' =>
      rw [answer, hset] at h
      cases h
  absent id hid := by
    rw [ht.mem_toMap] at hid
    exact remove_of_get?_eq_none (Option.not_isSome_iff_eq_none.1 hid)
  idempotent := t.remove_remove

/-- **After any run of changes of the empty table the table acts as a bounded map, and the run was
one of the map.** -/
theorem run_empty_acts_as_map (before : List Op) :
    (empty.run before).ActsAsMap ∧
      ((∀ op ∈ before, op.IsProper) →
        (∅ : JobMap).Run before (empty.answers before) (empty.run before).toMap) :=
  ⟨(wellFormed_empty.run before).actsAsMap, fun h => wellFormed_empty.run_toMap h⟩

/-- A table with a hole at 1 and its foreground taken: a process that is already there is the first
reason to refuse a job, and one in the background takes the hole. -/
theorem run_empty_acts_as_map_hole :
    let before : List Op :=
      [.add 7 .background "a &", .add 8 .foreground "b", .add 9 .background "c &", .remove 1]
    let t := empty.run before
    (∅ : JobMap).Run before [.entered 1, .entered 2, .entered 3, .forgotten] t.toMap ∧
      t.toMap.Step (.add 9 .foreground "d") (.refused (.duplicatePid 9)) t.toMap ∧
      t.toMap.Step (.add 5 .foreground "d") (.refused (.foregroundBusy 2)) t.toMap ∧
      t.toMap.Step (.add 5 .background "d &") (.entered 1)
        (t.apply (.add 5 .background "d &")).toMap := by
  intro before t
  obtain ⟨hacts, hrun⟩ := run_empty_acts_as_map before
  exact ⟨hrun (by decide), hacts.step (.add 9 .foreground "d") (by decide),
    hacts.step (.add 5 .foreground "d") (by decide),
    hacts.step (.add 5 .background "d &") (by decide)⟩

end JobTable

end JobShell
