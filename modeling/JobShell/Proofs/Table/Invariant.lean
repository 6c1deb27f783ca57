import JobShell.Job.Ref

/-!
# What holds of every job table

* `WellFormed` is the invariant: a job stands at the place of its number, in a state that a job can
  have; no process has two jobs, and at most one job is in the foreground.
* `ofPid?_eq_some_iff`, `foreground?_eq_some_iff`, `foregroundPid?_eq_some_iff` say what the look-ups
  find in a well-formed table, in terms of the view `get?`.
* `get?_add`, `get?_setState` say what a change does to the view, and when it is made.
* `WellFormed.apply` says that every change keeps the invariant, `WellFormed.run` that lists of
  changes do.
-/

namespace JobShell

namespace JobTable

/-! ## 1. The invariant -/

/-- **The invariant of the table.** -/
structure WellFormed (t : JobTable) : Prop where
  /-- A job has the number of its place. -/
  id_eq : ∀ {id : Nat} {a : Job}, t.get? id = some a → a.id = id
  /-- A job is in a state that a job can have. -/
  live : ∀ {id : Nat} {a : Job}, t.get? id = some a → a.state ≠ .undefined
  /-- A process has one job. -/
  pid_inj : ∀ {i k : Nat} {a b : Job}, t.get? i = some a → t.get? k = some b → a.pid = b.pid → i = k
  /-- One job is in the foreground. -/
  foreground_inj : ∀ {i k : Nat} {a b : Job}, t.get? i = some a → t.get? k = some b →
    a.state = .foreground → b.state = .foreground → i = k

theorem wellFormed_empty : WellFormed .empty where
  id_eq h := by simp at h
  live h := by simp at h
  pid_inj h := by simp at h
  foreground_inj h := by simp at h

/-! ## 2. Looking up -/

section Lookup

variable {t : JobTable}

/-- The jobs are what the view shows. -/
theorem mem_jobs_iff {a : Job} : a ∈ t.jobs ↔ ∃ id, t.get? id = some a := by
  unfold jobs
  rw [List.mem_filterMap]
  constructor
  · intro hentry
    obtain ⟨entry, hmem, hentry⟩ := hentry
    obtain ⟨i, hi⟩ := List.getElem?_of_mem hmem
    refine ⟨i + 1, ?_⟩
    rw [get?_succ, hi]
    exact hentry
  · intro hget
    obtain ⟨id, h⟩ := hget
    cases id with
    | zero => simp at h
    | succ i =>
      rw [get?_succ, Option.join_eq_some_iff] at h
      exact ⟨some a, List.mem_of_getElem? h, rfl⟩

/-- A job found by what it is known by is the one of its number. -/
theorem WellFormed.find?_map_id (ht : t.WellFormed) (p : Job → Bool) (id : Nat)
    (hp : ∀ {i k : Nat} {a b : Job}, t.get? i = some a → t.get? k = some b →
      p a = true → p b = true → i = k) :
    (t.jobs.find? p).map (·.id) = some id ↔ ∃ a, t.get? id = some a ∧ p a = true := by
  rw [Option.map_eq_some_iff]
  constructor
  · intro hfound
    obtain ⟨a, hfind, rfl⟩ := hfound
    obtain ⟨k, hk⟩ := mem_jobs_iff.1 (List.mem_of_find?_eq_some hfind)
    have hid : a.id = k := ht.id_eq hk
    exact ⟨a, hid ▸ hk, List.find?_some hfind⟩
  · intro hjob
    obtain ⟨a, ha, hpa⟩ := hjob
    cases hfind : t.jobs.find? p with
    | none =>
      have hno := List.find?_eq_none.1 hfind a (mem_jobs_iff.2 ⟨id, ha⟩)
      exact absurd hpa hno
    | some b =>
      obtain ⟨k, hk⟩ := mem_jobs_iff.1 (List.mem_of_find?_eq_some hfind)
      have hki : k = id := hp hk ha (List.find?_some hfind) hpa
      exact ⟨b, rfl, (ht.id_eq hk).trans hki⟩

theorem pidOf?_eq_some_iff {id : Nat} {pid : Int} :
    t.pidOf? id = some pid ↔ ∃ a, t.get? id = some a ∧ a.pid = pid := by
  unfold pidOf?
  rw [Option.map_eq_some_iff]

/-- **A process finds its job.** -/
theorem WellFormed.ofPid?_eq_some_iff (ht : t.WellFormed) {pid : Int} {id : Nat} :
    t.ofPid? pid = some id ↔ ∃ a, t.get? id = some a ∧ a.pid = pid := by
  have h := ht.find?_map_id (·.pid == pid) id fun hi hk ha hb =>
    ht.pid_inj hi hk ((beq_iff_eq.1 ha).trans (beq_iff_eq.1 hb).symm)
  simpa [ofPid?] using h

/-- No job of a process is found if there is none. -/
theorem ofPid?_eq_none_iff {pid : Int} :
    t.ofPid? pid = none ↔ ∀ id a, t.get? id = some a → a.pid ≠ pid := by
  unfold ofPid?
  rw [Option.map_eq_none_iff, List.find?_eq_none]
  constructor
  · intro h id a ha e
    exact h a (mem_jobs_iff.2 ⟨id, ha⟩) (beq_iff_eq.2 e)
  · intro h a hmem e
    obtain ⟨id, ha⟩ := mem_jobs_iff.1 hmem
    exact h id a ha (beq_iff_eq.1 e)

/-- **The foreground is found where a job owns it.** -/
theorem WellFormed.foreground?_eq_some_iff (ht : t.WellFormed) {id : Nat} :
    t.foreground? = some id ↔ ∃ a, t.get? id = some a ∧ a.state = .foreground := by
  have h := ht.find?_map_id (·.state == .foreground) id fun hi hk ha hb =>
    ht.foreground_inj hi hk (beq_iff_eq.1 ha) (beq_iff_eq.1 hb)
  simpa [foreground?] using h

theorem foreground?_eq_none_iff :
    t.foreground? = none ↔ ∀ id a, t.get? id = some a → a.state ≠ .foreground := by
  unfold foreground?
  rw [Option.map_eq_none_iff, List.find?_eq_none]
  constructor
  · intro h id a ha e
    exact h a (mem_jobs_iff.2 ⟨id, ha⟩) (beq_iff_eq.2 e)
  · intro h a hmem e
    obtain ⟨id, ha⟩ := mem_jobs_iff.1 hmem
    exact h id a ha (beq_iff_eq.1 e)

/-- **The process in the foreground is the one of the job that owns it.** -/
theorem WellFormed.foregroundPid?_eq_some_iff (ht : t.WellFormed) {pid : Int} :
    t.foregroundPid? = some pid ↔
      ∃ id a, t.get? id = some a ∧ a.state = .foreground ∧ a.pid = pid := by
  unfold foregroundPid?
  rw [Option.bind_eq_some_iff]
  constructor
  · intro howner
    obtain ⟨id, hfg, hpid⟩ := howner
    obtain ⟨a, ha, hst⟩ := ht.foreground?_eq_some_iff.1 hfg
    obtain ⟨b, hb, hp⟩ := pidOf?_eq_some_iff.1 hpid
    have hab : a = b := Option.some.inj (ha.symm.trans hb)
    exact ⟨id, a, ha, hst, hab ▸ hp⟩
  · intro hjob
    obtain ⟨id, a, ha, hst, hp⟩ := hjob
    exact ⟨id, ht.foreground?_eq_some_iff.2 ⟨a, ha, hst⟩, pidOf?_eq_some_iff.2 ⟨a, ha, hp⟩⟩

theorem WellFormed.foregroundPid?_eq_none_iff (ht : t.WellFormed) :
    t.foregroundPid? = none ↔ t.foreground? = none := by
  rw [foreground?_eq_none_iff]
  constructor
  · intro h id a ha hst
    have hsome := ht.foregroundPid?_eq_some_iff.2 ⟨id, a, ha, hst, rfl⟩
    rw [h] at hsome
    cases hsome
  · intro h
    refine Option.eq_none_iff_forall_ne_some.2 fun pid hpid => ?_
    obtain ⟨id, a, ha, hst, _⟩ := ht.foregroundPid?_eq_some_iff.1 hpid
    exact h id a ha hst

/-- A reference that is resolved means a job. -/
theorem WellFormed.resolve?_eq_some (ht : t.WellFormed) {ref : JobRef} {id : Nat} {pid : Int}
    (h : ref.resolve? t = some (id, pid)) : ∃ a, t.get? id = some a ∧ a.pid = pid := by
  cases ref with
  | job k =>
    obtain ⟨pid', hk, he⟩ := Option.map_eq_some_iff.1 h
    cases he
    exact pidOf?_eq_some_iff.1 hk
  | process p =>
    obtain ⟨k, hk, he⟩ := Option.map_eq_some_iff.1 h
    cases he
    exact ht.ofPid?_eq_some_iff.1 hk

/-- Whether the table is full shows in the view. -/
theorem freeSlot?_eq_none_iff : t.freeSlot? = none ↔ t.isFull = true := by
  unfold freeSlot? isFull
  rw [List.findIdx?_eq_none_iff, List.all_eq_true]
  constructor
  · intro h x hx
    cases x with
    | none => exact absurd (h none hx) (by decide)
    | some a => rfl
  · intro h x hx
    cases x with
    | none => exact absurd (h none hx) (by decide)
    | some a => rfl

end Lookup

/-! ## 3. What a change takes, and what it makes -/

section Changes

variable {t t' : JobTable}

theorem freeSlot?_eq_some {i : Nat} (h : t.freeSlot? = some i) :
    i < capacity ∧ t.get? (i + 1) = none := by
  obtain ⟨hlt, hnone, _⟩ := List.findIdx?_eq_some_iff_getElem.1 h
  refine ⟨t.length_slots ▸ hlt, ?_⟩
  rw [get?_succ, List.getElem?_eq_getElem hlt]
  exact Option.isNone_iff_eq_none.1 hnone

/-- **All that is behind a job that was entered.** -/
theorem add_eq_ok {pid : Int} {state : JobState} {cmdline : String} {id : Nat}
    (h : t.add pid state cmdline = .ok (id, t')) :
    (state = .foreground ∨ state = .background) ∧ t.ofPid? pid = none ∧
      (state = .foreground → t.foreground? = none) ∧
      ∃ i, t.freeSlot? = some i ∧ id = i + 1 ∧
        t' = t.put i (some ⟨i + 1, pid, state, StoredLine.ofString cmdline⟩) := by
  unfold add at h
  split at h
  · cases h
  · rename_i hstate
    split at h
    · cases h
    · rename_i hpid
      split at h
      · cases h
      · rename_i hfg
        split at h
        · cases h
        · rename_i i hfree
          cases h
          refine ⟨?_, ?_, fun hst => ?_, i, hfree, rfl, rfl⟩
          · by_cases hf : state = .foreground
            · exact Or.inl hf
            · exact Or.inr (Classical.not_not.1 fun hb => hstate ⟨hf, hb⟩)
          · simpa using hpid
          · rwa [if_pos hst] at hfg

/-- **All that is behind a job that was refused**: the first reason there is. -/
theorem add_eq_error {pid : Int} {state : JobState} {cmdline : String} {e : AddError}
    (h : t.add pid state cmdline = .error e) :
    (e = .badStart state ∧ state ≠ .foreground ∧ state ≠ .background) ∨
      (e = .duplicatePid pid ∧ (t.ofPid? pid).isSome) ∨
      (∃ owner, e = .foregroundBusy owner ∧ state = .foreground ∧ t.foreground? = some owner ∧
        t.ofPid? pid = none) ∨
      (e = .full ∧ t.freeSlot? = none ∧ t.ofPid? pid = none ∧
        (state = .foreground → t.foreground? = none)) := by
  unfold add at h
  split at h
  · rename_i hstate
    cases h
    exact Or.inl ⟨rfl, hstate⟩
  · split at h
    · rename_i hpid
      cases h
      exact Or.inr (Or.inl ⟨rfl, hpid⟩)
    · rename_i hpid
      have hfresh : t.ofPid? pid = none := by simpa using hpid
      split at h
      · rename_i owner hfg
        cases h
        refine Or.inr (Or.inr (Or.inl ⟨owner, rfl, ?_⟩))
        split at hfg
        · rename_i hst
          exact ⟨hst, hfg, hfresh⟩
        · cases hfg
      · rename_i hfg
        split at h
        · rename_i hfree
          cases h
          refine Or.inr (Or.inr (Or.inr ⟨rfl, hfree, hfresh, fun hst => ?_⟩))
          rwa [if_pos hst] at hfg
        · cases h

/-- **A job that was entered shows at its number, which was free, and nothing else changes.** -/
theorem get?_add {pid : Int} {state : JobState} {cmdline : String} {id : Nat}
    (h : t.add pid state cmdline = .ok (id, t')) :
    t.get? id = none ∧ ∀ k, t'.get? k =
      if k = id then some ⟨id, pid, state, StoredLine.ofString cmdline⟩ else t.get? k := by
  obtain ⟨_, _, _, i, hfree, rfl, rfl⟩ := add_eq_ok h
  obtain ⟨hi, hnone⟩ := freeSlot?_eq_some hfree
  exact ⟨hnone, get?_put t hi _⟩

/-- **A process that has no job gets one where there is room**, in the foreground if nobody owns
it. -/
theorem exists_add {pid : Int} {state : JobState}
    (hstate : state = .foreground ∨ state = .background) (hroom : t.isFull = false)
    (hpid : t.ofPid? pid = none) (hfg : state = .foreground → t.foreground? = none)
    (cmdline : String) : ∃ id t', t.add pid state cmdline = .ok (id, t') := by
  cases h : t.add pid state cmdline with
  | ok r => exact ⟨r.1, r.2, rfl⟩
  | error e =>
    rcases add_eq_error h with ⟨-, hno, hno'⟩ | ⟨-, hsome⟩ | ⟨owner, -, hst, howner, -⟩ |
      ⟨-, hnone, -⟩
    · exact (hstate.elim hno hno').elim
    · rw [hpid] at hsome
      cases hsome
    · rw [hfg hst] at howner
      cases howner
    · rw [freeSlot?_eq_none_iff, hroom] at hnone
      cases hnone

/-- **A job that is entered and forgotten leaves no trace in the table.** -/
theorem remove_add {pid : Int} {state : JobState} {cmdline : String} {id : Nat}
    (h : t.add pid state cmdline = .ok (id, t')) : t'.remove id = t := by
  obtain ⟨_, _, _, i, hfree, rfl, rfl⟩ := add_eq_ok h
  obtain ⟨hlt, hnone, _⟩ := List.findIdx?_eq_some_iff_getElem.1 hfree
  have hclear : t.slots.set i none = t.slots := by
    refine (congrArg (t.slots.set i) ?_).trans (List.set_getElem_self hlt)
    exact (Option.isNone_iff_eq_none.1 hnone).symm
  rw [remove, put, JobTable.mk.injEq]
  exact (List.set_set ..).trans hclear

/-- **All that is behind a change of state that was made.** -/
theorem setState_eq_some {id : Nat} {state : JobState} (h : t.setState id state = some t') :
    state ≠ .undefined ∧ (state = .foreground → ∀ k, t.foreground? = some k → k = id) ∧
      ∃ a, t.get? id = some a ∧ t' = t.put (id - 1) (some { a with state }) := by
  unfold setState at h
  split at h
  · cases h
  · rename_i hlive
    split at h
    · cases h
    · rename_i hfg
      obtain ⟨a, ha, rfl⟩ := Option.map_eq_some_iff.1 h
      refine ⟨hlive, fun hst k hk => Classical.not_not.1 fun hne => hfg ⟨hst, ?_⟩, a, ha, rfl⟩
      rw [hk]
      simpa using hne

/-- **A change of state shows at its number, and changes nothing but the state.** -/
theorem get?_setState {id : Nat} {state : JobState} (h : t.setState id state = some t') (k : Nat) :
    t'.get? k = if k = id then (t.get? id).map ({ · with state }) else t.get? k := by
  obtain ⟨_, _, a, ha, rfl⟩ := setState_eq_some h
  obtain ⟨h1, hcap⟩ := le_capacity_of_get? ha
  have hid : id - 1 + 1 = id := by omega
  rw [get?_put t (by omega), hid, ha]
  rfl

/-- A state that a job can have is given to every job there is, the foreground only while no other
job owns it. -/
theorem setState_isSome {id : Nat} {state : JobState} {a : Job} (ha : t.get? id = some a)
    (hlive : state ≠ .undefined)
    (hfg : state = .foreground → ∀ k, t.foreground? = some k → k = id) :
    (t.setState id state).isSome := by
  unfold setState
  rw [if_neg hlive, if_neg, ha]
  · rfl
  · intro hbusy
    obtain ⟨hst, hany⟩ := hbusy
    cases hk : t.foreground? with
    | none =>
      rw [hk] at hany
      cases hany
    | some k =>
      rw [hk] at hany
      have hne : k ≠ id := by simpa using hany
      exact hne (hfg hst k hk)

/-- A new job that finds the foreground free is the only one that can own it. -/
theorem owner_add {pid : Int} {state : JobState} {cmdline : String} {id k : Nat} {b : Job}
    (h : t.add pid state cmdline = .ok (id, t')) (hidle : t.foreground? = none)
    (hb : t'.get? k = some b) (hst : b.state = .foreground) : b.pid = pid ∧ state = .foreground := by
  rw [(get?_add h).2 k] at hb
  split at hb
  · cases hb
    exact ⟨rfl, hst⟩
  · exact absurd hst (foreground?_eq_none_iff.1 hidle k b hb)

theorem owner_setState {id k : Nat} {state : JobState} {a b : Job}
    (h : t.setState id state = some t') (ha : t.get? id = some a) (hidle : t.foreground? = none)
    (hb : t'.get? k = some b) (hst : b.state = .foreground) :
    b.pid = a.pid ∧ state = .foreground := by
  rw [get?_setState h k] at hb
  split at hb
  · rw [ha] at hb
    cases hb
    exact ⟨rfl, hst⟩
  · exact absurd hst (foreground?_eq_none_iff.1 hidle k b hb)

/-! ## 4. Every change keeps the invariant -/

/-- **A slot may be filled with a job of its number, if no other job has its process, nor the
foreground where it asks for it.** Every change that enters or replaces a job goes through this. -/
theorem WellFormed.put (ht : t.WellFormed) {i : Nat} (hi : i < capacity) {a : Job}
    (hid : a.id = i + 1) (hlive : a.state ≠ .undefined)
    (hpid : ∀ k b, t.get? k = some b → k ≠ i + 1 → b.pid ≠ a.pid)
    (hfg : a.state = .foreground → ∀ k b, t.get? k = some b → k ≠ i + 1 → b.state ≠ .foreground) :
    (t.put i (some a)).WellFormed := by
  -- A job of the new table is the new one at its place, or an old one elsewhere.
  have look : ∀ {k b}, (t.put i (some a)).get? k = some b →
      (k = i + 1 ∧ b = a) ∨ (k ≠ i + 1 ∧ t.get? k = some b) := by
    intro k b h
    rw [get?_put t hi] at h
    by_cases hk : k = i + 1
    · rw [if_pos hk] at h
      exact Or.inl ⟨hk, (Option.some.inj h).symm⟩
    · rw [if_neg hk] at h
      exact Or.inr ⟨hk, h⟩
  constructor
  · intro k b hb
    rcases look hb with ⟨rfl, rfl⟩ | ⟨_, hb⟩
    · exact hid
    · exact ht.id_eq hb
  · intro k b hb
    rcases look hb with ⟨_, rfl⟩ | ⟨_, hb⟩
    · exact hlive
    · exact ht.live hb
  · intro k l b c hb hc e
    rcases look hb with ⟨rfl, rfl⟩ | ⟨hk, hb'⟩
    · rcases look hc with ⟨rfl, _⟩ | ⟨hl, hc'⟩
      · rfl
      · exact absurd e.symm (hpid l c hc' hl)
    · rcases look hc with ⟨_, rfl⟩ | ⟨_, hc'⟩
      · exact absurd e (hpid k b hb' hk)
      · exact ht.pid_inj hb' hc' e
  · intro k l b c hb hc eb ec
    rcases look hb with ⟨rfl, rfl⟩ | ⟨hk, hb'⟩
    · rcases look hc with ⟨rfl, _⟩ | ⟨hl, hc'⟩
      · rfl
      · exact absurd ec (hfg eb l c hc' hl)
    · rcases look hc with ⟨_, rfl⟩ | ⟨_, hc'⟩
      · exact absurd eb (hfg ec k b hb' hk)
      · exact ht.foreground_inj hb' hc' eb ec

theorem WellFormed.add (ht : t.WellFormed) {pid : Int} {state : JobState} {cmdline : String}
    {id : Nat} (h : t.add pid state cmdline = .ok (id, t')) : t'.WellFormed := by
  obtain ⟨hstate, hpid, hfg, i, hfree, rfl, rfl⟩ := add_eq_ok h
  obtain ⟨hi, _⟩ := freeSlot?_eq_some hfree
  refine ht.put hi rfl ?_ (fun k b hb _ => ofPid?_eq_none_iff.1 hpid k b hb)
    (fun hst k b hb _ => foreground?_eq_none_iff.1 (hfg hst) k b hb)
  rcases hstate with rfl | rfl
  · exact JobState.noConfusion
  · exact JobState.noConfusion

theorem WellFormed.setState (ht : t.WellFormed) {id : Nat} {state : JobState}
    (h : t.setState id state = some t') : t'.WellFormed := by
  obtain ⟨hlive, hfg, a, ha, rfl⟩ := setState_eq_some h
  obtain ⟨h1, hcap⟩ := le_capacity_of_get? ha
  have hid : id - 1 + 1 = id := by omega
  refine ht.put (by omega) ((ht.id_eq ha).trans hid.symm) hlive ?_ ?_
  · intro k b hb hk e
    exact hk ((ht.pid_inj hb ha e).trans hid.symm)
  · intro hst k b hb hk e
    have hkid : k = id := hfg hst k (ht.foreground?_eq_some_iff.2 ⟨b, hb, e⟩)
    exact hk (hkid.trans hid.symm)

theorem WellFormed.withState (ht : t.WellFormed) (id : Nat) (state : JobState) :
    (t.withState id state).WellFormed := by
  unfold JobTable.withState
  cases h : t.setState id state with
  | none => exact ht
  | some t' => exact ht.setState h

theorem WellFormed.remove (ht : t.WellFormed) (id : Nat) : (t.remove id).WellFormed := by
  have old : ∀ {k a}, (t.remove id).get? k = some a → t.get? k = some a := by
    intro k a h
    rw [get?_remove] at h
    split at h
    · cases h
    · exact h
  exact ⟨fun h => ht.id_eq (old h), fun h => ht.live (old h),
    fun ha hb e => ht.pid_inj (old ha) (old hb) e,
    fun ha hb ea eb => ht.foreground_inj (old ha) (old hb) ea eb⟩

/-- **Every change keeps the invariant.** -/
theorem WellFormed.apply (ht : t.WellFormed) (op : Op) : (t.apply op).WellFormed := by
  cases op with
  | add pid state cmdline =>
    cases h : t.add pid state cmdline with
    | error e => rwa [apply_add_of_error h]
    | ok r =>
      obtain ⟨id, t'⟩ := r
      rw [apply_add_of_ok h]
      exact ht.add h
  | remove id => exact ht.remove id
  | setState id state => exact ht.withState id state

/-- **Every run of changes keeps the invariant.** -/
theorem WellFormed.run (ht : t.WellFormed) (ops : List Op) : (t.run ops).WellFormed := by
  induction ops generalizing t with
  | nil => exact ht
  | cons op ops ih => exact ih (ht.apply op)

end Changes

end JobTable

end JobShell
