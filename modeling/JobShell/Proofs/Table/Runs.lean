import JobShell.Proofs.Table.Invariant

/-!
# Runs of changes

What the table is like after any list of changes of the empty table, in terms of its slots, its jobs
and its look-ups.

* `Consistent` is what a user of the table relies on; every well-formed table has it.
* `get?_run` follows one job through a run: until it is removed, only its state changes.
* `run_empty_consistent` puts the two together.
-/

namespace JobShell

namespace JobTable

/-! ## 1. What is relied on -/

/-- **What a user of the table relies on.** -/
structure Consistent (t : JobTable) : Prop where
  /-- Slot `i` is the place of job `i + 1`, and holds a job in a state that a job can have. -/
  slot : ∀ i a, t.slots[i]? = some (some a) → a.id = i + 1 ∧ a.state ≠ .undefined
  /-- No two jobs have one process. -/
  pids : t.jobs.Pairwise fun a b => a.pid ≠ b.pid
  /-- No two jobs are in the foreground. -/
  foregrounds : t.jobs.Pairwise fun a b => ¬ (a.state = .foreground ∧ b.state = .foreground)
  /-- Looking up a process and looking up a job undo each other. -/
  ofPid : ∀ pid id, t.ofPid? pid = some id ↔ t.pidOf? id = some pid
  /-- The number found is the one of the job in the foreground. -/
  foreground : ∀ id, t.foreground? = some id ↔ ∃ a, t.get? id = some a ∧ a.state = .foreground
  /-- The process found is the one of the job in the foreground. -/
  foregroundPid : ∀ pid, t.foregroundPid? = some pid ↔
    ∃ a ∈ t.jobs, a.state = .foreground ∧ a.pid = pid

section Consistent

variable {t : JobTable}

/-- What holds of a job and one of a greater number holds of the jobs in their order. -/
theorem pairwise_jobs {R : Job → Job → Prop}
    (h : ∀ i k a b, t.get? i = some a → t.get? k = some b → i < k → R a b) :
    t.jobs.Pairwise R := by
  unfold jobs
  rw [List.pairwise_filterMap, List.pairwise_iff_getElem]
  intro i k hi hk hik a ha b hb
  have hga : t.get? (i + 1) = some a := by
    rw [get?_succ, List.getElem?_eq_getElem hi]
    exact ha
  have hgb : t.get? (k + 1) = some b := by
    rw [get?_succ, List.getElem?_eq_getElem hk]
    exact hb
  exact h (i + 1) (k + 1) a b hga hgb (Nat.succ_lt_succ hik)

/-- **A well-formed table can be relied on.** -/
theorem WellFormed.consistent (ht : t.WellFormed) : t.Consistent where
  slot i a h := by
    have ha : t.get? (i + 1) = some a := by rw [get?_succ, h]; rfl
    exact ⟨ht.id_eq ha, ht.live ha⟩
  pids := pairwise_jobs fun _ _ _ _ ha hb hlt e => Nat.ne_of_lt hlt (ht.pid_inj ha hb e)
  foregrounds := pairwise_jobs fun _ _ _ _ ha hb hlt e =>
    Nat.ne_of_lt hlt (ht.foreground_inj ha hb e.1 e.2)
  ofPid pid id := ht.ofPid?_eq_some_iff.trans pidOf?_eq_some_iff.symm
  foreground _ := ht.foreground?_eq_some_iff
  foregroundPid pid := by
    rw [ht.foregroundPid?_eq_some_iff]
    constructor
    · intro hjob
      obtain ⟨id, a, ha, hst, hp⟩ := hjob
      exact ⟨a, mem_jobs_iff.2 ⟨id, ha⟩, hst, hp⟩
    · intro hlisted
      obtain ⟨a, hmem, hst, hp⟩ := hlisted
      obtain ⟨id, ha⟩ := mem_jobs_iff.1 hmem
      exact ⟨id, a, ha, hst, hp⟩

end Consistent

/-! ## 2. One job through a run -/

section Follow

variable {t : JobTable} {id : Nat} {a : Job}

/-- A change other than the removal of a job leaves all of the job but its state. -/
theorem get?_apply (ha : t.get? id = some a) {op : Op} (hop : op ≠ .remove id) :
    ∃ state, (t.apply op).get? id = some { a with state } := by
  cases op with
  | add pid state cmdline =>
    cases h : t.add pid state cmdline with
    | error e =>
      rw [apply_add_of_error h]
      exact ⟨a.state, ha⟩
    | ok r =>
      obtain ⟨k, t'⟩ := r
      obtain ⟨hfree, hget⟩ := get?_add h
      have hne : id ≠ k := fun e => by
        rw [← e, ha] at hfree
        cases hfree
      rw [apply_add_of_ok h, hget, if_neg hne]
      exact ⟨a.state, ha⟩
  | remove k =>
    have hne : id ≠ k := fun e => hop (e ▸ rfl)
    refine ⟨a.state, ?_⟩
    show (t.remove k).get? id = _
    rw [get?_remove, if_neg hne]
    exact ha
  | setState k state =>
    show ∃ s, (t.withState k state).get? id = _
    unfold withState
    cases h : t.setState k state with
    | none => exact ⟨a.state, ha⟩
    | some t' =>
      show ∃ s, t'.get? id = _
      rw [get?_setState h]
      by_cases hk : id = k
      · rw [if_pos hk, ← hk, ha]
        exact ⟨state, rfl⟩
      · rw [if_neg hk]
        exact ⟨a.state, ha⟩

/-- **Until a job is removed, only its state changes.** -/
theorem get?_run (ha : t.get? id = some a) {ops : List Op} (hops : .remove id ∉ ops) :
    ∃ state, (t.run ops).get? id = some { a with state } := by
  induction ops generalizing t a with
  | nil => exact ⟨a.state, ha⟩
  | cons op ops ih =>
    rw [List.mem_cons, not_or] at hops
    obtain ⟨state, h⟩ := get?_apply ha (Ne.symm hops.1)
    obtain ⟨state', h'⟩ := ih h hops.2
    exact ⟨state', h'⟩

end Follow

/-! ## 3. Every run -/

theorem run_append (t : JobTable) (a b : List Op) : t.run (a ++ b) = (t.run a).run b :=
  List.foldl_append

/-- **After any run of changes the table can be relied on, and from the change that entered a job to
the one that removes it, the job keeps its process and its command line.** -/
theorem run_empty_consistent (ops : List Op) :
    (empty.run ops).Consistent ∧
      ∀ before pid state cmdline during id t', ops = before ++ .add pid state cmdline :: during →
        (empty.run before).add pid state cmdline = .ok (id, t') → .remove id ∉ during →
        ∃ s, (empty.run ops).get? id = some ⟨id, pid, s, StoredLine.ofString cmdline⟩ := by
  refine ⟨(wellFormed_empty.run ops).consistent, ?_⟩
  rintro before pid state cmdline during id t' rfl hadd hkept
  have hrun : empty.run (before ++ .add pid state cmdline :: during) = t'.run during := by
    rw [run_append]
    show ((empty.run before).apply (.add pid state cmdline)).run during = _
    rw [apply_add_of_ok hadd]
  have hentered : t'.get? id = some ⟨id, pid, state, StoredLine.ofString cmdline⟩ := by
    rw [(get?_add hadd).2, if_pos rfl]
  obtain ⟨s, hs⟩ := get?_run hentered hkept
  exact ⟨s, hrun ▸ hs⟩

/-- A job keeps its process while it is stopped and another one takes the foreground. -/
theorem run_empty_consistent_stopped :
    ∃ s, (empty.run [.add 7 .background "a &", .add 8 .foreground "b", .setState 2 .stopped,
      .add 9 .foreground "c", .remove 1]).get? 2 = some ⟨2, 8, s, StoredLine.ofString "b"⟩ :=
  (run_empty_consistent _).2 [.add 7 .background "a &"] 8 .foreground "b"
    [.setState 2 .stopped, .add 9 .foreground "c", .remove 1] 2 _ rfl rfl (by decide)

end JobTable

end JobShell
