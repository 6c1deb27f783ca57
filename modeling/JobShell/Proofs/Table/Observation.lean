import JobShell.Proofs.Table.Invariant
import JobShell.Shell.Handler

/-!
# The table and the changes of children

* `Job.after?` is what becomes of one job through changes of children: those of other processes mean
  nothing, a stop stops it, an end ends it.
* `get?_observeAll` says that the table goes through changes job by job: each number shows what
  becomes of its own job.
* `foregroundPid?_observeAll` says when a process still owns the foreground: it did before, and none
  of the changes is its own. Changes of children never put a job in the foreground.
-/

namespace JobShell

/-! ## 1. One job -/

namespace Job

/-- What becomes of a job through changes of children. -/
def after? (a : Job) : List ChildStatus → Option Job
  | [] => some a
  | c :: cs =>
    if c.pid = a.pid then
      if c.isEnd then none else after? { a with state := .stopped } cs
    else after? a cs

variable {a b : Job} {c : ChildStatus} {cs : List ChildStatus}

/-- The changes can be taken one by one. -/
theorem after?_cons : a.after? (c :: cs) = (a.after? [c]).bind (·.after? cs) := by
  simp only [after?]
  split
  · split
    · rfl
    · rfl
  · rfl

/-- **Changes of other processes mean nothing.** -/
theorem after?_of_other (h : ∀ c ∈ cs, c.pid ≠ a.pid) : a.after? cs = some a := by
  induction cs with
  | nil => rfl
  | cons c cs ih =>
    rw [after?, if_neg (h c List.mem_cons_self)]
    exact ih fun d hd => h d (List.mem_cons_of_mem c hd)

/-- What is left of a job is the job, in its state or stopped. -/
theorem after?_eq_some (h : a.after? cs = some b) :
    b = a ∨ b = { a with state := .stopped } := by
  induction cs generalizing a with
  | nil =>
    cases h
    exact Or.inl rfl
  | cons c cs ih =>
    rw [after?] at h
    split at h
    · split at h
      · cases h
      · rcases ih h with rfl | rfl
        · exact Or.inr rfl
        · exact Or.inr rfl
    · exact ih h

theorem pid_after? (h : a.after? cs = some b) : b.pid = a.pid := by
  rcases after?_eq_some h with rfl | rfl
  · rfl
  · rfl

/-- **A job that went through a change of its own is stopped, if it is still there.** -/
theorem state_after? (h : a.after? cs = some b) (hown : ∃ c ∈ cs, c.pid = a.pid) :
    b = { a with state := .stopped } := by
  induction cs generalizing a with
  | nil =>
    obtain ⟨c, hc, _⟩ := hown
    cases hc
  | cons c cs ih =>
    rw [after?] at h
    split at h
    · split at h
      · cases h
      · rcases after?_eq_some h with rfl | rfl
        · rfl
        · rfl
    · rename_i hne
      obtain ⟨d, hd, hpid⟩ := hown
      rcases List.mem_cons.1 hd with rfl | hd'
      · exact absurd hpid hne
      · exact ih h ⟨d, hd', hpid⟩

/-- **A job is gone through changes exactly if its process ended in one of them.** -/
theorem after?_eq_none_iff : a.after? cs = none ↔ ∃ c ∈ cs, c.pid = a.pid ∧ c.isEnd = true := by
  induction cs generalizing a with
  | nil => simp [after?]
  | cons c cs ih =>
    simp only [after?, List.mem_cons, exists_eq_or_imp]
    split
    · rename_i hpid
      split
      · rename_i hend
        exact ⟨fun _ => Or.inl ⟨hpid, hend⟩, fun _ => rfl⟩
      · rename_i hend
        rw [ih]
        exact ⟨Or.inr, fun h => h.resolve_left fun h' => hend h'.2⟩
    · rename_i hpid
      rw [ih]
      exact ⟨Or.inr, fun h => h.resolve_left fun h' => hpid h'.1⟩

end Job

/-! ## 2. The table, job by job -/

namespace JobTable

variable {t : JobTable}

/-- What a change of a process that has a job means. -/
theorem observe_of_tracked {c : ChildStatus} {id : Nat} (h : t.ofPid? c.pid = some id) :
    (t.observe c).1 = if c.isEnd then t.remove id else t.withState id .stopped := by
  unfold observe
  rw [h]
  unfold ChildStatus.isEnd
  cases c.change with
  | exited code => rfl
  | killed signal => rfl
  | stopped signal => rfl

theorem WellFormed.observe (ht : t.WellFormed) (c : ChildStatus) : (t.observe c).1.WellFormed := by
  cases h : t.ofPid? c.pid with
  | none => rwa [observe_of_untracked h]
  | some id =>
    rw [observe_of_tracked h]
    split
    · exact ht.remove id
    · exact ht.withState id .stopped

/-- A job can always be stopped. -/
theorem get?_withState_stopped {id : Nat} {a : Job} (ha : t.get? id = some a) (k : Nat) :
    (t.withState id .stopped).get? k =
      if k = id then some { a with state := .stopped } else t.get? k := by
  have hsome : (t.setState id .stopped).isSome :=
    setState_isSome ha (fun h => by cases h) (fun h => by cases h)
  obtain ⟨t', h⟩ := Option.isSome_iff_exists.1 hsome
  unfold withState
  rw [h]
  show t'.get? k = _
  rw [get?_setState h, ha]
  rfl

/-- **A change of a child shows at the number of its job and nowhere else.** -/
theorem WellFormed.get?_observe (ht : t.WellFormed) (c : ChildStatus) (k : Nat) :
    (t.observe c).1.get? k = (t.get? k).bind (·.after? [c]) := by
  -- The job of another number belongs to another process.
  have other : ∀ id, t.ofPid? c.pid = some id → k ≠ id →
      (t.get? k).bind (·.after? [c]) = t.get? k := by
    intro id hid hk
    cases hb : t.get? k with
    | none => rfl
    | some b =>
      obtain ⟨a, ha, hpid⟩ := ht.ofPid?_eq_some_iff.1 hid
      refine Job.after?_of_other fun d hd => ?_
      rw [List.mem_singleton.1 hd, ← hpid]
      exact fun e => hk (ht.pid_inj hb ha e.symm)
  cases h : t.ofPid? c.pid with
  | none =>
    rw [observe_of_untracked h]
    cases hb : t.get? k with
    | none => rfl
    | some b =>
      refine (Job.after?_of_other fun d hd => ?_).symm
      rw [List.mem_singleton.1 hd]
      exact fun e => ofPid?_eq_none_iff.1 h k b hb e.symm
  | some id =>
    obtain ⟨a, ha, hpid⟩ := ht.ofPid?_eq_some_iff.1 h
    rw [observe_of_tracked h]
    by_cases hk : k = id
    · subst hk
      rw [ha, Option.bind_some, Job.after?, if_pos hpid.symm]
      split
      · rw [get?_remove, if_pos rfl]
      · rw [get?_withState_stopped ha, if_pos rfl]
        rfl
    · rw [other id h hk]
      split
      · rw [get?_remove, if_neg hk]
      · rw [get?_withState_stopped ha, if_neg hk]

/-! ## 3. Lists of changes -/

theorem observeAll_cons (t : JobTable) (c : ChildStatus) (cs : List ChildStatus) :
    (t.observeAll (c :: cs)).1 = ((t.observe c).1.observeAll cs).1 := rfl

theorem lines_observeAll_singleton (t : JobTable) (c : ChildStatus) :
    (t.observeAll [c]).2 = (t.observe c).2.toList := List.append_nil _

theorem WellFormed.observeAll (ht : t.WellFormed) (cs : List ChildStatus) :
    (t.observeAll cs).1.WellFormed := by
  induction cs generalizing t with
  | nil => exact ht
  | cons c cs ih => exact ih (ht.observe c)

/-- **The table goes through changes of children job by job.** -/
theorem WellFormed.get?_observeAll (ht : t.WellFormed) (cs : List ChildStatus) (k : Nat) :
    (t.observeAll cs).1.get? k = (t.get? k).bind (·.after? cs) := by
  induction cs generalizing t with
  | nil =>
    show t.get? k = (t.get? k).bind some
    rw [Option.bind_fun_some]
  | cons c cs ih =>
    rw [observeAll_cons, ih (ht.observe c), ht.get?_observe c k, Option.bind_assoc]
    congr 1
    funext a
    exact Job.after?_cons.symm

/-- Changes of children leave no job that was not there. -/
theorem WellFormed.ofPid?_observeAll (ht : t.WellFormed) {cs : List ChildStatus} {pid : Int}
    {id : Nat} (h : (t.observeAll cs).1.ofPid? pid = some id) : t.ofPid? pid = some id := by
  obtain ⟨b, hb, hpid⟩ := (ht.observeAll cs).ofPid?_eq_some_iff.1 h
  rw [ht.get?_observeAll, Option.bind_eq_some_iff] at hb
  obtain ⟨a, ha, hab⟩ := hb
  exact ht.ofPid?_eq_some_iff.2 ⟨a, ha, (Job.pid_after? hab).symm.trans hpid⟩

/-- **A process owns the foreground after changes of children exactly if it did before, and none of
the changes is its own.** -/
theorem WellFormed.foregroundPid?_observeAll (ht : t.WellFormed) (cs : List ChildStatus) (pid : Int) :
    (t.observeAll cs).1.foregroundPid? = some pid ↔
      t.foregroundPid? = some pid ∧ ∀ c ∈ cs, c.pid ≠ pid := by
  rw [(ht.observeAll cs).foregroundPid?_eq_some_iff, ht.foregroundPid?_eq_some_iff]
  constructor
  · intro hjob
    obtain ⟨id, b, hb, hst, hpid⟩ := hjob
    rw [ht.get?_observeAll, Option.bind_eq_some_iff] at hb
    obtain ⟨a, ha, hab⟩ := hb
    have hap : a.pid = pid := (Job.pid_after? hab).symm.trans hpid
    have hnone : ∀ c ∈ cs, c.pid ≠ pid := by
      intro c hc e
      have hb := Job.state_after? hab ⟨c, hc, e.trans hap.symm⟩
      rw [hb] at hst
      cases hst
    rw [Job.after?_of_other fun c hc => hap ▸ hnone c hc] at hab
    have heq : a = b := Option.some.inj hab
    exact ⟨⟨id, a, ha, heq ▸ hst, hap⟩, hnone⟩
  · intro hjob
    obtain ⟨⟨id, a, ha, hst, hpid⟩, hnone⟩ := hjob
    refine ⟨id, a, ?_, hst, hpid⟩
    rw [ht.get?_observeAll, ha]
    exact Job.after?_of_other fun c hc => hpid ▸ hnone c hc

/-- Changes of children put no job in the foreground. -/
theorem WellFormed.foreground?_observeAll (ht : t.WellFormed) (h : t.foreground? = none)
    (cs : List ChildStatus) : (t.observeAll cs).1.foreground? = none := by
  rw [foreground?_eq_none_iff]
  intro id b hb hst
  rw [ht.get?_observeAll, Option.bind_eq_some_iff] at hb
  obtain ⟨a, ha, hab⟩ := hb
  rcases Job.after?_eq_some hab with rfl | rfl
  · exact foreground?_eq_none_iff.1 h id b ha hst
  · cases hst

end JobTable

end JobShell
