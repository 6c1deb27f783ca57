import Mathlib.Data.List.Nodup
import JobShell.Proofs.Table.Observation

/-!
# The order in which children are heard of

As long as each process changed once, it does not matter in which order the changes are taken.

* `Reflects t cs t'` says what a table `t` becomes through changes that are known as a set: it has
  no place for an order, and `Reflects.unique` says that it leaves one table.
* `reflects_observeAll` says that changes one after the other come to that.
* `notice?` is the line about a change, told from the table before all of them;
  `lines_observeAll` says that these are the lines, one change at a time.
-/

namespace JobShell

/-- No process changed twice. -/
def ChildStatus.OnePerProcess (cs : List ChildStatus) : Prop := (cs.map (·.pid)).Nodup

instance (cs : List ChildStatus) : Decidable (ChildStatus.OnePerProcess cs) :=
  inferInstanceAs (Decidable (List.Nodup _))

namespace JobTable

open ChildStatus (OnePerProcess)

variable {t t' : JobTable} {cs : List ChildStatus}

/-! ## 1. The table -/

/-- Tables that show the same are the same. -/
theorem eq_of_get? (h : ∀ id, t.get? id = t'.get? id) : t = t' := by
  obtain ⟨slots, hlen⟩ := t
  obtain ⟨slots', hlen'⟩ := t'
  have hslots : slots = slots' := by
    refine List.ext_getElem (hlen.trans hlen'.symm) fun i hi hi' => ?_
    have hi : slots[i]?.join = slots'[i]?.join := h (i + 1)
    rwa [List.getElem?_eq_getElem, List.getElem?_eq_getElem, Option.join_some,
      Option.join_some] at hi
  subst hslots
  rfl

/-- **What a table becomes through changes of children, whatever their order**: jobs of processes
that ended are gone, jobs of processes that were stopped are stopped, and all else stays as it is. -/
structure Reflects (t : JobTable) (cs : List ChildStatus) (t' : JobTable) : Prop where
  ended : ∀ {c id a}, c ∈ cs → t.get? id = some a → c.pid = a.pid → c.isEnd = true →
    t'.get? id = none
  stopped : ∀ {c id a}, c ∈ cs → t.get? id = some a → c.pid = a.pid → c.isEnd = false →
    t'.get? id = some { a with state := .stopped }
  kept : ∀ {id a}, t.get? id = some a → (∀ c ∈ cs, c.pid ≠ a.pid) → t'.get? id = some a
  none_new : ∀ {id}, t.get? id = none → t'.get? id = none

/-- **It is one table, and the changes count as a set.** -/
theorem Reflects.unique {cs' : List ChildStatus} {t₁ t₂ : JobTable} (h₁ : t.Reflects cs t₁)
    (h₂ : t.Reflects cs' t₂) (hmem : ∀ c, c ∈ cs ↔ c ∈ cs') : t₁ = t₂ := by
  refine eq_of_get? fun id => ?_
  cases ha : t.get? id with
  | none => rw [h₁.none_new ha, h₂.none_new ha]
  | some a =>
    by_cases hown : ∃ c ∈ cs, c.pid = a.pid
    · obtain ⟨c, hc, hpid⟩ := hown
      have hc' : c ∈ cs' := (hmem c).1 hc
      cases hend : c.isEnd with
      | true => rw [h₁.ended hc ha hpid hend, h₂.ended hc' ha hpid hend]
      | false => rw [h₁.stopped hc ha hpid hend, h₂.stopped hc' ha hpid hend]
    · have hother : ∀ c ∈ cs, c.pid ≠ a.pid := fun c hc hpid => hown ⟨c, hc, hpid⟩
      have hother' : ∀ c ∈ cs', c.pid ≠ a.pid := fun c hc => hother c ((hmem c).2 hc)
      rw [h₁.kept ha hother, h₂.kept ha hother']

/-- **Changes one after the other, of each process at most one, come to that.** -/
theorem WellFormed.reflects_observeAll (ht : t.WellFormed) (hone : OnePerProcess cs) :
    t.Reflects cs (t.observeAll cs).1 where
  ended {c id a} hc ha hpid hend := by
    rw [ht.get?_observeAll, ha]
    exact Job.after?_eq_none_iff.2 ⟨c, hc, hpid, hend⟩
  stopped {c id a} hc ha hpid hend := by
    rw [ht.get?_observeAll, ha, Option.bind_some]
    cases hb : a.after? cs with
    | none =>
      -- Its end would be a second change of the process.
      obtain ⟨d, hd, hdpid, hdend⟩ := Job.after?_eq_none_iff.1 hb
      have hcd : c = d := List.inj_on_of_nodup_map hone hc hd (hpid.trans hdpid.symm)
      rw [hcd, hdend] at hend
      cases hend
    | some b => rw [Job.state_after? hb ⟨c, hc, hpid⟩]
  kept {id a} ha hother := by
    rw [ht.get?_observeAll, ha]
    exact Job.after?_of_other hother
  none_new {id} hnone := by
    rw [ht.get?_observeAll, hnone]
    rfl

/-! ## 2. The lines -/

/-- The line about a change: one for a stop and one for a death by a signal, if the process has a
job. -/
def notice? (t : JobTable) (c : ChildStatus) : Option String :=
  match t.ofPid? c.pid, c.change with
  | some id, .stopped signal => some (Job.stoppedNotice id c.pid signal)
  | some id, .killed signal => some (Job.terminatedNotice id c.pid signal)
  | _, _ => none

/-- The line depends on the table only through the number of the job. -/
theorem notice?_congr {c : ChildStatus} (h : t.ofPid? c.pid = t'.ofPid? c.pid) :
    t.notice? c = t'.notice? c := by
  unfold notice?
  rw [h]

theorem line_observe (t : JobTable) (c : ChildStatus) : (t.observe c).2 = t.notice? c := by
  unfold observe notice?
  cases t.ofPid? c.pid with
  | none => rfl
  | some id =>
    cases c.change with
    | exited code => rfl
    | killed signal => rfl
    | stopped signal => rfl

/-- **A change means nothing to the look-up of another process**: what it frees or changes is not
found by other numbers. -/
theorem WellFormed.ofPid?_observe_of_other (ht : t.WellFormed) {c : ChildStatus} {pid : Int}
    (hne : pid ≠ c.pid) : (t.observe c).1.ofPid? pid = t.ofPid? pid := by
  refine Option.ext fun id => ?_
  rw [(ht.observe c).ofPid?_eq_some_iff, ht.ofPid?_eq_some_iff]
  constructor
  · intro hjob
    obtain ⟨b, hb, hpid⟩ := hjob
    rw [ht.get?_observe, Option.bind_eq_some_iff] at hb
    obtain ⟨a, ha, hab⟩ := hb
    exact ⟨a, ha, (Job.pid_after? hab).symm.trans hpid⟩
  · intro hjob
    obtain ⟨a, ha, hpid⟩ := hjob
    refine ⟨a, ?_, hpid⟩
    rw [ht.get?_observe, ha]
    refine Job.after?_of_other fun d hd => ?_
    rw [List.mem_singleton.1 hd, hpid]
    exact hne.symm

/-- **The lines about changes, of each process at most one, are told from the table before.** -/
theorem WellFormed.lines_observeAll (ht : t.WellFormed) (hone : OnePerProcess cs) :
    (t.observeAll cs).2 = cs.filterMap t.notice? := by
  induction cs generalizing t with
  | nil => rfl
  | cons c cs ih =>
    obtain ⟨hnew, hrest⟩ := List.nodup_cons.1 hone
    have same : cs.filterMap (t.observe c).1.notice? = cs.filterMap t.notice? := by
      refine List.filterMap_congr fun d hd => ?_
      have hne : d.pid ≠ c.pid := fun e => hnew (List.mem_map.2 ⟨d, hd, e⟩)
      exact notice?_congr (ht.ofPid?_observe_of_other hne)
    show (t.observe c).2.toList ++ ((t.observe c).1.observeAll cs).2 = _
    rw [ih (ht.observe c) hrest, same, line_observe, List.filterMap_cons]
    cases t.notice? c with
    | none => rfl
    | some text => rfl

end JobTable

end JobShell
