import Mathlib.Data.List.Nodup
import JobShell.Process.Kernel

/-!
# What a kernel hands out

* `Kernel.reports` is the list of the changes that were not collected, in the order in which the
  children were started.
* `collect_cases` says what collecting does: the first child with a change goes, or has nothing more
  to report, and all others stay where they are.
* `collect_reports` says that it hands out the first of the reports and leaves the rest of them;
  `Distinct.collect` that children keep identifiers of their own.
-/

namespace JobShell

/-- The change that a process has to report. -/
def Process.status? (p : Process) : Option ChildStatus := p.report.map (⟨p.pid, ·⟩)

namespace Kernel

/-! ## 1. Reports -/

/-- The changes that were not collected. -/
def reports (k : Kernel) : List ChildStatus := k.processes.filterMap Process.status?

/-- Each child has an identifier of its own. -/
def Distinct (k : Kernel) : Prop := (k.processes.map (·.pid)).Nodup

variable {k : Kernel} {p : Process} {before after : List Process}

/-- Processes that have not changed have nothing to report. -/
theorem filterMap_status?_of_none {ps : List Process} (h : ∀ p ∈ ps, p.report = none) :
    ps.filterMap Process.status? = [] :=
  List.filterMap_eq_nil_iff.2 fun p hp => Option.map_eq_none_iff.2 (h p hp)

/-! ## 2. Collecting -/

/-- All other children have other identifiers. -/
theorem Distinct.other (hk : k.Distinct) (hsplit : k.processes = before ++ p :: after) :
    (∀ q ∈ before, q.pid ≠ p.pid) ∧ ∀ q ∈ after, q.pid ≠ p.pid := by
  rw [Distinct, hsplit, List.map_append, List.map_cons] at hk
  obtain ⟨_, hafter, hdisjoint⟩ := List.nodup_append.1 hk
  refine ⟨fun q hq => hdisjoint _ (List.mem_map_of_mem hq) _ List.mem_cons_self, fun q hq e => ?_⟩
  exact (List.nodup_cons.1 hafter).1 (List.mem_map.2 ⟨q, hq, e⟩)

/-- What is left of a process whose change was collected. -/
def remainder (p : Process) : List Process :=
  if p.condition = .ended then [] else [{ p with report := none }]

theorem filterMap_status?_remainder (p : Process) :
    (remainder p).filterMap Process.status? = [] := by
  unfold remainder
  split
  · rfl
  · rfl

/-- Nothing but the process itself is different afterwards. -/
theorem collect_of_find? (hk : k.Distinct) (hfind : k.processes.find? (·.report.isSome) = some p)
    (hsplit : k.processes = before ++ p :: after) :
    k.collect = ({ k with processes := before ++ remainder p ++ after }, p.status?) := by
  obtain ⟨hleft, hright⟩ := hk.other hsplit
  rw [collect, hfind, remainder]
  dsimp only
  split
  · have keep : ∀ qs : List Process, (∀ q ∈ qs, q.pid ≠ p.pid) →
        qs.filter (·.pid != p.pid) = qs :=
      fun qs h => List.filter_eq_self.2 fun q hq => bne_iff_ne.2 (h q hq)
    rw [hsplit, List.filter_append, List.filter_cons_of_neg (by simp), keep before hleft,
      keep after hright, List.append_nil]
    rfl
  · have keep : ∀ qs : List Process, (∀ q ∈ qs, q.pid ≠ p.pid) →
        (qs.map fun q => if q.pid == p.pid then { p with report := none } else q) = qs := by
      intro qs h
      refine (List.map_congr_left fun q hq => ?_).trans (List.map_id qs)
      exact if_neg (by simpa using h q hq)
    rw [put, hsplit, List.map_append, List.map_cons, keep before hleft, keep after hright,
      List.append_assoc, if_pos (beq_self_eq_true p.pid)]
    rfl

/-- **All that collecting does**: nothing while no child has changed, and otherwise the first child
that has is taken for its change. -/
theorem collect_cases (hk : k.Distinct) :
    ((∀ p ∈ k.processes, p.report = none) ∧ k.collect = (k, none)) ∨
      ∃ before p after c, k.processes = before ++ p :: after ∧
        (∀ q ∈ before, q.report = none) ∧ p.report = some c ∧
        k.collect = ({ k with processes := before ++ remainder p ++ after }, some ⟨p.pid, c⟩) := by
  cases hfind : k.processes.find? (·.report.isSome) with
  | none =>
    refine Or.inl ⟨fun p hp => ?_, by rw [collect, hfind]⟩
    have hno := List.find?_eq_none.1 hfind p hp
    rwa [Bool.not_eq_true, Option.isSome_eq_false_iff, Option.isNone_iff_eq_none] at hno
  | some p =>
    obtain ⟨hp, before, after, hsplit, hbefore⟩ := List.find?_eq_some_iff_append.1 hfind
    obtain ⟨c, hc⟩ := Option.isSome_iff_exists.1 hp
    refine Or.inr ⟨before, p, after, c, hsplit, fun q hq => ?_, hc, ?_⟩
    · have hno := hbefore q hq
      rwa [Bool.not_eq_true', Option.isSome_eq_false_iff, Option.isNone_iff_eq_none] at hno
    · rw [collect_of_find? hk hfind hsplit, Process.status?, hc, Option.map_some]

/-- **Collecting hands out the first report and leaves the others.** -/
theorem collect_reports (hk : k.Distinct) :
    k.collect.2 = k.reports.head? ∧ k.collect.1.reports = k.reports.tail := by
  rcases collect_cases hk with
    ⟨hnone, hcollect⟩ | ⟨before, p, after, c, hsplit, hbefore, hc, hcollect⟩
  · have hreports : k.reports = [] := filterMap_status?_of_none hnone
    rw [hcollect, hreports]
    exact ⟨rfl, rfl⟩
  · have hnothing := filterMap_status?_of_none hbefore
    have hreports : k.reports = ⟨p.pid, c⟩ :: after.filterMap Process.status? := by
      rw [reports, hsplit, List.filterMap_append, hnothing, List.nil_append]
      exact List.filterMap_cons_some (by rw [Process.status?, hc, Option.map_some])
    rw [hcollect, hreports]
    refine ⟨rfl, ?_⟩
    show (before ++ remainder p ++ after).filterMap Process.status? = _
    rw [List.filterMap_append, List.filterMap_append, hnothing, filterMap_status?_remainder]
    rfl

/-- **Children keep identifiers of their own.** -/
theorem Distinct.collect (hk : k.Distinct) : k.collect.1.Distinct := by
  rcases collect_cases hk with ⟨-, hcollect⟩ | ⟨before, p, after, c, hsplit, -, -, hcollect⟩
  · rwa [hcollect]
  · have hsub : ((before ++ remainder p ++ after).map (·.pid)).Sublist
        ((before ++ p :: after).map (·.pid)) := by
      rw [List.append_assoc, List.map_append, List.map_append, List.map_append, remainder]
      refine (List.append_sublist_append_left _).2 ?_
      split
      · exact List.sublist_cons_self _ _
      · exact List.Sublist.refl _
    rw [hcollect]
    exact (hsplit ▸ hk : ((before ++ p :: after).map (·.pid)).Nodup).sublist hsub

theorem pending_collect (hk : k.Distinct) : k.collect.1.pending = k.pending := by
  rcases collect_cases hk with ⟨-, hcollect⟩ | ⟨before, p, after, c, -, -, -, hcollect⟩
  · rw [hcollect]
  · rw [hcollect]

end Kernel

end JobShell
