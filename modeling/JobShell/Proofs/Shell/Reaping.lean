import JobShell.Proofs.Shell.Course
import JobShell.Shell.Session

/-!
# Jobs and the ends of their processes

When the handler for children has come to its end, when the shell sleeps and when it lists its jobs,
a process that was collected after its end has no job any more, unless it died by a signal without a
name: such a death is collected, but cannot be told from there being nothing to collect.

* `Trace.Tracked` says, by the trace alone, that a process was entered and that no end of it was
  heard of that can be told; `tracked_iff` says that these are the processes with a job.
* `Trace.Stale` is the exact extent of the fault, `stale_of_fits` says that it is exact.
* `collectAll_drains` is about what is left uncollected: the loop goes on to the end, unless it meets
  such a death.
* `reaping_exact` is both together, for every run from a fresh shell.
-/

namespace JobShell

open Act Trace

/-! ## 1. Processes with a job -/

namespace JobTable

variable {t t' : JobTable} {pid : Int}

theorem isSome_ofPid?_iff :
    (t.ofPid? pid).isSome = true ↔ ∃ id a, t.get? id = some a ∧ a.pid = pid := by
  rw [← Option.ne_none_iff_isSome, ne_eq, ofPid?_eq_none_iff]
  constructor
  · intro h
    refine Classical.byContradiction fun hno => h fun id a ha hpid => ?_
    exact hno ⟨id, a, ha, hpid⟩
  · intro hjob h
    obtain ⟨id, a, ha, hpid⟩ := hjob
    exact h id a ha hpid

theorem isSome_ofPid?_add {p : Int} {state : JobState} {cmdline : String} {id : Nat}
    (h : t.add p state cmdline = .ok (id, t')) :
    (t'.ofPid? pid).isSome = true ↔ p = pid ∨ (t.ofPid? pid).isSome = true := by
  obtain ⟨hfree, hget⟩ := get?_add h
  rw [isSome_ofPid?_iff, isSome_ofPid?_iff]
  constructor
  · intro hjob
    obtain ⟨k, a, ha, hpid⟩ := hjob
    rw [hget k] at ha
    split at ha
    · cases ha
      exact Or.inl hpid
    · exact Or.inr ⟨k, a, ha, hpid⟩
  · rintro (hp | ⟨k, a, ha, hpid⟩)
    · exact ⟨id, _, by rw [hget id, if_pos rfl], hp⟩
    · refine ⟨k, a, ?_, hpid⟩
      rw [hget k, if_neg, ha]
      rintro rfl
      rw [hfree] at ha
      cases ha

theorem isSome_ofPid?_withState (id : Nat) (state : JobState) :
    ((t.withState id state).ofPid? pid).isSome = true ↔ (t.ofPid? pid).isSome = true := by
  unfold withState
  cases h : t.setState id state with
  | none => rfl
  | some t' =>
    show (t'.ofPid? pid).isSome = true ↔ _
    obtain ⟨-, -, a, ha, -⟩ := setState_eq_some h
    rw [isSome_ofPid?_iff, isSome_ofPid?_iff]
    constructor
    · intro hjob
      obtain ⟨k, b, hb, hpid⟩ := hjob
      rw [get?_setState h k] at hb
      split at hb
      · rw [ha] at hb
        cases hb
        exact ⟨id, a, ha, hpid⟩
      · exact ⟨k, b, hb, hpid⟩
    · intro hjob
      obtain ⟨k, b, hb, hpid⟩ := hjob
      by_cases hk : k = id
      · subst hk
        refine ⟨k, { b with state }, ?_, hpid⟩
        rw [get?_setState h k, if_pos rfl, hb]
        rfl
      · exact ⟨k, b, by rw [get?_setState h k, if_neg hk, hb], hpid⟩

/-- **A process keeps its job through a change of a child, unless the change is its own end.** -/
theorem WellFormed.isSome_ofPid?_observe (ht : t.WellFormed) (c : ChildStatus) :
    ((t.observe c).1.ofPid? pid).isSome = true ↔
      (t.ofPid? pid).isSome = true ∧ ¬ (c.pid = pid ∧ c.isEnd = true) := by
  rw [isSome_ofPid?_iff, isSome_ofPid?_iff]
  have gone : ∀ a : Job, a.after? [c] = none ↔ c.pid = a.pid ∧ c.isEnd = true := by
    intro a
    rw [Job.after?_eq_none_iff]
    simp only [List.mem_singleton, exists_eq_left]
  constructor
  · intro hjob
    obtain ⟨k, b, hb, hpid⟩ := hjob
    rw [ht.get?_observe, Option.bind_eq_some_iff] at hb
    obtain ⟨a, ha, hab⟩ := hb
    have hap : a.pid = pid := (Job.pid_after? hab).symm.trans hpid
    refine ⟨⟨k, a, ha, hap⟩, fun hend => ?_⟩
    rw [(gone a).2 (hap.symm ▸ hend)] at hab
    cases hab
  · intro hjob
    obtain ⟨⟨k, a, ha, hpid⟩, hno⟩ := hjob
    cases hab : a.after? [c] with
    | none => exact absurd (hpid ▸ (gone a).1 hab) hno
    | some b =>
      refine ⟨k, b, ?_, (Job.pid_after? hab).trans hpid⟩
      rw [ht.get?_observe, ha, Option.bind_some, hab]

end JobTable

/-! ## 2. What the trace tells of a process -/

namespace Trace

/-- A process was entered, and no end of it was heard of that can be told. -/
def Tracked (pid : Int) : List Event → Prop
  | [] => False
  | .changed (.add p _ _) :: es => p = pid ∨ Tracked pid es
  | .collected c :: es => Tracked pid es ∧ ¬ (c.pid = pid ∧ c.isEnd = true ∧ c.isNamed = true)
  | _ :: es => Tracked pid es

/-- A process ended, in the last place by a signal without a name. -/
def DiedUnnamed (pid : Int) (es : List Event) : Prop :=
  ∃ n, endOf? pid es = some (.killed n) ∧ Signal.isNamed n = false

/-- A process has a job, although it was collected after its end. -/
def Outlived (t : JobTable) (es : List Event) (pid : Int) : Prop :=
  (t.ofPid? pid).isSome = true ∧ (endOf? pid es).isSome = true

variable {es : List Event} {pid : Int}

/-- **The processes with a job are those that were entered, without those whose end was told.** -/
theorem tracked_iff (h : Always (Event.Fits .empty) es) :
    Tracked pid es ↔ ((JobTable.empty.replay es).ofPid? pid).isSome = true := by
  induction es with
  | nil => exact ⟨False.elim, fun h => by cases h⟩
  | cons e es ih =>
    have ih' := ih h.2
    have hwf : (JobTable.empty.replay es).WellFormed := JobTable.wellFormed_empty.replay es
    cases e with
    | changed op =>
      cases op with
      | add p state cmdline =>
        obtain ⟨-, ⟨id, t⟩, hadd⟩ := h.1
        show p = pid ∨ Tracked pid es ↔
          (((JobTable.empty.replay es).apply _).ofPid? pid).isSome = true
        rw [JobTable.apply_add_of_ok hadd, JobTable.isSome_ofPid?_add hadd, ih']
      | remove id => exact h.1.elim
      | setState id state => exact ih'.trans (JobTable.isSome_ofPid?_withState id state).symm
    | collected c =>
      cases hc : c.isNamed with
      | false =>
        rw [JobTable.replay_cons_of_not_isNamed _ hc, ← ih']
        show Tracked pid es ∧ _ ↔ _
        rw [hc]
        exact ⟨fun h => h.1, fun h => ⟨h, fun hno => by cases hno.2.2⟩⟩
      | true =>
        rw [JobTable.replay_cons_of_isNamed _ hc, hwf.isSome_ofPid?_observe, ← ih']
        show Tracked pid es ∧ _ ↔ _
        rw [hc]
        simp only [and_true]
    | _ => exact ih'

/-- **A process that is tracked and was collected after its end died by a signal without a name.** -/
theorem diedUnnamed_of_tracked (h : Always (Event.Fits .empty) es) (htr : Tracked pid es)
    (hend : (endOf? pid es).isSome = true) : DiedUnnamed pid es := by
  induction es with
  | nil => exact htr.elim
  | cons e es ih =>
    have ih' := ih h.2
    cases e with
    | changed op =>
      cases op with
      | add p state cmdline =>
        rcases htr with rfl | htr
        · have hnone : endOf? p es = none := h.1.1
          rw [show endOf? p (.changed _ :: es) = endOf? p es from rfl, hnone] at hend
          cases hend
        · exact ih' htr hend
      | remove id => exact h.1.elim
      | setState id state => exact ih' htr hend
    | forked p =>
      unfold DiedUnnamed
      rw [endOf?] at hend ⊢
      split at hend
      · cases hend
      · rename_i hne
        rw [if_neg hne]
        exact ih' htr hend
    | collected c =>
      obtain ⟨htr, hno⟩ := htr
      unfold DiedUnnamed
      rw [endOf?] at hend ⊢
      by_cases hown : c.pid = pid ∧ c.isEnd = true
      · have hc : c.isNamed = false := by
          simpa using fun hc => hno ⟨hown.1, hown.2, hc⟩
        rw [if_pos hown]
        obtain ⟨n, hn, hname⟩ := c.change_of_not_isNamed hc
        exact ⟨n, congrArg some hn, hname⟩
      · rw [if_neg hown] at hend ⊢
        exact ih' htr hend
    | _ => exact ih' htr hend

/-- **The processes that their jobs outlive are those that were entered and died unnamed.** -/
theorem outlived_iff (h : Always (Event.Fits .empty) es) :
    Outlived (JobTable.empty.replay es) es pid ↔ Tracked pid es ∧ DiedUnnamed pid es := by
  unfold Outlived
  rw [← tracked_iff h]
  constructor
  · intro hout
    exact ⟨hout.1, diedUnnamed_of_tracked h hout.1 hout.2⟩
  · intro hdied
    obtain ⟨htr, n, hend, -⟩ := hdied
    refine ⟨htr, ?_⟩
    rw [hend]
    rfl

/-- **What the trace of a shell is to show**: whenever the handler for children has come to its end,
whenever the shell sleeps and whenever it lists its jobs, a job outlives its process exactly if that
died by a signal without a name, and the handler has gone on until there was nothing to collect
exactly if it was not cut short by such a death. -/
def Reaped : Event → List Event → Prop
  | .handled t n, es => n = Signal.child →
    (∀ pid, Outlived t es pid ↔ Tracked pid es ∧ DiedUnnamed pid es) ∧
      (lastAnswer es = some none ↔ ¬ CutShort es)
  | .slept t _, es => ∀ pid, Outlived t es pid ↔ Tracked pid es ∧ DiedUnnamed pid es
  | .listed t, es => ∀ pid, Outlived t es pid ↔ Tracked pid es ∧ DiedUnnamed pid es
  | _, _ => True

theorem Exhausted.drained_iff (h : Exhausted es) : lastAnswer es = some none ↔ ¬ CutShort es := by
  constructor
  · intro hlast hcut
    obtain ⟨c, hc, -⟩ := hcut
    rw [hlast] at hc
    cases hc
  · intro hno
    exact h.resolve_right hno

theorem reaped_of_fits (h : Always (Event.Fits .empty) es) : Always Reaped es := by
  induction es with
  | nil => trivial
  | cons e es ih =>
    refine ⟨?_, ih h.2⟩
    have hout : ∀ pid, Outlived (JobTable.empty.replay es) es pid ↔
        Tracked pid es ∧ DiedUnnamed pid es := fun pid => outlived_iff h.2
    cases e with
    | handled t n =>
      intro hn
      obtain ⟨ht, hex⟩ := h.1 hn
      exact ⟨ht ▸ hout, hex.drained_iff⟩
    | slept t m =>
      have ht : t = JobTable.empty.replay es := h.1
      exact ht ▸ hout
    | listed t =>
      have ht : t = JobTable.empty.replay es := h.1
      exact ht ▸ hout
    | _ => trivial

end Trace

/-! ## 3. What is left uncollected -/

namespace Shell

section Draining

variable {σ : Type} {E : Shell σ → Prop} {m : Mask} {pause : Act σ Unit} {left : σ → Prop}

/-- The shell collects when it is told of children, and no more is said of it. -/
def Collects (s : Shell σ) : Prop := s.dispositions.CollectsOnChild

theorem steady_collects : Steady (σ := σ) Collects where
  host h := h
  mask h := h
  quiet _ h := h
  collects h := h

variable [Host σ]

theorem observe_collects (c : ChildStatus) {J : Shell σ → Prop} (hJ : Steady J) :
    Meets (At J m) (observe c) (fun _ => At Collects m) E := by
  refine hJ.calm.observe c fun t => meets_of_on (on_setJobs (t.observe c).1) fun s hs => ?_
  have hcollects : s.dispositions.CollectsOnChild := hJ.collects hs.1.1
  exact ⟨hcollects, hs.2⟩

/-- The answer to the question for a change. -/
def HasAnswer (left : σ → Prop) : Option ChildStatus → Shell σ → Prop
  | none, s => ¬ left s.host
  | some c, s => s.dispositions.CollectsOnChild ∧ lastAnswer s.trace = some (some c)

omit [Host σ] in
theorem steady_hasAnswer (c : ChildStatus) : Steady (HasAnswer left (some c)) where
  host h := h
  mask h := h
  quiet he h := ⟨h.1, (lastAnswer_cons_of_isQuiet he _).trans h.2⟩
  collects h := h.1

/-- **The loop of the handler for children leaves nothing uncollected, unless it was cut short.** -/
theorem collectAll_drains (hleft : ∀ h : σ, (Host.collect h).2 = none → ¬ left (Host.collect h).1)
    (hp : Undisturbed E pause) (hE : ∀ s, Collects s → E s) (hm : m.blocks Signal.child = true)
    (bound : Nat) :
    Meets (At Collects m) (collectAll pause bound)
      (fun _ => At (fun s => left s.host → CutShort s.trace) m) E := by
  have ask : Meets (At Collects m) collect (fun r => At (HasAnswer left r) m) E := by
    refine meets_of_on on_collect fun s hs => ⟨?_, hs.2⟩
    cases hr : (Host.collect s.host).2 with
    | none => exact hleft s.host hr
    | some c => exact ⟨hs.1, rfl⟩
  exact collectAll_rule steady_collects.toLoose (fun c => (steady_hasAnswer c).toLoose) hE
    (hp _ _ steady_collects.guarded hE m hm)
    (fun c => hp _ _ (steady_hasAnswer c).guarded (fun s h => hE s h.1) m hm) ask
    (fun c _ => observe_collects c (steady_hasAnswer c)) (fun s h hl => absurd hl h)
    (fun c s hc h _ => ⟨c, h.2, hc⟩) bound

/-- **The handler for children leaves nothing uncollected, unless it was cut short.** -/
theorem handle_drains (hleft : ∀ h : σ, (Host.collect h).2 = none → ¬ left (Host.collect h).1)
    (hm : m.blocks Signal.child = true) (depth : Nat) :
    Meets (At Collects m) (handle (deliver depth) Signal.child)
      (fun _ s => left s.host → CutShort s.trace) fun _ => True := by
  have hp : Undisturbed (fun _ => True) (deliver (σ := σ) depth) :=
    (deliver_meets (fun _ => True) depth).undisturbed
  unfold handle
  refine (react_child_meets (fun _ => steady_collects.collects)
    (collectAll_drains hleft hp (fun _ _ => trivial) hm)).bind fun _ => ?_
  refine meets_get_bind fun s hs => ?_
  exact meets_modify fun s' e => e ▸ hs.1

end Draining

/-! ## 4. Both together -/

section Runs

variable {σ : Type} [Host σ]

/-- **The exact extent to which jobs outlive their processes.** In every run from a fresh shell, and
wherever `Reaped` looks: a process that was entered and collected after its end has no job any more,
unless it died by a signal without a name; then it has. And when the handler for children has come to
its end, no change of a child is left uncollected, unless it was cut short by such a death. `left`
tells of a host whether a change is left; all that is known of it is that nothing is handed out only
if none is. -/
theorem reaping_exact (left : σ → Prop)
    (hleft : ∀ h : σ, (Host.collect h).2 = none → ¬ left (Host.collect h).1) (s : Shell σ)
    (hd : s.dispositions.CollectsOnChild) :
    (s.table = .empty → s.trace = [] →
      ∀ rounds, Always Reaped ((conduct rounds).on s).2.trace) ∧
    ∀ depth s', s.mask.blocks Signal.child = true →
      (handle (deliver depth) Signal.child).on s = (.ok (), s') → left s'.host →
      CutShort s'.trace := by
  constructor
  · intro hempty htrace rounds
    have ht : s.table.WellFormed := hempty ▸ JobTable.wellFormed_empty
    have hidle : s.table.foreground? = none := hempty ▸ rfl
    obtain ⟨es, hstretch⟩ := (conduct_course hd ht hidle rounds).1
    rw [hstretch.trace, htrace, List.append_nil]
    exact reaped_of_fits (hempty ▸ hstretch.fits)
  · intro depth s' hblocks hon hl
    exact (handle_drains hleft hblocks depth).of_ok ⟨hd, rfl⟩ hon hl

end Runs

/-- Two children: one died by a signal without a name, the other one after it in some other way. -/
def unnamedDeath : Kernel where
  around := { files := .empty }
  processes := [
    { pid := 61001, group := 61001, condition := .ended, report := some (.killed 34)
      mask := .none, dispositions := .defaults, activity := .idle },
    { pid := 61002, group := 61002, condition := .ended, report := some (.exited 0)
      mask := .none, dispositions := .defaults, activity := .idle }]
  pending := [Signal.child]

/-- The two are jobs of the shell when this happens. -/
def staleRounds : List (Round Kernel) :=
  [.line "cat &", .line "cat &", .world unnamedDeath, .signals, .line "jobs"]

/-- The table that was shown last, and the events before. -/
def lastListing? : List Event → Option (JobTable × List Event)
  | [] => none
  | .listed t :: es => some (t, es)
  | _ :: es => lastListing? es

theorem lastListing?_eq_some {trace es : List Event} {t : JobTable}
    (h : lastListing? trace = some (t, es)) : ∃ later, trace = later ++ .listed t :: es := by
  induction trace with
  | nil => cases h
  | cons e trace ih =>
    have skip : lastListing? trace = some (t, es) →
        ∃ later, e :: trace = later ++ .listed t :: es := by
      intro h'
      obtain ⟨later, hlater⟩ := ih h'
      exact ⟨e :: later, congrArg (e :: ·) hlater⟩
    cases e with
    | listed t' =>
      cases h
      exact ⟨[], rfl⟩
    | _ => exact skip h

/-- The job is listed although its process was collected, and the other change is left where the
handler was cut short. -/
theorem reaping_exact_unnamed :
    (∃ later t es, ((conduct staleRounds).on (Session.start { files := .empty })).2.trace =
        later ++ .listed t :: es ∧ Outlived t es 61001 ∧ DiedUnnamed 61001 es) ∧
      ∃ s' : Session, CutShort s'.trace ∧ s'.host.anyReport = true := by
  have hd := Dispositions.collectsOnChild_installed
  have hleft : ∀ k : Kernel, (Host.collect k).2 = none →
      ¬ (Host.collect k).1.anyReport = true := by
    intro k hnone hany
    rw [show (Host.collect k).1.anyReport = false from Kernel.anyReport_collect hnone] at hany
    cases hany
  constructor
  · have hreaped := (reaping_exact (·.anyReport = true) hleft
      (Session.start { files := .empty }) hd).1 rfl rfl staleRounds
    have hout : (lastListing? ((conduct staleRounds).on
        (Session.start { files := .empty })).2.trace).any (fun x =>
          (x.1.ofPid? 61001).isSome && (endOf? 61001 x.2).isSome) = true := by decide +kernel
    cases hlast : lastListing? ((conduct staleRounds).on
        (Session.start { files := .empty })).2.trace with
    | none =>
      rw [hlast] at hout
      cases hout
    | some x =>
      obtain ⟨t, es⟩ := x
      rw [hlast] at hout
      obtain ⟨later, hsplit⟩ := lastListing?_eq_some hlast
      rw [hsplit] at hreaped
      have hlisted : ∀ pid, Outlived t es pid ↔ Tracked pid es ∧ DiedUnnamed pid es :=
        (always_append.1 hreaped).2.1
      have hstale : Outlived t es 61001 := Bool.and_eq_true_iff.1 hout
      exact ⟨later, t, es, hsplit, hstale, ((hlisted 61001).1 hstale).2⟩
  · let s : Session := { host := unnamedDeath, mask := Mask.none.withSignal Signal.child }
    have hok : ((handle (deliver 3) Signal.child).on s).1.isOk = true := by decide +kernel
    have hany : ((handle (deliver 3) Signal.child).on s).2.host.anyReport = true := by
      decide +kernel
    cases hon : (handle (deliver 3) Signal.child).on s with
    | mk r s' =>
      rw [hon] at hok hany
      cases r with
      | error e => cases hok
      | ok x =>
        exact ⟨s', (reaping_exact (·.anyReport = true) hleft s hd).2 3 s' rfl hon hany, hany⟩

end Shell

end JobShell
