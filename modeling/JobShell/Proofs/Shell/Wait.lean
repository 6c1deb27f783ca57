import JobShell.Proofs.Shell.Handling
import JobShell.Shell.Session

/-!
# Waiting for the foreground

The wait for a process goes from wake-up to wake-up. Between two of them every signal is blocked, so
all that can happen to the table happens in a wake-up, and is there to be seen right after it.

* `Wakes b s ess s'` is a run of wake-ups: it leads from `s` to `s'`, and each left its events.
* `Hears pid es` says that a change of the process was received in one of them.
* `Wakes.foregroundPid?_iff` is the heart: after wake-ups the process still owns the foreground
  exactly if nothing was heard of it.
* `ExactWait` is what follows for the loop, and `wait_exact` proves it of every wait, and that a
  resumed job gets such a wait with nothing lost before it.
-/

namespace JobShell

open Act Trace

/-! ## 1. What was last heard of a job -/

/-- No process has a change after its end. -/
def Trace.EndsLast (cs : List ChildStatus) : Prop :=
  cs.Pairwise fun c d => c.isEnd = true → d.pid ≠ c.pid

/-- What was last heard of a process. -/
def Trace.lastOf? (pid : Int) (cs : List ChildStatus) : Option ChildStatus :=
  (cs.filter fun c => c.pid = pid).getLast?

/-- The job as the last of its own changes has it: gone after an end, stopped after a stop, as it was
if there was none. -/
def Job.byLast? (a : Job) (cs : List ChildStatus) : Option Job :=
  match lastOf? a.pid cs with
  | none => some a
  | some c => if c.isEnd then none else some { a with state := .stopped }

theorem Trace.lastOf?_cons_of_other {pid : Int} {c : ChildStatus} (h : c.pid ≠ pid)
    (cs : List ChildStatus) : lastOf? pid (c :: cs) = lastOf? pid cs := by
  unfold lastOf?
  rw [List.filter_cons_of_neg (by simpa using h)]

theorem Trace.lastOf?_cons_of_own {pid : Int} {c : ChildStatus} (h : c.pid = pid)
    (cs : List ChildStatus) : lastOf? pid (c :: cs) = some ((lastOf? pid cs).getD c) := by
  unfold lastOf?
  rw [List.filter_cons_of_pos (by simpa using h), List.getLast?_cons]

theorem Trace.lastOf?_eq_none {pid : Int} {cs : List ChildStatus} (h : ∀ c ∈ cs, c.pid ≠ pid) :
    lastOf? pid cs = none := by
  unfold lastOf?
  rw [List.getLast?_eq_none_iff, List.filter_eq_nil_iff]
  intro c hc
  simpa using h c hc

/-- **Only the last of its own changes counts for a job.** -/
theorem Job.after?_eq_byLast? {cs : List ChildStatus} (h : EndsLast cs) (a : Job) :
    a.after? cs = a.byLast? cs := by
  induction cs generalizing a with
  | nil => rfl
  | cons c cs ih =>
    obtain ⟨hc, hcs⟩ := List.pairwise_cons.1 h
    unfold byLast?
    rw [after?]
    by_cases hpid : c.pid = a.pid
    · rw [if_pos hpid, lastOf?_cons_of_own hpid]
      cases hend : c.isEnd with
      | true =>
        have hnone : lastOf? a.pid cs = none :=
          lastOf?_eq_none fun d hd => hpid ▸ hc d hd hend
        rw [hnone]
        simp only [Option.getD_none, hend, if_true]
      | false =>
        rw [if_neg Bool.false_ne_true, ih hcs]
        unfold byLast?
        show (match lastOf? a.pid cs with | none => _ | some d => _) = _
        cases lastOf? a.pid cs with
        | none => simp only [Option.getD_none, hend, Bool.false_eq_true, if_false]
        | some d => rfl
    · rw [if_neg hpid, lastOf?_cons_of_other hpid, ih hcs]
      rfl

namespace Shell

variable {σ : Type} [Host σ]

/-! ## 2. Wake-ups -/

/-- One round of the wait: a look at the table, and sleep. -/
def wakeUp (b : Block) : Act σ Unit := do
  let _ ← jobs
  suspend b

/-- Wake-ups one after the other, with the events of each. -/
inductive Wakes (b : Block) : Shell σ → List (List Event) → Shell σ → Prop
  | nil (s : Shell σ) : Wakes b s [] s
  | cons {s s₁ s' : Shell σ} {es : List Event} {ess : List (List Event)}
      (hon : (wakeUp b).on s = (.ok (), s₁)) (htrace : s₁.trace = es ++ s.trace)
      (rest : Wakes b s₁ ess s') : Wakes b s (es :: ess) s'

/-- A stop, an exit or a death that can be told was received of a process. -/
def Hears (pid : Int) (es : List Event) : Prop := ∃ c ∈ reported es, c.pid = pid

/-- All that was received, in order. -/
def received (ess : List (List Event)) : List ChildStatus := ess.flatMap reported

theorem follows_wakeUp (b : Block) : Follows (wakeUp (σ := σ) b) := by
  intro s hd m
  have settled : Steady (Since s (Settled s)) := steady_since hd Settled.cons_quiet
  unfold wakeUp
  refine settled.calm.jobs.bind fun t => ?_
  exact (follows_suspend b s hd m).pre fun _ h => ⟨h.1.1, h.2⟩

variable {b : Block} {s s₁ s' : Shell σ} {es : List Event} {ess : List (List Event)} {pid : Int}

/-- **What a wake-up does to the table is what was received in it.** -/
theorem table_wakeUp (hd : s.dispositions.CollectsOnChild)
    (hon : (wakeUp b).on s = (.ok (), s₁)) (htrace : s₁.trace = es ++ s.trace) :
    s₁.table = (s.table.observeAll (reported es)).1 ∧ s₁.dispositions = s.dispositions := by
  obtain ⟨⟨es', h, ht⟩, -⟩ :=
    (follows_wakeUp b s hd s.mask).of_ok ⟨since_settled_refl s, rfl⟩ hon
  have hes : es' = es := List.append_cancel_right (h.trace.symm.trans htrace)
  subst hes
  refine ⟨?_, h.dispositions⟩
  rw [show s₁.table = s.table.replay es' from ht]
  exact s.table.replay_eq_observeAll h.own

/-- **What wake-ups do to the table is what was received in them.** -/
theorem Wakes.table (h : Wakes b s ess s') (hd : s.dispositions.CollectsOnChild) :
    s'.table = (s.table.observeAll (received ess)).1 := by
  induction h with
  | nil s => rfl
  | cons hon htrace rest ih =>
    obtain ⟨ht, hdisp⟩ := table_wakeUp hd hon htrace
    rw [ih (hdisp ▸ hd), ht, received, received, List.flatMap_cons, JobTable.observeAll_append]

/-- The last wake-up of a run follows on the others. -/
theorem Wakes.unsnoc (h : Wakes b s (ess ++ [es]) s') :
    ∃ s₁, Wakes b s ess s₁ ∧ (wakeUp b).on s₁ = (.ok (), s') ∧ s'.trace = es ++ s₁.trace := by
  induction ess generalizing s with
  | nil =>
    cases h with
    | cons hon htrace rest =>
      cases rest
      exact ⟨s, .nil s, hon, htrace⟩
  | cons es₀ ess ih =>
    cases h with
    | cons hon htrace rest =>
      obtain ⟨s₁, h₁, hlast⟩ := ih rest
      exact ⟨s₁, .cons hon htrace h₁, hlast⟩

/-- **The process owns the foreground after wake-ups exactly if nothing was heard of it.** -/
theorem Wakes.foregroundPid?_iff (h : Wakes b s ess s') (hd : s.dispositions.CollectsOnChild)
    (ht : s.table.WellFormed) (hfg : s.table.foregroundPid? = some pid) :
    s'.table.foregroundPid? = some pid ↔ ∀ es ∈ ess, ¬ Hears pid es := by
  rw [h.table hd, ht.foregroundPid?_observeAll]
  constructor
  · intro hstill es hes hheard
    obtain ⟨c, hc, hpid⟩ := hheard
    exact hstill.2 c (List.mem_flatMap.2 ⟨es, hes, hc⟩) hpid
  · intro hnone
    refine ⟨hfg, fun c hc hpid => ?_⟩
    obtain ⟨es, hes, hc'⟩ := List.mem_flatMap.1 hc
    exact hnone es hes ⟨c, hc', hpid⟩

/-! ## 3. The loop -/

theorem on_awaitFor_of_owner (hfg : s.table.foregroundPid? = some pid) (n : Nat) :
    (awaitFor b pid (n + 1)).on s = (wakeUp b >>= fun _ => awaitFor b pid n).on s := by
  rw [awaitFor, on_jobs_bind, if_pos hfg, on_bind, on_bind, wakeUp, on_jobs_bind]

theorem on_awaitFor_of_other (hfg : s.table.foregroundPid? ≠ some pid) (n : Nat) :
    (awaitFor b pid (n + 1)).on s = (.ok (), looked s) := by
  rw [awaitFor, on_jobs_bind, if_neg hfg]
  rfl

/-- While the process owns the foreground, a wake-up is a round of the loop. -/
theorem on_awaitFor_of_wakeUp (hfg : s.table.foregroundPid? = some pid)
    (hon : (wakeUp b).on s = (.ok (), s₁)) (n : Nat) :
    (awaitFor b pid (n + 1)).on s = (awaitFor b pid n).on s₁ := by
  rw [on_awaitFor_of_owner hfg, on_bind, hon]

/-- **The loop goes on for as long as the process owns the foreground.** -/
theorem Wakes.on_awaitFor (h : Wakes b s ess s') (hd : s.dispositions.CollectsOnChild)
    (ht : s.table.WellFormed) (hfg : s'.table.foregroundPid? = some pid) (n : Nat) :
    (awaitFor b pid (ess.length + n)).on s = (awaitFor b pid n).on s' := by
  induction h with
  | nil s => rw [List.length_nil, Nat.zero_add]
  | @cons s s₁ s' es ess hon htrace rest ih =>
    obtain ⟨htab, hdisp⟩ := table_wakeUp hd hon htrace
    have hd₁ : s₁.dispositions.CollectsOnChild := hdisp ▸ hd
    have ht₁ : s₁.table.WellFormed := htab ▸ ht.observeAll (reported es)
    -- The process owned the foreground all along.
    have hall : s'.table = (s.table.observeAll (received (es :: ess))).1 :=
      (Wakes.cons hon htrace rest).table hd
    have hown : s.table.foregroundPid? = some pid :=
      ((ht.foregroundPid?_observeAll _ pid).1 (hall ▸ hfg)).1
    rw [List.length_cons, Nat.add_right_comm, on_awaitFor_of_wakeUp hown hon]
    exact ih hd₁ ht₁ hfg

/-- **If the loop came to its end, then right after the first wake-up in which something was heard of
the process.** -/
theorem wakes_of_on_awaitFor (hd : s.dispositions.CollectsOnChild) (ht : s.table.WellFormed)
    (hfg : s.table.foregroundPid? = some pid) {n : Nat} {s₂ : Shell σ}
    (hon : (awaitFor b pid n).on s = (.ok (), s₂)) :
    ∃ ess es s', Wakes b s (ess ++ [es]) s' ∧ (∀ e ∈ ess, ¬ Hears pid e) ∧ Hears pid es ∧
      s₂ = looked s' := by
  induction n generalizing s with
  | zero => cases hon
  | succ n ih =>
    cases hwake : (wakeUp b).on s with
    | mk r s₁ =>
      rw [on_awaitFor_of_owner hfg, on_bind, hwake] at hon
      cases r with
      | error e => cases hon
      | ok x =>
        replace hon : (awaitFor b pid n).on s₁ = (.ok (), s₂) := hon
        obtain ⟨⟨es, h, -⟩, -⟩ :=
          (follows_wakeUp b s hd s.mask).of_ok ⟨since_settled_refl s, rfl⟩ hwake
        obtain ⟨htab, hdisp⟩ := table_wakeUp hd hwake h.trace
        have one : Wakes b s [es] s₁ := .cons hwake h.trace (.nil s₁)
        have hiff := one.foregroundPid?_iff hd ht hfg
        by_cases hfg₁ : s₁.table.foregroundPid? = some pid
        · obtain ⟨ess, es', s', hw, hnone, hheard, rfl⟩ :=
            ih (hdisp ▸ hd) (htab ▸ ht.observeAll (reported es)) hfg₁ hon
          refine ⟨es :: ess, es', s', .cons hwake h.trace hw, fun e he => ?_, hheard, rfl⟩
          rcases List.mem_cons.1 he with rfl | he'
          · exact hiff.1 hfg₁ e List.mem_cons_self
          · exact hnone e he'
        · have hheard : Hears pid es := by
            refine Classical.byContradiction fun hno => hfg₁ (hiff.2 fun e he => ?_)
            rw [List.mem_singleton.1 he]
            exact hno
          cases n with
          | zero => cases hon
          | succ n =>
            rw [on_awaitFor_of_other hfg₁] at hon
            cases hon
            exact ⟨[], es, s₁, one, fun e he => (List.not_mem_nil he).elim, hheard, rfl⟩

/-! ## 4. The wait is exact -/

/-- **What a wait for a process is to do.** -/
structure ExactWait (b : Block) (pid : Int) (s : Shell σ) : Prop where
  /-- It goes on after wake-ups in which nothing was heard of the process. -/
  sleepsOn : ∀ ess s', Wakes b s ess s' → (∀ es ∈ ess, ¬ Hears pid es) →
    s'.table.foregroundPid? = some pid ∧
      ∀ n, (awaitFor b pid (ess.length + n)).on s = (awaitFor b pid n).on s'
  /-- It is over right after the first wake-up in which something was heard of the process. -/
  returns : ∀ ess es s', Wakes b s (ess ++ [es]) s' → (∀ e ∈ ess, ¬ Hears pid e) → Hears pid es →
    ∀ n, (awaitFor b pid (ess.length + (n + 2))).on s = (.ok (), looked s')
  /-- It is over in no other way. -/
  onlyThen : ∀ n s₂, (awaitFor b pid n).on s = (.ok (), s₂) →
    ∃ ess es s', Wakes b s (ess ++ [es]) s' ∧ (∀ e ∈ ess, ¬ Hears pid e) ∧ Hears pid es ∧
      s₂ = looked s'
  /-- Every job is then as the last of its own changes has it. -/
  jobs : ∀ ess s', Wakes b s ess s' → EndsLast (received ess) → ∀ id,
    s'.table.get? id = (s.table.get? id).bind (·.byLast? (received ess))
  /-- The job of the process, once something was heard of it, is gone or stopped, by what was last
  heard, and nobody owns the foreground. -/
  owner : ∀ ess s', Wakes b s ess s' → EndsLast (received ess) → ∀ c,
    lastOf? pid (received ess) = some c → s'.table.foreground? = none ∧
      (c.isEnd = true → s'.table.ofPid? pid = none) ∧
      (c.isEnd = false → ∃ id a, s.table.get? id = some a ∧ a.pid = pid ∧
        s'.table.get? id = some { a with state := .stopped })

theorem Wakes.get? (h : Wakes b s ess s') (hd : s.dispositions.CollectsOnChild)
    (ht : s.table.WellFormed) (hlast : EndsLast (received ess)) (id : Nat) :
    s'.table.get? id = (s.table.get? id).bind (·.byLast? (received ess)) := by
  rw [h.table hd, ht.get?_observeAll]
  congr 1
  funext a
  exact a.after?_eq_byLast? hlast

theorem Wakes.owner (h : Wakes b s ess s') (hd : s.dispositions.CollectsOnChild)
    (ht : s.table.WellFormed) (hfg : s.table.foregroundPid? = some pid)
    (hlast : EndsLast (received ess)) {c : ChildStatus}
    (hc : lastOf? pid (received ess) = some c) :
    s'.table.foreground? = none ∧ (c.isEnd = true → s'.table.ofPid? pid = none) ∧
      (c.isEnd = false → ∃ id a, s.table.get? id = some a ∧ a.pid = pid ∧
        s'.table.get? id = some { a with state := .stopped }) := by
  have htab := h.table hd
  have ht' : s'.table.WellFormed := htab ▸ ht.observeAll _
  obtain ⟨id, a, ha, _, hpid⟩ := ht.foregroundPid?_eq_some_iff.1 hfg
  have hid : s'.table.get? id = if c.isEnd then none else some { a with state := .stopped } := by
    rw [h.get? hd ht hlast, ha, Option.bind_some, Job.byLast?, hpid, hc]
  refine ⟨?_, fun hend => ?_, fun hend => ?_⟩
  · refine ht'.foregroundPid?_eq_none_iff.1 (Option.eq_none_iff_forall_ne_some.2 fun q hq => ?_)
    rw [htab, ht.foregroundPid?_observeAll] at hq
    have hqp : q = pid := Option.some.inj (hq.1.symm.trans hfg)
    rw [lastOf?_eq_none (hqp ▸ hq.2)] at hc
    cases hc
  · refine Option.eq_none_iff_forall_ne_some.2 fun k hk => ?_
    have hold : s.table.ofPid? pid = some k := ht.ofPid?_observeAll (htab ▸ hk)
    have hkid : k = id :=
      Option.some.inj (hold.symm.trans (ht.ofPid?_eq_some_iff.2 ⟨a, ha, hpid⟩))
    obtain ⟨d, hd', _⟩ := ht'.ofPid?_eq_some_iff.1 hk
    rw [hkid, hid, hend] at hd'
    cases hd'
  · refine ⟨id, a, ha, hpid, ?_⟩
    rw [hid, hend]
    rfl

/-- **Every wait for the owner of the foreground is exact.** -/
theorem exactWait_of_owner (hd : s.dispositions.CollectsOnChild) (ht : s.table.WellFormed)
    (hfg : s.table.foregroundPid? = some pid) (b : Block) : ExactWait b pid s where
  sleepsOn ess s' h hnone := by
    have hown := (h.foregroundPid?_iff hd ht hfg).2 hnone
    exact ⟨hown, h.on_awaitFor hd ht hown⟩
  returns ess es s' h hnone hheard n := by
    obtain ⟨s₁, h₁, hon, _⟩ := h.unsnoc
    have hown := (h₁.foregroundPid?_iff hd ht hfg).2 hnone
    have hover : s'.table.foregroundPid? ≠ some pid := by
      intro hstill
      have hnever := (h.foregroundPid?_iff hd ht hfg).1 hstill
      exact hnever es (List.mem_append_right ess List.mem_cons_self) hheard
    rw [h₁.on_awaitFor hd ht hown, on_awaitFor_of_wakeUp hown hon, on_awaitFor_of_other hover]
  onlyThen n s₂ hon := wakes_of_on_awaitFor hd ht hfg hon
  jobs ess s' h hlast := h.get? hd ht hlast
  owner ess s' h hlast c hc := h.owner hd ht hfg hlast hc

/-! ## 5. Jobs that go on in the foreground -/

/-- The shell has collected nothing since `s`, and its table is `t`. -/
def Silent (s : Shell σ) (t : JobTable) (s' : Shell σ) : Prop :=
  s'.table = t ∧ s'.dispositions = s.dispositions ∧
    ∃ es, s'.trace = es ++ s.trace ∧ ∀ c, .collected c ∉ es

omit [Host σ] in
theorem steady_silent (hd : s.dispositions.CollectsOnChild) (t : JobTable) :
    Steady (Silent s t) where
  host h := h
  mask h := h
  quiet {s' e} he := by
    intro hsilent
    obtain ⟨ht, hdisp, es, htrace, hnone⟩ := hsilent
    refine ⟨ht, hdisp, e :: es, congrArg (e :: ·) htrace, fun c hc => ?_⟩
    rcases List.mem_cons.1 hc with rfl | hc'
    · exact he
    · exact hnone c hc'
  collects h := h.2.1.symm ▸ hd

/-- The shell right after it told a process to go on. -/
def resumed (s : Shell σ) (pid : Int) : Shell σ :=
  { s with
    host := (Host.sendGroup s.host pid Signal.resume).1
    trace := .sentGroup s.table pid Signal.resume :: s.trace }

/-- The state of the job was entered after its process was told to go on, and the shell has collected
nothing since. -/
def Entered (s : Shell σ) (id : Nat) (pid : Int) (t : JobTable) (s' : Shell σ) : Prop :=
  s'.table = t ∧ s'.dispositions = s.dispositions ∧
    ∃ later, s'.trace = later ++ .sentGroup s.table pid Signal.resume :: s.trace ∧
      .changed (.setState id .foreground) ∈ later ∧ ∀ c, .collected c ∉ later

omit [Host σ] in
theorem steady_entered (hd : s.dispositions.CollectsOnChild) (id : Nat) (pid : Int)
    (t : JobTable) : Steady (Entered s id pid t) where
  host h := h
  mask h := h
  quiet {s' e} he := by
    intro hentered
    obtain ⟨ht, hdisp, later, htrace, hmem, hnone⟩ := hentered
    refine ⟨ht, hdisp, e :: later, congrArg (e :: ·) htrace, List.mem_cons_of_mem e hmem, ?_⟩
    intro c hc
    rcases List.mem_cons.1 hc with rfl | hc'
    · exact he
    · exact hnone c hc'
  collects h := h.2.1.symm ▸ hd

/-- **A job goes on in the foreground** without anything being collected. -/
theorem continueJob_entered (name : String) {id : Nat} (hd : s.dispositions.CollectsOnChild)
    {t : JobTable} (hset : s.table.setState id .foreground = some t) :
    Meets (· = s) (continueJob name .foreground id pid)
      (fun _ => At (Entered s id pid t) s.mask) fun _ => False := by
  have told : Steady (Silent (resumed s pid) s.table) :=
    steady_silent (s := resumed s pid) hd s.table
  have enter : Meets (At (Silent (resumed s pid) s.table) s.mask) (restate id .foreground)
      (fun _ => At (Entered s id pid t) s.mask) fun _ => False := by
    intro s' hs'
    obtain ⟨⟨ht, hdisp, es, htrace, hnone⟩, hm⟩ := hs'
    rw [on_restate_of_some (ht.symm ▸ hset)]
    let added : List Event := [.changed (.setState id .foreground), .used s'.mask, .used s'.mask]
    refine ⟨⟨rfl, hdisp, added ++ es, ?_, List.mem_cons_self, fun c hc => ?_⟩, hm⟩
    · show added ++ s'.trace = _
      rw [htrace, List.append_assoc]
      rfl
    · rcases List.mem_append.1 hc with h | h
      · simp [added] at h
      · exact hnone c h
  have finish := enter.bind fun _ =>
    (steady_entered hd id pid t).calm.note (m := s.mask) (E := fun _ => False) .debug builtinTarget
      "resumed" (stateFields id pid .foreground)
  unfold continueJob
  rw [if_neg (by decide)]
  refine Meets.bind (Q := fun _ => At (Silent (resumed s pid) s.table) s.mask) ?_ fun r => ?_
  · refine meets_of_on (on_sendGroup pid Signal.resume) fun s' e => ?_
    subst e
    exact ⟨⟨rfl, rfl, [], rfl, fun _ h => (List.not_mem_nil h).elim⟩, rfl⟩
  · cases r with
    | none => exact finish
    | some r => exact (told.calm.note _ _ _ _).bind fun _ => finish

/-- A command to go on in the foreground that means a job comes to a wait for its process. -/
theorem on_resume {name : String} {c : Command} {ref : JobRef} {id : Nat}
    (hd : s.dispositions.CollectsOnChild) (ht : s.table.WellFormed)
    (hidle : s.table.foreground? = none) (href : JobRef.ofArg name c.args[1]? = .ok ref)
    (hid : ref.resolve? s.table = some (id, pid)) :
    ∃ s₁, Entered (looked { s with mask := s.mask.withAll }) id pid
        (s.table.withState id .foreground) s₁ ∧
      s₁.table.foregroundPid? = some pid ∧
      (resume name .foreground c).on s =
        (await ⟨s.mask⟩ pid >>= fun _ => setMask s.mask >>= fun _ => interruptible).on s₁ := by
  obtain ⟨a, ha, hpid⟩ := ht.resolve?_eq_some hid
  have hnobody : ∀ k, s.table.foreground? = some k → k = id := by
    intro k hk
    rw [hidle] at hk
    cases hk
  have hsome : (s.table.setState id .foreground).isSome :=
    JobTable.setState_isSome ha (by decide) fun _ => hnobody
  obtain ⟨t, hset⟩ := Option.isSome_iff_exists.1 hsome
  have hwith : s.table.withState id .foreground = t := by
    rw [JobTable.withState, hset]
    rfl
  let start : Shell σ := looked { s with mask := s.mask.withAll }
  have hrun : Meets (· = start) (continueJob name .foreground id pid)
      (fun _ => At (Entered start id pid t) start.mask) fun _ => False :=
    continueJob_entered (s := start) name hd hset
  obtain ⟨x, s₁, hon, hs₁, _⟩ := hrun.exists_ok rfl
  refine ⟨s₁, hwith ▸ hs₁, ?_, ?_⟩
  · rw [hs₁.1, (ht.setState hset).foregroundPid?_eq_some_iff]
    refine ⟨id, { a with state := .foreground }, ?_, rfl, hpid⟩
    rw [JobTable.get?_setState hset, if_pos rfl, ha]
    rfl
  · have hbody : (resumeJob name .foreground c ⟨s.mask⟩).on { s with mask := s.mask.withAll } =
        (await ⟨s.mask⟩ pid).on s₁ := by
      unfold resumeJob
      rw [href]
      show (jobs >>= fun t => _).on _ = _
      rw [on_jobs_bind]
      simp only [hid]
      show (continueJob name .foreground id pid >>= fun _ => await ⟨s.mask⟩ pid).on start = _
      rw [on_bind, hon]
    unfold resume locked
    rw [on_bind, on_openBlock]
    show (resumeJob name .foreground c ⟨s.mask⟩ >>= fun r => _).on { s with mask := _ } = _
    rw [on_bind, hbody, on_bind]
    cases (await ⟨s.mask⟩ pid).on s₁ with
    | mk r s₂ =>
      cases r with
      | error e => rfl
      | ok x =>
        show (setMask s.mask >>= fun _ => interruptible >>= fun _ => pure ()).on s₂ = _
        rw [bind_pure_unit]

/-! ## 6. Both together -/

/-- **Waits for the foreground are exact.** The wait for the owner of the foreground is; and a command
to go on in the foreground comes to such a wait, with the state entered after the process was told
and with nothing collected since, so that whatever the process does about it counts for the wait. -/
theorem foreground_wait_exact (s : Shell σ) (hd : s.dispositions.CollectsOnChild)
    (ht : s.table.WellFormed) :
    (∀ pid, s.table.foregroundPid? = some pid → ∀ b, ExactWait b pid s) ∧
      ∀ name (c : Command) ref id pid, s.table.foreground? = none →
        JobRef.ofArg name c.args[1]? = .ok ref → ref.resolve? s.table = some (id, pid) →
        ∃ s₁, Entered (looked { s with mask := s.mask.withAll }) id pid
            (s.table.withState id .foreground) s₁ ∧
          ExactWait ⟨s.mask⟩ pid s₁ ∧
          (resume name .foreground c).on s =
            (await ⟨s.mask⟩ pid >>= fun _ => setMask s.mask >>= fun _ => interruptible).on s₁ := by
  refine ⟨fun pid hfg b => exactWait_of_owner hd ht hfg b, ?_⟩
  intro name c ref id pid hidle href hid
  obtain ⟨s₁, hs₁, hfg, hon⟩ := on_resume hd ht hidle href hid
  have hd₁ : s₁.dispositions.CollectsOnChild := hs₁.2.1.symm ▸ hd
  have ht₁ : s₁.table.WellFormed := hs₁.1.symm ▸ ht.withState id .foreground
  exact ⟨s₁, hs₁, exactWait_of_owner hd₁ ht₁ hfg _, hon⟩

/-- A session whose only job was killed. -/
def killedSession (state : JobState) : Session where
  host := {
    around := { files := .empty }
    processes := [{
      pid := 61001, group := 61001, condition := .ended, report := some (.killed Signal.kill)
      mask := .none, dispositions := .defaults, activity := .idle }]
    pending := [Signal.child] }
  table := JobTable.run .empty [.add 61001 .background "cat", .setState 1 state]

theorem killedSession_wellFormed (state : JobState) : (killedSession state).table.WellFormed :=
  JobTable.wellFormed_empty.run _

/-- The wait for the killed process is over after one wake-up, and the stopped job can be waited for
again. -/
theorem foreground_wait_exact_killed :
    (∃ s', (awaitFor ⟨.none⟩ 61001 2).on (killedSession .foreground) = (.ok (), looked s') ∧
      s'.table.foreground? = none ∧ s'.table.ofPid? 61001 = none) ∧
    ∃ s₁, ExactWait ⟨.none⟩ 61001 s₁ ∧
      (resume "fg" .foreground ⟨["fg", "%1"], none, none, false⟩).on (killedSession .stopped) =
        (await ⟨.none⟩ 61001 >>= fun _ => setMask .none >>= fun _ => interruptible).on s₁ := by
  have hd : (Dispositions.defaults.installed).CollectsOnChild :=
    Dispositions.collectsOnChild_installed
  constructor
  · have hwait := (foreground_wait_exact (killedSession .foreground) hd
      (killedSession_wellFormed .foreground)).1 61001 (by decide +kernel) ⟨.none⟩
    have hr : ((wakeUp ⟨.none⟩).on (killedSession .foreground)).1.toBool = true := by
      decide +kernel
    have hreported : reported ((wakeUp ⟨.none⟩).on (killedSession .foreground)).2.trace =
        [⟨61001, .killed Signal.kill⟩] := by decide +kernel
    cases hon : (wakeUp ⟨.none⟩).on (killedSession .foreground) with
    | mk r s' =>
      rw [hon] at hr hreported
      cases r with
      | error e => cases hr
      | ok x =>
        have one : Wakes ⟨.none⟩ (killedSession .foreground) [s'.trace] s' :=
          .cons hon (List.append_nil _).symm (.nil s')
        have heard : Hears 61001 s'.trace := by
          refine ⟨⟨61001, .killed Signal.kill⟩, ?_, rfl⟩
          rw [hreported]
          exact List.mem_cons_self
        have hreceived : received [s'.trace] = [⟨61001, .killed Signal.kill⟩] := by
          rw [received, List.flatMap_singleton, hreported]
        have howner := hwait.owner _ _ one (hreceived ▸ List.pairwise_singleton _ _)
          ⟨61001, .killed Signal.kill⟩ (by rw [hreceived]; decide)
        have hon₂ := hwait.returns [] s'.trace s' one (fun _ h => (List.not_mem_nil h).elim) heard 0
        exact ⟨s', hon₂, howner.1, howner.2.1 rfl⟩
  · obtain ⟨s₁, _, hwait, hon⟩ := (foreground_wait_exact (killedSession .stopped) hd
      (killedSession_wellFormed .stopped)).2 "fg" ⟨["fg", "%1"], none, none, false⟩ (.job 1) 1
        61001 (by decide +kernel) rfl (by decide +kernel)
    exact ⟨s₁, hwait, hon⟩

end Shell

end JobShell
