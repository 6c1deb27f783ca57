import JobShell.Proofs.Shell.Handling
import JobShell.Shell.Evaluation

/-!
# What the shell does of its own accord

The main line of the shell, from a prompt to the next one, with handlers in between wherever signals
are taken.

* `Course s R s'` says that a stretch has led from `s` to `s'`, that the table is the one that the
  events make, and that `R` holds of it; `Strayed` is what is left of that when the shell ends.
* `Follows.course` brings in what is known of handlers.
* The lemmas named after the acts of the shell say how each of them leads from one `Course` to the
  next: `await_meets` is the wait, `enter_meets` the entry of a process, and so on up to
  `execute_meets` and `evaluate_meets`.
* `Round` is one thing that happens at the prompt, and `conduct` a list of them.
-/

namespace JobShell

open Act Trace

namespace Shell

variable {σ : Type}

/-! ## 1. Courses -/

/-- The shell has come from `s` to here with events that make the table, and `R` holds. -/
def Course (s : Shell σ) (R : JobTable → List Event → Prop) (s' : Shell σ) : Prop :=
  ∃ es, Stretch s s' es ∧ s'.table = s.table.replay es ∧ R s'.table es

/-- The shell has come from `s` to here. -/
def Strayed (s s' : Shell σ) : Prop := ∃ es, Stretch s s' es

/-- Nobody owns the foreground. -/
def Idle (t : JobTable) (_ : List Event) : Prop := t.foreground? = none

/-- Nobody owns the foreground but one process. -/
def Held (pid : Int) (t : JobTable) (_ : List Event) : Prop :=
  ∀ p, t.foregroundPid? = some p → p = pid

/-- What may own the foreground after a job of a process was put in a state. -/
def Owned (state : JobState) (pid : Int) : JobTable → List Event → Prop :=
  if state = .foreground then Held pid else Idle

/-- Changes of children leave it alone. -/
def Lasting (R : JobTable → List Event → Prop) : Prop :=
  ∀ t es cs es', t.WellFormed → R t es → R (t.observeAll cs).1 es'

theorem lasting_idle : Lasting Idle := fun _ _ cs _ ht h => ht.foreground?_observeAll h cs

theorem lasting_held (pid : Int) : Lasting (Held pid) :=
  fun _ _ cs _ ht h p hp => h p ((ht.foregroundPid?_observeAll cs p).1 hp).1

variable {s₀ s s' : Shell σ} {es later : List Event} {m : Mask}
  {R R' : JobTable → List Event → Prop}

theorem Course.strayed (h : Course s₀ R s) : Strayed s₀ s :=
  let ⟨es, h, _⟩ := h
  ⟨es, h⟩

theorem Course.mono (h : Course s₀ R s) (hR : ∀ es, R s.table es → R' s.table es) :
    Course s₀ R' s :=
  let ⟨es, h, ht, hr⟩ := h
  ⟨es, h, ht, hR es hr⟩

theorem Course.wellFormed (h : Course s₀ R s) (ht : s₀.table.WellFormed) : s.table.WellFormed := by
  obtain ⟨es, -, heq, -⟩ := h
  rw [heq]
  exact ht.replay es

/-- A course that quiet events do not disturb is steady. -/
theorem steady_course (hd : s₀.dispositions.CollectsOnChild)
    (hR : ∀ {t e es}, e.IsQuiet → R t es → R t (e :: es)) : Steady (Course s₀ R) where
  host := fun ⟨es, h, ht, hr⟩ => ⟨es, h.same rfl rfl, ht, hr⟩
  mask := fun ⟨es, h, ht, hr⟩ => ⟨es, h.same rfl rfl, ht, hr⟩
  quiet {s e} he := by
    intro hcourse
    obtain ⟨es, h, ht, hr⟩ := hcourse
    refine ⟨e :: es, h.cons rfl rfl (Event.fits_of_isQuiet he es), ?_, hR he hr⟩
    rw [s₀.table.replay_cons_of_isQuiet he es]
    exact ht
  collects := fun ⟨_, h, _⟩ => h.dispositions.symm ▸ hd

theorem steady_idle (hd : s₀.dispositions.CollectsOnChild) : Steady (Course s₀ Idle) :=
  steady_course hd fun _ h => h

theorem steady_held (hd : s₀.dispositions.CollectsOnChild) (pid : Int) :
    Steady (Course s₀ (Held pid)) :=
  steady_course hd fun _ h => h

/-- A stretch of handling may follow on any stretch. -/
theorem Stretch.after (h : Stretch s₀ s es) (ht : s.table = s₀.table.replay es)
    (h' : Handling s s' later) : Stretch s₀ s' (later ++ es) where
  trace := by rw [h'.trace, h.trace, List.append_assoc]
  fits := fits_append (ht ▸ h'.fits) h'.own h.fits
  dispositions := h'.dispositions.trans h.dispositions

/-- **What handlers do fits into any course.** -/
theorem Follows.course [Host σ] {a : Act σ Unit} (ha : Follows a)
    (hd : s₀.dispositions.CollectsOnChild) (ht : s₀.table.WellFormed) (hR : Lasting R) (m : Mask) :
    Meets (At (Course s₀ R) m) a (fun _ => At (Course s₀ R) m) (Strayed s₀) := by
  refine Meets.pointwise fun s hs => ?_
  obtain ⟨⟨es, h, htab, hr⟩, rfl⟩ := hs
  have hd' : s.dispositions.CollectsOnChild := h.dispositions.symm ▸ hd
  refine (ha s hd' s.mask).mono (fun s' e => ?_) (fun _ s' hs' => ?_) fun s' hs' => ?_
  · rw [e]
    exact ⟨since_settled_refl s, rfl⟩
  · obtain ⟨⟨later, h', htab'⟩, hm⟩ := hs'
    have hreplay : s'.table = s₀.table.replay (later ++ es) := by
      rw [show s'.table = s.table.replay later from htab', htab, JobTable.replay_append]
    refine ⟨⟨later ++ es, h.after htab h', hreplay, ?_⟩, hm⟩
    rw [show s'.table = s.table.replay later from htab', s.table.replay_eq_observeAll h'.own]
    exact hR _ _ _ _ (htab ▸ ht.replay es) hr
  · obtain ⟨later, h', -⟩ := hs'
    exact ⟨later ++ es, h.after htab h'⟩

/-! ## 2. Who may own the foreground -/

section Owners

variable {t : JobTable} {pid : Int}

theorem Held.idle (h : Held pid t es) (ht : t.WellFormed) (hne : t.foregroundPid? ≠ some pid) :
    Idle t es := by
  refine ht.foregroundPid?_eq_none_iff.1 (Option.eq_none_iff_forall_ne_some.2 fun p hp => ?_)
  have hpid : p = pid := h p hp
  exact hne (hpid ▸ hp)

/-- It is enough to look at the jobs. -/
theorem owned_of_jobs {state : JobState} (ht : t.WellFormed)
    (h : ∀ k b, t.get? k = some b → b.state = .foreground → b.pid = pid ∧ state = .foreground) :
    Owned state pid t es := by
  unfold Owned
  split
  · intro p hp
    obtain ⟨k, b, hb, hst, hpid⟩ := ht.foregroundPid?_eq_some_iff.1 hp
    exact hpid.symm.trans (h k b hb hst).1
  · rename_i hstate
    refine JobTable.foreground?_eq_none_iff.2 fun k b hb hst => ?_
    exact hstate (h k b hb hst).2

theorem owned_of_not_foreground {state : JobState} (h : state ≠ .foreground) :
    Owned state pid = Idle := if_neg h

theorem owned_foreground (pid : Int) : Owned .foreground pid = Held pid := if_pos rfl

end Owners

theorem steady_owned (hd : s₀.dispositions.CollectsOnChild) (state : JobState) (pid : Int) :
    Steady (Course s₀ (Owned state pid)) := by
  refine steady_course hd fun {t e es} _ h => ?_
  unfold Owned at h ⊢
  split at h
  · rwa [if_pos (by assumption)]
  · rwa [if_neg (by assumption)]

/-! ## 3. The wait -/

section Wait

variable [Host σ]

/-- **Whoever waits for a process that alone may own the foreground finds it free.** -/
theorem awaitFor_meets (hd : s₀.dispositions.CollectsOnChild) (ht : s₀.table.WellFormed) (b : Block)
    (pid : Int) (bound : Nat) :
    Meets (At (Course s₀ (Held pid)) m) (awaitFor b pid bound) (fun _ => At (Course s₀ Idle) m)
      (Strayed s₀) := by
  induction bound with
  | zero => exact meets_throw rfl fun _ h => h.1.strayed
  | succ n ih =>
    unfold awaitFor
    refine (steady_held hd pid).calm.jobs.bind fun t => ?_
    split
    · refine Meets.bind ?_ fun _ => ih
      exact ((follows_suspend b).course hd ht (lasting_held pid) m).pre fun _ h => ⟨h.1.1, h.2⟩
    · rename_i hne
      refine meets_pure fun s hs => ?_
      obtain ⟨⟨hcourse, rfl⟩, hm⟩ := hs
      have hwf := hcourse.wellFormed ht
      exact ⟨hcourse.mono fun es h => h.idle hwf hne, hm⟩

theorem await_meets (hd : s₀.dispositions.CollectsOnChild) (ht : s₀.table.WellFormed) (b : Block)
    (pid : Int) :
    Meets (At (Course s₀ (Held pid)) m) (await b pid) (fun _ => At (Course s₀ Idle) m)
      (Strayed s₀) := by
  unfold await
  refine meets_get_bind fun s hs => ?_
  exact (awaitFor_meets hd ht b pid s.patience).pre fun _ e => e ▸ hs

end Wait

/-! ## 4. Processes -/

/-- A process that was just started, while nobody owns the foreground and there is room. -/
def Fresh (pid : Int) (t : JobTable) (es : List Event) : Prop :=
  Idle t es ∧ t.isFull = false ∧ endOf? pid es = none

/-- What holds once it was tried to start a process. -/
def Forked : Except Reason Int → JobTable → List Event → Prop
  | .ok pid => Fresh pid
  | .error _ => Idle

section Processes

variable {E : Shell σ → Prop} {pid : Int} {state : JobState}

theorem fork_meets [Host σ] (b : Block) (c : Command) {t : JobTable} (hroom : t.isFull = false) :
    Meets (At (fun s => Course s₀ Idle s ∧ s.table = t) m) (fork b c)
      (fun child => At (Course s₀ (Forked child)) m) E := by
  refine meets_of_on (on_fork b c) fun s hs => ?_
  obtain ⟨⟨⟨es, h, htab, hidle⟩, rfl⟩, hm⟩ := hs
  cases (Host.fork s.host (s.launching b c)).2 with
  | ok pid => exact ⟨⟨_, h.cons rfl rfl trivial, htab, hidle, hroom, if_pos rfl⟩, hm⟩
  | error r => exact ⟨⟨_, h.cons rfl rfl trivial, htab, hidle⟩, hm⟩

/-- **A fresh process is entered, or refused because it has a job already.** -/
theorem enter_meets (ht : s₀.table.WellFormed) (hstart : state = .foreground ∨ state = .background)
    (cmdline : String) :
    Meets (At (Course s₀ (Fresh pid)) m) (enter pid state cmdline)
      (fun r => At (Course s₀ (if r.isOk then Owned state pid else Idle)) m) E := by
  intro s hs
  obtain ⟨hcourse, hm⟩ := hs
  have hwf := hcourse.wellFormed ht
  obtain ⟨es, h, htab, hidle, hroom, hend⟩ := hcourse
  have h₁ : Stretch s₀ (looked s) (.used s.mask :: es) := h.cons rfl rfl trivial
  cases hadd : s.table.add pid state cmdline with
  | error e =>
    rw [on_enter_of_error hadd]
    have he : e = .duplicatePid pid := by
      rcases JobTable.add_eq_error hadd with
        ⟨-, hf, hb⟩ | ⟨rfl, -⟩ | ⟨owner, -, -, how, -⟩ | ⟨-, hfull, -⟩
      · rcases hstart with h | h
        · exact absurd h hf
        · exact absurd h hb
      · rfl
      · rw [show s.table.foreground? = none from hidle] at how
        cases how
      · rw [JobTable.freeSlot?_eq_none_iff, hroom] at hfull
        cases hfull
    exact ⟨⟨_, h₁.cons rfl rfl he, htab, hidle⟩, hm⟩
  | ok r =>
    obtain ⟨id, t⟩ := r
    rw [on_enter_of_ok hadd]
    have h₂ : Stretch s₀ (looked (looked s)) (.used s.mask :: .used s.mask :: es) :=
      h₁.cons rfl rfl trivial
    refine ⟨⟨_, h₂.cons rfl rfl ⟨hend, (id, t), htab ▸ hadd⟩, ?_, ?_⟩, hm⟩
    · show t = (s₀.table.replay es).apply _
      rw [← htab, JobTable.apply_add_of_ok hadd]
    · exact owned_of_jobs (hwf.add hadd) fun k b => JobTable.owner_add hadd hidle

/-- The state of a job in which a launched program starts. -/
theorem startState_eq (c : Command) : startState c = .foreground ∨ startState c = .background := by
  unfold startState
  split
  · exact Or.inr rfl
  · exact Or.inl rfl

variable [Host σ]

/-- **Starting a program**: whoever waits for it finds the foreground free, and who does not wait, or
could not start it, has left it free. -/
theorem startJob_meets (hd : s₀.dispositions.CollectsOnChild) (ht : s₀.table.WellFormed)
    (c : Command) (cmdline : String) (b : Block) :
    Meets (At (Course s₀ Idle) m) (startJob c cmdline b) (fun _ => At (Course s₀ Idle) m)
      (Strayed s₀) := by
  have idle : Steady (Course s₀ Idle) := steady_idle hd
  unfold startJob
  refine idle.calm.jobs.bind fun t => ?_
  cases hfull : t.isFull with
  | true =>
    refine Meets.bind ((idle.calm.say _).pre fun _ h => ⟨h.1.1, h.2⟩) fun _ => ?_
    exact meets_pure fun _ h => h
  | false =>
    refine (fork_meets b c hfull).bind fun child => ?_
    cases child with
    | error r => exact meets_pure fun _ h => h
    | ok pid =>
      refine (enter_meets ht (startState_eq c) cmdline).bind fun r => ?_
      cases r with
      | error e =>
        refine (idle.calm.send pid Signal.kill).bind fun _ => ?_
        exact (idle.calm.say _).bind fun _ => meets_pure fun _ h => h
      | ok id =>
        refine Meets.bind ((steady_owned hd (startState c) pid).calm.note _ _ _ _) fun _ => ?_
        cases hb : c.background with
        | true =>
          have hstate : startState c ≠ .foreground := by
            unfold startState
            rw [hb]
            decide
          rw [owned_of_not_foreground hstate]
          exact meets_pure fun _ h => h
        | false =>
          have hstate : startState c = .foreground := by
            unfold startState
            rw [hb]
            rfl
          rw [hstate, owned_foreground]
          exact (await_meets hd ht b pid).bind fun _ => meets_pure fun _ h => h

end Processes

/-! ## 5. Jobs that go on -/

/-- A job of a process that is there while nobody owns the foreground. -/
def Ready (id : Nat) (pid : Int) (t : JobTable) (es : List Event) : Prop :=
  Idle t es ∧ ∃ a, t.get? id = some a ∧ a.pid = pid

section Resuming

variable {E : Shell σ → Prop} {id : Nat} {pid : Int} {state : JobState}

/-- **The state is entered**: nothing stands against it while nobody owns the foreground. -/
theorem restate_meets (ht : s₀.table.WellFormed) (hlive : state ≠ .undefined) :
    Meets (At (Course s₀ (Ready id pid)) m) (restate id state)
      (fun _ => At (Course s₀ (Owned state pid)) m) E := by
  intro s hs
  obtain ⟨hcourse, hm⟩ := hs
  have hwf := hcourse.wellFormed ht
  obtain ⟨es, h, htab, hidle, a, ha, hpid⟩ := hcourse
  have hnobody : ∀ k, s.table.foreground? = some k → k = id := by
    intro k hk
    rw [show s.table.foreground? = none from hidle] at hk
    cases hk
  obtain ⟨t, hset⟩ := Option.isSome_iff_exists.1
    (JobTable.setState_isSome ha hlive fun _ => hnobody)
  rw [on_restate_of_some hset]
  have h₁ : Stretch s₀ (looked s) (.used s.mask :: es) := h.cons rfl rfl trivial
  have h₂ : Stretch s₀ (looked (looked s)) (.used s.mask :: .used s.mask :: es) :=
    h₁.cons rfl rfl trivial
  refine ⟨⟨_, h₂.cons rfl rfl trivial, ?_, ?_⟩, hm⟩
  · show t = (s₀.table.replay es).withState id state
    rw [← htab, JobTable.withState, hset]
    rfl
  · refine owned_of_jobs (hwf.setState hset) fun k b hb hst => ?_
    exact hpid ▸ JobTable.owner_setState hset ha hidle hb hst

variable [Host σ]

theorem continueJob_meets (hd : s₀.dispositions.CollectsOnChild) (ht : s₀.table.WellFormed)
    (name : String) (hlive : state ≠ .undefined) :
    Meets (At (Course s₀ (Ready id pid)) m) (continueJob name state id pid)
      (fun _ => At (Course s₀ (Owned state pid)) m) E := by
  have ready : Steady (Course s₀ (Ready id pid)) := steady_course hd fun _ h => h
  have enter : ∀ m : Mask, Meets (At (Course s₀ (Ready id pid)) m) (restate id state)
      (fun _ => At (Course s₀ (Owned state pid)) m) E := fun _ => restate_meets ht hlive
  have finish := Meets.bind (enter m) fun _ =>
    (steady_owned hd state pid).calm.note .debug builtinTarget "resumed" (stateFields id pid state)
  -- What comes after the process was told depends on whether it could be told.
  have tell : ∀ f : Option Reason → Act σ Unit,
      Meets (At (Course s₀ (Ready id pid)) m) (f none)
        (fun _ => At (Course s₀ (Owned state pid)) m) E →
      (∀ r, Meets (At (Course s₀ (Ready id pid)) m) (f (some r))
        (fun _ => At (Course s₀ (Owned state pid)) m) E) →
      Meets (At (Course s₀ (Ready id pid)) m) (sendGroup pid Signal.resume >>= f)
        (fun _ => At (Course s₀ (Owned state pid)) m) E := by
    intro f hnone hsome
    refine (ready.sendGroup pid Signal.resume).bind fun r => ?_
    cases r with
    | none => exact hnone
    | some r => exact hsome r
  unfold continueJob
  by_cases hb : state = .background
  · rw [if_pos hb]
    refine ready.calm.jobs.bind fun t => ?_
    refine ((ready.calm.say _).pre fun _ h => ⟨h.1.1, h.2⟩).bind fun _ => ?_
    exact tell _ finish fun r => (ready.calm.note _ _ _ _).bind fun _ => finish
  · rw [if_neg hb]
    exact tell _ finish fun r => (ready.calm.note _ _ _ _).bind fun _ => finish

/-- **A command to go on** leaves the foreground free, whether it waits or not. -/
theorem resumeJob_meets (hd : s₀.dispositions.CollectsOnChild) (ht : s₀.table.WellFormed)
    (name : String) (hlive : state ≠ .undefined) (c : Command) (b : Block) :
    Meets (At (Course s₀ Idle) m) (resumeJob name state c b) (fun _ => At (Course s₀ Idle) m)
      (Strayed s₀) := by
  have idle : Steady (Course s₀ Idle) := steady_idle hd
  unfold resumeJob
  cases JobRef.ofArg name c.args[1]? with
  | error e => exact idle.calm.say _
  | ok ref =>
    refine idle.calm.jobs.bind fun t => ?_
    cases href : ref.resolve? t with
    | none => exact (idle.calm.say _).pre fun _ h => ⟨h.1.1, h.2⟩
    | some job =>
      obtain ⟨id, pid⟩ := job
      refine Meets.bind (Q := fun _ => At (Course s₀ (Owned state pid)) m)
        ((continueJob_meets hd ht name hlive).pre fun s h => ?_) fun _ => ?_
      · obtain ⟨⟨hcourse, rfl⟩, hm⟩ := h
        have hjob := (hcourse.wellFormed ht).resolve?_eq_some href
        exact ⟨hcourse.mono fun es h => ⟨h, hjob⟩, hm⟩
      · by_cases hfg : state = .foreground
        · rw [if_pos hfg, hfg, owned_foreground]
          exact await_meets hd ht b pid
        · rw [if_neg hfg, owned_of_not_foreground hfg]
          exact meets_pure fun _ h => h

end Resuming

/-! ## 6. Commands -/

section Commands

variable [Host σ]

/-- A critical section that takes signals at its end. -/
theorem locked_meets {α : Type} {body : Block → Act σ α} (hd : s₀.dispositions.CollectsOnChild)
    (ht : s₀.table.WellFormed)
    (hbody : ∀ b m, Meets (At (Course s₀ Idle) m) (body b) (fun _ => At (Course s₀ Idle) m)
      (Strayed s₀)) :
    Meets (At (Course s₀ Idle) m) (locked interruptible body) (fun _ => At (Course s₀ Idle) m)
      (Strayed s₀) :=
  meets_locked (steady_idle hd).toLoose (fun _ => (steady_idle hd).toLoose) (hbody _ _) fun _ =>
    follows_interruptible.course hd ht lasting_idle m

theorem launch_meets (hd : s₀.dispositions.CollectsOnChild) (ht : s₀.table.WellFormed) (c : Command)
    (cmdline : String) :
    Meets (At (Course s₀ Idle) m) (launch c cmdline).attempt (fun _ => At (Course s₀ Idle) m)
      (Strayed s₀) := by
  unfold launch
  split
  · exact ((steady_idle hd).calm.say _).attempt
  · refine Meets.attempt_bind (locked_meets hd ht fun b m => startJob_meets hd ht c cmdline b)
      fun started => ?_
    match started with
    | .error r => exact meets_attempt_failed fun _ h => h
    | .ok none => exact Meets.attempt (meets_pure fun _ h => h)
    | .ok (some job) => exact ((steady_idle hd).calm.say _).attempt

theorem writeAll_meets {J : Shell σ → Prop} (hJ : Calm J) {E : Shell σ → Prop}
    (parts : List String) : Meets (At J m) (writeAll parts) (fun _ => At J m) E := by
  induction parts with
  | nil => exact meets_pure fun _ h => h
  | cons part rest ih =>
    unfold writeAll
    refine (hJ.write _).bind fun ok => ?_
    cases ok with
    | true => exact ih
    | false => exact meets_pure fun _ h => h

omit [Host σ] in
/-- The table is shown as it is. -/
theorem listed_meets {E : Shell σ → Prop} (t : JobTable) :
    Meets (At (fun s => Course s₀ Idle s ∧ s.table = t) m) (record (.listed t))
      (fun _ => At (Course s₀ Idle) m) E := by
  refine meets_modify fun s hs => ?_
  obtain ⟨⟨⟨es, h, htab, hidle⟩, rfl⟩, hm⟩ := hs
  exact ⟨⟨_, h.cons rfl rfl htab, htab, hidle⟩, hm⟩

theorem listJobs_meets (hd : s₀.dispositions.CollectsOnChild) (ht : s₀.table.WellFormed)
    (c : Command) :
    Meets (At (Course s₀ Idle) m) (listJobs c) (fun _ => At (Course s₀ Idle) m) (Strayed s₀) := by
  have idle : Steady (Course s₀ Idle) := steady_idle hd
  have fault : ∀ (m : Mask) (all : Bool), Meets (At (Course s₀ Idle) m)
      (unless all do say listingFault) (fun _ => At (Course s₀ Idle) m) (Strayed s₀) := by
    intro m all
    cases all with
    | true => exact meets_pure fun _ h => h
    | false => exact idle.calm.say _
  unfold listJobs
  refine locked_meets hd ht fun b m => ?_
  cases c.outfile with
  | none =>
    refine idle.calm.jobs.bind fun t => (listed_meets t).bind fun _ => ?_
    exact (writeAll_meets idle.calm _).bind fun all => fault m all
  | some path =>
    refine meets_get_bind fun s hs => ?_
    have here : ∀ s', s' = s → At (Course s₀ Idle) m s' := fun _ e => e ▸ hs
    cases (Host.files s.host).openOutput path with
    | error r => exact (idle.calm.say _).pre here
    | ok place =>
      refine Meets.bind (idle.calm.jobs.pre here) fun t => (listed_meets t).bind fun _ => ?_
      refine Meets.bind (Q := fun _ => At (Course s₀ Idle) m) ?_ fun _ => fault m _
      exact meets_modify fun _ h => ⟨idle.host h.1, h.2⟩

theorem execute_meets (hd : s₀.dispositions.CollectsOnChild) (ht : s₀.table.WellFormed)
    (c : Command) (cmdline : String) :
    Meets (At (Course s₀ Idle) m) (execute c cmdline).attempt (fun _ => At (Course s₀ Idle) m)
      (Strayed s₀) := by
  have going : ∀ (name : String) (state : JobState), state ≠ .undefined →
      Meets (At (Course s₀ Idle) m) (resume name state c) (fun _ => At (Course s₀ Idle) m)
        (Strayed s₀) :=
    fun name state hlive => locked_meets hd ht fun b m => resumeJob_meets hd ht name hlive c b
  unfold execute
  cases c.program? with
  | none => exact Meets.attempt (meets_pure fun _ h => h)
  | some name =>
    dsimp only
    cases Builtin.ofName? name with
    | none => exact launch_meets hd ht c cmdline
    | some b =>
      cases b with
      | quit => exact Meets.attempt (meets_throw rfl fun _ h => h.1.strayed)
      | jobs => exact (listJobs_meets hd ht c).attempt
      | background => exact (going "bg" .background (by decide)).attempt
      | foreground => exact (going "fg" .foreground (by decide)).attempt

theorem evaluate_meets (hd : s₀.dispositions.CollectsOnChild) (ht : s₀.table.WellFormed)
    (text : String) :
    Meets (At (Course s₀ Idle) m) (evaluate text).attempt (fun _ => At (Course s₀ Idle) m)
      (Strayed s₀) := by
  unfold evaluate
  cases Command.ofLine text with
  | error e => exact ((steady_idle hd).calm.say _).attempt
  | ok c? =>
    cases c? with
    | none => exact Meets.attempt (meets_pure fun _ h => h)
    | some c => exact execute_meets hd ht c text

end Commands

/-! ## 7. Rounds -/

/-- One thing that happens at the prompt. -/
inductive Round (σ : Type) where
  | line (text : String)
  | command (c : Command) (cmdline : String)
  /-- The signals that wait are taken. -/
  | signals
  /-- The world around the shell goes on: children change, signals arrive. -/
  | world (host : σ)

section Rounds

variable [Host σ]

/-- What happens in a round. What fails is given up, and other rounds may follow. -/
def Round.act : Round σ → Act σ Unit
  | .line text => do let _ ← (evaluate text).attempt
  | .command c cmdline => do let _ ← (execute c cmdline).attempt
  | .signals => interruptible
  | .world host => modify fun s => { s with host }

/-- What is left after a line is what its evaluation leaves. -/
theorem Round.on_line_snd (text : String) (s : Shell σ) :
    ((Round.line text).act.on s).2 = ((evaluate text).on s).2 := by
  show (((evaluate text).attempt >>= fun _ => pure ()).on s).2 = _
  rw [on_bind, ← attempt_on_snd]
  rcases (evaluate text).attempt.on s with ⟨e | x, s'⟩
  · rfl
  · rfl

/-- Rounds one after the other. -/
def conduct : List (Round σ) → Act σ Unit
  | [] => pure ()
  | round :: rest => do
    round.act
    conduct rest

/-- **A round that begins with nobody in the foreground ends so.** -/
theorem round_meets (hd : s₀.dispositions.CollectsOnChild) (ht : s₀.table.WellFormed)
    (round : Round σ) :
    Meets (At (Course s₀ Idle) m) round.act (fun _ => At (Course s₀ Idle) m) (Strayed s₀) := by
  cases round with
  | line text => exact (evaluate_meets hd ht text).bind fun _ => meets_pure fun _ h => h
  | command c cmdline =>
    exact (execute_meets hd ht c cmdline).bind fun _ => meets_pure fun _ h => h
  | signals => exact follows_interruptible.course hd ht lasting_idle m
  | world host => exact meets_modify fun _ h => ⟨(steady_idle hd).host h.1, h.2⟩

theorem conduct_meets (hd : s₀.dispositions.CollectsOnChild) (ht : s₀.table.WellFormed)
    (rounds : List (Round σ)) :
    Meets (At (Course s₀ Idle) m) (conduct rounds) (fun _ => At (Course s₀ Idle) m)
      (Strayed s₀) := by
  induction rounds with
  | nil => exact meets_pure fun _ h => h
  | cons round rest ih => exact (round_meets hd ht round).bind fun _ => ih

/-- **What comes of any rounds**, from a table without a job in the foreground. -/
theorem conduct_course (hd : s.dispositions.CollectsOnChild) (ht : s.table.WellFormed)
    (hidle : s.table.foreground? = none) (rounds : List (Round σ)) :
    Strayed s ((conduct rounds).on s).2 ∧
      (((conduct rounds).on s).1 = .ok () → Course s Idle ((conduct rounds).on s).2) := by
  have start : At (Course s Idle) s.mask s := ⟨⟨[], Stretch.refl s, rfl, hidle⟩, rfl⟩
  have run := conduct_meets hd ht rounds (m := s.mask)
  cases hon : (conduct rounds).on s with
  | mk r s' =>
    cases r with
    | error e => exact ⟨(run.of_error start hon).2, fun h => (nomatch h)⟩
    | ok x =>
      have hcourse : Course s Idle s' := (run.of_ok start hon).1
      exact ⟨hcourse.strayed, fun _ => hcourse⟩

end Rounds

end Shell

end JobShell
