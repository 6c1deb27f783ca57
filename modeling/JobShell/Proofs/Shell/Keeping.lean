import JobShell.Proofs.Shell.Course

/-!
# What a run keeps

What is told of the table and of the events so far holds all through a run if each thing that counts
keeps it.

* `Left s₀ R s` says that `R` holds of the table and of the events since `s₀`.
* `Watches k d R` lists what handlers do that counts; `Watches.guarded` says that a handler other
  than the one for `k` keeps what is watched in this way.
* `Lasts s₀ R R'` adds what commands do. The lemmas named after the acts of the shell lead up to
  `Lasts.execute`, where a command to go on may lead from one `R` to another, and to
  `Lasts.conduct`.
-/

namespace JobShell

open Act

/-! ## 1. Events that do not count -/

/-- An event that neither changes the table, nor says anything about children, nor sends a signal to
a group, nor ends a handler. -/
def Event.IsAside : Event → Prop
  | changed _ | collected _ | drained | sentGroup _ _ _ | handled _ _ => False
  | _ => True

theorem Event.IsTalk.isAside {e : Event} (h : e.IsTalk) : e.IsAside := by
  cases e with
  | changed op => exact h.elim
  | collected c => exact h.elim
  | drained => exact h.elim
  | sentGroup t pid n => exact h.elim
  | handled t n => exact h.elim
  | _ => trivial

theorem Event.isAside_ofFork (child : Except Reason Int) : (Event.ofFork child).IsAside := by
  cases child <;> trivial

/-- The job that the argument of the command `name` means, and its process. -/
def Command.meant? (c : Command) (name : String) (t : JobTable) : Option (Nat × Int) :=
  match JobRef.ofArg name c.args[1]? with
  | .ok ref => ref.resolve? t
  | .error _ => none

/-- The process that a command tells to go on. -/
def Command.told? (c : Command) (t : JobTable) : Option Int :=
  match c.program?.bind Builtin.ofName? with
  | some .background => (c.meant? "bg" t).map (·.2)
  | some .foreground => (c.meant? "fg" t).map (·.2)
  | _ => none

namespace Shell

variable {σ : Type}

/-- Events that do not count leave it alone. -/
def IgnoresAsides (R : JobTable → List Event → Prop) : Prop :=
  ∀ ⦃t : JobTable⦄ ⦃e : Event⦄ ⦃es : List Event⦄, e.IsAside → R t es → R t (e :: es)

/-! ## 2. What is left -/

/-- Nothing is arranged anew since `s₀`, and `R` holds of the table and of the events since then. -/
def Left (s₀ : Shell σ) (R : JobTable → List Event → Prop) (s : Shell σ) : Prop :=
  s.dispositions = s₀.dispositions ∧ ∃ es, s.trace = es ++ s₀.trace ∧ R s.table es

variable {s₀ s s' : Shell σ} {R R' R₀ : JobTable → List Event → Prop} {m : Mask} {k : Nat}

theorem Left.mono (h : Left s₀ R s) (hR : ∀ t es, R t es → R' t es) : Left s₀ R' s :=
  let ⟨hd, es, ht, hr⟩ := h
  ⟨hd, es, ht, hR s.table es hr⟩

/-- One more event. -/
theorem Left.cons (h : Left s₀ R s) {e : Event} (hd : s'.dispositions = s.dispositions)
    (ht : s'.trace = e :: s.trace) (hR : ∀ es, R s.table es → R' s'.table (e :: es)) :
    Left s₀ R' s' := by
  obtain ⟨hd₀, es, ht₀, hr⟩ := h
  exact ⟨hd.trans hd₀, e :: es, by rw [ht, ht₀, List.cons_append], hR es hr⟩

theorem Left.aside (h : Left s₀ R s) (hR : IgnoresAsides R) {e : Event} (he : e.IsAside)
    (hd : s'.dispositions = s.dispositions) (htable : s'.table = s.table)
    (ht : s'.trace = e :: s.trace) : Left s₀ R s' :=
  h.cons hd ht fun _ hr => htable.symm ▸ hR he hr

theorem calm_left (hR : IgnoresAsides R) : Calm (Left s₀ R) where
  host h := h
  mask h := h
  talk he h := h.aside hR he.isAside rfl rfl rfl

/-- **What handlers do that counts**, but for the handler for `k`: signals are passed on, handlers
come to their end, children are heard of, the table goes through changes of children. -/
structure Watches (k : Nat) (d : Dispositions) (R : JobTable → List Event → Prop) : Prop where
  aside : IgnoresAsides R
  forwards : ∀ {t es n pid}, n ≠ k → d.of n = .handler .forward → t.foregroundPid? = some pid →
    R t es → R t (.sentGroup t pid n :: es)
  handles : ∀ {t es n}, n ≠ k → R t es → R t (.handled t n :: es)
  answered : ∀ {t es} (r : Option ChildStatus), R t es → R t (.ofAnswer r :: es)
  observes : ∀ {t es} (c : ChildStatus), R t es → R (t.observe c).1 es

/-- **Handlers keep what is watched.** -/
theorem Watches.guarded (h : Watches k s₀.dispositions R) (hd : s₀.dispositions.CollectsOnChild) :
    Guarded k (Left s₀ R) where
  toCalm := calm_left h.aside
  forwards hne hleft hof hfg :=
    hleft.cons rfl rfl fun _ => h.forwards hne (hleft.1 ▸ hof) hfg
  handles hne hleft := hleft.cons rfl rfl fun _ => h.handles hne
  answered {_ r} _ hleft := hleft.cons rfl rfl fun _ => h.answered r
  observes {s c} _ hleft := by
    refine hleft.cons (e := .used s.mask) rfl rfl fun es hr => ?_
    exact h.aside trivial (h.observes c hr)
  collects hleft := hleft.1.symm ▸ hd

variable [Host σ]

/-- What no handler at all touches outlives the taking of signals. -/
theorem deliver_left (h : ∀ k, Watches k s₀.dispositions R)
    (hd : s₀.dispositions.CollectsOnChild) (depth : Nat) :
    Meets (At (Left s₀ R) m) (deliver depth) (fun _ => At (Left s₀ R) m) (Left s₀ R) := by
  have hE : ∀ s, Left s₀ R s → Left s₀ R s := fun _ h => h
  refine deliver_meets _ depth _ _ ((h Signal.child).guarded hd) hE m (Or.inr ?_)
  intro pause hp m' hm'
  -- The handler for children is one of those that are not for another signal.
  exact ((h Signal.interrupt).guarded hd).handle hE
    (hp _ _ ((h Signal.child).guarded hd) hE m' hm') (by decide)

/-! ## 3. What lasts -/

/-- **What lasts through a run**: `R` outlives the taking of signals, if that does not end the shell
with `R'`, and the changes that the shell makes of its own accord. -/
structure Lasts (s₀ : Shell σ) (R R' : JobTable → List Event → Prop) : Prop where
  aside : IgnoresAsides R
  added : ∀ {t t' es pid state cmdline id}, t.add pid state cmdline = .ok (id, t') → R t es →
    R t' (.changed (.add pid state cmdline) :: es)
  restated : ∀ {t t' es id state}, t.setState id state = some t' → R t es →
    R t' (.changed (.setState id state) :: es)
  ends : ∀ {t es}, R t es → R' t es
  deliver : ∀ (depth : Nat) (m : Mask), Meets (At (Left s₀ R) m) (deliver depth)
    (fun _ => At (Left s₀ R) m) (Left s₀ R')

theorem Lasts.calm (h : Lasts s₀ R R') : Calm (Left s₀ R) := calm_left h.aside

theorem Lasts.record (h : Lasts s₀ R R') {e : Event} (he : e.IsAside) :
    Meets (At (Left s₀ R) m) (record e) (fun _ => At (Left s₀ R) m) (Left s₀ R') :=
  meets_modify fun _ hs => ⟨hs.1.aside h.aside he rfl rfl rfl, hs.2⟩

theorem Lasts.interruptible (h : Lasts s₀ R R') :
    Meets (At (Left s₀ R) m) interruptible (fun _ => At (Left s₀ R) m) (Left s₀ R') := by
  unfold Shell.interruptible
  refine meets_get_bind fun s hs => ?_
  exact (h.deliver s.patience m).pre fun _ e => e ▸ hs

theorem Lasts.suspend (h : Lasts s₀ R R') (b : Block) :
    Meets (At (Left s₀ R) m) (suspend b) (fun _ => At (Left s₀ R) m) (Left s₀ R') := by
  unfold Shell.suspend
  refine meets_get_bind fun s hs => ?_
  have restored : s.mask = m := hs.2
  refine Meets.bind ((h.calm.setMask b.before).pre fun _ e => e ▸ hs) fun _ => ?_
  refine Meets.bind (Q := fun _ => At (Left s₀ R) b.before) ?_ fun _ => ?_
  · exact meets_modify fun _ hs => ⟨h.calm.host hs.1, hs.2⟩
  · refine meets_get_bind fun s₁ hs₁ => ?_
    refine Meets.bind ((h.record (e := .slept s₁.table b.before) trivial).pre fun _ e => e ▸ hs₁)
      fun _ => ?_
    exact h.interruptible.bind fun _ => restored ▸ h.calm.setMask s.mask

theorem Lasts.awaitFor (h : Lasts s₀ R R') (b : Block) (pid : Int) (bound : Nat) :
    Meets (At (Left s₀ R) m) (awaitFor b pid bound) (fun _ => At (Left s₀ R) m) (Left s₀ R') := by
  induction bound with
  | zero => exact meets_throw rfl fun _ hs => hs.1.mono fun _ _ => h.ends
  | succ n ih =>
    unfold Shell.awaitFor
    refine h.calm.jobs.bind fun t => ?_
    split
    · exact Meets.bind ((h.suspend b).pre fun _ hs => ⟨hs.1.1, hs.2⟩) fun _ => ih
    · exact meets_pure fun _ hs => ⟨hs.1.1, hs.2⟩

theorem Lasts.await (h : Lasts s₀ R R') (b : Block) (pid : Int) :
    Meets (At (Left s₀ R) m) (await b pid) (fun _ => At (Left s₀ R) m) (Left s₀ R') := by
  unfold Shell.await
  refine meets_get_bind fun s hs => ?_
  exact (h.awaitFor b pid s.patience).pre fun _ e => e ▸ hs

/-- A critical section may lead from one thing that holds to another that lasts. -/
theorem Lasts.locked (h : Lasts s₀ R R') {α : Type} {body : Block → Act σ α}
    (h₀ : IgnoresAsides R₀)
    (hbody : ∀ b m, Meets (At (Left s₀ R₀) m) (body b) (fun _ => At (Left s₀ R) m) (Left s₀ R')) :
    Meets (At (Left s₀ R₀) m) (locked Shell.interruptible body) (fun _ => At (Left s₀ R) m)
      (Left s₀ R') :=
  meets_locked (calm_left h₀).toLoose (fun _ => h.calm.toLoose) (hbody _ _) fun _ => h.interruptible

/-! ## 4. Changes of the table -/

omit [Host σ] in
/-- Looking at the table does not count. -/
theorem left_looked (hR : IgnoresAsides R) (hs : Left s₀ R s) : Left s₀ R (looked s) :=
  hs.aside hR (e := .used s.mask) trivial rfl rfl rfl

theorem Lasts.enter (h : Lasts s₀ R R') (pid : Int) (state : JobState) (cmdline : String) :
    Meets (At (Left s₀ R) m) (enter pid state cmdline) (fun _ => At (Left s₀ R) m)
      (Left s₀ R') := by
  intro s hs
  have h₁ : Left s₀ R (looked s) := left_looked h.aside hs.1
  cases hadd : s.table.add pid state cmdline with
  | error e =>
    rw [on_enter_of_error hadd]
    exact ⟨h₁.aside h.aside (e := .refused pid e) trivial rfl rfl rfl, hs.2⟩
  | ok r =>
    obtain ⟨id, t⟩ := r
    rw [on_enter_of_ok hadd]
    exact ⟨(left_looked h.aside h₁).cons rfl rfl fun _ => h.added hadd, hs.2⟩

theorem Lasts.restate (h : Lasts s₀ R R') (id : Nat) (state : JobState) :
    Meets (At (Left s₀ R) m) (restate id state) (fun _ => At (Left s₀ R) m) (Left s₀ R') := by
  intro s hs
  have h₁ : Left s₀ R (looked s) := left_looked h.aside hs.1
  cases hset : s.table.setState id state with
  | none =>
    rw [on_restate_of_none hset]
    exact ⟨h₁.aside h.aside (e := .kept id state) trivial rfl rfl rfl, hs.2⟩
  | some t =>
    rw [on_restate_of_some hset]
    exact ⟨(left_looked h.aside h₁).cons rfl rfl fun _ => h.restated hset, hs.2⟩

/-! ## 5. Programs and listings -/

theorem Lasts.fork (h : Lasts s₀ R R') (b : Block) (c : Command) :
    Meets (At (Left s₀ R) m) (fork b c) (fun _ => At (Left s₀ R) m) (Left s₀ R') :=
  meets_of_on (on_fork b c) fun _ hs =>
    ⟨hs.1.aside h.aside (Event.isAside_ofFork _) rfl rfl rfl, hs.2⟩

theorem Lasts.startJob (h : Lasts s₀ R R') (c : Command) (cmdline : String) (b : Block) :
    Meets (At (Left s₀ R) m) (startJob c cmdline b) (fun _ => At (Left s₀ R) m) (Left s₀ R') := by
  unfold Shell.startJob
  refine h.calm.jobs.bind fun t => ?_
  refine Meets.pre (P := At (Left s₀ R) m) ?_ fun _ hs => ⟨hs.1.1, hs.2⟩
  split
  · exact (h.calm.say _).bind fun _ => meets_pure fun _ hs => hs
  · refine (h.fork b c).bind fun child => ?_
    cases child with
    | error r => exact meets_pure fun _ hs => hs
    | ok pid =>
      refine (h.enter pid _ cmdline).bind fun r => ?_
      cases r with
      | error e =>
        refine (h.calm.send pid Signal.kill).bind fun _ => ?_
        exact (h.calm.say _).bind fun _ => meets_pure fun _ hs => hs
      | ok id =>
        refine (h.calm.note _ _ _ _).bind fun _ => ?_
        split
        · exact meets_pure fun _ hs => hs
        · exact (h.await b pid).bind fun _ => meets_pure fun _ hs => hs

theorem Lasts.launch (h : Lasts s₀ R R') (c : Command) (cmdline : String) :
    Meets (At (Left s₀ R) m) (launch c cmdline).attempt (fun _ => At (Left s₀ R) m)
      (Left s₀ R') := by
  unfold Shell.launch
  split
  · exact (h.calm.say _).attempt
  · refine (h.locked h.aside fun b m => h.startJob c cmdline b).attempt_bind fun started => ?_
    match started with
    | .error r => exact meets_attempt_failed fun _ hs => hs
    | .ok none => exact Meets.attempt (meets_pure fun _ hs => hs)
    | .ok (some job) => exact (h.calm.say _).attempt

theorem Lasts.listJobs (h : Lasts s₀ R R') (c : Command) :
    Meets (At (Left s₀ R) m) (listJobs c) (fun _ => At (Left s₀ R) m) (Left s₀ R') := by
  have fault : ∀ (m : Mask) (all : Bool), Meets (At (Left s₀ R) m)
      (unless all do say listingFault) (fun _ => At (Left s₀ R) m) (Left s₀ R') := by
    intro m all
    cases all with
    | true => exact meets_pure fun _ hs => hs
    | false => exact h.calm.say _
  have listed : ∀ (m : Mask) (t : JobTable), Meets (At (fun s => Left s₀ R s ∧ s.table = t) m)
      (Shell.record (.listed t)) (fun _ => At (Left s₀ R) m) (Left s₀ R') :=
    fun m t => (h.record (e := .listed t) trivial).pre fun _ hs => ⟨hs.1.1, hs.2⟩
  unfold Shell.listJobs
  refine h.locked h.aside fun b m => ?_
  cases c.outfile with
  | none =>
    refine h.calm.jobs.bind fun t => (listed m t).bind fun _ => ?_
    exact (writeAll_meets h.calm _).bind fun all => fault m all
  | some path =>
    refine meets_get_bind fun s hs => ?_
    have here : ∀ s', s' = s → At (Left s₀ R) m s' := fun _ e => e ▸ hs
    cases (Host.files s.host).openOutput path with
    | error r => exact (h.calm.say _).pre here
    | ok place =>
      refine Meets.bind (h.calm.jobs.pre here) fun t => (listed m t).bind fun _ => ?_
      refine Meets.bind (Q := fun _ => At (Left s₀ R) m) ?_ fun _ => fault m _
      exact meets_modify fun _ hs => ⟨h.calm.host hs.1, hs.2⟩

/-! ## 6. Jobs that go on -/

/-- **A job goes on**: where it was sent the signal, what holds then lasts. -/
theorem Lasts.continueJob (h : Lasts s₀ R R') (h₀ : IgnoresAsides R₀) {pid : Int}
    (hsent : ∀ t es, R₀ t es → R t (.sentGroup t pid Signal.resume :: es)) (name : String)
    (state : JobState) (id : Nat) :
    Meets (At (Left s₀ R₀) m) (continueJob name state id pid) (fun _ => At (Left s₀ R) m)
      (Left s₀ R') := by
  have finish : Meets (At (Left s₀ R) m) (Shell.restate id state >>= fun _ =>
      note .debug builtinTarget "resumed" (stateFields id pid state)) (fun _ => At (Left s₀ R) m)
      (Left s₀ R') := (h.restate id state).bind fun _ => h.calm.note _ _ _ _
  -- What comes after the process was told depends on whether it could be told.
  have tell : ∀ f : Option Reason → Act σ Unit,
      Meets (At (Left s₀ R) m) (f none) (fun _ => At (Left s₀ R) m) (Left s₀ R') →
      (∀ r, Meets (At (Left s₀ R) m) (f (some r)) (fun _ => At (Left s₀ R) m) (Left s₀ R')) →
      Meets (At (Left s₀ R₀) m) (sendGroup pid Signal.resume >>= f) (fun _ => At (Left s₀ R) m)
        (Left s₀ R') := by
    intro f hnone hsome
    refine Meets.bind (Q := fun _ => At (Left s₀ R) m) ?_ fun r => ?_
    · exact meets_of_on (on_sendGroup pid Signal.resume) fun s hs =>
        ⟨hs.1.cons rfl rfl fun es => hsent s.table es, hs.2⟩
    · cases r with
      | none => exact hnone
      | some r => exact hsome r
  unfold Shell.continueJob
  by_cases hb : state = .background
  · rw [if_pos hb]
    refine (calm_left h₀).jobs.bind fun t => ?_
    refine (((calm_left h₀).say _).pre fun _ hs => ⟨hs.1.1, hs.2⟩).bind fun _ => ?_
    exact tell _ finish fun r => (h.calm.note _ _ _ _).bind fun _ => finish
  · rw [if_neg hb]
    exact tell _ finish fun r => (h.calm.note _ _ _ _).bind fun _ => finish

/-- **A command to go on** may send a signal to the job it means, and to no other. -/
theorem Lasts.resumeJob (h : Lasts s₀ R R') (h₀ : IgnoresAsides R₀) (name : String)
    (state : JobState) (c : Command)
    (hnone : ∀ t es, c.meant? name t = none → R₀ t es → R t es)
    (hsent : ∀ t es id pid, c.meant? name t = some (id, pid) → R₀ t es →
      R t (.sentGroup t pid Signal.resume :: es)) (b : Block) :
    Meets (At (Left s₀ R₀) m) (resumeJob name state c b) (fun _ => At (Left s₀ R) m)
      (Left s₀ R') := by
  unfold Shell.resumeJob
  cases href : JobRef.ofArg name c.args[1]? with
  | error e =>
    have hmeant : ∀ t, c.meant? name t = none := fun t => by rw [Command.meant?, href]
    exact (h.calm.say _).pre fun _ hs => ⟨hs.1.mono fun t es => hnone t es (hmeant t), hs.2⟩
  | ok ref =>
    have hmeant : ∀ t, c.meant? name t = ref.resolve? t := fun t => by rw [Command.meant?, href]
    refine (calm_left h₀).jobs.bind fun t => ?_
    cases hjob : ref.resolve? t with
    | none =>
      refine (h.calm.say _).pre fun s hs => ?_
      obtain ⟨⟨⟨hd, es, htrace, hr⟩, rfl⟩, hm⟩ := hs
      exact ⟨⟨hd, es, htrace, hnone _ _ ((hmeant _).trans hjob) hr⟩, hm⟩
    | some job =>
      obtain ⟨id, pid⟩ := job
      -- The table is still the one in which the job was looked up when the signal is sent.
      let found : JobTable → List Event → Prop :=
        fun t' es => R₀ t' es ∧ c.meant? name t' = some (id, pid)
      have hfound : IgnoresAsides found := fun _ _ _ he hr => ⟨h₀ he hr.1, hr.2⟩
      have hcontinue : Meets (At (Left s₀ found) m) (Shell.continueJob name state id pid)
          (fun _ => At (Left s₀ R) m) (Left s₀ R') :=
        h.continueJob hfound (fun t' es hr => hsent t' es id pid hr.2 hr.1) name state id
      refine Meets.bind (hcontinue.pre fun s hs => ?_) fun _ => ?_
      · obtain ⟨⟨⟨hd, es, htrace, hr⟩, rfl⟩, hm⟩ := hs
        exact ⟨⟨hd, es, htrace, hr, (hmeant _).trans hjob⟩, hm⟩
      · split
        · exact h.await b pid
        · exact meets_pure fun _ hs => hs

/-! ## 7. Commands and rounds -/

/-- **What a command may do that counts**: it sends a signal to the job that it tells to go on. -/
theorem Lasts.execute (h : Lasts s₀ R R') (h₀ : IgnoresAsides R₀) (c : Command) (cmdline : String)
    (hnone : ∀ t es, c.told? t = none → R₀ t es → R t es)
    (hsent : ∀ t es pid, c.told? t = some pid → R₀ t es →
      R t (.sentGroup t pid Signal.resume :: es)) :
    Meets (At (Left s₀ R₀) m) (execute c cmdline).attempt (fun _ => At (Left s₀ R) m)
      (Left s₀ R') := by
  -- A command that tells nothing to go on may as well start from what holds in the end.
  have silent : ∀ {a : Act σ (Except Reason Unit)}, (∀ t, c.told? t = none) →
      Meets (At (Left s₀ R) m) a (fun _ => At (Left s₀ R) m) (Left s₀ R') →
      Meets (At (Left s₀ R₀) m) a (fun _ => At (Left s₀ R) m) (Left s₀ R') :=
    fun htold ha => ha.pre fun _ hs => ⟨hs.1.mono fun t es => hnone t es (htold t), hs.2⟩
  have going : ∀ (name : String) (state : JobState),
      (∀ t, c.told? t = (c.meant? name t).map (·.2)) →
      Meets (At (Left s₀ R₀) m) (resume name state c) (fun _ => At (Left s₀ R) m)
        (Left s₀ R') := by
    intro name state htold
    refine h.locked h₀ fun b m => h.resumeJob h₀ name state c (fun t es hm => ?_)
      (fun t es id pid hm => ?_) b
    · exact hnone t es (by rw [htold, hm]; rfl)
    · exact hsent t es pid (by rw [htold, hm]; rfl)
  unfold Shell.execute
  cases hname : c.program? with
  | none =>
    refine silent (fun t => ?_) (Meets.attempt (meets_pure fun _ hs => hs))
    rw [Command.told?, hname]
    rfl
  | some name =>
    dsimp only
    cases hb : Builtin.ofName? name with
    | none =>
      refine silent (fun t => ?_) (h.launch c cmdline)
      rw [Command.told?, hname, Option.bind_some, hb]
    | some b =>
      have hfound : c.program?.bind Builtin.ofName? = some b := by rw [hname, Option.bind_some, hb]
      cases b with
      | quit =>
        refine silent (fun t => ?_)
          (Meets.attempt (meets_throw rfl fun _ hs => hs.1.mono fun _ _ => h.ends))
        rw [Command.told?, hfound]
      | jobs =>
        refine silent (fun t => ?_) (h.listJobs c).attempt
        rw [Command.told?, hfound]
      | background =>
        refine (going "bg" .background fun t => ?_).attempt
        rw [Command.told?, hfound]
      | foreground =>
        refine (going "fg" .foreground fun t => ?_).attempt
        rw [Command.told?, hfound]

/-- The process that something that happens at the prompt tells to go on. -/
def Round.told? (round : Round σ) (t : JobTable) : Option Int :=
  match round with
  | .line text =>
    match Command.ofLine text with
    | .ok (some c) => c.told? t
    | _ => none
  | .command c _ => c.told? t
  | _ => none

/-- **What a round may do that counts.** -/
theorem Lasts.round (h : Lasts s₀ R R') (h₀ : IgnoresAsides R₀) (round : Round σ)
    (hnone : ∀ t es, round.told? t = none → R₀ t es → R t es)
    (hsent : ∀ t es pid, round.told? t = some pid → R₀ t es →
      R t (.sentGroup t pid Signal.resume :: es)) :
    Meets (At (Left s₀ R₀) m) round.act (fun _ => At (Left s₀ R) m) (Left s₀ R') := by
  have silent : (∀ t, round.told? t = none) → ∀ s, At (Left s₀ R₀) m s → At (Left s₀ R) m s :=
    fun htold s hs => ⟨hs.1.mono fun t es => hnone t es (htold t), hs.2⟩
  cases round with
  | command c cmdline =>
    exact (h.execute h₀ c cmdline hnone hsent).bind fun _ => meets_pure fun _ hs => hs
  | signals => exact h.interruptible.pre (silent fun _ => rfl)
  | world host =>
    exact meets_modify fun s hs => ⟨h.calm.host (silent (fun _ => rfl) s hs).1, hs.2⟩
  | line text =>
    refine Meets.bind (Q := fun _ => At (Left s₀ R) m) ?_ fun _ => meets_pure fun _ hs => hs
    unfold evaluate
    cases hline : Command.ofLine text with
    | error e =>
      refine (h.calm.say e.message).attempt.pre (silent fun t => ?_)
      simp only [Round.told?, hline]
    | ok c? =>
      cases c? with
      | none =>
        refine Meets.attempt (meets_pure (silent fun t => ?_))
        simp only [Round.told?, hline]
      | some c =>
        have htold : ∀ t, (Round.line text : Round σ).told? t = c.told? t := fun t => by
          simp only [Round.told?, hline]
        exact h.execute h₀ c text (fun t es ht => hnone t es ((htold t).trans ht))
          fun t es pid ht => hsent t es pid ((htold t).trans ht)

/-- **What lasts through every round lasts through any number of them.** -/
theorem Lasts.conduct (h : Lasts s₀ R R')
    (hsent : ∀ (round : Round σ) t es pid, round.told? t = some pid → R t es →
      R t (.sentGroup t pid Signal.resume :: es)) (rounds : List (Round σ)) :
    Meets (At (Left s₀ R) m) (conduct rounds) (fun _ => At (Left s₀ R) m) (Left s₀ R') := by
  induction rounds with
  | nil => exact meets_pure fun _ hs => hs
  | cons round rest ih =>
    exact (h.round h.aside round (fun _ _ _ hr => hr) (hsent round)).bind fun _ => ih

end Shell

end JobShell
