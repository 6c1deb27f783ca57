import JobShell.Proofs.Shell.Act
import JobShell.Proofs.Shell.Trace

/-!
# What handlers do

Whatever signals arrive, in whatever order and nested in whatever way, the handlers of a shell come
to very little.

* `Handling s s' es` says it of a stretch from `s` to `s'` that left the events `es`.
* `Guarded` is a property that no handler touches but the one for some signal; `deliver_meets` says
  that such a property outlives the taking of signals if it outlives that handler, or while that
  signal is blocked. A `Steady` property is of this kind, for the signal for children.
* `collectAll_rule` is the loop of that handler, `collectAll_meets` what it does: each change that
  can be told reaches the table before the next one is collected, because no other handler runs in
  between that would collect.
* `follows_deliver` puts this together: after taking signals, the table is the one that the events
  make; `follows_suspend` says so of sleeping.
-/

namespace JobShell

open Act Trace Diagnostics

/-! ## 1. Who collects -/

/-- The signal for children, and no other, makes the shell collect. -/
def Dispositions.CollectsOnChild (d : Dispositions) : Prop :=
  ∀ n, d.of n = .handler .collect ↔ n = Signal.child

/-- **The shell arranges it so.** -/
theorem Dispositions.collectsOnChild_installed : defaults.installed.CollectsOnChild := by
  intro n
  simp only [installed, of_set, defaults]
  constructor
  · intro h
    split at h
    · cases h
    · split at h
      · cases h
      · split at h
        · cases h
        · split at h
          · assumption
          · split at h
            · cases h
            · split at h
              · cases h
              · cases h
  · rintro rfl
    rfl

namespace Shell

variable {σ : Type}

/-! ## 2. Stretches -/

/-- A stretch of what a shell does: it leaves events that fit. -/
structure Stretch (s s' : Shell σ) (es : List Event) : Prop where
  trace : s'.trace = es ++ s.trace
  fits : Always (Event.Fits s.table) es
  dispositions : s'.dispositions = s.dispositions

/-- **What handlers come to**: events that fit, and no change of the shell's own. -/
structure Handling (s s' : Shell σ) (es : List Event) : Prop extends Stretch s s' es where
  own : ∀ e ∈ es, ¬ e.IsChange

section Stretches

variable {s s' s'' : Shell σ} {es : List Event}

theorem Stretch.refl (s : Shell σ) : Stretch s s [] := ⟨rfl, trivial, rfl⟩

theorem Handling.refl (s : Shell σ) : Handling s s [] :=
  ⟨Stretch.refl s, fun _ h => (List.not_mem_nil h).elim⟩

/-- The stretch goes on with one event. -/
theorem Stretch.cons (h : Stretch s s' es) {e : Event} (ht : s''.trace = e :: s'.trace)
    (hd : s''.dispositions = s'.dispositions) (hfit : e.Fits s.table es) :
    Stretch s s'' (e :: es) where
  trace := by rw [ht, h.trace, List.cons_append]
  fits := ⟨hfit, h.fits⟩
  dispositions := hd.trans h.dispositions

theorem Handling.cons (h : Handling s s' es) {e : Event} (ht : s''.trace = e :: s'.trace)
    (hd : s''.dispositions = s'.dispositions) (he : ¬ e.IsChange) (hfit : e.Fits s.table es) :
    Handling s s'' (e :: es) where
  toStretch := h.toStretch.cons ht hd hfit
  own d hmem := by
    rcases List.mem_cons.1 hmem with rfl | hmem
    · exact he
    · exact h.own d hmem

/-- The stretch goes on where the trace does not. -/
theorem Stretch.same (h : Stretch s s' es) (ht : s''.trace = s'.trace)
    (hd : s''.dispositions = s'.dispositions) : Stretch s s'' es :=
  ⟨ht.trans h.trace, h.fits, hd.trans h.dispositions⟩

theorem Handling.same (h : Handling s s' es) (ht : s''.trace = s'.trace)
    (hd : s''.dispositions = s'.dispositions) : Handling s s'' es :=
  ⟨h.toStretch.same ht hd, h.own⟩

end Stretches

/-- A stretch of handling has led from `s` to here, and left a table and events with `R`. -/
def Since (s : Shell σ) (R : JobTable → List Event → Prop) (s' : Shell σ) : Prop :=
  ∃ es, Handling s s' es ∧ R s'.table es

theorem Since.any {s s' : Shell σ} {R : JobTable → List Event → Prop} (h : Since s R s') :
    Since s (fun _ _ => True) s' := by
  obtain ⟨es, h, _⟩ := h
  exact ⟨es, h, trivial⟩

/-- The table is the one that the events make. -/
def Settled (s : Shell σ) : JobTable → List Event → Prop := fun t es => t = s.table.replay es

theorem since_settled_refl (s : Shell σ) : Since s (Settled s) s := ⟨[], Handling.refl s, rfl⟩

/-! ## 3. Properties that handlers leave alone -/

/-- A property of everything but the mask, and the mask. -/
def At (J : Shell σ → Prop) (m : Mask) (s : Shell σ) : Prop := J s ∧ s.mask = m

/-- A property that is not about the host and not about the mask. -/
structure Loose (J : Shell σ → Prop) : Prop where
  host : ∀ {s : Shell σ} {host : σ}, J s → J { s with host }
  mask : ∀ {s : Shell σ} {mask : Mask}, J s → J { s with mask }

/-- A property that talk leaves alone. -/
structure Calm (J : Shell σ → Prop) : Prop extends Loose J where
  talk : ∀ {s : Shell σ} {e : Event}, e.IsTalk → J s → J { s with trace := e :: s.trace }

/-- **A property that no handler touches but the one for `k`.** -/
structure Guarded (k : Nat) (J : Shell σ → Prop) : Prop extends Calm J where
  forwards : ∀ {s : Shell σ} {n : Nat} {pid : Int}, n ≠ k → J s →
    s.dispositions.of n = .handler .forward → s.table.foregroundPid? = some pid →
    J { s with trace := .sentGroup s.table pid n :: s.trace }
  handles : ∀ {s : Shell σ} {n : Nat}, n ≠ k → J s →
    J { s with trace := .handled s.table n :: s.trace }
  answered : ∀ {s : Shell σ} {r : Option ChildStatus}, Signal.child ≠ k → J s →
    J { s with trace := .ofAnswer r :: s.trace }
  observes : ∀ {s : Shell σ} {c : ChildStatus}, Signal.child ≠ k → J s →
    J { s with table := (s.table.observe c).1, trace := .used s.mask :: s.trace }
  collects : ∀ {s : Shell σ}, J s → s.dispositions.CollectsOnChild

/-- **A property that no quiet event touches.** -/
structure Steady (J : Shell σ → Prop) : Prop extends Loose J where
  quiet : ∀ {s : Shell σ} {e : Event}, e.IsQuiet → J s → J { s with trace := e :: s.trace }
  collects : ∀ {s : Shell σ}, J s → s.dispositions.CollectsOnChild

theorem Steady.calm {J : Shell σ → Prop} (hJ : Steady J) : Calm J where
  toLoose := hJ.toLoose
  talk he := hJ.quiet he.isQuiet

/-- Nothing touches what is steady but the handler for children. -/
theorem Steady.guarded {J : Shell σ → Prop} (hJ : Steady J) : Guarded Signal.child J where
  toCalm := hJ.calm
  forwards {s n pid} _ hj _ _ := hJ.quiet (e := .sentGroup s.table pid n) trivial hj
  handles {s n} hne := hJ.quiet (e := .handled s.table n) hne
  answered hne := absurd rfl hne
  observes hne := absurd rfl hne
  collects := hJ.collects

/-- What a stretch of handling leaves is steady if quiet events do not count. -/
theorem steady_since {s : Shell σ} (hd : s.dispositions.CollectsOnChild)
    {R : JobTable → List Event → Prop}
    (hR : ∀ {t e es}, e.IsQuiet → R t es → R t (e :: es)) : Steady (Since s R) where
  host := fun ⟨es, h, hr⟩ => ⟨es, h.same rfl rfl, hr⟩
  mask := fun ⟨es, h, hr⟩ => ⟨es, h.same rfl rfl, hr⟩
  quiet := fun he ⟨es, h, hr⟩ =>
    ⟨_, h.cons rfl rfl he.not_isChange (Event.fits_of_isQuiet he es), hR he hr⟩
  collects := fun ⟨_, h, _⟩ => h.dispositions.symm ▸ hd

section Rules

variable {α : Type} {J : Shell σ → Prop} {E : Shell σ → Prop} {m : Mask}

theorem Loose.setMask (hJ : Loose J) (m' : Mask) :
    Meets (At J m) (setMask m') (fun _ => At J m') E :=
  meets_modify fun _ h => ⟨hJ.mask h.1, rfl⟩

theorem Calm.record (hJ : Calm J) {e : Event} (he : e.IsTalk) :
    Meets (At J m) (record e) (fun _ => At J m) E :=
  meets_modify fun _ h => ⟨hJ.talk he h.1, h.2⟩

/-- While nothing but talk happens, the table and the arrangements stay what they are. -/
theorem Calm.with (hJ : Calm J) (F : JobTable → Dispositions → Prop) :
    Calm fun s => J s ∧ F s.table s.dispositions where
  host h := ⟨hJ.host h.1, h.2⟩
  mask h := ⟨hJ.mask h.1, h.2⟩
  talk he h := ⟨hJ.talk he h.1, h.2⟩

theorem Calm.jobs (hJ : Calm J) :
    Meets (At J m) jobs (fun t => At (fun s => J s ∧ s.table = t) m) E :=
  meets_of_on on_jobs fun s h => ⟨⟨hJ.talk (e := .used s.mask) trivial h.1, rfl⟩, h.2⟩

variable [Host σ]

theorem Calm.say (hJ : Calm J) (text : String) :
    Meets (At J m) (say text) (fun _ => At J m) E :=
  meets_of_on (on_say text) fun _ h =>
    ⟨hJ.talk (e := .wrote (line text)) trivial (hJ.host h.1), h.2⟩

theorem Calm.write (hJ : Calm J) (bs : List UInt8) :
    Meets (At J m) (write bs) (fun _ => At J m) E := by
  unfold Shell.write
  refine meets_get_bind fun s hs => ?_
  refine Meets.bind (Q := fun _ => At J m) (meets_set fun _ _ => ⟨hJ.host hs.1, hs.2⟩) fun _ => ?_
  exact (hJ.record (e := .wrote bs) trivial).bind fun _ => meets_pure fun _ h => h

theorem Calm.note (hJ : Calm J) (level : Level) (target message : String)
    (fields : List (String × String)) :
    Meets (At J m) (note level target message fields) (fun _ => At J m) E := by
  unfold Shell.note
  refine meets_get_bind fun s hs => ?_
  split
  · refine Meets.bind (Q := fun _ => At J m) (meets_set fun _ _ => ⟨hJ.host hs.1, hs.2⟩) fun _ => ?_
    exact hJ.record trivial
  · exact meets_pure fun _ e => e ▸ hs

theorem Calm.send (hJ : Calm J) (pid : Int) (signal : Nat) :
    Meets (At J m) (send pid signal) (fun _ => At J m) E := by
  unfold Shell.send
  refine Meets.bind (Q := fun _ => At J m) (meets_modify fun _ h => ⟨hJ.host h.1, h.2⟩) fun _ => ?_
  exact hJ.record trivial

theorem Steady.sendGroup (hJ : Steady J) (pid : Int) (signal : Nat) :
    Meets (At J m) (sendGroup pid signal) (fun _ => At J m) E :=
  meets_of_on (on_sendGroup pid signal) fun s h =>
    ⟨hJ.quiet (e := .sentGroup s.table pid signal) trivial (hJ.host h.1), h.2⟩

omit [Host σ] in
/-- **A critical section**: what its body brings about from inside the block is there afterwards,
if taking the signals that had to wait leaves it alone. -/
theorem meets_locked {K : α → Shell σ → Prop} {pause : Act σ Unit} {body : Block → Act σ α}
    (hJ : Loose J) (hK : ∀ x, Loose (K x))
    (hbody : Meets (At J m.withAll) (body ⟨m⟩) (fun x => At (K x) m.withAll) E)
    (hpause : ∀ x, Meets (At (K x) m) pause (fun _ => At (K x) m) E) :
    Meets (At J m) (locked pause body) (fun x => At (K x) m) E := by
  unfold locked
  refine Meets.bind (Q := fun b s => b = ⟨m⟩ ∧ At J m.withAll s) ?_ fun b => ?_
  · refine meets_of_on on_openBlock fun s h => ?_
    obtain ⟨hj, rfl⟩ := h
    exact ⟨rfl, hJ.mask hj, rfl⟩
  · refine Meets.pointwise fun s h => ?_
    obtain ⟨rfl, h⟩ := h
    refine (hbody.bind fun x => ?_).pre fun _ e => e ▸ h
    refine ((hK x).setMask m).bind fun _ => ?_
    exact (hpause x).bind fun _ => meets_pure fun _ h => h

end Rules

/-! ## 4. Parts of handlers -/

section Parts

variable [Host σ] {k : Nat} {J K E : Shell σ → Prop} {m : Mask} {pause : Act σ Unit}

omit [Host σ] in
/-- **After a critical section whose body comes to its end**, only the signals that had to wait are
left to take. -/
theorem on_locked_of_ok {α : Type} {body : Block → Act σ α} {s s' : Shell σ} {x : α}
    (hbody : (body ⟨s.mask⟩).on { s with mask := s.mask.withAll } = (.ok x, s')) :
    (locked pause body).on s = (pause >>= fun _ => pure x).on { s' with mask := s.mask } := by
  rw [locked, on_bind, on_openBlock]
  show (body ⟨s.mask⟩ >>= fun r => _).on { s with mask := s.mask.withAll } = _
  rw [on_bind, hbody]
  show (setMask s.mask >>= fun _ => pause >>= fun _ => pure x).on s' = _
  rw [on_bind, on_setMask]

/-- Where no signal is due, none is taken. -/
theorem on_deliver_of_due {s : Shell σ} (hdue : due s = []) (depth : Nat) :
    (deliver depth).on s = (.ok (), s) := by
  cases depth with
  | zero =>
    rw [deliver, on_bind, on_get]
    simp [hdue]
  | succ n =>
    rw [deliver, on_bind, on_get]
    simp only [hdue, List.foldl_nil]
    rfl

/-- **The table is brought up to date without a word**, where there is no line about a change. -/
theorem on_observe_of_none {s : Shell σ} {c : ChildStatus} (h : (s.table.observe c).2 = none) :
    (observe c).on s = (.ok (), { s with
      table := (s.table.observe c).1
      trace := .used s.mask :: .used s.mask :: s.trace }) := by
  rw [observe, on_jobs_bind]
  simp only [h]
  rfl

/-- **The line about a change is written** between the two looks at the table, if there is one. -/
theorem on_observe_of_some {s : Shell σ} {c : ChildStatus} {text : String}
    (h : (s.table.observe c).2 = some text) :
    (observe c).on s = (.ok (), { s with
      host := (Host.write s.host (line text)).1
      table := (s.table.observe c).1
      trace := .used s.mask :: .wrote (line text) :: .used s.mask :: s.trace }) := by
  rw [observe, on_jobs_bind]
  simp only [h]
  rfl

/-- Bringing the table up to date comes down to the change of the table. -/
theorem Calm.observe (hJ : Calm J) (c : ChildStatus)
    (hset : ∀ t : JobTable, Meets (At (fun s => J s ∧ s.table = t) m) (setJobs (t.observe c).1)
      (fun _ => At K m) E) :
    Meets (At J m) (observe c) (fun _ => At K m) E := by
  unfold Shell.observe
  refine hJ.jobs.bind fun t => ?_
  cases hl : (t.observe c).2 with
  | none =>
    simp only [hl]
    exact hset t
  | some text =>
    simp only [hl]
    exact ((hJ.with fun t' _ => t' = t).say text).bind fun _ => hset t

/-- What is done about children is the loop that collects. -/
theorem react_child_meets (hJ : ∀ s, J s → s.dispositions.CollectsOnChild)
    {Q : Unit → Shell σ → Prop} (hloop : ∀ bound, Meets (At J m) (collectAll pause bound) Q E) :
    Meets (At J m) (react pause Signal.child) Q E := by
  unfold react
  refine meets_get_bind fun s hs => ?_
  have hof : s.dispositions.of Signal.child = .handler .collect :=
    (hJ s hs.1 Signal.child).2 rfl
  rw [hof]
  refine meets_get_bind fun s' e => ?_
  exact (hloop s'.patience).pre fun _ e' => e' ▸ e ▸ hs

/-- **The loop that collects**, in terms of what holds before a question for a change (`J`), after
the answer to it (`A`), and at the end (`K`). -/
theorem collectAll_rule {A : Option ChildStatus → Shell σ → Prop} (hJ : Loose J)
    (hA : ∀ c, Loose (A (some c))) (hJE : ∀ s, J s → E s)
    (hpause : Meets (At J m) pause (fun _ => At J m) E)
    (hwait : ∀ c, Meets (At (A (some c)) m) pause (fun _ => At (A (some c)) m) E)
    (hcollect : Meets (At J m) collect (fun r => At (A r) m) E)
    (hobserve : ∀ c, c.isNamed = true →
      Meets (At (A (some c)) m.withAll) (Shell.observe c) (fun _ => At J m.withAll) E)
    (hnone : ∀ s, A none s → K s) (hcut : ∀ c s, c.isNamed = false → A (some c) s → K s)
    (bound : Nat) : Meets (At J m) (collectAll pause bound) (fun _ => At K m) E := by
  induction bound with
  | zero => exact meets_throw rfl fun s h => hJE s h.1
  | succ n ih =>
    unfold collectAll
    refine hcollect.bind fun r => ?_
    cases r with
    | none => exact meets_pure fun s h => ⟨hnone s h.1, h.2⟩
    | some c =>
      refine (hwait c).bind fun _ => ?_
      cases hc : c.isNamed with
      | false => exact meets_pure fun s h => ⟨hcut c s hc h.1, h.2⟩
      | true =>
        refine Meets.bind ?_ fun _ => ih
        exact meets_locked (hA c) (fun _ => hJ) (hobserve c hc) fun _ => hpause

/-- Collecting touches nothing guarded, unless it is what may touch it. -/
theorem Guarded.collectAll (hJ : Guarded k J) (hk : Signal.child ≠ k) (hE : ∀ s, J s → E s)
    (hpause : Meets (At J m) pause (fun _ => At J m) E) (bound : Nat) :
    Meets (At J m) (collectAll pause bound) (fun _ => At J m) E := by
  refine collectAll_rule (A := fun _ => J) hJ.toLoose (fun _ => hJ.toLoose) hE hpause
    (fun _ => hpause) ?_ (fun c _ => ?_) (fun _ h => h) (fun _ _ _ h => h) bound
  · exact meets_of_on on_collect fun s h => ⟨hJ.answered hk (hJ.host h.1), h.2⟩
  · refine hJ.toCalm.observe c fun t => meets_of_on (on_setJobs (t.observe c).1) fun s h => ?_
    obtain ⟨⟨hj, rfl⟩, hm⟩ := h
    exact ⟨hJ.observes hk hj, hm⟩

/-- **A signal is passed on**, in terms of what holds before (`J`) and after (`K`): it is sent to
the process in the foreground, if there is one. -/
theorem forward_rule (hJ : Calm J) (hK : Loose K) (signal : Nat)
    (hnone : ∀ s, J s → s.table.foregroundPid? = none → K s)
    (hsent : ∀ s pid, J s → s.table.foregroundPid? = some pid →
      K { s with trace := .sentGroup s.table pid signal :: s.trace })
    (hpause : Meets (At K m) pause (fun _ => At K m) E) :
    Meets (At J m) (forward pause signal) (fun _ => At K m) E := by
  unfold Shell.forward
  refine meets_locked hJ.toLoose (fun _ => hK) ?_ fun _ => hpause
  refine hJ.jobs.bind fun t => ?_
  cases hfg : t.foregroundPid? with
  | none =>
    refine meets_pure fun s h => ?_
    obtain ⟨⟨hj, rfl⟩, hm⟩ := h
    exact ⟨hnone s hj hfg, hm⟩
  | some pid =>
    refine Meets.bind (Q := fun _ => At K m.withAll) ?_ fun _ => meets_pure fun _ h => h
    refine meets_of_on (on_sendGroup pid signal) fun s h => ?_
    obtain ⟨⟨hj, rfl⟩, hm⟩ := h
    exact ⟨hsent _ pid (hJ.host hj) hfg, hm⟩

theorem Guarded.forward (hJ : Guarded k J) (hpause : Meets (At J m) pause (fun _ => At J m) E)
    {signal : Nat} (hsignal : signal ≠ k) :
    Meets (At (fun s => J s ∧ s.dispositions.of signal = .handler .forward) m)
      (forward pause signal) (fun _ => At J m) E := by
  have arranged : Calm fun s => J s ∧ s.dispositions.of signal = .handler .forward :=
    hJ.toCalm.with fun _ d => d.of signal = .handler .forward
  exact forward_rule arranged hJ.toLoose signal (fun _ h _ => h.1)
    (fun _ _ h hfg => hJ.forwards hsignal h.1 h.2 hfg) hpause

/-- **A handler other than the one for `k` touches nothing guarded.** -/
theorem Guarded.handle (hJ : Guarded k J) (hE : ∀ s, J s → E s)
    (hpause : Meets (At J m) pause (fun _ => At J m) E) {signal : Nat} (hne : signal ≠ k) :
    Meets (At J m) (handle pause signal) (fun _ => At J m) E := by
  unfold Shell.handle
  refine Meets.bind (Q := fun _ => At J m) ?_ fun _ => ?_
  · unfold react
    refine meets_get_bind fun s hs => ?_
    have here : ∀ s', s' = s → At J m s' := fun _ e => e ▸ hs
    cases hof : s.dispositions.of signal with
    | default =>
      dsimp only
      split
      · exact meets_throw rfl fun s' e => hE s' (here s' e).1
      · exact meets_pure here
    | ignore => exact meets_pure here
    | handler h =>
      cases h with
      | collect =>
        have hchild : signal = Signal.child := (hJ.collects hs.1 signal).1 hof
        refine meets_get_bind fun s' e => ?_
        exact (hJ.collectAll (hchild ▸ hne) hE hpause s'.patience).pre fun _ e' => e' ▸ here s' e
      | forward => exact (hJ.forward hpause hne).pre fun _ e => e ▸ ⟨⟨hs.1, hof⟩, hs.2⟩
      | leave =>
        refine Meets.bind ((hJ.say farewell).pre here) fun _ => ?_
        exact meets_throw rfl fun s' h => hE s' h.1
      | trap command => exact meets_pure here
      | react action => exact meets_pure here
  · refine meets_get_bind fun s hs => meets_modify fun s' e => ?_
    subst e
    exact ⟨hJ.handles hne hs.1, hs.2⟩

end Parts

/-! ## 5. Taking signals -/

section Deliver

variable [Host σ] {k : Nat} {J E : Shell σ → Prop} {pause : Act σ Unit}

/-- While a signal is blocked, a pause touches nothing that its handler alone could touch. -/
def Undisturbed (E : Shell σ → Prop) (pause : Act σ Unit) : Prop :=
  ∀ k J, Guarded k J → (∀ s, J s → E s) → ∀ m : Mask, m.blocks k = true →
    Meets (At J m) pause (fun _ => At J m) E

/-- A property outlives the handler for `k`. -/
def Outlives (k : Nat) (J E : Shell σ → Prop) : Prop :=
  ∀ pause, Undisturbed E pause → ∀ m : Mask, m.blocks k = true →
    Meets (At J m) (handle pause k) (fun _ => At J m) E

/-- Whatever is guarded outlives the taking of signals, if it outlives the one handler that could
touch it wherever that may run. -/
def Takes (E : Shell σ → Prop) (pause : Act σ Unit) : Prop :=
  ∀ k J, Guarded k J → (∀ s, J s → E s) → ∀ m : Mask, m.blocks k = true ∨ Outlives k J E →
    Meets (At J m) pause (fun _ => At J m) E

theorem Takes.undisturbed (hp : Takes E pause) : Undisturbed E pause :=
  fun k J hJ hE m hm => hp k J hJ hE m (Or.inl hm)

theorem Takes.handleAll (hp : Takes E pause) (hJ : Guarded k J) (hE : ∀ s, J s → E s) :
    ∀ (signals : List Nat) (m : Mask), m.blocks k = true ∨ Outlives k J E →
      (∀ n ∈ signals, n = k → Outlives k J E) →
      Meets (At J m) (handleAll pause signals) (fun _ => At J m) E := by
  intro signals
  induction signals with
  | nil => exact fun m _ _ => meets_pure fun _ h => h
  | cons signal rest ih =>
    intro m hm hsig
    have hm' : (m.withSignal signal).blocks k = true ∨ Outlives k J E := by
      refine hm.imp_left fun h => ?_
      show (m.blocks k || _) = true
      rw [h, Bool.true_or]
    unfold Shell.handleAll
    refine meets_get_bind fun s hs => ?_
    obtain ⟨hj, rfl⟩ := hs
    have here : At J s.mask s := ⟨hj, rfl⟩
    refine Meets.pre (P := At J s.mask) ?_ fun _ e => e ▸ here
    refine (hJ.setMask (s.mask.withSignal signal)).bind fun _ => ?_
    refine (ih _ hm' fun n hn => hsig n (List.mem_cons_of_mem signal hn)).bind fun _ => ?_
    refine Meets.bind (Q := fun _ => At J (s.mask.withSignal signal)) ?_ fun _ =>
      (hJ.setMask s.mask).bind fun _ => hp k J hJ hE s.mask hm
    by_cases hk : signal = k
    · subst hk
      have hblocks : (s.mask.withSignal signal).blocks signal = true := by
        show (_ || signal == signal) = true
        rw [beq_self_eq_true, Bool.or_true]
      exact hsig signal List.mem_cons_self rfl pause hp.undisturbed _ hblocks
    · exact hJ.handle hE (hp k J hJ hE _ hm') hk

/-- **Whatever is guarded outlives the taking of signals**, if it outlives the one handler that
could touch it or the signal for that is blocked. The induction is on the depth; it needs all
properties at once, because inside that handler another one is at stake. -/
theorem deliver_meets (E : Shell σ → Prop) (depth : Nat) : Takes E (deliver depth) := by
  induction depth with
  | zero =>
    intro k J _ hE m _
    unfold deliver
    refine meets_get_bind fun s hs => ?_
    split
    · exact meets_pure fun _ e => e ▸ hs
    · exact meets_throw rfl fun _ e => hE _ (e ▸ hs.1)
  | succ n ih =>
    intro k J hJ hE m hm
    unfold deliver
    refine meets_get_bind fun s hs => ?_
    obtain ⟨hj, rfl⟩ := hs
    refine Meets.bind (Q := fun _ => At J s.mask) ?_ fun _ => ?_
    · exact meets_set fun _ _ => ⟨hJ.host hj, rfl⟩
    refine ih.handleAll hJ hE (due s) s.mask hm fun n hn hk => ?_
    -- A signal that is due is not blocked.
    have hdue : (!s.mask.blocks n) = true := (List.mem_filter.1 hn).2
    rcases hm with hm | hm
    · rw [hk, hm] at hdue
      cases hdue
    · exact hm

end Deliver

/-! ## 6. The handler for children -/

/-- The table is up to date, and the collecting came to its end. -/
def Told (s : Shell σ) : JobTable → List Event → Prop :=
  fun t es => Settled s t es ∧ Exhausted es

/-- A change was collected that the table has to go through to be up to date. -/
def Awaiting (s : Shell σ) (c : ChildStatus) : JobTable → List Event → Prop :=
  fun t es => Settled s (t.observe c).1 es

/-- How the table stands after an answer to the question for a change. -/
def Answered (s : Shell σ) : Option ChildStatus → JobTable → List Event → Prop
  | some c => if c.isNamed then Awaiting s c else Told s
  | none => Told s

theorem answered_of_isNamed (s : Shell σ) {c : ChildStatus} (hc : c.isNamed = true) :
    Answered s (some c) = Awaiting s c := if_pos hc

theorem answered_of_not_isNamed (s : Shell σ) {c : ChildStatus} (hc : c.isNamed = false) :
    Answered s (some c) = Told s := if_neg (ne_true_of_eq_false hc)

section Quiet

variable {s : Shell σ} {t : JobTable} {e : Event} {es : List Event}

theorem Settled.cons_quiet (he : e.IsQuiet) (h : Settled s t es) : Settled s t (e :: es) :=
  h.trans (s.table.replay_cons_of_isQuiet he es).symm

theorem Told.cons_quiet (he : e.IsQuiet) (h : Told s t es) : Told s t (e :: es) :=
  ⟨h.1.cons_quiet he, h.2.cons_quiet he⟩

theorem Answered.cons_quiet {r : Option ChildStatus} (he : e.IsQuiet) (h : Answered s r t es) :
    Answered s r t (e :: es) := by
  cases r with
  | none => exact Told.cons_quiet he h
  | some c =>
    cases hc : c.isNamed with
    | false =>
      rw [answered_of_not_isNamed s hc] at h ⊢
      exact h.cons_quiet he
    | true =>
      rw [answered_of_isNamed s hc] at h ⊢
      exact Settled.cons_quiet he h

end Quiet

section Collect

variable [Host σ] {s₀ : Shell σ} {E : Shell σ → Prop} {m : Mask} {pause : Act σ Unit}

/-- **A change that is asked for is known from then on.** -/
theorem collect_meets :
    Meets (At (Since s₀ (Settled s₀)) m) collect (fun r => At (Since s₀ (Answered s₀ r)) m) E := by
  refine meets_of_on on_collect fun s hs => ?_
  obtain ⟨⟨es, h, ht⟩, hm⟩ := hs
  refine ⟨?_, hm⟩
  have ht' : s.table = s₀.table.replay es := ht
  cases (Host.collect s.host).2 with
  | none => exact ⟨_, h.cons rfl rfl id trivial, ht, Or.inl rfl⟩
  | some c =>
    refine ⟨_, h.cons rfl rfl id trivial, ?_⟩
    cases hc : c.isNamed with
    | false =>
      rw [answered_of_not_isNamed s₀ hc]
      refine ⟨?_, Or.inr ⟨c, rfl, hc⟩⟩
      show s.table = _
      rw [Event.ofAnswer, JobTable.replay_cons_of_not_isNamed s₀.table hc es, ht']
    | true =>
      rw [answered_of_isNamed s₀ hc]
      show (s.table.observe c).1 = _
      rw [Event.ofAnswer, JobTable.replay_cons_of_isNamed s₀.table hc es, ht']

/-- **A change that was collected reaches the table.** -/
theorem observe_meets (hd : s₀.dispositions.CollectsOnChild) (c : ChildStatus) :
    Meets (At (Since s₀ (Awaiting s₀ c)) m) (observe c) (fun _ => At (Since s₀ (Settled s₀)) m)
      E := by
  have awaiting : Steady (Since s₀ (Awaiting s₀ c)) := steady_since hd Settled.cons_quiet
  refine awaiting.calm.observe c fun t => ?_
  refine meets_of_on (on_setJobs (t.observe c).1) fun s hs => ?_
  obtain ⟨⟨⟨es, h, ht⟩, rfl⟩, hm⟩ := hs
  exact ⟨⟨_, h.cons rfl rfl id trivial, Settled.cons_quiet (e := .used s.mask) trivial ht⟩, hm⟩

/-- **The loop of the handler for children**: all that was collected and can be told has reached the
table, and nothing is left, or a death that cannot be told was the last thing. -/
theorem collectAll_meets (hd : s₀.dispositions.CollectsOnChild)
    (hp : Undisturbed (Since s₀ fun _ _ => True) pause) (hm : m.blocks Signal.child = true)
    (bound : Nat) :
    Meets (At (Since s₀ (Settled s₀)) m) (collectAll pause bound)
      (fun _ => At (Since s₀ (Told s₀)) m) (Since s₀ fun _ _ => True) := by
  have settled : Steady (Since s₀ (Settled s₀)) := steady_since hd Settled.cons_quiet
  have answered : ∀ c, Steady (Since s₀ (Answered s₀ (some c))) :=
    fun c => steady_since hd Answered.cons_quiet
  refine collectAll_rule settled.toLoose (fun c => (answered c).toLoose) (fun _ => Since.any)
    (hp _ _ settled.guarded (fun _ => Since.any) m hm)
    (fun c => hp _ _ (answered c).guarded (fun _ => Since.any) m hm) collect_meets
    (fun c hc => ?_) (fun s h => h) (fun c s hc h => ?_) bound
  · rw [answered_of_isNamed s₀ hc]
    exact observe_meets hd c
  · rwa [answered_of_not_isNamed s₀ hc] at h

/-- **A table that is up to date is so after the handler for children.** -/
theorem outlives_settled (hd : s₀.dispositions.CollectsOnChild) :
    Outlives Signal.child (Since s₀ (Settled s₀)) (Since s₀ fun _ _ => True) := by
  intro pause hp m hm
  have settled : Steady (Since s₀ (Settled s₀)) := steady_since hd Settled.cons_quiet
  unfold handle
  refine Meets.bind
    (react_child_meets (fun _ => settled.collects) (collectAll_meets hd hp hm)) fun _ => ?_
  refine meets_get_bind fun s hs => ?_
  refine meets_modify fun s' e => ?_
  subst e
  obtain ⟨⟨es, h, ht, hex⟩, hmask⟩ := hs
  exact ⟨⟨_, h.cons rfl rfl id fun _ => ⟨ht, hex⟩, ht⟩, hmask⟩

end Collect

/-! ## 7. The whole of it -/

/-- Whatever happens in the act, the table follows the events, and the mask is afterwards what it
was. -/
def Follows [Host σ] (a : Act σ Unit) : Prop :=
  ∀ s : Shell σ, s.dispositions.CollectsOnChild → ∀ m : Mask,
    Meets (At (Since s (Settled s)) m) a (fun _ => At (Since s (Settled s)) m)
      (Since s fun _ _ => True)

section Whole

variable [Host σ]

/-- **Signals that are taken.** Which they are, their order and their nesting do not matter, nor
does the host. -/
theorem follows_deliver (depth : Nat) : Follows (deliver (σ := σ) depth) := by
  intro s hd m
  have settled : Steady (Since s (Settled s)) := steady_since hd Settled.cons_quiet
  exact deliver_meets (Since s fun _ _ => True) depth Signal.child (Since s (Settled s))
    settled.guarded (fun _ => Since.any) m (Or.inr (outlives_settled hd))

theorem follows_interruptible : Follows (interruptible (σ := σ)) := by
  intro s hd m
  unfold interruptible
  refine meets_get_bind fun s' hs => ?_
  exact (follows_deliver s'.patience s hd m).pre fun _ e => e ▸ hs

/-- **Sleeping.** The table that the shell sleeps with is up to date. -/
theorem follows_suspend (b : Block) : Follows (suspend (σ := σ) b) := by
  intro s hd m
  have settled : Steady (Since s (Settled s)) := steady_since hd Settled.cons_quiet
  unfold suspend
  refine meets_get_bind fun s' hs => ?_
  have here : ∀ s₁, s₁ = s' → At (Since s (Settled s)) m s₁ := fun _ e => e ▸ hs
  have restored : s'.mask = m := hs.2
  refine ((settled.setMask b.before).pre here).bind fun _ => ?_
  refine Meets.bind (Q := fun _ => At (Since s (Settled s)) b.before) ?_ fun _ => ?_
  · exact meets_modify fun _ h => ⟨settled.host h.1, h.2⟩
  · refine meets_get_bind fun s₁ hs₁ => ?_
    refine Meets.bind (Q := fun _ => At (Since s (Settled s)) b.before) ?_ fun _ => ?_
    · refine meets_modify fun s₂ e => ?_
      subst e
      obtain ⟨⟨es, h, ht⟩, hm⟩ := hs₁
      exact ⟨⟨_, h.cons rfl rfl id ht, ht⟩, hm⟩
    · refine (follows_interruptible s hd b.before).bind fun _ => ?_
      exact restored ▸ settled.setMask s'.mask

end Whole

end Shell

end JobShell
