import JobShell.Shell

/-!
# Reasoning about what a shell does

* `Act.Meets P a Q E` says what comes of doing `a` where `P` holds: it comes to an end with `Q`, or
  it ends the shell with `E`. It does not fail; of an act that can, the same is said of what
  `attempt` makes of it.
* `Meets.bind` puts acts together; `Meets.mono`, `Meets.pointwise` and the rules for `pure`, `throw`,
  `get` and `modify` are the rest of what the proofs about the shell are made of.
* `Meets.attempt` and `Meets.attempt_bind` are the rules for acts that can fail.
-/

namespace JobShell

namespace Act

variable {σ α β : Type} {P P' : Shell σ → Prop} {Q Q' : α → Shell σ → Prop}
  {R : β → Shell σ → Prop} {E E' : Shell σ → Prop} {a : Act σ α}

/-- **Where `P` holds, the act comes to an end with `Q`, or ends the shell with `E`.** -/
def Meets (P : Shell σ → Prop) (a : Act σ α) (Q : α → Shell σ → Prop) (E : Shell σ → Prop) : Prop :=
  ∀ s, P s → match a.on s with
    | (.ok x, s') => Q x s'
    | (.error e, s') => e.isFinal = true ∧ E s'

/-! ## 1. What an outcome tells -/

theorem Meets.of_ok (h : Meets P a Q E) {s s' : Shell σ} {x : α} (hs : P s)
    (hon : a.on s = (.ok x, s')) : Q x s' := by
  have h' := h s hs
  rwa [hon] at h'

theorem Meets.of_error (h : Meets P a Q E) {s s' : Shell σ} {e : Ending} (hs : P s)
    (hon : a.on s = (.error e, s')) : e.isFinal = true ∧ E s' := by
  have h' := h s hs
  rwa [hon] at h'

/-- What holds either way holds afterwards. -/
theorem Meets.after {K : Shell σ → Prop} (h : Meets P a (fun _ => K) K) {s : Shell σ} (hs : P s) :
    K (a.on s).2 := by
  cases hon : a.on s with
  | mk r s' =>
    cases r with
    | ok x => exact h.of_ok hs hon
    | error e => exact (h.of_error hs hon).2

/-- An act that cannot end the shell comes to an end. -/
theorem Meets.exists_ok (h : Meets P a Q fun _ => False) {s : Shell σ} (hs : P s) :
    ∃ x s', a.on s = (.ok x, s') ∧ Q x s' := by
  cases hon : a.on s with
  | mk r s' =>
    cases r with
    | ok x => exact ⟨x, s', rfl, h.of_ok hs hon⟩
    | error e => exact (h.of_error hs hon).2.elim

/-- An act whose outcome is known. -/
theorem meets_of_on {x : Shell σ → α} {t : Shell σ → Shell σ} (hon : ∀ s, a.on s = (.ok (x s), t s))
    (h : ∀ s, P s → Q (x s) (t s)) : Meets P a Q E := by
  intro s hs
  rw [hon s]
  exact h s hs

/-! ## 2. Rules -/

/-- **Acts one after the other.** -/
theorem Meets.bind {f : α → Act σ β} (ha : Meets P a Q E) (hf : ∀ x, Meets (Q x) (f x) R E) :
    Meets P (a >>= f) R E := by
  intro s hs
  rw [on_bind]
  cases hon : a.on s with
  | mk r s' =>
    cases r with
    | ok x => exact hf x s' (ha.of_ok hs hon)
    | error e => exact ha.of_error hs hon

/-- Less is asked, more is known. -/
theorem Meets.mono (h : Meets P a Q E) (hp : ∀ s, P' s → P s) (hq : ∀ x s, Q x s → Q' x s)
    (he : ∀ s, E s → E' s) : Meets P' a Q' E' := by
  intro s hs
  cases hon : a.on s with
  | mk r s' =>
    cases r with
    | ok x => exact hq x s' (h.of_ok (hp s hs) hon)
    | error e =>
      obtain ⟨hfinal, hend⟩ := h.of_error (hp s hs) hon
      exact ⟨hfinal, he s' hend⟩

theorem Meets.pre (h : Meets P a Q E) (hp : ∀ s, P' s → P s) : Meets P' a Q E :=
  h.mono hp (fun _ _ h => h) fun _ h => h

theorem Meets.post (h : Meets P a Q E) (hq : ∀ x s, Q x s → Q' x s) : Meets P a Q' E :=
  h.mono (fun _ h => h) hq fun _ h => h

/-- The state may be looked at as it is. -/
theorem Meets.pointwise (h : ∀ s, P s → Meets (· = s) a Q E) : Meets P a Q E :=
  fun s hs => h s hs s rfl

theorem meets_pure {x : α} (h : ∀ s, P s → Q x s) : Meets P (pure x) Q E := fun s hs => h s hs

theorem meets_throw {e : Ending} (he : e.isFinal = true) (h : ∀ s, P s → E s) :
    Meets P (throw e) Q E := fun s hs => ⟨he, h s hs⟩

/-- Reading the state tells what is known of it. -/
theorem meets_get_bind {f : Shell σ → Act σ β}
    (h : ∀ s, P s → Meets (· = s) (f s) R E) : Meets P (get >>= f) R E := by
  intro s hs
  rw [on_bind, on_get]
  exact h s hs s rfl

theorem meets_modify {f : Shell σ → Shell σ} {Q : PUnit → Shell σ → Prop}
    (h : ∀ s, P s → Q ⟨⟩ (f s)) : Meets P (modify f : Act σ PUnit) Q E :=
  fun s hs => h s hs

theorem meets_set {s' : Shell σ} {Q : PUnit → Shell σ → Prop} (h : ∀ s, P s → Q ⟨⟩ s') :
    Meets P (set s' : Act σ PUnit) Q E :=
  fun s hs => h s hs

/-! ## 3. Failures -/

section Failures

variable {f : α → Act σ β} {s s' : Shell σ}

theorem attempt_on_of_ok {x : α} (hon : a.on s = (.ok x, s')) :
    a.attempt.on s = (.ok (.ok x), s') := by
  rw [on_attempt, hon]

theorem attempt_on_of_failed {r : Reason} (hon : a.on s = (.error (.failed r), s')) :
    a.attempt.on s = (.ok (.error r), s') := by
  rw [on_attempt, hon]

/-- What is the end of the shell cannot be attempted. -/
theorem attempt_on_of_final {e : Ending} (hon : a.on s = (.error e, s'))
    (hfinal : e.isFinal = true) : a.attempt.on s = (.error e, s') := by
  rw [on_attempt, hon]
  cases e with
  | failed r => cases hfinal
  | exited code => rfl
  | killed signal => rfl
  | waits => rfl

/-- The shell afterwards is the same. -/
theorem attempt_on_snd (a : Act σ α) (s : Shell σ) : (a.attempt.on s).2 = (a.on s).2 := by
  rw [on_attempt]
  rcases a.on s with ⟨e | x, s'⟩
  · cases e <;> rfl
  · rfl

theorem attempt_bind_on {x : α} (hon : a.on s = (.ok x, s')) :
    (a >>= f).attempt.on s = (f x).attempt.on s' := by
  rw [on_attempt, on_attempt, on_bind, hon]

/-- An act that does not fail gives its result. -/
theorem Meets.attempt {Q : Except Reason α → Shell σ → Prop}
    (h : Meets P a (fun x => Q (.ok x)) E) : Meets P a.attempt Q E := by
  intro s hs
  cases hon : a.on s with
  | mk r s' =>
    cases r with
    | ok x =>
      rw [on_attempt, hon]
      exact h.of_ok hs hon
    | error e =>
      have hend := h.of_error hs hon
      rw [attempt_on_of_final hon hend.1]
      exact hend

/-- **Only the last of several acts can fail** where the others are known to be met. -/
theorem Meets.attempt_bind {R : Except Reason β → Shell σ → Prop} (ha : Meets P a Q E)
    (hf : ∀ x, Meets (Q x) (f x).attempt R E) : Meets P (a >>= f).attempt R E := by
  intro s hs
  cases hon : a.on s with
  | mk r s' =>
    cases r with
    | ok x =>
      rw [attempt_bind_on hon]
      exact hf x s' (ha.of_ok hs hon)
    | error e =>
      have hend := ha.of_error hs hon
      have hbind : (a >>= f).on s = (.error e, s') := by rw [on_bind, hon]
      rw [attempt_on_of_final hbind hend.1]
      exact hend

theorem meets_attempt_failed {R : Except Reason α → Shell σ → Prop} {r : Reason}
    (h : ∀ s, P s → R (.error r) s) : Meets P (throw (.failed r) : Act σ α).attempt R E := by
  intro s hs
  rw [on_attempt]
  exact h s hs

end Failures

end Act

/-! ## 4. Acts whose outcome is known -/

namespace Shell

open Act

variable {σ α : Type}

/-- The shell after one more look at the table. -/
def looked (s : Shell σ) : Shell σ := { s with trace := .used s.mask :: s.trace }

variable {s : Shell σ} {pid : Int} {state : JobState} {cmdline : String} {id : Nat} {t : JobTable}

theorem on_jobs_bind (f : JobTable → Act σ α) (s : Shell σ) :
    (jobs >>= f).on s = (f s.table).on (looked s) := by
  rw [on_bind, on_jobs]
  rfl

theorem on_enter_of_ok (h : s.table.add pid state cmdline = .ok (id, t)) :
    (enter pid state cmdline).on s = (.ok (.ok id), { looked (looked s) with
      table := t
      trace := .changed (.add pid state cmdline) :: (looked (looked s)).trace }) := by
  rw [enter, on_jobs_bind, h]
  rfl

theorem on_enter_of_error {e : AddError} (h : s.table.add pid state cmdline = .error e) :
    (enter pid state cmdline).on s = (.ok (.error e), { looked s with
      trace := .refused pid e :: (looked s).trace }) := by
  rw [enter, on_jobs_bind, h]
  rfl

theorem on_restate_of_some (h : s.table.setState id state = some t) :
    (restate id state).on s = (.ok true, { looked (looked s) with
      table := t
      trace := .changed (.setState id state) :: (looked (looked s)).trace }) := by
  rw [restate, on_jobs_bind, h]
  rfl

theorem on_restate_of_none (h : s.table.setState id state = none) :
    (restate id state).on s = (.ok false, { looked s with
      trace := .kept id state :: (looked s).trace }) := by
  rw [restate, on_jobs_bind, h]
  rfl

/-- What a child starts with that is started from here. -/
def launching (s : Shell σ) (b : Block) (c : Command) : Launch :=
  { command := c, block := b, dispositions := s.dispositions, foreground := s.table.foregroundPid? }

/-- Whether a child could be started shows in the trace. -/
theorem on_fork [Host σ] (b : Block) (c : Command) (s : Shell σ) :
    (fork b c).on s =
      (.ok (Host.fork s.host (s.launching b c)).2, { s with
        host := (Host.fork s.host (s.launching b c)).1
        trace := .ofFork (Host.fork s.host (s.launching b c)).2 :: s.trace }) :=
  rfl

end Shell

end JobShell
