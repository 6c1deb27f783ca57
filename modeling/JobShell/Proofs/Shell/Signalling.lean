import JobShell.Proofs.Shell.Keeping
import JobShell.Shell.Session

/-!
# Signals to process groups

The shell sends signals to the groups of its own jobs, and to no others.

* `Aimed t pid n` is what a signal `n` to a group `pid` comes from, in terms of the table `t` at
  that moment: the job in the foreground, or a job that is to go on.
* `Sure` is what every run keeps: each signal to a group was aimed, and each process that has a job
  was entered as one.
* `Trace.unfinished` counts how often a signal was sent since its handler came to its end;
  `once_meets` says that no run sends it twice.
* `sends_handle` and `sends_round` tell exactly what one run of a handler and one round send.
* `group_signals_aimed` puts this together.
-/

namespace JobShell

open Act Trace

/-! ## 1. Signals that are passed on -/

/-- Interrupts and stops from the terminal, and no other signals, are passed on. -/
def Dispositions.PassesOn (d : Dispositions) : Prop :=
  ∀ n, d.of n = .handler .forward ↔ n = Signal.interrupt ∨ n = Signal.terminalStop

/-- **The shell arranges it so.** -/
theorem Dispositions.passesOn_installed : defaults.installed.PassesOn := by
  intro n
  simp only [installed, of_set, defaults]
  constructor
  · intro h
    repeat' split at h
    all_goals simp_all
  · rintro (rfl | rfl)
    · rfl
    · rfl

theorem Dispositions.PassesOn.of_resume {d : Dispositions} (h : d.PassesOn) :
    d.of Signal.resume ≠ .handler .forward := by
  rw [Ne, h]
  decide

/-! ## 2. What was sent -/

namespace Trace

/-- The groups that a signal was sent to, each with the table at that moment, the first first. -/
def sends (n : Nat) : List Event → List (JobTable × Int)
  | [] => []
  | .sentGroup t pid k :: es => sends n es ++ if k = n then [(t, pid)] else []
  | _ :: es => sends n es

/-- One sending to a process, if there is one. -/
def once (t : JobTable) : Option Int → List (JobTable × Int)
  | none => []
  | some pid => [(t, pid)]

/-- How often a signal was sent to a group since its handler last came to its end. -/
def unfinished (n : Nat) : List Event → Nat
  | [] => 0
  | .sentGroup _ _ k :: es => unfinished n es + if k = n then 1 else 0
  | .handled _ k :: es => if k = n then 0 else unfinished n es
  | _ :: es => unfinished n es

/-- A signal is sent at most once between one run of its handler and the next. -/
def OncePerRun (n : Nat) (es : List Event) : Prop :=
  Always (fun e es => unfinished n (e :: es) ≤ 1) es

variable {n k : Nat} {t : JobTable} {pid : Int} {e : Event} {es : List Event}

theorem sends_cons_of_isAside (he : e.IsAside) : sends n (e :: es) = sends n es := by
  cases e with
  | sentGroup t pid k => exact he.elim
  | _ => rfl

theorem sends_cons_ofAnswer (r : Option ChildStatus) : sends n (.ofAnswer r :: es) = sends n es := by
  cases r with
  | none => rfl
  | some c => rfl

theorem sends_cons_sentGroup : sends n (.sentGroup t pid n :: es) = sends n es ++ [(t, pid)] := by
  rw [sends, if_pos rfl]

theorem sends_cons_of_ne (hk : k ≠ n) : sends n (.sentGroup t pid k :: es) = sends n es := by
  rw [sends, if_neg hk, List.append_nil]

theorem unfinished_cons_of_isAside (he : e.IsAside) :
    unfinished n (e :: es) = unfinished n es := by
  cases e with
  | sentGroup t pid k => exact he.elim
  | handled t k => exact he.elim
  | _ => rfl

theorem unfinished_cons_ofAnswer (r : Option ChildStatus) :
    unfinished n (.ofAnswer r :: es) = unfinished n es := by
  cases r with
  | none => rfl
  | some c => rfl

theorem OncePerRun.unfinished_le (h : OncePerRun n es) : unfinished n es ≤ 1 := by
  cases es with
  | nil => exact Nat.zero_le 1
  | cons e es => exact h.1

theorem unfinished_cons_of_ne (hk : k ≠ n) :
    unfinished n (.sentGroup t pid k :: es) = unfinished n es := by
  rw [unfinished, if_neg hk, Nat.add_zero]

theorem unfinished_handled_of_ne (hk : k ≠ n) :
    unfinished n (.handled t k :: es) = unfinished n es := by
  rw [unfinished, if_neg hk]

end Trace

/-! ## 3. Whom signals are for -/

/-- **A signal to a group is aimed**: the group is the one of a live job, and the signal is passed
on to the job in the foreground, or tells a job to go on. -/
structure Aimed (t : JobTable) (pid : Int) (n : Nat) : Prop where
  live : ∃ id a, t.get? id = some a ∧ a.state ≠ .undefined ∧ a.pid = pid
  purpose : ((n = Signal.interrupt ∨ n = Signal.terminalStop) ∧ t.foregroundPid? = some pid) ∨
    n = Signal.resume

/-- A process had a job at first, or was entered as one. -/
def Entrant (t₀ : JobTable) (es : List Event) (pid : Int) : Prop :=
  (∃ id a, t₀.get? id = some a ∧ a.pid = pid) ∨
    ∃ state cmdline, .changed (.add pid state cmdline) ∈ es

theorem Entrant.cons {t₀ : JobTable} {es : List Event} {pid : Int} (h : Entrant t₀ es pid)
    (e : Event) : Entrant t₀ (e :: es) pid :=
  h.imp_right fun ⟨state, cmdline, hmem⟩ => ⟨state, cmdline, List.mem_cons_of_mem e hmem⟩

/-- **What every run keeps.** -/
structure Sure (t₀ t : JobTable) (es : List Event) : Prop where
  wellFormed : t.WellFormed
  /-- Whoever has a job was entered. -/
  entered : ∀ {id a}, t.get? id = some a → Entrant t₀ es a.pid
  /-- Every signal to a group was aimed, at somebody who was entered. -/
  aimed : ∀ {t' pid n}, .sentGroup t' pid n ∈ es → Aimed t' pid n ∧ Entrant t₀ es pid

namespace Sure

variable {t₀ t t' : JobTable} {e : Event} {es : List Event}

theorem start (ht : t₀.WellFormed) : Sure t₀ t₀ [] where
  wellFormed := ht
  entered ha := Or.inl ⟨_, _, ha, rfl⟩
  aimed hmem := (List.not_mem_nil hmem).elim

/-- **One more event that sends nothing**, with a table whose jobs were entered. -/
theorem next (h : Sure t₀ t es) (ht : t'.WellFormed)
    (hjobs : ∀ id a, t'.get? id = some a → Entrant t₀ (e :: es) a.pid)
    (he : ∀ t pid n, e ≠ .sentGroup t pid n) : Sure t₀ t' (e :: es) where
  wellFormed := ht
  entered ha := hjobs _ _ ha
  aimed {_ pid n} hmem := by
    have hmem' := (List.mem_cons.1 hmem).resolve_left fun heq => he _ pid n heq.symm
    obtain ⟨haimed, hentrant⟩ := h.aimed hmem'
    exact ⟨haimed, hentrant.cons e⟩

theorem same (h : Sure t₀ t es) (he : ∀ t pid n, e ≠ .sentGroup t pid n) : Sure t₀ t (e :: es) :=
  h.next h.wellFormed (fun _ _ ha => (h.entered ha).cons e) he

/-- **A signal to a group**, if it is for a live job. -/
theorem sent (h : Sure t₀ t es) {pid : Int} {n : Nat}
    (hjob : ∃ id a, t.get? id = some a ∧ a.pid = pid)
    (hpurpose : ((n = Signal.interrupt ∨ n = Signal.terminalStop) ∧ t.foregroundPid? = some pid) ∨
      n = Signal.resume) : Sure t₀ t (.sentGroup t pid n :: es) where
  wellFormed := h.wellFormed
  entered ha := (h.entered ha).cons _
  aimed {t' pid' n'} hmem := by
    rcases List.mem_cons.1 hmem with heq | hmem
    · cases heq
      obtain ⟨id, a, ha, rfl⟩ := hjob
      exact ⟨⟨⟨id, a, ha, h.wellFormed.live ha, rfl⟩, hpurpose⟩, (h.entered ha).cons _⟩
    · obtain ⟨haimed, hentrant⟩ := h.aimed hmem
      exact ⟨haimed, hentrant.cons _⟩

theorem observe (h : Sure t₀ t es) (c : ChildStatus) : Sure t₀ (t.observe c).1 es where
  wellFormed := h.wellFormed.observe c
  entered {id b} hb := by
    rw [h.wellFormed.get?_observe, Option.bind_eq_some_iff] at hb
    obtain ⟨a, ha, hab⟩ := hb
    exact Job.pid_after? hab ▸ h.entered ha
  aimed := h.aimed

theorem add (h : Sure t₀ t es) {pid : Int} {state : JobState} {cmdline : String} {id : Nat}
    (hadd : t.add pid state cmdline = .ok (id, t')) :
    Sure t₀ t' (.changed (.add pid state cmdline) :: es) := by
  refine h.next (h.wellFormed.add hadd) (fun k b hb => ?_) fun _ _ _ heq => nomatch heq
  rw [(JobTable.get?_add hadd).2] at hb
  split at hb
  · cases hb
    exact Or.inr ⟨state, cmdline, List.mem_cons_self⟩
  · exact (h.entered hb).cons _

theorem setState (h : Sure t₀ t es) {id : Nat} {state : JobState}
    (hset : t.setState id state = some t') : Sure t₀ t' (.changed (.setState id state) :: es) := by
  refine h.next (h.wellFormed.setState hset) (fun k b hb => ?_) fun _ _ _ heq => nomatch heq
  rw [JobTable.get?_setState hset] at hb
  split at hb
  · obtain ⟨a, ha, rfl⟩ := Option.map_eq_some_iff.1 hb
    exact (h.entered ha).cons _
  · exact (h.entered hb).cons _

end Sure

namespace Shell

variable {σ : Type} {s : Shell σ} {m : Mask} {n : Nat}

/-- The process that is told to go on has a job. -/
theorem exists_job_of_meant? {t : JobTable} (ht : t.WellFormed) {c : Command} {name : String}
    {id : Nat} {pid : Int} (h : c.meant? name t = some (id, pid)) :
    ∃ a, t.get? id = some a ∧ a.pid = pid := by
  unfold Command.meant? at h
  split at h
  · exact ht.resolve?_eq_some h
  · cases h

theorem exists_job_of_told? {t : JobTable} (ht : t.WellFormed) {c : Command} {pid : Int}
    (h : c.told? t = some pid) : ∃ id a, t.get? id = some a ∧ a.pid = pid := by
  unfold Command.told? at h
  split at h
  · obtain ⟨⟨id, p⟩, hmeant, rfl⟩ := Option.map_eq_some_iff.1 h
    exact ⟨_, exists_job_of_meant? ht hmeant⟩
  · obtain ⟨⟨id, p⟩, hmeant, rfl⟩ := Option.map_eq_some_iff.1 h
    exact ⟨_, exists_job_of_meant? ht hmeant⟩
  · cases h

theorem Round.exists_job_of_told? {t : JobTable} (ht : t.WellFormed) {round : Round σ} {pid : Int}
    (h : round.told? t = some pid) : ∃ id a, t.get? id = some a ∧ a.pid = pid := by
  unfold Round.told? at h
  split at h
  · split at h
    · exact Shell.exists_job_of_told? ht h
    · cases h
  · exact Shell.exists_job_of_told? ht h
  · cases h

theorem watches_sure {d : Dispositions} (hd : d.PassesOn) (t₀ : JobTable) (k : Nat) :
    Watches k d (Sure t₀) where
  aside _ e es he h := h.same fun t pid n heq => by
    subst heq
    exact he
  forwards {t es n pid} _ hof hfg h := by
    obtain ⟨id, a, ha, -, hpid⟩ := h.wellFormed.foregroundPid?_eq_some_iff.1 hfg
    exact h.sent ⟨id, a, ha, hpid⟩ (Or.inl ⟨(hd n).1 hof, hfg⟩)
  handles _ h := h.same fun _ _ _ heq => nomatch heq
  answered r h := by
    cases r with
    | none => exact h.same fun _ _ _ heq => nomatch heq
    | some c => exact h.same fun _ _ _ heq => nomatch heq
  observes c h := h.observe c

variable [Host σ]

theorem lasts_sure (hd : s.dispositions.CollectsOnChild) (hf : s.dispositions.PassesOn)
    (t₀ : JobTable) : Lasts s (Sure t₀) (Sure t₀) where
  aside := (watches_sure hf t₀ 0).aside
  added hadd h := h.add hadd
  restated hset h := h.setState hset
  ends h := h
  deliver depth _ := deliver_left (watches_sure hf t₀) hd depth

/-- **Every run is sure.** -/
theorem sure_conduct (hd : s.dispositions.CollectsOnChild) (hf : s.dispositions.PassesOn)
    (ht : s.table.WellFormed) (rounds : List (Round σ)) :
    Left s (Sure s.table) ((conduct rounds).on s).2 := by
  have start : At (Left s (Sure s.table)) s.mask s := ⟨⟨rfl, [], rfl, .start ht⟩, rfl⟩
  have run := (lasts_sure hd hf s.table).conduct (m := s.mask)
    (fun round t es pid htold h =>
      h.sent (round.exists_job_of_told? h.wellFormed htold) (Or.inr rfl)) rounds
  exact (run.post fun _ _ hs => hs.1).after start

/-! ## 4. One run of a handler -/

/-- **A handler that passes a signal on**, in terms of what holds before (`R₀`), once the signal was
sent or there was nobody to send it to (`R`), and after (`R₁`). -/
theorem handle_rule {pause : Act σ Unit} {R₀ R R₁ R' : JobTable → List Event → Prop}
    (hof : s.dispositions.of n = .handler .forward) (h₀ : IgnoresAsides R₀)
    (hnone : ∀ t es, t.foregroundPid? = none → R₀ t es → R t es)
    (hsent : ∀ t es pid, t.foregroundPid? = some pid → R₀ t es → R t (.sentGroup t pid n :: es))
    (hhandled : ∀ t es, R t es → R₁ t (.handled t n :: es))
    (hpause : Meets (At (Left s R) m) pause (fun _ => At (Left s R) m) (Left s R')) :
    Meets (At (Left s R₀) m) (handle pause n) (fun _ => At (Left s R₁) m) (Left s R') := by
  have loose : Loose (Left s R) := ⟨fun h => h, fun h => h⟩
  unfold handle
  refine Meets.bind (Q := fun _ => At (Left s R) m) ?_ fun _ => ?_
  · unfold react
    refine meets_get_bind fun s' hs => ?_
    rw [show s'.dispositions.of n = .handler .forward from hs.1.1.symm ▸ hof]
    refine (forward_rule (calm_left h₀) loose n (fun s hs hfg => ?_) (fun s pid hs hfg => ?_)
      hpause).pre fun _ e => e ▸ hs
    · obtain ⟨hd, es, htrace, hr⟩ := hs
      exact ⟨hd, es, htrace, hnone _ _ hfg hr⟩
    · exact hs.cons rfl rfl fun es hr => hsent _ es pid hfg hr
  · refine meets_get_bind fun s' hs => meets_modify fun _ e => ?_
    subst e
    exact ⟨hs.1.cons rfl rfl fun es hr => hhandled _ es hr, hs.2⟩

/-- A signal was sent to these groups since then. -/
def Sent (n : Nat) (l : List (JobTable × Int)) (_ : JobTable) (es : List Event) : Prop :=
  sends n es = l

/-- Nothing was sent yet, and the table is the same. -/
def Unsent (n : Nat) (t₀ t : JobTable) (es : List Event) : Prop := t = t₀ ∧ sends n es = []

omit [Host σ] in
theorem ignoresAsides_unsent (n : Nat) (t₀ : JobTable) : IgnoresAsides (Unsent n t₀) :=
  fun _ _ _ he h => ⟨h.1, (sends_cons_of_isAside he).trans h.2⟩

section Unsent

variable {t₀ t : JobTable} {es : List Event} {whom : JobTable → Option Int} {pid : Int}

omit [Host σ]

/-- There was nobody to send it to. -/
theorem Unsent.nobody (h : Unsent n t₀ t es) (hwhom : whom t = none) :
    Sent n (once t₀ (whom t₀)) t es := by
  obtain ⟨rfl, hnone⟩ := h
  rw [hwhom]
  exact hnone

/-- It was sent to somebody. -/
theorem Unsent.one (h : Unsent n t₀ t es) (hwhom : whom t = some pid) :
    Sent n (once t₀ (whom t₀)) t (.sentGroup t pid n :: es) := by
  obtain ⟨rfl, hnone⟩ := h
  rw [hwhom, Sent, sends_cons_sentGroup, hnone]
  rfl

end Unsent

omit [Host σ] in
/-- Only handlers for other signals pass other signals on. -/
theorem watches_sent {d : Dispositions} {k : Nat}
    (h : ∀ i, i ≠ k → d.of i = .handler .forward → i ≠ n) (l : List (JobTable × Int)) :
    Watches k d (Sent n l) where
  aside _ _ _ he hsent := (sends_cons_of_isAside he).trans hsent
  forwards hne hof _ hsent := (sends_cons_of_ne (h _ hne hof)).trans hsent
  handles _ hsent := hsent
  answered _ hsent := (sends_cons_ofAnswer _).trans hsent
  observes _ hsent := hsent

/-- **One run of a handler that passes its signal on** sends it once, to the job in the foreground,
and to nobody if there is none. Whatever interrupts the handler does not send it. -/
theorem sends_handle (hd : s.dispositions.CollectsOnChild)
    (hof : s.dispositions.of n = .handler .forward) (hm : s.mask.blocks n = true) (depth : Nat) :
    ∃ es, ((handle (deliver depth) n).on s).2.trace = es ++ s.trace ∧
      sends n es = once s.table s.table.foregroundPid? := by
  let l : List (JobTable × Int) := once s.table s.table.foregroundPid?
  have watches : Watches n s.dispositions (Sent n l) := watches_sent (fun _ hne _ => hne) l
  have pause : Meets (At (Left s (Sent n l)) s.mask) (deliver depth)
      (fun _ => At (Left s (Sent n l)) s.mask) (Left s (Sent n l)) :=
    deliver_meets _ depth n _ (watches.guarded hd) (fun _ h => h) s.mask (Or.inl hm)
  have run : Meets (At (Left s (Unsent n s.table)) s.mask) (handle (deliver depth) n)
      (fun _ => At (Left s (Sent n l)) s.mask) (Left s (Sent n l)) :=
    handle_rule hof (ignoresAsides_unsent n s.table) (fun _ _ hfg h => h.nobody hfg)
      (fun _ _ _ hfg h => h.one hfg) (fun _ _ h => h) pause
  have start : At (Left s (Unsent n s.table)) s.mask s := ⟨⟨rfl, [], rfl, rfl, rfl⟩, rfl⟩
  obtain ⟨-, es, htrace, hsent⟩ := (run.post fun _ _ hs => hs.1).after start
  exact ⟨es, htrace, hsent⟩

/-! ## 5. Any number of them -/

/-- The handler for `n` is not at work. -/
def Rested (n : Nat) (_ : JobTable) (es : List Event) : Prop :=
  OncePerRun n es ∧ unfinished n es = 0

/-- The handler for `n` may be at work. -/
def Busy (n : Nat) (_ : JobTable) (es : List Event) : Prop := OncePerRun n es

omit [Host σ] in
theorem Busy.cons {t t' : JobTable} {es : List Event} {e : Event} (h : Busy n t es)
    (he : unfinished n (e :: es) = unfinished n es) : Busy n t' (e :: es) :=
  ⟨Nat.le_trans (Nat.le_of_eq he) h.unfinished_le, h⟩

omit [Host σ] in
theorem Rested.cons {t t' : JobTable} {es : List Event} {e : Event} (h : Rested n t es)
    (he : unfinished n (e :: es) = unfinished n es) : Rested n t' (e :: es) := by
  have busy : Busy n t es := h.1
  have busy' : Busy n t' (e :: es) := busy.cons he
  exact ⟨busy', he.trans h.2⟩

omit [Host σ] in
theorem watches_busy (d : Dispositions) : Watches n d (Busy n) where
  aside _ _ _ he h := h.cons (unfinished_cons_of_isAside he)
  forwards hne _ _ h := h.cons (unfinished_cons_of_ne hne)
  handles hne h := h.cons (unfinished_handled_of_ne hne)
  answered _ h := h.cons (unfinished_cons_ofAnswer _)
  observes _ h := h

omit [Host σ] in
theorem watches_rested (d : Dispositions) : Watches n d (Rested n) where
  aside _ _ _ he h := h.cons (unfinished_cons_of_isAside he)
  forwards hne _ _ h := h.cons (unfinished_cons_of_ne hne)
  handles hne h := h.cons (unfinished_handled_of_ne hne)
  answered _ h := h.cons (unfinished_cons_ofAnswer _)
  observes _ h := h

/-- The handler for `n` is not at work any more when it has come to its end. -/
theorem outlives_rested (hd : s.dispositions.CollectsOnChild)
    (hof : s.dispositions.of n = .handler .forward) :
    Outlives n (Left s (Rested n)) (Left s (Busy n)) := by
  intro pause hp m hm
  have busy : Watches n s.dispositions (Busy n) := watches_busy s.dispositions
  refine handle_rule hof (watches_rested s.dispositions).aside (fun t es _ h => h.1)
    (fun t es pid _ h => ⟨?_, h.1⟩) (fun t es h => ?_)
    (hp n _ (busy.guarded hd) (fun _ h => h) m hm)
  · have hone : unfinished n es + (if n = n then 1 else 0) = 1 := by rw [h.2, if_pos rfl]
    exact Nat.le_of_eq hone
  · have hzero : unfinished n (.handled t n :: es) = 0 := if_pos rfl
    exact ⟨⟨Nat.le_trans (Nat.le_of_eq hzero) (Nat.zero_le 1), h⟩, hzero⟩

theorem lasts_rested (hd : s.dispositions.CollectsOnChild)
    (hof : s.dispositions.of n = .handler .forward) : Lasts s (Rested n) (Busy n) where
  aside := (watches_rested s.dispositions).aside
  added _ h := h.cons rfl
  restated _ h := h.cons rfl
  ends h := h.1
  deliver depth m :=
    deliver_meets _ depth n _ ((watches_rested s.dispositions).guarded hd)
      (fun _ hs => hs.mono fun _ _ h => h.1) m (Or.inr (outlives_rested hd hof))

/-- **No run sends a signal twice** without its handler having come to its end in between. -/
theorem once_conduct (hd : s.dispositions.CollectsOnChild) (hf : s.dispositions.PassesOn)
    (hn : n = Signal.interrupt ∨ n = Signal.terminalStop) (rounds : List (Round σ)) :
    Left s (Busy n) ((conduct rounds).on s).2 := by
  have hof : s.dispositions.of n = .handler .forward := (hf n).2 hn
  have hne : Signal.resume ≠ n := fun h => hf.of_resume (h ▸ hof)
  have start : At (Left s (Rested n)) s.mask s := ⟨⟨rfl, [], rfl, trivial, rfl⟩, rfl⟩
  have run := (lasts_rested hd hof).conduct (m := s.mask)
    (fun _ t es pid _ h => h.cons (unfinished_cons_of_ne hne)) rounds
  exact (run.post fun _ _ hs => hs.1.mono fun _ _ h => h.1).after start

/-! ## 6. One round -/

theorem lasts_sent (hd : s.dispositions.CollectsOnChild)
    (hof : s.dispositions.of n ≠ .handler .forward) (l : List (JobTable × Int)) :
    Lasts s (Sent n l) (Sent n l) where
  aside _ _ _ he hsent := (sends_cons_of_isAside he).trans hsent
  added _ hsent := hsent
  restated _ hsent := hsent
  ends hsent := hsent
  deliver depth _ :=
    deliver_left (fun _ => watches_sent (n := n) (fun _ _ hi hin => hof (hin ▸ hi)) l) hd depth

/-- **One round tells a job to go on** once, if it is a command for that and its argument means a
job, and not at all otherwise. -/
theorem sends_round (hd : s.dispositions.CollectsOnChild) (hf : s.dispositions.PassesOn)
    (round : Round σ) :
    ∃ es, (round.act.on s).2.trace = es ++ s.trace ∧
      sends Signal.resume es = once s.table (round.told? s.table) := by
  let l : List (JobTable × Int) := once s.table (round.told? s.table)
  have run : Meets (At (Left s (Unsent Signal.resume s.table)) s.mask) round.act
      (fun _ => At (Left s (Sent Signal.resume l)) s.mask) (Left s (Sent Signal.resume l)) :=
    (lasts_sent hd hf.of_resume l).round (ignoresAsides_unsent _ s.table) round
      (fun _ _ htold h => h.nobody htold) fun _ _ _ htold h => h.one htold
  have start : At (Left s (Unsent Signal.resume s.table)) s.mask s :=
    ⟨⟨rfl, [], rfl, rfl, rfl⟩, rfl⟩
  obtain ⟨-, es, htrace, hsent⟩ := (run.post fun _ _ hs => hs.1).after start
  exact ⟨es, htrace, hsent⟩

/-! ## 7. All of it -/

/-- **The shell sends signals to groups of its own live jobs only.** In every run from a table in
good order each signal to a group is aimed, and goes to a process that was entered as a job; so if
those have numbers above 1, the shell never signals its own group, nor all groups there are. A
signal from the terminal is passed on at most once between one run of its handler and the next; one
run passes it on exactly once to the job in the foreground, and to nobody if there is none. And in
one round, jobs are told to go on only by a command for that: once, if its argument means a job, and
not at all if it means none. The handler runs while its own signal is blocked. -/
theorem group_signals_aimed (s : Shell σ) (hd : s.dispositions.CollectsOnChild)
    (hf : s.dispositions.PassesOn) (ht : s.table.WellFormed) :
    (∀ rounds, ∃ es, ((conduct rounds).on s).2.trace = es ++ s.trace ∧
      (∀ t pid n, .sentGroup t pid n ∈ es →
        Aimed t pid n ∧ ((∀ p, Entrant s.table es p → 1 < p) → 1 < pid)) ∧
      ∀ n, n = Signal.interrupt ∨ n = Signal.terminalStop → OncePerRun n es) ∧
    (∀ n, n = Signal.interrupt ∨ n = Signal.terminalStop → s.mask.blocks n = true → ∀ depth,
      ∃ es, ((handle (deliver depth) n).on s).2.trace = es ++ s.trace ∧
        sends n es = once s.table s.table.foregroundPid?) ∧
    ∀ round : Round σ, ∃ es, (round.act.on s).2.trace = es ++ s.trace ∧
      sends Signal.resume es = once s.table (round.told? s.table) := by
  refine ⟨fun rounds => ?_, fun n hn hm depth => sends_handle hd ((hf n).2 hn) hm depth,
    sends_round hd hf⟩
  obtain ⟨-, es, htrace, hsure⟩ := sure_conduct hd hf ht rounds
  refine ⟨es, htrace, fun t pid n hmem => ?_, fun n hn => ?_⟩
  · obtain ⟨haimed, hentrant⟩ := hsure.aimed hmem
    exact ⟨haimed, fun h => h pid hentrant⟩
  · obtain ⟨-, es', htrace', honce⟩ := once_conduct hd hf hn rounds
    rwa [List.append_cancel_right (htrace.symm.trans htrace')]

/-- A session with a job in the foreground and a stopped one, in the handler for interrupts. -/
def twoJobs : Session where
  host := { around := { files := .empty } }
  table := JobTable.run .empty
    [.add 61001 .foreground "vi", .add 61002 .background "cat", .setState 2 .stopped]
  mask := Mask.none.withSignal Signal.interrupt

/-- The event enters a process as a job. -/
def isEntry : Event → Bool
  | .changed (.add _ _ _) => true
  | _ => false

/-- References that are no numbers of jobs, although they would wrap around to some, and one that
is. -/
def references : List (Round Kernel) :=
  [.line "bg '%18446744073709551618'", .line "bg 4295028298", .line "bg %x", .line "bg %2"]

/-- An interrupt goes to the job in the foreground; of the references the last one means a job. -/
theorem group_signals_aimed_references :
    (∀ t pid n, .sentGroup t pid n ∈ ((conduct references).on twoJobs).2.trace →
      Aimed t pid n ∧ 1 < pid) ∧
    (∃ es, ((handle (deliver 1) Signal.interrupt).on twoJobs).2.trace = es ++ [] ∧
      sends Signal.interrupt es = [(twoJobs.table, 61001)]) ∧
    (∀ round ∈ references.take 3, ∃ es, (round.act.on twoJobs).2.trace = es ++ [] ∧
      sends Signal.resume es = []) ∧
    ∃ es, ((evaluate "bg %2").on twoJobs).2.trace = es ++ [] ∧
      sends Signal.resume es = [(twoJobs.table, 61002)] := by
  obtain ⟨hruns, hhandler, hround⟩ := group_signals_aimed twoJobs
    Dispositions.collectsOnChild_installed Dispositions.passesOn_installed
    (JobTable.wellFormed_empty.run _)
  refine ⟨fun t pid n hmem => ?_, ?_, fun round hmem => ?_, ?_⟩
  · obtain ⟨es, htrace, haimed, -⟩ := hruns references
    rw [show twoJobs.trace = [] from rfl, List.append_nil] at htrace
    rw [htrace] at hmem
    refine ⟨(haimed t pid n hmem).1, (haimed t pid n hmem).2 fun p hp => ?_⟩
    have hjobs : ∀ a ∈ twoJobs.table.jobs, 1 < a.pid := by decide +kernel
    have hentries : es.all (fun e => !isEntry e) = true := by
      rw [← htrace]
      decide +kernel
    rcases hp with ⟨id, a, ha, rfl⟩ | ⟨state, cmdline, hadd⟩
    · exact hjobs a (JobTable.mem_jobs_iff.2 ⟨id, ha⟩)
    · have hadded := List.all_eq_true.1 hentries _ hadd
      cases hadded
  · exact hhandler Signal.interrupt (Or.inl rfl) (by decide) 1
  · obtain ⟨es, htrace, hsends⟩ := hround round
    refine ⟨es, htrace, hsends.trans ?_⟩
    have hmeant : ∀ r ∈ references.take 3, r.told? twoJobs.table = none := by decide +kernel
    rw [hmeant round hmem]
    rfl
  · obtain ⟨es, htrace, hsends⟩ := hround (.line "bg %2")
    rw [Round.on_line_snd] at htrace
    refine ⟨es, htrace, hsends.trans ?_⟩
    have hmeant : (Round.line "bg %2" : Round Kernel).told? twoJobs.table = some 61002 := by
      decide +kernel
    rw [hmeant]
    rfl

end Shell

end JobShell
