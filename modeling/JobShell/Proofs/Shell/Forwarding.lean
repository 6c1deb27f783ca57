import JobShell.Proofs.Shell.Reaping
import JobShell.Proofs.Shell.Signalling

/-!
# Signals to processes that are gone

A signal is passed on from inside a critical section, by the table at that moment. The handler for
children collects a change first and then enters the critical section in which the table goes
through it. In between it can be interrupted, and a signal that is passed on then goes by a table
that knows nothing of the change.

* `Trace.Gap` is that stretch: a change was collected, and nothing else has happened since that the
  table would show.
* `Current` and `Behind` are how the table stands outside and inside of it; `outlives_current` is
  the handler for children, `lasts_current` a whole run.
* `passed_on_to_the_living` says that a signal is passed on to a process that was collected after
  its end in such a gap after that very end, and never otherwise; `passed_on_in_the_gap` is a run in
  which it is.
-/

namespace JobShell

open Act Trace

/-! ## 1. The gap -/

namespace Trace

/-- A change was collected after the events `before`, and nothing has happened since that the table
would show. -/
def Gap (es : List Event) (c : ChildStatus) (before : List Event) : Prop :=
  ∃ since, es = since ++ .collected c :: before ∧ ∀ e ∈ since, e.IsQuiet

variable {c : ChildStatus} {e : Event} {es before since : List Event} {pid : Int}

theorem Gap.start : Gap (.collected c :: es) c es := ⟨[], rfl, fun _ h => (List.not_mem_nil h).elim⟩

theorem Gap.cons_quiet (h : Gap es c before) (he : e.IsQuiet) : Gap (e :: es) c before := by
  obtain ⟨since, rfl, hquiet⟩ := h
  refine ⟨e :: since, rfl, fun d hd => ?_⟩
  rcases List.mem_cons.1 hd with rfl | hd'
  · exact he
  · exact hquiet d hd'

/-- Quiet events say nothing of the end of a process. -/
theorem endOf?_cons_of_isQuiet (he : e.IsQuiet) : endOf? pid (e :: es) = endOf? pid es := by
  cases e with
  | forked p => exact he.elim
  | collected c => exact he.elim
  | _ => rfl

/-- **In a gap after the end of a process, and only there, the end is the last thing heard.** -/
theorem Gap.endOf? (h : Gap es c before) :
    Trace.endOf? pid es = if c.pid = pid ∧ c.isEnd = true then some c.change
      else Trace.endOf? pid before := by
  obtain ⟨since, rfl, hquiet⟩ := h
  induction since with
  | nil => rfl
  | cons e since ih =>
    rw [List.cons_append, endOf?_cons_of_isQuiet (hquiet e List.mem_cons_self)]
    exact ih fun d hd => hquiet d (List.mem_cons_of_mem e hd)

/-- **Where a change is still to reach the table**, this is what it comes to. -/
theorem Gap.replay {t₀ : JobTable} (h : Gap es c before) (hc : c.isNamed = true) :
    t₀.replay es = ((t₀.replay before).observe c).1 := by
  obtain ⟨since, rfl, hquiet⟩ := h
  induction since with
  | nil => exact t₀.replay_cons_of_isNamed hc before
  | cons e since ih =>
    rw [List.cons_append, t₀.replay_cons_of_isQuiet (hquiet e List.mem_cons_self)]
    exact ih fun d hd => hquiet d (List.mem_cons_of_mem e hd)

/-- An end that was heard of was collected. -/
theorem exists_collected_of_endOf? {change : Change} (h : Trace.endOf? pid es = some change) :
    ∃ c, .collected c ∈ es ∧ c.change = change := by
  have older : ∀ {e : Event} {es : List Event}, (∃ c, .collected c ∈ es ∧ c.change = change) →
      ∃ c, .collected c ∈ e :: es ∧ c.change = change := by
    intro e es hc
    obtain ⟨c, hmem, hchange⟩ := hc
    exact ⟨c, List.mem_cons_of_mem e hmem, hchange⟩
  induction es with
  | nil => cases h
  | cons e es ih =>
    cases e with
    | forked p =>
      rw [Trace.endOf?] at h
      split at h
      · cases h
      · exact older (ih h)
    | collected c =>
      rw [Trace.endOf?] at h
      split at h
      · exact ⟨c, List.mem_cons_self, Option.some.inj h⟩
      · exact older (ih h)
    | _ => exact older (ih h)

/-- **The process in the foreground is not gone**, if every end can be told and the table is the one
that the events make. -/
theorem endOf?_of_foregroundPid? (hfits : Always (Event.Fits .empty) es)
    (hnamed : ∀ c, .collected c ∈ es → c.isNamed = true)
    (hfg : (JobTable.empty.replay es).foregroundPid? = some pid) : Trace.endOf? pid es = none := by
  have hwf : (JobTable.empty.replay es).WellFormed := JobTable.wellFormed_empty.replay es
  obtain ⟨id, a, ha, -, hpid⟩ := hwf.foregroundPid?_eq_some_iff.1 hfg
  have htracked : Tracked pid es :=
    (tracked_iff hfits).2 (JobTable.isSome_ofPid?_iff.2 ⟨id, a, ha, hpid⟩)
  refine Option.not_isSome_iff_eq_none.1 fun hgone => ?_
  obtain ⟨n, hend, hunnamed⟩ := diedUnnamed_of_tracked hfits htracked hgone
  obtain ⟨c, hmem, hchange⟩ := exists_collected_of_endOf? hend
  have hc : c.isNamed = Signal.isNamed n := by rw [ChildStatus.isNamed, hchange]
  rw [hnamed c hmem, hunnamed] at hc
  cases hc

end Trace

/-- **The table by which a signal is sent to a group** is the one that the events make, or the one
that they made before the change of a gap. -/
def Event.Informed (t₀ : JobTable) : Event → List Event → Prop
  | .sentGroup t _ _, es => t = t₀.replay es ∨
    ∃ c before, c.isNamed = true ∧ Gap es c before ∧ t = t₀.replay before
  | _, _ => True

namespace Shell

variable {σ : Type} {s₀ s : Shell σ} {m : Mask} {t₀ t t' : JobTable} {es : List Event}
  {c : ChildStatus}

/-! ## 2. How the table stands -/

/-- Every signal to a group went by a table that it might go by. -/
def Bygone (t₀ : JobTable) (_ : JobTable) (es : List Event) : Prop := Always (Event.Informed t₀) es

/-- The table is the one that the events make. -/
structure Current (t₀ t : JobTable) (es : List Event) : Prop where
  informed : Always (Event.Informed t₀) es
  table : t = t₀.replay es

/-- The table is the one that the events made before a change was collected. -/
structure Behind (t₀ : JobTable) (c : ChildStatus) (t : JobTable) (es : List Event) : Prop where
  informed : Always (Event.Informed t₀) es
  named : c.isNamed = true
  table : ∃ before, Gap es c before ∧ t = t₀.replay before

/-- How the table stands after an answer to the question for a change. -/
def Standing (t₀ : JobTable) : Option ChildStatus → JobTable → List Event → Prop
  | some c => if c.isNamed then Behind t₀ c else Current t₀
  | none => Current t₀

theorem standing_of_isNamed (hc : c.isNamed = true) :
    Standing t₀ (some c) = Behind t₀ c := if_pos hc

theorem standing_of_not_isNamed (hc : c.isNamed = false) :
    Standing t₀ (some c) = Current t₀ := if_neg (ne_true_of_eq_false hc)

/-- A quiet event; if it is a signal to a group, it goes by the table. -/
structure QuietBy (t : JobTable) (e : Event) : Prop where
  quiet : e.IsQuiet
  sent : ∀ {t' pid n}, e = .sentGroup t' pid n → t' = t

theorem QuietBy.informed {e : Event} (he : QuietBy t e)
    (h : t = t₀.replay es ∨
      ∃ c before, c.isNamed = true ∧ Gap es c before ∧ t = t₀.replay before) :
    e.Informed t₀ es := by
  cases e with
  | sentGroup t' pid n => exact (he.sent rfl).symm ▸ h
  | _ => trivial

theorem Current.quiet {e : Event} (h : Current t₀ t es) (he : QuietBy t e) :
    Current t₀ t (e :: es) where
  informed := ⟨he.informed (.inl h.table), h.informed⟩
  table := h.table.trans (t₀.replay_cons_of_isQuiet he.quiet es).symm

theorem Current.aside {e : Event} (h : Current t₀ t es) (he : e.IsAside) :
    Current t₀ t (e :: es) := by
  obtain ⟨hinformed, ht⟩ := h
  cases e with
  | changed op => exact he.elim
  | collected c => exact he.elim
  | sentGroup t pid n => exact he.elim
  | _ => exact ⟨⟨trivial, hinformed⟩, ht⟩

theorem Behind.quiet {e : Event} (h : Behind t₀ c t es) (he : QuietBy t e) :
    Behind t₀ c t (e :: es) := by
  obtain ⟨hinformed, hnamed, before, hgap, ht⟩ := h
  exact ⟨⟨he.informed (.inr ⟨c, before, hnamed, hgap, ht⟩), hinformed⟩, hnamed, before,
    hgap.cons_quiet he.quiet, ht⟩

theorem Standing.quiet {e : Event} {r : Option ChildStatus} (h : Standing t₀ r t es)
    (he : QuietBy t e) : Standing t₀ r t (e :: es) := by
  cases r with
  | none => exact Current.quiet h he
  | some c =>
    cases hc : c.isNamed with
    | false =>
      rw [standing_of_not_isNamed hc] at h ⊢
      exact h.quiet he
    | true =>
      rw [standing_of_isNamed hc] at h ⊢
      exact h.quiet he

theorem Standing.informed {r : Option ChildStatus} (h : Standing t₀ r t es) :
    Always (Event.Informed t₀) es := by
  cases r with
  | none => exact Current.informed h
  | some c =>
    cases hc : c.isNamed with
    | false =>
      rw [standing_of_not_isNamed hc] at h
      exact h.informed
    | true =>
      rw [standing_of_isNamed hc] at h
      exact h.informed

/-- **What such events leave alone is touched by no handler but the one for children.** -/
theorem guarded_left {R : JobTable → List Event → Prop} (hd : s₀.dispositions.CollectsOnChild)
    (hR : ∀ {t e es}, R t es → QuietBy t e → R t (e :: es)) : Guarded Signal.child (Left s₀ R) where
  host h := h
  mask h := h
  talk {s e} he hleft := by
    refine hleft.cons rfl rfl fun es hr => hR hr ⟨he.isQuiet, fun heq => ?_⟩
    rw [heq] at he
    exact he.elim
  forwards _ hleft _ _ := by
    refine hleft.cons rfl rfl fun es hr => hR hr ⟨trivial, fun heq => ?_⟩
    cases heq
    rfl
  handles hne hleft := hleft.cons rfl rfl fun es hr => hR hr ⟨hne, fun heq => nomatch heq⟩
  answered hne := absurd rfl hne
  observes hne := absurd rfl hne
  collects hleft := hleft.1.symm ▸ hd

/-! ## 3. The handler for children -/

section Collect

variable [Host σ] {E : Shell σ → Prop} {pause : Act σ Unit}

/-- **Collecting opens a gap**, if the change can be told. -/
theorem collect_standing :
    Meets (At (Left s₀ (Current t₀)) m) collect (fun r => At (Left s₀ (Standing t₀ r)) m) E := by
  refine meets_of_on on_collect fun s hs => ⟨?_, hs.2⟩
  refine hs.1.cons rfl rfl fun es h => ?_
  show Standing t₀ (Host.collect s.host).2 s.table (.ofAnswer (Host.collect s.host).2 :: es)
  cases (Host.collect s.host).2 with
  | none => exact ⟨⟨trivial, h.informed⟩, h.table⟩
  | some c =>
    cases hc : c.isNamed with
    | false =>
      rw [standing_of_not_isNamed hc]
      exact ⟨⟨trivial, h.informed⟩, h.table.trans (t₀.replay_cons_of_not_isNamed hc es).symm⟩
    | true =>
      rw [standing_of_isNamed hc]
      exact ⟨⟨trivial, h.informed⟩, hc, es, .start, h.table⟩

/-- **Bringing the table up to date closes it.** -/
theorem observe_current (hd : s₀.dispositions.CollectsOnChild) (c : ChildStatus) :
    Meets (At (Left s₀ (Behind t₀ c)) m) (observe c) (fun _ => At (Left s₀ (Current t₀)) m) E := by
  refine (guarded_left hd Behind.quiet).toCalm.observe c fun t => ?_
  refine meets_of_on (on_setJobs (t.observe c).1) fun s hs => ?_
  obtain ⟨⟨hleft, rfl⟩, hm⟩ := hs
  refine ⟨hleft.cons (e := .used s.mask) rfl rfl fun es h => ?_, hm⟩
  obtain ⟨hinformed, hnamed, before, hgap, ht⟩ := h
  refine ⟨⟨trivial, hinformed⟩, ?_⟩
  show (s.table.observe c).1 = t₀.replay (.used s.mask :: es)
  rw [ht, t₀.replay_cons_of_isQuiet (e := .used s.mask) trivial, hgap.replay hnamed]

/-- **The handler for children leaves the table up to date**, and no signal that is passed on
meanwhile goes by a table older than the one before the gap. -/
theorem outlives_current (hd : s₀.dispositions.CollectsOnChild) :
    Outlives Signal.child (Left s₀ (Current t₀)) (Left s₀ (Bygone t₀)) := by
  intro pause hp m hm
  have current : Guarded Signal.child (Left s₀ (Current t₀)) := guarded_left hd Current.quiet
  have standing : ∀ c, Guarded Signal.child (Left s₀ (Standing t₀ (some c))) :=
    fun _ => guarded_left hd Standing.quiet
  have bygone : ∀ s, Left s₀ (Current t₀) s → Left s₀ (Bygone t₀) s :=
    fun _ h => h.mono fun _ _ h => h.informed
  unfold handle
  refine (react_child_meets (fun _ => current.collects) fun bound =>
    collectAll_rule (K := Left s₀ (Current t₀)) current.toLoose (fun c => (standing c).toLoose)
      bygone (hp _ _ current bygone m hm)
      (fun c => hp _ _ (standing c) (fun _ h => h.mono fun _ _ h => h.informed) m hm)
      collect_standing (fun c hc => ?_) (fun s h => h) (fun c s hc h => ?_) bound).bind fun _ => ?_
  · rw [standing_of_isNamed hc]
    exact observe_current hd c
  · rwa [standing_of_not_isNamed hc] at h
  · refine meets_get_bind fun s hs => meets_modify fun s' e => ?_
    subst e
    exact ⟨hs.1.cons rfl rfl fun es h => ⟨⟨trivial, h.informed⟩, h.table⟩, hs.2⟩

end Collect

/-! ## 4. Whole runs -/

section Runs

variable [Host σ]

theorem lasts_current (hd : s.dispositions.CollectsOnChild) (t₀ : JobTable) :
    Lasts s (Current t₀) (Bygone t₀) where
  aside _ _ _ he h := h.aside he
  added hadd h := by
    refine ⟨⟨trivial, h.informed⟩, ?_⟩
    rw [JobTable.replay, ← h.table, JobTable.apply_add_of_ok hadd]
  restated {t t' es id state} hset h := by
    refine ⟨⟨trivial, h.informed⟩, ?_⟩
    show t' = (t₀.replay es).withState id state
    rw [← h.table, JobTable.withState, hset]
    rfl
  ends h := h.informed
  deliver depth m :=
    deliver_meets _ depth Signal.child _ (guarded_left hd Current.quiet)
      (fun _ h => h.mono fun _ _ h => h.informed) m (Or.inr (outlives_current hd))

/-- **In every run signals go by the table of that moment**, or by the one before a gap. -/
theorem informed_conduct (hd : s.dispositions.CollectsOnChild) (rounds : List (Round σ)) :
    Left s (Bygone s.table) ((conduct rounds).on s).2 := by
  have start : At (Left s (Current s.table)) s.mask s := ⟨⟨rfl, [], rfl, trivial, rfl⟩, rfl⟩
  have run := (lasts_current hd s.table).conduct (m := s.mask)
    (fun _ t es pid _ h => ⟨⟨.inl h.table, h.informed⟩, h.table⟩) rounds
  exact (run.post fun _ _ hs => hs.1.mono fun _ _ h => h.informed).after start

/-- **Signals are passed on to the living, but for one gap.** In every run of a fresh shell in which
every end of a process can be told: a signal from the terminal that is passed on goes to a process
that was collected after its end exactly if this end is the change of a gap, that is, if the handler
for children has collected it and not yet entered the critical section in which the job goes. -/
theorem passed_on_to_the_living (s : Shell σ) (hd : s.dispositions.CollectsOnChild)
    (hf : s.dispositions.PassesOn) (hempty : s.table = .empty) (htrace : s.trace = [])
    (rounds : List (Round σ)) {later earlier : List Event} {t : JobTable} {pid : Int} {n : Nat}
    (hrun : ((conduct rounds).on s).2.trace = later ++ .sentGroup t pid n :: earlier)
    (hn : n = Signal.interrupt ∨ n = Signal.terminalStop)
    (hnamed : ∀ c, .collected c ∈ earlier → c.isNamed = true) :
    (endOf? pid earlier).isSome = true ↔
      ∃ c before, Gap earlier c before ∧ c.pid = pid ∧ c.isEnd = true := by
  have hwf : s.table.WellFormed := hempty ▸ JobTable.wellFormed_empty
  have whole : ∀ {es : List Event}, ((conduct rounds).on s).2.trace = es ++ s.trace →
      es = later ++ .sentGroup t pid n :: earlier := by
    intro es h
    rw [htrace, List.append_nil] at h
    exact h.symm.trans hrun
  -- The job of this process is in the foreground of the table by which the signal is sent.
  have hfg : t.foregroundPid? = some pid := by
    obtain ⟨-, es, hes, hsure⟩ := sure_conduct hd hf hwf rounds
    rw [whole hes] at hsure
    refine ((hsure.aimed (List.mem_append_right later List.mem_cons_self)).1.purpose.resolve_right
      fun hresume => ?_).2
    rcases hn with rfl | rfl
    · cases hresume
    · cases hresume
  have hfits : Always (Event.Fits .empty) earlier := by
    obtain ⟨es, hstretch⟩ := (conduct_course hd hwf (hempty ▸ rfl) rounds).1
    have hfits := hstretch.fits
    rw [whole hstretch.trace, hempty] at hfits
    exact (always_append.1 hfits).2.2
  have hinformed : Event.Informed .empty (.sentGroup t pid n) earlier := by
    obtain ⟨-, es, hes, hinformed⟩ := informed_conduct hd rounds
    rw [whole hes, hempty] at hinformed
    exact (always_append.1 hinformed).2.1
  constructor
  · intro hgone
    rcases hinformed with rfl | ⟨c, before, hc, hgap, rfl⟩
    · rw [endOf?_of_foregroundPid? hfits hnamed hfg] at hgone
      cases hgone
    · obtain ⟨since, rfl, hquiet⟩ := id hgap
      have hbefore : endOf? pid before = none :=
        endOf?_of_foregroundPid? (always_append.1 hfits).2.2
          (fun d hd => hnamed d (List.mem_append_right since (List.mem_cons_of_mem _ hd))) hfg
      rw [hgap.endOf?, hbefore] at hgone
      split at hgone
      · rename_i hown
        exact ⟨c, before, hgap, hown⟩
      · cases hgone
  · intro hgap
    obtain ⟨c, before, hgap, hown⟩ := hgap
    rw [hgap.endOf?, if_pos hown]
    rfl

end Runs

/-! ## 5. The gap is reached -/

/-- A world in which the only child ends as soon as the shell sleeps, and a stop from the terminal
arrives just when that is collected. -/
structure LateStop where
  waiting : List Nat := []
  report : Option ChildStatus := none

instance : Host LateStop where
  write w _ := (w, true)
  read w := (w, [])
  files _ := .empty
  withFiles w _ := w
  fork w _ := (w, .ok 61001)
  send w _ _ := w
  sendGroup w _ _ := (w, none)
  collect w :=
    match w.report with
    | none => (w, none)
    | some c => ({ waiting := [Signal.terminalStop] }, some c)
  pending w := w.waiting
  take w n := { w with waiting := w.waiting.erase n }
  sleep _ _ := { waiting := [Signal.child], report := some ⟨61001, .exited 0⟩ }
  pass w _ := w

/-- A fresh shell in this world. -/
def lateStop : Shell LateStop := { host := {} }

/-- The group that a signal was last sent to, and the events before. -/
def lastSending? (n : Nat) : List Event → Option (JobTable × Int × List Event)
  | [] => none
  | .sentGroup t pid k :: es => if k = n then some (t, pid, es) else lastSending? n es
  | _ :: es => lastSending? n es

theorem lastSending?_eq_some {trace : List Event} {n : Nat} {t : JobTable} {pid : Int}
    {es : List Event} (h : lastSending? n trace = some (t, pid, es)) :
    ∃ later, trace = later ++ .sentGroup t pid n :: es := by
  induction trace with
  | nil => cases h
  | cons e trace ih =>
    have skip : lastSending? n trace = some (t, pid, es) →
        ∃ later, e :: trace = later ++ .sentGroup t pid n :: es := by
      intro h'
      obtain ⟨later, hlater⟩ := ih h'
      exact ⟨e :: later, congrArg (e :: ·) hlater⟩
    cases e with
    | sentGroup t' pid' k =>
      rw [lastSending?] at h
      split at h
      · rename_i hk
        cases h
        exact ⟨[], by rw [hk, List.nil_append]⟩
      · exact skip h
    | _ => exact skip h

/-- What is collected can be told. -/
def namesCollected : Event → Bool
  | .collected c => c.isNamed
  | _ => true

/-- **The gap is no matter of form**: here a stop is passed on to the process whose end was just
collected. -/
theorem passed_on_in_the_gap :
    ∃ later t pid earlier, ((conduct [.line "cat"]).on lateStop).2.trace =
        later ++ .sentGroup t pid Signal.terminalStop :: earlier ∧
      ∃ c before, Gap earlier c before ∧ c.pid = pid ∧ c.isEnd = true := by
  have found : (lastSending? Signal.terminalStop
      ((conduct [.line "cat"]).on lateStop).2.trace).any (fun x =>
        (endOf? x.2.1 x.2.2).isSome && x.2.2.all namesCollected) = true := by decide +kernel
  cases hlast : lastSending? Signal.terminalStop ((conduct [.line "cat"]).on lateStop).2.trace with
  | none =>
    rw [hlast] at found
    cases found
  | some x =>
    obtain ⟨t, pid, earlier⟩ := x
    rw [hlast] at found
    obtain ⟨hgone, hnamed⟩ := Bool.and_eq_true_iff.1 found
    obtain ⟨later, hrun⟩ := lastSending?_eq_some hlast
    refine ⟨later, t, pid, earlier, hrun, ?_⟩
    exact (passed_on_to_the_living lateStop Dispositions.collectsOnChild_installed
      Dispositions.passesOn_installed rfl rfl _ hrun (Or.inr rfl)
      fun c hc => List.all_eq_true.1 hnamed _ hc).1 hgone

end Shell

end JobShell
