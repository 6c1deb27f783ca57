import JobShell.Process.Kernel

/-!
# A child on its way to its program

Before a child starts its program it is a copy of the shell. It takes back what the shell ignores,
and leaves the handlers of the shell to the start of the program, which forgets them.

* `Kernel.Becomes` is one thing that happens to a kernel: a launch, a signal, a step of a process, a
  collected change. `Kernel.Reachable` is what such things lead to.
* `Process.AsLaunched` says which signals a child blocks and what is arranged for them at each stage
  of its way, and `Kernel.Reachable.asLaunched` that this holds whatever happens.
* `Kernel.launching_child_keeps_handlers` is what follows for a signal that reaches a child on its
  way: it waits while the child blocks it and then a handler of the shell runs, in the child. It
  never has its default effect, and none is left for the program.
-/

namespace JobShell

/-! ## 1. Stages -/

/-- A launch by a shell that blocks nothing and has installed its handlers. -/
structure Launch.OfShell (l : Launch) : Prop where
  unblocked : l.block.before = .none
  installed : l.dispositions = Dispositions.defaults.installed

/-- What is arranged for signals at a stage. -/
def Stage.dispositions (l : Launch) : Stage → Dispositions
  | .input | .output | .release => l.dispositions
  | .unblock | .join | .start => l.dispositions.released

/-- The signals that are blocked at a stage. -/
def Stage.mask (l : Launch) : Stage → Mask
  | .input | .output | .release | .unblock => l.mask
  | .join | .start => l.block.leave

namespace Process

/-- **A child on its way is as the shell launched it and as far as its stage says.** -/
structure AsLaunched (p : Process) (s : Setup) : Prop where
  ofShell : s.launch.OfShell
  dispositions : p.dispositions = s.stage.dispositions s.launch
  mask : p.mask = s.stage.mask s.launch

/-- A process that is on its way is as it was launched. -/
def Sound (p : Process) : Prop := ∀ s, p.activity = .setup s → p.AsLaunched s

/-- Two processes do the same with the same arrangements. -/
structure Alike (p q : Process) : Prop where
  mask : q.mask = p.mask
  dispositions : q.dispositions = p.dispositions
  activity : q.activity = p.activity

variable {p q : Process} {s : Setup} {n : Nat}

theorem Sound.alike (hp : p.Sound) (h : p.Alike q) : q.Sound := by
  intro s hs
  obtain ⟨hshell, hd, hm⟩ := hp s (h.activity.symm.trans hs)
  exact ⟨hshell, h.dispositions.trans hd, h.mask.trans hm⟩

/-- A process that runs a program, or waits, is on no way. -/
theorem sound_of_not_setup (h : ∀ s, p.activity ≠ .setup s) : p.Sound :=
  fun s hs => absurd hs (h s)

theorem Alike.refl (p : Process) : p.Alike p := ⟨rfl, rfl, rfl⟩

theorem Alike.trans {r : Process} (h : p.Alike q) (h' : q.Alike r) : p.Alike r :=
  ⟨h'.mask.trans h.mask, h'.dispositions.trans h.dispositions, h'.activity.trans h.activity⟩

theorem alike_took (p : Process) (n : Nat) : p.Alike (p.took n) := ⟨rfl, rfl, rfl⟩

theorem alike_finish (p : Process) (c : Change) : p.Alike (p.finish c) := ⟨rfl, rfl, rfl⟩

theorem alike_stop (p : Process) (n : Nat) : p.Alike (p.stop n) := ⟨rfl, rfl, rfl⟩

theorem alike_withWaiting (p : Process) (n : Nat) : p.Alike (p.withWaiting n) := ⟨rfl, rfl, rfl⟩

/-- What a signal does to a process at once, when it is sent. -/
def prepared (p : Process) (n : Nat) : Process :=
  match Signal.effect n with
  | .resumes => if p.condition = .stopped then p.withoutStops.resume else p.withoutStops
  | .stops => { p with waiting := p.waiting.filter (· ≠ Signal.resume) }
  | _ => p

theorem alike_prepared (p : Process) (n : Nat) : p.Alike (p.prepared n) := by
  unfold prepared
  split
  · split
    · exact ⟨rfl, rfl, rfl⟩
    · exact ⟨rfl, rfl, rfl⟩
  · exact ⟨rfl, rfl, rfl⟩
  · exact .refl p

theorem post_eq (p : Process) (n : Nat) :
    p.post n =
      if p.condition = .ended ∨ n = 0 then p
      else if (p.prepared n).drops n then p.prepared n else (p.prepared n).withWaiting n :=
  rfl

/-- **A signal that is sent changes neither what a process does nor what it arranged.** -/
theorem alike_post (p : Process) (n : Nat) : p.Alike (p.post n) := by
  rw [post_eq]
  split
  · exact .refl p
  · split
    · exact alike_prepared p n
    · exact (alike_prepared p n).trans (alike_withWaiting _ n)

end Process

/-! ## 2. What can happen -/

namespace Kernel

/-- **One thing that happens to a kernel.** Processes do their steps in any order, and signals reach
them between any two. -/
inductive Becomes : Kernel → Kernel → Prop where
  | fork {k l} : l.OfShell → Becomes k (k.fork l).1
  | spawn {k a} : Becomes k (k.spawn a).1
  | post {k pid n} : Becomes k (k.post pid n)
  | postGroup {k group n} : Becomes k (k.postGroup group n).1
  | collect {k} : Becomes k k.collect.1
  | advance {k p} : p ∈ k.processes → Becomes k (k.advance p)
  | passTime {k k'} : k.passTime? = some k' → Becomes k k'
  /-- The shell writes, reads or changes files. -/
  | around {k around} : Becomes k { k with around }
  /-- The shell takes signals. -/
  | pending {k pending} : Becomes k { k with pending }

/-- What can become of a kernel without processes. -/
inductive Reachable : Kernel → Prop where
  | start {around} : Reachable { around }
  | step {k k'} : Reachable k → Becomes k k' → Reachable k'

/-- Something holds of every process. -/
def All (P : Process → Prop) (k : Kernel) : Prop := ∀ p ∈ k.processes, P p

/-- Every process that is on its way is as it was launched. -/
abbrev Sound (k : Kernel) : Prop := k.All Process.Sound

section Sound

variable {k : Kernel} {p q : Process} {s : Setup} {n : Nat}

theorem Sound.put (hk : k.Sound) (hq : q.Sound) : (k.put q).Sound := by
  intro p hp
  obtain ⟨r, hr, rfl⟩ := List.mem_map.1 hp
  split
  · exact hq
  · exact hk r hr

theorem Sound.change (hk : k.Sound) (hq : q.Sound) : (k.change q).Sound := hk.put hq

theorem sound_append (hk : k.Sound) (hq : q.Sound) {ps : List Process}
    (hps : ps = k.processes ++ [q]) : ∀ p ∈ ps, p.Sound := by
  subst hps
  intro p hp
  rcases List.mem_append.1 hp with hold | hnew
  · exact hk p hold
  · rwa [List.mem_singleton.1 hnew]

theorem Sound.fork (hk : k.Sound) {l : Launch} (hl : l.OfShell) : (k.fork l).1.Sound := by
  unfold Kernel.fork
  split
  · refine sound_append hk (q := k.newborn l) ?_ rfl
    intro s hs
    cases hs
    exact ⟨hl, rfl, rfl⟩
  · exact hk

theorem Sound.spawn (hk : k.Sound) (a : OnContinue) : (k.spawn a).1.Sound :=
  sound_append hk (fun s hs => by cases hs) rfl

/-! ### Signals -/

theorem Sound.postTo (hk : k.Sound) (hp : p.Sound) (n : Nat) : (k.postTo p n).Sound := by
  have hpost : (p.post n).Sound := hp.alike (p.alike_post n)
  unfold Kernel.postTo
  dsimp only
  split
  · exact hk.change hpost
  · exact hk.put hpost

theorem Sound.process? (hk : k.Sound) {pid : Int} (h : k.process? pid = some p) : p.Sound :=
  hk p (List.mem_of_find?_eq_some h)

theorem Sound.postEach (hk : k.Sound) (n : Nat) (pids : List Int) : (k.postEach n pids).Sound := by
  induction pids generalizing k with
  | nil => exact hk
  | cons pid pids ih =>
    rw [Kernel.postEach]
    cases h : k.process? pid with
    | none => exact ih hk
    | some p => exact ih (hk.postTo (hk.process? h) n)

theorem Sound.post (hk : k.Sound) (pid : Int) (n : Nat) : (k.post pid n).Sound := by
  unfold Kernel.post
  split
  · split
    · exact hk
    · exact hk
  · exact hk.postEach n [pid]

theorem Sound.postGroup (hk : k.Sound) (group : Int) (n : Nat) : (k.postGroup group n).1.Sound := by
  unfold Kernel.postGroup
  split
  · exact hk
  · exact hk.postEach n _

theorem Sound.postTarget (hk : k.Sound) (target : Int) (n : Nat) :
    (k.postTarget target n).Sound := by
  unfold Kernel.postTarget
  split
  · exact hk.postGroup _ n
  · exact hk.post _ n

theorem Sound.postAll (hk : k.Sound) (signals : List (Int × Nat)) : (k.postAll signals).Sound := by
  induction signals generalizing k with
  | nil => exact hk
  | cons signal signals ih => exact ih (hk.postTarget signal.1 signal.2)

theorem Sound.collect (hk : k.Sound) : k.collect.1.Sound := by
  unfold Kernel.collect
  split
  · exact hk
  · rename_i p hfind
    dsimp only
    split
    · exact fun q hq => hk q (List.mem_filter.1 hq).1
    · exact hk.put ((hk p (List.mem_of_find?_eq_some hfind)).alike ⟨rfl, rfl, rfl⟩)

/-! ### Steps of a process -/

theorem Sound.handle (hk : k.Sound) (hp : p.Sound) (n : Nat) (h : Handler) :
    (k.handle p n h).Sound := by
  unfold Kernel.handle
  split
  · split
    · exact hk.postGroup _ n
    · exact hk
  · exact Sound.change (k := { k with around := _ }) hk (hp.alike (p.alike_finish _))
  · split
    · exact hk.put (Process.sound_of_not_setup fun _ h => nomatch h)
    · exact hk
  · exact hk
  · exact hk.change (hp.alike (p.alike_finish _))
  · exact hk.post _ _
  · exact hk.post _ _
  · exact hk

theorem Sound.take (hk : k.Sound) (hp : p.Sound) (n : Nat) : (k.take p n).Sound := by
  have htook : (p.took n).Sound := hp.alike (p.alike_took n)
  unfold Kernel.take
  dsimp only
  split
  · exact hk.put htook
  · exact (hk.put htook).handle htook n _
  · split
    · exact hk.change (htook.alike (Process.alike_finish _ _))
    · exact hk.change (htook.alike (Process.alike_stop _ _))
    · exact hk.put htook

theorem Sound.giveUp (hk : k.Sound) (hp : p.Sound) (s : Setup) (o : Obstacle) :
    (k.giveUp p s o).Sound :=
  Sound.change (k := { k with around := _ }) hk (hp.alike (p.alike_finish _))

/-- **The stages of a child on its way**: each leaves it as the next one says. -/
theorem Sound.setUp (hk : k.Sound) (hp : p.Sound) (hs : p.activity = .setup s) :
    (k.setUp p s).Sound := by
  obtain ⟨hshell, hd, hm⟩ := hp s hs
  unfold Kernel.setUp
  cases hstage : s.stage with
  | input =>
    rw [hstage] at hd hm
    dsimp only
    split
    · refine hk.put ?_
      intro s' hs'
      cases hs'
      exact ⟨hshell, hd, hm⟩
    · exact hk.giveUp hp s _
  | output =>
    rw [hstage] at hd hm
    dsimp only
    split
    · refine Sound.put (k := { k with around := _ }) hk ?_
      intro s' hs'
      cases hs'
      exact ⟨hshell, hd, hm⟩
    · exact hk.giveUp hp s _
  | release =>
    rw [hstage] at hd hm
    refine hk.put ?_
    intro s' hs'
    cases hs'
    exact ⟨hshell, congrArg Dispositions.released hd, hm⟩
  | unblock =>
    rw [hstage] at hd hm
    refine hk.put ?_
    intro s' hs'
    cases hs'
    exact ⟨hshell, hd, rfl⟩
  | join =>
    rw [hstage] at hd hm
    refine hk.put ?_
    intro s' hs'
    cases hs'
    exact ⟨hshell, hd, hm⟩
  | start =>
    dsimp only
    split
    · exact hk.put (Process.sound_of_not_setup fun _ h => nomatch h)
    · exact hk.giveUp hp s _

theorem Sound.doWork (hk : k.Sound) (hp : p.Sound) (w : Work) : (k.doWork p w).Sound := by
  unfold Kernel.doWork
  dsimp only
  split
  · exact Sound.change (k := { k with around := _ }) hk (hp.alike (p.alike_finish _))
  · refine Sound.postAll ?_ _
    exact Sound.put (k := { k with around := _ }) hk
      (Process.sound_of_not_setup fun _ h => nomatch h)

theorem Sound.advance (hk : k.Sound) (hp : p.Sound) : (k.advance p).Sound := by
  unfold Kernel.advance
  split
  · exact hk.take hp _
  · split
    · rename_i s hs
      exact hk.setUp hp hs
    · exact hk.doWork hp _
    · exact hk

theorem Sound.passTime? (hk : k.Sound) {k' : Kernel} (h : k.passTime? = some k') : k'.Sound := by
  obtain ⟨t, -, rfl⟩ := Option.map_eq_some_iff.1 h
  intro q hq
  obtain ⟨p, hp, rfl⟩ := List.mem_map.1 hq
  have hsound : p.Sound := hk p hp
  unfold Process.refreshed
  split
  · exact Process.sound_of_not_setup fun _ h => nomatch h
  · exact hsound

/-! ### Everything -/

/-- **Whatever happens leaves every child on its way as its stage says.** -/
theorem Sound.becomes (hk : k.Sound) {k' : Kernel} (h : k.Becomes k') : k'.Sound := by
  cases h with
  | fork hl => exact hk.fork hl
  | spawn => exact hk.spawn _
  | post => exact hk.post _ _
  | postGroup => exact hk.postGroup _ _
  | collect => exact hk.collect
  | advance hp => exact hk.advance (hk _ hp)
  | passTime h => exact hk.passTime? h
  | around => exact hk
  | pending => exact hk

theorem Reachable.sound (h : k.Reachable) : k.Sound := by
  induction h with
  | start => exact fun p hp => nomatch hp
  | step _ hstep ih => exact ih.becomes hstep

/-- What the kernel does of its own accord is among what can happen. -/
theorem Reachable.settleFor (h : k.Reachable) (bound : Nat) (m : Mask) :
    (k.settleFor bound m).Reachable := by
  induction bound generalizing k with
  | zero => exact h
  | succ bound ih =>
    rw [Kernel.settleFor]
    split
    · exact h
    · split
      · rename_i k' hstep
        obtain ⟨p, hp, rfl⟩ := Option.map_eq_some_iff.1 hstep
        exact ih (h.step (.advance (List.mem_reverse.1 (List.mem_of_find?_eq_some hp))))
      · exact h

end Sound

end Kernel

/-! ## 3. Signals on the way -/

namespace Process

variable {p : Process} {s : Setup} {n : Nat}

/-- The signal that is taken first is one of those there are. -/
theorem mem_of_first? {ns : List Nat} (h : p.first? ns = some n) : n ∈ ns := by
  refine List.foldlRecOn (motive := fun best => ∀ n, best = some n → n ∈ ns) ns _
    (fun n h => by cases h) (fun best ih m hm n h => ?_) n h
  split at h
  · cases h
    exact hm
  · rename_i b
    split at h
    · exact ih n h
    · cases h
      exact hm

/-- If there is one, some signal is taken first. -/
theorem first?_cons_ne_none {m : Nat} {ns : List Nat} : p.first? (m :: ns) ≠ none := by
  refine List.foldlRecOn (motive := (· ≠ none)) ns _ (Option.some_ne_none m)
    (fun best ih k hk => ?_)
  split
  · exact Option.some_ne_none k
  · split
    · exact Option.some_ne_none _
    · exact Option.some_ne_none k

/-- **A signal that is taken is not blocked**, unless nothing can block it. -/
theorem blocks_of_next? (h : p.next? = some n) (hn : Signal.isForced n = false) :
    p.mask.blocks n = false := by
  unfold next? at h
  split at h
  · cases h
  · have hkill := List.find?_some h
    rw [of_decide_eq_true hkill] at hn
    cases hn
  · have hdue := (List.mem_filter.1 (mem_of_first? h)).2
    simpa [hn] using hdue

/-- **A running process that takes no signal has none waiting that it does not block.** -/
theorem not_mem_waiting_of_next? (h : p.next? = none) (hrun : p.condition = .running)
    (hn : p.mask.blocks n = false) : n ∉ p.waiting := by
  intro hmem
  unfold next? at h
  rw [hrun] at h
  have hdue : n ∈ p.waiting.filter fun n => Signal.isForced n || !p.mask.blocks n :=
    List.mem_filter.2 ⟨hmem, by simp [hn]⟩
  dsimp only at h
  cases hlist : p.waiting.filter fun n => Signal.isForced n || !p.mask.blocks n with
  | nil =>
    rw [hlist] at hdue
    cases hdue
  | cons m ns =>
    rw [hlist] at h
    exact first?_cons_ne_none h

/-- A signal that a handler is arranged for waits from when it is sent. -/
theorem mem_waiting_post {h : Handler} (hreaction : p.reaction n = .handler h) (hn : n ≠ 0)
    (hcond : p.condition ≠ .ended) : n ∈ (p.post n).waiting := by
  have halike := p.alike_prepared n
  have hkeeps : (p.prepared n).drops n = false := by
    have hprep : (p.prepared n).reaction n = .handler h := by
      rw [← hreaction, reaction, reaction, halike.dispositions]
    rw [drops, hprep]
    simp
  rw [post_eq, if_neg (not_or.2 ⟨hcond, hn⟩), if_neg (by simp [hkeeps])]
  unfold withWaiting
  dsimp only
  split
  · rename_i hold
    simpa using hold
  · exact List.mem_append_right _ List.mem_cons_self

end Process

/-! ## 4. The handlers of the shell in a child -/

/-- The signals from outside that the shell has handlers for. -/
def Signal.IsIntercepted (n : Nat) : Prop := n = interrupt ∨ n = terminalStop ∨ n = quit

/-- The handler of the shell for such a signal. -/
def Handler.ofSignal (n : Nat) : Handler := if n = Signal.quit then .leave else .forward

/-- What the shell arranged for such a signal is arranged at every stage. -/
theorem Stage.dispositions_of {l : Launch} (hl : l.OfShell) {n : Nat} (hn : Signal.IsIntercepted n)
    (stage : Stage) : (stage.dispositions l).of n = .handler (.ofSignal n) := by
  have hbefore : l.dispositions.of n = .handler (.ofSignal n) := by
    rw [hl.installed]
    rcases hn with rfl | rfl | rfl <;> rfl
  have hafter : l.dispositions.released.of n = .handler (.ofSignal n) := by
    rw [← hbefore]
    rcases hn with rfl | rfl | rfl <;> rfl
  cases stage with
  | input | output | release => exact hbefore
  | unblock | join | start => exact hafter

/-- **What becomes of a signal that reaches a child on its way.** -/
structure Process.KeepsHandler (k : Kernel) (p : Process) (s : Setup) (n : Nat) : Prop where
  /-- It never has its default effect: a handler of the shell is arranged for it. -/
  reaction : p.reaction n = .handler (.ofSignal n)
  /-- From when it is sent it waits. -/
  sent : p.condition ≠ .ended → n ∈ (p.post n).waiting
  /-- It is not taken before the block ends. -/
  held : s.stage ≠ .join → s.stage ≠ .start → p.next? ≠ some n
  /-- None is left when the program starts. -/
  taken : s.stage = .start → p.condition = .running → p.next? = none → n ∉ p.waiting
  /-- When it is taken to be passed on, nothing comes of it: the child knows of no job in the
  foreground. -/
  swallowed : n ≠ Signal.quit → s.launch.foreground = none → k.take p n = k.put (p.took n)
  /-- When it is taken as one to leave, the child ends as a shell does, not by the signal. -/
  left : n = Signal.quit → ∃ around, k.take p n =
    ({ k.put (p.took n) with around } : Kernel).change ((p.took n).finish (.exited 1))
  /-- The start of the program would have forgotten the handler. -/
  forgotten : s.stage = .start → p.dispositions.afterExec = Dispositions.defaults

theorem Kernel.handle_forward {k : Kernel} {p : Process} {s : Setup} {n : Nat}
    (hs : p.activity = .setup s) (h : s.launch.foreground = none) : k.handle p n .forward = k := by
  unfold handle
  rw [hs]
  dsimp only
  rw [h]

theorem Kernel.handle_leave {k : Kernel} {p : Process} {s : Setup} {n : Nat}
    (hs : p.activity = .setup s) :
    ∃ around, k.handle p n .leave = ({ k with around } : Kernel).change (p.finish (.exited 1)) := by
  unfold handle
  rw [hs]
  exact ⟨_, rfl⟩

/-- **A signal that reaches a child on its way to its program is handled as the shell would handle
it**, whatever else happened to the kernel. -/
theorem Kernel.launching_child_keeps_handlers {k : Kernel} (hk : k.Reachable) {p : Process}
    (hp : p ∈ k.processes) {s : Setup} (hs : p.activity = .setup s) {n : Nat}
    (hn : Signal.IsIntercepted n) : p.KeepsHandler k s n := by
  obtain ⟨hshell, hd, hm⟩ := hk.sound p hp s hs
  have hforced : Signal.isForced n = false := by
    rcases hn with rfl | rfl | rfl <;> rfl
  have hreaction : p.reaction n = .handler (.ofSignal n) := by
    rw [Process.reaction, hforced, hd]
    exact s.stage.dispositions_of hshell hn
  have htook : (p.took n).reaction n = .handler (.ofSignal n) := hreaction
  refine ⟨hreaction, fun hcond => ?_, fun hjoin hstart hnext => ?_, fun hstart hrun hnext => ?_,
    fun hquit hnobody => ?_, fun hquit => ?_, fun hstart => ?_⟩
  · refine Process.mem_waiting_post hreaction ?_ hcond
    rcases hn with rfl | rfl | rfl <;> decide
  · have hfree := Process.blocks_of_next? hnext hforced
    have hblocked : p.mask.blocks n = true := by
      rw [hm]
      cases hstage : s.stage with
      | join => exact absurd hstage hjoin
      | start => exact absurd hstage hstart
      | input | output | release | unblock => exact Mask.blocks_withAll _ hforced
    rw [hfree] at hblocked
    cases hblocked
  · refine Process.not_mem_waiting_of_next? hnext hrun ?_
    rw [hm, hstart]
    show s.launch.block.before.blocks n = false
    rw [hshell.unblocked]
    rfl
  · have hforward : Handler.ofSignal n = .forward := if_neg hquit
    unfold Kernel.take
    dsimp only
    rw [htook, hforward]
    exact Kernel.handle_forward hs hnobody
  · have hleave : Handler.ofSignal n = .leave := if_pos hquit
    unfold Kernel.take
    dsimp only
    rw [htook, hleave]
    exact Kernel.handle_leave hs
  · rw [hd, hstart]
    show s.launch.dispositions.released.afterExec = _
    rw [hshell.installed]
    exact Dispositions.afterExec_released_installed

/-- A program of the background gets an interrupt while its child still has everything blocked. When
the block has ended the interrupt is taken, and the child goes on as if none had been sent. -/
theorem Kernel.launching_child_keeps_handlers_interrupt :
    let l : Launch :=
      { command := { args := ["cat"], background := true }, block := ⟨.none⟩
        dispositions := Dispositions.defaults.installed }
    let launched : Kernel := (({ around := { files := .empty } } : Kernel).fork l).1
    let k := settleFor 4 (launched.post 61001 Signal.interrupt) .none
    ∃ p ∈ k.processes, ∃ s, p.activity = .setup s ∧ s.stage = .join ∧ p.condition = .running ∧
      p.next? = some Signal.interrupt ∧
      k.take p Signal.interrupt = k.put (p.took Signal.interrupt) ∧
      (p.took Signal.interrupt).waiting = [] := by
  intro l launched k
  have hlaunched : launched.Reachable := .step .start (.fork ⟨rfl, rfl⟩)
  have hk : k.Reachable := (hlaunched.step .post).settleFor 4 .none
  refine ⟨_, List.mem_cons_self, _, rfl, rfl, rfl, rfl, ?_, rfl⟩
  have hkeeps := launching_child_keeps_handlers hk List.mem_cons_self rfl
    (n := Signal.interrupt) (.inl rfl)
  exact hkeeps.swallowed (by decide) rfl

end JobShell
