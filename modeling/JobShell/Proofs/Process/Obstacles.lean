import JobShell.Process.Kernel

/-!
# Obstacles on the way to a program

A child opens its files and then starts its program. What it meets first that it cannot use is all
that it reports.

* `Command.Fails c files o files' target` says that `o` is the first obstacle of a command, which
  files are there when it is met, and where the output goes by then.
* `Kernel.Underway m pid n k k'` is a stretch of steps that no signal interrupts and during which a
  child has not started its program. `settle` and `sleep` go along such a stretch.
* `Kernel.Seats k pid s kc` says that `kc` is the kernel `k` with one more child, which has come as
  far as `s`; each stage has a lemma for it.
* `Command.Fails.underway` puts the stages together: the child reports its first obstacle once,
  where its output goes, and ends.
-/

namespace JobShell

/-! ## 1. The first obstacle -/

namespace Command

variable {c : Command} {files files₁ files₂ : FileTree} {o₁ o₂ : Obstacle} {t₁ t₂ : Target}

/-- The file to read from can be opened, if there is one. -/
def Reads (c : Command) (files : FileTree) : Prop :=
  ∀ path, c.infile = some path → ∃ place, files.openInput path = .ok place

/-- The file to write to can be opened, if there is one: the files afterwards, and where the output
goes. -/
inductive Opens (c : Command) (files : FileTree) : FileTree → Target → Prop
  | unredirected (hpath : c.outfile = none) : Opens c files files .shared
  | file {path : String} {files' : FileTree} {place : Place} (hpath : c.outfile = some path)
      (hopen : files.openOutput path = .ok (files', place)) : Opens c files files' (.file place)

/-- **The first obstacle of a command**, the files at that moment, and where the output goes. -/
inductive Fails (c : Command) (files : FileTree) : Obstacle → FileTree → Target → Prop
  | input {path : String} {r : Reason} (hpath : c.infile = some path)
      (hopen : files.openInput path = .error r) : Fails c files ⟨path, r⟩ files .shared
  | output {path : String} {r : Reason} (hreads : c.Reads files) (hpath : c.outfile = some path)
      (hopen : files.openOutput path = .error r) : Fails c files ⟨path, r⟩ files .shared
  | program {name : String} {args : List String} {r : Reason} {files' : FileTree}
      {target : Target} (hreads : c.Reads files) (hopens : c.Opens files files' target)
      (hargs : c.args = name :: args) (himage : files'.image name args = .error r) :
      Fails c files ⟨name, r⟩ files' target

theorem Opens.unique (h₁ : c.Opens files files₁ t₁) (h₂ : c.Opens files files₂ t₂) :
    files₁ = files₂ ∧ t₁ = t₂ := by
  cases h₁ with
  | unredirected hnone =>
    cases h₂ with
    | unredirected => exact ⟨rfl, rfl⟩
    | file hpath => cases hnone.symm.trans hpath
  | file hpath₁ hopen₁ =>
    cases h₂ with
    | unredirected hnone => cases hnone.symm.trans hpath₁
    | file hpath₂ hopen₂ =>
      cases Option.some.inj (hpath₁.symm.trans hpath₂)
      cases hopen₁.symm.trans hopen₂
      exact ⟨rfl, rfl⟩

theorem Reads.not_error (h : c.Reads files) {path : String} {r : Reason}
    (hpath : c.infile = some path) : files.openInput path ≠ .error r := by
  obtain ⟨place, hopen⟩ := h path hpath
  rw [hopen]
  exact fun he => by cases he

theorem Opens.not_error (h : c.Opens files files₁ t₁) {path : String} {r : Reason}
    (hpath : c.outfile = some path) : files.openOutput path ≠ .error r := by
  cases h with
  | unredirected hnone => cases hnone.symm.trans hpath
  | file hpath' hopen =>
    cases Option.some.inj (hpath.symm.trans hpath')
    rw [hopen]
    exact fun he => by cases he

/-- **There is one first obstacle.** -/
theorem Fails.unique (h₁ : c.Fails files o₁ files₁ t₁) (h₂ : c.Fails files o₂ files₂ t₂) :
    o₁ = o₂ ∧ files₁ = files₂ ∧ t₁ = t₂ := by
  cases h₁ with
  | input hpath₁ hopen₁ =>
    cases h₂ with
    | input hpath₂ hopen₂ =>
      cases Option.some.inj (hpath₁.symm.trans hpath₂)
      cases hopen₁.symm.trans hopen₂
      exact ⟨rfl, rfl, rfl⟩
    | output hreads => exact absurd hopen₁ (hreads.not_error hpath₁)
    | program hreads => exact absurd hopen₁ (hreads.not_error hpath₁)
  | output hreads₁ hpath₁ hopen₁ =>
    cases h₂ with
    | input hpath₂ hopen₂ => exact absurd hopen₂ (hreads₁.not_error hpath₂)
    | output hreads₂ hpath₂ hopen₂ =>
      cases Option.some.inj (hpath₁.symm.trans hpath₂)
      cases hopen₁.symm.trans hopen₂
      exact ⟨rfl, rfl, rfl⟩
    | program hreads₂ hopens₂ => exact absurd hopen₁ (hopens₂.not_error hpath₁)
  | program hreads₁ hopens₁ hargs₁ himage₁ =>
    cases h₂ with
    | input hpath₂ hopen₂ => exact absurd hopen₂ (hreads₁.not_error hpath₂)
    | output hreads₂ hpath₂ hopen₂ => exact absurd hopen₂ (hopens₁.not_error hpath₂)
    | program hreads₂ hopens₂ hargs₂ himage₂ =>
      obtain ⟨rfl, rfl⟩ := hopens₁.unique hopens₂
      cases hargs₁.symm.trans hargs₂
      cases himage₁.symm.trans himage₂
      exact ⟨rfl, rfl, rfl⟩

/-- One of the files that a command names cannot be opened. -/
def Unopened (c : Command) (files : FileTree) : Prop :=
  ¬ c.Reads files ∨ ∃ path r, c.outfile = some path ∧ files.openOutput path = .error r

/-- **Where a failed command reports**: on the shared stream if one of its files cannot be opened,
or it names none to write to. -/
theorem Fails.target_eq_shared_iff (h : c.Fails files o₁ files₁ t₁) :
    t₁ = .shared ↔ c.outfile = none ∨ c.Unopened files := by
  cases h with
  | input hpath hopen => exact iff_of_true rfl (Or.inr (Or.inl fun h => h.not_error hpath hopen))
  | output hreads hpath hopen => exact iff_of_true rfl (Or.inr (Or.inr ⟨_, _, hpath, hopen⟩))
  | program hreads hopens hargs himage =>
    have hopened : ¬ c.Unopened files := by
      rintro (hno | ⟨path, r, hpath, hopen⟩)
      · exact hno hreads
      · exact hopens.not_error hpath hopen
    cases hopens with
    | unredirected hnone => exact iff_of_true rfl (Or.inl hnone)
    | file hpath hopen =>
      refine iff_of_false (fun he => by cases he) ?_
      rintro (hnone | hbad)
      · cases hnone.symm.trans hpath
      · exact hopened hbad

/-- It has then changed no file. -/
theorem Fails.files_of_shared (h : c.Fails files o₁ files₁ .shared) : files₁ = files := by
  cases h with
  | input => rfl
  | output => rfl
  | program hreads hopens hargs himage =>
    cases hopens
    rfl

/-- Otherwise it reports in the file that its output goes to. -/
theorem Fails.openOutput_of_file {place : Place} (h : c.Fails files o₁ files₁ (.file place)) :
    ∃ path, c.outfile = some path ∧ files.openOutput path = .ok (files₁, place) := by
  cases h with
  | program hreads hopens hargs himage =>
    cases hopens with
    | file hpath hopen => exact ⟨_, hpath, hopen⟩

end Command

/-- What a failed command leaves of the surroundings: the files that its output was opened with, and
its report, which goes where its output goes. -/
def Surroundings.afterFailure (around : Surroundings) (o : Obstacle) (files : FileTree)
    (target : Target) : Surroundings :=
  (({ around with files } : Surroundings).write target (line o.text)).1

/-- Writing changes what was written and the files, and nothing else. -/
theorem Surroundings.exists_write (around : Surroundings) (t : Target) (bs : List UInt8) :
    ∃ output files, (around.write t bs).1 = { around with output, files } := by
  unfold write
  cases t with
  | shared =>
    dsimp only
    split
    · exact ⟨_, _, rfl⟩
    · exact ⟨_, _, rfl⟩
  | file place => exact ⟨_, _, rfl⟩

/-- No time passes meanwhile. -/
theorem Surroundings.clock_write (around : Surroundings) (t : Target) (bs : List UInt8) :
    (around.write t bs).1.clock = around.clock := by
  obtain ⟨output, files, h⟩ := around.exists_write t bs
  rw [h]

/-- As many processes can be started as before. -/
theorem Surroundings.processLimit_write (around : Surroundings) (t : Target) (bs : List UInt8) :
    (around.write t bs).1.processLimit = around.processLimit := by
  obtain ⟨output, files, h⟩ := around.exists_write t bs
  rw [h]

namespace Kernel

variable {k k' k'' : Kernel} {m : Mask} {pid : Int} {n : Nat}

/-! ## 2. Steps before the program -/

/-- A child has not started its program. -/
def Unstarted (k : Kernel) (pid : Int) : Prop :=
  ∃ p s, k.process? pid = some p ∧ p.activity = .setup s

/-- **Steps one after the other, while no signal interrupts the shell**; in front of each the child
has not started its program. -/
inductive Underway (m : Mask) (pid : Int) : Nat → Kernel → Kernel → Prop
  | nil (k : Kernel) : Underway m pid 0 k k
  | cons {n : Nat} {k k₁ k' : Kernel} (hcalm : k.interrupts m = false) (hchild : k.Unstarted pid)
      (hstep : k.step? = some k₁) (rest : Underway m pid n k₁ k') : Underway m pid (n + 1) k k'

theorem Underway.trans {n' : Nat} (h : Underway m pid n k k') (h' : Underway m pid n' k' k'') :
    Underway m pid (n' + n) k k'' := by
  induction h with
  | nil => exact h'
  | cons hcalm hchild hstep rest ih => exact .cons hcalm hchild hstep (ih h')

/-- Going on goes along the steps. -/
theorem Underway.settleFor (h : Underway m pid n k k') (bound : Nat) :
    Kernel.settleFor (bound + n) k m = Kernel.settleFor bound k' m := by
  induction h with
  | nil => rfl
  | cons hcalm hchild hstep rest ih =>
    rw [← Nat.add_assoc, Kernel.settleFor, hcalm, if_neg Bool.false_ne_true, hstep]
    exact ih

/-- Sleeping goes along the steps, too: no time passes while there is something to do. -/
theorem Underway.sleepFor (h : Underway m pid n k k') (bound : Nat) :
    Kernel.sleepFor (bound + n) k m = Kernel.sleepFor bound k' m := by
  induction h with
  | nil => rfl
  | cons hcalm hchild hstep rest ih =>
    rw [← Nat.add_assoc, Kernel.sleepFor, hcalm, if_neg Bool.false_ne_true, hstep]
    exact ih

/-- **A few steps up to a signal are all that the shell sleeps for.** -/
theorem Underway.sleep (h : Underway m pid n k k') (hfew : n ≤ patience)
    (hsignal : k'.interrupts m = true) : k.sleep m = k' := by
  obtain ⟨bound, hbound⟩ := Nat.exists_eq_add_of_le' hfew
  rw [Kernel.sleep, hbound, h.sleepFor]
  cases bound with
  | zero => rfl
  | succ n => rw [Kernel.sleepFor, if_pos hsignal]

/-- They are all that happens while the shell has nothing to do. -/
theorem Underway.settle (h : Underway m pid n k k') (hfew : n ≤ patience)
    (hsignal : k'.interrupts m = true) : k.settle m = k' := by
  obtain ⟨bound, hbound⟩ := Nat.exists_eq_add_of_le' hfew
  rw [Kernel.settle, hbound, h.settleFor]
  cases bound with
  | zero => rfl
  | succ n => rw [Kernel.settleFor, if_pos hsignal]

end Kernel

/-! ## 3. One more child -/

namespace Process

/-- A process runs, has no signal to take, and is on its way to its program. -/
structure OnWay (p : Process) (s : Setup) : Prop where
  running : p.condition = .running
  undisturbed : p.waiting = []
  activity : p.activity = .setup s

/-- A process has ended, and its parent has not collected that. -/
structure GivenUp (p : Process) : Prop where
  ended : p.condition = .ended
  report : p.report = some (.exited 0)

variable {p : Process} {s : Setup}

theorem OnWay.next? (h : p.OnWay s) : p.next? = none := by
  rw [Process.next?, h.running, h.undisturbed]
  rfl

theorem OnWay.isReady (h : p.OnWay s) (clock : Nat) : p.isReady clock = true := by
  rw [Process.isReady, h.running, h.activity]
  simp

end Process

namespace Kernel

variable {k k' kc : Kernel} {m : Mask} {p q : Process} {s : Setup} {pid : Int}

/-- No signal waits, and no child has changed. Children may have something to do. -/
structure Quiet (k : Kernel) : Prop where
  calm : k.pending = []
  unreported : ∀ p ∈ k.processes, p.report = none

/-- A quiet kernel in which nothing happens by itself. -/
structure Resting (k : Kernel) : Prop extends Quiet k where
  still : ∀ p ∈ k.processes, p.isReady k.around.clock = false

/-- A quiet kernel without a process of an identifier. -/
structure Free (k : Kernel) (pid : Int) : Prop extends Quiet k where
  unused : ∀ p ∈ k.processes, p.pid ≠ pid

/-- The kernel with one more child, the youngest. -/
def withChild (k : Kernel) (p : Process) : Kernel := { k with processes := k.processes ++ [p] }

theorem interrupts_of_calm (h : k.pending = []) (m : Mask) : k.interrupts m = false := by
  rw [interrupts, h]
  rfl

/-- The files and the streams do not matter. -/
theorem Free.withAround (h : k.Free pid) (around : Surroundings) :
    ({ k with around } : Kernel).Free pid where
  calm := h.calm
  unreported := h.unreported
  unused := h.unused

theorem process?_withChild (hk : k.Free p.pid) : (k.withChild p).process? p.pid = some p := by
  have hnone : k.processes.find? (·.pid == p.pid) = none :=
    List.find?_eq_none.2 fun q hq => by simpa using hk.unused q hq
  rw [process?, withChild, List.find?_append, hnone, Option.none_or, List.find?_singleton,
    beq_self_eq_true, if_pos rfl]

/-- It is the child that does the next thing, whatever the others have to do. -/
theorem step?_withChild (k : Kernel) (h : p.OnWay s) :
    (k.withChild p).step? = some ((k.withChild p).setUp p s) := by
  have hfind : (k.processes ++ [p]).reverse.find? (·.isReady k.around.clock) = some p := by
    rw [List.reverse_concat, List.find?_cons, h.isReady]
  have hadvance : (k.withChild p).advance p = (k.withChild p).setUp p s := by
    rw [advance, h.next?]
    dsimp only
    rw [h.activity]
  show ((k.processes ++ [p]).reverse.find? (·.isReady k.around.clock)).map _ = _
  rw [hfind, Option.map_some, hadvance]

/-- While nothing happens, nothing becomes of the kernel. -/
theorem Resting.settle (hk : k.Resting) (m : Mask) : k.settle m = k := by
  have hstep : k.step? = none := by
    rw [step?, List.find?_eq_none.2 fun q hq =>
      ne_true_of_eq_false (hk.still q (List.mem_reverse.1 hq))]
    rfl
  rw [Kernel.settle]
  cases patience with
  | zero => rfl
  | succ n =>
    rw [Kernel.settleFor, interrupts_of_calm hk.calm, if_neg Bool.false_ne_true, hstep]

/-- A change of the child leaves the others as they are. -/
theorem put_withChild (hk : k.Free p.pid) (hpid : q.pid = p.pid) :
    (k.withChild p).put q = k.withChild q := by
  have hsame : (k.processes.map fun r => if r.pid == q.pid then q else r) = k.processes := by
    refine (List.map_congr_left fun r hr => ?_).trans (List.map_id _)
    exact if_neg (by rw [hpid]; simpa using hk.unused r hr)
  unfold put withChild
  rw [List.map_append, hsame, List.map_singleton, hpid, beq_self_eq_true, if_pos rfl]

/-- **The kernel with one more child, which has come so far.** -/
def Seats (k : Kernel) (pid : Int) (s : Setup) (kc : Kernel) : Prop :=
  ∃ p, p.pid = pid ∧ p.OnWay s ∧ kc = k.withChild p

/-- **The kernel with one more child, which has given up**; the shell is told. -/
def Parts (k : Kernel) (pid : Int) (kc : Kernel) : Prop :=
  ∃ p, p.pid = pid ∧ p.GivenUp ∧ kc = (k.withChild p).notify Signal.child

/-- Writing, or changing files, makes no difference to the child. -/
theorem Seats.withAround (h : k.Seats pid s kc) (around : Surroundings) :
    ({ k with around } : Kernel).Seats pid s { kc with around } := by
  obtain ⟨p, hpid, hway, rfl⟩ := h
  exact ⟨p, hpid, hway, rfl⟩

/-- Where there is room, a child is started. -/
theorem fork_of_hasRoom (h : k.hasRoom = true) (l : Launch) :
    k.fork l = (({ k with nextPid := k.nextPid + 1 } : Kernel).withChild (k.newborn l),
      .ok k.nextPid) :=
  if_pos h

/-- A child that was just started has its whole way to go. -/
theorem seats_newborn (k : Kernel) (l : Launch) :
    ({ k with nextPid := k.nextPid + 1 } : Kernel).Seats k.nextPid { launch := l }
      (({ k with nextPid := k.nextPid + 1 } : Kernel).withChild (k.newborn l)) :=
  ⟨k.newborn l, rfl, ⟨rfl, rfl, rfl⟩, rfl⟩

/-! ## 4. Stages -/

section Stages

variable {l : Launch} {streams : Streams}

/-- The child does one thing. -/
theorem Seats.step (h : k.Seats pid s kc) (hk : k.Free pid) (m : Mask) :
    ∃ p, p.pid = pid ∧ p.OnWay s ∧ Underway m pid 1 kc ((k.withChild p).setUp p s) := by
  obtain ⟨p, rfl, hway, rfl⟩ := h
  have hcalm : (k.withChild p).interrupts m = false := interrupts_of_calm hk.calm m
  have hchild : (k.withChild p).Unstarted p.pid := ⟨p, s, process?_withChild hk, hway.activity⟩
  exact ⟨p, rfl, hway, .cons hcalm hchild (k.step?_withChild hway) (.nil _)⟩

/-- It gives up where something is in its way: it says what it is, and ends. -/
theorem Seats.giveUp (h : k.Seats pid s kc) (hk : k.Free pid) (m : Mask) {o : Obstacle}
    (hset : ∀ p, (k.withChild p).setUp p s = (k.withChild p).giveUp p s o) :
    ∃ kc', Underway m pid 1 kc kc' ∧
      ({ k with around := s.report k.around o } : Kernel).Parts pid kc' := by
  obtain ⟨p, rfl, hway, hstep⟩ := h.step hk m
  rw [hset p] at hstep
  refine ⟨_, hstep, p.finish (.exited 0), rfl, ⟨rfl, rfl⟩, ?_⟩
  rw [Kernel.giveUp, change]
  exact congrArg (notify · Signal.child) (put_withChild (hk.withAround _) rfl)

/-- Where nothing is in its way, it comes to its next stage. -/
theorem Seats.onward {s' : Setup} {around : Surroundings} (h : k.Seats pid s kc) (hk : k.Free pid)
    (m : Mask) (hset : ∀ p, p.OnWay s → ∃ q, q.pid = p.pid ∧ q.OnWay s' ∧
      (k.withChild p).setUp p s = (({ k with around } : Kernel).withChild p).put q) :
    ∃ kc', Underway m pid 1 kc kc' ∧ ({ k with around } : Kernel).Seats pid s' kc' := by
  obtain ⟨p, rfl, hway, hstep⟩ := h.step hk m
  obtain ⟨q, hpid, hway', hset⟩ := hset p hway
  exact ⟨_, hstep, q, hpid, hway', hset.trans (put_withChild (hk.withAround around) hpid)⟩

/-- The file to read from is open. -/
theorem Seats.input (h : k.Seats pid ⟨l, .input, streams⟩ kc) (hk : k.Free pid) (m : Mask)
    (hreads : l.command.Reads k.around.files) :
    ∃ input kc', Underway m pid 1 kc kc' ∧
      k.Seats pid ⟨l, .output, { streams with input }⟩ kc' := by
  obtain ⟨input, hopen⟩ : ∃ input, Setup.openInput ⟨l, .input, streams⟩ k.around =
      .ok { streams with input } := by
    unfold Setup.openInput
    cases hpath : l.command.infile with
    | none => exact ⟨streams.input, rfl⟩
    | some path =>
      obtain ⟨place, hplace⟩ := hreads path hpath
      simp only [hplace]
      exact ⟨.file place, rfl⟩
  refine ⟨input, h.onward hk m fun p hway => ?_⟩
  let q : Process := { p with activity := .setup ⟨l, .output, { streams with input }⟩ }
  refine ⟨q, rfl, ⟨hway.running, hway.undisturbed, rfl⟩, ?_⟩
  rw [setUp]
  simp only [withChild, hopen]
  rfl

/-- The file to write to is open. -/
theorem Seats.output (h : k.Seats pid ⟨l, .output, streams⟩ kc) (hk : k.Free pid) (m : Mask)
    (hshared : streams.output = .shared) {files : FileTree} {target : Target}
    (hopens : l.command.Opens k.around.files files target) :
    ∃ kc', Underway m pid 1 kc kc' ∧
      ({ k with around := { k.around with files } } : Kernel).Seats pid
        ⟨l, .release, { streams with output := target }⟩ kc' := by
  have hopen : Setup.openOutput ⟨l, .output, streams⟩ k.around =
      .ok ({ streams with output := target }, { k.around with files }) := by
    unfold Setup.openOutput
    cases hopens with
    | unredirected hnone => simp only [hnone, ← hshared]
    | file hpath hfile => simp only [hpath, hfile]
  refine h.onward hk m fun p hway => ?_
  let q : Process := { p with activity := .setup ⟨l, .release, { streams with output := target }⟩ }
  refine ⟨q, rfl, ⟨hway.running, hway.undisturbed, rfl⟩, ?_⟩
  rw [setUp]
  simp only [withChild, hopen]
  rfl

/-- From its files to its program, nothing can be in the way of a child. -/
theorem Seats.toProgram (h : k.Seats pid ⟨l, .release, streams⟩ kc) (hk : k.Free pid) (m : Mask) :
    ∃ kc', Underway m pid 3 kc kc' ∧ k.Seats pid ⟨l, .start, streams⟩ kc' := by
  obtain ⟨k₁, hrelease, h₁⟩ : ∃ k₁, Underway m pid 1 kc k₁ ∧
      k.Seats pid ⟨l, .unblock, streams⟩ k₁ := h.onward hk m fun p hway =>
    ⟨{ p with dispositions := p.dispositions.released, activity := .setup ⟨l, .unblock, streams⟩ },
      rfl, ⟨hway.running, hway.undisturbed, rfl⟩, rfl⟩
  obtain ⟨k₂, hunblock, h₂⟩ : ∃ k₂, Underway m pid 1 k₁ k₂ ∧
      k.Seats pid ⟨l, .join, streams⟩ k₂ := h₁.onward hk m fun p hway =>
    ⟨{ p with mask := l.block.leave, activity := .setup ⟨l, .join, streams⟩ },
      rfl, ⟨hway.running, hway.undisturbed, rfl⟩, rfl⟩
  obtain ⟨k₃, hjoin, h₃⟩ : ∃ k₃, Underway m pid 1 k₂ k₃ ∧
      k.Seats pid ⟨l, .start, streams⟩ k₃ := h₂.onward hk m fun p hway =>
    ⟨{ p with group := p.pid, activity := .setup ⟨l, .start, streams⟩ },
      rfl, ⟨hway.running, hway.undisturbed, rfl⟩, rfl⟩
  exact ⟨k₃, hrelease.trans (hunblock.trans hjoin), h₃⟩

end Stages

/-! ## 5. Collecting -/

theorem Parts.pending (h : k.Parts pid kc) (hk : k.Quiet) : kc.pending = [Signal.child] := by
  obtain ⟨p, -, -, rfl⟩ := h
  show insertSignal Signal.child k.pending = _
  rw [hk.calm]
  rfl

/-- Where no child has changed, nothing is handed out. -/
theorem Quiet.collect (hk : k.Quiet) : k.collect = (k, none) := by
  have hnone : k.processes.find? (·.report.isSome) = none := by
    refine List.find?_eq_none.2 fun p hp => ?_
    rw [hk.unreported p hp]
    exact Bool.false_ne_true
  rw [Kernel.collect, hnone]

/-- **A child that has given up is collected, and nothing is left of it.** -/
theorem Parts.collect (h : k.Parts pid kc) (hk : k.Free pid) :
    ({ kc with pending := [] } : Kernel).collect = (k, some ⟨pid, .exited 0⟩) := by
  obtain ⟨p, rfl, hgone, rfl⟩ := h
  have hothers : k.processes.find? (·.report.isSome) = none := by
    refine List.find?_eq_none.2 fun q hq => ?_
    rw [hk.unreported q hq]
    exact Bool.false_ne_true
  have hfind : (k.processes ++ [p]).find? (·.report.isSome) = some p := by
    rw [List.find?_append, hothers, Option.none_or, List.find?_singleton, hgone.report]
    rfl
  have hfilter : (k.processes ++ [p]).filter (·.pid != p.pid) = k.processes := by
    have hkeep : k.processes.filter (·.pid != p.pid) = k.processes :=
      List.filter_eq_self.2 fun q hq => bne_iff_ne.2 (hk.unused q hq)
    rw [List.filter_append, hkeep, List.filter_cons_of_neg (by simp), List.filter_nil,
      List.append_nil]
  have hcalm : ({ k with pending := [] } : Kernel) = k := by rw [← hk.calm]
  rw [Kernel.collect]
  dsimp only [notify, withChild]
  rw [hfind]
  simp only [hgone.ended, hgone.report, hfilter, hcalm, if_true, Option.map_some]

end Kernel

/-! ## 6. The whole way -/

namespace Command

open Kernel

variable {k kc : Kernel} {pid : Int} {l : Launch} {o : Obstacle} {files : FileTree}
  {target : Target}

/-- **A child whose command fails reports the first obstacle once, and ends**, after at most six
steps and without having started a program. -/
theorem Fails.underway (hfails : l.command.Fails k.around.files o files target)
    (h : k.Seats pid { launch := l } kc) (hk : k.Free pid) (m : Mask) :
    ∃ n kc', n ≤ 6 ∧ Underway m pid n kc kc' ∧
      ({ k with around := k.around.afterFailure o files target } : Kernel).Parts pid kc' := by
  cases hfails with
  | input hpath hopen =>
    obtain ⟨kc', hstep, hparts⟩ := h.giveUp hk m (o := ⟨_, _⟩) fun p => by
      rw [setUp]
      simp only [Setup.openInput, withChild, hpath, hopen]
      rfl
    exact ⟨1, kc', by omega, hstep, hparts⟩
  | output hreads hpath hopen =>
    obtain ⟨input, k₁, hinput, h₁⟩ := h.input hk m hreads
    obtain ⟨kc', hstep, hparts⟩ := h₁.giveUp hk m (o := ⟨_, _⟩) fun p => by
      rw [setUp]
      simp only [Setup.openOutput, withChild, hpath, hopen]
      rfl
    exact ⟨2, kc', by omega, hinput.trans hstep, hparts⟩
  | program hreads hopens hargs himage =>
    obtain ⟨input, k₁, hinput, h₁⟩ := h.input hk m hreads
    obtain ⟨k₂, houtput, h₂⟩ := h₁.output hk m rfl hopens
    obtain ⟨k₃, hstages, h₃⟩ := h₂.toProgram (hk.withAround _) m
    obtain ⟨kc', hstep, hparts⟩ := h₃.giveUp (hk.withAround _) m (o := ⟨_, _⟩) fun p => by
      rw [setUp]
      simp only [Setup.image, withChild, hargs, himage]
      rfl
    exact ⟨6, kc', by omega, hinput.trans (houtput.trans (hstages.trans hstep)), hparts⟩

end Command

end JobShell
