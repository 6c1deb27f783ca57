import JobShell.Proofs.Shell.Act
import JobShell.Shell.Session

/-!
# Acts that do not read

The shell reads its input between lines only. What it does about a line is the same whatever is left
of the input, if that makes no difference to the processes that it has started.

* `Kernel.hearing` changes what is left of the input. The lemmas after it say that this has nothing
  to do with what the shell asks of the kernel, as long as it does not let processes go on.
* `UnreadAt a s` says that an act does the same whatever is left of the input, and leaves it.
* `Watched` is a kernel that is watched: it remembers whether processes went on as they would have,
  whatever had been left of the input.
* `Mirrors` says that a shell does the same on a kernel whether it is watched or not;
  `Mirrors.unread` draws the conclusion. The lemmas named after the acts of the shell lead up to
  `mirrors_evaluate`.
-/

namespace JobShell

open Act

/-! ## 1. Kernels with other input -/

namespace Kernel

/-- The kernel with something else left of the input. -/
def hearing (k : Kernel) (bs : List UInt8) : Kernel :=
  { k with around := { k.around with input := bs } }

/-- Nothing but the output is different once something was written. -/
theorem write_eq (k : Kernel) (text : List UInt8) :
    Host.write k text =
      if k.around.outputFails then (k, text.isEmpty)
      else ({ k with around := { k.around with output := k.around.output ++ text } }, true) := by
  have hhost : Host.write k text =
      ({ k with around := (k.around.write .shared text).1 }, (k.around.write .shared text).2) := rfl
  by_cases h : k.around.outputFails = true
  · have hwrite : k.around.write .shared text = (k.around, text.isEmpty) := if_pos h
    rw [hhost, hwrite, if_pos h]
  · have hwrite : k.around.write .shared text =
      ({ k.around with output := k.around.output ++ text }, true) := if_neg h
    rw [hhost, hwrite, if_neg h]

/-- Writing has nothing to do with the input. -/
theorem write_hearing (k : Kernel) (bs text : List UInt8) :
    Host.write (k.hearing bs) text = ((Host.write k text).1.hearing bs, (Host.write k text).2) := by
  rw [write_eq, write_eq]
  by_cases h : k.around.outputFails = true
  · rw [if_pos h, if_pos (show (k.hearing bs).around.outputFails = true from h)]
  · rw [if_neg h, if_neg (show ¬ (k.hearing bs).around.outputFails = true from h)]
    rfl

theorem postTo_hearing (k : Kernel) (bs : List UInt8) (p : Process) (n : Nat) :
    (k.hearing bs).postTo p n = (k.postTo p n).hearing bs := by
  rw [postTo, postTo]
  split
  · rfl
  · rfl

theorem postEach_hearing (bs : List UInt8) (n : Nat) (pids : List Int) (k : Kernel) :
    (k.hearing bs).postEach n pids = (k.postEach n pids).hearing bs := by
  induction pids generalizing k with
  | nil => rfl
  | cons pid rest ih =>
    rw [postEach, postEach, show (k.hearing bs).process? pid = k.process? pid from rfl]
    cases k.process? pid with
    | none => exact ih k
    | some p =>
      simp only
      rw [postTo_hearing]
      exact ih _

theorem post_hearing (k : Kernel) (bs : List UInt8) (pid : Int) (n : Nat) :
    (k.hearing bs).post pid n = (k.post pid n).hearing bs := by
  rw [post, post]
  split
  · split
    · rfl
    · rfl
  · exact postEach_hearing bs n [pid] k

theorem postGroup_hearing (k : Kernel) (bs : List UInt8) (group : Int) (n : Nat) :
    (k.hearing bs).postGroup group n =
      ((k.postGroup group n).1.hearing bs, (k.postGroup group n).2) := by
  rw [postGroup, postGroup, show (k.hearing bs).members group = k.members group from rfl]
  cases k.members group with
  | nil => rfl
  | cons pid pids => exact Prod.ext (postEach_hearing bs n _ k) rfl

theorem fork_hearing (k : Kernel) (bs : List UInt8) (l : Launch) :
    Host.fork (k.hearing bs) l = ((Host.fork k l).1.hearing bs, (Host.fork k l).2) := by
  show Kernel.fork (k.hearing bs) l = ((Kernel.fork k l).1.hearing bs, (Kernel.fork k l).2)
  rw [fork, fork, show (k.hearing bs).hasRoom = k.hasRoom from rfl]
  split
  · rfl
  · rfl

theorem collect_hearing (k : Kernel) (bs : List UInt8) :
    (k.hearing bs).collect = (k.collect.1.hearing bs, k.collect.2) := by
  rw [collect, collect, show (k.hearing bs).processes = k.processes from rfl]
  cases k.processes.find? (·.report.isSome) with
  | none => rfl
  | some p =>
    simp only
    split
    · rfl
    · rfl

theorem takeAll_hearing (k : Kernel) (bs : List UInt8) (ns : List Nat) :
    ns.foldl Host.take (k.hearing bs) = (ns.foldl Host.take k).hearing bs := by
  induction ns generalizing k with
  | nil => rfl
  | cons n ns ih => exact ih (Host.take k n)

end Kernel

namespace Shell

variable {α β : Type} {s s' : Session}

/-- The session with something else left of the input. -/
def hearing (s : Shell Kernel) (bs : List UInt8) : Session := { s with host := s.host.hearing bs }

/-! ## 2. Acts that do not read -/

/-- **The act does the same whatever is left of the input, and leaves it.** -/
def UnreadAt (a : Act Kernel α) (s : Session) : Prop :=
  ∀ bs, a.on (s.hearing bs) = ((a.on s).1, (a.on s).2.hearing bs)

theorem UnreadAt.of_on {a : Act Kernel α} (h : UnreadAt a s) {r : Except Ending α}
    (hon : a.on s = (r, s')) (bs : List UInt8) : a.on (s.hearing bs) = (r, s'.hearing bs) := by
  rw [h bs, hon]

/-! ## 3. Watched kernels -/

/-- A kernel that is watched. -/
structure Watched where
  kernel : Kernel
  /-- Processes went on as they would have, whatever had been left of the input. -/
  deaf : Prop

/-- What is done to the kernel is the same whatever is left of the input, which stays as it is. -/
def Ignores (f : Kernel → Kernel) (k : Kernel) : Prop := ∀ bs, f (k.hearing bs) = (f k).hearing bs

instance : Host Watched where
  write w bs := ({ w with kernel := (Host.write w.kernel bs).1 }, (Host.write w.kernel bs).2)
  read w := ({ w with kernel := (Host.read w.kernel).1 }, (Host.read w.kernel).2)
  files w := Host.files w.kernel
  withFiles w files := { w with kernel := Host.withFiles w.kernel files }
  fork w l := ({ w with kernel := (Host.fork w.kernel l).1 }, (Host.fork w.kernel l).2)
  send w pid n := { w with kernel := Host.send w.kernel pid n }
  sendGroup w pid n :=
    ({ w with kernel := (Host.sendGroup w.kernel pid n).1 }, (Host.sendGroup w.kernel pid n).2)
  collect w := ({ w with kernel := (Host.collect w.kernel).1 }, (Host.collect w.kernel).2)
  pending w := Host.pending w.kernel
  take w n := { w with kernel := Host.take w.kernel n }
  -- Only what processes do is watched, so that the shell itself would be found out if it read.
  sleep w m := ⟨Host.sleep w.kernel m, w.deaf ∧ Ignores (Host.sleep · m) w.kernel⟩
  pass w m := ⟨Host.pass w.kernel m, w.deaf ∧ Ignores (Host.pass · m) w.kernel⟩

/-- The shell of a watched kernel on the kernel alone, with something left of the input. -/
def unwatched (w : Shell Watched) (bs : List UInt8) : Session :=
  { w with host := w.host.kernel.hearing bs }

/-- The shell of a kernel that begins to be watched. -/
def watched (s : Session) : Shell Watched := { s with host := ⟨s.host, True⟩ }

/-- No process reads the input of the shell while this is done: processes go on as they would,
whatever were left of it. -/
structure NoneReads (a : Act Watched α) (s : Session) : Prop where
  deaf : (a.on (watched s)).2.host.deaf

variable {w w' : Shell Watched} {a : Act Watched α} {b : Act Kernel α}
  {bf : List UInt8 → Act Kernel α} {f : α → Act Watched β} {g : α → Act Kernel β}

/-! ## 4. What a watched shell tells -/

/-- From `w` on `a` does what `bf` does on the kernel alone, whatever is left of the input, if that
made no difference to the processes. -/
def MirrorsAt (w : Shell Watched) (a : Act Watched α) (bf : List UInt8 → Act Kernel α) : Prop :=
  (a.on w).2.host.deaf →
    w.host.deaf ∧ ∀ bs, (bf bs).on (w.unwatched bs) = ((a.on w).1, (a.on w).2.unwatched bs)

/-- **What the shell does on a watched kernel it does on the kernel alone.** -/
def Mirrors (a : Act Watched α) (b : Act Kernel α) : Prop := ∀ w, MirrorsAt w a fun _ => b

/-- **If no process reads, nothing is read.** -/
theorem Mirrors.unread (h : Mirrors a b) (hnone : NoneReads a s) : UnreadAt b s := by
  obtain ⟨-, heq⟩ := h (watched s) hnone.deaf
  intro bs
  have hsame : b.on s =
      ((a.on (watched s)).1, (a.on (watched s)).2.unwatched s.host.around.input) :=
    heq s.host.around.input
  rw [hsame]
  exact heq bs

theorem MirrorsAt.bind {bg : α → List UInt8 → Act Kernel β} (ha : MirrorsAt w a bf)
    (hf : ∀ x w', a.on w = (.ok x, w') → MirrorsAt w' (f x) (bg x)) :
    MirrorsAt w (a >>= f) fun bs => bf bs >>= fun x => bg x bs := by
  intro hdeaf
  rw [on_bind] at hdeaf
  cases hon : a.on w with
  | mk r w' =>
    rw [hon] at hdeaf
    cases r with
    | ok x =>
      -- The kernel does not become deaf again, so that it is deaf in between as well.
      obtain ⟨hdeaf', heq⟩ := hf x w' hon hdeaf
      obtain ⟨hdeaf₀, heq₀⟩ := ha (by rw [hon]; exact hdeaf')
      refine ⟨hdeaf₀, fun bs => ?_⟩
      rw [on_bind, heq₀ bs, on_bind, hon]
      exact heq bs
    | error e =>
      obtain ⟨hdeaf₀, heq₀⟩ := ha (by rw [hon]; exact hdeaf)
      refine ⟨hdeaf₀, fun bs => ?_⟩
      rw [on_bind, heq₀ bs, on_bind, hon]

theorem Mirrors.bind (ha : Mirrors a b) (hf : ∀ x, Mirrors (f x) (g x)) :
    Mirrors (a >>= f) (b >>= g) :=
  fun w => (ha w).bind fun x w' _ => hf x w'

theorem mirrors_get_bind {f : Shell Watched → Act Watched α} {g : Session → Act Kernel α}
    (h : ∀ w, MirrorsAt w (f w) fun bs => g (w.unwatched bs)) :
    Mirrors (get >>= f) (get >>= g) := fun w => h w

theorem mirrors_pure (x : α) : Mirrors (pure x) (pure x) := fun _ h => ⟨h, fun _ => rfl⟩

theorem mirrors_throw (e : Ending) : Mirrors (throw e : Act Watched α) (throw e) :=
  fun _ h => ⟨h, fun _ => rfl⟩

theorem Mirrors.ite {c : Prop} [Decidable c] {a' : Act Watched α} {b' : Act Kernel α}
    (h : Mirrors a b) (h' : Mirrors a' b') :
    Mirrors (if c then a else a') (if c then b else b') := by
  split
  · exact h
  · exact h'

theorem mirrorsAt_set {s₁ : List UInt8 → Session} (hdeaf : w'.host.deaf → w.host.deaf)
    (h : w'.host.deaf → ∀ bs, s₁ bs = w'.unwatched bs) :
    MirrorsAt w (set w') fun bs => set (s₁ bs) := by
  refine fun hd => ⟨hdeaf hd, fun bs => ?_⟩
  show (set (s₁ bs) : Act Kernel PUnit).on _ = _
  rw [on_set, on_set, h hd bs]

theorem mirrors_modify {F : Shell Watched → Shell Watched} {G : Session → Session}
    (hdeaf : ∀ w, (F w).host.deaf → w.host.deaf)
    (h : ∀ w, (F w).host.deaf → ∀ bs, G (w.unwatched bs) = (F w).unwatched bs) :
    Mirrors (modify F) (modify G) := by
  refine fun w hd => ⟨hdeaf w hd, fun bs => ?_⟩
  rw [on_modify, on_modify, h w hd bs]

/-! ## 5. What acts are made of -/

theorem mirrors_record (e : Event) : Mirrors (record e) (record e) := fun _ h => ⟨h, fun _ => rfl⟩

theorem mirrors_jobs : Mirrors jobs jobs := fun _ h => ⟨h, fun _ => rfl⟩

theorem mirrors_setJobs (t : JobTable) : Mirrors (setJobs t) (setJobs t) :=
  fun _ h => ⟨h, fun _ => rfl⟩

theorem mirrors_setMask (m : Mask) : Mirrors (setMask m) (setMask m) := fun _ h => ⟨h, fun _ => rfl⟩

theorem mirrors_openBlock : Mirrors openBlock openBlock := fun _ h => ⟨h, fun _ => rfl⟩

theorem mirrors_fork (b : Block) (c : Command) : Mirrors (fork b c) (fork b c) := by
  refine fun w h => ⟨h, fun bs => ?_⟩
  rw [on_fork, show (w.unwatched bs).host = w.host.kernel.hearing bs from rfl,
    Kernel.fork_hearing]
  rfl

theorem mirrors_write (text : List UInt8) : Mirrors (write text) (write text) := by
  refine fun w h => ⟨h, fun bs => ?_⟩
  rw [write, on_bind, on_get]
  simp only [show (w.unwatched bs).host = w.host.kernel.hearing bs from rfl, Kernel.write_hearing]
  rfl

theorem mirrors_say (text : String) : Mirrors (say text) (say text) :=
  (mirrors_write _).bind fun _ => mirrors_pure ()

theorem mirrors_note (l : Diagnostics.Level) (target message : String)
    (fields : List (String × String)) :
    Mirrors (note l target message fields) (note l target message fields) := by
  refine mirrors_get_bind fun w => ?_
  by_cases h : w.filter.allows target l = true
  · simp only [show ∀ bs, (w.unwatched bs).filter = w.filter from fun _ => rfl, h, if_true]
    refine fun h => ⟨h, fun bs => ?_⟩
    rw [on_bind, on_set, show (w.unwatched bs).host = w.host.kernel.hearing bs from rfl,
      Kernel.write_hearing]
    rfl
  · simp only [show ∀ bs, (w.unwatched bs).filter = w.filter from fun _ => rfl, h]
    exact mirrors_pure () w

theorem mirrors_send (pid : Int) (n : Nat) : Mirrors (send pid n) (send pid n) := by
  refine fun w h => ⟨h, fun bs => ?_⟩
  rw [send, on_bind, on_modify]
  simp only [show Host.send (w.unwatched bs).host pid n = (w.host.kernel.post pid n).hearing bs from
    Kernel.post_hearing _ bs pid n]
  rfl

theorem mirrors_sendGroup (pid : Int) (n : Nat) :
    Mirrors (sendGroup pid n) (sendGroup pid n) := by
  refine fun w h => ⟨h, fun bs => ?_⟩
  rw [on_sendGroup]
  simp only [show Host.sendGroup (w.unwatched bs).host pid n = _ from
    Kernel.postGroup_hearing w.host.kernel bs pid n]
  rfl

theorem mirrors_collect : Mirrors collect collect := by
  refine fun w h => ⟨h, fun bs => ?_⟩
  rw [on_collect]
  simp only [show Host.collect (w.unwatched bs).host = _ from
    Kernel.collect_hearing w.host.kernel bs]
  rfl

theorem mirrors_enter (pid : Int) (state : JobState) (cmdline : String) :
    Mirrors (enter pid state cmdline) (enter pid state cmdline) := by
  refine mirrors_jobs.bind fun t => ?_
  cases t.add pid state cmdline with
  | error e => exact (mirrors_record _).bind fun _ => mirrors_pure _
  | ok r => exact (mirrors_setJobs _).bind fun _ => (mirrors_record _).bind fun _ => mirrors_pure _

theorem mirrors_restate (id : Nat) (state : JobState) :
    Mirrors (restate id state) (restate id state) := by
  refine mirrors_jobs.bind fun t => ?_
  cases t.setState id state with
  | none => exact (mirrors_record _).bind fun _ => mirrors_pure _
  | some t' =>
    exact (mirrors_setJobs _).bind fun _ => (mirrors_record _).bind fun _ => mirrors_pure _

/-! ## 6. Signals -/

variable {pause : Act Watched Unit} {pause' : Act Kernel Unit}

theorem mirrors_locked (hp : Mirrors pause pause') {body : Block → Act Watched α}
    {body' : Block → Act Kernel α} (hb : ∀ b, Mirrors (body b) (body' b)) :
    Mirrors (locked pause body) (locked pause' body') :=
  mirrors_openBlock.bind fun b => (hb b).bind fun _ =>
    (mirrors_setMask _).bind fun _ => hp.bind fun _ => mirrors_pure _

theorem mirrors_observe (c : ChildStatus) : Mirrors (observe c) (observe c) := by
  refine mirrors_jobs.bind fun t => ?_
  rcases t.observe c with ⟨t', line?⟩
  cases line? with
  | none => exact (mirrors_pure ()).bind fun _ => mirrors_setJobs _
  | some text => exact (mirrors_say _).bind fun _ => mirrors_setJobs _

theorem mirrors_collectAll (hp : Mirrors pause pause') (bound : Nat) :
    Mirrors (collectAll pause bound) (collectAll pause' bound) := by
  induction bound with
  | zero => exact mirrors_throw .waits
  | succ n ih =>
    refine mirrors_collect.bind fun r => ?_
    cases r with
    | none => exact mirrors_pure ()
    | some c =>
      have honce := mirrors_locked hp fun _ => mirrors_observe c
      exact hp.bind fun _ => (honce.bind fun _ => ih).ite (mirrors_pure ())

theorem mirrors_forward (hp : Mirrors pause pause') (n : Nat) :
    Mirrors (forward pause n) (forward pause' n) := by
  refine mirrors_locked hp fun _ => mirrors_jobs.bind fun t => ?_
  cases t.foregroundPid? with
  | none => exact mirrors_pure ()
  | some pid => exact (mirrors_sendGroup pid n).bind fun _ => mirrors_pure ()

theorem mirrors_react (hp : Mirrors pause pause') (n : Nat) :
    Mirrors (react pause n) (react pause' n) := by
  refine mirrors_get_bind fun w => ?_
  show MirrorsAt w _ fun bs => _
  simp only [show ∀ bs, (w.unwatched bs).dispositions = w.dispositions from fun _ => rfl]
  cases w.dispositions.of n with
  | default => exact (mirrors_throw _).ite (mirrors_pure ()) w
  | ignore => exact mirrors_pure () w
  | handler h =>
    cases h with
    | collect => exact mirrors_get_bind (fun w' => mirrors_collectAll hp w'.patience w') w
    | forward => exact mirrors_forward hp n w
    | leave => exact (mirrors_say _).bind (fun _ => mirrors_throw _) w
    | _ => exact mirrors_pure () w

theorem mirrors_handle (hp : Mirrors pause pause') (n : Nat) :
    Mirrors (handle pause n) (handle pause' n) :=
  (mirrors_react hp n).bind fun _ => mirrors_get_bind fun w => mirrors_record _ w

theorem mirrors_handleAll (hp : Mirrors pause pause') (ns : List Nat) :
    Mirrors (handleAll pause ns) (handleAll pause' ns) := by
  induction ns with
  | nil => exact mirrors_pure ()
  | cons n rest ih =>
    refine mirrors_get_bind fun w => ?_
    exact ((mirrors_setMask _).bind fun _ => ih.bind fun _ => (mirrors_handle hp n).bind fun _ =>
      (mirrors_setMask _).bind fun _ => hp) w

theorem takeAll_watched (w : Watched) (ns : List Nat) :
    ns.foldl Host.take w = { w with kernel := ns.foldl Host.take w.kernel } := by
  induction ns generalizing w with
  | nil => rfl
  | cons n ns ih => exact ih (Host.take w n)

theorem mirrors_deliver (depth : Nat) : Mirrors (deliver depth) (deliver depth) := by
  induction depth with
  | zero =>
    refine mirrors_get_bind fun w => ?_
    show MirrorsAt w (if (due w).isEmpty then pure () else throw .waits) fun bs =>
      if (due w).isEmpty then pure () else throw .waits
    exact (mirrors_pure ()).ite (mirrors_throw _) w
  | succ n ih =>
    refine mirrors_get_bind fun w => ?_
    have hset : MirrorsAt w (set { w with host := (due w).foldl Host.take w.host }) fun bs =>
        set { w.unwatched bs with host := (due w).foldl Host.take (w.unwatched bs).host } := by
      rw [takeAll_watched]
      refine mirrorsAt_set (fun h => h) fun _ bs => ?_
      rw [show (w.unwatched bs).host = w.host.kernel.hearing bs from rfl, Kernel.takeAll_hearing]
      rfl
    exact hset.bind fun _ w' _ => mirrors_handleAll ih (due w) w'

theorem mirrors_interruptible : Mirrors interruptible interruptible :=
  mirrors_get_bind fun w => mirrors_deliver w.patience w

/-! ## 7. Letting processes go on -/

/-- This is where the kernel is watched. -/
theorem mirrors_pass :
    Mirrors (modify fun w => { w with host := Host.pass w.host w.mask })
      (modify fun s => { s with host := Host.pass s.host s.mask }) := by
  refine mirrors_modify (fun w h => h.1) fun w h bs => ?_
  have hgoes : Host.pass (w.host.kernel.hearing bs) w.mask = _ := h.2 bs
  show ({ w.unwatched bs with host := Host.pass (w.host.kernel.hearing bs) w.mask } : Session) = _
  rw [hgoes]
  rfl

theorem mirrors_sleep (m : Mask) :
    Mirrors (modify fun w => { w with host := Host.sleep w.host m })
      (modify fun s => { s with host := Host.sleep s.host m }) := by
  refine mirrors_modify (fun w h => h.1) fun w h bs => ?_
  have hgoes : Host.sleep (w.host.kernel.hearing bs) m = _ := h.2 bs
  show ({ w.unwatched bs with host := Host.sleep (w.host.kernel.hearing bs) m } : Session) = _
  rw [hgoes]
  rfl

theorem mirrors_settleFor (bound : Nat) : Mirrors (settleFor bound) (settleFor bound) := by
  induction bound with
  | zero => exact mirrors_pure ()
  | succ n ih =>
    refine mirrors_pass.bind fun _ => mirrors_get_bind fun w => ?_
    show MirrorsAt w (if (due w).isEmpty then pure () else do interruptible; settleFor n) fun bs =>
      if (due w).isEmpty then pure () else do interruptible; settleFor n
    exact (mirrors_pure ()).ite (mirrors_interruptible.bind fun _ => ih) w

theorem mirrors_settle : Mirrors settle settle :=
  mirrors_get_bind fun w => mirrors_settleFor w.patience w

theorem mirrors_suspend (b : Block) : Mirrors (suspend b) (suspend b) := by
  refine mirrors_get_bind fun w => ?_
  simp only [show ∀ bs, (w.unwatched bs).mask = w.mask from fun _ => rfl]
  refine (mirrors_setMask b.before w).bind fun _ w₁ _ => ?_
  refine (mirrors_sleep b.before w₁).bind fun _ w₂ _ => mirrors_get_bind (fun w₃ => ?_) w₂
  exact ((mirrors_record _).bind fun _ => mirrors_interruptible.bind fun _ => mirrors_setMask _) w₃

theorem mirrors_awaitFor (b : Block) (pid : Int) (bound : Nat) :
    Mirrors (awaitFor b pid bound) (awaitFor b pid bound) := by
  induction bound with
  | zero => exact mirrors_throw .waits
  | succ n ih =>
    exact mirrors_jobs.bind fun t =>
      ((mirrors_suspend b).bind fun _ => ih).ite (mirrors_pure ())

theorem mirrors_await (b : Block) (pid : Int) : Mirrors (await b pid) (await b pid) :=
  mirrors_get_bind fun w => mirrors_awaitFor b pid w.patience w

/-! ## 8. Commands -/

theorem mirrors_startJob (c : Command) (cmdline : String) (b : Block) :
    Mirrors (startJob c cmdline b) (startJob c cmdline b) := by
  refine mirrors_jobs.bind fun t => Mirrors.ite ?_ ?_
  · exact (mirrors_say _).bind fun _ => mirrors_pure _
  · refine (mirrors_fork b c).bind fun child => ?_
    cases child with
    | error r => exact mirrors_pure _
    | ok pid =>
      refine (mirrors_enter _ _ _).bind fun r => ?_
      cases r with
      | error e =>
        exact (mirrors_send _ _).bind fun _ => (mirrors_say _).bind fun _ => mirrors_pure _
      | ok id =>
        refine (mirrors_note _ _ _ _).bind fun _ => ?_
        exact (mirrors_pure _).ite ((mirrors_await b pid).bind fun _ => mirrors_pure _)

theorem mirrors_launch (c : Command) (cmdline : String) :
    Mirrors (launch c cmdline) (launch c cmdline) := by
  rw [launch, launch]
  refine Mirrors.ite ?_ ?_
  · exact mirrors_say _
  · refine (mirrors_locked mirrors_interruptible (mirrors_startJob c cmdline)).bind
      fun started => ?_
    match started with
    | .error r => exact mirrors_throw _
    | .ok none => exact mirrors_pure ()
    | .ok (some job) => exact mirrors_say _

theorem mirrors_writeAll (parts : List String) : Mirrors (writeAll parts) (writeAll parts) := by
  induction parts with
  | nil => exact mirrors_pure true
  | cons part rest ih =>
    refine (mirrors_write _).bind fun ok => ?_
    cases ok with
    | true => exact ih
    | false => exact mirrors_pure false

theorem mirrors_sayUnless (all : Bool) :
    Mirrors (unless all do say listingFault) (unless all do say listingFault) := by
  cases all with
  | true => exact mirrors_pure ()
  | false => exact mirrors_say _

theorem mirrors_listJobs (c : Command) : Mirrors (listJobs c) (listJobs c) := by
  refine mirrors_locked mirrors_interruptible fun _ => ?_
  cases c.outfile with
  | none =>
    exact mirrors_jobs.bind fun t => (mirrors_record _).bind fun _ =>
      (mirrors_writeAll _).bind fun all => mirrors_sayUnless all
  | some path =>
    refine mirrors_get_bind fun w => ?_
    simp only [show ∀ bs, Host.files (w.unwatched bs).host = Host.files w.host from fun _ => rfl]
    cases (Host.files w.host).openOutput path with
    | error r => exact mirrors_say _ w
    | ok r =>
      refine mirrors_jobs.bind (fun t => (mirrors_record _).bind fun _ => ?_) w
      refine Mirrors.bind ?_ fun _ => mirrors_sayUnless _
      exact mirrors_modify (fun _ h => h) fun _ _ _ => rfl

theorem mirrors_continueJob (name : String) (state : JobState) (id : Nat) (pid : Int) :
    Mirrors (continueJob name state id pid) (continueJob name state id pid) := by
  have finish : Mirrors (restate id state >>= fun _ =>
        note .debug builtinTarget "resumed" (stateFields id pid state))
      (restate id state >>= fun _ =>
        note .debug builtinTarget "resumed" (stateFields id pid state)) :=
    (mirrors_restate id state).bind fun _ => mirrors_note _ _ _ _
  have tell : ∀ (f : Option Reason → Act Watched Unit) (g : Option Reason → Act Kernel Unit),
      Mirrors (f none) (g none) → (∀ r, Mirrors (f (some r)) (g (some r))) →
      Mirrors (sendGroup pid Signal.resume >>= f) (sendGroup pid Signal.resume >>= g) := by
    intro f g hnone hsome
    refine (mirrors_sendGroup _ _).bind fun r => ?_
    cases r with
    | none => exact hnone
    | some r => exact hsome r
  unfold continueJob
  by_cases hb : state = .background
  · rw [if_pos hb, if_pos hb]
    refine mirrors_jobs.bind fun t => (mirrors_say _).bind fun _ => ?_
    exact tell _ _ finish fun r => (mirrors_note _ _ _ _).bind fun _ => finish
  · rw [if_neg hb, if_neg hb]
    exact tell _ _ finish fun r => (mirrors_note _ _ _ _).bind fun _ => finish

theorem mirrors_resumeJob (name : String) (state : JobState) (c : Command) (b : Block) :
    Mirrors (resumeJob name state c b) (resumeJob name state c b) := by
  rw [resumeJob, resumeJob]
  cases JobRef.ofArg name c.args[1]? with
  | error e => exact mirrors_say _
  | ok ref =>
    refine mirrors_jobs.bind fun t => ?_
    rcases ref.resolve? t with _ | ⟨id, pid⟩
    · exact mirrors_say _
    · refine (mirrors_continueJob name state id pid).bind fun _ => ?_
      exact (mirrors_await b pid).ite (mirrors_pure ())

theorem mirrors_execute (c : Command) (cmdline : String) :
    Mirrors (execute c cmdline) (execute c cmdline) := by
  rw [execute, execute]
  cases c.program? with
  | none => exact mirrors_pure ()
  | some name =>
    simp only
    cases Builtin.ofName? name with
    | none => exact mirrors_launch c cmdline
    | some b =>
      cases b with
      | quit => exact mirrors_throw _
      | jobs => exact mirrors_listJobs c
      | background => exact mirrors_locked mirrors_interruptible (mirrors_resumeJob _ _ c)
      | foreground => exact mirrors_locked mirrors_interruptible (mirrors_resumeJob _ _ c)

/-- **Whatever a line says, the shell itself reads nothing for it.** -/
theorem mirrors_evaluate (text : String) : Mirrors (evaluate text) (evaluate text) := by
  rw [evaluate, evaluate]
  split
  · exact mirrors_execute _ text
  · exact mirrors_pure ()
  · exact mirrors_say _

end Shell

end JobShell
