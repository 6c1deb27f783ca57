import JobShell.Proofs.Shell.Handling
import JobShell.Proofs.Signal.Nesting
import JobShell.Shell.Evaluation

/-!
# What outlives a line

A property of a shell that outlives each single thing that its host does for it outlives the
evaluation of a line, whatever the line says, whichever signals arrive, and however the evaluation
ends.

* `Endures m J` lists the single things; it knows which signals are blocked where the table is used
  and where the shell sleeps.
* `Keeps m J a` says that `a` keeps the property, and the mask `m` if it comes to its end. The
  lemmas named after the acts of the shell lead up to `Endures.evaluate` and `Endures.settle`; an act
  that can fail keeps them where it fails, too.
-/

namespace JobShell

open Act Diagnostics

/-- Where the table is used, every signal is blocked that can be; where the shell sleeps, what is
blocked is `m`. -/
def Event.Masked (m : Mask) : Event → Prop
  | .used m' => m'.IsFull
  | .slept _ m' => m' = m
  | _ => True

namespace Shell

variable {σ α β : Type}

/-! ## 1. What is kept -/

/-- **A property that outlives whatever the host does**, changes of the mask and of the table, and
events that are masked as they should be. -/
structure Endures [Host σ] (m : Mask) (J : Shell σ → Prop) : Prop where
  write : ∀ {s : Shell σ} {bs}, J s → J { s with host := (Host.write s.host bs).1 }
  withFiles : ∀ {s : Shell σ} {files}, J s → J { s with host := Host.withFiles s.host files }
  fork : ∀ {s : Shell σ} {l}, J s → J { s with host := (Host.fork s.host l).1 }
  send : ∀ {s : Shell σ} {pid n}, J s → J { s with host := Host.send s.host pid n }
  sendGroup : ∀ {s : Shell σ} {pid n}, J s → J { s with host := (Host.sendGroup s.host pid n).1 }
  collect : ∀ {s : Shell σ}, J s → J { s with host := (Host.collect s.host).1 }
  take : ∀ {s : Shell σ} {n}, J s → J { s with host := Host.take s.host n }
  sleep : ∀ {s : Shell σ} {m'}, J s → J { s with host := Host.sleep s.host m' }
  pass : ∀ {s : Shell σ} {m'}, J s → J { s with host := Host.pass s.host m' }
  mask : ∀ {s : Shell σ} {mask}, J s → J { s with mask }
  table : ∀ {s : Shell σ} {t : JobTable}, J s → J { s with table := t }
  record : ∀ {s : Shell σ} {e : Event}, e.Masked m → J s → J { s with trace := e :: s.trace }

/-- The act keeps `J`; where it comes to its end it also keeps the mask. -/
def Keeps (m : Mask) (J : Shell σ → Prop) (a : Act σ α) : Prop :=
  Meets (At J m) a (fun _ => At J m) J

section Rules

variable {m : Mask} {J : Shell σ → Prop} {a : Act σ α} {f : α → Act σ β}

theorem Keeps.bind (ha : Keeps m J a) (hf : ∀ x, Keeps m J (f x)) : Keeps m J (a >>= f) :=
  Meets.bind ha hf

theorem Keeps.attempt (ha : Keeps m J a) : Keeps m J a.attempt := Meets.attempt ha

theorem Keeps.attempt_bind (ha : Keeps m J a) (hf : ∀ x, Keeps m J (f x).attempt) :
    Keeps m J (a >>= f).attempt :=
  Meets.attempt_bind ha hf

theorem keeps_attempt_failed (r : Reason) : Keeps m J (throw (.failed r) : Act σ α).attempt :=
  meets_attempt_failed fun _ h => h

theorem keeps_pure (x : α) : Keeps m J (pure x : Act σ α) := meets_pure fun _ h => h

theorem keeps_throw {e : Ending} (he : e.isFinal = true) : Keeps m J (throw e : Act σ α) :=
  meets_throw he fun _ h => h.1

theorem keeps_get_bind {f : Shell σ → Act σ α} (h : ∀ s, At J m s → Meets (· = s) (f s)
    (fun _ => At J m) J) : Keeps m J (get >>= f) :=
  meets_get_bind h

/-- What is kept wherever `J` holds is kept from here. -/
theorem Keeps.here (h : Keeps m J a) {s : Shell σ} (hs : At J m s) :
    Meets (· = s) a (fun _ => At J m) J :=
  h.pre fun _ e => e ▸ hs

/-- An act whose outcome is known. -/
theorem keeps_of_on {x : Shell σ → α} {t : Shell σ → Shell σ}
    (hon : ∀ s, a.on s = (.ok (x s), t s)) (hmask : ∀ s, (t s).mask = s.mask)
    (h : ∀ s, s.mask = m → J s → J (t s)) : Keeps m J a :=
  meets_of_on hon fun s hs => ⟨h s hs.2 hs.1, (hmask s).trans hs.2⟩

end Rules

/-! ## 2. What acts are made of -/

section Parts

variable [Host σ] {m m' : Mask} {J : Shell σ → Prop} (hJ : Endures m J)

include hJ

theorem Endures.keeps_record {e : Event} (he : e.Masked m) : Keeps m' J (Shell.record e) :=
  keeps_of_on (fun _ => rfl) (fun _ => rfl) fun _ _ h => hJ.record he h

theorem Endures.setMask (k : Mask) : Meets (At J m') (setMask k) (fun _ => At J k) J :=
  meets_modify fun _ h => ⟨hJ.mask h.1, rfl⟩

theorem Endures.jobs (hm : m'.IsFull) : Keeps m' J jobs :=
  keeps_of_on on_jobs (fun _ => rfl) fun s hs h =>
    hJ.record (e := .used s.mask) (show s.mask.IsFull from hs ▸ hm) h

theorem Endures.setJobs (hm : m'.IsFull) (t : JobTable) : Keeps m' J (setJobs t) :=
  keeps_of_on (on_setJobs t) (fun _ => rfl) fun s hs h =>
    hJ.record (e := .used s.mask) (show s.mask.IsFull from hs ▸ hm) (hJ.table (t := t) h)

theorem Endures.keeps_write (bs : List UInt8) : Keeps m' J (Shell.write bs) :=
  keeps_of_on (fun _ => rfl) (fun _ => rfl) fun _ _ h =>
    hJ.record (e := .wrote bs) trivial (hJ.write h)

theorem Endures.say (text : String) : Keeps m' J (say text) :=
  (hJ.keeps_write _).bind fun _ => keeps_pure ()

theorem Endures.note (level : Level) (target message : String) (fields : List (String × String)) :
    Keeps m' J (note level target message fields) := by
  unfold Shell.note
  refine keeps_get_bind fun s hs => ?_
  split
  · refine Meets.bind (Q := fun _ => At J m') ?_ fun _ => hJ.keeps_record trivial
    exact meets_set fun _ _ => ⟨hJ.write hs.1, hs.2⟩
  · exact (keeps_pure _).here hs

theorem Endures.keeps_fork (b : Block) (c : Command) : Keeps m' J (Shell.fork b c) :=
  keeps_of_on (on_fork b c) (fun _ => rfl) fun s _ h => by
    refine hJ.record ?_ (hJ.fork (l := s.launching b c) h)
    cases (Host.fork s.host (s.launching b c)).2 <;> trivial

theorem Endures.keeps_send (pid : Int) (n : Nat) : Keeps m' J (Shell.send pid n) :=
  keeps_of_on (fun _ => rfl) (fun _ => rfl) fun _ _ h =>
    hJ.record (e := .sent pid n) trivial (hJ.send h)

theorem Endures.keeps_sendGroup (pid : Int) (n : Nat) : Keeps m' J (Shell.sendGroup pid n) :=
  keeps_of_on (on_sendGroup pid n) (fun _ => rfl) fun _ _ h =>
    hJ.record (e := .sentGroup _ pid n) trivial (hJ.sendGroup h)

theorem Endures.keeps_collect : Keeps m' J Shell.collect :=
  keeps_of_on on_collect (fun _ => rfl) fun s _ h => by
    refine hJ.record ?_ (hJ.collect h)
    cases (Host.collect s.host).2 <;> trivial

theorem Endures.enter (hm : m'.IsFull) (pid : Int) (state : JobState) (cmdline : String) :
    Keeps m' J (enter pid state cmdline) := by
  refine (hJ.jobs hm).bind fun t => ?_
  cases t.add pid state cmdline with
  | error e => exact Keeps.bind (hJ.keeps_record trivial) fun _ => keeps_pure _
  | ok r =>
    exact (hJ.setJobs hm _).bind fun _ => Keeps.bind (hJ.keeps_record trivial) fun _ => keeps_pure _

theorem Endures.restate (hm : m'.IsFull) (id : Nat) (state : JobState) :
    Keeps m' J (restate id state) := by
  refine (hJ.jobs hm).bind fun t => ?_
  cases t.setState id state with
  | none => exact Keeps.bind (hJ.keeps_record trivial) fun _ => keeps_pure _
  | some t' =>
    exact (hJ.setJobs hm _).bind fun _ => Keeps.bind (hJ.keeps_record trivial) fun _ => keeps_pure _

theorem Endures.takeAll (ns : List Nat) {s : Shell σ} (h : J s) :
    J { s with host := ns.foldl Host.take s.host } := by
  induction ns generalizing s with
  | nil => exact h
  | cons n ns ih => exact ih (hJ.take h)

/-! ## 3. Critical sections and handlers -/

variable {pause : Act σ Unit}

/-- **A critical section**: its body runs with all signals blocked, and afterwards the mask is what
it was. -/
theorem Endures.locked {body : Block → Act σ α} (hbody : Keeps m'.withAll J (body ⟨m'⟩))
    (hpause : Keeps m' J pause) : Keeps m' J (locked pause body) := by
  unfold Shell.locked
  refine Meets.bind (Q := fun b s => b = ⟨m'⟩ ∧ At J m'.withAll s) ?_ fun b => ?_
  · refine meets_of_on on_openBlock fun s h => ?_
    obtain ⟨hj, rfl⟩ := h
    exact ⟨rfl, hJ.mask hj, rfl⟩
  · refine Meets.pointwise fun s h => ?_
    obtain ⟨rfl, hs⟩ := h
    refine Meets.pre (P := At J m'.withAll) ?_ fun _ e => e ▸ hs
    refine Meets.bind hbody fun x => Meets.bind (hJ.setMask m') fun _ => ?_
    exact Keeps.bind hpause fun _ => keeps_pure x

theorem Endures.observe (hm : m'.IsFull) (c : ChildStatus) : Keeps m' J (Shell.observe c) := by
  refine (hJ.jobs hm).bind fun t => ?_
  rcases t.observe c with ⟨t', line?⟩
  cases line? with
  | none => exact (keeps_pure ()).bind fun _ => hJ.setJobs hm t'
  | some text => exact (hJ.say text).bind fun _ => hJ.setJobs hm t'

theorem Endures.collectAll (hpause : Keeps m' J pause) (bound : Nat) :
    Keeps m' J (collectAll pause bound) := by
  induction bound with
  | zero => exact keeps_throw rfl
  | succ n ih =>
    refine hJ.keeps_collect.bind fun r => ?_
    cases r with
    | none => exact keeps_pure ()
    | some c =>
      refine hpause.bind fun _ => ?_
      split
      · exact (hJ.locked (hJ.observe m'.isFull_withAll c) hpause).bind fun _ => ih
      · exact keeps_pure ()

theorem Endures.forward (hpause : Keeps m' J pause) (n : Nat) : Keeps m' J (forward pause n) := by
  refine hJ.locked ((hJ.jobs m'.isFull_withAll).bind fun t => ?_) hpause
  cases t.foregroundPid? with
  | none => exact keeps_pure ()
  | some pid => exact (hJ.keeps_sendGroup pid n).bind fun _ => keeps_pure ()

theorem Endures.react (hpause : Keeps m' J pause) (n : Nat) : Keeps m' J (react pause n) := by
  refine keeps_get_bind fun s hs => Keeps.here ?_ hs
  cases s.dispositions.of n with
  | default =>
    dsimp only
    split
    · exact keeps_throw rfl
    · exact keeps_pure ()
  | ignore => exact keeps_pure ()
  | handler h =>
    cases h with
    | collect => exact keeps_get_bind fun s hs => (hJ.collectAll hpause s.patience).here hs
    | forward => exact hJ.forward hpause n
    | leave => exact (hJ.say _).bind fun _ => keeps_throw rfl
    | trap command => exact keeps_pure ()
    | react action => exact keeps_pure ()

theorem Endures.handle (hpause : Keeps m' J pause) (n : Nat) : Keeps m' J (handle pause n) :=
  Keeps.bind (hJ.react hpause n) fun _ => keeps_get_bind fun s hs =>
    Keeps.here (hJ.keeps_record (e := .handled s.table n) trivial) hs

/-- Handlers put back the mask that they began with, however they are nested. -/
theorem Endures.handleAll (hpause : ∀ k, Keeps k J pause) (ns : List Nat) :
    Keeps m' J (handleAll pause ns) := by
  induction ns generalizing m' with
  | nil => exact keeps_pure ()
  | cons n ns ih =>
    refine keeps_get_bind fun s hs => Meets.pre (P := At J m') ?_ fun _ e => e ▸ hs
    obtain ⟨-, rfl⟩ := hs
    refine Meets.bind (hJ.setMask _) fun _ => ?_
    refine Meets.bind ih fun _ => Meets.bind (hJ.handle (hpause _) n) fun _ => ?_
    exact Meets.bind (hJ.setMask s.mask) fun _ => hpause s.mask

theorem Endures.deliver (depth : Nat) (m' : Mask) : Keeps m' J (deliver depth) := by
  induction depth generalizing m' with
  | zero =>
    refine keeps_get_bind fun s hs => Keeps.here ?_ hs
    split
    · exact keeps_pure ()
    · exact keeps_throw rfl
  | succ n ih =>
    refine keeps_get_bind fun s hs => ?_
    refine Meets.bind (Q := fun _ => At J m') ?_ fun _ => hJ.handleAll ih (due s)
    exact meets_set fun _ _ => ⟨hJ.takeAll _ hs.1, hs.2⟩

theorem Endures.interruptible : Keeps m' J interruptible :=
  keeps_get_bind fun s hs => (hJ.deliver s.patience m').here hs

theorem Endures.settleFor (bound : Nat) : Keeps m' J (settleFor bound) := by
  induction bound with
  | zero => exact keeps_pure ()
  | succ n ih =>
    have hpass : Keeps m' J (modify fun s => { s with host := Host.pass s.host s.mask }) :=
      keeps_of_on (fun _ => rfl) (fun _ => rfl) fun _ _ h => hJ.pass h
    refine hpass.bind fun _ => keeps_get_bind fun s hs => Keeps.here ?_ hs
    split
    · exact keeps_pure ()
    · exact hJ.interruptible.bind fun _ => ih

theorem Endures.settle : Keeps m' J settle :=
  keeps_get_bind fun s hs => (hJ.settleFor s.patience).here hs

/-! ## 4. Waiting -/

/-- **The shell sleeps with the mask from before its block**, and goes on with the one from
inside. -/
theorem Endures.suspend : Keeps m' J (suspend ⟨m⟩) := by
  refine keeps_get_bind fun s hs => Meets.pre (P := At J m') ?_ fun _ e => e ▸ hs
  obtain ⟨-, rfl⟩ := hs
  have hsleep : Keeps m J (modify fun s => { s with host := Host.sleep s.host m }) :=
    keeps_of_on (fun _ => rfl) (fun _ => rfl) fun _ _ h => hJ.sleep h
  refine Meets.bind (hJ.setMask m) fun _ => Meets.bind hsleep fun _ => ?_
  refine meets_get_bind fun s₁ hs₁ => Meets.pre (P := At J m) ?_ fun _ e => e ▸ hs₁
  refine Meets.bind (hJ.keeps_record rfl) fun _ => ?_
  exact Meets.bind hJ.interruptible fun _ => hJ.setMask s.mask

theorem Endures.awaitFor (hm : m'.IsFull) (pid : Int) (bound : Nat) :
    Keeps m' J (awaitFor ⟨m⟩ pid bound) := by
  induction bound with
  | zero => exact keeps_throw rfl
  | succ n ih =>
    refine (hJ.jobs hm).bind fun t => ?_
    split
    · exact hJ.suspend.bind fun _ => ih
    · exact keeps_pure ()

theorem Endures.await (hm : m'.IsFull) (pid : Int) : Keeps m' J (await ⟨m⟩ pid) :=
  keeps_get_bind fun s hs => (hJ.awaitFor hm pid s.patience).here hs

/-! ## 5. Commands -/

theorem Endures.startJob (hm : m'.IsFull) (c : Command) (cmdline : String) :
    Keeps m' J (startJob c cmdline ⟨m⟩) := by
  refine (hJ.jobs hm).bind fun t => ?_
  split
  · exact (hJ.say _).bind fun _ => keeps_pure _
  · refine (hJ.keeps_fork ⟨m⟩ c).bind fun child => ?_
    cases child with
    | error r => exact keeps_pure _
    | ok pid =>
      refine (hJ.enter hm _ _ _).bind fun r => ?_
      cases r with
      | error e =>
        exact (hJ.keeps_send _ _).bind fun _ => (hJ.say _).bind fun _ => keeps_pure _
      | ok id =>
        refine (hJ.note _ _ _ _).bind fun _ => ?_
        split
        · exact keeps_pure _
        · exact (hJ.await hm pid).bind fun _ => keeps_pure _

/-- Also a launch that fails puts the mask back. -/
theorem Endures.launch (c : Command) (cmdline : String) :
    Keeps m J (launch c cmdline).attempt := by
  unfold Shell.launch
  split
  · exact (hJ.say _).attempt
  · refine (hJ.locked (hJ.startJob m.isFull_withAll c cmdline) hJ.interruptible).attempt_bind
      fun started => ?_
    match started with
    | .error r => exact keeps_attempt_failed r
    | .ok none => exact (keeps_pure ()).attempt
    | .ok (some job) => exact (hJ.say _).attempt

theorem Endures.writeAll (parts : List String) : Keeps m' J (writeAll parts) := by
  induction parts with
  | nil => exact keeps_pure true
  | cons part rest ih =>
    refine (hJ.keeps_write _).bind fun ok => ?_
    cases ok with
    | true => exact ih
    | false => exact keeps_pure false

theorem Endures.sayUnless (all : Bool) : Keeps m' J (unless all do Shell.say listingFault) := by
  cases all with
  | true => exact keeps_pure ()
  | false => exact hJ.say _

theorem Endures.listJobs (c : Command) : Keeps m J (listJobs c) := by
  refine hJ.locked ?_ hJ.interruptible
  have hlist := hJ.jobs m.isFull_withAll
  cases c.outfile with
  | none =>
    refine hlist.bind fun t => Keeps.bind (hJ.keeps_record trivial) fun _ => ?_
    exact (hJ.writeAll _).bind fun all => hJ.sayUnless all
  | some path =>
    refine keeps_get_bind fun s hs => Keeps.here ?_ hs
    cases (Host.files s.host).openOutput path with
    | error r => exact hJ.say _
    | ok r =>
      refine hlist.bind fun t => Keeps.bind (hJ.keeps_record trivial) fun _ => ?_
      refine Keeps.bind ?_ fun _ => hJ.sayUnless _
      exact keeps_of_on (fun _ => rfl) (fun _ => rfl) fun _ _ h => hJ.withFiles h

theorem Endures.continueJob (hm : m'.IsFull) (name : String) (state : JobState) (id : Nat)
    (pid : Int) : Keeps m' J (continueJob name state id pid) := by
  have finish : Keeps m' J (Shell.restate id state >>= fun _ =>
      Shell.note .debug builtinTarget "resumed" (stateFields id pid state)) :=
    (hJ.restate hm id state).bind fun _ => hJ.note _ _ _ _
  have tell : ∀ f : Option Reason → Act σ Unit, Keeps m' J (f none) →
      (∀ r, Keeps m' J (f (some r))) → Keeps m' J (Shell.sendGroup pid Signal.resume >>= f) := by
    intro f hnone hsome
    refine (hJ.keeps_sendGroup _ _).bind fun r => ?_
    cases r with
    | none => exact hnone
    | some r => exact hsome r
  unfold Shell.continueJob
  by_cases hb : state = .background
  · rw [if_pos hb]
    refine (hJ.jobs hm).bind fun t => (hJ.say _).bind fun _ => ?_
    exact tell _ finish fun r => (hJ.note _ _ _ _).bind fun _ => finish
  · rw [if_neg hb]
    exact tell _ finish fun r => (hJ.note _ _ _ _).bind fun _ => finish

theorem Endures.resumeJob (hm : m'.IsFull) (name : String) (state : JobState) (c : Command) :
    Keeps m' J (resumeJob name state c ⟨m⟩) := by
  unfold Shell.resumeJob
  split
  · exact hJ.say _
  · refine (hJ.jobs hm).bind fun t => ?_
    split
    · exact hJ.say _
    · refine (hJ.continueJob hm name state _ _).bind fun _ => ?_
      split
      · exact hJ.await hm _
      · exact keeps_pure ()

theorem Endures.resume (name : String) (state : JobState) (c : Command) :
    Keeps m J (resume name state c) :=
  hJ.locked (hJ.resumeJob m.isFull_withAll name state c) hJ.interruptible

/-! ## 6. Lines -/

theorem Endures.execute (c : Command) (cmdline : String) :
    Keeps m J (execute c cmdline).attempt := by
  unfold Shell.execute
  split
  · exact (keeps_pure ()).attempt
  · split
    · rename_i b _
      cases b with
      | quit => exact Keeps.attempt (keeps_throw rfl)
      | jobs => exact (hJ.listJobs c).attempt
      | background => exact (hJ.resume _ _ c).attempt
      | foreground => exact (hJ.resume _ _ c).attempt
    · exact hJ.launch c cmdline

/-- **Whatever a line says**, what endures outlives it, be it that the evaluation fails. -/
theorem Endures.evaluate (text : String) : Keeps m J (evaluate text).attempt := by
  unfold Shell.evaluate
  split
  · exact hJ.execute _ text
  · exact (keeps_pure ()).attempt
  · exact (hJ.say _).attempt

end Parts

end Shell

end JobShell
