import JobShell.Process.Kernel

/-!
# What is left of the input

Processes read the input of the shell, and nobody puts anything back: whatever a kernel does, what
is left of its input afterwards is an end of what was left before.

* `Surroundings.ReadsOn s s'` says so of two moments.
* `Work.readsOn_turn` says so of a piece of work; the lemmas before it go through what a piece can
  be.
* `Kernel.ReadsOn.step?`, `Kernel.readsOn_settle` and `Kernel.readsOn_sleep` say so of a kernel that
  goes on.
-/

namespace JobShell

/-! ## 1. Surroundings -/

namespace Surroundings

/-- What is left of the input in `s'` is an end of what is left in `s`. -/
def ReadsOn (s s' : Surroundings) : Prop := s'.input <:+ s.input

variable {s s' s'' : Surroundings}

theorem ReadsOn.refl (s : Surroundings) : ReadsOn s s := List.suffix_rfl

theorem ReadsOn.trans (h : ReadsOn s s') (h' : ReadsOn s' s'') : ReadsOn s s'' :=
  List.IsSuffix.trans h' h

theorem ReadsOn.length_le (h : ReadsOn s s') : s'.input.length ≤ s.input.length :=
  List.IsSuffix.length_le h

/-- Writing does not read. -/
theorem readsOn_write (s : Surroundings) (t : Target) (bs : List UInt8) :
    ReadsOn s (s.write t bs).1 := by
  cases t with
  | shared =>
    unfold write
    dsimp only
    split
    · exact .refl s
    · exact .refl s
  | file p => exact .refl s

theorem readsOn_drained (s : Surroundings) (source : Source) : ReadsOn s (s.drained source).1 := by
  cases source with
  | shared => exact List.nil_suffix
  | nothing => exact .refl s
  | file p => exact .refl s

end Surroundings

open Surroundings (ReadsOn)

/-! ## 2. Work -/

namespace Work

variable (w : Work) (s : Surroundings)

theorem readsOn_complain (status : Nat) (what : String) :
    ReadsOn s (w.complain s status what).around :=
  s.readsOn_write _ _

theorem readsOn_perform (p : Program) (r : Program.Result) :
    ReadsOn s (w.perform s p r).around := by
  -- the input of the program is drained first, then it writes twice
  have hwrites (s₁ : Surroundings) (t t' : Target) (bs bs' : List UInt8) :
      ReadsOn s₁ ((s₁.write t bs).1.write t' bs').1 :=
    (s₁.readsOn_write t bs).trans ((s₁.write t bs).1.readsOn_write t' bs')
  unfold perform
  cases r.readsInput with
  | true =>
    exact (Surroundings.readsOn_drained { s with files := r.files } w.streams.input).trans
      (hwrites _ _ _ _ _)
  | false => exact hwrites { s with files := r.files } _ _ _ _

theorem readsOn_beginScript (name : String) (args : List String) (text : String) :
    ReadsOn s (w.beginScript s name args text).around := by
  unfold beginScript
  split
  · exact w.readsOn_complain s _ _
  · exact .refl s

theorem readsOn_interpret (args : List String) : ReadsOn s (w.interpret s args).around := by
  unfold interpret
  split
  · exact w.readsOn_beginScript s _ _ _
  · exact w.readsOn_beginScript s _ _ _
  · exact w.readsOn_complain s _ _
  · split
    · exact w.readsOn_beginScript s _ _ _
    · exact w.readsOn_complain s _ _
  · split
    · exact (s.readsOn_drained w.streams.input).trans (readsOn_beginScript _ _ _ _ _)
    · exact .refl s

theorem readsOn_callIn (args : List String) : ReadsOn s (w.callIn s args).around := by
  unfold callIn
  split
  · exact .refl s
  · split
    · exact .refl s
    · exact w.readsOn_complain s _ _

theorem readsOn_call (image : Image) : ReadsOn s (w.call s image).around := by
  unfold call
  split
  · exact w.readsOn_interpret s _
  · exact w.readsOn_callIn s _
  · exact w.readsOn_perform s _ _

theorem readsOn_redirect {p : Script.Parameters} {st st' : Streams} {s s' : Surroundings}
    {r : Redirect} (h : redirect p st s r = .ok (st', s')) : ReadsOn s s' := by
  unfold redirect at h
  dsimp only at h
  split at h
  · split at h
    · cases h
      exact .refl s
    · cases h
  · split at h
    · cases h
      exact .refl s
    · cases h
  · split at h
    · split at h
      · cases h
      · cases h
        exact .refl s
    · split at h
      · cases h
        exact .refl s
      · cases h
  · cases h
    exact .refl s

theorem readsOn_redirectAll {p : Script.Parameters} {st st' : Streams} {s s' : Surroundings}
    {rs : List Redirect} (h : redirectAll p st s rs = .ok (st', s')) : ReadsOn s s' := by
  induction rs generalizing st s with
  | nil =>
    cases h
    exact .refl _
  | cons r rest ih =>
    unfold redirectAll at h
    split at h
    · rename_i hfirst
      exact (readsOn_redirect hfirst).trans (ih h)
    · cases h

theorem readsOn_runNamed (line : Nat) (name : String) (args : List String) :
    ReadsOn s (w.runNamed s line name args).around := by
  unfold runNamed
  split
  · exact .refl s
  · exact w.readsOn_complain s _ _

theorem readsOn_command (line : Nat) (words : List String) :
    ReadsOn s (w.command s line words).around := by
  unfold command
  split
  · exact .refl s
  · exact .refl s
  · exact w.readsOn_perform s _ _
  · exact .refl s
  · exact .refl s
  · exact readsOn_runNamed _ s _ _ _
  · exact .refl s
  · exact .refl s
  · exact w.readsOn_perform s _ _
  · exact w.readsOn_perform s _ _
  · exact w.readsOn_runNamed s _ _ _

theorem readsOn_simple (line : Nat) (words : List Word) (redirects : List Redirect) :
    ReadsOn s (w.simple s line words redirects).around := by
  unfold simple
  dsimp only
  split
  · exact readsOn_complain _ s _ _
  · rename_i hall
    exact (readsOn_redirectAll hall).trans (readsOn_command _ _ _ _)

theorem readsOn_begin (script : Script) : ReadsOn s (w.begin s script).around := by
  cases script with
  | simple line words redirects => exact w.readsOn_simple s line words redirects
  | _ => exact .refl s

/-- **A piece of work puts nothing back.** -/
theorem readsOn_turn : ReadsOn s (w.turn s).around := by
  unfold turn
  split
  · exact .refl s
  · rename_i f rest _
    cases f with
    | run script => exact readsOn_begin _ s script
    | call image => exact readsOn_call _ s image
    | _ => exact .refl s

end Work

/-! ## 3. Kernels -/

namespace Kernel

/-- What is left of the input in `k'` is an end of what is left in `k`. -/
def ReadsOn (k k' : Kernel) : Prop := k.around.ReadsOn k'.around

variable {k k' k'' : Kernel}

theorem ReadsOn.refl (k : Kernel) : ReadsOn k k := Surroundings.ReadsOn.refl _

theorem ReadsOn.trans (h : ReadsOn k k') (h' : ReadsOn k' k'') : ReadsOn k k'' :=
  Surroundings.ReadsOn.trans h h'

theorem readsOn_of_around_eq (h : k'.around = k.around) : ReadsOn k k' := by
  unfold ReadsOn
  rw [h]
  exact .refl _

/-! ### Signals -/

theorem around_postTo (k : Kernel) (p : Process) (n : Nat) : (k.postTo p n).around = k.around := by
  unfold postTo
  dsimp only
  split
  · rfl
  · rfl

theorem around_postEach (k : Kernel) (n : Nat) (pids : List Int) :
    (k.postEach n pids).around = k.around := by
  induction pids generalizing k with
  | nil => rfl
  | cons pid rest ih =>
    unfold postEach
    split
    · exact (ih _).trans (k.around_postTo _ n)
    · exact ih k

theorem around_post (k : Kernel) (pid : Int) (n : Nat) : (k.post pid n).around = k.around := by
  unfold post
  split
  · split
    · rfl
    · rfl
  · exact k.around_postEach n [pid]

theorem around_postGroup (k : Kernel) (group : Int) (n : Nat) :
    (k.postGroup group n).1.around = k.around := by
  unfold postGroup
  split
  · rfl
  · exact k.around_postEach n _

theorem around_postTarget (k : Kernel) (target : Int) (n : Nat) :
    (k.postTarget target n).around = k.around := by
  unfold postTarget
  split
  · exact k.around_postGroup _ n
  · exact k.around_post _ n

theorem around_postAll (k : Kernel) (signals : List (Int × Nat)) :
    (k.postAll signals).around = k.around := by
  induction signals generalizing k with
  | nil => rfl
  | cons x rest ih => exact (ih _).trans (k.around_postTarget x.1 x.2)

theorem around_fork (k : Kernel) (l : Launch) : (k.fork l).1.around = k.around := by
  unfold fork
  split
  · rfl
  · rfl

theorem around_collect (k : Kernel) : k.collect.1.around = k.around := by
  unfold collect
  split
  · rfl
  · dsimp only
    split
    · rfl
    · rfl

theorem readsOn_handle (k : Kernel) (p : Process) (n : Nat) (h : Handler) :
    ReadsOn k (k.handle p n h) := by
  unfold handle
  split
  · split
    · exact readsOn_of_around_eq (k.around_postGroup _ n)
    · exact .refl k
  · exact k.around.readsOn_write _ _
  · split
    · exact .refl k
    · exact .refl k
  · exact .refl k
  · exact .refl k
  · exact readsOn_of_around_eq (k.around_post _ _)
  · exact readsOn_of_around_eq (k.around_post _ _)
  · exact .refl k

theorem readsOn_take (k : Kernel) (p : Process) (n : Nat) : ReadsOn k (k.take p n) := by
  unfold take
  dsimp only
  split
  · exact .refl k
  · exact readsOn_handle (k.put (p.took n)) _ n _
  · split
    · exact .refl k
    · exact .refl k
    · exact .refl k

/-! ### Steps -/

theorem readsOn_giveUp (k : Kernel) (p : Process) (s : Setup) (o : Obstacle) :
    ReadsOn k (k.giveUp p s o) :=
  k.around.readsOn_write _ _

theorem readsOn_setUp (k : Kernel) (p : Process) (s : Setup) : ReadsOn k (k.setUp p s) := by
  unfold setUp
  split
  · split
    · exact .refl k
    · exact k.readsOn_giveUp p s _
  · split
    · rename_i streams around hopen
      have hread : k.around.ReadsOn around := by
        unfold Setup.openOutput at hopen
        split at hopen
        · cases hopen
          exact .refl _
        · split at hopen
          · cases hopen
            exact .refl _
          · cases hopen
      exact hread
    · exact k.readsOn_giveUp p s _
  · exact .refl k
  · exact .refl k
  · exact .refl k
  · split
    · exact .refl k
    · exact k.readsOn_giveUp p s _

theorem readsOn_doWork (k : Kernel) (p : Process) (w : Work) : ReadsOn k (k.doWork p w) := by
  have hturn : k.around.ReadsOn (w.turn k.around).around := w.readsOn_turn k.around
  unfold doWork
  dsimp only
  split
  · exact hturn
  · unfold ReadsOn
    rw [around_postAll]
    exact hturn

theorem readsOn_advance (k : Kernel) (p : Process) : ReadsOn k (k.advance p) := by
  unfold advance
  split
  · exact k.readsOn_take p _
  · split
    · exact k.readsOn_setUp p _
    · exact k.readsOn_doWork p _
    · exact .refl k

/-- **Whatever a process does, it puts nothing back.** -/
theorem ReadsOn.step? (h : k.step? = some k') : ReadsOn k k' := by
  obtain ⟨p, -, rfl⟩ := Option.map_eq_some_iff.1 h
  exact k.readsOn_advance p

theorem ReadsOn.passTime? (h : k.passTime? = some k') : ReadsOn k k' := by
  obtain ⟨t, -, rfl⟩ := Option.map_eq_some_iff.1 h
  exact .refl k

theorem readsOn_settleFor (bound : Nat) (k : Kernel) (m : Mask) :
    ReadsOn k (settleFor bound k m) := by
  induction bound generalizing k with
  | zero => exact .refl k
  | succ n ih =>
    unfold settleFor
    split
    · exact .refl k
    · split
      · rename_i k' hstep
        exact (ReadsOn.step? hstep).trans (ih k')
      · exact .refl k

theorem readsOn_sleepFor (bound : Nat) (k : Kernel) (m : Mask) :
    ReadsOn k (sleepFor bound k m) := by
  induction bound generalizing k with
  | zero => exact .refl k
  | succ n ih =>
    unfold sleepFor
    split
    · exact .refl k
    · split
      · rename_i k' hstep
        exact (ReadsOn.step? hstep).trans (ih k')
      · split
        · rename_i k' hpass
          exact (ReadsOn.passTime? hpass).trans (ih k')
        · exact .refl k

theorem readsOn_settle (k : Kernel) (m : Mask) : ReadsOn k (k.settle m) :=
  readsOn_settleFor patience k m

theorem readsOn_sleep (k : Kernel) (m : Mask) : ReadsOn k (k.sleep m) :=
  readsOn_sleepFor patience k m

end Kernel

end JobShell
