import JobShell.Proofs.Shell.Enduring
import JobShell.Shell.Session

/-!
# Critical sections

Which signals are blocked while a shell evaluates a line.

* `openBlock_step` says that the shell begins and leaves a block as a `Nesting` does.
* `Guards s₀ m s` says that since `s₀` the table was used with all signals blocked and the shell
  slept with `m` only; `endures_guards` says that nothing the shell does breaks it.
* `critical_sections_nest` puts this together with what holds of nested blocks.
-/

namespace JobShell

open Act

namespace Shell

variable {σ : Type}

/-- The shell begins a block as a nesting does, and leaves it as a nesting does, whatever it did
inside. -/
theorem openBlock_step (s : Shell σ) (ls : List Layer) :
    ∃ b s', (openBlock : Act σ Block).on s = (.ok b, s') ∧
      Nesting.step? ⟨s.mask, ls⟩ .opens = some ⟨s'.mask, .block b :: ls⟩ ∧
      ∀ t : Shell σ, Nesting.step? ⟨t.mask, .block b :: ls⟩ .leaves =
        some ⟨((setMask b.leave : Act σ Unit).on t).2.mask, ls⟩ :=
  ⟨⟨s.mask⟩, { s with mask := s.mask.withAll }, on_openBlock s, rfl, fun _ => rfl⟩

/-- Since `s₀` the table was used with all signals blocked only, and the shell slept with `m`
only. -/
def Guards (s₀ : Shell σ) (m : Mask) (s : Shell σ) : Prop :=
  ∃ es, s.trace = es ++ s₀.trace ∧ ∀ e ∈ es, e.Masked m

theorem guards_refl (s : Shell σ) (m : Mask) : Guards s m s :=
  ⟨[], rfl, fun _ h => (List.not_mem_nil h).elim⟩

variable [Host σ]

/-- **Nothing that the shell does breaks its guard**, and nothing that the host does for it. -/
theorem endures_guards (s₀ : Shell σ) (m : Mask) : Endures m (Guards s₀ m) where
  write h := h
  withFiles h := h
  fork h := h
  send h := h
  sendGroup h := h
  collect h := h
  take h := h
  sleep h := h
  pass h := h
  mask h := h
  table h := h
  record {s e} he h := by
    obtain ⟨es, htrace, hes⟩ := h
    refine ⟨e :: es, congrArg (e :: ·) htrace, fun d hd => ?_⟩
    rcases List.mem_cons.1 hd with rfl | hd
    · exact he
    · exact hes d hd

/-- **Critical sections nest.**

* The acts of the shell that begin and leave a block are the steps of a nesting.
* Whatever was begun and left so far, every signal is blocked that can be while any block is there
  that does not sleep, and once everything is left the first mask is in force.
* A block is left with the mask in force that was in force when it began, and a sequence that leaves
  whatever it begins ends where it began.
* Whatever line is evaluated on whatever host: if the shell has not ended, be it that the evaluation
  came to its end or that it failed, the mask is afterwards what it was; the table is used only with
  every signal blocked that can be; and the shell sleeps only with the mask from before. -/
theorem critical_sections_nest :
    (∀ {σ : Type} (s : Shell σ) (ls : List Layer), ∃ b s',
      (openBlock : Act σ Block).on s = (.ok b, s') ∧
        Nesting.step? ⟨s.mask, ls⟩ .opens = some ⟨s'.mask, .block b :: ls⟩ ∧
        ∀ t : Shell σ, Nesting.step? ⟨t.mask, .block b :: ls⟩ .leaves =
          some ⟨((setMask b.leave : Act σ Unit).on t).2.mask, ls⟩) ∧
    (∀ (m : Mask) (xs : List Nesting.Step) (s : Nesting), Nesting.run? ⟨m, []⟩ xs = some s →
      (∀ b, .block b ∈ s.layers → ∀ n, Signal.isForced n = false → s.mask.blocks n = true) ∧
        (∀ b inside rest, s.layers = .asleep b inside :: rest → s.mask = b.before) ∧
        (s.layers = [] → s.mask = m)) ∧
    (∀ (s : Nesting) (inner : List Nesting.Step), Nesting.Nested true inner →
      s.run? (.opens :: inner ++ [.leaves]) = some s) ∧
    (∀ (s : Nesting) (xs : List Nesting.Step), Nesting.Nested false xs → s.run? xs = some s) ∧
    ∀ {σ : Type} [Host σ] (text : String) (s : Shell σ),
      (((evaluate text).on s).1 = .ok () → ((evaluate text).on s).2.mask = s.mask) ∧
        (∀ r, ((evaluate text).on s).1 = .error (.failed r) →
          ((evaluate text).on s).2.mask = s.mask) ∧
        ∃ es, ((evaluate text).on s).2.trace = es ++ s.trace ∧ ∀ e ∈ es,
          (∀ m, e = .used m → ∀ n, Signal.isForced n = false → m.blocks n = true) ∧
          ∀ t m, e = .slept t m → m = s.mask := by
  refine ⟨openBlock_step, fun m xs s hrun => ?_, fun s inner h => Nesting.run?_of_block h s,
    fun s xs h => Nesting.run?_of_nested h s (fun h => nomatch h), fun text s => ?_⟩
  · have hsound : s.Sound := Nesting.run?_induct Nesting.Sound.step (Nesting.sound_start m) hrun
    exact ⟨fun b hb => hsound.isFull_of_awake hb, fun b inside rest => hsound.mask_of_asleep,
      Nesting.mask_of_run? hrun⟩
  · have hkeeps := (endures_guards s s.mask).evaluate text
    have hs : At (Guards s s.mask) s.mask s := ⟨guards_refl s s.mask, rfl⟩
    have hguards : Guards s s.mask ((evaluate text).on s).2 := by
      rw [← attempt_on_snd]
      exact Meets.after (Meets.mono hkeeps (fun _ h => h) (fun _ _ h => h.1) fun _ h => h) hs
    refine ⟨fun hok => ?_, fun r hfailed => ?_, ?_⟩
    · exact (hkeeps.of_ok hs (attempt_on_of_ok (Prod.ext hok rfl))).2
    · exact (hkeeps.of_ok hs (attempt_on_of_failed (Prod.ext hfailed rfl))).2
    · obtain ⟨es, htrace, hes⟩ := hguards
      refine ⟨es, htrace, fun e he => ⟨?_, ?_⟩⟩
      · rintro m rfl
        exact hes _ he
      · rintro t m rfl
        exact hes _ he

/-- Where no process may be started a line that asks for one fails, and no signal is blocked
afterwards that was not blocked before. -/
example :
    let outcome := (execute { args := ["x"] } "x").on
      (Session.start { files := .empty, processLimit := some 0 })
    outcome.1 = .error (.failed .tryAgain) ∧ outcome.2.mask = .none := by
  constructor <;> rfl

end Shell

end JobShell
