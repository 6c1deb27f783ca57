import JobShell.Proofs.Shell.Course
import JobShell.Shell.Session

/-!
# The foreground at the prompt

Whatever the shell is told to do, and whatever happens around it meanwhile, nobody owns the foreground
when it is at the prompt again.

* `prompt_foreground_free` says so of any rounds, and what follows for the changes of the table that
  the shell makes of its own accord.
-/

namespace JobShell

open Act Trace

namespace Shell

variable {σ : Type} [Host σ]

omit [Host σ] in
/-- What the trace tells of entries and changes of states in any course. -/
theorem Strayed.untroubled {s s' : Shell σ} (h : Strayed s s') :
    ∃ es, s'.trace = es ++ s.trace ∧ (∀ pid e, .refused pid e ∈ es → e = .duplicatePid pid) ∧
      ∀ id state, .kept id state ∉ es := by
  obtain ⟨es, h⟩ := h
  refine ⟨es, h.trace, fun pid e hmem => ?_, fun id state hmem => ?_⟩
  · obtain ⟨earlier, hfit⟩ := h.fits.of_mem hmem
    exact hfit
  · obtain ⟨earlier, hfit⟩ := h.fits.of_mem hmem
    exact hfit

/-- **Nobody owns the foreground at the prompt.** A process is refused only because it has a job
already, not because another one owns the foreground or for want of room; and no change of a state is
refused at all. The last two hold also of rounds that end the shell. -/
theorem prompt_foreground_free (s : Shell σ) (hd : s.dispositions.CollectsOnChild)
    (ht : s.table.WellFormed) (hidle : s.table.foreground? = none) (rounds : List (Round σ)) :
    let (r, s') := (conduct rounds).on s
    (r = .ok () → ∀ id a, s'.table.get? id = some a → a.state ≠ .foreground) ∧
      ∃ es, s'.trace = es ++ s.trace ∧ (∀ pid e, .refused pid e ∈ es → e = .duplicatePid pid) ∧
        ∀ id state, .kept id state ∉ es := by
  obtain ⟨hstrayed, hok⟩ := conduct_course hd ht hidle rounds
  refine ⟨fun hr => ?_, hstrayed.untroubled⟩
  obtain ⟨es, -, -, hfree⟩ := hok hr
  exact JobTable.foreground?_eq_none_iff.1 hfree

/-- A program that is not there is started in the background and told to go on in the foreground. -/
def missingProgram : List (Round Kernel) := [.line "cat &", .line "fg %1"]

theorem prompt_foreground_free_missing :
    ((conduct missingProgram).on (Session.start { files := .empty })).1.isOk = true ∧
      ∀ id a, ((conduct missingProgram).on (Session.start { files := .empty })).2.table.get? id =
        some a → a.state ≠ .foreground := by
  have hok : ((conduct missingProgram).on (Session.start { files := .empty })).1.isOk = true := by
    decide +kernel
  have h := prompt_foreground_free (Session.start { files := .empty })
    Dispositions.collectsOnChild_installed JobTable.wellFormed_empty rfl missingProgram
  refine ⟨hok, ?_⟩
  cases hon : (conduct missingProgram).on (Session.start { files := .empty }) with
  | mk r s' =>
    rw [hon] at h hok
    cases r with
    | error e => cases hok
    | ok x => exact h.1 rfl

end Shell

end JobShell
