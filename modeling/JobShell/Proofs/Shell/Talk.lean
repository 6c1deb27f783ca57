import JobShell.Proofs.Shell.Unread
import JobShell.Shell.Interaction

/-!
# What is said

Messages and diagnostic lines change nothing around a shell but what was written.

* `Talks s s'` says that nothing else has changed.
* `on_write_of_takes` is what writing comes to where everything is taken, and `on_fail` what a fault
  comes to there.
-/

namespace JobShell

open Act

namespace Shell

variable {s s' s₀ : Session} {α : Type} {E : Session → Prop}

/-! ## 1. Nothing else -/

/-- Nothing around the shell has changed but what is written. -/
def Talks (s s' : Session) : Prop :=
  s'.host.around = { s.host.around with output := s'.host.around.output }

theorem Talks.refl (s : Session) : Talks s s := rfl

theorem Talks.trans {s'' : Session} (h : Talks s s') (h' : Talks s' s'') : Talks s s'' := by
  unfold Talks at *
  rw [h', h]

theorem Talks.files (h : Talks s s') : s'.host.around.files = s.host.around.files := by
  unfold Talks at h
  rw [h]

theorem Talks.input (h : Talks s s') : s'.host.around.input = s.host.around.input := by
  unfold Talks at h
  rw [h]

theorem Talks.outputFails (h : Talks s s') :
    s'.host.around.outputFails = s.host.around.outputFails := by
  unfold Talks at h
  rw [h]

theorem talks_of_write {bs : List UInt8} (hhost : s'.host = (Host.write s.host bs).1) :
    Talks s s' := by
  unfold Talks
  rw [hhost, Kernel.write_eq]
  split
  · rfl
  · rfl

theorem write_talks (bs : List UInt8) :
    Meets (Talks s₀) (write bs) (fun _ => Talks s₀) E := by
  unfold write
  refine meets_get_bind fun s h => ?_
  refine Meets.bind (Q := fun _ => Talks s₀) (meets_set fun _ _ => h.trans (talks_of_write rfl))
    fun _ => ?_
  exact Meets.bind (Q := fun _ => Talks s₀) (meets_modify fun _ h => h) fun _ =>
    meets_pure fun _ h => h

theorem note_talks (l : Diagnostics.Level) (target message : String)
    (fields : List (String × String)) :
    Meets (Talks s₀) (note l target message fields) (fun _ => Talks s₀) E := by
  unfold note
  refine meets_get_bind fun s h => ?_
  split
  · refine Meets.bind (Q := fun _ => Talks s₀) (meets_set fun _ _ => h.trans (talks_of_write rfl))
      fun _ => ?_
    exact meets_modify fun _ h => h
  · exact meets_pure fun _ e => e ▸ h

/-! ## 2. Where everything is taken -/

/-- The session after a text was written. -/
def uttered (s : Session) (text : String) : Session :=
  { s with
    host := { s.host with
      around := { s.host.around with output := s.host.around.output ++ Text.bytes text } }
    trace := .wrote (Text.bytes text) :: s.trace }

theorem on_write_of_takes (htakes : s.host.around.outputFails = false) (text : String) :
    (write (Text.bytes text)).on s = (.ok true, s.uttered text) := by
  have hfails : ¬ s.host.around.outputFails = true := by
    rw [htakes]
    exact Bool.false_ne_true
  rw [write, on_bind, on_get]
  simp only
  rw [Kernel.write_eq, if_neg hfails]
  rfl

theorem on_writeOrFail_of_takes (htakes : s.host.around.outputFails = false) (text : String) :
    (writeOrFail text).on s = (.ok (), s.uttered text) := by
  rw [writeOrFail, on_bind, on_write_of_takes htakes]
  rfl

/-- **A fault ends the shell with the code 1.** -/
theorem on_fail (htakes : s.host.around.outputFails = false) (fault : String)
    (causes : List String) :
    ∃ s', (fail fault causes : Act Kernel α).on s = (.error (.exited 1), s') := by
  unfold fail
  obtain ⟨_, s₁, hnote, htalks⟩ := Meets.exists_ok
    (note_talks .error programTarget (": ".intercalate (("fatal: " ++ fault) :: causes)) [])
    (Talks.refl s)
  have htakes₁ : s₁.host.around.outputFails = false := htalks.outputFails.trans htakes
  let listed := causes.mapIdx fun i c => "    " ++ Text.natural i ++ ": " ++ c ++ "\n"
  refine ⟨s₁.uttered (ownMessage fault ++ "\n\nCaused by:\n" ++ String.join listed), ?_⟩
  rw [on_bind, hnote]
  dsimp only
  rw [on_bind, on_writeOrFail_of_takes htakes₁]
  rfl

end Shell

end JobShell
