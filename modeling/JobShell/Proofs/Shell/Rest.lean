import JobShell.Proofs.Process.Obstacles
import JobShell.Proofs.Shell.Handling
import JobShell.Proofs.Shell.Unread

/-!
# Rest

A shell on a kernel where nothing happens by itself. Children may be there, stopped or asleep.

* `on_settle_of_resting`: while the shell has nothing to do nothing becomes of it, so whatever it has
  come to is what there is at its next prompt (`perform_of_resting`).
* `noneReads_settle_of_resting`: no process reads its input meanwhile.
-/

namespace JobShell

open Act

namespace Kernel

variable {k : Kernel}

/-- Without processes nothing happens. -/
theorem resting_of_none (hnone : k.processes = []) (hcalm : k.pending = []) : k.Resting where
  calm := hcalm
  unreported p hp := by
    rw [hnone] at hp
    cases hp
  still p hp := by
    rw [hnone] at hp
    cases hp

theorem Resting.hearing (h : k.Resting) (bs : List UInt8) : (k.hearing bs).Resting where
  calm := h.calm
  unreported := h.unreported
  still := h.still

end Kernel

namespace Shell

variable {s s' : Session}

theorem due_of_calm {σ : Type} [Host σ] {s : Shell σ} (h : Host.pending s.host = []) :
    due s = [] := by
  rw [due, h]
  rfl

/-- Where no signal waits, none is taken. -/
theorem on_interruptible_of_calm (h : s.host.pending = []) :
    (interruptible : Act Kernel Unit).on s = (.ok (), s) := by
  rw [interruptible, on_bind, on_get]
  exact on_deliver_of_due (due_of_calm h) _

/-- The host goes on once if no signal waits afterwards. -/
theorem on_settleFor_of_calm {σ : Type} [Host σ] {s : Shell σ}
    (hcalm : Host.pending (Host.pass s.host s.mask) = []) (n : Nat) :
    (settleFor (n + 1)).on s = (.ok (), { s with host := Host.pass s.host s.mask }) := by
  have hdue : due { s with host := Host.pass s.host s.mask } = [] := due_of_calm hcalm
  rw [settleFor, on_bind, on_modify]
  simp only
  rw [on_bind, on_get]
  simp only [hdue]
  rfl

theorem pass_of_resting (h : s.host.Resting) : Host.pass s.host s.mask = s.host := h.settle s.mask

theorem calm_of_resting (h : s.host.Resting) : Host.pending (Host.pass s.host s.mask) = [] := by
  rw [pass_of_resting h]
  exact h.calm

/-- A session on a resting kernel stays as it is. -/
theorem on_settleFor_of_resting (h : s.host.Resting) (bound : Nat) :
    (settleFor bound : Act Kernel Unit).on s = (.ok (), s) := by
  cases bound with
  | zero => rfl
  | succ n => rw [on_settleFor_of_calm (calm_of_resting h), pass_of_resting h]

theorem on_settle_of_resting (h : s.host.Resting) :
    (settle : Act Kernel Unit).on s = (.ok (), s) := by
  rw [settle, on_bind, on_get]
  exact on_settleFor_of_resting h s.patience

/-- **Nothing happens any more** once a session is on a resting kernel. -/
theorem perform_of_resting {a : Act Kernel Unit} (hrest : s'.host.Resting)
    (h : a.on s = (.ok (), s')) : s.perform a = (.ok (), s') := by
  rw [Session.perform, on_bind, h]
  show (settle >>= fun _ => pure ()).on s' = _
  rw [on_bind, on_settle_of_resting hrest]
  rfl

/-- **No process reads** where nothing happens. -/
theorem noneReads_settle_of_resting (h : s.host.Resting) : NoneReads settle s := by
  have hignores : Ignores (Host.pass · s.mask) s.host := fun bs =>
    ((h.hearing bs).settle s.mask).trans (congrArg (·.hearing bs) (h.settle s.mask).symm)
  have hfor (bound : Nat) : ((settleFor bound).on (watched s)).2.host.deaf := by
    cases bound with
    | zero => exact trivial
    | succ n =>
      rw [on_settleFor_of_calm (s := watched s) (calm_of_resting h)]
      exact ⟨trivial, hignores⟩
  exact ⟨hfor s.patience⟩

end Shell

end JobShell
