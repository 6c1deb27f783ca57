import JobShell.Signal

/-!
# Signal masks

While a signal is blocked it waits.

* `Mask` tells which signals are blocked; `Mask.withAll` blocks every signal that can be.
* `Block` is a stretch of work with every signal blocked: `Mask.enter` begins it and `Block.leave`
  goes back to the mask that was in force before.
-/

namespace JobShell

/-! ## 1. Masks -/

/-- The signals that are blocked. -/
@[ext] structure Mask where
  blocks : Nat → Bool

namespace Mask

def none : Mask := ⟨fun _ => false⟩

/-- Blocks every signal that can be blocked, and what was blocked before. -/
def withAll (m : Mask) : Mask := ⟨fun n => m.blocks n || !Signal.isForced n⟩

def withSignal (m : Mask) (n : Nat) : Mask := ⟨fun k => m.blocks k || k == n⟩

/-- **Only the signals that nothing can block pass.** -/
theorem blocks_withAll (m : Mask) {n : Nat} (h : Signal.isForced n = false) :
    m.withAll.blocks n = true := by
  simp [withAll, h]

/-- Blocking everything twice is blocking it once. -/
theorem withAll_withAll (m : Mask) : m.withAll.withAll = m.withAll := by
  ext n
  simp [withAll]

end Mask

/-! ## 2. Blocks -/

/-- A stretch of work with every signal blocked. -/
structure Block where
  /-- The mask that was in force before. -/
  before : Mask

/-- Begins a block: what to remember, and the mask that is now in force. -/
def Mask.enter (m : Mask) : Block × Mask := (⟨m⟩, m.withAll)

/-- Ends a block: the mask that is in force again. -/
def Block.leave (b : Block) : Mask := b.before

/-- **Leaving a block undoes entering it.** -/
theorem Mask.leave_enter (m : Mask) : m.enter.1.leave = m := rfl

end JobShell
