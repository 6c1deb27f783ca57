import JobShell.Job

/-!
# The job table

A fixed number of slots for jobs.

* `JobTable` is the table; slot `i` is the place of job `i + 1`.
* `JobTable.jobs` is the view of it: the jobs in the order of their numbers. `get?` looks one up.
* `add`, `remove` and `setState` are the changes. `add` takes the lowest free slot and refuses a
  process that is already there, a second foreground job, and a job too many.
* `Op` is a change as data; `apply` makes one, `run` makes a list of them.
* `get?_remove`, `get?_put` say what the changes do to the view.
-/

namespace JobShell

/-- The number of jobs the shell keeps track of at a time. -/
def capacity : Nat := 16

/-! ## 1. The table -/

/-- The slots. -/
structure JobTable where
  slots : List (Option Job)
  length_slots : slots.length = capacity
  deriving DecidableEq

/-- Why a job is not entered. -/
inductive AddError where
  /-- A job starts in the foreground or in the background and in no other state. -/
  | badStart (state : JobState)
  | duplicatePid (pid : Int)
  | foregroundBusy (owner : Nat)
  | full
  deriving DecidableEq, Repr

/-- The explanation shown to the user. -/
def AddError.message : AddError → String
  | badStart state => "a job cannot start as " ++ state.display
  | duplicatePid pid => "process " ++ Text.integer pid ++ " is already tracked"
  | foregroundBusy owner => "job " ++ Text.natural owner ++ " already owns the foreground"
  | full => "job table full (" ++ Text.natural capacity ++ " jobs)"

namespace JobTable

/-- The table without jobs. -/
def empty : JobTable := ⟨List.replicate capacity none, List.length_replicate⟩

instance : EmptyCollection JobTable := ⟨empty⟩

/-! ## 2. Looking up -/

/-- The jobs in the order of their numbers. -/
def jobs (t : JobTable) : List Job := t.slots.filterMap id

/-- The job of a number. -/
def get? (t : JobTable) : Nat → Option Job
  | 0 => none
  | i + 1 => t.slots[i]?.join

/-- Whether a number belongs to a job. -/
def contains (t : JobTable) (id : Nat) : Bool := (t.get? id).isSome

/-- The process of a job. -/
def pidOf? (t : JobTable) (id : Nat) : Option Int := (t.get? id).map (·.pid)

/-- The job of a process. -/
def ofPid? (t : JobTable) (pid : Int) : Option Nat :=
  (t.jobs.find? (·.pid == pid)).map (·.id)

/-- The job that owns the foreground. -/
def foreground? (t : JobTable) : Option Nat :=
  (t.jobs.find? (·.state == .foreground)).map (·.id)

/-- The process of the job that owns the foreground. -/
def foregroundPid? (t : JobTable) : Option Int := t.foreground?.bind t.pidOf?

/-- The number of jobs. -/
def size (t : JobTable) : Nat := t.jobs.length

/-- There are no jobs. -/
def isEmpty (t : JobTable) : Bool := t.size == 0

/-- Every slot holds a job. -/
def isFull (t : JobTable) : Bool := t.slots.all (·.isSome)

/-! ## 3. Changing -/

/-- Fills or clears a slot; a slot that does not exist is left alone. -/
def put (t : JobTable) (i : Nat) (entry : Option Job) : JobTable :=
  ⟨t.slots.set i entry, by rw [List.length_set, t.length_slots]⟩

/-- The lowest free slot. -/
def freeSlot? (t : JobTable) : Option Nat := t.slots.findIdx? (·.isNone)

/-- Enters a job in the lowest free slot. -/
def add (t : JobTable) (pid : Int) (state : JobState) (cmdline : String) :
    Except AddError (Nat × JobTable) :=
  if state ≠ .foreground ∧ state ≠ .background then .error (.badStart state)
  else if (t.ofPid? pid).isSome then .error (.duplicatePid pid)
  else match (if state = .foreground then t.foreground? else none) with
    | some owner => .error (.foregroundBusy owner)
    | none =>
      match t.freeSlot? with
      | none => .error .full
      | some i =>
        .ok (i + 1, t.put i (some ⟨i + 1, pid, state, StoredLine.ofString cmdline⟩))

/-- Forgets a job; without it nothing changes. -/
def remove (t : JobTable) : Nat → JobTable
  | 0 => t
  | i + 1 => t.put i none

/-- Changes the state of a job. Refused, with nothing changed, if there is no such job, if the state
is the one of no job, or if another job owns the foreground that is asked for. -/
def setState (t : JobTable) (id : Nat) (state : JobState) : Option JobTable :=
  if state = .undefined then none
  else if state = .foreground ∧ t.foreground?.any (· ≠ id) then none
  else (t.get? id).map fun job => t.put (id - 1) (some { job with state })

/-- The table after a change of state, the same if it is refused. -/
def withState (t : JobTable) (id : Nat) (state : JobState) : JobTable :=
  (t.setState id state).getD t

/-! ## 4. Changes as data -/

/-- A change of the table. -/
inductive Op where
  | add (pid : Int) (state : JobState) (cmdline : String)
  | remove (id : Nat)
  | setState (id : Nat) (state : JobState)
  deriving DecidableEq, Repr

/-- The table after a change, the same if the change is refused. -/
def apply (t : JobTable) : Op → JobTable
  | .add pid state cmdline =>
    match t.add pid state cmdline with
    | .ok (_, t') => t'
    | .error _ => t
  | .remove id => t.remove id
  | .setState id state => t.withState id state

theorem apply_add_of_ok {t t' : JobTable} {pid : Int} {state : JobState} {cmdline : String}
    {id : Nat} (h : t.add pid state cmdline = .ok (id, t')) :
    t.apply (.add pid state cmdline) = t' := by
  simp only [apply, h]

theorem apply_add_of_error {t : JobTable} {pid : Int} {state : JobState} {cmdline : String}
    {e : AddError} (h : t.add pid state cmdline = .error e) :
    t.apply (.add pid state cmdline) = t := by
  simp only [apply, h]

/-- The table after changes one after the other. -/
def run (t : JobTable) (ops : List Op) : JobTable := ops.foldl apply t

/-! ## 5. The view after a change -/

@[simp] theorem get?_zero (t : JobTable) : t.get? 0 = none := rfl

theorem get?_succ (t : JobTable) (i : Nat) : t.get? (i + 1) = t.slots[i]?.join := rfl

@[simp] theorem get?_empty (id : Nat) : empty.get? id = none := by
  cases id with
  | zero => rfl
  | succ i =>
    simp only [get?_succ, empty, List.getElem?_replicate]
    split <;> rfl

/-- A job has a number between 1 and the number of slots. -/
theorem le_capacity_of_get? {t : JobTable} {id : Nat} {job : Job} (h : t.get? id = some job) :
    1 ≤ id ∧ id ≤ capacity := by
  cases id with
  | zero => simp at h
  | succ i =>
    rw [get?_succ] at h
    have : i < t.slots.length := by
      refine Nat.lt_of_not_le fun hi => ?_
      rw [List.getElem?_eq_none hi] at h
      simp at h
    rw [t.length_slots] at this
    omega

/-- **Filling a slot shows at its number and nowhere else.** -/
theorem get?_put (t : JobTable) {i : Nat} (hi : i < capacity) (entry : Option Job) (id : Nat) :
    (t.put i entry).get? id = if id = i + 1 then entry else t.get? id := by
  cases id with
  | zero => simp
  | succ k =>
    simp only [get?_succ, put, List.getElem?_set, t.length_slots, hi, if_true, Nat.succ.injEq]
    by_cases h : i = k
    · simp [h]
    · simp [h, Ne.symm h]

/-- **Forgetting a job shows at its number and nowhere else.** -/
theorem get?_remove (t : JobTable) (id k : Nat) :
    (t.remove id).get? k = if k = id then none else t.get? k := by
  cases id with
  | zero => cases k <;> simp [remove]
  | succ i =>
    by_cases hi : i < capacity
    · exact get?_put t hi none k
    · have hput : t.put i none = t := by
        unfold put
        congr 1
        exact List.set_eq_of_length_le (by rw [t.length_slots]; omega)
      rw [remove, hput]
      split
      · rename_i h
        subst h
        cases hk : t.get? (i + 1) with
        | none => rfl
        | some job => have := le_capacity_of_get? hk; omega
      · rfl

end JobTable

end JobShell
