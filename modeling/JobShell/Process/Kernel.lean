import JobShell.Process

/-!
# The kernel

The processes that the shell has started, what they share, and the signals that wait for the shell.

* `Kernel` is the state; `Kernel.fork` and `Kernel.spawn` start processes.
* `Kernel.post` and `Kernel.postGroup` send signals, `Kernel.collect` hands out one change of a
  child, in the order in which the children were started.
* `Kernel.step?` lets the youngest process that is ready do one thing; `Kernel.settle` goes on until
  none is ready or the shell has a signal, and `Kernel.sleep` also lets time pass.
-/

namespace JobShell

/-- The processes around the shell. -/
structure Kernel where
  around : Surroundings
  /-- The children of the shell that it has not collected after their end, oldest first. -/
  processes : List Process := []
  /-- The identifier of the next child. -/
  nextPid : Int := 61001
  /-- The signals that wait for the shell, lowest first. -/
  pending : List Nat := []

namespace Kernel

/-- The identifier of the shell. -/
def shellPid : Int := 61000

/-! ## 1. Processes -/

/-- The process of an identifier. -/
def process? (k : Kernel) (pid : Int) : Option Process := k.processes.find? (·.pid == pid)

/-- Replaces the process of the same identifier. -/
def put (k : Kernel) (p : Process) : Kernel :=
  { k with processes := k.processes.map fun q => if q.pid == p.pid then p else q }

/-- Enters a number into a list in increasing order, once. -/
def insertSignal (n : Nat) : List Nat → List Nat
  | [] => [n]
  | m :: rest => if n < m then n :: m :: rest else if n = m then m :: rest else
    m :: insertSignal n rest

/-- The number is entered, and nothing else changes. -/
theorem mem_insertSignal {n m : Nat} {l : List Nat} :
    m ∈ insertSignal n l ↔ m = n ∨ m ∈ l := by
  induction l with
  | nil => simp [insertSignal]
  | cons k l ih =>
    rw [insertSignal]
    split
    · simp
    · split
      · rename_i h
        subst h
        simp
      · rw [List.mem_cons, ih, List.mem_cons]
        exact ⟨fun h => by rcases h with h | h | h <;> simp [h],
          fun h => by rcases h with h | h | h <;> simp [h]⟩

/-- A signal waits for the shell. -/
def notify (k : Kernel) (n : Nat) : Kernel := { k with pending := insertSignal n k.pending }

/-- Replaces a process that has changed; the shell is told. -/
def change (k : Kernel) (p : Process) : Kernel := (k.put p).notify Signal.child

/-- The process that a child begins as: a copy of the shell, in a group of its own. -/
def newborn (k : Kernel) (l : Launch) : Process :=
  { pid := k.nextPid, group := k.nextPid, mask := l.mask, dispositions := l.dispositions
    activity := .setup { launch := l } }

/-- There may be one more process. -/
def hasRoom (k : Kernel) : Bool :=
  match k.around.processLimit with
  | some limit => k.processes.length < limit
  | none => true

/-- Starts a child that is a copy of the shell, if there may be one more process. -/
def fork (k : Kernel) (l : Launch) : Kernel × Except Reason Int :=
  if k.hasRoom then
    ({ k with processes := k.processes ++ [k.newborn l], nextPid := k.nextPid + 1 }, .ok k.nextPid)
  else (k, .error .tryAgain)

/-- Starts a child that waits, in a group of its own, and does something each time it goes on. -/
def spawn (k : Kernel) (a : OnContinue) : Kernel × Int :=
  let p : Process :=
    { pid := k.nextPid, group := k.nextPid, mask := .none, activity := .idle
      dispositions := Dispositions.defaults.set Signal.resume (.handler (.react a)) }
  ({ k with processes := k.processes ++ [p], nextPid := k.nextPid + 1 }, k.nextPid)

/-! ## 2. Signals -/

/-- Sends a signal to a process. -/
def postTo (k : Kernel) (p : Process) (n : Nat) : Kernel :=
  let p' := p.post n
  if p.condition = .stopped ∧ p'.condition = .running then k.change p' else k.put p'

/-- Sends a signal to the processes of a list, as they are now. -/
def postEach (k : Kernel) (n : Nat) : List Int → Kernel
  | [] => k
  | pid :: rest =>
    match k.process? pid with
    | some p => (k.postTo p n).postEach n rest
    | none => k.postEach n rest

/-- Sends a signal to one process, or to the shell. -/
def post (k : Kernel) (pid : Int) (n : Nat) : Kernel :=
  if pid = shellPid then (if n = 0 then k else k.notify n) else k.postEach n [pid]

/-- The processes of a group. -/
def members (k : Kernel) (group : Int) : List Int :=
  (k.processes.filter (·.group == group)).map (·.pid)

/-- Sends a signal to a group; there has to be a process in it. -/
def postGroup (k : Kernel) (group : Int) (n : Nat) : Kernel × Option Reason :=
  match k.members group with
  | [] => (k, some .noProcess)
  | pids => (k.postEach n pids, none)

/-- Sends a signal to a process, or to the group of the number without its sign. -/
def postTarget (k : Kernel) (target : Int) (n : Nat) : Kernel :=
  if target < 0 then (k.postGroup (-target) n).1 else k.post target n

/-- Sends signals one after the other. -/
def postAll (k : Kernel) (signals : List (Int × Nat)) : Kernel :=
  signals.foldl (fun k (target, n) => k.postTarget target n) k

/-! ## 3. Collecting -/

/-- Hands out the change of the first child that has one. A child that has ended is forgotten. -/
def collect (k : Kernel) : Kernel × Option ChildStatus :=
  match k.processes.find? (·.report.isSome) with
  | none => (k, none)
  | some p =>
    let status := p.report.map (⟨p.pid, ·⟩)
    if p.condition = .ended then
      ({ k with processes := k.processes.filter (·.pid != p.pid) }, status)
    else (k.put { p with report := none }, status)

/-- Whether a child has changed and was not collected since. -/
def anyReport (k : Kernel) : Bool := k.processes.any (·.report.isSome)

/-- **Nothing is handed out only if no child has changed.** -/
theorem anyReport_collect {k : Kernel} (h : k.collect.2 = none) : k.collect.1.anyReport = false := by
  cases hfind : k.processes.find? (·.report.isSome) with
  | none =>
    have hnone := List.find?_eq_none.1 hfind
    rw [collect, hfind]
    exact List.any_eq_false.2 hnone
  | some p =>
    have hsome : p.report.isSome = true :=
      List.find?_some (p := fun q : Process => q.report.isSome) hfind
    obtain ⟨c, hc⟩ := Option.isSome_iff_exists.1 hsome
    unfold collect at h
    rw [hfind] at h
    split at h
    · rename_i hno
      cases hno
    · rename_i q hq
      cases hq
      rw [hc] at h
      split at h
      · cases h
      · cases h

/-! ## 4. Taking signals -/

/-- Does what was arranged for a signal. A child that has not started its program still has the
arrangements of the shell, and its table. -/
def handle (k : Kernel) (p : Process) (n : Nat) (h : Handler) : Kernel :=
  match h, p.activity with
  | .forward, .setup s =>
    match s.launch.foreground with
    | some pid => (k.postGroup pid n).1
    | none => k
  | .leave, .setup s =>
    let around := (k.around.write s.streams.output (line farewell)).1
    ({ k with around }).change (p.finish (.exited 1))
  | .trap command, .work w =>
    match Script.ofText? command with
    | some script =>
      let w := if w.wakeAt.isSome then w.withStatus (128 + n) else w
      k.put { p with activity := .work { w.push (.run script) with wakeAt := none } }
    | none => k
  | .react .stay, _ => k
  | .react (.exit code), _ => k.change (p.finish (.exited code))
  | .react (.signalSelf m), _ => k.post p.pid m
  | .react (.signalParent m), _ => k.post shellPid m
  | _, _ => k

/-- Lets a process take a signal. -/
def take (k : Kernel) (p : Process) (n : Nat) : Kernel :=
  let p := p.took n
  match p.reaction n with
  | .ignore => k.put p
  | .handler h => (k.put p).handle p n h
  | .default =>
    match Signal.effect n with
    | .ends => k.change (p.finish (.killed n))
    | .stops => k.change (p.stop n)
    | _ => k.put p

/-! ## 5. Steps -/

/-- Lets a child report an obstacle and end. -/
def giveUp (k : Kernel) (p : Process) (s : Setup) (o : Obstacle) : Kernel :=
  ({ k with around := s.report k.around o }).change (p.finish (.exited 0))

/-- Lets a child do the next thing on its way to its program. -/
def setUp (k : Kernel) (p : Process) (s : Setup) : Kernel :=
  match s.stage with
  | .input =>
    match s.openInput k.around with
    | .ok streams => k.put { p with activity := .setup { s with streams, stage := .output } }
    | .error o => k.giveUp p s o
  | .output =>
    match s.openOutput k.around with
    | .ok (streams, around) =>
      ({ k with around }).put { p with activity := .setup { s with streams, stage := .release } }
    | .error o => k.giveUp p s o
  | .release =>
    k.put { p with
      dispositions := p.dispositions.released, activity := .setup (s.advance .unblock) }
  | .unblock =>
    k.put { p with mask := s.launch.block.leave, activity := .setup (s.advance .join) }
  | .join => k.put { p with group := p.pid, activity := .setup (s.advance .start) }
  | .start =>
    match s.image k.around with
    | .ok image =>
      k.put { p with
        dispositions := p.dispositions.afterExec
        activity := .work (.ofImage p.pid shellPid s.streams image) }
    | .error o => k.giveUp p s o

/-- Arranges something for signals. -/
def arrange (d : Dispositions) (arranged : List (Nat × Disposition)) : Dispositions :=
  arranged.foldl (fun d (n, x) => d.set n x) d

/-- Lets a process do a piece of its work. -/
def doWork (k : Kernel) (p : Process) (w : Work) : Kernel :=
  let t := w.turn k.around
  let k := { k with around := t.around }
  match t.ends with
  | some status => k.change (p.finish (.exited status))
  | none =>
    (k.put { p with
      dispositions := arrange p.dispositions t.arranged, activity := .work t.work }).postAll t.signals

/-- Lets a process do one thing. -/
def advance (k : Kernel) (p : Process) : Kernel :=
  match p.next? with
  | some n => k.take p n
  | none =>
    match p.activity with
    | .setup s => k.setUp p s
    | .work w => k.doWork p w
    | .idle => k

/-- Lets the youngest process that is ready do one thing. -/
def step? (k : Kernel) : Option Kernel :=
  (k.processes.reverse.find? (·.isReady k.around.clock)).map k.advance

/-- Whether a signal that is not blocked waits for the shell. -/
def interrupts (k : Kernel) (m : Mask) : Bool := k.pending.any (!m.blocks ·)

/-- Lets processes go on until none is ready or a signal that is not blocked waits for the shell. -/
def settleFor : (bound : Nat) → Kernel → Mask → Kernel
  | 0, k, _ => k
  | n + 1, k, m =>
    if k.interrupts m then k
    else match k.step? with
      | some k' => settleFor n k' m
      | none => k

/-- The earliest time at which a sleeping process goes on. -/
def wakeAt? (k : Kernel) : Option Nat := (k.processes.filterMap (·.wakeAt?)).min?

/-- Lets time pass until a sleeping process goes on. -/
def passTime? (k : Kernel) : Option Kernel :=
  k.wakeAt?.map fun t =>
    { k with
      around := { k.around with clock := max t k.around.clock }
      processes := k.processes.map (·.refreshed) }

/-- Lets processes go on, and time pass, until a signal that is not blocked waits for the shell, or
nothing can happen any more. -/
def sleepFor : (bound : Nat) → Kernel → Mask → Kernel
  | 0, k, _ => k
  | n + 1, k, m =>
    if k.interrupts m then k
    else match k.step? with
      | some k' => sleepFor n k' m
      | none =>
        match k.passTime? with
        | some k' => sleepFor n k' m
        | none => k

/-- The number of things that are done before others are thought of. -/
def patience : Nat := 100000

/-- Lets processes go on as far as they can without time passing. -/
def settle (k : Kernel) (m : Mask) : Kernel := settleFor patience k m

/-- Waits for a signal that is not blocked. -/
def sleep (k : Kernel) (m : Mask) : Kernel := sleepFor patience k m

end Kernel

end JobShell
