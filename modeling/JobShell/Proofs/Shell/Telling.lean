import JobShell.Proofs.Shell.Announcing
import JobShell.Proofs.Shell.Coalescing
import JobShell.Proofs.Text.Cutting

/-!
# What is said about a job

The shell speaks of a job when it lets it go on in the background, and when it hears that it was
stopped or ended by a signal. None of these messages is cut.

* `sentWhole_of_observe` is about the line of one change of a child, `sentWhole_of_mem_observeAll`
  about those of changes one after the other.
* `Observed.printed_whole` is what the handler for children writes in one run.
* `Job.SaidWhole` is about one job and every message about it; `run_empty_said_whole` says that it
  holds in every table that changes of the empty one lead to.
-/

namespace JobShell

open Act
open MessageBuffer (SentWhole)
open Text (width bytes)

/-! ## 1. Changes of children -/

/-- The numbers in a change are of 32 bits. -/
def ChildStatus.IsNarrow (c : ChildStatus) : Prop :=
  c.pid.natAbs ≤ 2 ^ 31 ∧
    ∀ signal, c.change = .stopped signal ∨ c.change = .killed signal → signal < 2 ^ 32

namespace JobTable

variable {t : JobTable} {c : ChildStatus} {cs : List ChildStatus} {text : String}

/-- **The line about a change is sent whole**, if there is one. -/
theorem WellFormed.sentWhole_of_observe (ht : t.WellFormed) (hc : c.IsNarrow)
    (h : (t.observe c).2 = some text) : SentWhole text := by
  obtain ⟨hpid, hsignal⟩ := hc
  rw [line_observe, notice?] at h
  split at h
  · rename_i id signal hid hchange
    obtain ⟨a, ha, -⟩ := ht.ofPid?_eq_some_iff.1 hid
    cases h
    exact sentWhole_stoppedNotice (le_capacity_of_get? ha).2 hpid (hsignal signal (.inl hchange))
  · rename_i id signal hid hchange
    obtain ⟨a, ha, -⟩ := ht.ofPid?_eq_some_iff.1 hid
    cases h
    exact sentWhole_terminatedNotice (le_capacity_of_get? ha).2 hpid
      (hsignal signal (.inr hchange))
  · cases h

/-- **So are the lines about changes one after the other.** The induction is on the changes. -/
theorem WellFormed.sentWhole_of_mem_observeAll (ht : t.WellFormed) (hcs : ∀ c ∈ cs, c.IsNarrow)
    (h : text ∈ (t.observeAll cs).2) : SentWhole text := by
  induction cs generalizing t with
  | nil => cases h
  | cons c cs ih =>
    obtain ⟨hc, hrest⟩ := List.forall_mem_cons.1 hcs
    rcases List.mem_append.1 h with hfirst | hlater
    · exact ht.sentWhole_of_observe hc (Option.mem_toList.1 hfirst)
    · exact ih (ht.observe c) hrest hlater

/-- The line about a stop of a job, and the one about its end by a signal. -/
theorem WellFormed.line_observe_job (ht : t.WellFormed) {id : Nat} {a : Job}
    (ha : t.get? id = some a) (signal : Nat) :
    (t.observe ⟨a.pid, .stopped signal⟩).2 = some (Job.stoppedNotice id a.pid signal) ∧
      (t.observe ⟨a.pid, .killed signal⟩).2 = some (Job.terminatedNotice id a.pid signal) := by
  have hid : t.ofPid? a.pid = some id := ht.ofPid?_eq_some_iff.2 ⟨a, ha, rfl⟩
  rw [line_observe, line_observe, notice?, notice?, hid]
  exact ⟨rfl, rfl⟩

end JobTable

/-! ## 2. What the shell writes -/

namespace Shell

variable {σ : Type} {s s' : Shell σ} {cs : List ChildStatus}

/-- **One run of the handler prints its lines whole**, each in one piece. -/
theorem Observed.printed_whole (h : Observed s s' cs) (ht : s.table.WellFormed)
    (hcs : ∀ c ∈ cs, c.IsNarrow) :
    Trace.printed s'.trace = Trace.printed s.trace ++
      (s.table.observeAll cs).2.map fun text => bytes (text ++ "\n") := by
  rw [h.printed]
  congr 1
  exact List.map_congr_left fun text htext => (ht.sentWhole_of_mem_observeAll hcs htext).line_eq

end Shell

/-! ## 3. One job -/

open Shell

/-- **No message about a job is cut**, neither in the buffer nor by whoever writes it. -/
structure Job.SaidWhole (t : JobTable) (id : Nat) (a : Job) : Prop where
  announced : SentWhole (announcement id a.pid a.cmdline.text)
  stopped : ∀ signal < 2 ^ 32, SentWhole (stoppedNotice id a.pid signal)
  terminated : ∀ signal < 2 ^ 32, SentWhole (terminatedNotice id a.pid signal)
  /-- There would be room for the stored line too. -/
  detailed : ∀ signal < 2 ^ 32,
    SentWhole (stoppedNotice id a.pid signal ++ " " ++ a.cmdline.text) ∧
      SentWhole (terminatedNotice id a.pid signal ++ " " ++ a.cmdline.text)
  /-- A command to go on in the background begins with the announcement. -/
  resumed : ∀ {σ : Type} [Host σ] (s : Shell σ), s.table = t → s.dispositions.CollectsOnChild →
    ∀ c cmdline, c.program? = some "bg" → c.meant? "bg" t = some (id, a.pid) →
      WritesFirst (execute c cmdline) s
        (bytes (announcement id a.pid a.cmdline.text ++ "\n"))
  /-- The handler writes one line about a stop, and leaves the job stopped. -/
  heardStop : ∀ {σ : Type} [Host σ] (s : Shell σ), s.table = t → ∀ signal < 2 ^ 32,
    let bs := bytes (stoppedNotice id a.pid signal ++ "\n")
    (observe ⟨a.pid, .stopped signal⟩).on s = (.ok (), { s with
      host := (Host.write s.host bs).1
      table := t.withState id .stopped
      trace := .used s.mask :: .wrote bs :: .used s.mask :: s.trace })
  /-- And one about an end by a signal, and forgets the job. -/
  heardEnd : ∀ {σ : Type} [Host σ] (s : Shell σ), s.table = t → ∀ signal < 2 ^ 32,
    let bs := bytes (terminatedNotice id a.pid signal ++ "\n")
    (observe ⟨a.pid, .killed signal⟩).on s = (.ok (), { s with
      host := (Host.write s.host bs).1
      table := t.remove id
      trace := .used s.mask :: .wrote bs :: .used s.mask :: s.trace })

namespace JobTable

variable {t : JobTable} {id : Nat} {a : Job}

theorem WellFormed.saidWhole (ht : t.WellFormed) (ha : t.get? id = some a)
    (hpid : a.pid.natAbs ≤ 2 ^ 31) : Job.SaidWhole t id a := by
  have hid : id ≤ capacity := (le_capacity_of_get? ha).2
  have hof : t.ofPid? a.pid = some id := ht.ofPid?_eq_some_iff.2 ⟨a, ha, rfl⟩
  have announced := sentWhole_announcement hid hpid a.cmdline
  refine
    { announced
      stopped := fun _ => sentWhole_stoppedNotice hid hpid
      terminated := fun _ => sentWhole_terminatedNotice hid hpid
      detailed := fun _ hsignal => ⟨sentWhole_stoppedNotice_stored hid hpid hsignal a.cmdline,
        sentWhole_terminatedNotice_stored hid hpid hsignal a.cmdline⟩
      resumed := fun s hs hd c cmdline hname hmeant => ?_
      heardStop := fun s hs signal hsignal => ?_
      heardEnd := fun s hs signal hsignal => ?_ }
  · subst hs
    rw [execute_of_builtin (b := .background) hname, ← announced.line_eq]
    exact resume_writesFirst hd hmeant ha
  · subst hs
    rw [on_observe_of_some (ht.line_observe_job ha signal).1,
      (sentWhole_stoppedNotice hid hpid hsignal).line_eq, observe_of_tracked hof]
    rfl
  · subst hs
    rw [on_observe_of_some (ht.line_observe_job ha signal).2,
      (sentWhole_terminatedNotice hid hpid hsignal).line_eq, observe_of_tracked hof]
    rfl

/-! ## 4. Every table -/

/-- **No message about a job is ever cut**, in whatever table changes of the empty one lead to, and
whatever is stored in it: neither the announcement nor the lines about a stop and an end by a
signal, for any identifier and any signal of 32 bits. And a run of the handler for children prints
its lines as they are, for any changes of children that it collects. -/
theorem run_empty_said_whole (ops : List Op) :
    let t := empty.run ops
    (∀ id a, t.get? id = some a → a.pid.natAbs ≤ 2 ^ 31 → Job.SaidWhole t id a) ∧
      ∀ {σ : Type} [Host σ] (s : Shell σ), s.table = t → s.dispositions.CollectsOnChild →
        s.mask.blocks Signal.child = true → ∀ cs depth, Offers s.host cs →
          (∀ c ∈ cs, c.isNamed = true ∧ c.IsNarrow) → cs.length < s.patience →
          ∃ s', (handle (deliver depth) Signal.child).on s = (.ok (), s') ∧
            s'.table = (t.observeAll cs).1 ∧
            Trace.printed s'.trace = Trace.printed s.trace ++
              (t.observeAll cs).2.map fun text => bytes (text ++ "\n") := by
  intro t
  have ht : t.WellFormed := wellFormed_empty.run ops
  refine ⟨fun id a ha hpid => ht.saidWhole ha hpid, ?_⟩
  intro σ _ s hs hd hm cs depth hoff hcs hpatience
  obtain ⟨s', hon, hobs⟩ :=
    observed_handle hd hoff hm (fun c hc => (hcs c hc).1) depth hpatience
  rw [← hs] at ht ⊢
  exact ⟨s', hon, hobs.table, hobs.printed_whole ht fun c hc => (hcs c hc).2⟩

/-- Fifteen jobs. -/
def fifteen : List Op := (List.range 15).map fun i => .add (i + 1) .background "cat"

/-- The sixteenth has the least identifier of 32 bits. -/
theorem get?_sixteenth (text : String) :
    (empty.run (fifteen ++ [.add (-2 ^ 31) .background text])).get? 16 =
      some ⟨16, -2 ^ 31, .background, .ofString text⟩ := by
  have hfree : (empty.run fifteen).freeSlot? = some 15 := by decide +kernel
  have hnew : ((empty.run fifteen).ofPid? (-2 ^ 31)).isSome = false := by decide +kernel
  have hadd : (empty.run fifteen).add (-2 ^ 31) .background text = .ok (16,
      (empty.run fifteen).put 15 (some ⟨16, -2 ^ 31, .background, .ofString text⟩)) := by
    rw [add, if_neg (by decide), hnew, hfree]
    rfl
  rw [run_append]
  show ((empty.run fifteen).apply (.add (-2 ^ 31) .background text)).get? 16 = _
  rw [apply_add_of_ok hadd, get?_put _ (by decide), if_pos rfl]

/-- The widest of all lines: the last job, the least identifier, the greatest signal, and a command
line of 1026 bytes, of which 1024 are stored. The job is announced, and its end by a signal is
said. -/
theorem run_empty_said_whole_widest :
    let text := String.ofList (List.replicate 513 'é')
    let stored := StoredLine.ofString text
    let s : Session := {
      host := Kernel.storing [⟨-2 ^ 31, .killed Signal.kill⟩]
      table := empty.run (fifteen ++ [.add (-2 ^ 31) .background text])
      mask := Mask.none.withSignal Signal.child }
    width stored.text.toList = 1024 ∧
      SentWhole (Job.terminatedNotice 16 (-2 ^ 31) (2 ^ 32 - 1) ++ " " ++ stored.text) ∧
      WritesFirst (execute ⟨["bg", "%16"], none, none, false⟩ "bg %16") s
        (bytes ("[16] (-2147483648) " ++ stored.text ++ "\n")) ∧
      ∃ s', (handle (deliver 1) Signal.child).on s = (.ok (), s') ∧
        Trace.printed s'.trace = [bytes "Job [16] (-2147483648) terminated by signal 9\n"] := by
  intro text stored s
  have hjob : s.table.get? 16 = some ⟨16, -2 ^ 31, .background, stored⟩ := get?_sixteenth text
  obtain ⟨hsaid, hrun⟩ :=
    run_empty_said_whole (fifteen ++ [.add (-2 ^ 31) .background text])
  have hwhole := hsaid 16 _ hjob (by decide)
  refine ⟨?_, (hwhole.detailed _ (by decide)).2, ?_, ?_⟩
  · rw [StoredLine.toList_ofString, String.toList_ofList]
    decide +kernel
  · refine hwhole.resumed s rfl Dispositions.collectsOnChild_installed _ _ rfl ?_
    show ((s.table.get? 16).map (·.pid)).map (fun pid => (16, pid)) = _
    rw [hjob]
    rfl
  · have hnarrow : ChildStatus.IsNarrow ⟨-2 ^ 31, .killed Signal.kill⟩ := by
      refine ⟨by decide, fun signal h => ?_⟩
      rcases h with h | h
      · cases h
      · cases h
        decide
    obtain ⟨s', hon, -, hprinted⟩ := hrun s rfl Dispositions.collectsOnChild_installed (by decide)
      [⟨-2 ^ 31, .killed Signal.kill⟩] 1 (Kernel.offers_storing (by decide))
      (List.forall_mem_singleton.2 ⟨rfl, hnarrow⟩) (by decide)
    have hline := ((wellFormed_empty.run _).line_observe_job hjob Signal.kill).2
    refine ⟨s', hon, ?_⟩
    rw [hprinted, lines_observeAll_singleton, hline]
    rfl

end JobTable

end JobShell
