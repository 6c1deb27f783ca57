import JobShell.Proofs.Process.Collecting
import JobShell.Proofs.Shell.Act
import JobShell.Proofs.Shell.Handling
import JobShell.Proofs.Table.Order
import JobShell.Shell.Session

/-!
# Changes of children that arrive together

The handler for children runs once for any number of changes, and takes them in the order in which
they are handed out. Neither makes a difference.

* `Offers h cs` says that a host hands out the changes `cs` one after the other; a kernel does
  (`offers_reports`).
* `Observed s s' cs` says what the shell does about changes: `observed_observe` for one of them,
  `observed_collectAll` for the loop of the handler, `observed_handleOn` for one run of the handler
  after the other.
* `handled_in_any_order` puts this together with what is known of the table: runs of the handler
  over the same changes, cut and ordered in any way, leave the same table and print the same lines.
-/

namespace JobShell

open Act
open ChildStatus (OnePerProcess)

/-! ## 1. Hosts that have changes in store -/

section Store

variable {σ : Type} [Host σ]

/-- A way to say what a host has in store: the first change of the list is handed out next, writing
makes no difference, and no signal waits but the one for children. -/
structure Supplies (holds : σ → List ChildStatus → Prop) : Prop where
  collect : ∀ {h cs}, holds h cs →
    (Host.collect h).2 = cs.head? ∧ holds (Host.collect h).1 cs.tail
  write : ∀ {h cs} (bs : List UInt8), holds h cs → holds (Host.write h bs).1 cs
  quiet : ∀ {h cs}, holds h cs → ∀ n ∈ Host.pending h, n = Signal.child

/-- **A host hands out these changes, in their order, and then no more.** -/
def Offers (h : σ) (cs : List ChildStatus) : Prop :=
  ∃ holds : σ → List ChildStatus → Prop, Supplies holds ∧ holds h cs

variable {h : σ} {cs : List ChildStatus}

theorem Offers.collect (hcs : Offers h cs) :
    (Host.collect h).2 = cs.head? ∧ Offers (Host.collect h).1 cs.tail := by
  obtain ⟨holds, supplies, hcs⟩ := hcs
  obtain ⟨hfirst, hrest⟩ := supplies.collect hcs
  exact ⟨hfirst, holds, supplies, hrest⟩

theorem Offers.write (hcs : Offers h cs) (bs : List UInt8) : Offers (Host.write h bs).1 cs := by
  obtain ⟨holds, supplies, hcs⟩ := hcs
  exact ⟨holds, supplies, supplies.write bs hcs⟩

theorem Offers.quiet (hcs : Offers h cs) : ∀ n ∈ Host.pending h, n = Signal.child := by
  obtain ⟨holds, supplies, hcs⟩ := hcs
  exact supplies.quiet hcs

end Store

/-- **A kernel hands out what its children have to report.** -/
theorem Kernel.offers_reports {k : Kernel} (hk : k.Distinct)
    (hquiet : ∀ n ∈ k.pending, n = Signal.child) : Offers k k.reports := by
  refine ⟨fun k cs => k.Distinct ∧ (∀ n ∈ k.pending, n = Signal.child) ∧ k.reports = cs, ?_,
    hk, hquiet, rfl⟩
  constructor
  · intro k cs hcs
    obtain ⟨hk, hquiet, rfl⟩ := hcs
    obtain ⟨hfirst, hrest⟩ := Kernel.collect_reports hk
    refine ⟨hfirst, hk.collect, ?_, hrest⟩
    show ∀ n ∈ k.collect.1.pending, n = Signal.child
    rwa [Kernel.pending_collect hk]
  · exact fun bs hcs => hcs
  · exact fun hcs => hcs.2.1

/-- A kernel whose children have these changes to report. -/
def Kernel.storing (cs : List ChildStatus) : Kernel where
  around := { files := .empty }
  processes := cs.map fun c =>
    { pid := c.pid, group := c.pid, condition := if c.isEnd then .ended else .stopped
      report := some c.change, mask := .none, dispositions := .defaults, activity := .idle }
  pending := [Signal.child]

theorem Kernel.reports_storing (cs : List ChildStatus) : (Kernel.storing cs).reports = cs := by
  show (cs.map _).filterMap Process.status? = cs
  rw [List.filterMap_map]
  exact List.filterMap_some

/-- **Any changes, of each process at most one, can be in store.** -/
theorem Kernel.offers_storing {cs : List ChildStatus} (hone : OnePerProcess cs) :
    Offers (Kernel.storing cs) cs := by
  have hdistinct : (Kernel.storing cs).Distinct := by
    show ((cs.map _).map Process.pid).Nodup
    rwa [List.map_map]
  have hoffers := Kernel.offers_reports hdistinct fun n hn => List.mem_singleton.1 hn
  rwa [Kernel.reports_storing] at hoffers

/-! ## 2. What was printed -/

/-- What was written to the stream of the shell, piece by piece, the first first. -/
def Trace.printed : List Event → List (List UInt8)
  | [] => []
  | .wrote bs :: es => printed es ++ [bs]
  | _ :: es => printed es

namespace Shell

open Trace (printed)

variable {σ : Type} {s s' s'' : Shell σ} {cs cs' : List ChildStatus}

/-- **What the shell has done about changes of children**: the table went through them, the lines
about them were printed, and the rest is as it was. -/
structure Observed (s s' : Shell σ) (cs : List ChildStatus) : Prop where
  table : s'.table = (s.table.observeAll cs).1
  printed : printed s'.trace = printed s.trace ++ (s.table.observeAll cs).2.map line
  mask : s'.mask = s.mask
  dispositions : s'.dispositions = s.dispositions
  patience : s'.patience = s.patience

theorem Observed.trans (h : Observed s s' cs) (h' : Observed s' s'' cs') :
    Observed s s'' (cs ++ cs') where
  table := by rw [h'.table, h.table, JobTable.observeAll_append]
  printed := by
    rw [h'.printed, h.printed, h.table, JobTable.observeAll_append, List.map_append,
      List.append_assoc]
  mask := h'.mask.trans h.mask
  dispositions := h'.dispositions.trans h.dispositions
  patience := h'.patience.trans h.patience

/-- What is left of the host, and what goes on in the trace without being printed, makes no
difference. -/
theorem observed_nil {host : σ} {trace : List Event}
    (hprinted : Trace.printed trace = Trace.printed s.trace) :
    Observed s { s with host, trace } [] where
  table := rfl
  printed := hprinted.trans (List.append_nil _).symm
  mask := rfl
  dispositions := rfl
  patience := rfl

variable [Host σ]

/-! ## 3. One change -/

/-- No signal is taken while only the one for children waits, and it is blocked. -/
theorem due_eq_nil (hoff : Offers s.host cs) (hm : s.mask.blocks Signal.child = true) :
    due s = [] := by
  refine List.filter_eq_nil_iff.2 fun n hn => ?_
  rw [hoff.quiet n hn, hm]
  decide

/-- **The table is brought up to date with a change.** -/
theorem observed_observe (c : ChildStatus) (hoff : Offers s.host cs) :
    ∃ s', (observe c).on s = (.ok (), s') ∧ Observed s s' [c] ∧ Offers s'.host cs := by
  cases hl : (s.table.observe c).2 with
  | none =>
    refine ⟨_, on_observe_of_none hl, ⟨rfl, ?_, rfl, rfl, rfl⟩, hoff⟩
    rw [JobTable.lines_observeAll_singleton, hl]
    exact (List.append_nil _).symm
  | some text =>
    refine ⟨_, on_observe_of_some hl, ⟨rfl, ?_, rfl, rfl, rfl⟩, hoff.write (line text)⟩
    rw [JobTable.lines_observeAll_singleton, hl]
    rfl

/-- It is so in a critical section too. -/
theorem observed_locked (c : ChildStatus) (hoff : Offers s.host cs)
    (hm : s.mask.blocks Signal.child = true) (depth : Nat) :
    ∃ s', (locked (deliver depth) fun _ => observe c).on s = (.ok (), s') ∧ Observed s s' [c] ∧
      Offers s'.host cs := by
  have hopen : Offers { s with mask := s.mask.withAll }.host cs := hoff
  obtain ⟨s₁, hon, hobs, hoff₁⟩ := observed_observe c hopen
  let s₂ : Shell σ := { s₁ with mask := s.mask }
  have hdue : due s₂ = [] := due_eq_nil (s := s₂) hoff₁ hm
  refine ⟨s₂, ?_, ⟨hobs.table, hobs.printed, rfl, hobs.dispositions, hobs.patience⟩, hoff₁⟩
  rw [on_locked_of_ok hon, bind_pure_unit, on_deliver_of_due hdue]

/-! ## 4. Runs of the handler -/

/-- **The loop of the handler for children**: all changes that are in store are collected, and the
table is brought up to date with each. The induction is on them. -/
theorem observed_collectAll (hoff : Offers s.host cs) (hm : s.mask.blocks Signal.child = true)
    (hnamed : ∀ c ∈ cs, c.isNamed = true) (depth : Nat) {bound : Nat} (hbound : cs.length < bound) :
    ∃ s', (collectAll (deliver depth) bound).on s = (.ok (), s') ∧ Observed s s' cs := by
  induction cs generalizing s bound with
  | nil =>
    obtain ⟨n, rfl⟩ := Nat.exists_eq_add_one.2 hbound
    rw [collectAll, on_bind, on_collect, hoff.collect.1]
    exact ⟨_, rfl, observed_nil rfl⟩
  | cons c cs ih =>
    obtain ⟨n, rfl⟩ := Nat.exists_eq_add_one.2 (Nat.zero_lt_of_lt hbound)
    obtain ⟨hfirst, hrest⟩ := hoff.collect
    let s₁ : Shell σ := { s with
      host := (Host.collect s.host).1, trace := .collected c :: s.trace }
    have hoff₁ : Offers s₁.host cs := hrest
    obtain ⟨s₂, hon₂, hobs₂, hoff₂⟩ := observed_locked c hoff₁ hm depth
    have hm₂ : s₂.mask.blocks Signal.child = true := hobs₂.mask ▸ hm
    obtain ⟨s₃, hon₃, hobs₃⟩ := ih hoff₂ hm₂
      (fun d hd => hnamed d (List.mem_cons_of_mem c hd)) (Nat.lt_of_succ_lt_succ hbound)
    have hobs₁ : Observed s s₁ [] := observed_nil rfl
    refine ⟨s₃, ?_, (hobs₁.trans hobs₂).trans hobs₃⟩
    rw [collectAll, on_bind, on_collect, hfirst]
    show (deliver depth >>= fun _ => _).on s₁ = _
    rw [on_bind, on_deliver_of_due (due_eq_nil hoff₁ hm)]
    simp only [hnamed c List.mem_cons_self, if_true]
    rw [on_bind, hon₂]
    exact hon₃

/-- **One run of the handler.** -/
theorem observed_handle (hd : s.dispositions.CollectsOnChild) (hoff : Offers s.host cs)
    (hm : s.mask.blocks Signal.child = true) (hnamed : ∀ c ∈ cs, c.isNamed = true) (depth : Nat)
    (hpatience : cs.length < s.patience) :
    ∃ s', (handle (deliver depth) Signal.child).on s = (.ok (), s') ∧ Observed s s' cs := by
  obtain ⟨s₁, hon, hobs⟩ := observed_collectAll hoff hm hnamed depth hpatience
  have hreact : (react (deliver depth) Signal.child).on s = (.ok (), s₁) := by
    rw [react, on_bind, on_get]
    dsimp only
    rw [(hd Signal.child).2 rfl]
    exact hon
  let s₂ : Shell σ := { s₁ with trace := .handled s₁.table Signal.child :: s₁.trace }
  have hobs₂ : Observed s₁ s₂ [] := observed_nil rfl
  refine ⟨s₂, ?_, List.append_nil cs ▸ hobs.trans hobs₂⟩
  rw [handle, on_bind, hreact]
  rfl

/-- A host at the moment of a run of the handler, and the changes that it has in store. -/
structure Occasion (σ : Type) [Host σ] where
  host : σ
  changes : List ChildStatus
  offers : Offers host changes

/-- Runs of the handler, each on the host of its occasion. In between the children go on as they
like. -/
def handleOn (depth : Nat) : List (Occasion σ) → Act σ Unit
  | [] => pure ()
  | o :: os => do
    modify fun s => { s with host := o.host }
    handle (deliver depth) Signal.child
    handleOn depth os

/-- The changes of all runs. -/
def inStore (os : List (Occasion σ)) : List ChildStatus := os.flatMap (·.changes)

/-- **One run of the handler after the other.** -/
theorem observed_handleOn (hd : s.dispositions.CollectsOnChild)
    (hm : s.mask.blocks Signal.child = true) (depth : Nat) (os : List (Occasion σ))
    (hnamed : ∀ c ∈ inStore os, c.isNamed = true)
    (hpatience : ∀ o ∈ os, o.changes.length < s.patience) :
    ∃ s', (handleOn depth os).on s = (.ok (), s') ∧ Observed s s' (inStore os) := by
  induction os generalizing s with
  | nil => exact ⟨s, rfl, observed_nil rfl⟩
  | cons o os ih =>
    have hstore : inStore (o :: os) = o.changes ++ inStore os := List.flatMap_cons
    rw [hstore] at hnamed ⊢
    let s₁ : Shell σ := { s with host := o.host }
    obtain ⟨s₂, hon₂, hobs₂⟩ := observed_handle (s := s₁) hd o.offers hm
      (fun c hc => hnamed c (List.mem_append_left _ hc)) depth (hpatience o List.mem_cons_self)
    have hobs₁ : Observed s s₁ [] := observed_nil rfl
    have hobs : Observed s s₂ o.changes := hobs₁.trans hobs₂
    have hd₂ : s₂.dispositions.CollectsOnChild := hobs.dispositions.symm ▸ hd
    have hm₂ : s₂.mask.blocks Signal.child = true := hobs.mask.symm ▸ hm
    have hpatience₂ : ∀ o ∈ os, o.changes.length < s₂.patience := fun o ho =>
      hobs.patience.symm ▸ hpatience o (List.mem_cons_of_mem _ ho)
    obtain ⟨s₃, hon₃, hobs₃⟩ := ih hd₂ hm₂
      (fun c hc => hnamed c (List.mem_append_right _ hc)) hpatience₂
    refine ⟨s₃, ?_, hobs.trans hobs₃⟩
    rw [handleOn, on_bind, on_modify]
    show (handle (deliver depth) Signal.child >>= fun _ => handleOn depth os).on s₁ = _
    rw [on_bind, hon₂]
    exact hon₃

/-! ## 5. Any order -/

/-- **What changes of children come to, told from the state before all of them**: the table reflects
them as a set, and for each that has one the line was printed, with the number that the job had. -/
structure Accounts (s s' : Shell σ) (cs : List ChildStatus) : Prop where
  table : s.table.Reflects cs s'.table
  printed : printed s'.trace = printed s.trace ++ (cs.filterMap s.table.notice?).map line

omit [Host σ] in
theorem Observed.accounts (h : Observed s s' cs) (ht : s.table.WellFormed)
    (hone : OnePerProcess cs) : Accounts s s' cs where
  table := h.table ▸ ht.reflects_observeAll hone
  printed := by rw [h.printed, ht.lines_observeAll hone]

/-- **Neither the number of runs nor the order matters.** Two series of runs of the handler over the
same changes, of each process at most one and none a death by a signal without a name, come to an
end with the same table. The signals 1 to 31 have names; 32 and 33 have none, and neither have the
real-time signals above them. Each line is the one that its change has by the table before; so the
lines are the same if only the cuts between the runs differ, and are in the order of the changes
otherwise. The handler runs while its own signal is blocked; the patience stands for no limit of the
shell. -/
theorem handled_in_any_order (s : Shell σ) (hd : s.dispositions.CollectsOnChild)
    (ht : s.table.WellFormed) (hm : s.mask.blocks Signal.child = true) (depth : Nat)
    (os os' : List (Occasion σ)) (hpatience : ∀ o ∈ os ++ os', o.changes.length < s.patience)
    (hnamed : ∀ c ∈ inStore os, c.isNamed = true) (hone : OnePerProcess (inStore os))
    (hperm : (inStore os).Perm (inStore os')) :
    ∃ s₁ s₂, (handleOn depth os).on s = (.ok (), s₁) ∧ (handleOn depth os').on s = (.ok (), s₂) ∧
      Accounts s s₁ (inStore os) ∧ Accounts s s₂ (inStore os') ∧ s₁.table = s₂.table ∧
      (inStore os = inStore os' → printed s₁.trace = printed s₂.trace) := by
  have hnamed' : ∀ c ∈ inStore os', c.isNamed = true := fun c hc => hnamed c (hperm.mem_iff.2 hc)
  have hone' : OnePerProcess (inStore os') := (hperm.map _).nodup_iff.1 hone
  obtain ⟨s₁, hon₁, hobs₁⟩ := observed_handleOn hd hm depth os hnamed
    fun o ho => hpatience o (List.mem_append_left _ ho)
  obtain ⟨s₂, hon₂, hobs₂⟩ := observed_handleOn hd hm depth os' hnamed'
    fun o ho => hpatience o (List.mem_append_right _ ho)
  have hacc₁ := hobs₁.accounts ht hone
  have hacc₂ := hobs₂.accounts ht hone'
  refine ⟨s₁, s₂, hon₁, hon₂, hacc₁, hacc₂, ?_, fun heq => ?_⟩
  · exact hacc₁.table.unique hacc₂.table fun c => hperm.mem_iff
  · rw [hacc₁.printed, hacc₂.printed, heq]

/-- Runs of the handler on kernels, with the changes that each kernel has in store. -/
def storing (css : List (List ChildStatus)) (hone : ∀ cs ∈ css, OnePerProcess cs) :
    List (Occasion Kernel) :=
  css.pmap (fun cs h => ⟨Kernel.storing cs, cs, Kernel.offers_storing h⟩) hone

/-- A shell with four jobs, in the handler for children. -/
def fourJobs : Session where
  host := Kernel.storing []
  table := JobTable.run .empty [.add 61001 .background "cat", .add 61002 .foreground "vi",
    .add 61003 .background "make", .add 61004 .background "top"]
  mask := Mask.none.withSignal Signal.child

/-- Three of the jobs change, and a process that has none: in two runs, and in one run the other way
round. -/
theorem handled_in_any_order_four :
    let stop : ChildStatus := ⟨61001, .stopped Signal.terminalStop⟩
    let kill : ChildStatus := ⟨61002, .killed Signal.kill⟩
    let exit : ChildStatus := ⟨61003, .exited 0⟩
    let other : ChildStatus := ⟨61999, .killed Signal.terminate⟩
    ∃ s₁ s₂,
      (handleOn 1 (storing [[stop, kill], [exit, other]] (by decide))).on fourJobs = (.ok (), s₁) ∧
      (handleOn 1 (storing [[other, exit, kill, stop]] (by decide))).on fourJobs = (.ok (), s₂) ∧
      s₁.table = s₂.table ∧
      s₁.table.get? 1 = some ⟨1, 61001, .stopped, .ofString "cat"⟩ ∧ s₁.table.get? 2 = none ∧
      s₁.table.get? 3 = none ∧ s₁.table.get? 4 = some ⟨4, 61004, .background, .ofString "top"⟩ ∧
      printed s₁.trace =
        [line "Job [1] (61001) stopped by signal 20",
          line "Job [2] (61002) terminated by signal 9"] ∧
      printed s₂.trace =
        [line "Job [2] (61002) terminated by signal 9",
          line "Job [1] (61001) stopped by signal 20"] := by
  intro stop kill exit other
  obtain ⟨s₁, s₂, hon₁, hon₂, hacc₁, hacc₂, htable, -⟩ := handled_in_any_order fourJobs
    Dispositions.collectsOnChild_installed (JobTable.wellFormed_empty.run _) (by decide) 1
    (storing [[stop, kill], [exit, other]] (by decide))
    (storing [[other, exit, kill, stop]] (by decide))
    (by decide) (by decide) (by decide) (by decide)
  refine ⟨s₁, s₂, hon₁, hon₂, htable, ?_, ?_, ?_, ?_, ?_, ?_⟩
  · have hcat : fourJobs.table.get? 1 = some ⟨1, 61001, .background, .ofString "cat"⟩ := by
      decide +kernel
    exact hacc₁.table.stopped (by decide : stop ∈ _) hcat rfl rfl
  · have hvi : fourJobs.table.get? 2 = some ⟨2, 61002, .foreground, .ofString "vi"⟩ := by
      decide +kernel
    exact hacc₁.table.ended (by decide : kill ∈ _) hvi rfl rfl
  · have hmake : fourJobs.table.get? 3 = some ⟨3, 61003, .background, .ofString "make"⟩ := by
      decide +kernel
    exact hacc₁.table.ended (by decide : exit ∈ _) hmake rfl rfl
  · have htop : fourJobs.table.get? 4 = some ⟨4, 61004, .background, .ofString "top"⟩ := by
      decide +kernel
    exact hacc₁.table.kept htop (by decide)
  · rw [hacc₁.printed]
    decide +kernel
  · rw [hacc₂.printed]
    decide +kernel

end Shell

end JobShell
