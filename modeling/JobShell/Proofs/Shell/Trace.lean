import JobShell.Proofs.Table.Observation

/-!
# Reading a trace

A trace has the latest event first. What a shell did can be told from it.

* `Trace.Always` says that each event fits what was before it.
* `Trace.reported` are the changes of children that were collected and could be told, in order;
  `Trace.lastAnswer` is what the last call for a change brought.
* `JobTable.replay` is the table that events make of a table; `replay_eq_observeAll` is the case of
  events among which there is no change of the shell's own.
* `Trace.endOf?` is how a process ended, if that was collected since it was started.
* `Event.IsQuiet` tells the events that mean nothing to any of these; `Event.IsTalk` tells those among
  them that have nothing to do with signals that are passed on.
* `Event.Fits` is what is true of every event of a shell whose table was `t₀` at the start:
  `fits_append` says that it holds of a run that goes on.
-/

namespace JobShell

/-! ## 1. Kinds of events -/

namespace Event

/-- The shell changed the table of its own accord. -/
def IsChange : Event → Prop
  | changed _ => True
  | _ => False

/-- An event that neither changes the table, nor says anything about children, nor shows a table
that is up to date. -/
def IsQuiet : Event → Prop
  | wrote _ | noted _ | used _ | sent _ _ | sentGroup _ _ _ => True
  | handled _ n => n ≠ Signal.child
  | _ => False

/-- The shell said something, looked at the table, or sent a signal to one process. -/
def IsTalk : Event → Prop
  | wrote _ | noted _ | used _ | sent _ _ => True
  | _ => False

theorem IsTalk.isQuiet {e : Event} (h : e.IsTalk) : e.IsQuiet := by
  cases e with
  | wrote bs => trivial
  | noted e => trivial
  | used m => trivial
  | sent pid n => trivial
  | _ => exact h.elim

theorem IsQuiet.not_isChange {e : Event} (h : e.IsQuiet) : ¬ e.IsChange := by
  cases e with
  | changed op => exact h.elim
  | _ => exact id

end Event

/-! ## 2. Events in the light of earlier ones -/

namespace Trace

/-- Each event is as it should be in the light of the events before it. -/
def Always (P : Event → List Event → Prop) : List Event → Prop
  | [] => True
  | e :: es => P e es ∧ Always P es

variable {P : Event → List Event → Prop}

/-- A trace is as it should be if its later part is in the light of the earlier one. -/
theorem always_append {later earlier : List Event} :
    Always P (later ++ earlier) ↔
      Always (fun e es => P e (es ++ earlier)) later ∧ Always P earlier := by
  induction later with
  | nil => exact ⟨fun h => ⟨trivial, h⟩, fun h => h.2⟩
  | cons e es ih =>
    rw [List.cons_append, Always, Always, ih, and_assoc]

/-- Every event of a trace is as it should be. -/
theorem Always.of_mem {es : List Event} {e : Event} (h : Always P es) (he : e ∈ es) :
    ∃ earlier, P e earlier := by
  induction es with
  | nil => cases he
  | cons d es ih =>
    rcases List.mem_cons.1 he with rfl | he'
    · exact ⟨es, h.1⟩
    · exact ih h.2 he'

/-! ## 3. What was heard of children -/

/-- The changes of children that were collected and can be told, in order. -/
def reported : List Event → List ChildStatus
  | [] => []
  | .collected c :: es => reported es ++ if c.isNamed then [c] else []
  | _ :: es => reported es

/-- What the last call for a change of a child brought. -/
def lastAnswer : List Event → Option (Option ChildStatus)
  | [] => none
  | .collected c :: _ => some (some c)
  | .drained :: _ => some none
  | _ :: es => lastAnswer es

theorem lastAnswer_append {later earlier : List Event} {r : Option ChildStatus}
    (h : lastAnswer later = some r) : lastAnswer (later ++ earlier) = some r := by
  induction later with
  | nil => cases h
  | cons e es ih =>
    cases e with
    | collected c => exact h
    | drained => exact h
    | _ => exact ih h

/-- The collecting was cut short: the last that was collected is a death that cannot be told. -/
def CutShort (es : List Event) : Prop := ∃ c, lastAnswer es = some (some c) ∧ c.isNamed = false

/-- The collecting came to its end: there was nothing left, or it was cut short. -/
def Exhausted (es : List Event) : Prop := lastAnswer es = some none ∨ CutShort es

theorem Exhausted.append {later earlier : List Event} (h : Exhausted later) :
    Exhausted (later ++ earlier) := by
  rcases h with h | ⟨c, h, hc⟩
  · exact Or.inl (lastAnswer_append h)
  · exact Or.inr ⟨c, lastAnswer_append h, hc⟩

theorem lastAnswer_cons_of_isQuiet {e : Event} (he : e.IsQuiet) (es : List Event) :
    lastAnswer (e :: es) = lastAnswer es := by
  cases e with
  | collected c => exact he.elim
  | drained => exact he.elim
  | _ => rfl

theorem Exhausted.cons_quiet {e : Event} {es : List Event} (he : e.IsQuiet) (h : Exhausted es) :
    Exhausted (e :: es) := by
  unfold Exhausted CutShort
  rw [lastAnswer_cons_of_isQuiet he]
  exact h

end Trace

/-! ## 4. The table that events make -/

namespace JobTable

/-- The table that events make of a table. -/
def replay (t : JobTable) : List Event → JobTable
  | [] => t
  | .changed op :: es => (t.replay es).apply op
  | .collected c :: es => if c.isNamed then ((t.replay es).observe c).1 else t.replay es
  | _ :: es => t.replay es

theorem replay_append (t : JobTable) (later earlier : List Event) :
    t.replay (later ++ earlier) = (t.replay earlier).replay later := by
  induction later with
  | nil => rfl
  | cons e es ih =>
    cases e with
    | changed op => exact congrArg (·.apply op) ih
    | collected c =>
      rw [List.cons_append, replay, replay, ih]
    | _ => exact ih

theorem replay_cons_of_isQuiet (t : JobTable) {e : Event} (he : e.IsQuiet) (es : List Event) :
    t.replay (e :: es) = t.replay es := by
  cases e with
  | changed op => exact he.elim
  | collected c => exact he.elim
  | _ => rfl

theorem replay_cons_of_isNamed (t : JobTable) {c : ChildStatus} (hc : c.isNamed = true)
    (es : List Event) : t.replay (.collected c :: es) = ((t.replay es).observe c).1 := by
  rw [replay, if_pos hc]

theorem replay_cons_of_not_isNamed (t : JobTable) {c : ChildStatus} (hc : c.isNamed = false)
    (es : List Event) : t.replay (.collected c :: es) = t.replay es := by
  rw [replay, hc]
  rfl

theorem WellFormed.replay {t : JobTable} (ht : t.WellFormed) (es : List Event) :
    (t.replay es).WellFormed := by
  induction es with
  | nil => exact ht
  | cons e es ih =>
    cases e with
    | changed op => exact ih.apply op
    | collected c =>
      rw [JobTable.replay]
      split
      · exact ih.observe c
      · exact ih
    | _ => exact ih

/-- **Without changes of the shell's own, the table follows what was heard of children.** -/
theorem replay_eq_observeAll (t : JobTable) {es : List Event} (h : ∀ e ∈ es, ¬ e.IsChange) :
    t.replay es = (t.observeAll (Trace.reported es)).1 := by
  induction es with
  | nil => rfl
  | cons e es ih =>
    have ih' := ih fun d hd => h d (List.mem_cons_of_mem e hd)
    cases e with
    | changed op => exact absurd trivial (h _ List.mem_cons_self)
    | collected c =>
      rw [replay, Trace.reported, observeAll_append, ih']
      split
      · rfl
      · rfl
    | _ => exact ih'

end JobTable

/-! ## 5. What fits a run -/

/-- How the latest process of a number ended, if that was collected since it was started. -/
def Trace.endOf? (pid : Int) : List Event → Option Change
  | [] => none
  | .forked p :: es => if p = pid then none else endOf? pid es
  | .collected c :: es => if c.pid = pid ∧ c.isEnd then some c.change else endOf? pid es
  | _ :: es => endOf? pid es

namespace Event

/-- **What fits a run that began with the table `t₀`.** A table that is shown, slept with, or left by
the handler for children is the one that the events before make; that handler collects to the end;
what is entered is a process that was not collected after its end; nothing is refused but a process
that is there already; and no change of a state is refused. -/
def Fits (t₀ : JobTable) : Event → List Event → Prop
  | handled t n, es => n = Signal.child → t = t₀.replay es ∧ Trace.Exhausted es
  | slept t _, es => t = t₀.replay es
  | listed t, es => t = t₀.replay es
  | changed (.add pid state cmdline), es =>
    Trace.endOf? pid es = none ∧ ∃ r, (t₀.replay es).add pid state cmdline = .ok r
  | changed (.remove _), _ => False
  | refused pid e, _ => e = .duplicatePid pid
  | kept _ _, _ => False
  | _, _ => True

theorem fits_of_isQuiet {t₀ : JobTable} {e : Event} (he : e.IsQuiet) (es : List Event) :
    e.Fits t₀ es := by
  cases e with
  | changed op => exact he.elim
  | refused pid e => exact he.elim
  | kept id state => exact he.elim
  | slept t m => exact he.elim
  | listed t => exact he.elim
  | handled t n => exact fun hn => absurd hn he
  | _ => trivial

/-- What fits a run fits it after what was before. -/
theorem Fits.append {t₀ : JobTable} {e : Event} {later : List Event} (he : ¬ e.IsChange)
    {earlier : List Event} (h : e.Fits (t₀.replay earlier) later) :
    e.Fits t₀ (later ++ earlier) := by
  cases e with
  | changed op => exact absurd trivial he
  | handled t n =>
    intro hn
    obtain ⟨ht, hex⟩ := h hn
    exact ⟨ht.trans (t₀.replay_append later earlier).symm, hex.append⟩
  | slept t m => exact h.trans (t₀.replay_append later earlier).symm
  | listed t => exact h.trans (t₀.replay_append later earlier).symm
  | refused pid e => exact h
  | kept id state => exact h
  | _ => trivial

end Event

/-- **A run in which the shell makes no changes of its own may follow any run.** -/
theorem Trace.fits_append {t₀ : JobTable} {later earlier : List Event}
    (hl : Always (Event.Fits (t₀.replay earlier)) later) (hk : ∀ e ∈ later, ¬ e.IsChange)
    (he : Always (Event.Fits t₀) earlier) : Always (Event.Fits t₀) (later ++ earlier) := by
  refine always_append.2 ⟨?_, he⟩
  induction later with
  | nil => trivial
  | cons e es ih =>
    have hfit : e.Fits t₀ (es ++ earlier) := hl.1.append (hk e List.mem_cons_self)
    exact ⟨hfit, ih hl.2 fun d hd => hk d (List.mem_cons_of_mem e hd)⟩

end JobShell
