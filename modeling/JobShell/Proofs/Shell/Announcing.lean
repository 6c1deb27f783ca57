import JobShell.Proofs.Shell.Failing
import JobShell.Proofs.Shell.Signalling
import JobShell.Proofs.Text.Whole

/-!
# How a job is announced

A job in the background is announced when its program is started, under the line as it was given,
and again when it is told to go on, under the line that the table holds.

* `line_announcement_eq_iff` compares the two: they are the same if the line can be stored whole,
  and not otherwise.
* `JobTable.Knows` says that a process has no job but one of a certain number and line. Handlers and
  everything that the shell does keep it (`watches_known`, `lasts_known`), until the process is
  entered once more.
* `startJob_entersAs` and `locked_startedAs` are about the start: the job is known by its line when
  the block has ended.
* `resume_writesFirst`: to go on in the background begins with the announcement.
* `announced_as_stored_iff` puts this together, for every line, and everything that may happen
  between the two.
-/

namespace JobShell

open Act Trace
open Text (width bytes decode?)

/-! ## 1. Two lines about a job -/

section Lines

variable {id : Nat} {pid : Int}

/-- **The announcement under the stored line is written whole.** -/
theorem line_announcement_stored (hid : id ≤ capacity) (hpid : pid.natAbs ≤ 2 ^ 31)
    (l : StoredLine) :
    line (Job.announcement id pid l.text) = bytes (Job.announcement id pid l.text ++ "\n") :=
  (sentWhole_announcement hid hpid l).line_eq

/-- **A job is announced under its whole line as it is under the stored one exactly if that is the
whole line.** -/
theorem line_announcement_eq_iff (hid : id ≤ capacity) (hpid : pid.natAbs ≤ 2 ^ 31)
    (text : String) :
    line (Job.announcement id pid text) =
        line (Job.announcement id pid (StoredLine.ofString text).text) ↔
      width text.toList ≤ lineLimit := by
  constructor
  · intro h
    by_contra hlong
    have hstored : width (StoredLine.ofString text).text.toList ≤ lineLimit :=
      (StoredLine.ofString text).width_le
    have htag := width_tag_le hid hpid
    have hroom : bufferSize = lineLimit + 64 := rfl
    have hlength := congrArg List.length h
    rw [length_line, length_line, width_announcement, width_announcement] at hlength
    omega
  · intro h
    rw [StoredLine.text_ofString_of_le h]

end Lines

/-! ## 2. The line that a job is known by -/

namespace JobTable

variable {t t' : JobTable} {id : Nat} {pid : Int} {text : String}

/-- A process has no job but the one of a number, which is known by a line. -/
def Knows (t : JobTable) (id : Nat) (pid : Int) (text : String) : Prop :=
  ∀ k a, t.get? k = some a → a.pid = pid → k = id ∧ a.cmdline = .ofString text

/-- It is enough that the jobs are old ones, in whatever states. -/
theorem Knows.of_states (h : t.Knows id pid text)
    (hold : ∀ k b, t'.get? k = some b → ∃ a state, t.get? k = some a ∧ b = { a with state }) :
    t'.Knows id pid text := by
  intro k b hb hpid
  obtain ⟨a, state, ha, rfl⟩ := hold k b hb
  exact h k a ha hpid

theorem knows_add {state : JobState} (hadd : t.add pid state text = .ok (id, t')) :
    t'.Knows id pid text := by
  obtain ⟨-, hfresh, -⟩ := add_eq_ok hadd
  intro k a ha hpid
  rw [(get?_add hadd).2 k] at ha
  split at ha
  · rename_i hk
    cases ha
    exact ⟨hk, rfl⟩
  · exact absurd hpid (ofPid?_eq_none_iff.1 hfresh k a ha)

/-- Other processes may be entered. -/
theorem Knows.add (h : t.Knows id pid text) {p : Int} {state : JobState} {cmdline : String}
    {k : Nat} (hadd : t.add p state cmdline = .ok (k, t')) (hp : p ≠ pid) :
    t'.Knows id pid text := by
  intro j a ha hpid
  rw [(get?_add hadd).2 j] at ha
  split at ha
  · cases ha
    exact absurd hpid hp
  · exact h j a ha hpid

theorem Knows.setState (h : t.Knows id pid text) {k : Nat} {state : JobState}
    (hset : t.setState k state = some t') : t'.Knows id pid text := by
  refine h.of_states fun j b hb => ?_
  rw [get?_setState hset] at hb
  split at hb
  · rename_i hj
    obtain ⟨a, ha, rfl⟩ := Option.map_eq_some_iff.1 hb
    exact ⟨a, state, hj ▸ ha, rfl⟩
  · exact ⟨b, b.state, hb, rfl⟩

theorem Knows.observe (h : t.Knows id pid text) (ht : t.WellFormed) (c : ChildStatus) :
    (t.observe c).1.Knows id pid text := by
  refine h.of_states fun j b hb => ?_
  rw [ht.get?_observe, Option.bind_eq_some_iff] at hb
  obtain ⟨a, ha, hab⟩ := hb
  rcases Job.after?_eq_some hab with rfl | rfl
  · exact ⟨b, b.state, ha, rfl⟩
  · exact ⟨a, .stopped, ha, rfl⟩

end JobTable

/-- A process was entered as a job. -/
def Trace.Enters (pid : Int) (es : List Event) : Prop :=
  ∃ state cmdline, .changed (.add pid state cmdline) ∈ es

theorem Trace.Enters.cons {pid : Int} {es : List Event} (h : Enters pid es) (e : Event) :
    Enters pid (e :: es) := by
  obtain ⟨state, cmdline, hmem⟩ := h
  exact ⟨state, cmdline, List.mem_cons_of_mem e hmem⟩

namespace Shell

variable {σ : Type} {s s₁ s₂ : Shell σ} {m : Mask} {id : Nat} {pid : Int} {text : String}

/-- A process has no job but the one that is known, unless it was entered once more. -/
def Known (id : Nat) (pid : Int) (text : String) (t : JobTable) (es : List Event) : Prop :=
  t.WellFormed ∧ (Enters pid es ∨ t.Knows id pid text)

theorem Known.cons {t : JobTable} {es : List Event} (h : Known id pid text t es) (e : Event) :
    Known id pid text t (e :: es) :=
  ⟨h.1, h.2.imp_left fun hre => hre.cons e⟩

/-- **Handlers leave the line of a job alone.** -/
theorem watches_known (k : Nat) (d : Dispositions) : Watches k d (Known id pid text) where
  aside _ e _ _ h := h.cons e
  forwards _ _ _ h := h.cons _
  handles _ h := h.cons _
  answered _ h := h.cons _
  observes c h := ⟨h.1.observe c, h.2.imp_right fun hk => hk.observe h.1 c⟩

variable [Host σ]

/-- **So does the shell**, until it enters the process once more. -/
theorem lasts_known (hd : s.dispositions.CollectsOnChild) :
    Lasts s (Known id pid text) fun _ _ => True where
  aside _ e _ _ h := h.cons e
  added {t t' es p state cmdline k} hadd h := by
    refine ⟨h.1.add hadd, ?_⟩
    by_cases hp : p = pid
    · subst hp
      exact Or.inl ⟨state, cmdline, List.mem_cons_self⟩
    · exact (h.cons _).2.imp_right fun hk => hk.add hadd hp
  restated hset h := ⟨h.1.setState hset, (h.cons _).2.imp_right fun hk => hk.setState hset⟩
  ends _ := trivial
  deliver depth m := (deliver_left (fun k => watches_known k _) hd depth).mono (fun _ h => h)
    (fun _ _ h => h) fun _ h => h.mono fun _ _ _ => trivial

/-! ## 3. A launch -/

/-- A process was entered in the background under the number that is told, if one is. -/
def EntersAs (s₀ : Shell σ) (text : String) (r : Except Reason (Option (Nat × Int)))
    (s : Shell σ) : Prop :=
  s.dispositions = s₀.dispositions ∧
    ∀ id pid, r = .ok (some (id, pid)) → s₀.table.add pid .background text = .ok (id, s.table)

omit [Host σ] in
theorem calm_entersAs (r : Except Reason (Option (Nat × Int))) : Calm (EntersAs s text r) :=
  ⟨⟨fun h => h, fun h => h⟩, fun _ h => h⟩

omit [Host σ] in
theorem entersAs_of_ne {r : Except Reason (Option (Nat × Int))} (hr : ∀ job, r ≠ .ok (some job))
    (hd : s₁.dispositions = s.dispositions) : EntersAs s text r s₁ :=
  ⟨hd, fun _ _ h => (hr _ h).elim⟩

/-- **A program that was started in the background has been entered.** -/
theorem startJob_entersAs (s : Shell σ) {c : Command} (hback : c.background = true) (text : String)
    (b : Block) :
    Meets (At (fun s' => s'.table = s.table ∧ s'.dispositions = s.dispositions) m)
      (startJob c text b) (fun r => At (EntersAs s text r) m) fun _ => True := by
  have calm : Calm fun s' : Shell σ => s'.table = s.table ∧ s'.dispositions = s.dispositions :=
    ⟨⟨fun h => h, fun h => h⟩, fun _ h => h⟩
  have hstate : startState c = .background := by rw [startState, if_pos hback]
  have hnone (job : Nat × Int) : (.ok none : Except Reason (Option (Nat × Int))) ≠ .ok (some job) :=
    fun h => by cases h
  have refuse (message : String) : Meets (At (EntersAs s text (.ok none)) m)
      (say message >>= fun _ => pure (.ok none)) (fun r => At (EntersAs s text r) m) fun _ => True :=
    ((calm_entersAs (.ok none)).say message).bind fun _ => meets_pure fun _ h => h
  unfold startJob
  refine calm.jobs.bind fun t => ?_
  split
  · exact (refuse _).pre fun _ h => ⟨entersAs_of_ne hnone h.1.1.2, h.2⟩
  · refine Meets.bind (Q := fun _ => At (fun s' => s'.table = s.table ∧
      s'.dispositions = s.dispositions) m) ?_ fun r => ?_
    · exact meets_of_on (on_fork b c) fun _ h => ⟨h.1.1, h.2⟩
    · cases r with
      | error r =>
        exact meets_pure fun s' h => ⟨entersAs_of_ne (fun _ h => by cases h) h.1.2, h.2⟩
      | ok pid =>
        -- the number that is told is the one under which the process was entered
        refine Meets.bind (Q := fun r => At (EntersAs s text (.ok (r.toOption.map (·, pid)))) m)
          (fun s' h => ?_) fun r => ?_
        · obtain ⟨⟨htable, hd⟩, hm⟩ := h
          cases hadd : s'.table.add pid (startState c) text with
          | error e =>
            rw [on_enter_of_error hadd]
            exact ⟨entersAs_of_ne hnone hd, hm⟩
          | ok r =>
            obtain ⟨id, t'⟩ := r
            rw [on_enter_of_ok hadd]
            rw [htable, hstate] at hadd
            refine ⟨⟨hd, fun _ _ hr => ?_⟩, hm⟩
            cases hr
            exact hadd
        · cases r with
          | error e =>
            exact ((calm_entersAs (.ok none)).send pid Signal.kill).bind fun _ => refuse _
          | ok id =>
            refine ((calm_entersAs (.ok (some (id, pid)))).note _ _ _ _).bind fun _ => ?_
            exact meets_pure fun _ h => h

/-- The process that is told has no job but the one that is known. -/
def StartedAs (text : String) (r : Except Reason (Option (Nat × Int))) (t : JobTable)
    (_ : List Event) : Prop :=
  ∀ id pid, r = .ok (some (id, pid)) → id ≤ capacity ∧ t.WellFormed ∧ t.Knows id pid text

omit [Host σ] in
theorem watches_startedAs (r : Except Reason (Option (Nat × Int))) (k : Nat) (d : Dispositions) :
    Watches k d (StartedAs text r) where
  aside _ _ _ _ h := h
  forwards _ _ _ h := h
  handles _ h := h
  answered _ h := h
  observes c h id pid hr :=
    let ⟨hid, ht, hk⟩ := h id pid hr
    ⟨hid, ht.observe c, hk.observe ht c⟩

/-- **A job that was started is known by its line**, if it is there at the end of the block. -/
theorem locked_startedAs (hd : s.dispositions.CollectsOnChild) (ht : s.table.WellFormed)
    {c : Command} (hback : c.background = true)
    (hstart : (locked interruptible (startJob c text)).on s = (.ok (.ok (some (id, pid))), s₁)) :
    s₁.dispositions = s.dispositions ∧ id ≤ capacity ∧ s₁.table.WellFormed ∧
      s₁.table.Knows id pid text := by
  let told : Except Reason (Option (Nat × Int)) → Shell σ → Prop := fun r s' =>
    s'.dispositions = s.dispositions ∧ StartedAs text r s'.table []
  have loose (r : Except Reason (Option (Nat × Int))) : Loose (told r) := ⟨fun h => h, fun h => h⟩
  have hmeets : Meets (At (fun s' => s'.table = s.table ∧ s'.dispositions = s.dispositions) s.mask)
      (locked interruptible (startJob c text)) (fun r => At (told r) s.mask) fun _ => True := by
    refine meets_locked ⟨fun h => h, fun h => h⟩ loose ?_ fun r => ?_
    · refine (startJob_entersAs s hback text _).post fun r s' h =>
        ⟨⟨h.1.1, fun id pid hr => ?_⟩, h.2⟩
      have hadd := h.1.2 id pid hr
      have hjob := (JobTable.get?_add hadd).2 id
      rw [if_pos rfl] at hjob
      exact ⟨(JobTable.le_capacity_of_get? hjob).2, ht.add hadd, JobTable.knows_add hadd⟩
    · -- the signals that had to wait are taken: the job may end, but nothing is entered
      refine Meets.pointwise fun s' hs' => ?_
      obtain ⟨⟨hd', htold⟩, hm⟩ := hs'
      have start : At (Left s' (StartedAs text r)) s.mask s' := ⟨⟨rfl, [], rfl, htold⟩, hm⟩
      have hdeliver : Meets (At (Left s' (StartedAs text r)) s.mask) (deliver s'.patience)
          (fun _ => At (Left s' (StartedAs text r)) s.mask) (Left s' (StartedAs text r)) :=
        deliver_left (fun k => watches_startedAs r k _) (hd' ▸ hd) s'.patience
      unfold interruptible
      refine meets_get_bind fun s'' hs'' => ?_
      subst hs''
      refine hdeliver.mono (fun _ e => e ▸ start) (fun _ s₂ h => ?_) fun _ _ => trivial
      obtain ⟨⟨hd'', es, -, hr⟩, hm'⟩ := h
      exact ⟨⟨hd''.trans hd', hr⟩, hm'⟩
  obtain ⟨⟨hd', htold⟩, -⟩ := hmeets.of_ok ⟨⟨rfl, rfl⟩, rfl⟩ hstart
  exact ⟨hd', htold id pid rfl⟩

/-! ## 4. A command to go on -/

/-- **Some bytes are the first thing that an act writes**; before, it only looks at the table. -/
def WritesFirst (a : Act σ Unit) (s : Shell σ) (bs : List UInt8) : Prop :=
  ∃ after looks, (a.on s).2.trace = after ++ .wrote bs :: (looks ++ s.trace) ∧
    ∀ e ∈ looks, ∃ m, e = .used m

/-- Whatever happens, the events so far stay. -/
theorem lasts_any (hd : s.dispositions.CollectsOnChild) :
    Lasts s (fun _ _ => True) fun _ _ => True where
  aside _ _ _ _ h := h
  added _ h := h
  restated _ h := h
  ends h := h
  deliver depth _ := deliver_left
    (fun _ => ⟨fun _ _ _ _ h => h, fun _ _ _ h => h, fun _ h => h, fun _ h => h, fun _ h => h⟩) hd
    depth

/-- **To go on in the background begins with the announcement** of the job under the line that the
table holds. -/
theorem resume_writesFirst (hd : s.dispositions.CollectsOnChild) {name : String} {c : Command}
    {a : Job} (hmeant : c.meant? name s.table = some (id, pid)) (ha : s.table.get? id = some a) :
    WritesFirst (resume name .background c) s (line (Job.announcement id pid a.cmdline.text)) := by
  let bs : List UInt8 := line (Job.announcement id pid a.cmdline.text)
  let look : Event := .used s.mask.withAll
  -- the shell when it has written
  let w : Shell σ := { s with trace := .wrote bs :: look :: look :: s.trace }
  obtain ⟨ref, href, hjob⟩ : ∃ ref, JobRef.ofArg name c.args[1]? = .ok ref ∧
      ref.resolve? s.table = some (id, pid) := by
    unfold Command.meant? at hmeant
    split at hmeant
    · rename_i ref href
      exact ⟨ref, href, hmeant⟩
    · cases hmeant
  have lasts : Lasts w (fun _ _ => True) fun _ _ => True := lasts_any hd
  have hcontinue : Meets (· = looked (inside s)) (continueJob name .background id pid)
      (fun _ => At (Left w fun _ _ => True) s.mask.withAll) (Left w fun _ _ => True) := by
    have finish := (lasts.restate id .background).bind fun _ =>
      lasts.calm.note (m := s.mask.withAll) .debug builtinTarget "resumed"
        (stateFields id pid .background)
    unfold continueJob
    rw [if_pos rfl]
    refine Meets.bind (Q := fun t s' => t = s.table ∧ s' = looked (looked (inside s)))
      (meets_of_on on_jobs fun s' h => ?_) fun t => Meets.pointwise fun s' h => ?_
    · subst h
      exact ⟨rfl, rfl⟩
    · obtain ⟨rfl, rfl⟩ := h
      rw [ha]
      refine Meets.bind (Q := fun _ => At (Left w fun _ _ => True) s.mask.withAll)
        (meets_of_on (on_say _) fun s' h => ?_) fun _ => ?_
      · subst h
        exact ⟨⟨rfl, [], rfl, trivial⟩, rfl⟩
      · refine Meets.bind (Q := fun _ => At (Left w fun _ _ => True) s.mask.withAll)
          (meets_of_on (on_sendGroup pid Signal.resume) fun s' h => ?_) fun r => ?_
        · exact ⟨h.1.cons rfl rfl fun _ _ => trivial, h.2⟩
        · cases r with
          | none => exact finish
          | some r => exact (lasts.calm.note _ _ _ _).bind fun _ => finish
  have hbody : Meets (· = inside s) (resumeJob name .background c ⟨s.mask⟩)
      (fun _ => At (Left w fun _ _ => True) s.mask.withAll) (Left w fun _ _ => True) := by
    unfold resumeJob
    rw [href]
    refine Meets.bind (Q := fun t s' => t = s.table ∧ s' = looked (inside s))
      (meets_of_on on_jobs fun s' h => ?_) fun t => Meets.pointwise fun s' h => ?_
    · subst h
      exact ⟨rfl, rfl⟩
    · obtain ⟨rfl, rfl⟩ := h
      rw [hjob]
      refine hcontinue.bind fun _ => ?_
      exact meets_pure fun _ h => h
  have hmeets : Meets (· = s) (resume name .background c)
      (fun _ => Left w fun _ _ => True) (Left w fun _ _ => True) := by
    unfold resume locked
    refine Meets.bind (Q := fun b s' => b = ⟨s.mask⟩ ∧ s' = inside s)
      (meets_of_on on_openBlock fun s' h => ?_) fun b => Meets.pointwise fun s' h => ?_
    · subst h
      exact ⟨rfl, rfl⟩
    · obtain ⟨rfl, rfl⟩ := h
      refine hbody.bind fun _ => (lasts.calm.setMask _).bind fun _ => ?_
      exact lasts.interruptible.bind fun _ => meets_pure fun _ h => h.1
  obtain ⟨-, after, htrace, -⟩ := hmeets.after rfl
  refine ⟨after, [look, look], htrace, fun e he => ?_⟩
  have hlook : e = look := by simpa using he
  exact ⟨_, hlook⟩

/-! ## 5. Both announcements -/

/-- The shell when it has written a message. -/
def written (s : Shell σ) (text : String) : Shell σ :=
  { s with host := (Host.write s.host (line text)).1, trace := .wrote (line text) :: s.trace }

/-- **A job is known by its line after any rounds**, unless its process was entered once more. -/
theorem conduct_knows (hd : s.dispositions.CollectsOnChild) (ht : s.table.WellFormed)
    (hknows : s.table.Knows id pid text) {rounds : List (Round σ)} {es : List Event}
    (hrounds : (conduct rounds).on s = (.ok (), s₂)) (htrace : s₂.trace = es ++ s.trace)
    (hkept : ¬ Enters pid es) :
    s₂.dispositions = s.dispositions ∧ s₂.table.WellFormed ∧ s₂.table.Knows id pid text := by
  have start : At (Left s (Known id pid text)) s.mask s := ⟨⟨rfl, [], rfl, ht, Or.inr hknows⟩, rfl⟩
  have lasts : Lasts s (Known id pid text) fun _ _ => True := lasts_known hd
  have run := lasts.conduct (m := s.mask) (fun _ _ _ _ _ h => h.cons _) rounds
  obtain ⟨⟨hd', es', htrace', ht', hor⟩, -⟩ := run.of_ok start hrounds
  have hes : es' = es := List.append_cancel_right (htrace'.symm.trans htrace)
  exact ⟨hd', ht', hor.resolve_left (hes ▸ hkept)⟩

/-- **How a job in the background is announced.** When it was started, the announcement has the line
as it was given. As long as its process is not entered once more, every later announcement has the
line that the table holds, if the process still has a job; that is always text that ends in a
newline. The two are the same exactly if the line can be stored whole, and the first one is text
exactly if it fits, or is cut between two characters. -/
theorem announced_as_stored_iff (hd : s.dispositions.CollectsOnChild) (ht : s.table.WellFormed)
    {c : Command} (hback : c.background = true) (hargs : c.args.any hasNul = false)
    (hstart : (locked interruptible (startJob c text)).on s = (.ok (.ok (some (id, pid))), s₁))
    (hpid : pid.natAbs ≤ 2 ^ 31) :
    let first := line (Job.announcement id pid text)
    let later := line (Job.announcement id pid (StoredLine.ofString text).text)
    (launch c text).on s = (.ok (), s₁.written (Job.announcement id pid text)) ∧
      (∀ rounds s₂ es, (conduct rounds).on (s₁.written (Job.announcement id pid text)) =
          (.ok (), s₂) → s₂.trace = es ++ .wrote first :: s₁.trace → ¬ Enters pid es →
        ∀ c' cmdline k, c'.program? = some "bg" → c'.meant? "bg" s₂.table = some (k, pid) →
          WritesFirst (execute c' cmdline) s₂ later) ∧
      later = bytes (Job.announcement id pid (StoredLine.ofString text).text ++ "\n") ∧
      first.getLast? = some newline ∧
      (first = later ↔ width text.toList ≤ lineLimit) ∧
      ((∃ s, decode? first = some s) ↔
        ∃ cs, cs <+: (Job.announcement id pid text).toList ∧
          width cs = min (bufferSize - 1) (width (Job.announcement id pid text).toList)) := by
  intro first later
  obtain ⟨hd₁, hid, ht₁, hknows⟩ := locked_startedAs hd ht hback hstart
  refine ⟨?_, ?_, line_announcement_stored hid hpid _, getLast?_line _,
    line_announcement_eq_iff hid hpid text, decode?_line_iff _⟩
  · rw [launch, if_neg (by rw [hargs]; exact Bool.false_ne_true), on_bind, hstart]
    rfl
  · intro rounds s₂ es hrounds htrace hkept c' cmdline k hname hmeant
    obtain ⟨hd₂, ht₂, hknows₂⟩ := conduct_knows (s := s₁.written (Job.announcement id pid text))
      (hd₁.symm ▸ hd) ht₁ hknows hrounds htrace hkept
    obtain ⟨a, ha, hapid⟩ := exists_job_of_meant? ht₂ hmeant
    obtain ⟨rfl, hline⟩ := hknows₂ k a ha hapid
    have hfirst := resume_writesFirst ((hd₂.trans hd₁).symm ▸ hd) hmeant ha
    rw [hline] at hfirst
    rw [execute_of_builtin (b := .background) hname]
    exact hfirst

/-- A line of six bytes too many is announced whole when its program is started, and without its end
when the job goes on. -/
theorem announced_as_stored_iff_long :
    let text := String.ofList (List.replicate 1030 'a')
    let first := line (Job.announcement 1 61001 text)
    let later := line (Job.announcement 1 61001 (StoredLine.ofString text).text)
    ∃ s' : Session, (launch ⟨["sleep", "100"], none, none, true⟩ text).on
        (Session.start { files := .empty }) = (.ok (), s') ∧
      (∃ es, s'.trace = .wrote first :: es) ∧
      WritesFirst (execute ⟨["bg", "%1"], none, none, false⟩ "bg %1") s' later ∧ first ≠ later := by
  intro text first later
  let s : Session := Session.start { files := .empty }
  let c : Command := ⟨["sleep", "100"], none, none, true⟩
  let t : JobTable := s.table.put 0 (some ⟨1, 61001, .background, StoredLine.ofString text⟩)
  have hadd : s.table.add s.host.nextPid (startState c) text = .ok (1, t) := rfl
  obtain ⟨trace, kc, -, hstart⟩ := on_launch_background (atPrompt_start rfl) rfl (c := c) rfl hadd
  obtain ⟨hlaunch, hresume, -, -, hsame, -⟩ := announced_as_stored_iff (s := s)
    Dispositions.collectsOnChild_installed JobTable.wellFormed_empty rfl (by decide) hstart
    (by decide)
  have hkept : ¬ Enters 61001 [] := by
    rintro ⟨state, cmdline, hmem⟩
    cases hmem
  refine ⟨_, hlaunch, ⟨_, rfl⟩, ?_, fun heq => ?_⟩
  · exact hresume [] _ [] rfl rfl hkept _ _ 1 rfl (by rfl)
  · have hwidth : ¬ width text.toList ≤ lineLimit := by
      rw [String.toList_ofList]
      decide +kernel
    exact hwidth (hsame.1 heq)

end Shell

end JobShell
