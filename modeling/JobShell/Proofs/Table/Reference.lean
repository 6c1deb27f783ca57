import Mathlib.Data.List.TakeWhile
import JobShell.Proofs.Table.Runs

/-!
# What a reference resolves to

References are read with bounds: a number too large for the identifiers it stands for counts as 0.
They resolve as if there were none.

* `Text.number` is the number that the digits at the start of a text write, of any length.
* `resolve?_job_bounded` and `resolve?_process_bounded` say that the bounds cost nothing: what they
  cut off is the number of no job and of no process.
* `JobRef.seek` reads a reference and resolves it; `seek_job` and `seek_process` say what comes of
  the two forms.
* `SeeksExactly` is what this comes to for every argument, and `run_empty_seeks_exactly` that it
  holds of the tables that changes of the empty one lead to.
-/

namespace JobShell

/-! ## 1. Numbers -/

namespace Text

/-- The number written by the digits at the start of a text, 0 if there are none. -/
def number (cs : List Char) : Nat := Nat.ofDigitChars 10 (cs.takeWhile Char.isDigit) 0

theorem valueFrom_eq (acc : Nat) (cs : List Char) :
    valueFrom acc cs = Nat.ofDigitChars 10 cs acc := by
  induction cs generalizing acc with
  | nil => rfl
  | cons c cs ih => exact ih _

theorem leadingNatural_eq (cs : List Char) : leadingNatural cs = number cs :=
  valueFrom_eq 0 _

theorem isDigit_of_mem_naturalDigits {n : Nat} {c : Char} (h : c ∈ naturalDigits n) :
    c.isDigit = true :=
  Nat.isDigit_of_mem_toDigits (by decide) (by decide) h

/-- **What is written is read back.** -/
theorem number_naturalDigits (n : Nat) : number (naturalDigits n) = n := by
  have hall : (naturalDigits n).takeWhile Char.isDigit = naturalDigits n :=
    List.takeWhile_eq_self_iff.2 fun _ h => isDigit_of_mem_naturalDigits h
  unfold number
  rw [hall]
  exact Nat.ofDigitChars_toDigits (by decide) (by decide)

/-- A number is written with a digit in front. -/
theorem naturalDigits_eq_cons (n : Nat) :
    ∃ c cs, naturalDigits n = c :: cs ∧ c.isDigit = true := by
  cases h : naturalDigits n with
  | nil => exact absurd h Nat.toDigits_ne_nil
  | cons c cs => exact ⟨c, cs, rfl, isDigit_of_mem_naturalDigits (h ▸ List.mem_cons_self)⟩

end Text

/-! ## 2. Bounds -/

namespace JobTable

/-- The processes of a table have identifiers as processes have them: positive numbers of 31 bits. -/
def PidsInRange (t : JobTable) : Prop :=
  ∀ a ∈ t.jobs, 0 < a.pid ∧ a.pid < JobRef.pidBound

instance : DecidablePred PidsInRange := fun t => inferInstanceAs (Decidable (∀ a ∈ t.jobs, _))

theorem PidsInRange.get? {t : JobTable} (h : t.PidsInRange) {id : Nat} {a : Job}
    (ha : t.get? id = some a) : 0 < a.pid ∧ a.pid < JobRef.pidBound :=
  h a (mem_jobs_iff.2 ⟨id, ha⟩)

end JobTable

namespace JobRef

open JobTable (PidsInRange)

variable {t : JobTable} {id n : Nat} {p pid : Int}

theorem resolve?_job : (job n).resolve? t = some (id, pid) ↔
    id = n ∧ ∃ a, t.get? id = some a ∧ a.pid = pid := by
  rw [resolve?, Option.map_eq_some_iff]
  constructor
  · intro hfound
    obtain ⟨pid', h, he⟩ := hfound
    cases he
    exact ⟨rfl, JobTable.pidOf?_eq_some_iff.1 h⟩
  · intro hjob
    obtain ⟨rfl, h⟩ := hjob
    exact ⟨pid, JobTable.pidOf?_eq_some_iff.2 h, rfl⟩

theorem resolve?_process (ht : t.WellFormed) : (process p).resolve? t = some (id, pid) ↔
    pid = p ∧ ∃ a, t.get? id = some a ∧ a.pid = pid := by
  rw [resolve?, Option.map_eq_some_iff]
  constructor
  · intro hfound
    obtain ⟨id', h, he⟩ := hfound
    cases he
    exact ⟨rfl, ht.ofPid?_eq_some_iff.1 h⟩
  · intro hjob
    obtain ⟨rfl, h⟩ := hjob
    exact ⟨id, ht.ofPid?_eq_some_iff.2 h, rfl⟩

theorem bounded_of_lt {bound : Nat} (h : n < bound) : bounded bound n = n := if_pos h

theorem bounded_of_le {bound : Nat} (h : bound ≤ n) : bounded bound n = 0 :=
  if_neg (Nat.not_lt.2 h)

/-- **A number too large is the number of no job**, as 0 is. -/
theorem resolve?_job_bounded :
    (job (bounded idBound n)).resolve? t = (job n).resolve? t := by
  rcases Nat.lt_or_ge n idBound with hlt | hge
  · rw [bounded_of_lt hlt]
  · have hnone : (job n).resolve? t = none := by
      refine Option.eq_none_iff_forall_ne_some.2 fun r h => ?_
      obtain ⟨rfl, a, ha, _⟩ := resolve?_job.1 h
      have hle : idBound ≤ capacity := hge.trans (JobTable.le_capacity_of_get? ha).2
      exact absurd hle (by decide)
    rw [bounded_of_le hge, hnone]
    rfl

/-- **A number too large is the number of no process**, as 0 is. -/
theorem resolve?_process_bounded (hpids : t.PidsInRange) :
    (process (bounded pidBound n)).resolve? t = (process n).resolve? t := by
  rcases Nat.lt_or_ge n pidBound with hlt | hge
  · rw [bounded_of_lt hlt]
  · have hnone : ∀ q : Int, q ≤ 0 ∨ pidBound ≤ q → (process q).resolve? t = none := by
      intro q hq
      rw [resolve?, JobTable.ofPid?_eq_none_iff.2, Option.map_none]
      intro id a ha e
      have hrange := hpids.get? ha
      omega
    have hzero : (process (0 : Nat)).resolve? t = none := hnone 0 (.inl (Int.le_refl 0))
    rw [bounded_of_le hge, hzero, hnone n (.inr (Int.ofNat_le.2 hge))]

/-! ## 3. Reading and resolving -/

/-- Reads a reference and resolves it. -/
def seek (name : String) (t : JobTable) (arg : Option String) :
    Except RefError (Option (Nat × Int)) :=
  (ofArg name arg).map (·.resolve? t)

variable {name arg : String} {c : Char} {cs : List Char}

/-- **After a percent sign stands the number of a job**, whatever its size. -/
theorem seek_job (harg : arg.toList = '%' :: cs) :
    seek name t (some arg) = .ok ((job (Text.number cs)).resolve? t) := by
  simp only [seek, ofArg, harg]
  rw [Except.map, resolve?_job_bounded, Text.leadingNatural_eq]

/-- **A digit starts the number of a process**, whatever its size. -/
theorem seek_process (hpids : t.PidsInRange) (harg : arg.toList = c :: cs)
    (hc : c.isDigit = true) :
    seek name t (some arg) = .ok ((process (Text.number (c :: cs))).resolve? t) := by
  have hpercent : c ≠ '%' := by
    intro e
    rw [e] at hc
    exact absurd hc (by decide)
  simp only [seek, ofArg, harg, hc, if_true]
  rw [Except.map, resolve?_process_bounded hpids, Text.leadingNatural_eq]

/-- **Nothing else is a reference.** -/
theorem seek_of_other (h : ∀ c ∈ arg.toList.head?, c ≠ '%' ∧ c.isDigit = false) :
    seek name t (some arg) = .error (.badArgument name) := by
  simp only [seek, ofArg]
  cases harg : arg.toList with
  | nil => rfl
  | cons c cs =>
    rw [harg] at h
    obtain ⟨hpercent, hdigit⟩ := h c rfl
    simp only [hdigit]
    rfl

/-! ## 4. Every argument -/

/-- A job is found by its number, as it is written after a percent sign. -/
theorem seek_natural {a : Job} (ha : t.get? id = some a) :
    seek name t (some ("%" ++ Text.natural id)) = .ok (some (id, a.pid)) := by
  have harg : ("%" ++ Text.natural id).toList = '%' :: Text.naturalDigits id := by
    rw [Text.natural, String.toList_append, String.toList_ofList, String.toList_ofList]
    rfl
  rw [seek_job harg, Text.number_naturalDigits, resolve?_job.2 ⟨rfl, a, ha, rfl⟩]

/-- A job is found by its process, as it is written. -/
theorem seek_integer (ht : t.WellFormed) (hpids : t.PidsInRange) {a : Job}
    (ha : t.get? id = some a) :
    seek name t (some (Text.integer a.pid)) = .ok (some (id, a.pid)) := by
  obtain ⟨n, hn⟩ := Int.eq_ofNat_of_zero_le (Int.le_of_lt (hpids.get? ha).1)
  obtain ⟨c, cs, hdigits, hc⟩ := Text.naturalDigits_eq_cons n
  have harg : (Text.integer a.pid).toList = c :: cs := by
    rw [hn, Text.integer, String.toList_ofList, ← hdigits]
    rfl
  rw [seek_process hpids harg hc, ← hdigits, Text.number_naturalDigits, ← hn,
    (resolve?_process ht).2 ⟨rfl, a, ha, rfl⟩]

/-- A number of more than 31 bits is neither a job's nor a process's. -/
theorem resolve?_of_pidBound_le (ht : t.WellFormed) (hpids : t.PidsInRange) (hn : pidBound ≤ n) :
    (job n).resolve? t = none ∧ (process n).resolve? t = none := by
  refine ⟨Option.eq_none_iff_forall_ne_some.2 fun r h => ?_,
    Option.eq_none_iff_forall_ne_some.2 fun r h => ?_⟩
  · obtain ⟨rfl, a, ha, _⟩ := resolve?_job.1 h
    have hle : pidBound ≤ capacity := hn.trans (JobTable.le_capacity_of_get? ha).2
    exact absurd hle (by decide)
  · obtain ⟨hr, a, ha, hpid⟩ := (resolve?_process ht).1 h
    have hlt := (hpids.get? ha).2
    omega

end JobRef

namespace JobTable

open JobRef (seek)

/-- **References resolve by exact arithmetic.** -/
structure SeeksExactly (name : String) (t : JobTable) : Prop where
  /-- After a percent sign stands the number of a job. -/
  job : ∀ arg cs, arg.toList = '%' :: cs →
    ∃ found, seek name t (some arg) = .ok found ∧ ∀ id pid, found = some (id, pid) ↔
      id = Text.number cs ∧ ∃ a, t.get? id = some a ∧ a.pid = pid
  /-- A digit starts the number of a process. -/
  process : ∀ arg c cs, arg.toList = c :: cs → c.isDigit = true →
    ∃ found, seek name t (some arg) = .ok found ∧ ∀ id pid, found = some (id, pid) ↔
      pid = Text.number (c :: cs) ∧ ∃ a, t.get? id = some a ∧ a.pid = pid
  other : ∀ arg, (∀ c ∈ arg.toList.head?, c ≠ '%' ∧ c.isDigit = false) →
    seek name t (some arg) = .error (.badArgument name)
  missing : seek name t none = .error (.missingArgument name)
  /-- What does not fit into the identifiers is found nowhere. -/
  large_job : ∀ arg cs, arg.toList = '%' :: cs → JobRef.pidBound ≤ Text.number cs →
    seek name t (some arg) = .ok none
  large_process : ∀ arg c cs, arg.toList = c :: cs → c.isDigit = true →
    JobRef.pidBound ≤ Text.number (c :: cs) → seek name t (some arg) = .ok none
  /-- A job is found by either of its numbers, as they are written. -/
  written : ∀ id a, t.get? id = some a →
    seek name t (some ("%" ++ Text.natural id)) = .ok (some (id, a.pid)) ∧
      seek name t (some (Text.integer a.pid)) = .ok (some (id, a.pid))

theorem WellFormed.seeksExactly {t : JobTable} (ht : t.WellFormed) (hpids : t.PidsInRange)
    (name : String) : t.SeeksExactly name where
  job _ _ harg := ⟨_, JobRef.seek_job harg, fun _ _ => JobRef.resolve?_job⟩
  process _ _ _ harg hc :=
    ⟨_, JobRef.seek_process hpids harg hc, fun _ _ => JobRef.resolve?_process ht⟩
  other _ harg := JobRef.seek_of_other harg
  missing := rfl
  large_job arg cs harg hlarge := by
    rw [JobRef.seek_job harg, (JobRef.resolve?_of_pidBound_le ht hpids hlarge).1]
  large_process arg c cs harg hc hlarge := by
    rw [JobRef.seek_process hpids harg hc, (JobRef.resolve?_of_pidBound_le ht hpids hlarge).2]
  written _ _ ha := ⟨JobRef.seek_natural ha, JobRef.seek_integer ht hpids ha⟩

/-- **References resolve by exact arithmetic in every table that changes of the empty one lead to.** -/
theorem run_empty_seeks_exactly (name : String) (ops : List Op)
    (hpids : (empty.run ops).PidsInRange) : (empty.run ops).SeeksExactly name :=
  (wellFormed_empty.run ops).seeksExactly hpids name

/-- Two jobs, found by numbers with zeros in front and letters behind; numbers that would stand for
one of them after an overflow are found nowhere. -/
theorem run_empty_seeks_exactly_two :
    let t := empty.run [.add 41 .background "a &", .add 42 .foreground "b"]
    t.PidsInRange ∧
      seek "fg" t (some "%2") = .ok (some (2, 42)) ∧
      seek "fg" t (some "42") = .ok (some (2, 42)) ∧
      seek "fg" t (some "4294967338") = .ok none ∧
      seek "fg" t (some "%18446744073709551618") = .ok none ∧
      seek "fg" t (some "x") = .error (.badArgument "fg") := by
  intro t
  have hpids : t.PidsInRange := by decide
  have hexact : t.SeeksExactly "fg" := run_empty_seeks_exactly "fg" _ hpids
  refine ⟨hpids, ?_, ?_, ?_, ?_, ?_⟩
  · exact (hexact.written 2 ⟨2, 42, .foreground, StoredLine.ofString "b"⟩ rfl).1
  · exact (hexact.written 2 ⟨2, 42, .foreground, StoredLine.ofString "b"⟩ rfl).2
  · exact hexact.large_process _ _ _ rfl rfl (by decide +kernel)
  · exact hexact.large_job _ _ rfl (by decide +kernel)
  · refine hexact.other _ fun c hc => ?_
    have hx : some 'x' = some c := hc
    cases hx
    decide

end JobTable

end JobShell
