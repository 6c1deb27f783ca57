import JobShell.Proofs.Table.Reference
import JobShell.Proofs.Text.Lines
import JobShell.Proofs.Text.Sinks

/-!
# Listings

What can be told from a listing, and what becomes of one that is not taken whole.

* `Text.fields` cuts a text at given characters, one after the other, and leaves the rest as it is;
  `Job.ofRow?` reads a line of a listing so, and `ofRow?_row` says that it is read back whatever
  stands in the command line: brackets and blanks in it come after the last cut.
* `JobTable.ofListing?` reads a listing line by line; `ofListing?_listing` says that it gives the
  jobs back if no command line goes on to a new line (`OneLined`).
* `JobTable.list_eq` says that listing is writing the listing at once, and flushing; `taken_list` and
  `list_ok_iff` say what this comes to for a sink with a limit, and `receives_iff` that it comes to
  the same in whatever parts the listing is offered and taken.
-/

namespace JobShell

open Text (bytes)

/-! ## 1. Reading parts of a text -/

namespace Text

/-- What stands before the first of some separators, between it and the next one after it, and so
on; at the end, what stands behind the last one. -/
def fields : List Char → List Char → Option (List (List Char))
  | [], cs => some [cs]
  | sep :: seps, cs =>
    match cs.dropWhile (· ≠ sep) with
    | [] => none
    | _ :: rest => (fields seps rest).map (cs.takeWhile (· ≠ sep) :: ·)

/-- **What stands before a separator is found whatever follows.** -/
theorem fields_cons {sep : Char} {a : List Char} (h : sep ∉ a) (seps cs : List Char) :
    fields (sep :: seps) (a ++ sep :: cs) = (fields seps cs).map (a :: ·) := by
  have hne : ∀ c ∈ a, decide (c ≠ sep) = true := fun c hc =>
    decide_eq_true fun hsep => h (hsep ▸ hc)
  rw [fields, List.dropWhile_append_of_pos hne, List.takeWhile_append_of_pos hne,
    List.dropWhile_cons_of_neg (by simp), List.takeWhile_cons_of_neg (by simp), List.append_nil]

/-- The integer written by digits, after a minus sign or not. -/
def integerValue : List Char → Int
  | '-' :: cs => -(number cs)
  | cs => number cs

/-- A character that is no digit is not in a number. -/
theorem notMem_naturalDigits {c : Char} (h : c.isDigit = false) (n : Nat) : c ∉ naturalDigits n := by
  intro hmem
  rw [isDigit_of_mem_naturalDigits hmem] at h
  cases h

theorem notMem_integerDigits {c : Char} (h : c.isDigit = false) (hminus : c ≠ '-') (z : Int) :
    c ∉ integerDigits z := by
  cases z with
  | ofNat n => exact notMem_naturalDigits h n
  | negSucc n =>
    intro hmem
    rcases List.mem_cons.1 hmem with hc | hmem
    · exact hminus hc
    · exact notMem_naturalDigits h (n + 1) hmem

/-- **What is written is read back**, with its sign. -/
theorem integerValue_integerDigits (z : Int) : integerValue (integerDigits z) = z := by
  cases z with
  | ofNat n =>
    obtain ⟨c, cs, hcs, hdigit⟩ := naturalDigits_eq_cons n
    have hminus : c ≠ '-' := by
      rintro rfl
      cases hdigit
    have hvalue : integerValue (c :: cs) = number (c :: cs) := by
      unfold integerValue
      split
      · rename_i hcons
        exact (hminus (List.cons.inj hcons).1).elim
      · rfl
    rw [integerDigits, hcs, hvalue, ← hcs, number_naturalDigits]
    rfl
  | negSucc n =>
    rw [integerDigits, integerValue, number_naturalDigits]
    rfl

end Text

/-- The state that a word stands for. -/
def JobState.ofDisplay? (word : String) : Option JobState :=
  [undefined, foreground, background, stopped].find? (·.display == word)

theorem JobState.ofDisplay?_display (state : JobState) :
    JobState.ofDisplay? state.display = some state := by
  cases state
  all_goals decide

/-! ## 2. Reading a line -/

namespace Job

/-- A line of the listing, without its end. -/
def row (j : Job) : List Char :=
  '[' :: (Text.naturalDigits j.id ++ ']' :: ' ' :: '(' :: (Text.integerDigits j.pid ++
    ')' :: ' ' :: (j.state.display.toList ++ ' ' :: j.cmdline.text.toList)))

/-- **The parts of a line are the line.** -/
theorem flatMap_listingParts (j : Job) :
    j.listingParts.flatMap bytes = Text.encode (j.row ++ ['\n']) := by
  have hall : j.row ++ ['\n'] = j.listingParts.flatMap String.toList := by
    simp [row, listingParts, Text.natural, Text.integer]
  rw [hall, Text.encode, List.flatMap_assoc]
  rfl

/-- Reads a line of a listing. -/
def ofRow? (cs : List Char) : Option Job :=
  match Text.fields ['[', ']', '(', ')', ' ', ' '] cs with
  | some [[], id, [' '], pid, [], word, cmdline] =>
    (JobState.ofDisplay? (String.ofList word)).map fun state =>
      { id := Text.number id
        pid := Text.integerValue pid
        state
        cmdline := StoredLine.ofString (String.ofList cmdline) }
  | _ => none

/-- **A line is read back, whatever the command line looks like.** -/
theorem ofRow?_row (j : Job) : ofRow? j.row = some j := by
  have hfields : Text.fields ['[', ']', '(', ')', ' ', ' '] j.row =
      some [[], Text.naturalDigits j.id, [' '], Text.integerDigits j.pid, [],
        j.state.display.toList, j.cmdline.text.toList] := by
    have hword : ' ' ∉ j.state.display.toList := by
      cases j.state
      all_goals decide
    have hopen : row j = [] ++ '[' :: (Text.naturalDigits j.id ++ ']' :: ([' '] ++ '(' ::
        (Text.integerDigits j.pid ++ ')' :: ([] ++ ' ' :: (j.state.display.toList ++
          ' ' :: j.cmdline.text.toList))))) := rfl
    rw [hopen, Text.fields_cons List.not_mem_nil,
      Text.fields_cons (Text.notMem_naturalDigits rfl _), Text.fields_cons (by decide),
      Text.fields_cons (Text.notMem_integerDigits rfl (by decide) _),
      Text.fields_cons List.not_mem_nil, Text.fields_cons hword]
    rfl
  rw [ofRow?, hfields]
  show (JobState.ofDisplay? (String.ofList j.state.display.toList)).map _ = _
  rw [String.ofList_toList, String.ofList_toList, JobState.ofDisplay?_display, Option.map_some,
    Text.number_naturalDigits, Text.integerValue_integerDigits, StoredLine.ofString_text]

example : ofRow? "[12] (-7) Running [1] (2) Stopped x ".toList =
    some ⟨12, -7, .background, StoredLine.ofString "[1] (2) Stopped x "⟩ := by
  decide

/-- A line goes on to a new one only in its command line. -/
theorem newline_notMem_row {j : Job} (h : '\n' ∉ j.cmdline.text.toList) : '\n' ∉ j.row := by
  have hword : '\n' ∉ j.state.display.toList := by
    cases j.state
    all_goals decide
  have hid : '\n' ∉ Text.naturalDigits j.id := Text.notMem_naturalDigits rfl _
  have hpid : '\n' ∉ Text.integerDigits j.pid := Text.notMem_integerDigits rfl (by decide) _
  simp [row, hid, hpid, hword, h]

end Job

namespace JobTable

variable {t t' : JobTable}

/-! ## 3. Reading a listing -/

/-- No command line goes on to a new line. -/
def OneLined (t : JobTable) : Prop := ∀ j ∈ t.jobs, '\n' ∉ j.cmdline.text.toList

instance : DecidablePred OneLined := fun t =>
  inferInstanceAs (Decidable (∀ j ∈ t.jobs, '\n' ∉ j.cmdline.text.toList))

/-- Reads a listing, line by line. -/
def ofListing? (bs : List UInt8) : Option (List Job) :=
  (Text.decode? bs).bind fun s => (Text.lines s.toList).mapM Job.ofRow?

/-- **The listing is one line for each job.** -/
theorem listing_eq (t : JobTable) :
    t.listing = Text.encode (t.jobs.flatMap fun j => j.row ++ ['\n']) := by
  rw [listing, listingParts, List.flatMap_assoc, Text.encode, List.flatMap_assoc]
  exact congrArg (t.jobs.flatMap ·) (funext Job.flatMap_listingParts)

theorem lines_rows {all : List Job} (h : ∀ j ∈ all, '\n' ∉ j.cmdline.text.toList) :
    Text.lines (all.flatMap fun j => j.row ++ ['\n']) = all.map Job.row := by
  induction all with
  | nil => rfl
  | cons j all ih =>
    obtain ⟨hj, hall⟩ := List.forall_mem_cons.1 h
    rw [List.flatMap_cons, List.append_assoc, List.singleton_append,
      Text.lines_cons (Job.newline_notMem_row hj), ih hall, List.map_cons]

theorem mapM_ofRow? (all : List Job) : (all.map Job.row).mapM Job.ofRow? = some all := by
  induction all with
  | nil => rfl
  | cons j all ih =>
    rw [List.map_cons, List.mapM_cons, Job.ofRow?_row, ih]
    rfl

/-- **The jobs are read back from their listing.** -/
theorem ofListing?_listing (h : t.OneLined) : ofListing? t.listing = some t.jobs := by
  rw [ofListing?, listing_eq, Text.decode?_encode, Option.bind_some, String.toList_ofList,
    lines_rows h, mapM_ofRow?]

theorem listing_eq_nil_iff : t.listing = [] ↔ t.jobs = [] := by
  rw [listing_eq]
  cases t.jobs with
  | nil => simp
  | cons j all => simp [Job.row]

/-- **Tables with the same listing have the same jobs.** -/
theorem jobs_eq_of_listing_eq (h : t.OneLined) (h' : t'.OneLined) (heq : t.listing = t'.listing) :
    t.jobs = t'.jobs := by
  have hjobs : some t.jobs = some t'.jobs := by
    rw [← ofListing?_listing h, ← ofListing?_listing h', heq]
  exact Option.some.inj hjobs

/-! ## 4. Listing to a sink -/

/-- **Listing is writing the listing, and flushing if all of it was taken.** -/
theorem list_eq (t : JobTable) (s : Sink) :
    t.list s =
      ((s.write t.listing).1, (s.write t.listing).2 && !(s.write t.listing).1.flushFails) := by
  rw [list, Sink.writeAll_eq, ← listing]
  cases s.write t.listing with
  | mk s' all =>
    cases all with
    | true => rfl
    | false => rfl

theorem taken_list (t : JobTable) (before : List UInt8) (limit : Nat) (flushFails : Bool) :
    (t.list ⟨before, some limit, flushFails⟩).1.taken = before ++ t.listing.take limit := by
  rw [list_eq]
  rfl

theorem list_ok_iff (t : JobTable) (before : List UInt8) (limit : Nat) (flushFails : Bool) :
    (t.list ⟨before, some limit, flushFails⟩).2 = true ↔
      t.listing.length ≤ limit ∧ flushFails = false := by
  rw [list_eq, Bool.and_eq_true, Bool.not_eq_true']
  exact and_congr_left' decide_eq_true_iff

/-- **It makes no difference in which parts the listing is offered**, and how much of them is taken
at once. -/
theorem receives_iff {s s' : Sink} {parts : List (List UInt8)} {ok : Bool}
    (h : parts.flatten = t.listing) : s.Receives parts s' ok ↔ t.list s = (s', ok) := by
  rw [list_eq, Sink.Receives, ← h]
  constructor
  · rintro ⟨all, hall, rfl⟩
    rw [Sink.takesAll_iff.1 hall]
  · intro hlist
    obtain ⟨hs, hok⟩ := Prod.mk.inj hlist
    refine ⟨(s.write parts.flatten).2, Sink.takesAll_iff.2 ?_, ?_⟩
    · rw [← hs]
    · rw [← hok, ← hs]

end JobTable

end JobShell
