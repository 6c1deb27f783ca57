import Mathlib.Data.Nat.Digits.Defs
import JobShell.Proofs.Table.Reference
import JobShell.Proofs.Text.Buffer
import JobShell.Proofs.Text.Messages

/-!
# Messages that are not cut

Beside the longest command line that can be stored, a message buffer has room for 64 bytes. This is
enough for whatever is said about a job.

* `SentWhole` says that a message is not cut, on its way through the buffer and to the stream;
  `sentWhole_iff` that this is a matter of its width.
* `sentWhole_before_stored` says which texts can be followed by any stored line.
* `width_tag_le` bounds the number and the process of a job, as they stand in front of every line
  about it; `width_notice_le` bounds the lines that have a signal instead of a command line.
-/

namespace JobShell

open Text (width bytes decode? naturalDigits integerDigits)

/-! ## 1. Numbers -/

namespace Text

/-- A text of characters of one byte is as wide as it is long. -/
theorem width_eq_length {cs : List Char} (h : ∀ c ∈ cs, c.utf8Size = 1) : width cs = cs.length := by
  induction cs with
  | nil => rfl
  | cons c cs ih =>
    rw [width_cons, h c List.mem_cons_self, ih fun d hd => h d (List.mem_cons_of_mem c hd),
      List.length_cons, Nat.add_comm]

theorem width_naturalDigits_le {n k : Nat} (hk : 0 < k) (hn : n < 10 ^ k) :
    width (naturalDigits n) ≤ k := by
  have hone : ∀ c ∈ naturalDigits n, c.utf8Size = 1 := by
    intro c hc
    have hdigit := isDigit_of_mem_naturalDigits hc
    simp only [Char.isDigit, Bool.and_eq_true, decide_eq_true_eq] at hdigit
    exact Char.utf8Size_eq_one_iff.2 (UInt32.le_trans hdigit.2 (by decide))
  rw [width_eq_length hone]
  exact Nat.toDigits_length 10 n k hk hn

theorem width_integerDigits_le {z : Int} {k : Nat} (hk : 0 < k) (hz : z.natAbs < 10 ^ k) :
    width (integerDigits z) ≤ k + 1 := by
  cases z with
  | ofNat n => exact (width_naturalDigits_le hk hz).trans (Nat.le_succ k)
  | negSucc n =>
    have hdigits : width (naturalDigits (n + 1)) ≤ k := width_naturalDigits_le hk hz
    show '-'.utf8Size + _ ≤ _
    rw [show '-'.utf8Size = 1 from rfl]
    omega

end Text

/-! ## 2. Messages that fit -/

namespace MessageBuffer

/-- **A message is sent whole.** -/
structure SentWhole (text : String) : Prop where
  /-- In whatever pieces its text is written, the buffer holds all of it and is not full. -/
  held : ∀ pieces, (∀ x ∈ pieces, x ≠ .endLine) → pieces.flatMap Call.bytes = bytes text →
    (empty.run pieces).content = bytes text ∧ (empty.run pieces).isFull = false
  /-- When the line is ended, nothing has given way to the newline, and nothing would have to give
  way to one more byte. -/
  ended : ∀ pieces, (∀ x ∈ pieces, x ≠ .endLine) → pieces.flatMap Call.bytes = bytes text →
    (empty.run (pieces ++ [.endLine])).content = bytes (text ++ "\n") ∧
      (empty.run (pieces ++ [.endLine])).isFull = false
  line_eq : line text = bytes (text ++ "\n")
  /-- A stream that refuses nothing has all of it then, in whatever parts it takes it. -/
  sent : ∀ earlier s' ok, ({ taken := earlier } : Sink).Takes (line text) s' ok ↔
    s' = { taken := earlier ++ bytes (text ++ "\n") } ∧ ok = true
  /-- What was sent can be read. -/
  read : decode? (line text) = some (text ++ "\n")

variable {text : String} {pieces : List Call}

/-- The buffer is full exactly if the text is too wide. -/
theorem isFull_run_empty_iff (h : pieces.flatMap Call.bytes = bytes text) :
    (empty.run pieces).isFull = true ↔ bufferSize ≤ width text.toList := by
  rw [isFull_run_iff, h, bytes, Text.length_encode, content_empty, List.length_nil, Nat.zero_add]

/-- The end of the line takes one more byte. -/
theorem isFull_run_endLine_iff (h : pieces.flatMap Call.bytes = bytes text) :
    (empty.run (pieces ++ [.endLine])).isFull = true ↔ bufferSize ≤ width text.toList + 1 := by
  have hall : (pieces ++ [Call.endLine]).flatMap Call.bytes = bytes (text ++ "\n") := by
    rw [List.flatMap_append, h, Text.bytes_append]
    rfl
  rw [isFull_run_empty_iff hall, String.toList_append, Text.width_append]
  rfl

theorem line_eq_of_lt (h : width text.toList + 1 < bufferSize) :
    line text = bytes (text ++ "\n") := by
  rw [line_of_width_le (by omega), Text.bytes_append]
  rfl

theorem sentWhole_of_lt (h : width text.toList + 1 < bufferSize) : SentWhole text where
  held pieces hpieces htext := by
    have hlength : (bytes text).length ≤ bufferSize := by
      rw [bytes, Text.length_encode]
      omega
    constructor
    · rw [content_run_of_writes _ hpieces, htext, content_empty, List.nil_append,
        List.take_of_length_le hlength]
    · rw [Bool.eq_false_iff, ne_eq, isFull_run_empty_iff htext]
      omega
  ended pieces hpieces htext := by
    constructor
    · rw [content_run_endLine hpieces htext, line_eq_of_lt h]
    · rw [Bool.eq_false_iff, ne_eq, isFull_run_endLine_iff htext]
      omega
  line_eq := line_eq_of_lt h
  sent _ _ _ := by rw [Sink.takes_unlimited_iff, line_eq_of_lt h]
  read := by rw [line_eq_of_lt h, Text.decode?_eq_some_iff]

/-- **A message is sent whole exactly if it leaves room for more than its newline.** -/
theorem sentWhole_iff : SentWhole text ↔ width text.toList + 1 < bufferSize := by
  refine ⟨fun h => ?_, sentWhole_of_lt⟩
  have htext : [Call.text text].flatMap Call.bytes = bytes text := List.append_nil _
  obtain ⟨-, hroom⟩ := h.ended [.text text] (by simp) htext
  have hno := mt (isFull_run_endLine_iff htext).2 (Bool.eq_false_iff.1 hroom)
  omega

/-- A short message is sent whole. -/
theorem sentWhole_of_width_le (h : width text.toList ≤ 61) : SentWhole text :=
  sentWhole_iff.2 ((Nat.succ_le_succ h).trans_lt (by decide))

/-- **It may even be followed by any stored line**, with a blank between them. -/
theorem sentWhole_before_stored (h : width text.toList ≤ 61) (l : StoredLine) :
    SentWhole (text ++ " " ++ l.text) := by
  have hstored : width l.text.toList ≤ lineLimit := l.width_le
  -- a blank, a newline and one byte more are what the 64 leave
  have hroom : bufferSize = lineLimit + 64 := rfl
  rw [sentWhole_iff, String.toList_append, String.toList_append, Text.width_append,
    Text.width_append, show width " ".toList = 1 from rfl]
  omega

end MessageBuffer

/-! ## 3. Lines about a job -/

section Lines

open MessageBuffer (SentWhole sentWhole_of_width_le sentWhole_before_stored)

variable {id signal : Nat} {pid : Int}

/-- **The number and the process of a job**, of two digits and of ten, with a sign and the
brackets. -/
theorem width_tag_le (hid : id ≤ capacity) (hpid : pid.natAbs ≤ 2 ^ 31) :
    width (Job.tag id pid).toList ≤ 18 := by
  have hnatural : width (naturalDigits id) ≤ 2 :=
    Text.width_naturalDigits_le (by decide) (hid.trans_lt (by decide))
  have hinteger : width (integerDigits pid) ≤ 11 :=
    Text.width_integerDigits_le (by decide) (hpid.trans_lt (by decide))
  simp only [Job.tag, Text.natural, Text.integer, String.toList_append, String.toList_ofList,
    Text.width_append]
  rw [show width "[".toList = 1 from rfl, show width "] (".toList = 3 from rfl,
    show width ")".toList = 1 from rfl]
  omega

/-- What stands in front of the command line in an announcement, and the blank between them. -/
theorem width_announcement (id : Nat) (pid : Int) (text : String) :
    width (Job.announcement id pid text).toList =
      width (Job.tag id pid).toList + 1 + width text.toList := by
  simp only [Job.announcement, String.toList_append, Text.width_append]
  rfl

/-- **A line about a job and a signal**, with what became of the job between the two. -/
theorem width_notice_le (hid : id ≤ capacity) (hpid : pid.natAbs ≤ 2 ^ 31)
    (hsignal : signal < 2 ^ 32) {fate : String} (hfate : width fate.toList ≤ 22) :
    width ("Job " ++ Job.tag id pid ++ fate ++ Text.natural signal).toList ≤ 54 := by
  have htag := width_tag_le hid hpid
  have hdigits : width (naturalDigits signal) ≤ 10 :=
    Text.width_naturalDigits_le (by decide) (hsignal.trans (by decide))
  simp only [Text.natural, String.toList_append, String.toList_ofList, Text.width_append]
  rw [show width "Job ".toList = 4 from rfl]
  omega

/-- **The announcement of a job under its stored line is sent whole.** -/
theorem sentWhole_announcement (hid : id ≤ capacity) (hpid : pid.natAbs ≤ 2 ^ 31)
    (l : StoredLine) : SentWhole (Job.announcement id pid l.text) :=
  sentWhole_before_stored ((width_tag_le hid hpid).trans (by decide)) l

theorem sentWhole_stoppedNotice (hid : id ≤ capacity) (hpid : pid.natAbs ≤ 2 ^ 31)
    (hsignal : signal < 2 ^ 32) : SentWhole (Job.stoppedNotice id pid signal) :=
  sentWhole_of_width_le ((width_notice_le hid hpid hsignal (by decide)).trans (by decide))

theorem sentWhole_terminatedNotice (hid : id ≤ capacity) (hpid : pid.natAbs ≤ 2 ^ 31)
    (hsignal : signal < 2 ^ 32) : SentWhole (Job.terminatedNotice id pid signal) :=
  sentWhole_of_width_le ((width_notice_le hid hpid hsignal (by decide)).trans (by decide))

/-- **There is room for the stored line too**, behind either of these lines. -/
theorem sentWhole_stoppedNotice_stored (hid : id ≤ capacity) (hpid : pid.natAbs ≤ 2 ^ 31)
    (hsignal : signal < 2 ^ 32) (l : StoredLine) :
    SentWhole (Job.stoppedNotice id pid signal ++ " " ++ l.text) :=
  sentWhole_before_stored ((width_notice_le hid hpid hsignal (by decide)).trans (by decide)) l

theorem sentWhole_terminatedNotice_stored (hid : id ≤ capacity) (hpid : pid.natAbs ≤ 2 ^ 31)
    (hsignal : signal < 2 ^ 32) (l : StoredLine) :
    SentWhole (Job.terminatedNotice id pid signal ++ " " ++ l.text) :=
  sentWhole_before_stored ((width_notice_le hid hpid hsignal (by decide)).trans (by decide)) l

end Lines

end JobShell
