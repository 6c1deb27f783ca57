import JobShell.Message
import JobShell.Proofs.Text.Sinks

/-!
# What a message buffer keeps

* `Call` is one thing that is done with a buffer, and `run` does several, one after the other.
* `Cells` is the buffer as it lies in memory: a row of cells, of which the first are filled. Here
  every access to a cell is checked. `run?_cells` says that no check ever fails, and that the cells
  hold what the buffer holds.
* `getElem?_run` says which bytes stay, and `length_run` how many there are. The two tell when bytes
  were lost: the buffer is full then, and remains so.
* `content_run_of_writes` says that a text may be written in any pieces.
* `cut_at_end` puts this together, up to the stream on which a message is written.
-/

namespace JobShell

namespace MessageBuffer

/-! ## 1. Calls -/

/-- One thing that is done with a buffer. -/
inductive Call where
  /-- A text is written. -/
  | text (s : String)
  /-- A character is written. -/
  | char (c : Char)
  /-- The line is ended. -/
  | endLine
  deriving DecidableEq, Repr

/-- The bytes that a call is to add. -/
def Call.bytes : Call → List UInt8
  | text s => Text.bytes s
  | char c => Text.bytes (String.singleton c)
  | endLine => [newline]

variable {b b' : MessageBuffer} {x : Call} {calls : List Call} {i : Nat}

def call (b : MessageBuffer) : Call → MessageBuffer
  | .text s => b.write s
  | .char c => b.write (String.singleton c)
  | .endLine => b.terminate

/-- The buffer after calls one after the other. -/
def run (b : MessageBuffer) (calls : List Call) : MessageBuffer := calls.foldl call b

@[simp] theorem run_nil (b : MessageBuffer) : b.run [] = b := rfl

@[simp] theorem run_cons (b : MessageBuffer) (x : Call) (calls : List Call) :
    b.run (x :: calls) = (b.call x).run calls := rfl

theorem run_append (b : MessageBuffer) (x y : List Call) : b.run (x ++ y) = (b.run x).run y :=
  List.foldl_append

/-- The content is all that there is to a buffer. -/
theorem ext_content (h : b.content = b'.content) : b = b' := by
  cases b
  cases b'
  cases h
  rfl

theorem content_terminate (b : MessageBuffer) :
    b.terminate.content = b.content.take (bufferSize - 1) ++ [newline] := rfl

/-- All calls but the end of a line write their bytes. -/
theorem call_of_ne (hx : x ≠ .endLine) (b : MessageBuffer) : b.call x = b.writeBytes x.bytes := by
  cases x with
  | text s => rfl
  | char c => rfl
  | endLine => exact (hx rfl).elim

theorem isFull_iff : b.isFull = true ↔ b.content.length = bufferSize := beq_iff_eq

/-! ## 2. Cells -/

/-- A row of cells, of which the first are filled. -/
structure Cells where
  bytes : List UInt8
  filled : Nat
  deriving DecidableEq, Repr

/-- Copies bytes to a place in a row of cells, if there is a cell for each of them. -/
def copyAt? (cells : List UInt8) (i : Nat) (bs : List UInt8) : Option (List UInt8) :=
  if i + bs.length ≤ cells.length then
    some (cells.take i ++ bs ++ cells.drop (i + bs.length))
  else none

namespace Cells

/-- Writes bytes as far as there is room. No more cells may be filled than there are. -/
def write? (c : Cells) (bs : List UInt8) : Option Cells :=
  if c.filled ≤ bufferSize then
    let n := min bs.length (bufferSize - c.filled)
    (copyAt? c.bytes c.filled (bs.take n)).map fun bytes => ⟨bytes, c.filled + n⟩
  else none

/-- Puts a newline into the first free cell, or into the last one if none is free. -/
def terminate? (c : Cells) : Option Cells :=
  let i := if c.filled = bufferSize then c.filled - 1 else c.filled
  (copyAt? c.bytes i [newline]).map fun bytes => ⟨bytes, i + 1⟩

def call? (c : Cells) : Call → Option Cells
  | .text s => c.write? (Text.bytes s)
  | .char ch => c.write? (Text.bytes (String.singleton ch))
  | .endLine => c.terminate?

/-- The cells after calls one after the other, if every access is to a cell that there is. -/
def run? (c : Cells) (calls : List Call) : Option Cells := calls.foldlM call? c

end Cells

/-- The cells of a buffer: its content, and zeros where it is free. -/
def cells (b : MessageBuffer) : Cells := ⟨b.content ++ List.replicate b.room 0, b.content.length⟩

/-- Copying to a place between two parts puts the bytes between them, over what follows. -/
theorem copyAt?_append (x y bs : List UInt8) (h : bs.length ≤ y.length) :
    copyAt? (x ++ y) x.length bs = some (x ++ bs ++ y.drop bs.length) := by
  rw [copyAt?, if_pos (by rw [List.length_append]; omega), List.take_left, List.drop_append]
  simp

/-- **Copying over the end of the content** is seen in the cells as it is in the content. -/
theorem copyAt?_cells {x y bs : List UInt8} (h : b.content = x ++ y) (h' : b'.content = x ++ bs)
    (hover : y.length ≤ bs.length) : copyAt? b.cells.bytes x.length bs = some b'.cells.bytes := by
  have hlength : b.content.length = x.length + y.length := by rw [h, List.length_append]
  have hlength' : b'.content.length = x.length + bs.length := by rw [h', List.length_append]
  have hle' := b'.length_le
  have hroom : b.room = bufferSize - (x.length + y.length) := by rw [room, hlength]
  have hroom' : b'.room = bufferSize - (x.length + bs.length) := by rw [room, hlength']
  have hfits : bs.length ≤ (y ++ List.replicate b.room (0 : UInt8)).length := by
    rw [List.length_append, List.length_replicate]
    omega
  have hzeros : (y ++ List.replicate b.room (0 : UInt8)).drop bs.length =
      List.replicate b'.room 0 := by
    rw [List.drop_append, List.drop_eq_nil_of_le hover, List.nil_append, List.drop_replicate]
    congr 1
    omega
  rw [cells, cells, h, h', List.append_assoc, copyAt?_append _ _ _ hfits, hzeros]

theorem write?_cells (b : MessageBuffer) (bs : List UInt8) :
    b.cells.write? bs = some (b.writeBytes bs).cells := by
  let n := min bs.length b.room
  have htaken : bs.take b.room = bs.take n := by
    rcases Nat.le_total bs.length b.room with h | h
    · rw [show n = bs.length from Nat.min_eq_left h, List.take_length, List.take_of_length_le h]
    · rw [show n = b.room from Nat.min_eq_right h]
  have hkept : (b.writeBytes bs).content = b.content ++ bs.take n :=
    congrArg (b.content ++ ·) htaken
  have hcopy := copyAt?_cells (List.append_nil b.content).symm hkept (Nat.zero_le _)
  have hfilled : (b.writeBytes bs).cells.filled = b.content.length + n := by
    show (b.writeBytes bs).content.length = _
    rw [hkept, List.length_append, List.length_take]
    omega
  rw [Cells.write?, if_pos (show b.cells.filled ≤ bufferSize from b.length_le)]
  show (copyAt? b.cells.bytes b.content.length (bs.take n)).map
    (fun bytes => (⟨bytes, b.content.length + n⟩ : Cells)) = _
  rw [hcopy, Option.map_some, ← hfilled]

theorem terminate?_cells (b : MessageBuffer) : b.cells.terminate? = some b.terminate.cells := by
  have hle := b.length_le
  have hpos : 0 < bufferSize := by decide
  -- if no cell is free, the last byte gives way
  let i := if b.content.length = bufferSize then b.content.length - 1 else b.content.length
  have hi : i = min (bufferSize - 1) b.content.length := by
    by_cases hfull : b.content.length = bufferSize
    · rw [show i = b.content.length - 1 from if_pos hfull]
      omega
    · rw [show i = b.content.length from if_neg hfull]
      omega
  have hlength : (b.content.take (bufferSize - 1)).length = i := by rw [List.length_take, hi]
  have hcopy := copyAt?_cells (List.take_append_drop (bufferSize - 1) b.content).symm
    (content_terminate b) (by rw [List.length_drop, List.length_singleton]; omega)
  have hfilled : b.terminate.cells.filled = i + 1 := by
    show b.terminate.content.length = _
    rw [content_terminate, List.length_append, hlength, List.length_singleton]
  rw [hlength] at hcopy
  show (copyAt? b.cells.bytes i [newline]).map (fun bytes => (⟨bytes, i + 1⟩ : Cells)) = _
  rw [hcopy, Option.map_some, ← hfilled]

/-- **No call goes beyond the cells**, and they hold what the buffer holds. -/
theorem call?_cells (b : MessageBuffer) (x : Call) : b.cells.call? x = some (b.call x).cells := by
  cases x with
  | text s => exact write?_cells b _
  | char c => exact write?_cells b _
  | endLine => exact terminate?_cells b

theorem run?_cells (b : MessageBuffer) (calls : List Call) :
    b.cells.run? calls = some (b.run calls).cells := by
  induction calls generalizing b with
  | nil => rfl
  | cons x calls ih =>
    show (b.cells.call? x).bind (fun c => c.run? calls) = _
    rw [call?_cells]
    exact ih (b.call x)

/-! ## 3. What stays and what is lost -/

theorem length_call (b : MessageBuffer) (x : Call) :
    (b.call x).content.length = min bufferSize (b.content.length + x.bytes.length) := by
  by_cases hx : x = .endLine
  · subst hx
    have hpos : 0 < bufferSize := by decide
    show b.terminate.content.length = min bufferSize (b.content.length + 1)
    rw [content_terminate, List.length_append, List.length_take, List.length_singleton]
    omega
  · rw [call_of_ne hx, content_writeBytes, List.length_take, List.length_append]

/-- **Bytes are lost exactly if there is no room for them.** -/
theorem length_run (b : MessageBuffer) (calls : List Call) :
    (b.run calls).content.length =
      min bufferSize (b.content.length + (calls.flatMap Call.bytes).length) := by
  induction calls generalizing b with
  | nil => exact (Nat.min_eq_right b.length_le).symm
  | cons x calls ih =>
    rw [run_cons, ih, length_call, List.flatMap_cons, List.length_append]
    omega

theorem isFull_run_iff (b : MessageBuffer) (calls : List Call) :
    (b.run calls).isFull = true ↔
      bufferSize ≤ b.content.length + (calls.flatMap Call.bytes).length := by
  rw [isFull_iff, length_run]
  omega

/-- Where there is room, nothing is lost. -/
theorem content_call_of_le (h : b.content.length + x.bytes.length ≤ bufferSize) :
    (b.call x).content = b.content ++ x.bytes := by
  by_cases hx : x = .endLine
  · subst hx
    exact content_terminate_of_lt h
  · rw [call_of_ne hx, content_writeBytes, List.take_of_length_le (by rwa [List.length_append])]

/-- A buffer that has lost bytes is full from then on. -/
theorem isFull_of_lost (h : (b.call x).content ≠ b.content ++ x.bytes) (calls : List Call) :
    (b.run (x :: calls)).isFull = true := by
  have hlost : ¬ b.content.length + x.bytes.length ≤ bufferSize := mt content_call_of_le h
  rw [isFull_run_iff, List.flatMap_cons, List.length_append]
  omega

/-- A byte stays where it is, unless it is in the last cell and a line is ended. -/
theorem getElem?_call (hi : i < b.content.length) (x : Call) :
    (b.call x).content[i]? = b.content[i]? ∨
      x = .endLine ∧ i = bufferSize - 1 ∧ (b.call x).content[i]? = some newline := by
  by_cases hx : x = .endLine
  · subst hx
    have hle := b.length_le
    show b.terminate.content[i]? = _ ∨ _ ∧ _ ∧ b.terminate.content[i]? = _
    rw [content_terminate]
    have hlength : (b.content.take (bufferSize - 1)).length =
        min (bufferSize - 1) b.content.length := List.length_take
    by_cases hlast : i = bufferSize - 1
    · refine Or.inr ⟨rfl, hlast, ?_⟩
      rw [List.getElem?_append_right (by omega), show i - _ = 0 by omega]
      rfl
    · refine Or.inl ?_
      rw [List.getElem?_append_left (by omega), List.getElem?_take_of_lt (by omega)]
  · refine Or.inl ?_
    rw [call_of_ne hx, writeBytes, List.getElem?_append_left hi]

/-- **A byte stays where it is**, unless it is in the last cell and a line is ended. -/
theorem getElem?_run (hi : i < b.content.length) (calls : List Call) :
    (b.run calls).content[i]? = b.content[i]? ∨
      .endLine ∈ calls ∧ i = bufferSize - 1 ∧ (b.run calls).content[i]? = some newline := by
  induction calls generalizing b with
  | nil => exact Or.inl rfl
  | cons x calls ih =>
    have hgrows : i < (b.call x).content.length := by
      have hle := b.length_le
      rw [length_call]
      omega
    rw [run_cons]
    rcases ih hgrows with hsame | ⟨hmem, hlast, hnew⟩
    · rw [hsame]
      rcases getElem?_call hi x with h | ⟨rfl, hlast, hnew⟩
      · exact Or.inl h
      · exact Or.inr ⟨List.mem_cons_self, hlast, hnew⟩
    · exact Or.inr ⟨List.mem_cons_of_mem x hmem, hlast, hnew⟩

theorem write_write (b : MessageBuffer) (s t : String) :
    (b.write s).write t = b.write (s ++ t) := by
  refine ext_content ?_
  rw [write, write, write, Text.bytes_append]
  exact (writeBytes_append b _ _).symm

/-- **A text may be written in any pieces.** -/
theorem content_run_of_writes (b : MessageBuffer) (h : ∀ x ∈ calls, x ≠ .endLine) :
    (b.run calls).content = (b.content ++ calls.flatMap Call.bytes).take bufferSize := by
  induction calls generalizing b with
  | nil => rw [List.flatMap_nil, List.append_nil, List.take_of_length_le b.length_le, run_nil]
  | cons x calls ih =>
    rw [run_cons, ih _ fun y hy => h y (List.mem_cons_of_mem x hy),
      call_of_ne (h x List.mem_cons_self), content_writeBytes, List.flatMap_cons,
      ← List.append_assoc, ← take_append_take]

/-! ## 4. Messages -/

/-- **What holds of a buffer, whatever is done with it.** -/
structure CutAtEnd (b : MessageBuffer) : Prop where
  length_le : ∀ calls, (b.run calls).content.length ≤ 1088
  /-- Every access is to a cell that there is. -/
  within : ∀ calls, b.cells.run? calls = some (b.run calls).cells
  /-- Writing two texts is writing them as one. -/
  joined : ∀ s t, b.run [.text s, .text t] = b.run [.text (s ++ t)]
  /-- No byte changes, but that the one in the last cell may become a newline. -/
  stays : ∀ calls i, i < b.content.length → (b.run calls).content[i]? = b.content[i]? ∨
    .endLine ∈ calls ∧ i = 1087 ∧ (b.run calls).content[i]? = some newline
  /-- A newline takes the place of the last byte, if the buffer is full. -/
  ended : b.isFull = true → (b.run [.endLine]).content = b.content.dropLast ++ [newline]
  full : ∀ calls, (b.run calls).isFull = true ↔
    1088 ≤ b.content.length + (calls.flatMap Call.bytes).length
  /-- Once bytes were dropped or overwritten, the buffer remains full. -/
  lost : ∀ x, (b.run [x]).content ≠ b.content ++ x.bytes → ∀ calls,
    (b.run (x :: calls)).isFull = true

theorem cutAtEnd (b : MessageBuffer) : b.CutAtEnd where
  length_le calls := (b.run calls).length_le
  within := run?_cells b
  joined := write_write b
  stays calls _ hi := getElem?_run hi calls
  ended hfull := by
    show b.terminate.content = _
    rw [content_terminate, List.dropLast_eq_take, isFull_iff.1 hfull]
  full := isFull_run_iff b
  lost _ h calls := isFull_of_lost h calls

/-- A message is the same in whatever pieces its text was written. -/
theorem content_run_endLine {text : String} (h : ∀ x ∈ calls, x ≠ .endLine)
    (htext : calls.flatMap Call.bytes = Text.bytes text) :
    (empty.run (calls ++ [.endLine])).content = line text := by
  rw [run_append, line_eq]
  show (empty.run calls).terminate.content = _
  rw [content_terminate, content_run_of_writes _ h, htext, content_empty, List.nil_append,
    List.take_take, Nat.min_eq_left (Nat.sub_le _ _)]

/-- **A message is cut once, at its end, and always ends in a newline.** A buffer is a row of zeros
when nothing was written. Whatever is done with it, it stays within its cells and keeps what it
holds; and a text that is written in any pieces, and ended as a line, comes to the stream as its
first 1087 bytes, or all of them if it has no more, and a newline, whatever the parts in which the
stream takes it. -/
theorem cut_at_end (b : MessageBuffer) :
    empty.cells = ⟨List.replicate 1088 0, 0⟩ ∧ b.CutAtEnd ∧
      ∀ text pieces, (∀ x ∈ pieces, x ≠ .endLine) → pieces.flatMap Call.bytes = Text.bytes text →
        let message := (empty.run (pieces ++ [.endLine])).content
        message = (Text.bytes text).take 1087 ++ [newline] ∧ message = line text ∧
          ∀ earlier s' ok, ({ taken := earlier } : Sink).Takes message s' ok ↔
            s' = { taken := earlier ++ message } ∧ ok = true := by
  refine ⟨rfl, b.cutAtEnd, ?_⟩
  intro text pieces hpieces htext message
  have hmessage : message = line text := content_run_endLine hpieces htext
  refine ⟨hmessage.trans (line_eq text), hmessage, fun earlier s' ok => ?_⟩
  rw [Sink.takes_iff]
  show (({ taken := earlier ++ message } : Sink), true) = (s', ok) ↔ _
  rw [Prod.mk.injEq, eq_comm, eq_comm (a := true)]

/-- A text of 1088 bytes is cut inside its last character, which was written on its own. -/
theorem cut_at_end_inside :
    (empty.run [.text (String.ofList (List.replicate 1086 'x')), .char 'é', .endLine]).content =
      List.replicate 1086 120 ++ [0xC3, 10] := by
  have key (start : String) (hstart : Text.bytes start = List.replicate 1086 120) :
      (empty.run [.text start, .char 'é', .endLine]).content =
        List.replicate 1086 120 ++ [0xC3, 10] := by
    have hbytes : Text.bytes (start ++ "é") = List.replicate 1086 120 ++ [0xC3, 0xA9] := by
      rw [Text.bytes_append, hstart]
      rfl
    obtain ⟨hcut, -⟩ := (cut_at_end empty).2.2 (start ++ "é") [.text start, .char 'é'] (by simp)
      (by rw [hbytes, ← hstart]; rfl)
    refine hcut.trans ?_
    rw [hbytes, List.take_append, List.length_replicate,
      List.take_of_length_le (by rw [List.length_replicate]; decide), List.append_assoc]
    rfl
  refine key _ ?_
  rw [Text.bytes, String.toList_ofList, Text.encode, List.flatMap_replicate,
    show String.utf8EncodeChar 'x' = [120] from rfl, List.flatten_replicate_singleton]

end MessageBuffer

end JobShell
