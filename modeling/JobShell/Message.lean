import JobShell.Text.Utf8

/-!
# Messages

Each message of the shell is one line, put together in a buffer of fixed size and written in one
piece, so that it may be produced at any moment.

* `MessageBuffer` is the buffer: bytes past its end are dropped (`write`), and a line is ended by a
  newline that takes the place of the last byte if the buffer is full (`terminate`).
* `line` is what reaches the stream for a message: `line_eq` says it is the text cut at
  `bufferSize - 1` bytes, then one newline.
-/

namespace JobShell

open Text (bytes)

/-- The bytes of a command line that a job keeps. -/
def lineLimit : Nat := 1024

/-- The size of a message buffer: a kept command line and what stands before it. -/
def bufferSize : Nat := lineLimit + 64

/-- The byte that ends a line. -/
def newline : UInt8 := 10

/-! ## 1. The buffer -/

/-- A buffer holds at most `bufferSize` bytes. -/
structure MessageBuffer where
  content : List UInt8 := []
  length_le : content.length ≤ bufferSize := by decide
  deriving DecidableEq

namespace MessageBuffer

/-- The buffer before anything is written. -/
def empty : MessageBuffer := {}

/-- The bytes there is still room for. -/
def room (b : MessageBuffer) : Nat := bufferSize - b.content.length

/-- Nothing more fits. -/
def isFull (b : MessageBuffer) : Bool := b.content.length == bufferSize

/-- Appends the bytes that there is room for. -/
def writeBytes (b : MessageBuffer) (bs : List UInt8) : MessageBuffer where
  content := b.content ++ bs.take b.room
  length_le := by
    have := b.length_le
    simp only [List.length_append, List.length_take, room]
    omega

def write (b : MessageBuffer) (s : String) : MessageBuffer := b.writeBytes (bytes s)

def terminate (b : MessageBuffer) : MessageBuffer where
  content := b.content.take (bufferSize - 1) ++ [newline]
  length_le := by
    simp only [List.length_append, List.length_take, List.length_singleton]
    have : 0 < bufferSize := by decide
    omega

@[simp] theorem content_empty : empty.content = [] := rfl

/-- **The content is all that was written, cut at the size of the buffer.** -/
theorem content_writeBytes (b : MessageBuffer) (bs : List UInt8) :
    (b.writeBytes bs).content = (b.content ++ bs).take bufferSize := by
  have := b.length_le
  rw [List.take_append, List.take_of_length_le this]
  rfl

/-- Cutting before more is appended makes no difference once it is cut again. -/
theorem take_append_take (a y : List UInt8) :
    (a ++ y).take bufferSize = (a.take bufferSize ++ y).take bufferSize := by
  by_cases h : a.length ≤ bufferSize
  · rw [List.take_of_length_le h]
  · rw [List.take_append_of_le_length (by omega),
      List.take_append_of_le_length (by rw [List.length_take]; omega), List.take_take,
      Nat.min_self]

/-- **Writing two pieces is writing them together.** -/
theorem writeBytes_append (b : MessageBuffer) (x y : List UInt8) :
    (b.writeBytes (x ++ y)).content = ((b.writeBytes x).writeBytes y).content := by
  rw [content_writeBytes, content_writeBytes, content_writeBytes, ← List.append_assoc]
  exact take_append_take (b.content ++ x) y

/-- Ending a line that has room appends the newline and nothing else. -/
theorem content_terminate_of_lt {b : MessageBuffer} (h : b.content.length < bufferSize) :
    b.terminate.content = b.content ++ [newline] := by
  simp only [terminate]
  rw [List.take_of_length_le (by omega)]

end MessageBuffer

/-! ## 2. One message -/

/-- The bytes written for a message. -/
def line (text : String) : List UInt8 := (MessageBuffer.empty.write text).terminate.content

/-- **A message is its text, cut to leave room for the newline, and the newline.** -/
theorem line_eq (text : String) : line text = (bytes text).take (bufferSize - 1) ++ [newline] := by
  simp only [line, MessageBuffer.terminate, MessageBuffer.write, MessageBuffer.content_writeBytes,
    MessageBuffer.content_empty, List.nil_append, List.take_take]
  rw [Nat.min_eq_left (Nat.sub_le _ _)]

/-- The message of a shell that is told to quit. -/
def farewell : String := "Terminating after receipt of SIGQUIT signal"

/-- A message never exceeds the buffer. -/
theorem length_line_le (text : String) : (line text).length ≤ bufferSize :=
  (MessageBuffer.empty.write text).terminate.length_le

end JobShell
