import JobShell.Text.Blank
import JobShell.Token

/-!
# Reading tokens

A line is read from left to right; what is left to read is a suffix of it, so every step either
consumes at least one character or stands at the end of the line.

* `Mode` says what a reading keeps: `plain` skips blanks and comments and drops quote marks,
  `highlight` keeps all of it.
* `readWord` reads one word, quoted parts and all; `next` reads one token.
* `stream` is everything `next` delivers before the end of the line.
* `next_shorter`: a token other than the end of the line, or an error, shortens the rest, which is
  why `stream` ends.
-/

namespace JobShell

open Text (isBlank)

/-- Why a line cannot be read or understood. -/
inductive SyntaxError where
  | unclosedQuote
  | wordAfterBackground
  | missingTarget
  | ambiguousRedirection
  | unsupported (op : Operator)
  | missingCommand
  deriving DecidableEq, Repr

/-- The explanation shown to the user. -/
def SyntaxError.message (e : SyntaxError) : String :=
  "Syntax error: " ++ match e with
    | unclosedQuote => "Unclosed quote"
    | wordAfterBackground => "'&' must end the command"
    | missingTarget => "Expected filename after redirection"
    | ambiguousRedirection => "Ambiguous I/O redirection"
    | unsupported op => "Unsupported operator '" ++ op.symbol ++ "'"
    | missingCommand => "Expected command, found nothing"

namespace Lexer

/-! ## 1. Modes -/

/-- What a reading of a line keeps. -/
structure Mode where
  /-- Blanks and comments become tokens instead of being skipped. -/
  keepBlanks : Bool
  /-- The quote marks stay in the words. -/
  keepQuotes : Bool
  deriving DecidableEq, Repr

/-- The reading that commands are made from. -/
def plain : Mode := ⟨false, false⟩

/-- The reading that loses no character of the line. -/
def highlight : Mode := ⟨true, true⟩

/-! ## 2. Words -/

/-- A character that opens a quoted part, and closes one that it opened. -/
def isQuote (c : Char) : Bool := c = '\'' || c = '"'

/-- A character that ends a word outside quotes. -/
def endsWord (c : Char) : Bool := isBlank c || (Operator.ofChar? c).isSome

/-- Puts a character in front of the word read so far. -/
def push (c : Char) (r : Option (List Char × List Char)) : Option (List Char × List Char) :=
  r.map fun (word, rest) => (c :: word, rest)

/-- Puts a quote mark in front of the word, where the mode keeps them. -/
def pushQuote (m : Mode) (c : Char) (r : Option (List Char × List Char)) :
    Option (List Char × List Char) :=
  if m.keepQuotes then push c r else r

/-- Reads a word: its text and what follows it. `open?` is the mark of the quoted part that the
reading is inside of. A line that ends there has no word. -/
def readWord (m : Mode) : (open? : Option Char) → List Char → Option (List Char × List Char)
  | none, [] => some ([], [])
  | some _, [] => none
  | none, c :: cs =>
    if endsWord c then some ([], c :: cs)
    else if isQuote c then pushQuote m c (readWord m (some c) cs)
    else push c (readWord m none cs)
  | some q, c :: cs =>
    if c = q then pushQuote m c (readWord m none cs) else push c (readWord m (some q) cs)

theorem push_eq_some {c : Char} {r : Option (List Char × List Char)} {w rest : List Char}
    (h : push c r = some (w, rest)) : ∃ v, w = c :: v ∧ r = some (v, rest) := by
  cases r with
  | none => simp [push] at h
  | some p =>
    obtain ⟨v, s⟩ := p
    simp only [push, Option.map_some, Option.some.injEq, Prod.mk.injEq] at h
    exact ⟨v, h.1.symm, by rw [h.2]⟩

theorem pushQuote_rest {m : Mode} {c : Char} {r : Option (List Char × List Char)}
    {w rest : List Char} (h : pushQuote m c r = some (w, rest)) : ∃ v, r = some (v, rest) := by
  unfold pushQuote at h
  split at h
  · obtain ⟨v, -, hv⟩ := push_eq_some h
    exact ⟨v, hv⟩
  · exact ⟨w, h⟩

/-- **What follows a word is a suffix of the line.** -/
theorem readWord_suffix {m : Mode} {q : Option Char} {cs w rest : List Char}
    (h : readWord m q cs = some (w, rest)) : rest <:+ cs := by
  induction cs generalizing q w with
  | nil =>
    cases q with
    | none => simp [readWord] at h; simp [h.2]
    | some q => simp [readWord] at h
  | cons c cs ih =>
    cases q with
    | none =>
      simp only [readWord] at h
      split at h
      · simp only [Option.some.injEq, Prod.mk.injEq] at h
        simp [h.2]
      · split at h
        · obtain ⟨v, hv⟩ := pushQuote_rest h
          exact (ih hv).trans (List.suffix_cons c cs)
        · obtain ⟨v, -, hv⟩ := push_eq_some h
          exact (ih hv).trans (List.suffix_cons c cs)
    | some q =>
      simp only [readWord] at h
      split at h
      · obtain ⟨v, hv⟩ := pushQuote_rest h
        exact (ih hv).trans (List.suffix_cons c cs)
      · obtain ⟨v, -, hv⟩ := push_eq_some h
        exact (ih hv).trans (List.suffix_cons c cs)

/-- A word that starts with a character it may hold takes that character off the line. -/
theorem readWord_shorter {m : Mode} {c : Char} {cs w rest : List Char} (hc : endsWord c = false)
    (h : readWord m none (c :: cs) = some (w, rest)) : rest.length ≤ cs.length := by
  simp only [readWord, hc, if_false, Bool.false_eq_true] at h
  split at h
  · obtain ⟨v, hv⟩ := pushQuote_rest h
    exact (readWord_suffix hv).length_le
  · obtain ⟨v, -, hv⟩ := push_eq_some h
    exact (readWord_suffix hv).length_le

/-! ## 3. Tokens -/

/-- One reading: a token, or the reason why there is none. -/
abbrev Item := Except SyntaxError Token

/-- Reads one operator, doubled if its character is. -/
def readOperator (c : Char) (o : Operator) (cs : List Char) : Operator × List Char :=
  match cs, o.doubled? with
  | d :: ds, some oo => if d = c then (oo, ds) else (o, cs)
  | _, _ => (o, cs)

/-- Reads the token at the head of a line that starts with no blank to keep. An open quote uses up
the line. -/
def readLexeme (m : Mode) : List Char → Item × List Char
  | [] => (.ok .endOfLine, [])
  | c :: cs =>
    match Operator.ofChar? c with
    | some o => (.ok (.operator (readOperator c o cs).1), (readOperator c o cs).2)
    | none =>
      if c = '#' then
        (.ok (if m.keepBlanks then .blank (String.ofList (c :: cs)) else .endOfLine), [])
      else match readWord m none (c :: cs) with
        | some (w, rest) => (.ok (.word (String.ofList w)), rest)
        | none => (.error .unclosedQuote, [])

/-- Reads one token: blanks first, then what follows them. -/
def next (m : Mode) (cs : List Char) : Item × List Char :=
  let blanks := cs.takeWhile isBlank
  if m.keepBlanks && !blanks.isEmpty then
    (.ok (.blank (String.ofList blanks)), cs.dropWhile isBlank)
  else readLexeme m (cs.dropWhile isBlank)

theorem readOperator_length (c : Char) (o : Operator) (cs : List Char) :
    (readOperator c o cs).2.length ≤ cs.length := by
  unfold readOperator
  split
  · split <;> simp
  · simp

theorem dropWhile_length_le (p : Char → Bool) (cs : List Char) :
    (cs.dropWhile p).length ≤ cs.length :=
  (List.dropWhile_suffix p).length_le

/-- The head of what is left after the blanks is no blank. -/
theorem not_blank_head {cs : List Char} {c : Char} {ds : List Char}
    (h : cs.dropWhile isBlank = c :: ds) : isBlank c = false := by
  induction cs with
  | nil => simp at h
  | cons d cs ih =>
    rw [List.dropWhile_cons] at h
    split at h
    · exact ih h
    · rename_i hd
      simp only [List.cons.injEq] at h
      simpa [h.1] using hd

/-- Reading a token that is not the end of the line takes something off it. -/
theorem readLexeme_shorter {m : Mode} {c : Char} {cs : List Char} (hc : isBlank c = false) :
    (readLexeme m (c :: cs)).2.length ≤ cs.length := by
  simp only [readLexeme]
  split
  · exact readOperator_length _ _ _
  · rename_i hop
    split
    · simp
    · split
      · rename_i w rest hw
        exact readWord_shorter (by simp [endsWord, hc, hop]) hw
      · simp

/-- **Every reading that is not the end of the line takes at least one character.** -/
theorem next_shorter (m : Mode) (cs : List Char) :
    (next m cs).1 = .ok .endOfLine ∨ (next m cs).2.length < cs.length := by
  unfold next
  dsimp only
  split
  · rename_i h
    right
    cases cs with
    | nil => simp at h
    | cons c cs =>
      have hc : isBlank c = true := by
        cases hb : isBlank c
        · simp [hb] at h
        · rfl
      rw [List.dropWhile_cons, if_pos hc, List.length_cons]
      exact Nat.lt_succ_of_le (dropWhile_length_le _ _)
  · cases hd : cs.dropWhile isBlank with
    | nil => left; rfl
    | cons c ds =>
      right
      have h1 : (readLexeme m (c :: ds)).2.length ≤ ds.length :=
        readLexeme_shorter (not_blank_head hd)
      have h2 := dropWhile_length_le isBlank cs
      rw [hd, List.length_cons] at h2
      omega

/-! ## 4. The whole line -/

/-- Whether a reading stands at the end of the line. -/
def isEnd : Item → Bool
  | .ok .endOfLine => true
  | _ => false

/-- What the readings of a line deliver before its end: tokens, with at most one error, which is
then the last. -/
def stream (m : Mode) (cs : List Char) : List Item :=
  if isEnd (next m cs).1 then [] else (next m cs).1 :: stream m (next m cs).2
termination_by cs.length
decreasing_by
  rename_i hne
  rcases next_shorter m cs with h | h
  · simp [h, isEnd] at hne
  · exact h

/-- The readings of a line in the order in which a caller asks for them, `n` of them: after the last
one it reads the end of the line for ever. -/
def readings (m : Mode) (line : String) (n : Nat) : List Item :=
  let items := stream m line.toList
  items.take n ++ List.replicate (n - items.length) (.ok .endOfLine)

/-- The readings of a line up to and including its end. -/
def allReadings (m : Mode) (line : String) : List Item :=
  stream m line.toList ++ [.ok .endOfLine]

end Lexer

end JobShell
