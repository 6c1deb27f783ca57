import JobShell.Proofs.Text.Cutting
import JobShell.Proofs.Token.Rest

/-!
# Reading by position

A reading counts its way through the bytes of a line. Here it may look only at a slice of the line,
and there is no slice but from one place where characters meet to a later one.

* `Text.slice?` and `Text.peek?` are the two ways to look at a line.
* `nextAt?` reads one token from a position; `nextAt?_encode` says that no slice is ever missing,
  and that it reads what `next` reads and comes to where `next` comes to.
* `reading m line n` is what call number `n` delivers and `place m line n` the position before it;
  `run?_bytes` says so of any number of calls.
* `ReadsOnward` is what holds of all calls on a line, and `reads_onward` that it does.
-/

namespace JobShell

namespace Text

variable {a b c cs : List Char} {bs : List UInt8} {i j : Nat} {d : Char}

/-! ## 1. Slices -/

/-- The text between two positions. There is none unless characters meet at both. -/
def slice? (bs : List UInt8) (i j : Nat) : Option (List Char) :=
  if i ≤ j ∧ isBoundary bs i = true ∧ isBoundary bs j = true then
    (decode? ((bs.take j).drop i)).map String.toList
  else none

/-- The character at a position; there is none at the end. -/
def peek? (bs : List UInt8) (i : Nat) : Option (Option Char) :=
  (slice? bs i bs.length).map List.head?

/-- **Between texts there is a slice**, and it is the text in the middle. -/
theorem slice?_encode (a b c : List Char) :
    slice? (encode (a ++ b ++ c)) (width a) (width (a ++ b)) = some b := by
  have hstart : isBoundary (encode (a ++ b ++ c)) (width a) = true :=
    isBoundary_encode_iff.2 ⟨a, ⟨b ++ c, (List.append_assoc a b c).symm⟩, rfl⟩
  have hend : isBoundary (encode (a ++ b ++ c)) (width (a ++ b)) = true :=
    isBoundary_encode_iff.2 ⟨a ++ b, ⟨c, rfl⟩, rfl⟩
  have hle : width a ≤ width (a ++ b) := by rw [width_append]; omega
  have hbytes : ((encode (a ++ b ++ c)).take (width (a ++ b))).drop (width a) = encode b := by
    rw [encode_append, List.take_left' (length_encode _), encode_append,
      List.drop_left' (length_encode _)]
  rw [slice?, if_pos ⟨hle, hstart, hend⟩, hbytes, decode?_encode, Option.map_some,
    String.toList_ofList]

/-- Behind a text there is the rest of the line to look at. -/
theorem peek?_encode (a b : List Char) : peek? (encode (a ++ b)) (width a) = some b.head? := by
  have h := slice?_encode a b []
  rw [List.append_nil] at h
  rw [peek?, length_encode, h, Option.map_some]

/-- A character that is seen lies within the line. -/
theorem le_of_peek? (h : peek? bs i = some (some d)) : i + d.utf8Size ≤ bs.length := by
  obtain ⟨cs, hslice, hhead⟩ := Option.map_eq_some_iff.1 h
  unfold slice? at hslice
  split at hslice
  · rename_i hmeet
    obtain ⟨s, hs, rfl⟩ := Option.map_eq_some_iff.1 hslice
    obtain ⟨ds, hds⟩ := List.head?_eq_some_iff.1 hhead
    have hlength : (bytes s).length = bs.length - i := by
      rw [decode?_eq_some_iff.1 hs, List.length_drop, List.take_length]
    rw [bytes, length_encode, hds, width_cons] at hlength
    have hsize := d.utf8Size_pos
    omega
  · cases hslice

theorem width_pos (h : cs ≠ []) : 0 < width cs := by
  rw [← length_encode]
  exact List.length_pos_iff.2 (encode_ne_nil h)

end Text

namespace Lexer

open Text (isBlank bytes encode width isBoundary slice? peek?)

variable {m : Mode} {a cs : List Char} {c : Char} {bs : List UInt8} {line : String} {i n : Nat}

/-! ## 2. One reading -/

/-- Goes behind the blanks at a position. -/
def skipBlanksAt? (bs : List UInt8) (i : Nat) : Option Nat :=
  match _h : peek? bs i with
  | none => none
  | some none => some i
  | some (some c) => if isBlank c then skipBlanksAt? bs (i + c.utf8Size) else some i
termination_by bs.length - i
decreasing_by
  have hsize := c.utf8Size_pos
  have hle := Text.le_of_peek? _h
  omega

/-- Adds a quote mark to the word read so far, where the mode keeps them. -/
def withMark (m : Mode) (word : List Char) (c : Char) : List Char :=
  if m.keepQuotes then word ++ [c] else word

/-- Reads on in a word, of which `word` has been read. `open?` is the mark of the quoted part that
the reading is inside of. The word is missing where the line ends there. -/
def readWordAt? (m : Mode) (bs : List UInt8) (open? : Option Char) (word : List Char) (i : Nat) :
    Option (Option (List Char) × Nat) :=
  match _h : peek? bs i with
  | none => none
  | some none => some (if open?.isSome then none else some word, i)
  | some (some c) =>
    match open? with
    | none =>
      if endsWord c then some (some word, i)
      else if isQuote c then readWordAt? m bs (some c) (withMark m word c) (i + c.utf8Size)
      else readWordAt? m bs none (word ++ [c]) (i + c.utf8Size)
    | some q =>
      if c = q then readWordAt? m bs none (withMark m word c) (i + c.utf8Size)
      else readWordAt? m bs (some q) (word ++ [c]) (i + c.utf8Size)
termination_by bs.length - i
decreasing_by
  all_goals
    have hsize := c.utf8Size_pos
    have hle := Text.le_of_peek? _h
    omega

/-- Reads one operator. Its character `c` has been read. -/
def readOperatorAt? (bs : List UInt8) (c : Char) (o : Operator) (i : Nat) :
    Option (Operator × Nat) :=
  (peek? bs i).map fun next =>
    match next, o.doubled? with
    | some d, some oo => if d = c then (oo, i + d.utf8Size) else (o, i)
    | _, _ => (o, i)

/-- Reads the token at a position where there is no blank to keep. -/
def readLexemeAt? (m : Mode) (bs : List UInt8) (i : Nat) : Option (Item × Nat) :=
  (peek? bs i).bind fun
    | none => some (.ok .endOfLine, i)
    | some c =>
      match Operator.ofChar? c with
      | some o =>
        (readOperatorAt? bs c o (i + c.utf8Size)).map fun (o, j) => (.ok (.operator o), j)
      | none =>
        if c = '#' then
          (slice? bs i bs.length).map fun text =>
            (.ok (if m.keepBlanks then .blank (String.ofList text) else .endOfLine), bs.length)
        else
          (readWordAt? m bs none [] i).map fun
            | (some word, j) => (.ok (.word (String.ofList word)), j)
            | (none, j) => (.error .unclosedQuote, j)

/-- Reads one token from a position, and tells the position behind it. There is no result if a
slice of the line is missing. -/
def nextAt? (m : Mode) (bs : List UInt8) (i : Nat) : Option (Item × Nat) :=
  (skipBlanksAt? bs i).bind fun j =>
    (slice? bs i j).bind fun blanks =>
      if m.keepBlanks && !blanks.isEmpty then some (.ok (.blank (String.ofList blanks)), j)
      else readLexemeAt? m bs j

/-- The position at which the end of a line begins. -/
def position (cs rest : List Char) : Nat := width cs - width rest

theorem position_append (a cs : List Char) : position (a ++ cs) cs = width a := by
  rw [position, Text.width_append, Nat.add_sub_cancel]

theorem width_concat (a : List Char) (c : Char) : width (a ++ [c]) = width a + c.utf8Size := by
  rw [Text.width_append, Text.width_cons, Text.width_nil, Nat.add_zero]

theorem skipBlanksAt?_of_end (h : peek? bs i = some none) : skipBlanksAt? bs i = some i := by
  rw [skipBlanksAt?]
  split
  · simp_all
  · rfl
  · simp_all

theorem skipBlanksAt?_of_char (h : peek? bs i = some (some c)) : skipBlanksAt? bs i =
    if isBlank c then skipBlanksAt? bs (i + c.utf8Size) else some i := by
  rw [skipBlanksAt?]
  split
  · simp_all
  · simp_all
  · rename_i d hd
    obtain rfl : c = d := by simpa [h] using hd
    rfl

theorem skipBlanksAt?_encode (a cs : List Char) :
    skipBlanksAt? (encode (a ++ cs)) (width a) =
      some (position (a ++ cs) (cs.dropWhile isBlank)) := by
  induction cs generalizing a with
  | nil => rw [skipBlanksAt?_of_end (Text.peek?_encode a []), List.dropWhile_nil, position_append]
  | cons c cs ih =>
    rw [skipBlanksAt?_of_char (Text.peek?_encode a (c :: cs)), List.dropWhile_cons]
    split
    · rw [List.append_cons, ← width_concat, ih]
    · rw [position_append]

theorem readWordAt?_of_end (h : peek? bs i = some none) (open? : Option Char)
    (word : List Char) :
    readWordAt? m bs open? word i = some (if open?.isSome then none else some word, i) := by
  rw [readWordAt?]
  split
  · simp_all
  · rfl
  · simp_all

theorem readWordAt?_of_char (h : peek? bs i = some (some c)) (open? : Option Char)
    (word : List Char) :
    readWordAt? m bs open? word i =
      match open? with
      | none =>
        if endsWord c then some (some word, i)
        else if isQuote c then readWordAt? m bs (some c) (withMark m word c) (i + c.utf8Size)
        else readWordAt? m bs none (word ++ [c]) (i + c.utf8Size)
      | some q =>
        if c = q then readWordAt? m bs none (withMark m word c) (i + c.utf8Size)
        else readWordAt? m bs (some q) (word ++ [c]) (i + c.utf8Size) := by
  rw [readWordAt?]
  split
  · simp_all
  · simp_all
  · rename_i d hd
    obtain rfl : c = d := by simpa [h] using hd
    rfl

/-- What a reading of a word comes to if `word` was read before it: the word, and the position
behind it. -/
def wordFrom (all word : List Char) (r : Option (List Char × List Char)) :
    Option (List Char) × Nat :=
  match r with
  | some (w, rest) => (some (word ++ w), position all rest)
  | none => (none, width all)

theorem wordFrom_push (all word : List Char) (c : Char) (r : Option (List Char × List Char)) :
    wordFrom all (word ++ [c]) r = wordFrom all word (push c r) := by
  cases r with
  | none => rfl
  | some r => simp [wordFrom, push]

theorem wordFrom_pushQuote (all word : List Char) (c : Char)
    (r : Option (List Char × List Char)) :
    wordFrom all (withMark m word c) r = wordFrom all word (pushQuote m c r) := by
  unfold withMark pushQuote
  split
  · exact wordFrom_push all word c r
  · rfl

theorem readWordAt?_encode (a cs : List Char) (open? : Option Char) (word : List Char) :
    readWordAt? m (encode (a ++ cs)) open? word (width a) =
      some (wordFrom (a ++ cs) word (readWord m open? cs)) := by
  induction cs generalizing a open? word with
  | nil =>
    rw [readWordAt?_of_end (Text.peek?_encode a [])]
    cases open? with
    | none => simp [readWord, wordFrom, position]
    | some q => simp [readWord, wordFrom]
  | cons c cs ih =>
    have hnext (open? : Option Char) (word : List Char) :
        readWordAt? m (encode (a ++ c :: cs)) open? word (width a + c.utf8Size) =
          some (wordFrom (a ++ c :: cs) word (readWord m open? cs)) := by
      rw [List.append_cons, ← width_concat, ih]
    rw [readWordAt?_of_char (Text.peek?_encode a (c :: cs))]
    cases open? with
    | none =>
      simp only [readWord]
      split
      · rw [wordFrom, position_append, List.append_nil]
      · split
        · rw [hnext, wordFrom_pushQuote]
        · rw [hnext, wordFrom_push]
    | some q =>
      simp only [readWord]
      split
      · rw [hnext, wordFrom_pushQuote]
      · rw [hnext, wordFrom_push]

theorem readOperatorAt?_encode (a : List Char) (c : Char) (o : Operator) (cs : List Char) :
    readOperatorAt? (encode (a ++ cs)) c o (width a) =
      some ((readOperator c o cs).1, position (a ++ cs) (readOperator c o cs).2) := by
  rw [readOperatorAt?, Text.peek?_encode, Option.map_some]
  cases cs with
  | nil => simp only [List.head?_nil, readOperator, position_append]
  | cons d ds =>
    cases hdouble : o.doubled? with
    | none => simp only [List.head?_cons, readOperator, hdouble, position_append]
    | some oo =>
      simp only [List.head?_cons, readOperator, hdouble]
      split
      · rw [List.append_cons, position_append, width_concat]
      · rw [position_append]

theorem readLexemeAt?_encode (m : Mode) (a cs : List Char) :
    readLexemeAt? m (encode (a ++ cs)) (width a) =
      some ((readLexeme m cs).1, position (a ++ cs) (readLexeme m cs).2) := by
  rw [readLexemeAt?, Text.peek?_encode, Option.bind_some]
  cases cs with
  | nil => simp only [List.head?_nil, readLexeme, position_append]
  | cons c cs =>
    simp only [List.head?_cons, readLexeme]
    cases hop : Operator.ofChar? c with
    | some o =>
      simp only
      rw [List.append_cons, ← width_concat, readOperatorAt?_encode]
      rfl
    | none =>
      simp only
      split
      · have hslice := Text.slice?_encode a (c :: cs) []
        rw [List.append_nil] at hslice
        rw [Text.length_encode, hslice]
        rfl
      · rw [readWordAt?_encode, Option.map_some]
        cases readWord m none (c :: cs) with
        | none => rfl
        | some r => rfl

/-- **A reading by position never misses a slice.** It delivers what a reading of the rest of the
line delivers, and goes as far. -/
theorem nextAt?_encode (m : Mode) (a cs : List Char) :
    nextAt? m (encode (a ++ cs)) (width a) =
      some ((next m cs).1, position (a ++ cs) (next m cs).2) := by
  let blanks := cs.takeWhile isBlank
  let rest := cs.dropWhile isBlank
  have hall : a ++ cs = a ++ blanks ++ rest := by
    rw [List.append_assoc, List.takeWhile_append_dropWhile]
  have hposition : position (a ++ cs) rest = width (a ++ blanks) := by
    rw [hall, position_append]
  have hslice : slice? (encode (a ++ cs)) (width a) (width (a ++ blanks)) = some blanks := by
    rw [hall]
    exact Text.slice?_encode a blanks rest
  have hlexeme : readLexemeAt? m (encode (a ++ cs)) (width (a ++ blanks)) =
      some ((readLexeme m rest).1, position (a ++ cs) (readLexeme m rest).2) := by
    rw [hall]
    exact readLexemeAt?_encode m (a ++ blanks) rest
  rw [nextAt?, skipBlanksAt?_encode, Option.bind_some, hposition, hslice, Option.bind_some, next]
  split
  · rw [hposition]
  · exact hlexeme

/-! ## 3. Any number of readings -/

/-- What call number `n` on a line delivers, counted from zero. -/
def reading (m : Mode) (line : String) (n : Nat) : Item := (next m (behind m n line.toList)).1

/-- The position in a line after `n` calls. -/
def place (m : Mode) (line : String) (n : Nat) : Nat :=
  position line.toList (behind m n line.toList)

/-- What `n` calls on a line deliver and the position after them, read by position from its
start. -/
def run? (m : Mode) (bs : List UInt8) : Nat → Option (List Item × Nat)
  | 0 => some ([], 0)
  | n + 1 =>
    (run? m bs n).bind fun (items, i) =>
      (nextAt? m bs i).map fun (item, j) => (items ++ [item], j)

/-- What was read of a line, and what is left of it. -/
theorem exists_read (m : Mode) (n : Nat) (line : String) :
    ∃ read, line.toList = read ++ behind m n line.toList ∧ place m line n = width read := by
  obtain ⟨read, hread⟩ := behind_suffix m n line.toList
  refine ⟨read, hread.symm, ?_⟩
  rw [place]
  nth_rewrite 1 [← hread]
  exact position_append _ _

theorem nextAt?_place (m : Mode) (line : String) (n : Nat) :
    nextAt? m (bytes line) (place m line n) = some (reading m line n, place m line (n + 1)) := by
  obtain ⟨read, hline, hplace⟩ := exists_read m n line
  have hnext := nextAt?_encode m read (behind m n line.toList)
  rw [← hline, ← behind_succ] at hnext
  rw [hplace]
  exact hnext

theorem run?_bytes (m : Mode) (line : String) (n : Nat) :
    run? m (bytes line) n = some ((List.range n).map (reading m line), place m line n) := by
  induction n with
  | zero =>
    rw [run?, place, behind, position, Nat.sub_self]
    rfl
  | succ n ih =>
    rw [run?, ih, Option.bind_some]
    dsimp only
    rw [nextAt?_place, Option.map_some, List.range_succ, List.map_append, List.map_singleton]

/-- The end of the line uses up the line. -/
theorem next_endOfLine (h : (next m cs).1 = .ok .endOfLine) : (next m cs).2 = [] := by
  have hlexeme (ds : List Char) (h : (readLexeme m ds).1 = .ok .endOfLine) :
      (readLexeme m ds).2 = [] := by
    cases ds with
    | nil => rfl
    | cons c ds =>
      simp only [readLexeme] at h ⊢
      split at h
      · cases h
      · split at h
        · rename_i hcomment
          simp only [hcomment, if_true]
        · split at h
          · cases h
          · cases h
  unfold next at h ⊢
  dsimp only at h ⊢
  split at h
  · cases h
  · rename_i hkeep
    rw [if_neg hkeep]
    exact hlexeme _ h

@[simp] theorem behind_nil (m : Mode) (n : Nat) : behind m n [] = [] := by
  induction n with
  | zero => rfl
  | succ n ih => rw [behind, next_nil]; exact ih

theorem behind_add (m : Mode) (n k : Nat) (cs : List Char) :
    behind m (n + k) cs = behind m k (behind m n cs) := by
  induction n generalizing cs with
  | zero => rw [Nat.zero_add, behind]
  | succ n ih => rw [Nat.add_right_comm, behind, behind, ih]

/-- Where a call has used up the line, every later call delivers its end. -/
theorem reading_of_behind_eq_nil {k : Nat} (h : behind m n line.toList = []) (hk : n ≤ k) :
    reading m line k = .ok .endOfLine := by
  obtain ⟨d, rfl⟩ := Nat.exists_eq_add_of_le hk
  rw [reading, behind_add, h, behind_nil, next_nil]

/-- **A call that does not deliver the end of the line takes characters off it.** -/
theorem exists_taken (h : (next m cs).1 ≠ .ok .endOfLine) :
    ∃ taken, taken ≠ [] ∧ cs = taken ++ (next m cs).2 := by
  obtain ⟨taken, htaken⟩ := next_suffix m cs
  refine ⟨taken, ?_, htaken.symm⟩
  rintro rfl
  have hshorter := (next_shorter m cs).resolve_left h
  rw [List.nil_append] at htaken
  rw [htaken] at hshorter
  exact Nat.lt_irrefl _ hshorter

theorem place_lt (h : reading m line n ≠ .ok .endOfLine) :
    place m line n < place m line (n + 1) := by
  obtain ⟨read, hline, hplace⟩ := exists_read m n line
  obtain ⟨taken, hne, htaken⟩ := exists_taken h
  have hnext : place m line (n + 1) = width (read ++ taken) := by
    rw [place, behind_succ]
    nth_rewrite 1 [hline, htaken]
    rw [← List.append_assoc, position_append]
  have hpos := Text.width_pos hne
  rw [hplace, hnext, Text.width_append]
  omega

/-- There are no more such calls than there are characters. -/
theorem lt_length_of_next (h : (next m (behind m n cs)).1 ≠ .ok .endOfLine) : n < cs.length := by
  induction n generalizing cs with
  | zero =>
    cases cs with
    | nil => exact absurd (by rw [behind, next_nil]) h
    | cons c cs => exact Nat.succ_pos _
  | succ n ih =>
    have hrest : n < (next m cs).2.length := ih h
    by_cases hend : (next m cs).1 = .ok .endOfLine
    · rw [next_endOfLine hend] at hrest
      exact absurd hrest (Nat.not_lt_zero n)
    · have hshorter := (next_shorter m cs).resolve_left hend
      omega

theorem readings_eq (m : Mode) (line : String) (n : Nat) :
    readings m line n = (List.range n).map (reading m line) := by
  have key (cs : List Char) (n : Nat) :
      (stream m cs).take n ++ List.replicate (n - (stream m cs).length) (.ok .endOfLine) =
        (List.range n).map fun i => (next m (behind m i cs)).1 := by
    induction n generalizing cs with
    | zero => simp
    | succ n ih =>
      rw [List.range_succ_eq_map, List.map_cons, List.map_map]
      by_cases hend : (next m cs).1 = .ok .endOfLine
      · have hnil : stream m cs = [] := stream_eq_nil_iff.2 hend
        have hrest := ih (next m cs).2
        rw [next_endOfLine hend, stream_nil] at hrest
        rw [hnil, List.take_nil, List.nil_append, List.length_nil, Nat.sub_zero,
          List.replicate_succ, behind, hend]
        simp only [List.take_nil, List.nil_append, List.length_nil, Nat.sub_zero] at hrest
        rw [hrest]
        refine congrArg _ (List.map_congr_left fun i _ => ?_)
        show _ = (next m (behind m i (next m cs).2)).1
        rw [next_endOfLine hend]
      · have hnext : next m cs = ((next m cs).1, (next m cs).2) := rfl
        rw [stream_of_item hnext hend, List.take_succ_cons, List.length_cons,
          Nat.add_sub_add_right, List.cons_append, ih, behind]
        rfl
  exact key line.toList n

/-! ## 4. All readings of a line -/

/-- **What holds of all calls on a line.** -/
structure ReadsOnward (m : Mode) (line : String) : Prop where
  /-- Read by position, no slice is missing, and the calls deliver the readings of the line. -/
  within : ∀ n, run? m (bytes line) n = some (readings m line n, place m line n)
  boundary : ∀ n, isBoundary (bytes line) (place m line n) = true
  bounded : ∀ n, place m line n ≤ (bytes line).length
  step : ∀ n, nextAt? m (bytes line) (place m line n) =
    some (reading m line n, place m line (n + 1))
  onward : ∀ n, reading m line n ≠ .ok .endOfLine → place m line n < place m line (n + 1)
  /-- The end of the line comes after at most as many calls as the line has characters. -/
  ends : ∀ n, line.length ≤ n → reading m line n = .ok .endOfLine
  stays : ∀ n k, n ≤ k → reading m line n = .ok .endOfLine → reading m line k = .ok .endOfLine
  /-- There is no error but for an open quote, and no more than one. -/
  once : ∀ n k e e', reading m line n = .error e → reading m line k = .error e' →
    n = k ∧ e = .unclosedQuote
  /-- After the error comes the end. -/
  stopped : ∀ n e, reading m line n = .error e → reading m line (n + 1) = .ok .endOfLine
  operators : ∀ n o, reading m line n = .ok (.operator o) →
    o.symbol ∈ [";", "|", "&", "<", ">", "||", "&&", ">>", "<<"]
  /-- Where blanks are skipped, none are delivered. -/
  skips : m.keepBlanks = false → ∀ n text, reading m line n ≠ .ok (.blank text)

theorem behind_of_error {e : SyntaxError} (h : reading m line n = .error e) :
    behind m (n + 1) line.toList = [] := by
  rw [behind_succ]
  exact (next_error h).2

theorem reading_of_error {k : Nat} {e : SyntaxError} (h : reading m line n = .error e)
    (hk : n < k) : reading m line k = .ok .endOfLine :=
  reading_of_behind_eq_nil (behind_of_error h) hk

/-- **A line is read onward, up to its end.** Whatever the mode and however often it is asked for
the next token, a reading by position looks at the line only between characters, delivers what the
line reads as, goes on with every call until it delivers the end, and delivers that for ever. -/
theorem reads_onward (m : Mode) (line : String) : ReadsOnward m line where
  within n := by rw [run?_bytes, readings_eq]
  boundary n := by
    obtain ⟨read, hline, hplace⟩ := exists_read m n line
    rw [hplace]
    exact Text.isBoundary_encode_iff.2 ⟨read, ⟨_, hline.symm⟩, rfl⟩
  bounded n := by
    rw [place, position, bytes, Text.length_encode]
    exact Nat.sub_le _ _
  step := nextAt?_place m line
  onward _ := place_lt
  ends n hn := by
    by_contra hne
    exact absurd (lt_length_of_next hne) (Nat.not_lt.2 hn)
  stays n k hk h := by
    rcases Nat.eq_or_lt_of_le hk with rfl | hlt
    · exact h
    · refine reading_of_behind_eq_nil (n := n + 1) ?_ hlt
      rw [behind_succ]
      exact next_endOfLine h
  once n k e e' h h' := by
    refine ⟨?_, (next_error h).1⟩
    rcases Nat.lt_trichotomy n k with hlt | heq | hlt
    · rw [reading_of_error h hlt] at h'
      cases h'
    · exact heq
    · rw [reading_of_error h' hlt] at h
      cases h
  stopped n e h := reading_of_error h (Nat.lt_succ_self n)
  operators n o _ := by cases o <;> decide
  skips hm n text h := by
    have hkeeps := next_blank h
    rw [hm] at hkeeps
    cases hkeeps

/-- A quote that is left open behind a character of two bytes: the error is at the end of the line,
and the calls after it deliver the end. -/
example : run? plain (bytes "é|'") 4 = some ([.ok (.word "é"), .ok (.operator .pipe),
    .error .unclosedQuote, .ok .endOfLine], 4) := by decide +kernel

end Lexer

end JobShell
