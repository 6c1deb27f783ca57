import JobShell.Proofs.Shell.Unread
import JobShell.Proofs.Text.Lines
import JobShell.Shell.Invocation

/-!
# What line editors hand out

The shell evaluates what a line editor hands out, and can be used with any. This is what is relied
on where the lines of its input are to be told beforehand.

* `Begins cs bs rest` says that a line stands at the beginning of some bytes.
* `Editor.ReadsLines ed held clean` says that an editor hands out one such line after the other, each
  of them as `clean` has it, which leaves a line without backspaces as it stands.
* The plain editor does (`readsLines_plain`), in whatever way characters combine to clusters
  (`Clustering.Cuts`). `on_readLine` says that the pieces in which input comes make no difference to
  its lines, and `on_next_plain` what it hands out. Its prompts are shown without a look at the
  input (`unread_prompt_plain`), if no process reads while it waits.
-/

namespace JobShell

open Act

/-! ## 1. Lines and editors -/

/-- A line stands at the beginning of some bytes. Only the last one need not end in a newline. -/
inductive Begins : (cs : List Char) → (bs rest : List UInt8) → Prop
  | ended {cs : List Char} (h : '\n' ∉ cs) (rest : List UInt8) :
      Begins cs (Text.encode cs ++ newline :: rest) rest
  | last {cs : List Char} (h : '\n' ∉ cs) (hne : cs ≠ []) : Begins cs (Text.encode cs) []

variable {cs : List Char} {bs rest : List UInt8}

theorem Begins.length_lt (h : Begins cs bs rest) : rest.length < bs.length := by
  cases h with
  | ended h rest =>
    rw [List.length_append, List.length_cons]
    omega
  | last h hne => exact List.length_pos_iff.2 (Text.encode_ne_nil hne)

/-- **An editor reads lines.** `held` are the bytes that it has read beyond a line, and `clean` is
what is evaluated of a line. -/
structure Editor.ReadsLines {ρ : Type} (ed : Editor Kernel ρ) (held : ρ → List UInt8)
    (clean : List Char → String) : Prop where
  /-- The line at the beginning of what is left is handed out, and nothing else happens. -/
  line {s : Session} {r : ρ} {input rest : List UInt8} {cs : List Char}
    (h : Begins cs (held r ++ input) rest) :
    ∃ text r' input', held r' ++ input' = rest ∧ Text.trim text = clean cs ∧
      (ed.next r).on (Shell.hearing s input) = (.ok (.line text, r'), Shell.hearing s input')
  /-- Where nothing is left, that is told. -/
  ended {s : Session} {r : ρ} {input : List UInt8} (h : held r ++ input = []) :
    ∃ r' input',
      (ed.next r).on (Shell.hearing s input) = (.ok (.ended, r'), Shell.hearing s input')
  /-- A line without backspaces is evaluated as it stands, but for blanks at its ends. -/
  plain {cs : List Char} (h : '\x08' ∉ cs) : clean cs = Text.trim (String.ofList cs)

/-- **A text is cut into clusters**: no character gets lost. -/
structure Clustering.Cuts (clusters : Clustering) : Prop where
  whole (cs : List Char) : (clusters cs).flatten = cs
  /-- A carriage return at the end combines with nothing. -/
  concat (cs : List Char) : clusters (cs ++ ['\r']) = clusters cs ++ [['\r']]

theorem Clustering.cuts_single : Clustering.single.Cuts where
  whole cs := by
    induction cs with
    | nil => rfl
    | cons c cs ih => exact congrArg (c :: ·) ih
  concat cs := List.map_append ..

namespace Shell

variable {α β : Type} {s s' : Session}

/-! ## 2. Prompts -/

section Prompts

variable {a : Act Kernel α} {f : α → Act Kernel β}

theorem UnreadAt.bind (ha : UnreadAt a s) (hf : ∀ x s', UnreadAt (f x) s') :
    UnreadAt (a >>= f) s := by
  intro bs
  cases hon : a.on s with
  | mk r s' =>
    rw [on_bind, on_bind, ha.of_on hon, hon]
    cases r with
    | ok x => exact hf x s' bs
    | error e => rfl

theorem unread_pure (x : α) (s : Session) : UnreadAt (pure x) s := fun _ => rfl

theorem unread_write (text : List UInt8) (s : Session) : UnreadAt (write text) s :=
  (mirrors_write text).unread ⟨trivial⟩

theorem unread_note (l : Diagnostics.Level) (target message : String)
    (fields : List (String × String)) (s : Session) :
    UnreadAt (note l target message fields) s := by
  refine (mirrors_note l target message fields).unread ⟨?_⟩
  rw [note, on_bind, on_get]
  by_cases h : (watched s).filter.allows target l = true
  · simp only [h, if_true]
    exact trivial
  · simp only [h]
    exact trivial

theorem unread_writeOrFail (text : String) (s : Session) : UnreadAt (writeOrFail text) s := by
  refine (unread_write _ s).bind fun ok s' => ?_
  cases ok with
  | true => exact unread_pure _ s'
  | false => exact fun _ => rfl

theorem unread_showPrompt (t : Terminal) (text : String) (s : Session) :
    UnreadAt (showPrompt t text) s := by
  have shown (s : Session) : UnreadAt (write (Text.bytes text) >>= fun ok =>
      if ok then pure (.ok ()) else pure (.error [Reason.noSpace.numbered, Reason.noSpace.numbered]) :
        Act Kernel (Except (List String) Unit)) s := by
    refine (unread_write _ s).bind fun ok s' => ?_
    cases ok with
    | true => exact unread_pure _ s'
    | false => exact unread_pure _ s'
  unfold showPrompt
  split
  · exact (unread_note _ _ _ _ s).bind fun _ s' => shown s'
  · split
    · exact shown s
    · exact (unread_note _ _ _ _ s).bind fun _ s' => unread_pure _ s'

/-- **A prompt is shown without a look at the input**, if no process reads while it waits. -/
theorem unread_prompt_plain (t : Terminal) (clusters : Clustering) (text : String)
    (hnone : NoneReads settle s) : UnreadAt ((Editor.plain t clusters).prompt text) s :=
  (mirrors_settle.unread hnone).bind fun _ s' => unread_showPrompt t text s'

end Prompts

/-! ## 3. Reading -/

/-- A piece of the input is its beginning, and there is none only at the end. -/
theorem readChunk_snd (around : Surroundings) :
    around.readChunk.2 <+: around.input ∧ (around.readChunk.2 = [] → around.input = []) := by
  rw [Surroundings.readChunk]
  cases hinput : around.input with
  | nil => simp
  | cons b bs =>
    split
    · exact ⟨(List.take_prefix _ _).trans (List.take_prefix _ _),
        fun h => by simp [Surroundings.chunkSize] at h⟩
    · exact ⟨List.take_prefix _ _, fun h => by simp [Surroundings.chunkSize] at h⟩

theorem on_readChunk (s : Session) (input : List UInt8) :
    ∃ chunk rest, chunk ++ rest = input ∧ (chunk = [] → input = []) ∧
      (readChunk : Act Kernel (List UInt8)).on (s.hearing input) = (.ok chunk, s.hearing rest) := by
  obtain ⟨hchunk, hempty⟩ := readChunk_snd (s.hearing input).host.around
  exact ⟨_, _, List.prefix_iff_eq_append.1 hchunk, hempty, rfl⟩

/-- The next line in some bytes, and what is beyond it. -/
def nextLine (bs : List UInt8) : Option (List UInt8) × List UInt8 :=
  if newline ∈ bs then
    let text := bs.takeWhile (· ≠ newline)
    (some (text ++ [newline]), bs.drop (text.length + 1))
  else (if bs.isEmpty then none else some bs, [])

theorem nextLine_append {a : List UInt8} (h : newline ∉ a) (rest : List UInt8) :
    nextLine (a ++ newline :: rest) = (some (a ++ [newline]), rest) := by
  have htext : (a ++ newline :: rest).takeWhile (· ≠ newline) = a := by
    have hall : ∀ b ∈ a, decide (b ≠ newline) = true :=
      fun b hb => decide_eq_true fun e => h (e ▸ hb)
    rw [List.takeWhile_append_of_pos hall, List.takeWhile_cons_of_neg (by simp), List.append_nil]
  have hmem : newline ∈ a ++ newline :: rest :=
    List.mem_append_right a List.mem_cons_self
  rw [nextLine, if_pos hmem]
  simp only [htext]
  rw [← List.drop_drop, List.drop_left]
  rfl

theorem nextLine_of_notMem {a : List UInt8} (h : newline ∉ a) :
    nextLine a = (if a.isEmpty then none else some a, []) := if_neg h

/-- **Lines are what is read, in whatever pieces the input comes.** -/
theorem on_readLine (s : Session) {bound : Nat} (buffer : List UInt8) {input : List UInt8}
    (hbound : input.length < bound) :
    ∃ buffer' input', buffer' ++ input' = (nextLine (buffer ++ input)).2 ∧
      (readLine bound buffer : Act Kernel _).on (s.hearing input) =
        (.ok ((nextLine (buffer ++ input)).1, buffer'), s.hearing input') := by
  induction bound generalizing buffer input with
  | zero => exact (Nat.not_lt_zero _ hbound).elim
  | succ n ih =>
    by_cases h : newline ∈ buffer
    · obtain ⟨a, rest, rfl, ha⟩ := List.eq_append_cons_of_mem h
      have hbuffer := nextLine_append ha rest
      rw [nextLine, if_pos h, Prod.mk.injEq] at hbuffer
      rw [readLine, if_pos (List.contains_iff_mem.2 h), List.append_assoc, List.cons_append,
        nextLine_append ha]
      refine ⟨rest, input, rfl, ?_⟩
      rw [on_pure, hbuffer.1, hbuffer.2]
    · -- What is in hand is no whole line, so more is read: nothing of what is left gets lost.
      obtain ⟨chunk, rest, rfl, hempty, hon⟩ := on_readChunk s input
      rw [readLine, if_neg (mt List.contains_iff_mem.1 h), on_bind, hon]
      simp only
      cases chunk with
      | nil =>
        rw [show rest = [] from hempty rfl, List.append_nil, List.append_nil, nextLine_of_notMem h]
        exact ⟨[], [], rfl, rfl⟩
      | cons b bs =>
        rw [← List.append_assoc]
        refine ih (buffer ++ b :: bs) ?_
        rw [List.length_append, List.length_cons] at hbound
        omega

/-- What was read of a line is handed out as its text. -/
theorem on_next_of_readLine {t : Terminal} {clusters : Clustering} {r : Reader}
    {x : Option (List UInt8) × List UInt8}
    (hread : (readLine (s.host.around.input.length + 1) r.buffer : Act Kernel _).on s =
      (.ok x, s')) :
    ((Editor.plain t clusters).next r).on s =
      (.ok (readingOf clusters x.1, { r with buffer := x.2 }), s') := by
  show ((get : Act Kernel Session) >>= fun s => readLine (s.host.around.input.length + 1) r.buffer >>=
    fun x => pure (readingOf clusters x.1, { r with buffer := x.2 })).on s = _
  rw [on_bind, on_get]
  dsimp only
  rw [on_bind, hread]
  rfl

/-- **What the plain editor hands out** is the next line of what is left. -/
theorem on_next_plain (t : Terminal) (clusters : Clustering) (s : Session) (r : Reader)
    (input : List UInt8) :
    ∃ buffer' input', buffer' ++ input' = (nextLine (r.buffer ++ input)).2 ∧
      ((Editor.plain t clusters).next r).on (s.hearing input) =
        (.ok (readingOf clusters (nextLine (r.buffer ++ input)).1, { r with buffer := buffer' }),
          s.hearing input') := by
  obtain ⟨buffer', input', hleft, hon⟩ := on_readLine s r.buffer (Nat.lt_succ_self input.length)
  exact ⟨buffer', input', hleft, on_next_of_readLine (s := s.hearing input) hon⟩

/-! ## 4. The text of a line -/

/-- A line as it is evaluated: what backspaces take away is gone, and so are blanks at the ends. -/
def readable (clusters : Clustering) (cs : List Char) : String :=
  Text.trim (String.ofList (erasing [] (clusters cs)))

theorem erasing_of_notMem {gs : List (List Char)} (h : ['\x08'] ∉ gs) (kept : List (List Char)) :
    erasing kept gs = kept.reverse.flatten ++ gs.flatten := by
  induction gs generalizing kept with
  | nil => exact (List.append_nil _).symm
  | cons g gs ih =>
    have hg : g ≠ ['\x08'] := fun e => h (e ▸ List.mem_cons_self)
    rw [erasing, if_neg hg, ih fun hmem => h (List.mem_cons_of_mem g hmem), List.reverse_cons,
      List.flatten_append, List.flatten_singleton, List.append_assoc, List.flatten_cons]

theorem erasing_concat {g : List Char} (h : g ≠ ['\x08']) (kept gs : List (List Char)) :
    erasing kept (gs ++ [g]) = erasing kept gs ++ g := by
  induction gs generalizing kept with
  | nil =>
    rw [List.nil_append, erasing, erasing, if_neg h, erasing, List.reverse_cons,
      List.flatten_append, List.flatten_singleton]
  | cons d gs ih =>
    rw [List.cons_append, erasing, erasing]
    split
    · exact ih _
    · exact ih _

variable {t : Terminal} {clusters : Clustering}

/-- **A line without backspaces is evaluated as it stands**, but for blanks at its ends. -/
theorem readable_of_notMem (hcuts : clusters.Cuts) (h : '\x08' ∉ cs) :
    readable clusters cs = Text.trim (String.ofList cs) := by
  have hnone : ['\x08'] ∉ clusters cs := fun hmem =>
    h (hcuts.whole cs ▸ List.mem_flatten.2 ⟨_, hmem, List.mem_singleton_self _⟩)
  rw [readable, erasing_of_notMem hnone, hcuts.whole]
  rfl

/-- A carriage return at the end of a line is a blank like others. -/
theorem readable_concat_return (hcuts : clusters.Cuts) (cs : List Char) :
    readable clusters (cs ++ ['\r']) = readable clusters cs := by
  have hblank : Text.isBlank '\r' = true := by decide
  rw [readable, readable, hcuts.concat, erasing_concat (by decide), Text.trim, Text.trim,
    String.toList_ofList, String.toList_ofList, Text.trimChars_concat hblank]

theorem lineText?_eq {ds : List Char} {line : List UInt8} (hline : line = Text.encode cs)
    (hend : withoutEnd line = Text.encode ds) :
    lineText? clusters line = some (String.ofList (erasing [] (clusters ds))) := by
  rw [lineText?, hend, hline, Text.decode?_encode, Text.decode?_encode]
  simp only [Option.bind_some, Option.map_some, String.toList_ofList]

theorem newline_mem_encode_iff : newline ∈ Text.encode cs ↔ '\n' ∈ cs :=
  Text.mem_encode_iff (c := '\n') (by decide)

/-- A line that ends in a newline has a text, which is as it should be but for a carriage return. -/
theorem exists_lineText?_append (hcuts : clusters.Cuts) (cs : List Char) :
    ∃ text, lineText? clusters (Text.encode cs ++ [newline]) = some text ∧
      Text.trim text = readable clusters cs := by
  have hencode : Text.encode cs ++ [newline] = Text.encode (cs ++ ['\n']) := by
    rw [Text.encode_append]
    rfl
  have hlast : (Text.encode cs ++ [newline]).getLast? = some newline := List.getLast?_concat
  by_cases hreturn : (Text.encode cs).getLast? = some 13
  · obtain ⟨ds, rfl⟩ := Text.eq_concat_of_getLast?_encode (c := '\r') (by decide) hreturn
    refine ⟨_, lineText?_eq hencode ?_, (readable_concat_return hcuts ds).symm⟩
    rw [withoutEnd, if_pos hlast]
    simp only [List.dropLast_concat]
    rw [if_pos hreturn, Text.encode_append]
    exact List.dropLast_concat
  · refine ⟨_, lineText?_eq hencode ?_, rfl⟩
    rw [withoutEnd, if_pos hlast]
    simp only [List.dropLast_concat]
    rw [if_neg hreturn]

theorem lineText?_last (h : '\n' ∉ cs) :
    lineText? clusters (Text.encode cs) = some (String.ofList (erasing [] (clusters cs))) := by
  refine lineText?_eq rfl ?_
  rw [withoutEnd]
  exact if_neg fun hlast => h (newline_mem_encode_iff.1 (List.mem_of_getLast? hlast))

/-- **The line at the beginning is the next one to be read.** -/
theorem Begins.read (hcuts : clusters.Cuts) (h : Begins cs bs rest) :
    ∃ line text, nextLine bs = (some line, rest) ∧ lineText? clusters line = some text ∧
      Text.trim text = readable clusters cs := by
  cases h with
  | ended h rest =>
    obtain ⟨text, htext, htrim⟩ := exists_lineText?_append hcuts cs
    exact ⟨_, text, nextLine_append (mt newline_mem_encode_iff.1 h) rest, htext, htrim⟩
  | last h hne =>
    refine ⟨_, _, ?_, lineText?_last h, rfl⟩
    have hempty : ¬ (Text.encode cs).isEmpty = true :=
      mt List.isEmpty_iff.1 (Text.encode_ne_nil hne)
    rw [nextLine_of_notMem (mt newline_mem_encode_iff.1 h), if_neg hempty]

/-- **The plain editor reads lines**, however characters combine. -/
theorem readsLines_plain (t : Terminal) (hcuts : clusters.Cuts) :
    (Editor.plain t clusters).ReadsLines Reader.buffer (readable clusters) where
  line {s r input rest cs} h := by
    obtain ⟨line, text, hnext, htext, htrim⟩ := Begins.read hcuts h
    obtain ⟨buffer', input', hleft, hon⟩ := on_next_plain t clusters s r input
    rw [hnext] at hleft hon
    refine ⟨text, { r with buffer := buffer' }, input', hleft, htrim, hon.trans ?_⟩
    rw [readingOf, htext]
  ended {s r input} h := by
    obtain ⟨buffer', input', -, hon⟩ := on_next_plain t clusters s r input
    rw [h] at hon
    exact ⟨_, input', hon⟩
  plain h := readable_of_notMem hcuts h

end Shell

end JobShell
