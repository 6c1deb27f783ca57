import JobShell.Proofs.Command.Grammar

/-!
# Asking a parser again

A parser that has refused a line can be asked again, and goes on from where it stopped. It does not
go on for ever: each refusal takes something off the line, but for the one at an operator that has
no place in a command, which is repeated.

* `unread p` is what a parser has in front of it.
* `Passes items r after` says that a call which finds `items` in front of it takes at least one of
  them off and leaves `after`; `parse_cases` says that there are two other ways for a call to end,
  at the end of the line and at an unsupported operator, and that these leave the parser as it is.
* `parses_unsupported` and `parses_supported` are what comes of any number of calls, by induction on
  their number; `parses_settle` is the outcome for lines.
-/

namespace JobShell

open Lexer (Item Mode tokens)

/-- The operator that has no place in a command, if the token is one. -/
def Token.unsupported? : Token → Option Operator
  | operator .input | operator .output | operator .background => none
  | operator o => some o
  | _ => none

namespace Parser

/-! ## 1. One call -/

/-- What a parser has not read: the token it stands at, unless that is the end of the line, and the
readings ahead. -/
def unread (p : Parser) : List Item :=
  if p.current = .endOfLine then [] else .ok p.current :: p.ahead

/-- The first operator among readings that has no place in a command. -/
def firstUnsupported? (items : List Item) : Option Operator :=
  (items.filterMap Except.toOption).findSome? Token.unsupported?

/-- No reading is the end of the line. -/
def Within (items : List Item) : Prop := ∀ t, .ok t ∈ items → t ≠ .endOfLine

/-- **A call takes something off**: it finds the first readings in front of it, gives the result and
leaves the other ones. A reading that fails is taken off, and the token in front of it stays. -/
inductive Passes : List Item → Parsed → List Item → Prop
  | upTo {t : Token} {items : List Item} {r : Parsed} (ht : t.unsupported? = none)
      (hr : ∀ c, r = .ok c → items = []) : Passes (.ok t :: items) r items
  | failed (t : Token) (e : SyntaxError) (items : List Item) :
      Passes (.ok t :: .error e :: items) (.error e) (.ok t :: items)
  | more {t : Token} {items after : List Item} {r : Parsed} (ht : t.unsupported? = none)
      (h : Passes items r after) : Passes (.ok t :: items) r after

section Calls

variable {p : Parser} {c : Command} {t : Token} {o : Operator} {items after ahead : List Item}
  {r : Parsed}

@[simp] theorem firstUnsupported?_nil : firstUnsupported? [] = none := rfl

@[simp] theorem firstUnsupported?_error (e : SyntaxError) (items : List Item) :
    firstUnsupported? (.error e :: items) = firstUnsupported? items := rfl

@[simp] theorem firstUnsupported?_ok (t : Token) (items : List Item) :
    firstUnsupported? (.ok t :: items) = t.unsupported?.or (firstUnsupported? items) := by
  have htokens : (Except.ok t :: items : List Item).filterMap Except.toOption =
      t :: items.filterMap Except.toOption := rfl
  rw [firstUnsupported?, htokens, List.findSome?_cons]
  cases t.unsupported? <;> rfl

theorem length_pos_of_firstUnsupported? (h : firstUnsupported? items = some o) :
    0 < items.length := by
  rw [List.length_pos_iff]
  rintro rfl
  cases h

theorem firstUnsupported?_unread (h : p.current.unsupported? = some o) :
    firstUnsupported? p.unread = some o := by
  have hend : p.current ≠ .endOfLine := by
    intro hend
    rw [hend] at h
    cases h
  rw [unread, if_neg hend, firstUnsupported?_ok, h]
  rfl

theorem Passes.length_lt (h : Passes items r after) : after.length < items.length := by
  induction h with
  | upTo ht hr => exact Nat.lt_succ_self _
  | failed t e items => exact Nat.lt_succ_self _
  | more ht h ih => exact Nat.lt_succ_of_lt ih

/-- A call that succeeds has read the line. -/
theorem Passes.eq_nil (h : Passes items r after) {c : Option Command} (hr : r = .ok c) :
    after = [] := by
  induction h with
  | upTo ht hend => exact hend c hr
  | failed t e items => cases hr
  | more ht h ih => exact ih hr

theorem Passes.subset (h : Passes items r after) : after ⊆ items := by
  induction h with
  | upTo ht hr => exact List.subset_cons_self _ _
  | failed t e items => exact List.cons_subset_cons _ (List.subset_cons_self _ _)
  | more ht h ih => exact List.subset_cons_of_subset _ ih

theorem Passes.within (h : Passes items r after) (hitems : Within items) : Within after :=
  fun t ht => hitems t (h.subset ht)

/-- **No call gets past an unsupported operator.** -/
theorem Passes.firstUnsupported? (h : Passes items r after) :
    Parser.firstUnsupported? after = Parser.firstUnsupported? items := by
  induction h with
  | upTo ht hr => simp [ht]
  | failed t e items => simp
  | more ht h ih => simp [ht, ih]

/-! ## 2. What a call does -/

theorem unread_of_ne (ht : t ≠ .endOfLine) : unread ⟨t, ahead⟩ = .ok t :: ahead := if_neg ht

theorem unsupported?_of_advance {c' : Command} (h : demand c t = .advance c') :
    t.unsupported? = none := by
  cases t with
  | operator o => cases o <;> first | rfl | cases h
  | _ => rfl

theorem unsupported?_of_redirect {toInput : Bool} (h : demand c t = .redirect toInput) :
    t.unsupported? = none := by
  rw [eq_redirection_of_redirect h]
  cases toInput <;> rfl

theorem demand_of_unsupported (h : t.unsupported? = some o) :
    demand c t = .refuse (.unsupported o) := by
  cases t with
  | operator p => cases p <;> cases h <;> rfl
  | _ => cases h

/-- At the start of a command, nothing is refused but an unsupported operator. -/
theorem unsupported?_of_refuse {e : SyntaxError} (h : demand {} t = .refuse e) :
    ∃ o, t.unsupported? = some o := by
  cases t with
  | operator p => cases p <;> first | exact ⟨_, rfl⟩ | cases h
  | _ => cases h

/-- A call that goes on to the next token leaves what it leaves from there. -/
theorem Passes.onward {t' : Token} {q : Parsed × Parser} (ht : t.unsupported? = none)
    (ht' : t' ≠ .endOfLine)
    (h : (∃ e, q = (.error e, ⟨t', ahead⟩)) ∨ Passes (.ok t' :: ahead) q.1 q.2.unread) :
    Passes (.ok t :: .ok t' :: ahead) q.1 q.2.unread := by
  rcases h with ⟨e, rfl⟩ | h
  · rw [unread_of_ne ht']
    exact .upTo ht fun c hc => by cases hc
  · exact .more ht h

/-- **A call refuses the token it stands at, or takes something off.** The cases are those of the
parser, the induction goes along the readings ahead. -/
theorem parseFrom_cases (c : Command) (t : Token) (ahead : List Item) (ht : t ≠ .endOfLine)
    (hahead : Within ahead) :
    (∃ e, demand c t = .refuse e ∧ parseFrom c t ahead = (.error e, ⟨t, ahead⟩)) ∨
      Passes (.ok t :: ahead) (parseFrom c t ahead).1 (parseFrom c t ahead).2.unread := by
  fun_induction parseFrom c t ahead with
  | case1 c t hdemand => exact absurd (eq_endOfLine_of_finish hdemand) ht
  | case5 c t item ahead hdemand => exact absurd (eq_endOfLine_of_finish hdemand) ht
  | case2 c t e hdemand => exact .inl ⟨e, hdemand, rfl⟩
  | case6 c t item ahead e hdemand => exact .inl ⟨e, hdemand, rfl⟩
  | case3 c t c' hdemand => exact .inr (.upTo (unsupported?_of_advance hdemand) fun _ _ => rfl)
  | case4 c t toInput hdemand =>
    exact .inr (.upTo (unsupported?_of_redirect hdemand) fun _ _ => rfl)
  | case7 c t ahead c' hdemand e =>
    rw [unread_of_ne ht]
    exact .inr (.failed t e ahead)
  | case9 c t ahead toInput hdemand e =>
    rw [unread_of_ne ht]
    exact .inr (.failed t e ahead)
  | case8 c t ahead c' hdemand t' ih =>
    have ht' : t' ≠ .endOfLine := hahead t' List.mem_cons_self
    have hrest := ih ht' fun u hu => hahead u (List.mem_cons_of_mem _ hu)
    exact .inr (.onward (unsupported?_of_advance hdemand) ht'
      (hrest.imp_left fun ⟨e, _, he⟩ => ⟨e, he⟩))
  | case10 c t ahead toInput hdemand path htaken =>
    exact .inr (.onward (unsupported?_of_redirect hdemand) (by simp) (.inl ⟨_, rfl⟩))
  | case11 c t toInput hdemand path hfree =>
    exact .inr (.more (unsupported?_of_redirect hdemand) (.upTo rfl fun _ _ => rfl))
  | case12 c t toInput hdemand path hfree e ahead =>
    exact .inr (.more (unsupported?_of_redirect hdemand) (.failed (.word path) e ahead))
  | case13 c t toInput hdemand path hfree t' ahead ih =>
    have ht' : t' ≠ .endOfLine := hahead t' (by simp)
    have hrest := ih ht' fun u hu => hahead u (by simp [hu])
    have hpath := Passes.onward (t := .word path) rfl ht'
      (hrest.imp_left fun ⟨e, _, he⟩ => ⟨e, he⟩)
    exact .inr (.more (unsupported?_of_redirect hdemand) hpath)
  | case14 c t ahead toInput hdemand t' hword =>
    have ht' : t' ≠ .endOfLine := hahead t' List.mem_cons_self
    exact .inr (.onward (unsupported?_of_redirect hdemand) ht' (.inl ⟨_, rfl⟩))

theorem parseFrom_endOfLine (c : Command) (ahead : List Item) :
    parseFrom c .endOfLine ahead = (finish c, ⟨.endOfLine, ahead⟩) := by
  cases ahead <;> rfl

/-- At the end of the line there is nothing more to come. -/
theorem parse_of_unread_eq_nil (h : p.unread = []) : p.parse = (.ok none, p) := by
  obtain ⟨t, ahead⟩ := p
  have ht : t = .endOfLine := by
    by_contra hne
    rw [unread_of_ne hne] at h
    cases h
  subst ht
  exact parseFrom_endOfLine {} ahead

/-- An unsupported operator is never left behind. -/
theorem parse_of_unsupported (h : p.current.unsupported? = some o) :
    p.parse = (.error (.unsupported o), p) := by
  obtain ⟨t, ahead⟩ := p
  have hdemand : demand {} t = .refuse (.unsupported o) := demand_of_unsupported h
  cases ahead with
  | nil => simp only [parse, parseFrom, hdemand]
  | cons item ahead => simp only [parse, parseFrom, hdemand]

/-- **The three ways for a call to end.** -/
theorem parse_cases (hp : Within p.unread) :
    p.unread = [] ∨ (∃ o, p.current.unsupported? = some o) ∨
      Passes p.unread p.parse.1 p.parse.2.unread := by
  obtain ⟨t, ahead⟩ := p
  by_cases ht : t = .endOfLine
  · exact .inl (if_pos ht)
  · rw [unread_of_ne ht] at hp ⊢
    have hahead : Within ahead := fun u hu => hp u (List.mem_cons_of_mem _ hu)
    rcases parseFrom_cases {} t ahead ht hahead with ⟨e, hdemand, -⟩ | h
    · exact .inr (.inl (unsupported?_of_refuse hdemand))
    · exact .inr (.inr h)

end Calls

/-! ## 3. Many calls -/

/-- After a result that is no refusal, nothing more comes. -/
def Settled (results : List Parsed) : Prop :=
  ∀ before r after, results = before ++ .ok r :: after → ∀ s ∈ after, s = .ok none

/-- Whether a result is a command. -/
def isCommand : Parsed → Bool
  | .ok (some _) => true
  | _ => false

section Runs

variable {p : Parser} {o : Operator} {r : Parsed} {results : List Parsed}

theorem settled_error {e : SyntaxError} (h : Settled results) : Settled (.error e :: results) := by
  intro before r after heq
  cases before with
  | nil => cases heq
  | cons b before => exact h before r after (List.cons.inj heq).2

theorem settled_ok (c : Option Command) (h : ∀ s ∈ results, s = .ok none) :
    Settled (.ok c :: results) := by
  intro before r after heq s hs
  refine h s ?_
  cases before with
  | nil => rwa [(List.cons.inj heq).2]
  | cons b before =>
    rw [(List.cons.inj heq).2]
    exact List.mem_append_right _ (List.mem_cons_of_mem _ hs)

theorem Settled.tail (h : Settled (r :: results)) : Settled results :=
  fun before s after heq => h (r :: before) s after (by rw [heq]; rfl)

/-- **No more than one command comes of a line.** -/
theorem Settled.countP_le (h : Settled results) : results.countP isCommand ≤ 1 := by
  induction results with
  | nil => exact Nat.zero_le _
  | cons r results ih =>
    cases r with
    | error e => exact ih h.tail
    | ok c =>
      have hnone : results.countP isCommand = 0 := by
        rw [List.countP_eq_zero]
        intro s hs
        rw [h [] c results rfl s hs]
        exact Bool.false_ne_true
      rw [List.countP_cons, hnone]
      split <;> simp

theorem parses_of_unread_eq_nil (h : p.unread = []) (calls : Nat) :
    ∀ r ∈ p.parses calls, r = .ok none := by
  induction calls with
  | zero => simp [parses]
  | succ calls ih =>
    rw [parses, parse_of_unread_eq_nil h]
    exact List.forall_mem_cons.2 ⟨rfl, ih⟩

theorem parses_of_unsupported (h : p.current.unsupported? = some o) (calls : Nat) :
    p.parses calls = List.replicate calls (.error (.unsupported o)) := by
  induction calls with
  | zero => rfl
  | succ calls ih =>
    rw [parses, parse_of_unsupported h, ih]
    rfl

/-- **In front of an unsupported operator every call fails**, and the later ones fail at it. Each
call that fails elsewhere leaves less in front of the parser, and the operator is always left. -/
theorem parses_unsupported (hp : Within p.unread) (ho : firstUnsupported? p.unread = some o)
    (calls : Nat) :
    ∃ failing k, p.parses calls = failing ++ List.replicate k (.error (.unsupported o)) ∧
      failing.length < p.unread.length ∧ ∀ r ∈ failing, ∃ e, r = .error e := by
  induction calls generalizing p with
  | zero => exact ⟨[], 0, rfl, length_pos_of_firstUnsupported? ho, by simp⟩
  | succ calls ih =>
    rcases parse_cases hp with hnil | ⟨o', ho'⟩ | hpasses
    · rw [hnil] at ho
      cases ho
    · have hpos := length_pos_of_firstUnsupported? ho
      rw [firstUnsupported?_unread ho'] at ho
      cases ho
      exact ⟨[], calls + 1, parses_of_unsupported ho' _, hpos, by simp⟩
    · have hafter := hpasses.firstUnsupported?.trans ho
      obtain ⟨failing, k, hparses, hlength, hfailing⟩ := ih (hpasses.within hp) hafter
      have hr : ∃ e, p.parse.1 = .error e := by
        cases hr : p.parse.1 with
        | error e => exact ⟨e, rfl⟩
        | ok c =>
          rw [hpasses.eq_nil hr] at hafter
          cases hafter
      refine ⟨p.parse.1 :: failing, k, ?_, ?_, List.forall_mem_cons.2 ⟨hr, hfailing⟩⟩
      · rw [parses, hparses]
        rfl
      · have hless := hpasses.length_lt
        rw [List.length_cons]
        omega

/-- **Where no operator is unsupported the calls come to an end**: no more of them fail than there
are readings in front of the parser. -/
theorem parses_supported (hp : Within p.unread) (ho : firstUnsupported? p.unread = none)
    (calls : Nat) :
    ∃ failing done, p.parses calls = failing ++ done ∧ failing.length ≤ p.unread.length ∧
      (∀ r ∈ failing, ∃ e, r = .error e) ∧ ∀ r ∈ done, ∃ c, r = .ok c := by
  induction calls generalizing p with
  | zero => exact ⟨[], [], rfl, Nat.zero_le _, by simp, by simp⟩
  | succ calls ih =>
    have finished (hnil : p.parse.2.unread = []) (c : Option Command) (hc : p.parse.1 = .ok c) :
        ∀ r ∈ p.parses (calls + 1), ∃ c, r = .ok c := by
      rw [parses]
      exact List.forall_mem_cons.2
        ⟨⟨c, hc⟩, fun r hr => ⟨none, parses_of_unread_eq_nil hnil calls r hr⟩⟩
    rcases parse_cases hp with hnil | ⟨o', ho'⟩ | hpasses
    · have hparse := parse_of_unread_eq_nil hnil
      refine ⟨[], _, rfl, Nat.zero_le _, by simp, finished ?_ none ?_⟩
      · rw [hparse, hnil]
      · rw [hparse]
    · rw [firstUnsupported?_unread ho'] at ho
      cases ho
    · cases hr : p.parse.1 with
      | ok c => exact ⟨[], _, rfl, Nat.zero_le _, by simp, finished (hpasses.eq_nil hr) c hr⟩
      | error e =>
        obtain ⟨failing, done, hparses, hlength, hfailing, hdone⟩ :=
          ih (hpasses.within hp) (hpasses.firstUnsupported?.trans ho)
        refine ⟨.error e :: failing, done, ?_, ?_, ?_, hdone⟩
        · rw [parses, hr, hparses]
          rfl
        · exact Nat.lt_of_le_of_lt hlength hpasses.length_lt
        · exact List.forall_mem_cons.2 ⟨⟨e, rfl⟩, hfailing⟩

theorem settled_parses (hp : Within p.unread) (calls : Nat) : Settled (p.parses calls) := by
  induction calls generalizing p with
  | zero =>
    intro before r after h
    cases before <;> cases h
  | succ calls ih =>
    rw [parses]
    rcases parse_cases hp with hnil | ⟨o, ho⟩ | hpasses
    · rw [parse_of_unread_eq_nil hnil]
      exact settled_ok none (parses_of_unread_eq_nil hnil calls)
    · rw [parse_of_unsupported ho]
      exact settled_error (ih hp)
    · cases hr : p.parse.1 with
      | ok c => exact settled_ok c (parses_of_unread_eq_nil (hpasses.eq_nil hr) calls)
      | error e => exact settled_error (ih (hpasses.within hp))

end Runs

/-! ## 4. Lines -/

theorem within_stream (m : Mode) (line : String) : Within (Lexer.stream m line.toList) :=
  fun _ ht => (Lexer.delivers_of_mem_tokens (Lexer.ok_mem_stream_iff.1 ht)).1

/-- A parser on a line has the readings of the line in front of it. -/
theorem unread_of_ofLine {m : Mode} {line : String} {p : Parser} (h : ofLine m line = .ok p) :
    p.unread = Lexer.stream m line.toList := by
  have hwithin := within_stream m line
  unfold ofLine start? at h
  split at h
  · rename_i hstream
    cases h
    exact hstream.symm
  · rename_i t ahead hstream
    cases h
    rw [hstream] at hwithin ⊢
    exact unread_of_ne (hwithin t List.mem_cons_self)
  · cases h

/-- **Asking a parser again settles.** Over any number of calls on one parser a command comes at
most once, and after a result that is no refusal nothing more comes. If a token of the line is an
unsupported operator, every call fails, and all but the first of them, no more than there are
tokens, fail at the first such operator. Otherwise no more calls fail than there are tokens, and one
for an open quote, before all of them succeed. -/
theorem parses_settle (m : Mode) (line : String) (p : Parser) (h : ofLine m line = .ok p)
    (calls : Nat) :
    (p.parses calls).countP isCommand ≤ 1 ∧ Settled (p.parses calls) ∧
      (∀ o, (tokens m line).findSome? Token.unsupported? = some o →
        ∃ failing k, p.parses calls = failing ++ List.replicate k (.error (.unsupported o)) ∧
          failing.length ≤ (tokens m line).length ∧ ∀ r ∈ failing, ∃ e, r = .error e) ∧
      ((tokens m line).findSome? Token.unsupported? = none →
        ∃ failing done, p.parses calls = failing ++ done ∧
          failing.length ≤ (tokens m line).length + 1 ∧
          (∀ r ∈ failing, ∃ e, r = .error e) ∧ ∀ r ∈ done, ∃ c, r = .ok c) := by
  have hunread := unread_of_ofLine h
  have hwithin : Within p.unread := by
    rw [hunread]
    exact within_stream m line
  have hfirst : firstUnsupported? p.unread = (tokens m line).findSome? Token.unsupported? := by
    rw [hunread]
    rfl
  have hlength : p.unread.length ≤ (tokens m line).length + 1 := by
    rw [hunread]
    rcases Lexer.stream_eq_tokens m line with hstream | hstream <;> rw [hstream] <;> simp
  have hsettled := settled_parses hwithin calls
  refine ⟨hsettled.countP_le, hsettled, fun o ho => ?_, fun hnone => ?_⟩
  · obtain ⟨failing, k, hparses, hless, hfailing⟩ :=
      parses_unsupported hwithin (hfirst.trans ho) calls
    exact ⟨failing, k, hparses, by omega, hfailing⟩
  · obtain ⟨failing, done, hparses, hle, hfailing, hdone⟩ :=
      parses_supported hwithin (hfirst.trans hnone) calls
    exact ⟨failing, done, hparses, by omega, hfailing, hdone⟩

/-- A blank, a `&` and a word are left behind before the pipe stops every call; a redirection in
front of an open quote is refused twice, once for the quote and once for its file. -/
theorem parses_settle_pipe :
    (∃ p failing k, ofLine Lexer.highlight "a & b | c" = .ok p ∧
        p.parses 5 = failing ++ List.replicate k (.error (.unsupported .pipe)) ∧
        failing.length ≤ 9 ∧ ∀ r ∈ failing, ∃ e, r = .error e) ∧
      ∃ p failing done, ofLine Lexer.plain "< 'a" = .ok p ∧ p.parses 3 = failing ++ done ∧
        failing.length ≤ 2 ∧ (∀ r ∈ failing, ∃ e, r = .error e) ∧ ∀ r ∈ done, ∃ c, r = .ok c := by
  constructor
  · have hstart : ofLine Lexer.highlight "a & b | c" =
        .ok ⟨.word "a", [.ok (.blank " "), .ok (.operator .background), .ok (.blank " "),
          .ok (.word "b"), .ok (.blank " "), .ok (.operator .pipe), .ok (.blank " "),
          .ok (.word "c")]⟩ := by cbv
    obtain ⟨failing, k, h⟩ := (parses_settle _ _ _ hstart 5).2.2.1 .pipe (by cbv)
    have hlength : (tokens Lexer.highlight "a & b | c").length = 9 := by cbv
    rw [hlength] at h
    exact ⟨_, failing, k, hstart, h⟩
  · have hstart : ofLine Lexer.plain "< 'a" =
        .ok ⟨.operator .input, [.error .unclosedQuote]⟩ := by cbv
    obtain ⟨failing, done, h⟩ := (parses_settle _ _ _ hstart 3).2.2.2 (by cbv)
    have hlength : (tokens Lexer.plain "< 'a").length = 1 := by cbv
    rw [hlength] at h
    exact ⟨_, failing, done, hstart, h⟩

end Parser

end JobShell
