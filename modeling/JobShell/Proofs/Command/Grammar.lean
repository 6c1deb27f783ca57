import Mathlib.Data.List.Permutation
import JobShell.Command.Parser
import JobShell.Proofs.Token.Readings

/-!
# The grammar of commands

What a line must be like to be a command, and which command it is, without reference to how it is
read.

* `Grammatical ts` says it of the tokens of a line; `command ts` is the command.
* `Parser.goOn c items` is what comes of reading on with the command `c` read so far; the equations
  beside it are the steps of the parser.
* `Continues c ts` is what is asked of the tokens after `c`, and `goOn_outcome` says that the parser
  asks for just that, by induction along the tokens (`redirection_induction`).
* `ofLine_grammatical` is the outcome for lines.
-/

namespace JobShell

open Lexer (Item Delivers)

/-! ## 1. The grammar -/

/-- The operator that redirects the input, or else the output. -/
def Operator.redirection (toInput : Bool) : Operator := if toInput then input else output

/-- A token after which the name of a file is expected. -/
def Token.redirects : Token → Bool
  | operator .input | operator .output => true
  | _ => false

namespace Grammar

/-- Something is so of each token, in the light of the tokens after it. -/
def Throughout (R : Token → List Token → Prop) : List Token → Prop
  | [] => True
  | t :: ts => R t ts ∧ Throughout R ts

/-- The words that are not the file of a redirection, in order. `redirected` says whether the token
in front of the first one redirects. -/
def freeWords : (redirected : Bool) → List Token → List String
  | _, [] => []
  | true, .word _ :: ts => freeWords false ts
  | false, .word w :: ts => w :: freeWords false ts
  | _, t :: ts => freeWords t.redirects ts

/-- The file of the first redirection by an operator. -/
def file? (o : Operator) : List Token → Option String
  | .operator p :: .word w :: ts => if p = o then some w else file? o ts
  | _ :: ts => file? o ts
  | [] => none

/-- A redirection is followed by the name of its file. -/
def HasFile (t : Token) (after : List Token) : Prop :=
  t.redirects = true → ∃ path rest, after = .word path :: rest

/-- After `&`, no word is anything but the file of a redirection. -/
def EndsCommand (t : Token) (after : List Token) : Prop :=
  t = .operator .background → freeWords false after = []

/-- **What the tokens of a line must be like.** -/
structure Grammatical (ts : List Token) : Prop where
  operators : ∀ o, .operator o ∈ ts → o = .input ∨ o = .output ∨ o = .background
  files : Throughout HasFile ts
  inputOnce : ts.count (.operator .input) ≤ 1
  outputOnce : ts.count (.operator .output) ≤ 1
  backgroundOnce : ts.count (.operator .background) ≤ 1
  backgroundLast : Throughout EndsCommand ts
  /-- Where there is anything, there is a program. -/
  program : ts = [] ∨ freeWords false ts ≠ []

/-- The command that the tokens say. -/
def command (ts : List Token) : Command where
  args := freeWords false ts
  infile := file? .input ts
  outfile := file? .output ts
  background := decide (.operator .background ∈ ts)

/-! ## 2. After a command that was read so far -/

/-- **What the tokens must be like after the command `c`.** -/
structure Continues (c : Command) (ts : List Token) : Prop where
  operators : ∀ o, .operator o ∈ ts → o = .input ∨ o = .output ∨ o = .background
  files : Throughout HasFile ts
  fileOnce : ∀ toInput : Bool,
    (Parser.target? c toInput).isSome.toNat + ts.count (.operator (.redirection toInput)) ≤ 1
  backgroundOnce : c.background.toNat + ts.count (.operator .background) ≤ 1
  backgroundLast : Throughout EndsCommand ts
  noWord : c.background = true → freeWords false ts = []

/-- The command `c` with what the tokens add to it. -/
def extend (c : Command) (ts : List Token) : Command where
  args := c.args ++ freeWords false ts
  infile := c.infile.or (file? .input ts)
  outfile := c.outfile.or (file? .output ts)
  background := c.background || decide (.operator .background ∈ ts)

section Steps

variable {c : Command} {w path : String} {toInput : Bool} {ts : List Token}

@[simp] theorem freeWords_nil (redirected : Bool) : freeWords redirected [] = [] := by
  cases redirected <;> rfl

@[simp] theorem freeWords_word (w : String) (ts : List Token) :
    freeWords false (.word w :: ts) = w :: freeWords false ts := rfl

@[simp] theorem freeWords_background (ts : List Token) :
    freeWords false (.operator .background :: ts) = freeWords false ts := rfl

@[simp] theorem freeWords_file (toInput : Bool) (path : String) (ts : List Token) :
    freeWords false (.operator (.redirection toInput) :: .word path :: ts) =
      freeWords false ts := by
  cases toInput <;> rfl

@[simp] theorem file?_word (o : Operator) (w : String) (ts : List Token) :
    file? o (.word w :: ts) = file? o ts := rfl

@[simp] theorem file?_file (o p : Operator) (path : String) (ts : List Token) :
    file? o (.operator p :: .word path :: ts) = if p = o then some path else file? o ts := rfl

/-- The file that is asked for is not the one of another operator. -/
theorem file?_of_ne {o p : Operator} (h : p ≠ o) (ts : List Token) :
    file? o (.operator p :: ts) = file? o ts := by
  cases ts with
  | nil => rfl
  | cons t ts =>
    cases t with
    | word w => rw [file?_file, if_neg h, file?_word]
    | _ => rfl

@[simp] theorem target?_withArgs (c : Command) (args : List String) (toInput : Bool) :
    Parser.target? { c with args } toInput = Parser.target? c toInput := by
  cases toInput <;> rfl

@[simp] theorem target?_withBackground (c : Command) (background toInput : Bool) :
    Parser.target? { c with background } toInput = Parser.target? c toInput := by
  cases toInput <;> rfl

theorem target?_withTarget (c : Command) (toInput other : Bool) (path : String) :
    Parser.target? (Parser.withTarget c toInput path) other =
      if other = toInput then some path else Parser.target? c other := by
  cases toInput <;> cases other <;> rfl

theorem withTarget_background (c : Command) (toInput : Bool) (path : String) :
    (Parser.withTarget c toInput path).background = c.background := by
  cases toInput <;> rfl

@[simp] theorem redirection_inj {a b : Bool} :
    Operator.redirection a = Operator.redirection b ↔ a = b := by
  cases a <;> cases b <;> decide

@[simp] theorem redirection_ne_background (a : Bool) : Operator.redirection a ≠ .background := by
  cases a <;> decide

@[simp] theorem background_ne_redirection (a : Bool) : .background ≠ Operator.redirection a :=
  (redirection_ne_background a).symm

theorem redirects_redirection (toInput : Bool) :
    Token.redirects (.operator (.redirection toInput)) = true := by
  cases toInput <;> rfl

theorem exists_redirection {t : Token} (h : t.redirects = true) :
    ∃ toInput, t = .operator (.redirection toInput) := by
  cases t with
  | operator o =>
    cases o with
    | input => exact ⟨true, rfl⟩
    | output => exact ⟨false, rfl⟩
    | _ => cases h
  | _ => cases h

/-- **Induction along the tokens of a line**, where a redirection takes the word behind it with
it. -/
@[elab_as_elim]
theorem redirection_induction {P : List Token → Prop} (nil : P [])
    (file : ∀ toInput path ts, P ts → P (.operator (.redirection toInput) :: .word path :: ts))
    (noFile : ∀ toInput ts, (∀ path rest, ts ≠ .word path :: rest) →
      P (.operator (.redirection toInput) :: ts))
    (other : ∀ t ts, t.redirects = false → P ts → P (t :: ts)) (ts : List Token) : P ts := by
  induction hn : ts.length using Nat.strongRecOn generalizing ts with
  | _ n ih =>
    subst hn
    cases ts with
    | nil => exact nil
    | cons t ts =>
      cases ht : t.redirects with
      | false => exact other t ts ht (ih ts.length (Nat.lt_succ_self _) ts rfl)
      | true =>
        obtain ⟨toInput, rfl⟩ := exists_redirection ht
        by_cases hfile : ∃ path rest, ts = .word path :: rest
        · obtain ⟨path, rest, rfl⟩ := hfile
          refine file toInput path rest (ih rest.length ?_ rest rfl)
          exact Nat.lt_succ_of_lt (Nat.lt_succ_self _)
        · exact noFile toInput ts fun path rest h => hfile ⟨path, rest, h⟩

/-- A word is no operator. -/
@[simp] theorem count_word (o : Operator) (w : String) (ts : List Token) :
    (Token.word w :: ts).count (.operator o) = ts.count (.operator o) :=
  List.count_cons_of_ne (by simp)

@[simp] theorem count_operator (o p : Operator) (ts : List Token) :
    (Token.operator p :: ts).count (.operator o) =
      ts.count (.operator o) + if p = o then 1 else 0 := by
  rw [List.count_cons]
  congr 1
  simp

theorem continues_nil (c : Command) : Continues c [] where
  operators o ho := by cases ho
  files := trivial
  fileOnce toInput := by simpa using Bool.toNat_le _
  backgroundOnce := by simpa using Bool.toNat_le _
  backgroundLast := trivial
  noWord _ := freeWords_nil false

/-- A word is an argument, if there was no `&`. -/
theorem continues_word :
    Continues c (.word w :: ts) ↔
      c.background = false ∧ Continues { c with args := c.args ++ [w] } ts := by
  constructor
  · intro h
    have hback : c.background = false := by
      cases hb : c.background with
      | false => rfl
      | true => cases h.noWord hb
    refine ⟨hback, ?_⟩
    exact
      { operators := fun o ho => h.operators o (List.mem_cons_of_mem _ ho)
        files := h.files.2
        fileOnce := fun toInput => by simpa using h.fileOnce toInput
        backgroundOnce := by simpa using h.backgroundOnce
        backgroundLast := h.backgroundLast.2
        noWord := fun hb => by simp [hback] at hb }
  · rintro ⟨hback, h⟩
    exact
      { operators := fun o ho => h.operators o (by simpa using ho)
        files := ⟨fun hr => (by cases hr), h.files⟩
        fileOnce := fun toInput => by simpa using h.fileOnce toInput
        backgroundOnce := by simpa using h.backgroundOnce
        backgroundLast := ⟨fun he => (by cases he), h.backgroundLast⟩
        noWord := fun hb => by simp [hback] at hb }

/-- `&` may stand where there was none. -/
theorem continues_background :
    Continues c (.operator .background :: ts) ↔
      c.background = false ∧ Continues { c with background := true } ts := by
  constructor
  · intro h
    have honce := h.backgroundOnce
    rw [count_operator, if_pos rfl] at honce
    have hback : c.background = false := by
      cases hb : c.background with
      | false => rfl
      | true => rw [hb, Bool.toNat_true] at honce; omega
    refine ⟨hback, ?_⟩
    exact
      { operators := fun o ho => h.operators o (List.mem_cons_of_mem _ ho)
        files := h.files.2
        fileOnce := fun toInput => by simpa using h.fileOnce toInput
        backgroundOnce := by simp only [Bool.toNat_true]; omega
        backgroundLast := h.backgroundLast.2
        noWord := fun _ => h.backgroundLast.1 rfl }
  · rintro ⟨hback, h⟩
    have honce := h.backgroundOnce
    simp only [Bool.toNat_true] at honce
    exact
      { operators := fun o ho => by
          rcases List.mem_cons.1 ho with hhead | hrest
          · exact Or.inr (Or.inr (Token.operator.inj hhead))
          · exact h.operators o hrest
        files := ⟨fun hr => (by cases hr), h.files⟩
        fileOnce := fun toInput => by simpa using h.fileOnce toInput
        backgroundOnce := by
          rw [count_operator, if_pos rfl, hback, Bool.toNat_false]
          omega
        backgroundLast := ⟨fun _ => h.noWord rfl, h.backgroundLast⟩
        noWord := fun hb => by simp [hback] at hb }

/-- Where a redirection takes its file, there was none of its kind, and what was there of the other
kind makes no difference. -/
theorem fileOnce_file (c : Command) (toInput other : Bool) (path : String) (ts : List Token) :
    (Parser.target? c other).isSome.toNat +
        (Token.operator (.redirection toInput) :: .word path :: ts).count
          (.operator (.redirection other)) ≤ 1 ↔
      (other = toInput → Parser.target? c toInput = none) ∧
        (Parser.target? (Parser.withTarget c toInput path) other).isSome.toNat +
          ts.count (.operator (.redirection other)) ≤ 1 := by
  rw [count_operator, count_word, target?_withTarget]
  by_cases he : other = toInput
  · subst he
    cases Parser.target? c other with
    | none =>
      simp only [if_true, Option.isSome_none, Option.isSome_some, Bool.toNat_false, Bool.toNat_true,
        implies_true, true_and]
      omega
    | some p => simp
  · simp [he, Ne.symm he]

/-- A redirection takes its file, if there was none of its kind. -/
theorem continues_file :
    Continues c (.operator (.redirection toInput) :: .word path :: ts) ↔
      Parser.target? c toInput = none ∧ Continues (Parser.withTarget c toInput path) ts := by
  constructor
  · intro h
    refine ⟨((fileOnce_file c toInput toInput path ts).1 (h.fileOnce toInput)).1 rfl, ?_⟩
    exact
      { operators := fun o ho =>
          h.operators o (List.mem_cons_of_mem _ (List.mem_cons_of_mem _ ho))
        files := h.files.2.2
        fileOnce := fun other => ((fileOnce_file c toInput other path ts).1 (h.fileOnce other)).2
        backgroundOnce := by simpa [withTarget_background] using h.backgroundOnce
        backgroundLast := h.backgroundLast.2.2
        noWord := fun hb => by
          rw [withTarget_background] at hb
          exact (freeWords_file toInput path ts).symm.trans (h.noWord hb) }
  · rintro ⟨hfree, h⟩
    exact
      { operators := fun o ho => by
          rcases List.mem_cons.1 ho with hhead | hrest
          · rw [Token.operator.inj hhead]
            cases toInput
            · exact Or.inr (Or.inl rfl)
            · exact Or.inl rfl
          · exact h.operators o (by simpa using hrest)
        files := ⟨fun _ => ⟨path, ts, rfl⟩, fun hr => (by cases hr), h.files⟩
        fileOnce := fun other =>
          (fileOnce_file c toInput other path ts).2 ⟨fun _ => hfree, h.fileOnce other⟩
        backgroundOnce := by simpa [withTarget_background] using h.backgroundOnce
        backgroundLast :=
          ⟨fun he => absurd (Token.operator.inj he) (redirection_ne_background toInput),
            fun he => (by cases he), h.backgroundLast⟩
        noWord := fun hb => by
          rw [freeWords_file]
          exact h.noWord ((withTarget_background c toInput path).trans hb) }

/-- The rest of a redirection is its file, and no other operator goes on. -/
theorem Continues.head {o : Operator} (h : Continues c (.operator o :: ts)) :
    o = .background ∨ ∃ toInput path rest, o = .redirection toInput ∧ ts = .word path :: rest := by
  rcases h.operators o List.mem_cons_self with rfl | rfl | rfl
  · obtain ⟨path, rest, rfl⟩ := h.files.1 rfl
    exact Or.inr ⟨true, path, rest, rfl, rfl⟩
  · obtain ⟨path, rest, rfl⟩ := h.files.1 rfl
    exact Or.inr ⟨false, path, rest, rfl, rfl⟩
  · exact Or.inl rfl

theorem extend_nil (c : Command) : extend c [] = c := by
  simp [extend, file?]

theorem extend_word : extend c (.word w :: ts) = extend { c with args := c.args ++ [w] } ts := by
  simp [extend]

theorem extend_background (h : c.background = false) :
    extend c (.operator .background :: ts) = extend { c with background := true } ts := by
  simp [extend, h, file?_of_ne]

theorem extend_file (h : Parser.target? c toInput = none) :
    extend c (.operator (.redirection toInput) :: .word path :: ts) =
      extend (Parser.withTarget c toInput path) ts := by
  cases toInput with
  | false =>
    have hfree : c.outfile = none := h
    simp [extend, Parser.withTarget, Operator.redirection, hfree, freeWords, Token.redirects]
  | true =>
    have hfree : c.infile = none := h
    simp [extend, Parser.withTarget, Operator.redirection, hfree, freeWords, Token.redirects]

end Steps

end Grammar

/-! ## 3. The parser -/

namespace Parser

/-- What comes of reading on, having read `c`. -/
def goOn (c : Command) : List Item → Parsed
  | [] => finish c
  | .ok t :: ahead => (parseFrom c t ahead).1
  | .error e :: _ => .error e

section Steps

variable {c : Command} {w path : String} {toInput : Bool} {items : List Item}

theorem goOn_start (items : List Item) :
    (match start? items with
      | .ok p => p.parse.1
      | .error e => .error e) = goOn {} items := by
  cases items with
  | nil => rfl
  | cons item items =>
    cases item with
    | ok t => rfl
    | error e => rfl

/-- A token that asks for no more than to go on. -/
theorem goOn_of_advance {t : Token} {c' : Command} (h : demand c t = .advance c')
    (items : List Item) : goOn c (.ok t :: items) = goOn c' items := by
  cases items with
  | nil => simp only [goOn, parseFrom, h]
  | cons item items =>
    cases item with
    | ok t' => simp only [goOn, parseFrom, h]
    | error e => simp only [goOn, parseFrom, h]

theorem goOn_of_refuse {t : Token} {e : SyntaxError} (h : demand c t = .refuse e)
    (items : List Item) : goOn c (.ok t :: items) = .error e := by
  cases items with
  | nil => simp only [goOn, parseFrom, h]
  | cons item items => simp only [goOn, parseFrom, h]

theorem demand_redirection (c : Command) (toInput : Bool) :
    demand c (.operator (.redirection toInput)) = .redirect toInput := by
  cases toInput <;> rfl

theorem eq_endOfLine_of_finish {t : Token} (h : demand c t = .finish) : t = .endOfLine := by
  unfold demand at h
  split at h <;> first | rfl | (split at h <;> cases h) | cases h

theorem eq_redirection_of_redirect {t : Token} (h : demand c t = .redirect toInput) :
    t = .operator (.redirection toInput) := by
  unfold demand at h
  split at h <;> first | (split at h <;> cases h) | (cases h; rfl) | cases h

/-- A redirection with its file. -/
theorem goOn_file (hfree : target? c toInput = none) (path : String) (items : List Item) :
    goOn c (.ok (.operator (.redirection toInput)) :: .ok (.word path) :: items) =
      goOn (withTarget c toInput path) items := by
  cases items with
  | nil => simp [goOn, parseFrom, demand_redirection, hfree]
  | cons item items =>
    cases item with
    | ok t' => simp [goOn, parseFrom, demand_redirection, hfree]
    | error e => simp [goOn, parseFrom, demand_redirection, hfree]

theorem goOn_second_file (htaken : target? c toInput ≠ none) (path : String) (items : List Item) :
    goOn c (.ok (.operator (.redirection toInput)) :: .ok (.word path) :: items) =
      .error .ambiguousRedirection := by
  have hsome : (target? c toInput).isSome = true := Option.isSome_iff_ne_none.2 htaken
  simp only [goOn, parseFrom, demand_redirection, hsome, if_true]

/-- A reading that fails where the file should be. -/
theorem goOn_failed_file (e : SyntaxError) (items : List Item) :
    goOn c (.ok (.operator (.redirection toInput)) :: .error e :: items) = .error e := by
  simp only [goOn, parseFrom, demand_redirection]

/-- Nothing but a word names a file. -/
theorem goOn_missing_file (h : ∀ e rest, items ≠ .error e :: rest)
    (hword : ∀ path rest, items ≠ .ok (.word path) :: rest) :
    goOn c (.ok (.operator (.redirection toInput)) :: items) = .error .missingTarget := by
  cases items with
  | nil => simp only [goOn, parseFrom, demand_redirection]
  | cons item items =>
    cases item with
    | error e => exact absurd rfl (h e items)
    | ok t =>
      cases t with
      | word path => exact absurd rfl (hword path items)
      | _ => simp only [goOn, parseFrom, demand_redirection]

/-- A redirection without a file. -/
theorem goOn_no_file (h : ∀ path rest, items ≠ .ok (.word path) :: rest) :
    ∃ e, goOn c (.ok (.operator (.redirection toInput)) :: items) = .error e := by
  by_cases hfails : ∃ e rest, items = .error e :: rest
  · obtain ⟨e, rest, rfl⟩ := hfails
    exact ⟨e, goOn_failed_file e rest⟩
  · exact ⟨.missingTarget, goOn_missing_file (fun e rest he => hfails ⟨e, rest, he⟩) h⟩

end Steps

open Grammar

/-- How reading on from `c` over the tokens `ts` may turn out: they go on with the command, and what
comes after them goes on with it as they have extended it; or they do not, and the line is
refused. -/
def Outcome (c : Command) (ts : List Token) (tail : List Item) : Prop :=
  (Continues c ts ∧ goOn c (ts.map .ok ++ tail) = goOn (extend c ts) tail) ∨
    (¬ Continues c ts ∧ ∃ e, goOn c (ts.map .ok ++ tail) = .error e)

section Outcomes

variable {c c' : Command} {t : Token} {ts : List Token} {tail : List Item} {toInput : Bool}

/-- A token that goes on with the command leaves it to the others. -/
theorem Outcome.advance (h : Outcome c' ts tail) (hdemand : demand c t = .advance c')
    (hiff : Continues c (t :: ts) ↔ Continues c' ts)
    (hextend : extend c (t :: ts) = extend c' ts) : Outcome c (t :: ts) tail := by
  have hgo : goOn c ((t :: ts).map .ok ++ tail) = goOn c' (ts.map .ok ++ tail) :=
    goOn_of_advance hdemand _
  unfold Outcome
  rw [hiff, hextend, hgo]
  exact h

theorem outcome_of_refuse {e : SyntaxError} (hdemand : demand c t = .refuse e)
    (hno : ¬ Continues c (t :: ts)) : Outcome c (t :: ts) tail :=
  Or.inr ⟨hno, e, goOn_of_refuse hdemand _⟩

theorem outcome_word (w : String)
    (h : Outcome { c with args := c.args ++ [w] } ts tail) : Outcome c (.word w :: ts) tail := by
  cases hback : c.background with
  | false =>
    refine h.advance ?_ ?_ extend_word
    · simp [demand, hback]
    · rw [continues_word, and_iff_right hback]
  | true =>
    refine outcome_of_refuse (e := .wordAfterBackground) ?_ fun hc => ?_
    · simp [demand, hback]
    · rw [(continues_word.1 hc).1] at hback
      cases hback

theorem outcome_background (h : Outcome { c with background := true } ts tail) :
    Outcome c (.operator .background :: ts) tail := by
  cases hback : c.background with
  | false =>
    refine h.advance ?_ ?_ (extend_background hback)
    · simp [demand, hback]
    · rw [continues_background, and_iff_right hback]
  | true =>
    refine outcome_of_refuse (e := .wordAfterBackground) ?_ fun hc => ?_
    · simp [demand, hback]
    · rw [(continues_background.1 hc).1] at hback
      cases hback

theorem outcome_file (path : String) (h : Outcome (withTarget c toInput path) ts tail) :
    Outcome c (.operator (.redirection toInput) :: .word path :: ts) tail := by
  by_cases hfree : target? c toInput = none
  · have hgo : goOn c ((.operator (.redirection toInput) :: .word path :: ts).map .ok ++ tail) =
        goOn (withTarget c toInput path) (ts.map .ok ++ tail) := goOn_file hfree path _
    unfold Outcome
    rw [continues_file, and_iff_right hfree, extend_file hfree, hgo]
    exact h
  · exact Or.inr ⟨fun hc => hfree (continues_file.1 hc).1, _, goOn_second_file hfree path _⟩

theorem outcome_no_file (hts : ∀ path rest, ts ≠ .word path :: rest)
    (htail : ∀ path rest, tail ≠ .ok (.word path) :: rest) :
    Outcome c (.operator (.redirection toInput) :: ts) tail := by
  refine Or.inr ⟨fun hc => ?_, goOn_no_file fun path rest => ?_⟩
  · obtain ⟨path, rest, h⟩ := hc.files.1 (redirects_redirection toInput)
    exact hts path rest h
  · cases ts with
    | nil => exact htail path rest
    | cons t ts =>
      intro h
      have ht : t = .word path := Except.ok.inj (List.cons.inj h).1
      exact hts path ts (congrArg (· :: ts) ht)

end Outcomes

/-- **The parser asks for what the grammar asks for.** The induction goes along the tokens. -/
theorem goOn_outcome (c : Command) (ts : List Token) (hts : ∀ t ∈ ts, Delivers Lexer.plain t)
    (tail : List Item) (htail : ∀ path rest, tail ≠ .ok (.word path) :: rest) :
    Outcome c ts tail := by
  induction ts using redirection_induction generalizing c with
  | nil => exact Or.inl ⟨continues_nil c, by rw [extend_nil]; rfl⟩
  | file toInput path ts ih =>
    have hrest : ∀ t ∈ ts, Delivers Lexer.plain t := fun t ht =>
      hts t (List.mem_cons_of_mem _ (List.mem_cons_of_mem _ ht))
    exact outcome_file path (ih _ hrest)
  | noFile toInput ts hfile => exact outcome_no_file hfile htail
  | other t ts hfree ih =>
    obtain ⟨ht, hrest⟩ := List.forall_mem_cons.1 hts
    cases t with
    | word w => exact outcome_word w (ih _ hrest)
    | blank s => cases ht.2 rfl
    | endOfLine => exact absurd rfl ht.1
    | operator o =>
      cases o with
      | background => exact outcome_background (ih _ hrest)
      | input => cases hfree
      | output => cases hfree
      | _ =>
        refine outcome_of_refuse rfl fun hc => ?_
        simpa using hc.operators _ List.mem_cons_self

end Parser

/-! ## 4. Lines -/

namespace Grammar

open JobShell.Parser

/-- After the empty command, the grammar asks for what it asks of a line, but for a program. -/
theorem grammatical_iff {ts : List Token} :
    Grammatical ts ↔ Continues {} ts ∧ (ts = [] ∨ freeWords false ts ≠ []) := by
  constructor
  · intro h
    refine ⟨?_, h.program⟩
    exact
      { operators := h.operators
        files := h.files
        fileOnce := fun toInput => by
          cases toInput with
          | true => simpa [target?, Operator.redirection] using h.inputOnce
          | false => simpa [target?, Operator.redirection] using h.outputOnce
        backgroundOnce := by simpa using h.backgroundOnce
        backgroundLast := h.backgroundLast
        noWord := fun hb => by cases hb }
  · rintro ⟨h, hprogram⟩
    exact
      { operators := h.operators
        files := h.files
        inputOnce := by simpa [target?, Operator.redirection] using h.fileOnce true
        outputOnce := by simpa [target?, Operator.redirection] using h.fileOnce false
        backgroundOnce := by simpa using h.backgroundOnce
        backgroundLast := h.backgroundLast
        program := hprogram }

theorem extend_empty (ts : List Token) : extend {} ts = command ts := by
  simp [extend, command]

/-- Tokens without a program make no command, if there are any. -/
theorem finish_command_of_no_program {ts : List Token} (h : Continues {} ts)
    (hts : ∀ t ∈ ts, Delivers Lexer.plain t) (hne : ts ≠ []) (hnone : freeWords false ts = []) :
    finish (command ts) = .error .missingCommand := by
  have hsome : ((command ts).infile.isSome || (command ts).outfile.isSome ||
      (command ts).background) = true := by
    cases ts with
    | nil => exact absurd rfl hne
    | cons t ts =>
      have ht := hts t List.mem_cons_self
      cases t with
      | word w => cases hnone
      | blank s => cases ht.2 rfl
      | endOfLine => exact absurd rfl ht.1
      | operator o =>
        rcases h.head with rfl | ⟨toInput, path, rest, rfl, rfl⟩
        · simp [command]
        · cases toInput <;> simp [command, Operator.redirection]
  have hargs : (command ts).args.isEmpty = true := List.isEmpty_iff.2 hnone
  rw [finish, if_pos hargs, if_pos hsome]

/-- **Grammatical tokens are read as their command**, and no tokens as none. -/
theorem goOn_of_grammatical {ts : List Token} (h : Grammatical ts)
    (hts : ∀ t ∈ ts, Delivers Lexer.plain t) :
    goOn {} (ts.map .ok) = .ok (if ts = [] then none else some (command ts)) := by
  obtain ⟨hcontinues, hprogram⟩ := grammatical_iff.1 h
  rcases goOn_outcome {} ts hts [] (by simp) with ⟨-, hgo⟩ | ⟨hno, -⟩
  · rw [List.append_nil, extend_empty] at hgo
    rw [hgo, goOn, finish]
    rcases hprogram with rfl | hprogram
    · rfl
    · have hne : ts ≠ [] := fun h => hprogram (by rw [h, freeWords_nil])
      have hargs : (command ts).args.isEmpty = false := List.isEmpty_eq_false_iff.2 hprogram
      rw [hargs, if_neg Bool.false_ne_true, if_neg hne]
  · exact absurd hcontinues hno

/-- **Other tokens are refused.** -/
theorem goOn_of_not_grammatical {ts : List Token} (h : ¬ Grammatical ts)
    (hts : ∀ t ∈ ts, Delivers Lexer.plain t) : ∃ e, goOn {} (ts.map .ok) = .error e := by
  rcases goOn_outcome {} ts hts [] (by simp) with ⟨hcontinues, hgo⟩ | ⟨-, e, hgo⟩
  · rw [List.append_nil, extend_empty] at hgo
    have hprogram : ¬ (ts = [] ∨ freeWords false ts ≠ []) :=
      fun hprogram => h (grammatical_iff.2 ⟨hcontinues, hprogram⟩)
    have hne : ts ≠ [] := fun h => hprogram (Or.inl h)
    have hnone : freeWords false ts = [] := Classical.not_not.1 fun h => hprogram (Or.inr h)
    exact ⟨.missingCommand, hgo.trans (finish_command_of_no_program hcontinues hts hne hnone)⟩
  · rw [List.append_nil] at hgo
    exact ⟨e, hgo⟩

/-- An open quote is refused, whatever stands in front of it. -/
theorem goOn_open_quote {ts : List Token} (hts : ∀ t ∈ ts, Delivers Lexer.plain t)
    (e : SyntaxError) : ∃ e', goOn {} (ts.map .ok ++ [.error e]) = .error e' := by
  rcases goOn_outcome {} ts hts [.error e] (by simp) with ⟨-, hgo⟩ | ⟨-, hgo⟩
  · exact ⟨e, hgo⟩
  · exact hgo

theorem ofLine_eq_goOn (line : String) :
    Command.ofLine line = goOn {} (Lexer.stream Lexer.plain line.toList) :=
  goOn_start _

/-- Every refusal is explained as an error of syntax. -/
theorem message_prefix (e : SyntaxError) : "Syntax error: ".toList <+: e.message.toList := by
  unfold SyntaxError.message
  rw [String.toList_append]
  exact List.prefix_append _ _

/-- **The lines that are accepted are those whose tokens are grammatical**, with no quote left open;
the outcome is the command of the tokens, or none if there are no tokens. Every other line is
refused as an error of syntax. -/
theorem ofLine_grammatical (line : String) :
    ((∃ r, Command.ofLine line = .ok r) ↔
        ∃ ts, Lexer.stream Lexer.plain line.toList = ts.map .ok ∧ Grammatical ts) ∧
      (∀ ts, Lexer.stream Lexer.plain line.toList = ts.map .ok → Grammatical ts →
        Command.ofLine line = .ok (if ts = [] then none else some (command ts))) ∧
      ((¬ ∃ ts, Lexer.stream Lexer.plain line.toList = ts.map .ok ∧ Grammatical ts) →
        ∃ e, Command.ofLine line = .error e ∧ "Syntax error: ".toList <+: e.message.toList) := by
  have accepted : ∀ ts, Lexer.stream Lexer.plain line.toList = ts.map .ok → Grammatical ts →
      Command.ofLine line = .ok (if ts = [] then none else some (command ts)) := by
    intro ts hstream h
    rw [ofLine_eq_goOn, hstream]
    exact goOn_of_grammatical h (Lexer.delivers_of_stream hstream)
  have grammatical : (∃ r, Command.ofLine line = .ok r) →
      ∃ ts, Lexer.stream Lexer.plain line.toList = ts.map .ok ∧ Grammatical ts := by
    rintro ⟨r, hr⟩
    rw [ofLine_eq_goOn] at hr
    obtain ⟨ts, hts, hstream | hstream⟩ := Lexer.stream_shape Lexer.plain line.toList
    · refine ⟨ts, hstream, Classical.byContradiction fun h => ?_⟩
      obtain ⟨e, he⟩ := goOn_of_not_grammatical h hts
      rw [hstream, he] at hr
      cases hr
    · obtain ⟨e, he⟩ := goOn_open_quote hts .unclosedQuote
      rw [hstream, he] at hr
      cases hr
  refine ⟨⟨grammatical, ?_⟩, accepted, fun hno => ?_⟩
  · rintro ⟨ts, hstream, h⟩
    exact ⟨_, accepted ts hstream h⟩
  · cases hline : Command.ofLine line with
    | ok r => exact absurd (grammatical ⟨r, hline⟩) hno
    | error e => exact ⟨e, rfl, message_prefix e⟩

/-- Redirections may stand in front of the program and behind `&`, other words may not. -/
theorem ofLine_grammatical_sort :
    Command.ofLine "> o sort -r & < i" = .ok (some ⟨["sort", "-r"], some "i", some "o", true⟩) ∧
      ∃ e, Command.ofLine "sort & -r" = .error e ∧
        "Syntax error: ".toList <+: e.message.toList := by
  constructor
  · have hstream : Lexer.stream Lexer.plain "> o sort -r & < i".toList =
        [.operator .output, .word "o", .word "sort", .word "-r", .operator .background,
          .operator .input, .word "i"].map .ok := by cbv
    refine (ofLine_grammatical "> o sort -r & < i").2.1 _ hstream ?_
    exact
      { operators := by simp
        files := by simp [Throughout, HasFile, Token.redirects]
        inputOnce := by decide
        outputOnce := by decide
        backgroundOnce := by decide
        backgroundLast := by simp [Throughout, EndsCommand, freeWords, Token.redirects]
        program := by decide }
  · have hstream : Lexer.stream Lexer.plain "sort & -r".toList =
        [.word "sort", .operator .background, .word "-r"].map .ok := by cbv
    refine (ofLine_grammatical "sort & -r").2.2 ?_
    rintro ⟨ts, hts, h⟩
    have heq : ts = [.word "sort", .operator .background, .word "-r"] :=
      (List.map_inj_right fun _ _ => Except.ok.inj).1 (hts.symm.trans hstream)
    subst heq
    cases h.backgroundLast.2.1 rfl

end Grammar

end JobShell
