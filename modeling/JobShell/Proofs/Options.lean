import JobShell.Options

/-!
# Flags alone and in groups

What the flags of a call come to, told from its arguments as a whole.

* `IsGroup` tells the arguments that are accepted, and `Refuses` why another one is not.
* `withArgs_of_isGroup` and `withArgs_of_refuses` are the two outcomes of reading arguments, and
  `isGroup_or_refuses` says that there is no third.
* `separated` puts the letters of a group apart; `withArgs_flatMap_separated` says that this makes
  no difference.
* `flags_alone_and_grouped` is the outcome.
-/

namespace JobShell.Options

variable {o : Options} {cs before after : List Char} {c : Char} {arg : String}
  {args earlier later : List String} {e : OptionError}

/-! ## 1. Letters -/

/-- A letter that is a flag. -/
def IsFlag (c : Char) : Prop := c = 'h' ∨ c = 'v' ∨ c = 'p'

/-- The options with the flags turned on that are among some letters. -/
def turnedOn (o : Options) (cs : List Char) : Options :=
  { o with
    help := o.help || cs.contains 'h'
    verbose := o.verbose || cs.contains 'v'
    emitPrompt := o.emitPrompt && !cs.contains 'p' }

@[simp] theorem turnedOn_nil (o : Options) : o.turnedOn [] = o := by
  simp [turnedOn]

theorem turnedOn_append (o : Options) (cs ds : List Char) :
    o.turnedOn (cs ++ ds) = (o.turnedOn cs).turnedOn ds := by
  simp [turnedOn, Bool.or_assoc, Bool.and_assoc]

theorem withFlag_of_isFlag (o : Options) (h : IsFlag c) : o.withFlag c = .ok (o.turnedOn [c]) := by
  rcases h with rfl | rfl | rfl
  · simp [withFlag, turnedOn]
  · simp [withFlag, turnedOn]
  · simp [withFlag, turnedOn]

theorem withFlag_of_not_isFlag (o : Options) (h : ¬ IsFlag c) :
    o.withFlag c = .error (.unknownFlag c) := by
  unfold withFlag
  split
  · exact absurd (Or.inl rfl) h
  · exact absurd (Or.inr (Or.inl rfl)) h
  · exact absurd (Or.inr (Or.inr rfl)) h
  · rfl

theorem withFlags_cons_of_isFlag (o : Options) (h : IsFlag c) (cs : List Char) :
    o.withFlags (c :: cs) = (o.turnedOn [c]).withFlags cs := by
  rw [withFlags, withFlag_of_isFlag o h]

/-- **Flags are all turned on.** -/
theorem withFlags_of_isFlag (o : Options) (h : ∀ c ∈ cs, IsFlag c) :
    o.withFlags cs = .ok (o.turnedOn cs) := by
  induction cs generalizing o with
  | nil => rw [withFlags, turnedOn_nil]
  | cons c cs ih =>
    obtain ⟨hc, hcs⟩ := List.forall_mem_cons.1 h
    rw [withFlags_cons_of_isFlag o hc, ih _ hcs, ← turnedOn_append]
    rfl

/-- **The first letter that is no flag is the fault of a group.** -/
theorem withFlags_of_not_isFlag (o : Options) (hbefore : ∀ b ∈ before, IsFlag b)
    (hc : ¬ IsFlag c) (after : List Char) :
    o.withFlags (before ++ c :: after) = .error (.unknownFlag c) := by
  induction before generalizing o with
  | nil => rw [List.nil_append, withFlags, withFlag_of_not_isFlag o hc]
  | cons b before ih =>
    obtain ⟨hb, hbefore⟩ := List.forall_mem_cons.1 hbefore
    rw [List.cons_append, withFlags_cons_of_isFlag o hb, ih _ hbefore]

/-! ## 2. Arguments -/

/-- A dash, and flags after it, at least one. -/
def IsGroup (arg : String) : Prop :=
  ∃ cs, arg.toList = '-' :: cs ∧ cs ≠ [] ∧ ∀ c ∈ cs, IsFlag c

/-- Why an argument is refused. -/
inductive Refuses (arg : String) : OptionError → Prop
  /-- It is not a dash with letters after it. -/
  | shape (h : ∀ cs, arg.toList = '-' :: cs → cs = []) : Refuses arg (.unexpectedArgument arg)
  /-- This is the first of its letters that is no flag. -/
  | letter (before : List Char) (c : Char) (after : List Char)
      (h : arg.toList = '-' :: (before ++ c :: after)) (hbefore : ∀ b ∈ before, IsFlag b)
      (hc : ¬ IsFlag c) : Refuses arg (.unknownFlag c)

theorem letters?_of_toList (h : arg.toList = '-' :: cs) (hne : cs ≠ []) :
    letters? arg = some cs := by
  cases cs with
  | nil => exact absurd rfl hne
  | cons c cs => simp only [letters?, h]

theorem letters?_eq_none (h : ∀ cs, arg.toList = '-' :: cs → cs = []) : letters? arg = none := by
  unfold letters?
  split
  · rename_i c cs hlist
    cases h _ hlist
  · rfl

theorem withArgs_cons_of_letters (o : Options) (h : letters? arg = some cs)
    (args : List String) :
    o.withArgs (arg :: args) = (o.withFlags cs).bind (·.withArgs args) := by
  simp only [withArgs, h]
  cases o.withFlags cs with
  | error e => rfl
  | ok o' => rfl

/-- **Groups are all read**: what they come to is a matter of the letters in them. -/
theorem withArgs_of_isGroup (o : Options) (h : ∀ arg ∈ args, IsGroup arg) :
    o.withArgs args = .ok (o.turnedOn (args.flatMap String.toList)) := by
  induction args generalizing o with
  | nil => rw [withArgs, List.flatMap_nil, turnedOn_nil]
  | cons arg args ih =>
    obtain ⟨⟨cs, hcs, hne, hflags⟩, hargs⟩ := List.forall_mem_cons.1 h
    -- The dash is no flag, so it can be counted among the letters.
    have hdash : o.turnedOn cs = o.turnedOn arg.toList := by
      rw [hcs]
      rfl
    rw [withArgs_cons_of_letters o (letters?_of_toList hcs hne), withFlags_of_isFlag o hflags,
      hdash]
    show (o.turnedOn arg.toList).withArgs args = _
    rw [ih _ hargs, List.flatMap_cons, turnedOn_append]

/-- **The first argument that is refused decides.** -/
theorem withArgs_of_refuses (o : Options) (hearlier : ∀ arg ∈ earlier, IsGroup arg)
    (h : Refuses arg e) (later : List String) :
    o.withArgs (earlier ++ arg :: later) = .error e := by
  induction earlier generalizing o with
  | nil =>
    cases h with
    | shape h => rw [List.nil_append, withArgs, letters?_eq_none h]
    | letter before c after hlist hbefore hc =>
      have hletters : letters? arg = some (before ++ c :: after) :=
        letters?_of_toList hlist (List.append_ne_nil_of_right_ne_nil _ (List.cons_ne_nil _ _))
      rw [List.nil_append, withArgs_cons_of_letters o hletters,
        withFlags_of_not_isFlag o hbefore hc]
      rfl
  | cons first earlier ih =>
    obtain ⟨⟨cs, hcs, hne, hflags⟩, hearlier⟩ := List.forall_mem_cons.1 hearlier
    rw [List.cons_append, withArgs_cons_of_letters o (letters?_of_toList hcs hne),
      withFlags_of_isFlag o hflags]
    exact ih _ hearlier

theorem isFlag_or_exists_first (cs : List Char) :
    (∀ c ∈ cs, IsFlag c) ∨
      ∃ before c after, cs = before ++ c :: after ∧ (∀ b ∈ before, IsFlag b) ∧ ¬ IsFlag c := by
  induction cs with
  | nil => exact Or.inl fun _ h => (List.not_mem_nil h).elim
  | cons c cs ih =>
    by_cases hc : IsFlag c
    · rcases ih with h | ⟨before, d, after, rfl, hbefore, hd⟩
      · exact Or.inl (List.forall_mem_cons.2 ⟨hc, h⟩)
      · exact Or.inr ⟨c :: before, d, after, rfl, List.forall_mem_cons.2 ⟨hc, hbefore⟩, hd⟩
    · exact Or.inr ⟨[], c, cs, rfl, fun _ h => (List.not_mem_nil h).elim, hc⟩

/-- **An argument is a group, or it is refused.** -/
theorem isGroup_or_refuses (arg : String) : IsGroup arg ∨ ∃ e, Refuses arg e := by
  by_cases h : ∀ cs, arg.toList = '-' :: cs → cs = []
  · exact Or.inr ⟨_, .shape h⟩
  · obtain ⟨cs, hcs⟩ := Classical.not_forall.1 h
    obtain ⟨hlist, hne⟩ := Classical.not_imp.1 hcs
    rcases isFlag_or_exists_first cs with hflags | ⟨before, c, after, rfl, hbefore, hc⟩
    · exact Or.inl ⟨cs, hlist, hne, hflags⟩
    · exact Or.inr ⟨_, .letter before c after hlist hbefore hc⟩

/-- The first argument that is refused, with what is wrong with it. -/
def FirstFault (args : List String) (e : OptionError) : Prop :=
  ∃ earlier arg later, args = earlier ++ arg :: later ∧ (∀ arg ∈ earlier, IsGroup arg) ∧
    Refuses arg e

theorem isGroup_or_firstFault (args : List String) :
    (∀ arg ∈ args, IsGroup arg) ∨ ∃ e, FirstFault args e := by
  induction args with
  | nil => exact Or.inl fun _ h => (List.not_mem_nil h).elim
  | cons arg args ih =>
    rcases isGroup_or_refuses arg with harg | ⟨e, he⟩
    · rcases ih with h | ⟨e, earlier, bad, later, rfl, hearlier, he⟩
      · exact Or.inl (List.forall_mem_cons.2 ⟨harg, h⟩)
      · exact Or.inr ⟨e, arg :: earlier, bad, later, rfl,
          List.forall_mem_cons.2 ⟨harg, hearlier⟩, he⟩
    · exact Or.inr ⟨e, [], arg, args, rfl, fun _ h => (List.not_mem_nil h).elim, he⟩

theorem withArgs_of_firstFault (o : Options) (h : FirstFault args e) :
    o.withArgs args = .error e := by
  obtain ⟨earlier, arg, later, rfl, hearlier, he⟩ := h
  exact withArgs_of_refuses o hearlier he later

/-- Arguments are accepted exactly if they are all groups. -/
theorem withArgs_eq_ok_iff {o' : Options} : o.withArgs args = .ok o' ↔
    (∀ arg ∈ args, IsGroup arg) ∧ o' = o.turnedOn (args.flatMap String.toList) := by
  constructor
  · intro h
    rcases isGroup_or_firstFault args with hargs | ⟨e, he⟩
    · rw [withArgs_of_isGroup o hargs, Except.ok.injEq] at h
      exact ⟨hargs, h.symm⟩
    · rw [withArgs_of_firstFault o he] at h
      cases h
  · rintro ⟨hargs, rfl⟩
    exact withArgs_of_isGroup o hargs

/-- They are refused exactly for the first of them that is at fault. -/
theorem withArgs_eq_error_iff : o.withArgs args = .error e ↔ FirstFault args e := by
  refine ⟨fun h => ?_, withArgs_of_firstFault o⟩
  rcases isGroup_or_firstFault args with hargs | ⟨e', he'⟩
  · rw [withArgs_of_isGroup o hargs] at h
    cases h
  · rw [withArgs_of_firstFault o he', Except.error.injEq] at h
    exact h ▸ he'

/-! ## 3. Groups -/

/-- An argument for each letter of a group. What is not a dash with letters after it stays as it
is. -/
def separated (arg : String) : List String :=
  match arg.toList with
  | '-' :: c :: cs => (c :: cs).map fun flag => String.ofList ['-', flag]
  | _ => [arg]

theorem separated_of_letters (h : letters? arg = some cs) :
    separated arg = cs.map fun flag => String.ofList ['-', flag] := by
  unfold letters? at h
  split at h
  · rename_i hlist
    cases h
    simp only [separated, hlist]
  · cases h

theorem separated_of_none (h : letters? arg = none) : separated arg = [arg] := by
  unfold letters? at h
  unfold separated
  split
  · rename_i hlist
    simp only [hlist] at h
    cases h
  · rfl

theorem withArgs_append (o : Options) (args args' : List String) :
    o.withArgs (args ++ args') = (o.withArgs args).bind (·.withArgs args') := by
  induction args generalizing o with
  | nil => rfl
  | cons arg args ih =>
    cases hletters : letters? arg with
    | none =>
      rw [List.cons_append, withArgs, withArgs, hletters]
      rfl
    | some cs =>
      rw [List.cons_append, withArgs_cons_of_letters o hletters,
        withArgs_cons_of_letters o hletters]
      cases o.withFlags cs with
      | error e => rfl
      | ok o' => exact ih o'

/-- Letters alone are read as the group of them. -/
theorem withArgs_map_letters (o : Options) (cs : List Char) :
    o.withArgs (cs.map fun flag => String.ofList ['-', flag]) = o.withFlags cs := by
  induction cs generalizing o with
  | nil => rfl
  | cons c cs ih =>
    have hletters : letters? (String.ofList ['-', c]) = some [c] :=
      letters?_of_toList String.toList_ofList (List.cons_ne_nil c [])
    rw [List.map_cons, withArgs_cons_of_letters o hletters, withFlags, withFlags]
    cases o.withFlag c with
    | error e => rfl
    | ok o' => exact ih o'

theorem withArgs_separated (o : Options) (arg : String) :
    o.withArgs (separated arg) = o.withArgs [arg] := by
  cases hletters : letters? arg with
  | none => rw [separated_of_none hletters]
  | some cs =>
    rw [separated_of_letters hletters, withArgs_map_letters, withArgs_cons_of_letters o hletters]
    cases o.withFlags cs with
    | error e => rfl
    | ok o' => rfl

/-- **Groups mean what their letters mean alone**, faults included. -/
theorem withArgs_flatMap_separated (o : Options) (args : List String) :
    o.withArgs (args.flatMap separated) = o.withArgs args := by
  induction args generalizing o with
  | nil => rfl
  | cons arg args ih =>
    rw [List.flatMap_cons, withArgs_append, withArgs_separated, ← List.singleton_append (l := args),
      withArgs_append]
    cases o.withArgs [arg] with
    | error e => rfl
    | ok o' => exact ih o'

/-! ## 4. The whole list -/

/-- A letter stands somewhere in an argument list. -/
def occurs (c : Char) (args : List String) : Bool := args.any (·.toList.contains c)

theorem contains_flatMap_toList (c : Char) (args : List String) :
    (args.flatMap String.toList).contains c = occurs c args := by
  rw [Bool.eq_iff_iff]
  simp [occurs]

/-- The options of arguments that are all accepted: each of the three flags is on if its letter
stands anywhere. -/
def ofLetters (home : Option String) (args : List String) : Options where
  emitPrompt := !occurs 'p' args
  verbose := occurs 'v' args
  help := occurs 'h' args
  historyPath := home.map (joinPath · historyName)

theorem turnedOn_initial (home : Option String) (args : List String) :
    (initial home).turnedOn (args.flatMap String.toList) = ofLetters home args := by
  simp only [turnedOn, initial, ofLetters, contains_flatMap_toList, Bool.false_or, Bool.true_and]

/-- **Flags mean the same alone and in groups.**

* It makes no difference, not even to the fault that is found, whether letters stand in a group or
  each in an argument of its own.
* An argument list is accepted exactly if each argument is a dash with one or more of the flags
  after it. The options are then a matter of which of the three letters stand anywhere, so two such
  lists in which the same ones do have the same options.
* Otherwise the first argument that is no such group is at fault: as a whole if it is not a dash
  with letters after it, else for the first of its letters that is no flag. -/
theorem flags_alone_and_grouped (home : Option String) (args : List String) :
    ofArgs home (args.flatMap separated) = ofArgs home args ∧
    (∀ o, ofArgs home args = .ok o ↔ (∀ arg ∈ args, IsGroup arg) ∧ o = ofLetters home args) ∧
    (∀ args', (∀ arg ∈ args, IsGroup arg) → (∀ arg ∈ args', IsGroup arg) →
      (∀ c, IsFlag c → occurs c args = occurs c args') →
      ofArgs home args = ofArgs home args') ∧
    ∀ e, ofArgs home args = .error e ↔ FirstFault args e := by
  have hok : ∀ (args : List String) (o : Options), ofArgs home args = .ok o ↔
      (∀ arg ∈ args, IsGroup arg) ∧ o = ofLetters home args := by
    intro args o
    rw [ofArgs, withArgs_eq_ok_iff, turnedOn_initial]
  refine ⟨withArgs_flatMap_separated _ args, hok args, fun args' h h' hsame => ?_,
    fun e => withArgs_eq_error_iff⟩
  have hletters : ofLetters home args = ofLetters home args' := by
    rw [ofLetters, ofLetters, hsame 'h' (Or.inl rfl), hsame 'v' (Or.inr (Or.inl rfl)),
      hsame 'p' (Or.inr (Or.inr rfl))]
  rw [(hok args _).2 ⟨h, rfl⟩, (hok args' _).2 ⟨h', rfl⟩, hletters]

/-- The fault in front decides: a letter of the second argument, not the third argument. -/
example : ofArgs (some "home") ["-vv", "-pxh", "-"] = .error (.unknownFlag 'x') := rfl

end JobShell.Options
