import JobShell.Signal.Mask

/-!
# Nested blocks

What becomes of the signal mask while blocks are begun and left inside each other, sleep, and are
interrupted by handlers that begin blocks of their own.

* `Nesting` is the mask in force with all that is still to be left; `Nesting.step?` does one thing
  and `Nesting.run?` one thing after the other.
* `Nesting.Sound` is what holds of all that can come about. It gives `isFull_of_awake`: while a
  block is awake, anywhere, no signal can arrive that can be blocked.
* `Nesting.origin` is the mask that will be in force once everything is left. No step changes it.
* `Nested` are the sequences that leave everything that they begin, the latest first;
  `run?_of_nested` says that such a sequence ends where it began.
-/

namespace JobShell

/-- Every signal is blocked that can be. -/
def Mask.IsFull (m : Mask) : Prop := ∀ n, Signal.isForced n = false → m.blocks n = true

theorem Mask.isFull_withAll (m : Mask) : m.withAll.IsFull := fun _ h => m.blocks_withAll h

/-- What blocks more than a full mask is full. -/
theorem Mask.IsFull.of_le {m m' : Mask} (h : m.IsFull)
    (hle : ∀ n, m.blocks n = true → m'.blocks n = true) : m'.IsFull :=
  fun n hn => hle n (h n hn)

theorem Mask.blocks_withSignal {m : Mask} {k : Nat} (n : Nat) (h : m.blocks k = true) :
    (m.withSignal n).blocks k = true := by
  show (m.blocks k || k == n) = true
  rw [h, Bool.true_or]

/-! ## 1. What is to be left -/

/-- Something that was begun and is still to be left. -/
inductive Layer where
  | block (b : Block)
  /-- A block that sleeps, and the mask that is in force again when it is woken. -/
  | asleep (b : Block) (inside : Mask)
  /-- A handler, and the mask that is in force again when it returns. -/
  | handler (before : Mask)

/-- The mask in force, and what is still to be left, the latest first. -/
structure Nesting where
  mask : Mask
  layers : List Layer := []

namespace Nesting

/-- Something that changes the mask. -/
inductive Step where
  | opens
  | leaves
  /-- The latest block lets through meanwhile what was let through before it. -/
  | sleeps
  | wakes
  /-- A handler for this signal begins. -/
  | interrupts (signal : Nat)
  | returns

/-- Does one thing; only what was begun last can be left. Whether a signal was blocked when its
handler begins is not asked, so that more can happen here than to a shell. -/
def step? (s : Nesting) : Step → Option Nesting
  | .opens =>
    let (b, mask) := s.mask.enter
    some ⟨mask, .block b :: s.layers⟩
  | .leaves =>
    match s.layers with
    | .block b :: rest => some ⟨b.leave, rest⟩
    | _ => none
  | .sleeps =>
    match s.layers with
    | .block b :: rest => some ⟨b.before, .asleep b s.mask :: rest⟩
    | _ => none
  | .wakes =>
    match s.layers with
    | .asleep b inside :: rest => some ⟨inside, .block b :: rest⟩
    | _ => none
  | .interrupts signal => some ⟨s.mask.withSignal signal, .handler s.mask :: s.layers⟩
  | .returns =>
    match s.layers with
    | .handler before :: rest => some ⟨before, rest⟩
    | _ => none

/-- Does one thing after the other. -/
def run? (s : Nesting) : List Step → Option Nesting
  | [] => some s
  | x :: xs => (s.step? x).bind fun s' => s'.run? xs

theorem run?_append (s : Nesting) (xs ys : List Step) :
    s.run? (xs ++ ys) = (s.run? xs).bind fun s' => s'.run? ys := by
  induction xs generalizing s with
  | nil => rfl
  | cons x xs ih =>
    rw [List.cons_append, run?, run?]
    cases s.step? x with
    | none => rfl
    | some s' => exact ih s'

/-- What a step does. -/
inductive Does : Nesting → Step → Nesting → Prop
  | opens (m : Mask) (ls : List Layer) :
      Does ⟨m, ls⟩ .opens ⟨m.withAll, .block ⟨m⟩ :: ls⟩
  | leaves (m : Mask) (b : Block) (ls : List Layer) :
      Does ⟨m, .block b :: ls⟩ .leaves ⟨b.before, ls⟩
  | sleeps (m : Mask) (b : Block) (ls : List Layer) :
      Does ⟨m, .block b :: ls⟩ .sleeps ⟨b.before, .asleep b m :: ls⟩
  | wakes (m : Mask) (b : Block) (inside : Mask) (ls : List Layer) :
      Does ⟨m, .asleep b inside :: ls⟩ .wakes ⟨inside, .block b :: ls⟩
  | interrupts (m : Mask) (signal : Nat) (ls : List Layer) :
      Does ⟨m, ls⟩ (.interrupts signal) ⟨m.withSignal signal, .handler m :: ls⟩
  | returns (m before : Mask) (ls : List Layer) :
      Does ⟨m, .handler before :: ls⟩ .returns ⟨before, ls⟩

/-- **A step that can be done does what it should.** -/
theorem does_of_step? {s s' : Nesting} {x : Step} (h : s.step? x = some s') : Does s x s' := by
  obtain ⟨m, layers⟩ := s
  cases x with
  | opens => exact Option.some.inj h ▸ .opens m layers
  | leaves =>
    simp only [step?] at h
    split at h
    · exact Option.some.inj h ▸ .leaves m _ _
    · cases h
  | sleeps =>
    simp only [step?] at h
    split at h
    · exact Option.some.inj h ▸ .sleeps m _ _
    · cases h
  | wakes =>
    simp only [step?] at h
    split at h
    · exact Option.some.inj h ▸ .wakes m _ _ _
    · cases h
  | interrupts n => exact Option.some.inj h ▸ .interrupts m n layers
  | returns =>
    simp only [step?] at h
    split at h
    · exact Option.some.inj h ▸ .returns m _ _
    · cases h

/-! ## 2. What holds of all that can come about -/

/-- A mask and what is to be left fit together. -/
def Fits : Mask → List Layer → Prop
  | _, [] => True
  | m, .block b :: rest => m.IsFull ∧ Fits b.before rest
  | m, .asleep b inside :: rest => m = b.before ∧ inside.IsFull ∧ Fits b.before rest
  | m, .handler before :: rest =>
    (∀ n, before.blocks n = true → m.blocks n = true) ∧ Fits before rest

/-- The mask in force fits what is to be left. -/
def Sound (s : Nesting) : Prop := Fits s.mask s.layers

theorem sound_start (m : Mask) : Sound ⟨m, []⟩ := trivial

variable {s s' : Nesting}

theorem Sound.step {x : Step} (h : s.Sound) (hdoes : Does s x s') : s'.Sound := by
  cases hdoes with
  | opens m => exact ⟨m.isFull_withAll, h⟩
  | leaves => exact h.2
  | sleeps => exact ⟨rfl, h⟩
  | wakes => exact h.2
  | interrupts m n => exact ⟨fun _ hk => Mask.blocks_withSignal n hk, h⟩
  | returns => exact h.2

/-- What every step keeps is kept by all of them. -/
theorem run?_induct {I : Nesting → Prop}
    (hstep : ∀ {s s' x}, I s → Does s x s' → I s') {xs : List Step} (h : I s)
    (hrun : s.run? xs = some s') : I s' := by
  induction xs generalizing s with
  | nil => exact Option.some.inj hrun ▸ h
  | cons x xs ih =>
    obtain ⟨t, ht, hrest⟩ := Option.bind_eq_some_iff.1 hrun
    exact ih (hstep h (does_of_step? ht)) hrest

/-- **While a block is awake, every signal is blocked that can be.** It does not matter how deep the
block is: blocks inside it may sleep, and handlers may run. -/
theorem Sound.isFull_of_awake (h : s.Sound) {b : Block} (hb : .block b ∈ s.layers) :
    s.mask.IsFull := by
  obtain ⟨mask, layers⟩ := s
  induction layers generalizing mask with
  | nil => exact (List.not_mem_nil hb).elim
  | cons l rest ih =>
    cases l with
    | block => exact h.1
    | asleep b' inside =>
      obtain ⟨hmask, -, hrest⟩ := h
      have hbelow : .block b ∈ rest := (List.mem_cons.1 hb).resolve_left fun e => nomatch e
      exact hmask ▸ ih b'.before hrest hbelow
    | handler before =>
      obtain ⟨hle, hrest⟩ := h
      have hbelow : .block b ∈ rest := (List.mem_cons.1 hb).resolve_left fun e => nomatch e
      exact (ih before hrest hbelow).of_le hle

/-- A block sleeps with the mask that was in force when it began. -/
theorem Sound.mask_of_asleep (h : s.Sound) {b : Block} {inside : Mask} {rest : List Layer}
    (hlayers : s.layers = .asleep b inside :: rest) : s.mask = b.before := by
  unfold Sound at h
  rw [hlayers] at h
  exact h.1

/-! ## 3. Where it all began -/

/-- The mask that is in force once everything is left. -/
def origin : Mask → List Layer → Mask
  | m, [] => m
  | _, .block b :: rest => origin b.before rest
  | _, .asleep b _ :: rest => origin b.before rest
  | _, .handler before :: rest => origin before rest

/-- **No step changes the mask that all goes back to.** -/
theorem origin_eq_of_does {x : Step} (hdoes : Does s x s') :
    origin s'.mask s'.layers = origin s.mask s.layers := by
  cases hdoes <;> rfl

/-- Whatever happens in between, once everything is left the first mask is in force again. -/
theorem mask_of_run? {m : Mask} {xs : List Step} (hrun : run? ⟨m, []⟩ xs = some s)
    (hleft : s.layers = []) : s.mask = m := by
  have horigin : origin s.mask s.layers = m :=
    run?_induct (I := fun t => origin t.mask t.layers = m)
      (fun h hdoes => (origin_eq_of_does hdoes).trans h) rfl hrun
  rw [hleft] at horigin
  exact horigin

/-! ## 4. Sequences that leave what they begin -/

/-- Everything that is begun is left, the latest first. `inBlock` tells whether this happens right
inside a block, which can then sleep. -/
inductive Nested : (inBlock : Bool) → List Step → Prop
  | nothing (inBlock : Bool) : Nested inBlock []
  | block {inBlock : Bool} {inner rest : List Step} (hinner : Nested true inner)
      (hrest : Nested inBlock rest) : Nested inBlock (.opens :: inner ++ .leaves :: rest)
  | sleep {inner rest : List Step} (hinner : Nested false inner) (hrest : Nested true rest) :
      Nested true (.sleeps :: inner ++ .wakes :: rest)
  | handler {inBlock : Bool} {inner rest : List Step} (signal : Nat)
      (hinner : Nested false inner) (hrest : Nested inBlock rest) :
      Nested inBlock (.interrupts signal :: inner ++ .returns :: rest)

/-- What is begun and left goes on from where it began. -/
theorem run?_enclosed {s₁ s₂ : Nesting} {x y : Step} {inner : List Step}
    (hx : s.step? x = some s₁) (hinner : s₁.run? inner = some s₁) (hy : s₁.step? y = some s₂)
    (rest : List Step) : s.run? (x :: inner ++ y :: rest) = s₂.run? rest := by
  rw [List.cons_append, run?, hx, Option.bind_some, run?_append, hinner, Option.bind_some, run?, hy,
    Option.bind_some]

/-- **A sequence that leaves what it begins ends where it began**, with the mask that was in
force. -/
theorem run?_of_nested {inBlock : Bool} {xs : List Step} (h : Nested inBlock xs) (s : Nesting)
    (hin : inBlock = true → ∃ b rest, s.layers = .block b :: rest) : s.run? xs = some s := by
  induction h generalizing s with
  | nothing => rfl
  | block hinner hrest ihinner ihrest =>
    have hbody := ihinner ⟨s.mask.withAll, .block ⟨s.mask⟩ :: s.layers⟩ fun _ => ⟨_, _, rfl⟩
    rw [run?_enclosed rfl hbody rfl]
    exact ihrest s hin
  | sleep hinner hrest ihinner ihrest =>
    obtain ⟨b, rest, hlayers⟩ := hin rfl
    obtain ⟨mask, layers⟩ := s
    obtain rfl : layers = .block b :: rest := hlayers
    have hbody := ihinner ⟨b.before, .asleep b mask :: rest⟩ fun h => nomatch h
    rw [run?_enclosed rfl hbody rfl]
    exact ihrest _ hin
  | handler signal hinner hrest ihinner ihrest =>
    have hbody := ihinner ⟨s.mask.withSignal signal, .handler s.mask :: s.layers⟩
      fun h => nomatch h
    rw [run?_enclosed rfl hbody rfl]
    exact ihrest s hin

/-- **A block is left with the mask in force that was in force when it began.** -/
theorem run?_of_block {inner : List Step} (h : Nested true inner) (s : Nesting) :
    s.run? (.opens :: inner ++ [.leaves]) = some s :=
  run?_of_nested (.block h (.nothing false)) s fun h => nomatch h

end Nesting

end JobShell
