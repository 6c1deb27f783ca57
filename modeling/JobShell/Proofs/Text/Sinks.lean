import JobShell.Job.Listing

/-!
# Writing to a sink

A sink may take what it is offered in parts, may be interrupted before it has taken anything, and
refuses the rest once it is full. Who writes offers the rest again, until all of it was taken or it
is refused.

* `Takes s bs s' ok` says that offering `bs` may end so: `s'` is the sink then, and `ok` tells
  whether all was taken. `takes_iff` says that there is one end only, the one of `Sink.write`,
  however large the parts are.
* `TakesAll` is the same for several strings of bytes, one after the other up to the first that is
  refused; `takesAll_iff` says that it makes no difference where the bytes are divided.
* `Receives` is what comes of this with a flush at the end.
-/

namespace JobShell

open Text (bytes)

namespace Sink

variable {s s' : Sink} {bs : List UInt8} {parts : List (List UInt8)} {ok : Bool} {n : Nat}

/-! ## 1. What is taken at once -/

/-- There is room for a number of bytes. -/
def Fits (s : Sink) (n : Nat) : Prop := ∀ room, s.room = some room → n ≤ room

/-- The sink when it has taken some bytes. -/
def took (s : Sink) (bs : List UInt8) : Sink :=
  { s with taken := s.taken ++ bs, room := s.room.map (· - bs.length) }

theorem write_nil (s : Sink) : s.write [] = (s, true) := by
  rcases s with ⟨taken, room, flushFails⟩
  cases room with
  | none => simp [write]
  | some r => simp [write]

/-- A full sink takes nothing. -/
theorem write_of_full (hfull : s.room = some 0) (hbs : bs ≠ []) : s.write bs = (s, false) := by
  rcases s with ⟨taken, room, flushFails⟩
  subst hfull
  simpa [write] using hbs

/-- **It makes no difference that some of the bytes are taken before the rest.** -/
theorem write_took (hn : n ≤ bs.length) (hroom : s.Fits n) :
    s.write bs = (s.took (bs.take n)).write (bs.drop n) := by
  rcases s with ⟨taken, room, flushFails⟩
  cases room with
  | none => simp [write, took]
  | some r =>
    have hr : n ≤ r := hroom r rfl
    have htaken : bs.take r = bs.take n ++ (bs.drop n).take (r - n) := by
      rw [← List.take_add]
      congr
      omega
    have hlength : (bs.take n).length = n := by rw [List.length_take]; omega
    have hleft : r - bs.length = r - n - (bs.length - n) := by omega
    have hall : bs.length ≤ r ↔ bs.length - n ≤ r - n := by omega
    simp only [write, took, Option.map_some, hlength, htaken, List.append_assoc, List.length_drop,
      hleft, hall]

/-! ## 2. One string of bytes -/

/-- **What may come of offering bytes** until all of them are taken or the rest is refused. -/
inductive Takes : Sink → List UInt8 → Sink → Bool → Prop
  /-- There is nothing to offer. -/
  | done (s : Sink) : Takes s [] s true
  /-- Some bytes are taken, and the rest is offered again. -/
  | part {s s' : Sink} {bs : List UInt8} {ok : Bool} (n : Nat) (hpos : 0 < n)
      (hn : n ≤ bs.length) (hroom : s.Fits n)
      (rest : Takes (s.took (bs.take n)) (bs.drop n) s' ok) : Takes s bs s' ok
  /-- The sink was interrupted, and all is offered again. -/
  | interrupted {s s' : Sink} {bs : List UInt8} {ok : Bool} (hbs : bs ≠ [])
      (again : Takes s bs s' ok) : Takes s bs s' ok
  /-- The sink is full. -/
  | refused {s : Sink} {bs : List UInt8} (hbs : bs ≠ []) (hfull : s.room = some 0) :
      Takes s bs s false

theorem Takes.write_eq (h : s.Takes bs s' ok) : s.write bs = (s', ok) := by
  induction h with
  | done s => exact write_nil s
  | part n hpos hn hroom rest ih => exact (write_took hn hroom).trans ih
  | interrupted hbs again ih => exact ih
  | refused hbs hfull => exact write_of_full hfull hbs

/-- Where there is nothing to offer, or no room, the end has come. -/
theorem takes_at_end (h : bs = [] ∨ s.room = some 0) :
    s.Takes bs (s.write bs).1 (s.write bs).2 := by
  by_cases hbs : bs = []
  · rw [hbs, write_nil]
    exact .done s
  · have hfull : s.room = some 0 := h.resolve_left hbs
    rw [write_of_full hfull hbs]
    exact .refused hbs hfull

/-- As much as there is room for may be taken at once. -/
theorem takes_write (s : Sink) (bs : List UInt8) : s.Takes bs (s.write bs).1 (s.write bs).2 := by
  by_cases hend : bs = [] ∨ s.room = some 0
  · exact takes_at_end hend
  · obtain ⟨hbs, hfull⟩ := not_or.1 hend
    have hlength : 0 < bs.length := List.length_pos_iff.2 hbs
    have once (n : Nat) (hpos : 0 < n) (hn : n ≤ bs.length) (hroom : s.Fits n)
        (hlast : bs.drop n = [] ∨ (s.took (bs.take n)).room = some 0) :
        s.Takes bs (s.write bs).1 (s.write bs).2 := by
      rw [write_took hn hroom]
      exact .part n hpos hn hroom (takes_at_end hlast)
    cases hroom : s.room with
    | none =>
      refine once bs.length hlength (Nat.le_refl _) (fun r hr => ?_) (Or.inl List.drop_length)
      rw [hroom] at hr
      cases hr
    | some r =>
      have hr : r ≠ 0 := fun hzero => hfull (hzero ▸ hroom)
      refine once (min bs.length r) (by omega) (by omega) (fun q hq => ?_) ?_
      · rw [hroom] at hq
        cases hq
        exact Nat.min_le_right _ _
      · rw [List.drop_eq_nil_iff, took, hroom]
        simp only [Option.map_some, Option.some.injEq, List.length_take]
        omega

/-- **There is one end only**, whatever the parts in which the bytes are taken. -/
theorem takes_iff : s.Takes bs s' ok ↔ s.write bs = (s', ok) := by
  refine ⟨Takes.write_eq, fun h => ?_⟩
  have hwrite := takes_write s bs
  rwa [h] at hwrite

/-- A sink without a limit has all of the bytes in the end. -/
theorem takes_unlimited_iff {before : List UInt8} :
    ({ taken := before } : Sink).Takes bs s' ok ↔ s' = { taken := before ++ bs } ∧ ok = true := by
  rw [takes_iff, Prod.ext_iff, eq_comm, eq_comm (b := ok)]
  rfl

/-! ## 3. Several strings of bytes -/

/-- Writing bytes and then others is writing both, unless the first are not taken whole. -/
theorem write_append (s : Sink) (x y : List UInt8) :
    s.write (x ++ y) =
      match s.write x with
      | (s₁, true) => s₁.write y
      | (s₁, false) => (s₁, false) := by
  rcases s with ⟨taken, room, flushFails⟩
  cases room with
  | none => simp [write]
  | some r =>
    by_cases hx : x.length ≤ r
    · have hleft : r - (x.length + y.length) = r - x.length - y.length := by omega
      have hall : x.length + y.length ≤ r ↔ y.length ≤ r - x.length := by omega
      simp only [write, hx, decide_true, List.take_append, List.take_of_length_le hx,
        List.append_assoc, List.length_append, hleft, hall]
    · have hnone : r - (x.length + y.length) = r - x.length := by omega
      have hall : ¬ x.length + y.length ≤ r := by omega
      simp only [write, hx, decide_false, hall, hnone, List.length_append,
        List.take_append_of_le_length (Nat.le_of_not_le hx)]

/-- Strings of bytes one after the other, up to the first that is not taken whole. -/
inductive TakesAll : Sink → List (List UInt8) → Sink → Bool → Prop
  | nil (s : Sink) : TakesAll s [] s true
  | onward {s s₁ s' : Sink} {bs : List UInt8} {parts : List (List UInt8)} {ok : Bool}
      (h : s.Takes bs s₁ true) (rest : TakesAll s₁ parts s' ok) : TakesAll s (bs :: parts) s' ok
  | broken {s s' : Sink} {bs : List UInt8} {parts : List (List UInt8)}
      (h : s.Takes bs s' false) : TakesAll s (bs :: parts) s' false

/-- **It makes no difference where the bytes are divided.** -/
theorem takesAll_iff : s.TakesAll parts s' ok ↔ s.write parts.flatten = (s', ok) := by
  constructor
  · intro h
    induction h with
    | nil => exact write_nil _
    | onward h rest ih => rw [List.flatten_cons, write_append, h.write_eq]; exact ih
    | broken h => rw [List.flatten_cons, write_append, h.write_eq]
  · intro h
    induction parts generalizing s with
    | nil =>
      rw [List.flatten_nil, write_nil] at h
      cases h
      exact .nil _
    | cons bs parts ih =>
      rw [List.flatten_cons, write_append] at h
      split at h
      · rename_i s₁ hfirst
        exact .onward (takes_iff.2 hfirst) (ih h)
      · rename_i s₁ hfirst
        cases h
        exact .broken (takes_iff.2 hfirst)

/-- Strings of bytes and then a flush, if all of them were taken. -/
def Receives (s : Sink) (parts : List (List UInt8)) (s' : Sink) (ok : Bool) : Prop :=
  ∃ all, s.TakesAll parts s' all ∧ ok = (all && !s'.flushFails)

theorem writeAll_eq (s : Sink) (texts : List String) :
    s.writeAll texts = s.write (texts.flatMap bytes) := by
  induction texts generalizing s with
  | nil => exact (write_nil s).symm
  | cons text texts ih =>
    rw [List.flatMap_cons, write_append, writeAll]
    cases s.write (bytes text) with
    | mk s₁ all =>
      cases all with
      | true => exact ih s₁
      | false => rfl

end Sink

end JobShell
