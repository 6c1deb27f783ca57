import JobShell.History

/-!
# What a history holds

Lines are entered one after the other, and only the last ones are kept.

* `Recalls h line k` says that `line` is an entry with at most `k` later ones. It is so at first
  (`recalls_add`), and a further line adds one at most (`Recalls.add`).
* `mem_foldl_add` follows a line through all that are entered after it.
* `foldl_add_cases` says what it means that a history has not grown.
-/

namespace JobShell

namespace History

variable {h : History} {line : String} {k : Nat}

/-! ## 1. One line -/

/-- A line is left out, and nothing changes, or it is the last one. -/
theorem add_cases (h : History) (line : String) :
    (h.add line = h ∧ (line = "" ∨ h.entries.getLast? = some line)) ∨
      h.add line = ⟨h.entries.drop (h.entries.length + 1 - limit) ++ [line], true⟩ := by
  unfold add
  split
  · rename_i hleft
    exact Or.inl ⟨rfl, hleft.imp_left String.isEmpty_iff.1⟩
  · refine Or.inr ?_
    have hpos : h.entries.length + 1 - limit ≤ h.entries.length := by
      rw [limit]
      omega
    simp only [List.length_append, List.length_singleton]
    rw [List.drop_append_of_le_length hpos]

/-- `line` is an entry, and at most `k` entries are later. -/
def Recalls (h : History) (line : String) (k : Nat) : Prop :=
  ∃ older newer, h.entries = older ++ line :: newer ∧ newer.length ≤ k

theorem Recalls.mem (hr : h.Recalls line k) : line ∈ h.entries := by
  obtain ⟨older, newer, he, -⟩ := hr
  rw [he]
  exact List.mem_append_right older List.mem_cons_self

/-- A line that was entered is the last entry. -/
theorem recalls_add (hne : line ≠ "") : (h.add line).Recalls line 0 := by
  obtain ⟨hsame, hempty | hlast⟩ | hnew := h.add_cases line
  · exact (hne hempty).elim
  · obtain ⟨older, he⟩ := List.getLast?_eq_some_iff.1 hlast
    exact ⟨older, [], hsame.symm ▸ he, Nat.le_refl 0⟩
  · exact ⟨_, [], by rw [hnew], Nat.le_refl 0⟩

/-- **One more line pushes an entry back by one**, and out only if there are too many after it. -/
theorem Recalls.add (hr : h.Recalls line k) (hk : k + 1 < limit) (other : String) :
    (h.add other).Recalls line (k + 1) := by
  obtain ⟨older, newer, he, hnewer⟩ := hr
  obtain ⟨hsame, -⟩ | hnew := h.add_cases other
  · exact ⟨older, newer, hsame.symm ▸ he, Nat.le_succ_of_le hnewer⟩
  · have hcut : h.entries.length + 1 - limit ≤ older.length := by
      rw [he, List.length_append, List.length_cons]
      omega
    refine ⟨older.drop (h.entries.length + 1 - limit), newer ++ [other], ?_, ?_⟩
    · rw [hnew]
      show h.entries.drop (h.entries.length + 1 - limit) ++ [other] = _
      rw [he] at hcut ⊢
      rw [List.drop_append_of_le_length hcut, List.append_assoc, List.cons_append]
    · rw [List.length_append]
      exact Nat.succ_le_succ hnewer

/-! ## 2. Many lines -/

theorem Recalls.foldl_add (hr : h.Recalls line k) (lines : List String)
    (hk : k + lines.length < limit) :
    (lines.foldl History.add h).Recalls line (k + lines.length) := by
  induction lines generalizing h k with
  | nil => exact hr
  | cons other lines ih =>
    rw [List.length_cons] at hk ⊢
    have hnext := ih (hr.add (by omega) other) (by omega)
    rwa [Nat.add_right_comm, Nat.add_assoc] at hnext

/-- **A line that was entered is an entry until too many others were entered after it.** -/
theorem mem_foldl_add (h : History) (before : List String) (hne : line ≠ "") {after : List String}
    (hafter : after.length < limit) : line ∈ ((before ++ line :: after).foldl add h).entries := by
  rw [List.foldl_append, List.foldl_cons]
  refine Recalls.mem ((recalls_add hne).foldl_add after ?_)
  rwa [Nat.zero_add]

theorem grown_foldl_add (hgrown : h.grown = true) (lines : List String) :
    (lines.foldl add h).grown = true := by
  induction lines generalizing h with
  | nil => exact hgrown
  | cons line lines ih =>
    refine ih ?_
    obtain ⟨hsame, -⟩ | hnew := h.add_cases line
    · rwa [hsame]
    · rw [hnew]

/-- **A history has grown, or every line was empty or stood at its end already.** -/
theorem foldl_add_cases (h : History) (lines : List String) :
    (lines.foldl add h).grown = true ∨
      (lines.foldl add h = h ∧ ∀ line ∈ lines, line = "" ∨ h.entries.getLast? = some line) := by
  induction lines with
  | nil => exact Or.inr ⟨rfl, fun _ hmem => (List.not_mem_nil hmem).elim⟩
  | cons line lines ih =>
    rw [List.foldl_cons]
    obtain ⟨hsame, hleft⟩ | hnew := h.add_cases line
    · rw [hsame]
      refine ih.imp_right fun ⟨hall, hlines⟩ => ⟨hall, fun line' hmem => ?_⟩
      rcases List.mem_cons.1 hmem with rfl | hmem
      · exact hleft
      · exact hlines line' hmem
    · refine Or.inl (grown_foldl_add ?_ lines)
      rw [hnew]

end History

end JobShell
