import Eece315.SudokuChecker

/-! The table of numbers found. The test that a number is a digit stands behind the access to the
table and is missing where the number is entered, so that a thread leaves the table at the first
number that is no digit, unless it has found a repetition before. -/
namespace Eece315.Sudoku
open ForkJoin

/-- No thread of a test of the string uses an index outside the table of numbers found. -/
def InBounds (sudokustring : List ℤ) : Prop :=
  ∀ schedule c, testRun (allocated (decodeSudokuString sudokustring)) schedule = some c →
    ∀ t index a, c.state t ≠ .outside index a

/-- The thread is not yet beyond element `j` of unit `i` and has found no repetition, or it has
left the table. -/
def Ahead (units : List (List ℤ)) (i j : ℕ) : Worker → Prop
  | .outer k a => a = ⟨units, 1, 0⟩ ∧ k ≤ i
  | .inner k unit l numbersFound a => a = ⟨units, 1, 0⟩ ∧ units[k]? = some unit ∧
    Seen unit l numbersFound ∧ (k < i ∨ k = i ∧ l ≤ j)
  | .behind k a => a = ⟨units, 1, 0⟩ ∧ k < i
  | .finished _ => False
  | .outside _ _ => True

section Threads

variable {units : List (List ℤ)} {unit u : List ℤ} {i j k l : ℕ} {e element : ℤ} {w : Worker}
  {numbersFound : Fin SUDOKU_DEPTH → ℤ}

lemma Seen.take (h : Seen unit l numbersFound) (hl : l ≤ j) :
    Seen (unit.take j) l numbersFound := by
  have htake : (unit.take j).take l = unit.take l := by rw [List.take_take, min_eq_left hl]
  constructor
  · rw [htake]
    exact h.found
  · rw [htake]
    exact h.unrepeated

lemma Unrepeated.take (h : Unrepeated unit) (j : ℕ) : Unrepeated (unit.take j) :=
  h.sublist (List.take_sublist j unit)

lemma ahead_lookAt (hu : units[k]? = some u) (hseen : Seen u l numbersFound)
    (hl : u[l]? = some e) (hnew : Unrepeated (u.take (l + 1)))
    (hplace : k < i ∨ k = i ∧ l + 1 ≤ j) :
    Ahead units i j (lookAt k u l numbersFound ⟨units, 1, 0⟩ e) := by
  rcases element_cases e with rfl | ⟨d, rfl⟩ | ⟨hzero, hnone⟩
  · rw [lookAt_blank]
    exact ⟨rfl, hu, hseen.blank hl, hplace⟩
  · rw [lookAt_digit]
    split_ifs with hfound
    · have hl' : (u.take (l + 1))[l]? = some ((d.val : ℤ) + 1) := by
        rw [List.getElem?_take_of_lt (Nat.lt_succ_self l), hl]
      exact absurd hnew ((hseen.take (Nat.le_succ l)).repeated hl' hfound)
    · exact ⟨rfl, hu, hseen.fresh hl hfound, hplace⟩
  · rw [lookAt_outside _ hzero hnone]
    trivial

lemma ahead_next (hlength : ∀ u ∈ units, u.length = SUDOKU_DEPTH) (hunit : units[i]? = some unit)
    (hj : unit[j]? = some element) (hnone : element < 0 ∨ 9 < element)
    (hbefore : ∀ u ∈ units.take i, Unrepeated u) (hstart : Unrepeated (unit.take j))
    (h : Ahead units i j w) :
    (∃ index a, w = .outside index a) ∨ ∃ w', w.next = some w' ∧ Ahead units i j w' := by
  have hi := (List.getElem?_eq_some_iff.mp hunit).1
  have hnine := hlength unit (List.mem_of_getElem? hunit)
  have hj9 := (List.getElem?_eq_some_iff.mp hj).1
  cases w with
  | outer k a =>
    obtain ⟨rfl, hk⟩ := h
    right
    have hu := List.getElem?_eq_getElem (hk.trans_lt hi)
    refine ⟨.inner k units[k] 0 (fun _ => 0) ⟨units, 1, 0⟩, ?_, rfl, hu, seen_zero _, ?_⟩
    · simp only [Worker.next, hu]
    · omega
  | inner k u l numbersFound a =>
    obtain ⟨rfl, hu, hseen, hplace⟩ := h
    right
    have hlen := hlength u (List.mem_of_getElem? hu)
    by_cases hl9 : l < SUDOKU_DEPTH
    · have hl := List.getElem?_eq_getElem (hlen.symm ▸ hl9 : l < u.length)
      refine ⟨lookAt k u l numbersFound ⟨units, 1, 0⟩ u[l], ?_, ?_⟩
      · simp only [Worker.next, hl9, if_true, hl]
      rcases hplace with hk | ⟨rfl, hlj⟩
      · have hmem : u ∈ units.take i := by
          rw [← List.getElem?_take_of_lt hk] at hu
          exact List.mem_of_getElem? hu
        exact ahead_lookAt hu hseen hl ((hbefore u hmem).take _) (.inl hk)
      · obtain rfl : u = unit := Option.some.inj (hu.symm.trans hunit)
        rcases hlj.lt_or_eq with hlt | rfl
        · have hnew := hstart.take (l + 1)
          rw [List.take_take, min_eq_left hlt] at hnew
          exact ahead_lookAt hu hseen hl hnew (.inr ⟨rfl, hlt⟩)
        · rw [hj] at hl
          rw [← Option.some.inj hl, lookAt_outside _ (by omega) (by push_cast; omega)]
          trivial
    · refine ⟨.behind k ⟨units, 1, 0⟩, by simp only [Worker.next, hl9, if_false], rfl, ?_⟩
      omega
  | behind k a =>
    obtain ⟨rfl, hk⟩ := h
    right
    exact ⟨.outer (k + 1) ⟨units, 1, 0⟩, rfl, rfl, hk⟩
  | finished a => exact h.elim
  | outside index a => exact .inl ⟨index, a, rfl⟩

end Threads

section Tests

variable {g : Grid} {t : Thread}

lemma exists_outside (h : Reached (unitsOf g t)) :
    ∃ schedule c index a, testRun (allocated g) schedule = some c ∧
      c.state t = .outside index a := by
  obtain ⟨i, unit, j, element, hunit, hj, hnone, hbefore, hstart⟩ := h
  obtain ⟨c, hc, hstate, hcreated⟩ := creates_run isValid (fun _ => false)
    (fun t => .outer 0 (allocated g t)) threads (threads.map .join)
  have hfirst : Ahead (unitsOf g t) i j (c.state t) := by
    rw [hstate]
    exact ⟨allocated_eq g t, Nat.zero_le i⟩
  obtain ⟨n, d, hd, index, a, hout⟩ := alone isValid
    (Q := fun w => ∃ index a, w = .outside index a) Worker.size (fun _ _ => size_next)
    (fun _ => ahead_next (length_unitsOf g t) hunit hj hnone hbefore hstart)
    (hcreated t (.inr (mem_threads t))) hfirst
  refine ⟨List.replicate threads.length .main ++ List.replicate n (.thread t), d, index, a, ?_,
    hout⟩
  rw [testRun, run, List.foldlM_append]
  change Option.bind (List.foldlM (step isValid) (initial (threads.map .create ++
    threads.map .join) _) _) _ = some d
  rw [initial, hc]
  exact hd

/-- The table is respected exactly when no thread reaches a number that is no digit before it finds
a repetition. -/
theorem inBounds_iff (sudokustring : List ℤ) :
    InBounds sudokustring ↔ ∀ t, ¬ Reached (unitsOf (decodeSudokuString sudokustring) t) := by
  constructor
  · intro h t hreached
    obtain ⟨schedule, c, index, a, hrun, hout⟩ := exists_outside hreached
    exact h schedule c hrun t index a hout
  · intro h schedule c hrun t index a hout
    rcases sound_or_reached_run hrun t with hsound | hreached
    · rw [hout] at hsound
      exact hsound
    · exact h t hreached

/-- The first of 81 letters is the 17th entry of the table. -/
theorem inBounds_fails :
    ¬ ∀ sudokustring : List ℤ, sudokustring.length = 81 →
      (∀ ch ∈ sudokustring, 0x21 ≤ ch ∧ ch ≤ 0x7e) → InBounds sudokustring := by
  intro h
  have hreached : Reached (unitsOf (decodeSudokuString (List.replicate 81 0x41)) (.row 0)) := by
    refine ⟨0, _, 0, 17, rfl, rfl, by decide, by simp, ?_⟩
    exact List.Pairwise.nil
  obtain ⟨schedule, c, index, a, hrun, hout⟩ := exists_outside hreached
  have hin : InBounds (List.replicate 81 0x41) := by
    apply h _ List.length_replicate
    intro ch hch
    rw [List.eq_of_mem_replicate hch]
    decide
  exact hin schedule c hrun _ index a hout

end Tests

end Eece315.Sudoku
