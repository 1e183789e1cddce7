import Eece315.SudokuGenerator

/-! The loop that blanks cells is never stuck. A cell that is refused stays marked as used, but
only when its digit was removed eight times already, and as long as cells are wanted there is a
digit that was removed fewer times: one of its cells is neither marked nor blank. -/
namespace Eece315.Sudoku

def drawn (draws : List (ℕ × ℕ)) : List ℕ := draws.flatMap fun draw => [draw.1, draw.2]

def cursor (rand : ℕ) : Fin 9 := Fin.ofNat 9 rand

/-- What the second loop makes of the two numbers of a draw: it goes back to its head with another
cell used, or draws again. -/
def removalStep (count : ℕ) (p : ℕ × Removal) (draw : ℕ × ℕ) : Except Fault (ℕ × Removal) :=
  if p.1 < 81 - count ∧ p.2.usedArray (cursor draw.1) (cursor draw.2) = 0 then
    (takeAway p.2 (cursor draw.1) (cursor draw.2)).map fun r => (p.1 + r.1, r.2)
  else .ok p

def removal (count : ℕ) (S : Grid) (draws : List (ℕ × ℕ)) : Except Fault (ℕ × Removal) :=
  draws.foldlM (removalStep count) (0, ⟨fun _ _ => 0, fun _ => 0, S⟩)

/-- A cell is marked when it is removed, or because its digit was removed eight times. -/
structure Tracked (S : Grid) (i : ℕ) (s : Removal) (removed : Finset (Fin 9 × Fin 9)) : Prop
    extends Removed S i s removed where
  marked : ∀ p d, s.usedArray p.1 p.2 ≠ 0 → p ∉ removed → p ∈ cellsOf S d → 8 ≤ s.countArray d

section Steps

variable {S : Grid} {count i : ℕ} {s : Removal} {removed : Finset (Fin 9 × Fin 9)}

lemma tracked_start (S : Grid) : Tracked S 0 ⟨fun _ _ => 0, fun _ => 0, S⟩ ∅ :=
  ⟨removed_start S, by simp⟩

lemma mem_cellsOf {cursor1 cursor2 d d' : Fin 9} (hd : S cursor1 cursor2 = d + 1) :
    (cursor1, cursor2) ∈ cellsOf S d' ↔ d' = d := by
  simp only [cellsOf, Finset.mem_filter, Finset.mem_univ, true_and, hd, Fin.ext_iff]
  omega

lemma Tracked.mark (h : Tracked S i s removed) {cursor1 cursor2 d : Fin 9}
    (hd : S cursor1 cursor2 = d + 1) (hquota : 8 ≤ s.countArray d) :
    Tracked S i (s.mark cursor1 cursor2) removed := by
  refine ⟨h.toRemoved.mark cursor1 cursor2, ?_⟩
  intro p d' hused hnot hp
  rw [Removal.mark_used] at hused
  rw [Removal.mark_countArray]
  split_ifs at hused with hcell
  · subst hcell
    rwa [(mem_cellsOf hd).mp hp]
  · exact h.marked p d' hused hnot hp

lemma Tracked.insert (h : Tracked S i s removed) {cursor1 cursor2 d : Fin 9}
    (hremoved : Removed S (i + 1) ((s.mark cursor1 cursor2).blank cursor1 cursor2 d)
      (insert (cursor1, cursor2) removed)) :
    Tracked S (i + 1) ((s.mark cursor1 cursor2).blank cursor1 cursor2 d)
      (insert (cursor1, cursor2) removed) := by
  refine ⟨hremoved, ?_⟩
  intro p d' hused hnot hp
  rw [Finset.mem_insert, not_or] at hnot
  rw [Removal.blank_usedArray, Removal.mark_used, if_neg hnot.1] at hused
  have height := h.marked p d' hused hnot.2 hp
  rw [Removal.blank_countArray, Removal.mark_countArray, Function.update_apply]
  split_ifs with hd'
  · rw [hd'] at height
    omega
  · exact height

lemma removalStep_spec (hS : Solution S) (count : ℕ) (h : Tracked S i s removed)
    (draw : ℕ × ℕ) :
    ∃ i' s' removed', removalStep count (i, s) draw = .ok (i', s') ∧ i ≤ i' ∧
      Tracked S i' s' removed' := by
  by_cases hlooks : i < 81 - count ∧ s.usedArray (cursor draw.1) (cursor draw.2) = 0
  · rw [removalStep, if_pos hlooks]
    obtain ⟨d, hd, -, ⟨hquota, htake, -⟩ | ⟨-, htake, hremoved⟩⟩ :=
      takeAway_cases hS h.toRemoved hlooks.2
    · rw [htake]
      exact ⟨i, _, removed, rfl, le_rfl, h.mark hd hquota⟩
    · rw [htake]
      exact ⟨i + 1, _, _, rfl, Nat.le_succ i, h.insert hremoved⟩
  · exact ⟨i, s, removed, if_neg hlooks, le_rfl, h⟩

lemma Tracked.exists_quota (h : Tracked S i s removed) (h9 : 9 ≤ count) (hi : i < 81 - count) :
    ∃ d, s.countArray d < 8 := by
  by_contra! hall
  have hdisjoint : ∀ d ∈ Finset.univ, ∀ d' ∈ Finset.univ, d ≠ d' →
      Disjoint (removed ∩ cellsOf S d) (removed ∩ cellsOf S d') := by
    intro d _ d' _ hne
    rw [Finset.disjoint_left]
    intro p hp hp'
    have hd : S p.1 p.2 = d + 1 := by simpa [cellsOf] using (Finset.mem_inter.mp hp).2
    exact hne ((mem_cellsOf hd).mp (Finset.mem_inter.mp hp').2).symm
  have hsum : 72 ≤ ∑ d, (removed ∩ cellsOf S d).card := by
    have height : ∀ d ∈ Finset.univ, 8 ≤ (removed ∩ cellsOf S d).card := by
      intro d _
      have hd := hall d
      rw [h.count] at hd
      exact_mod_cast hd
    exact (Finset.card_nsmul_le_sum Finset.univ _ 8 height)
  have hcard : ∑ d, (removed ∩ cellsOf S d).card ≤ removed.card := by
    rw [← Finset.card_biUnion hdisjoint]
    apply Finset.card_le_card
    exact Finset.biUnion_subset.mpr fun d _ => Finset.inter_subset_left
  rw [h.card] at hcard
  omega

lemma Tracked.exists_unused (hS : Solution S) (h : Tracked S i s removed) {d : Fin 9}
    (hquota : s.countArray d < 8) : ∃ p ∈ cellsOf S d, p ∉ removed ∧ s.usedArray p.1 p.2 = 0 := by
  have hnine := hS.nine_le_card d
  have hcount := h.count d
  obtain ⟨p, hp, hnot⟩ : ∃ p ∈ cellsOf S d, p ∉ removed := by
    by_contra! hall
    rw [Finset.inter_eq_right.mpr hall] at hcount
    omega
  refine ⟨p, hp, hnot, ?_⟩
  by_contra hused
  have height := h.marked p d hused hnot hp
  omega

lemma Tracked.progress (hS : Solution S) (h : Tracked S i s removed) (h9 : 9 ≤ count)
    (hi : i < 81 - count) :
    ∃ cursor1 cursor2 d : Fin 9, s.usedArray cursor1 cursor2 = 0 ∧
      s.sudokuarray cursor1 cursor2 = d + 1 ∧ s.countArray d < 8 ∧
      ∃ s', removalStep count (i, s) (cursor1, cursor2) = .ok (i + 1, s') := by
  obtain ⟨d, hquota⟩ := h.exists_quota h9 hi
  obtain ⟨p, hp, hnot, hunused⟩ := h.exists_unused hS hquota
  have hd : S p.1 p.2 = d + 1 := by simpa [cellsOf] using hp
  have hcell : s.sudokuarray p.1 p.2 = d + 1 := by rw [h.grid, blanked, if_neg hnot, hd]
  have hcursor (c : Fin 9) : cursor c = c := Fin.ext (Nat.mod_eq_of_lt c.isLt)
  refine ⟨p.1, p.2, d, hunused, hcell, hquota,
    (s.mark p.1 p.2).blank p.1 p.2 d, ?_⟩
  have hlooks : i < 81 - count ∧ s.usedArray (cursor p.1) (cursor p.2) = 0 := by
    rw [hcursor, hcursor]
    exact ⟨hi, hunused⟩
  rw [removalStep, if_pos hlooks, hcursor, hcursor, takeAway_digit hcell,
    if_neg (not_le.mpr hquota)]
  rfl

lemma removeCells_step {i' : ℕ} {s' : Removal} {draw : ℕ × ℕ} (hi : i < 81 - count)
    (hstep : removalStep count (i, s) draw = .ok (i', s')) (more : List ℕ) :
    removeCells count i s (draw.1 :: draw.2 :: more) = removeCells count i' s' more := by
  rw [removeCells, if_pos hi]
  by_cases hunused : s.usedArray (cursor draw.1) (cursor draw.2) = 0
  · rw [removalStep, if_pos ⟨hi, hunused⟩] at hstep
    cases htake : takeAway s (cursor draw.1) (cursor draw.2) with
    | error fault =>
      rw [htake] at hstep
      cases hstep
    | ok r =>
      rw [htake] at hstep
      cases hstep
      simp only [cursor, Fin.ofNat] at hunused htake
      simp only [hunused, htake, ne_eq, not_true_eq_false, if_false]
  · rw [removalStep, if_neg fun h => hunused h.2] at hstep
    cases hstep
    exact if_pos hunused

lemma Tracked.card_zero (hS : Solution S) (h : Tracked S i s removed) :
    i = (Finset.univ.filter fun p : Fin 9 × Fin 9 => s.sudokuarray p.1 p.2 = 0).card := by
  rw [← h.card, h.grid]
  congr 1
  ext p
  simp [blanked_eq_zero_iff hS p]

lemma Tracked.completes (hS : Solution S) (h : Tracked S i s removed) (h9 : 9 ≤ count)
    (hi : i ≤ 81 - count) :
    ∃ more s' removed', removeCells count i s more = .ok (s', []) ∧
      Tracked S (81 - count) s' removed' := by
  induction hleft : 81 - count - i generalizing i s removed with
  | zero =>
    have heq : i = 81 - count := by omega
    have hnot : ¬ i < 81 - count := by omega
    exact ⟨[], s, removed, by simp only [removeCells, if_neg hnot], heq ▸ h⟩
  | succ left ih =>
    have hlt : i < 81 - count := by omega
    obtain ⟨cursor1, cursor2, -, -, -, -, s₁, hstep⟩ := h.progress hS h9 hlt
    obtain ⟨i₂, s₂, removed₂, hstep₂, -, h₂⟩ := removalStep_spec hS count h (cursor1, cursor2)
    rw [hstep] at hstep₂
    cases hstep₂
    obtain ⟨more, s', removed', hrest, h'⟩ := ih h₂ (by omega) (by omega)
    refine ⟨(cursor1 : ℕ) :: (cursor2 : ℕ) :: more, s', removed', ?_, h'⟩
    rw [← hrest]
    exact removeCells_step hlt hstep more

end Steps

section Runs

variable {S : Grid} {count : ℕ}

lemma removal_append (count : ℕ) (S : Grid) (draws : List (ℕ × ℕ)) (draw : ℕ × ℕ) :
    removal count S (draws ++ [draw]) =
      (removal count S draws).bind fun p => removalStep count p draw := by
  rw [removal, List.foldlM_append]
  simp only [List.foldlM_cons, List.foldlM_nil, bind_pure]
  rfl

lemma removal_spec (hS : Solution S) (count : ℕ) (draws : List (ℕ × ℕ)) :
    ∃ i s removed, removal count S draws = .ok (i, s) ∧ Tracked S i s removed ∧
      (i < 81 - count → ∀ more,
        removeCells count 0 ⟨fun _ _ => 0, fun _ => 0, S⟩ (drawn draws ++ more) =
          removeCells count i s more) := by
  induction draws using List.reverseRecOn with
  | nil => exact ⟨0, _, ∅, rfl, tracked_start S, fun _ _ => rfl⟩
  | append_singleton draws draw ih =>
    obtain ⟨i, s, removed, hrun, htracked, hsource⟩ := ih
    obtain ⟨i', s', removed', hstep, hle, htracked'⟩ := removalStep_spec hS count htracked draw
    refine ⟨i', s', removed', ?_, htracked', ?_⟩
    · rw [removal_append, hrun]
      exact hstep
    · intro hi' more
      have hi : i < 81 - count := by omega
      have hdrawn : drawn (draws ++ [draw]) ++ more =
          drawn draws ++ (draw.1 :: draw.2 :: more) := by
        simp [drawn]
      rw [hdrawn, hsource hi, removeCells_step hi hstep]

/-- Wherever the loop is while it wants cells, some cell is unused and its digit was removed fewer
than eight times, drawing it makes `i` grow, and some draws bring the loop to its end with all the
cells blank that it wants; `i` is the number of blank cells. -/
theorem removal_never_stuck (h9 : 9 ≤ count) {rands rest : List ℕ}
    (hshuffle : shuffle count 0 (decodeSudokuString seed) rands = .ok (S, rest))
    (draws : List (ℕ × ℕ)) :
    ∃ i s, removal count S draws = .ok (i, s) ∧
      i = (Finset.univ.filter fun p : Fin 9 × Fin 9 => s.sudokuarray p.1 p.2 = 0).card ∧
      (i < 81 - count →
        (∀ more, removeCells count 0 ⟨fun _ _ => 0, fun _ => 0, S⟩ (drawn draws ++ more) =
          removeCells count i s more) ∧
        ∃ cursor1 cursor2 d : Fin 9, s.usedArray cursor1 cursor2 = 0 ∧
          s.sudokuarray cursor1 cursor2 = d + 1 ∧ s.countArray d < 8 ∧
          (∃ s', removalStep count (i, s) (cursor1, cursor2) = .ok (i + 1, s')) ∧
        ∃ more s', removeCells count 0 ⟨fun _ _ => 0, fun _ => 0, S⟩ (drawn draws ++ more) =
            .ok (s', []) ∧
          (Finset.univ.filter fun p : Fin 9 × Fin 9 => s'.sudokuarray p.1 p.2 = 0).card =
            81 - count) := by
  have hS : Solution S := by
    rcases shuffle_spec (by omega : count ≠ 0) 0 seed_solution rands with
      hstarved | ⟨S', rest', hok, hS'⟩
    · rw [hshuffle] at hstarved
      cases hstarved
    · rw [hshuffle] at hok
      cases hok
      exact hS'
  obtain ⟨i, s, removed, hrun, htracked, hsource⟩ := removal_spec hS count draws
  refine ⟨i, s, hrun, htracked.card_zero hS, fun hi => ⟨hsource hi, ?_⟩⟩
  obtain ⟨cursor1, cursor2, d, hunused, hcell, hquota, hgrows⟩ := htracked.progress hS h9 hi
  obtain ⟨more, s', removed', hends, htracked'⟩ := htracked.completes hS h9 hi.le
  exact ⟨cursor1, cursor2, d, hunused, hcell, hquota, hgrows, more, s',
    (hsource hi more).trans hends, (htracked'.card_zero hS).symm⟩

/-- Two cells are blank after three draws, one of them of a used cell, and nine are in the end. -/
theorem removal_never_stuck_demo :
    ∃ more s', removeCells 72 0 ⟨fun _ _ => 0, fun _ => 0, decodeSudokuString seed⟩
        (drawn [(10, 5), (1, 14), (3, 3)] ++ more) = .ok (s', []) ∧
      (Finset.univ.filter fun p : Fin 9 × Fin 9 => s'.sudokuarray p.1 p.2 = 0).card = 9 := by
  have hshuffle : shuffle 72 0 (decodeSudokuString seed) [144] =
      .ok (decodeSudokuString seed, []) := rfl
  obtain ⟨i, s, hrun, -, hprogress⟩ := removal_never_stuck (by decide : 9 ≤ 72) hshuffle
    [(10, 5), (1, 14), (3, 3)]
  have hi : (removal 72 (decodeSudokuString seed) [(10, 5), (1, 14), (3, 3)]).toOption.map
      Prod.fst = some 2 := by decide +kernel
  rw [hrun] at hi
  have hi : i = 2 := Option.some.inj hi
  obtain ⟨-, -, -, -, -, -, -, -, hends⟩ := hprogress (by omega)
  exact hends

end Runs

end Eece315.Sudoku
