import Eece315.SudokuGenerator

/-! Turning a grid and swapping rows within its bands. Both can be undone, and what undoes them
keeps the grid free of conflicts as well, so that they take invalid grids to invalid grids: the
checker gives the same verdict before and after. -/
namespace Eece315.Sudoku
open ForkJoin

/-- Every test of the grid comes to its end, and there its result is `verdict`. -/
def Verdict (g : Grid) (verdict : ℤ) : Prop :=
  ∀ schedule c, testRun (allocated (decodeSudokuString (encode g))) schedule = some c →
    schedule.length ≤ 351 ∧
    (c.pending ≠ [] → ∃ e d, step isValid c e = some d) ∧
    (c.pending = [] → testSudokuString (encode g) schedule = some verdict)

section Transformations

variable {g : Grid}

lemma testSudokuString_encode (g : Grid) (schedule : List (Event Thread)) :
    testSudokuString (encode g) schedule = testNumberArrays (allocated g) schedule := by
  rw [testSudokuString, length_encode, decode_encode]
  rfl

lemma verdict_of_conflictFree (hg : Digits g) (hfree : ConflictFree g) : Verdict g 1 :=
  accepted_encode hg hfree

lemma verdict_of_conflict (hg : Digits g) (hconflict : ¬ ConflictFree g) : Verdict g 0 := by
  intro schedule c h
  rw [decode_encode] at h
  rw [testSudokuString_encode]
  refine ⟨length_test h, progress_test hg h, ?_⟩
  intro hpending
  rcases result_test hg h hpending with ⟨-, hfree⟩ | ⟨hresult, -⟩
  · exact absurd hfree hconflict
  · exact hresult

lemma common_verdict {g₁ g₂ g₃ : Grid} (h₁ : Digits g₁) (h₂ : Digits g₂) (h₃ : Digits g₃)
    (h₁₂ : ConflictFree g₂ ↔ ConflictFree g₁) (h₁₃ : ConflictFree g₃ ↔ ConflictFree g₁) :
    ∃ verdict, Verdict g₁ verdict ∧ Verdict g₂ verdict ∧ Verdict g₃ verdict := by
  by_cases hfree : ConflictFree g₁
  · refine ⟨1, verdict_of_conflictFree h₁ hfree, verdict_of_conflictFree h₂ ?_,
      verdict_of_conflictFree h₃ ?_⟩
    · exact h₁₂.mpr hfree
    · exact h₁₃.mpr hfree
  · refine ⟨0, verdict_of_conflict h₁ hfree, verdict_of_conflict h₂ ?_,
      verdict_of_conflict h₃ ?_⟩
    · exact mt h₁₂.mp hfree
    · exact mt h₁₃.mp hfree

lemma Digits.rotateArray (hg : Digits g) : Digits (rotateArray g) := fun _ _ => hg _ _

lemma Digits.swapBand (hg : Digits g) (band : Fin 3) (rand₁ rand₂ : ℕ) :
    Digits (swapBand g band rand₁ rand₂) := by
  obtain ⟨row, -, -, heq⟩ := swapBand_eq band rand₁ rand₂
  rw [heq]
  exact fun _ _ => hg _ _

lemma rotateArray_four (g : Grid) :
    rotateArray (rotateArray (rotateArray (rotateArray g))) = g := by
  have hback (k : Fin 9) : (⟨9 - 1 - (9 - 1 - k.val), by omega⟩ : Fin 9) = k := by
    apply Fin.ext
    simp only
    omega
  funext i j
  simp only [rotateArray, hback]

lemma conflictFree_rotateArray : ConflictFree (rotateArray g) ↔ ConflictFree g := by
  constructor
  · intro h
    rw [← rotateArray_four g]
    exact h.rotateArray.rotateArray.rotateArray
  · exact ConflictFree.rotateArray

lemma conflictFree_swapBand (band : Fin 3) (rand₁ rand₂ : ℕ) :
    ConflictFree (swapBand g band rand₁ rand₂) ↔ ConflictFree g := by
  constructor
  · intro h
    have hback : swapBand (swapBand g band rand₁ rand₂) band rand₁ rand₂ = g := by
      obtain ⟨row, hrow, -, heq⟩ := swapBand_eq band rand₁ rand₂
      simp only [heq, hrow]
    rw [← hback]
    exact h.swapBand band rand₁ rand₂
  · intro h
    exact h.swapBand band rand₁ rand₂

/-- A turn and a swap of rows change nothing about the verdict, and four turns nothing at all. -/
theorem verdict_preserved (hg : Digits g) (rand₁ rand₂ rand₃ rand₄ rand₅ rand₆ : ℕ) :
    (∃ verdict, Verdict g verdict ∧ Verdict (rotateArray g) verdict ∧
      Verdict (swapRows g rand₁ rand₂ rand₃ rand₄ rand₅ rand₆) verdict) ∧
    rotateArray (rotateArray (rotateArray (rotateArray g))) = g := by
  have hswap : Digits (swapRows g rand₁ rand₂ rand₃ rand₄ rand₅ rand₆) :=
    ((hg.swapBand 0 rand₁ rand₂).swapBand 1 rand₃ rand₄).swapBand 2 rand₅ rand₆
  have hfree : ConflictFree (swapRows g rand₁ rand₂ rand₃ rand₄ rand₅ rand₆) ↔
      ConflictFree g := by
    rw [swapRows, conflictFree_swapBand, conflictFree_swapBand, conflictFree_swapBand]
  constructor
  · exact common_verdict hg hg.rotateArray hswap conflictFree_rotateArray hfree
  · exact rotateArray_four g

theorem verdict_preserved_demo :
    let g : Grid := fun i j => (3 * i + i / 3 + j : ℕ) % 9 + 1
    rotateArray g ≠ g ∧ swapRows g 0 1 5 5 2 1 ≠ g ∧
    ∃ verdict, Verdict g verdict ∧ Verdict (rotateArray g) verdict ∧
      Verdict (swapRows g 0 1 5 5 2 1) verdict := by
  intro g
  refine ⟨fun h => ?_, fun h => ?_, (verdict_preserved (fun i j => ?_) 0 1 5 5 2 1).1⟩
  · exact absurd (congrFun₂ h 0 0) (by decide)
  · exact absurd (congrFun₂ h 0 0) (by decide)
  · revert i j
    decide

end Transformations

end Eece315.Sudoku
