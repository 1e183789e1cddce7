import Mathlib

/-! A sudoku grid and its rows, columns and blocks. The grid is free of conflicts if no two cells
of a row, a column or a block hold the same digit; the copies of the rows, columns and blocks are
free of repeated digits exactly then. -/
namespace Eece315.Sudoku

abbrev Grid := Fin 9 → Fin 9 → ℤ

/-- The grid of a string of digits, row by row. -/
def decodeSudokuString (sudokustring : List ℤ) : Grid :=
  fun i j => sudokustring.getD (i * 9 + j) 0 - 0x30

def copyOfRow (sudokuarray : Grid) (row : Fin 9) : List ℤ :=
  (List.finRange 9).map fun i => sudokuarray row i

def copyOfColumn (sudokuarray : Grid) (column : Fin 9) : List ℤ :=
  (List.finRange 9).map fun i => sudokuarray i column

def copyOfBlock (sudokuarray : Grid) (blocknumber : Fin 9) : List ℤ :=
  let verticalPos := blocknumber.val / 3 * 3
  let horizontalPos := blocknumber.val % 3 * 3
  (List.finRange 3).flatMap fun j : Fin 3 => (List.finRange 3).map fun k : Fin 3 =>
    sudokuarray ⟨verticalPos + j, by omega⟩ ⟨horizontalPos + k, by omega⟩

/-- The two cells lie in one row, one column or one block. -/
def SameUnit (p q : Fin 9 × Fin 9) : Prop :=
  p.1 = q.1 ∨ p.2 = q.2 ∨ p.1.val / 3 = q.1.val / 3 ∧ p.2.val / 3 = q.2.val / 3

instance (p q : Fin 9 × Fin 9) : Decidable (SameUnit p q) := inferInstanceAs (Decidable (_ ∨ _))

/-- No row, no column and no block holds one of the digits 1 to 9 twice. -/
def ConflictFree (g : Grid) : Prop :=
  ∀ p q, p ≠ q → SameUnit p q → ∀ d : ℤ, 1 ≤ d → d ≤ 9 → ¬ (g p.1 p.2 = d ∧ g q.1 q.2 = d)

/-- The cells are blank or hold a digit. -/
def Digits (g : Grid) : Prop := ∀ i j, 0 ≤ g i j ∧ g i j ≤ 9

/-- Nothing but blanks is repeated. -/
def Unrepeated (u : List ℤ) : Prop := u.Pairwise fun a b => a = b → a = 0

instance (u : List ℤ) : Decidable (Unrepeated u) := inferInstanceAs (Decidable (u.Pairwise _))

lemma unrepeated_append_singleton (u : List ℤ) (e : ℤ) :
    Unrepeated (u ++ [e]) ↔ Unrepeated u ∧ ∀ a ∈ u, a = e → a = 0 := by
  simp [Unrepeated, List.pairwise_append]

section Units

variable {g : Grid}

lemma unrepeated_ofFn {f : Fin 9 → ℤ} :
    Unrepeated (List.ofFn f) ↔ ∀ k l, k ≠ l → f k = f l → f k = 0 := by
  rw [Unrepeated, List.pairwise_ofFn]
  constructor
  · intro h k l hkl heq
    rcases lt_or_gt_of_ne hkl with hlt | hgt
    · exact h hlt heq
    · exact heq.trans (h hgt heq.symm)
  · intro h k l hlt
    exact h k l hlt.ne

lemma copyOfRow_eq (g : Grid) (row : Fin 9) : copyOfRow g row = List.ofFn fun k => g row k := rfl

lemma copyOfColumn_eq (g : Grid) (column : Fin 9) :
    copyOfColumn g column = List.ofFn fun k => g k column := rfl

def blockCell (blocknumber k : Fin 9) : Fin 9 × Fin 9 :=
  (⟨blocknumber.val / 3 * 3 + k.val / 3, by omega⟩, ⟨blocknumber.val % 3 * 3 + k.val % 3, by omega⟩)

lemma copyOfBlock_eq (g : Grid) (blocknumber : Fin 9) : copyOfBlock g blocknumber =
    List.ofFn fun k => g (blockCell blocknumber k).1 (blockCell blocknumber k).2 := rfl

lemma exists_blockCell {p q : Fin 9 × Fin 9}
    (h : p.1.val / 3 = q.1.val / 3 ∧ p.2.val / 3 = q.2.val / 3) :
    ∃ b k l, blockCell b k = p ∧ blockCell b l = q := by
  refine ⟨⟨p.1.val / 3 * 3 + p.2.val / 3, by omega⟩, ⟨p.1.val % 3 * 3 + p.2.val % 3, by omega⟩,
    ⟨q.1.val % 3 * 3 + q.2.val % 3, by omega⟩, ?_, ?_⟩ <;>
    refine Prod.ext (Fin.ext ?_) (Fin.ext ?_) <;> simp only [blockCell] <;> omega

lemma blockCell_injective (b : Fin 9) : Function.Injective (blockCell b) := by
  intro k l h
  have h₁ := congrArg (fun p : Fin 9 × Fin 9 => p.1.val) h
  have h₂ := congrArg (fun p : Fin 9 × Fin 9 => p.2.val) h
  simp only [blockCell] at h₁ h₂
  exact Fin.ext (by omega)

lemma sameUnit_blockCell (b k l : Fin 9) : SameUnit (blockCell b k) (blockCell b l) := by
  refine .inr (.inr ⟨?_, ?_⟩) <;> simp only [blockCell] <;> omega

lemma conflictFree_iff (hg : Digits g) : ConflictFree g ↔
    ∀ p q, p ≠ q → SameUnit p q → g p.1 p.2 = g q.1 q.2 → g p.1 p.2 = 0 := by
  refine forall₄_congr fun p q _ _ => ?_
  have hp := hg p.1 p.2
  constructor
  · intro h heq
    by_contra hne
    exact h (g p.1 p.2) (by omega) hp.2 ⟨rfl, heq.symm⟩
  · rintro h d hd - ⟨hpd, hqd⟩
    have hzero := h (hpd.trans hqd.symm)
    omega

theorem conflictFree_iff_unrepeated (hg : Digits g) : ConflictFree g ↔
    ∀ i, Unrepeated (copyOfRow g i) ∧ Unrepeated (copyOfColumn g i) ∧
      Unrepeated (copyOfBlock g i) := by
  simp only [copyOfRow_eq, copyOfColumn_eq, copyOfBlock_eq, unrepeated_ofFn, conflictFree_iff hg]
  constructor
  · intro h i
    refine ⟨fun k l hkl => ?_, fun k l hkl => ?_, fun k l hkl => ?_⟩
    · exact h (i, k) (i, l) (by simpa using hkl) (.inl rfl)
    · exact h (k, i) (l, i) (by simpa using hkl) (.inr (.inl rfl))
    · exact h _ _ ((blockCell_injective i).ne hkl) (sameUnit_blockCell i k l)
  · rintro h ⟨i, j⟩ ⟨i', j'⟩ hne hunit
    rcases hunit with hrow | hcolumn | hblock
    · obtain rfl : i = i' := hrow
      exact (h i).1 j j' (by simpa using hne)
    · obtain rfl : j = j' := hcolumn
      exact (h j).2.1 i i' (by simpa using hne)
    · obtain ⟨b, k, l, hk, hl⟩ := exists_blockCell hblock
      have hkl : k ≠ l := by
        rintro rfl
        exact hne (hk.symm.trans hl)
      simpa [hk, hl] using (h b).2.2 k l hkl

lemma ConflictFree.comp (h : ConflictFree g) (place : Fin 9 × Fin 9 → Fin 9 × Fin 9)
    (hinj : Function.Injective place)
    (hunit : ∀ p q, SameUnit p q → SameUnit (place p) (place q)) :
    ConflictFree fun i j => g (place (i, j)).1 (place (i, j)).2 :=
  fun p q hne hpq => h (place p) (place q) (hinj.ne hne) (hunit p q hpq)

end Units

end Eece315.Sudoku
