import Mathlib
import Eece315.SudokuChecker

/-! The sudoku generator. Rows change places within their bands and the grid is turned, so that a
solution stays a solution; then cells are blanked, no digit more than eight times, until the
required number is left. The results of `rand()` come from a list, and a generator that is still
drawing at its end is starved: the loops end on a sequence if they end on one of its beginnings. -/
namespace Eece315.Sudoku

open ForkJoin

inductive Fault
  | starved
  | divideByZero
  | index (k : ℤ)
  deriving DecidableEq, Repr

def rotateArray (array : Grid) : Grid := fun i j => array ⟨9 - 1 - j, by omega⟩ i

/-- One round of the loop in `swapRows`, over the band of rows from `i = 3 * band`. -/
def swapBand (array : Grid) (band : Fin 3) (rand₁ rand₂ : ℕ) : Grid :=
  let cursor1 : Fin 9 := ⟨3 * band + rand₁ % 3, by omega⟩
  let cursor2 : Fin 9 := ⟨3 * band + rand₂ % 3, by omega⟩
  let tempLine := array cursor1
  Function.update (Function.update array cursor1 (array cursor2)) cursor2 tempLine

def swapRows (array : Grid) (rand₁ rand₂ rand₃ rand₄ rand₅ rand₆ : ℕ) : Grid :=
  swapBand (swapBand (swapBand array 0 rand₁ rand₂) 1 rand₃ rand₄) 2 rand₅ rand₆

/-- The first loop, whose bound is drawn anew in every round. -/
def shuffle (count : ℕ) : ℕ → Grid → List ℕ → Except Fault (Grid × List ℕ)
  | _, _, [] => .error .starved
  | i, sudokuarray, rand :: rands =>
    if count = 0 then .error .divideByZero
    else if i < rand % count then
      match rands with
      | rand₁ :: rand₂ :: rand₃ :: rand₄ :: rand₅ :: rand₆ :: rands =>
        shuffle count (i + 1)
          (rotateArray (swapRows sudokuarray rand₁ rand₂ rand₃ rand₄ rand₅ rand₆)) rands
      | _ => .error .starved
    else .ok (sudokuarray, rands)

structure Removal where
  usedArray : Fin 9 → Fin 9 → ℤ
  countArray : Fin 9 → ℤ
  sudokuarray : Grid

def Removal.mark (s : Removal) (cursor1 cursor2 : Fin 9) : Removal :=
  { s with usedArray :=
      Function.update s.usedArray cursor1 (Function.update (s.usedArray cursor1) cursor2 1) }

def Removal.blank (s : Removal) (cursor1 cursor2 digit : Fin 9) : Removal :=
  { s with
    countArray := Function.update s.countArray digit (s.countArray digit + 1)
    sudokuarray := Function.update s.sudokuarray cursor1
      (Function.update (s.sudokuarray cursor1) cursor2 0) }

/-- The body of the second loop on an unused cell, and by how much `i` grows. -/
def takeAway (s : Removal) (cursor1 cursor2 : Fin 9) : Except Fault (ℕ × Removal) :=
  let s := s.mark cursor1 cursor2
  let index := s.sudokuarray cursor1 cursor2 - 1
  if h : 0 ≤ index ∧ index < 9 then
    let digit : Fin 9 := ⟨index.toNat, by omega⟩
    if s.countArray digit ≥ 8 then .ok (0, s)
    else .ok (1, s.blank cursor1 cursor2 digit)
  else .error (.index index)

/-- The second loop; the cursors are drawn again while they are at a used cell. -/
def removeCells (count : ℕ) (i : ℕ) (s : Removal) (rands : List ℕ) :
    Except Fault (Removal × List ℕ) :=
  if i < 81 - count then
    match rands with
    | rand₁ :: rand₂ :: rands =>
      let cursor1 : Fin 9 := ⟨rand₁ % 9, by omega⟩
      let cursor2 : Fin 9 := ⟨rand₂ % 9, by omega⟩
      if s.usedArray cursor1 cursor2 ≠ 0 then removeCells count i s rands
      else
        match takeAway s cursor1 cursor2 with
        | .ok (k, s) => removeCells count (i + k) s rands
        | .error fault => .error fault
    | _ => .error .starved
  else .ok (s, rands)

def seed : List ℤ :=
  "123567894456189237789234156214356789365798412897412365532641978648973521971825643".toList.map
    fun ch => (ch.toNat : ℤ)

def encode (sudokuarray : Grid) : List ℤ :=
  (List.finRange 9).flatMap fun i => (List.finRange 9).map fun j => 0x30 + sudokuarray i j

structure Puzzle where
  sudokuarray : Grid
  sudokustring : List ℤ

/-- The puzzle that is printed and then tested. -/
def generateSudokuPuzzle (count : ℕ) (rands : List ℕ) : Except Fault Puzzle := do
  let (sudokuarray, rands) ← shuffle count 0 (decodeSudokuString seed) rands
  let (s, _) ← removeCells count 0 ⟨fun _ _ => 0, fun _ => 0, sudokuarray⟩ rands
  return ⟨s.sudokuarray, encode s.sudokuarray⟩

structure Solution (g : Grid) : Prop where
  digits : ∀ i j, 1 ≤ g i j ∧ g i j ≤ 9
  conflictFree : ConflictFree g

lemma seed_solution : Solution (decodeSudokuString seed) := by
  have hdigits : ∀ i j, 1 ≤ decodeSudokuString seed i j ∧ decodeSudokuString seed i j ≤ 9 := by
    decide
  refine ⟨hdigits, (conflictFree_iff_unrepeated fun i j => ?_).mpr (by decide)⟩
  exact ⟨by have := (hdigits i j).1; omega, (hdigits i j).2⟩

section Solutions

variable {g S : Grid}

def turned (p : Fin 9 × Fin 9) : Fin 9 × Fin 9 := (⟨9 - 1 - p.2, by omega⟩, p.1)

lemma turned_injective : Function.Injective turned := by
  intro p q h
  have h₁ := congrArg (fun r : Fin 9 × Fin 9 => r.1.val) h
  have h₂ : p.1 = q.1 := congrArg Prod.snd h
  simp only [turned] at h₁
  exact Prod.ext h₂ (Fin.ext (by omega))

lemma sameUnit_turned {p q : Fin 9 × Fin 9} (h : SameUnit p q) :
    SameUnit (turned p) (turned q) := by
  rcases h with hrow | hcolumn | ⟨hrow, hcolumn⟩
  · exact .inr (.inl hrow)
  · exact .inl (by simp [turned, hcolumn])
  · refine .inr (.inr ⟨?_, hrow⟩)
    simp only [turned]
    omega

lemma ConflictFree.rotateArray (h : ConflictFree g) : ConflictFree (rotateArray g) :=
  h.comp turned turned_injective fun _ _ => sameUnit_turned

lemma Solution.rotateArray (h : Solution g) : Solution (rotateArray g) :=
  ⟨fun _ _ => h.digits _ _, h.conflictFree.rotateArray⟩

lemma swapBand_eq (band : Fin 3) (rand₁ rand₂ : ℕ) :
    ∃ row : Equiv.Perm (Fin 9), (∀ i, row (row i) = i) ∧ (∀ i, (row i).val / 3 = i.val / 3) ∧
      ∀ g, swapBand g band rand₁ rand₂ = fun i => g (row i) := by
  let cursor1 : Fin 9 := ⟨3 * band + rand₁ % 3, by omega⟩
  let cursor2 : Fin 9 := ⟨3 * band + rand₂ % 3, by omega⟩
  have hband : cursor1.val / 3 = cursor2.val / 3 := by
    simp only [cursor1, cursor2]
    omega
  refine ⟨Equiv.swap cursor1 cursor2, Equiv.swap_apply_self cursor1 cursor2, ?_, ?_⟩
  · intro i
    rw [Equiv.swap_apply_def]
    split_ifs with h₁ h₂
    · rw [h₁, hband]
    · rw [h₂, hband]
    · rfl
  · intro g
    funext i
    simp only [swapBand]
    rw [Equiv.swap_apply_def]
    simp only [Function.update_apply]
    split_ifs <;> simp_all [cursor1, cursor2]

lemma ConflictFree.swapBand (h : ConflictFree g) (band : Fin 3) (rand₁ rand₂ : ℕ) :
    ConflictFree (swapBand g band rand₁ rand₂) := by
  obtain ⟨row, -, hrows, heq⟩ := swapBand_eq band rand₁ rand₂
  rw [heq]
  apply h.comp fun p => (row p.1, p.2)
  · exact Function.Injective.prodMap (Equiv.injective _) Function.injective_id
  · rintro p q (hrow | hcolumn | ⟨hrow, hcolumn⟩)
    · exact .inl (congrArg row hrow)
    · exact .inr (.inl hcolumn)
    · exact .inr (.inr ⟨by rw [hrows, hrows, hrow], hcolumn⟩)

lemma Solution.swapBand (h : Solution g) (band : Fin 3) (rand₁ rand₂ : ℕ) :
    Solution (swapBand g band rand₁ rand₂) := by
  refine ⟨?_, h.conflictFree.swapBand band rand₁ rand₂⟩
  obtain ⟨row, -, -, heq⟩ := swapBand_eq band rand₁ rand₂
  rw [heq]
  exact fun _ _ => h.digits _ _

lemma Solution.swapRows (h : Solution g) (rand₁ rand₂ rand₃ rand₄ rand₅ rand₆ : ℕ) :
    Solution (swapRows g rand₁ rand₂ rand₃ rand₄ rand₅ rand₆) :=
  ((h.swapBand 0 rand₁ rand₂).swapBand 1 rand₃ rand₄).swapBand 2 rand₅ rand₆

lemma shuffle_spec {count : ℕ} (hcount : count ≠ 0) (i : ℕ) (h : Solution g) (rands : List ℕ) :
    shuffle count i g rands = .error .starved ∨
      ∃ S rest, shuffle count i g rands = .ok (S, rest) ∧ Solution S := by
  fun_induction shuffle count i g rands with
  | case1 => exact .inl rfl
  | case2 _ _ _ _ hzero => exact absurd hzero hcount
  | case3 _ _ _ _ _ _ _ _ _ _ _ _ ih => exact ih (h.swapRows ..).rotateArray
  | case4 => exact .inl rfl
  | case5 => exact .inr ⟨_, _, rfl, h⟩

lemma Solution.exists_digit (h : Solution S) (d i : Fin 9) : ∃ j, S i j = d + 1 := by
  have hrange : ∀ j, 0 ≤ S i j - 1 ∧ S i j - 1 < 9 := fun j => by
    have := h.digits i j
    omega
  let digit : Fin 9 → Fin 9 := fun j => ⟨(S i j - 1).toNat, by have := hrange j; omega⟩
  have hinj : Function.Injective digit := by
    intro j j' hj
    by_contra hne
    have hval : (S i j - 1).toNat = (S i j' - 1).toNat := congrArg Fin.val hj
    have heq : S i j = S i j' := by
      have := hrange j
      have := hrange j'
      omega
    exact h.conflictFree (i, j) (i, j') (by simpa using hne) (.inl rfl) (S i j)
      (h.digits i j).1 (h.digits i j).2 ⟨rfl, heq.symm⟩
  obtain ⟨j, hj⟩ := (Finite.injective_iff_surjective.mp hinj) d
  have hval : (S i j - 1).toNat = d.val := congrArg Fin.val hj
  exact ⟨j, by have := hrange j; omega⟩

def cellsOf (S : Grid) (d : Fin 9) : Finset (Fin 9 × Fin 9) :=
  Finset.univ.filter fun p => S p.1 p.2 = d + 1

lemma Solution.nine_le_card (h : Solution S) (d : Fin 9) : 9 ≤ (cellsOf S d).card := by
  choose column hcolumn using h.exists_digit d
  have hinj : Function.Injective fun i => (i, column i) := fun i i' hi => congrArg Prod.fst hi
  calc 9 = (Finset.univ.image fun i => (i, column i)).card := by
        rw [Finset.card_image_of_injective _ hinj]
        rfl
    _ ≤ (cellsOf S d).card := by
        apply Finset.card_le_card
        intro p hp
        obtain ⟨i, -, rfl⟩ := Finset.mem_image.mp hp
        simpa [cellsOf] using hcolumn i

end Solutions

def blanked (S : Grid) (removed : Finset (Fin 9 × Fin 9)) : Grid :=
  fun i j => if (i, j) ∈ removed then 0 else S i j

/-- The second loop has removed cells that it marks as used, and counts the removed cells of each
digit. -/
structure Removed (S : Grid) (i : ℕ) (s : Removal) (removed : Finset (Fin 9 × Fin 9)) : Prop where
  used : ∀ p ∈ removed, s.usedArray p.1 p.2 ≠ 0
  grid : s.sudokuarray = blanked S removed
  card : removed.card = i
  count : ∀ d, s.countArray d = (removed ∩ cellsOf S d).card
  quota : ∀ d, s.countArray d ≤ 8

section Removals

variable {S : Grid} {i : ℕ} {s : Removal} {removed : Finset (Fin 9 × Fin 9)}

lemma removed_start (S : Grid) : Removed S 0 ⟨fun _ _ => 0, fun _ => 0, S⟩ ∅ :=
  ⟨by simp, by funext i j; simp [blanked], rfl, by simp, by simp⟩

@[simp] lemma Removal.mark_sudokuarray (s : Removal) (cursor1 cursor2 : Fin 9) :
    (s.mark cursor1 cursor2).sudokuarray = s.sudokuarray := rfl

@[simp] lemma Removal.mark_countArray (s : Removal) (cursor1 cursor2 : Fin 9) :
    (s.mark cursor1 cursor2).countArray = s.countArray := rfl

@[simp] lemma Removal.blank_usedArray (s : Removal) (cursor1 cursor2 d : Fin 9) :
    (s.blank cursor1 cursor2 d).usedArray = s.usedArray := rfl

@[simp] lemma Removal.blank_countArray (s : Removal) (cursor1 cursor2 d : Fin 9) :
    (s.blank cursor1 cursor2 d).countArray =
      Function.update s.countArray d (s.countArray d + 1) := rfl

@[simp] lemma Removal.blank_sudokuarray (s : Removal) (cursor1 cursor2 d : Fin 9) :
    (s.blank cursor1 cursor2 d).sudokuarray = Function.update s.sudokuarray cursor1
      (Function.update (s.sudokuarray cursor1) cursor2 0) := rfl

lemma Removal.mark_used (s : Removal) (cursor1 cursor2 : Fin 9) (p : Fin 9 × Fin 9) :
    (s.mark cursor1 cursor2).usedArray p.1 p.2 =
      if p = (cursor1, cursor2) then 1 else s.usedArray p.1 p.2 := by
  by_cases h₁ : p.1 = cursor1
  · by_cases h₂ : p.2 = cursor2
    · simp [Removal.mark, Prod.ext_iff, h₁, h₂]
    · simp [Removal.mark, Prod.ext_iff, h₁, h₂]
  · simp [Removal.mark, Prod.ext_iff, h₁]

lemma takeAway_digit {cursor1 cursor2 d : Fin 9} (h : s.sudokuarray cursor1 cursor2 = d + 1) :
    takeAway s cursor1 cursor2 =
      if s.countArray d ≥ 8 then .ok (0, s.mark cursor1 cursor2)
      else .ok (1, (s.mark cursor1 cursor2).blank cursor1 cursor2 d) := by
  have hindex : 0 ≤ (d.val : ℤ) + 1 - 1 ∧ (d.val : ℤ) + 1 - 1 < 9 := by omega
  have hdigit : (⟨((d.val : ℤ) + 1 - 1).toNat, by omega⟩ : Fin 9) = d := Fin.ext (by simp)
  simp only [takeAway, Removal.mark_sudokuarray, Removal.mark_countArray, h, hindex, hdigit,
    and_self, dite_true]

lemma Removed.mark (h : Removed S i s removed) (cursor1 cursor2 : Fin 9) :
    Removed S i (s.mark cursor1 cursor2) removed := by
  refine ⟨fun p hp => ?_, h.grid, h.card, h.count, h.quota⟩
  rw [Removal.mark_used]
  split_ifs
  · exact one_ne_zero
  · exact h.used p hp

lemma Removed.insert (h : Removed S i s removed) {cursor1 cursor2 d : Fin 9}
    (hnot : (cursor1, cursor2) ∉ removed) (hd : S cursor1 cursor2 = d + 1)
    (hquota : s.countArray d < 8) :
    Removed S (i + 1) ((s.mark cursor1 cursor2).blank cursor1 cursor2 d)
      (insert (cursor1, cursor2) removed) := by
  have hmem : ∀ d', (cursor1, cursor2) ∈ cellsOf S d' ↔ d' = d := by
    intro d'
    simp only [cellsOf, Finset.mem_filter, Finset.mem_univ, true_and, hd, Fin.ext_iff]
    omega
  refine ⟨fun p hp => ?_, ?_, ?_, fun d' => ?_, fun d' => ?_⟩
  · rw [Removal.blank_usedArray, Removal.mark_used]
    split_ifs with hcell
    · exact one_ne_zero
    · exact h.used p (Finset.mem_of_mem_insert_of_ne hp hcell)
  · funext i' j'
    simp only [Removal.blank_sudokuarray, Removal.mark_sudokuarray, h.grid, blanked,
      Finset.mem_insert, Prod.mk.injEq]
    by_cases hi : i' = cursor1
    · subst hi
      by_cases hj : j' = cursor2
      · simp [hj]
      · simp [hj, blanked]
    · simp [hi, blanked]
  · rw [Finset.card_insert_of_notMem hnot, h.card]
  · rw [Removal.blank_countArray, Removal.mark_countArray]
    by_cases hd' : d' = d
    · subst hd'
      have hnew : (cursor1, cursor2) ∉ removed ∩ cellsOf S d' :=
        fun hin => hnot (Finset.mem_inter.mp hin).1
      rw [Function.update_self, h.count, Finset.insert_inter_of_mem ((hmem d').mpr rfl),
        Finset.card_insert_of_notMem hnew]
      push_cast
      rfl
    · rw [Function.update_of_ne hd', h.count,
        Finset.insert_inter_of_notMem fun hin => hd' ((hmem d').mp hin)]
  · rw [Removal.blank_countArray, Removal.mark_countArray]
    by_cases hd' : d' = d
    · subst hd'
      rw [Function.update_self]
      omega
    · rw [Function.update_of_ne hd']
      exact h.quota d'

lemma takeAway_cases (hS : Solution S) (h : Removed S i s removed) {cursor1 cursor2 : Fin 9}
    (hunused : s.usedArray cursor1 cursor2 = 0) :
    ∃ d : Fin 9, S cursor1 cursor2 = d + 1 ∧ s.sudokuarray cursor1 cursor2 = d + 1 ∧
      (8 ≤ s.countArray d ∧ takeAway s cursor1 cursor2 = .ok (0, s.mark cursor1 cursor2) ∧
          Removed S i (s.mark cursor1 cursor2) removed ∨
        s.countArray d < 8 ∧
          takeAway s cursor1 cursor2 = .ok (1, (s.mark cursor1 cursor2).blank cursor1 cursor2 d) ∧
          Removed S (i + 1) ((s.mark cursor1 cursor2).blank cursor1 cursor2 d)
            (insert (cursor1, cursor2) removed)) := by
  have hnot : (cursor1, cursor2) ∉ removed := fun hmem => h.used _ hmem hunused
  have hcell : s.sudokuarray cursor1 cursor2 = S cursor1 cursor2 := by
    rw [h.grid, blanked, if_neg hnot]
  obtain ⟨hlow, hhigh⟩ := hS.digits cursor1 cursor2
  obtain ⟨d, hd⟩ : ∃ d : Fin 9, S cursor1 cursor2 = d + 1 :=
    ⟨⟨(S cursor1 cursor2 - 1).toNat, by omega⟩, by simp only; omega⟩
  refine ⟨d, hd, hcell.trans hd, ?_⟩
  rw [takeAway_digit (hcell.trans hd)]
  by_cases hquota : s.countArray d ≥ 8
  · exact .inl ⟨hquota, if_pos hquota, h.mark cursor1 cursor2⟩
  · exact .inr ⟨not_le.mp hquota, if_neg hquota, h.insert hnot hd (not_le.mp hquota)⟩

lemma takeAway_spec (hS : Solution S) (h : Removed S i s removed) {cursor1 cursor2 : Fin 9}
    (hunused : s.usedArray cursor1 cursor2 = 0) :
    ∃ k s' removed', takeAway s cursor1 cursor2 = .ok (k, s') ∧ k ≤ 1 ∧
      Removed S (i + k) s' removed' := by
  obtain ⟨d, -, -, ⟨-, htake, hremoved⟩ | ⟨-, htake, hremoved⟩⟩ := takeAway_cases hS h hunused
  · exact ⟨0, _, removed, htake, zero_le_one, hremoved⟩
  · exact ⟨1, _, _, htake, le_rfl, hremoved⟩

lemma removeCells_spec (hS : Solution S) {count : ℕ} (rands : List ℕ) (hi : i ≤ 81 - count)
    (h : Removed S i s removed) :
    removeCells count i s rands = .error .starved ∨
      ∃ s' rest removed', removeCells count i s rands = .ok (s', rest) ∧
        Removed S (81 - count) s' removed' := by
  fun_induction removeCells count i s rands generalizing removed with
  | case1 =>
    rename_i ih
    exact ih hi h
  | case2 =>
    rename_i i s hlt _ _ _ _ _ hunused k s' htake ih
    obtain ⟨k', t, removed', htake', hk, hremoved⟩ := takeAway_spec hS h (not_not.mp hunused)
    obtain ⟨rfl, rfl⟩ : k = k' ∧ s' = t := by simpa [htake] using htake'
    exact ih (by omega) hremoved
  | case3 =>
    rename_i hunused fault htake
    obtain ⟨_, _, _, htake', -, -⟩ := takeAway_spec hS h (not_not.mp hunused)
    rw [htake] at htake'
    cases htake'
  | case4 => exact .inl rfl
  | case5 rands i s hge =>
    obtain rfl : i = 81 - count := le_antisymm hi (not_lt.mp hge)
    exact .inr ⟨s, rands, removed, rfl, h⟩

lemma blanked_eq_zero_iff (hS : Solution S) (p : Fin 9 × Fin 9) :
    blanked S removed p.1 p.2 = 0 ↔ p ∈ removed := by
  have hne : S p.1 p.2 ≠ 0 := by
    have := (hS.digits p.1 p.2).1
    omega
  simp [blanked, hne]

lemma card_blanked (hS : Solution S) (removed : Finset (Fin 9 × Fin 9)) :
    (Finset.univ.filter fun p : Fin 9 × Fin 9 => blanked S removed p.1 p.2 ≠ 0).card =
      81 - removed.card := by
  have hset : (Finset.univ.filter fun p : Fin 9 × Fin 9 => blanked S removed p.1 p.2 ≠ 0) =
      removedᶜ := by
    ext p
    simp [blanked_eq_zero_iff hS p]
  rw [hset, Finset.card_compl]
  rfl

lemma conflictFree_blanked (hS : Solution S) (removed : Finset (Fin 9 × Fin 9)) :
    ConflictFree (blanked S removed) := by
  intro p q hne hunit d hlow hhigh ⟨hp, hq⟩
  have hkept : ∀ r : Fin 9 × Fin 9, blanked S removed r.1 r.2 = d → S r.1 r.2 = d := by
    intro r hr
    unfold blanked at hr
    split_ifs at hr
    · omega
    · exact hr
  exact hS.conflictFree p q hne hunit d hlow hhigh ⟨hkept p hp, hkept q hq⟩

lemma exists_kept (hS : Solution S) {removed : Finset (Fin 9 × Fin 9)} {d : Fin 9}
    (hquota : (removed ∩ cellsOf S d).card ≤ 8) : ∃ i j, blanked S removed i j = d + 1 := by
  obtain ⟨p, hp, hnot⟩ : ∃ p ∈ cellsOf S d, p ∉ removed := by
    by_contra! hall
    have hinter : removed ∩ cellsOf S d = cellsOf S d :=
      Finset.inter_eq_right.mpr hall
    have hnine := hS.nine_le_card d
    rw [hinter] at hquota
    omega
  refine ⟨p.1, p.2, ?_⟩
  rw [blanked, if_neg hnot]
  simpa [cellsOf] using hp

lemma digits_blanked (hS : Solution S) (removed : Finset (Fin 9 × Fin 9)) :
    Digits (blanked S removed) := by
  intro i j
  have hdigit := hS.digits i j
  unfold blanked
  split_ifs
  · omega
  · omega

end Removals

set_option maxRecDepth 4000 in
lemma encode_eq (g : Grid) : encode g =
    List.ofFn fun k : Fin 81 => 0x30 + g ⟨k / 9, by omega⟩ ⟨k % 9, by omega⟩ := rfl

lemma length_encode (g : Grid) : (encode g).length = 81 := by
  rw [encode_eq, List.length_ofFn]

lemma decode_encode (g : Grid) : decodeSudokuString (encode g) = g := by
  funext i j
  have hlt : i.val * 9 + j.val < 81 := by omega
  have hi : (i.val * 9 + j.val) / 9 = i.val := by omega
  have hj : (i.val * 9 + j.val) % 9 = j.val := by omega
  simp only [decodeSudokuString, encode_eq, List.getD_eq_getElem?_getD, List.getElem?_ofFn, hlt,
    dite_true, Option.getD_some, hi, hj, Fin.eta]
  exact add_sub_cancel_left _ _

/-- Every test of the string comes to its end and accepts it. -/
def Accepted (sudokustring : List ℤ) : Prop :=
  ∀ schedule c, testRun (allocated (decodeSudokuString sudokustring)) schedule = some c →
    schedule.length ≤ 351 ∧
    (c.pending ≠ [] → ∃ e d, step isValid c e = some d) ∧
    (c.pending = [] → testSudokuString sudokustring schedule = some 1)

lemma accepted_encode {g : Grid} (hg : Digits g) (hfree : ConflictFree g) :
    Accepted (encode g) := by
  intro schedule c h
  have hstring : testSudokuString (encode g) schedule =
      testNumberArrays (allocated g) schedule := by
    rw [testSudokuString, length_encode, decode_encode]
    rfl
  rw [decode_encode] at h
  refine ⟨length_test h, progress_test hg h, fun hpending => ?_⟩
  rw [hstring]
  rcases result_test hg h hpending with ⟨hresult, -⟩ | ⟨-, hconflict⟩
  · exact hresult
  · exact absurd hfree hconflict

/-- Unless its loops are still drawing, the generator makes a puzzle: the required number of cells
of a solution, with every digit among them, that every test accepts. -/
theorem generateSudokuPuzzle_spec {count : ℕ} (h9 : 9 ≤ count) (h81 : count ≤ 81)
    (rands : List ℕ) :
    generateSudokuPuzzle count rands = .error .starved ∨
    ∃ puzzle, generateSudokuPuzzle count rands = .ok puzzle ∧
      (Finset.univ.filter fun p : Fin 9 × Fin 9 => puzzle.sudokuarray p.1 p.2 ≠ 0).card = count ∧
      (∃ S, Solution S ∧ ∀ i j, puzzle.sudokuarray i j ≠ 0 → puzzle.sudokuarray i j = S i j) ∧
      (∀ d : ℤ, 1 ≤ d → d ≤ 9 → ∃ i j, puzzle.sudokuarray i j = d) ∧
      decodeSudokuString puzzle.sudokustring = puzzle.sudokuarray ∧
      Accepted puzzle.sudokustring := by
  unfold generateSudokuPuzzle
  rcases shuffle_spec (by omega : count ≠ 0) 0 seed_solution rands with
    hstarved | ⟨S, rest, hshuffle, hS⟩
  · left
    rw [hstarved]
    rfl
  rcases removeCells_spec hS rest (Nat.zero_le (81 - count)) (removed_start S) with
    hstarved | ⟨s, rest', removed, hremove, h⟩
  · left
    rw [hshuffle]
    simp [Except.bind, bind, hstarved]
  · right
    refine ⟨⟨s.sudokuarray, encode s.sudokuarray⟩, ?_, ?_, ⟨S, hS, ?_⟩, ?_,
      decode_encode s.sudokuarray, ?_⟩
    · rw [hshuffle]
      simp [Except.bind, bind, hremove, pure, Except.pure]
    · simp only [h.grid]
      rw [card_blanked hS, h.card]
      omega
    · simp only [h.grid]
      intro i j hne
      unfold blanked at hne ⊢
      split_ifs at hne ⊢ with hmem
      · exact absurd rfl hne
      · rfl
    · intro d hlow hhigh
      simp only [h.grid]
      have hquota := h.quota ⟨(d - 1).toNat, by omega⟩
      rw [h.count] at hquota
      obtain ⟨i, j, hij⟩ := exists_kept hS (by exact_mod_cast hquota)
      exact ⟨i, j, by simp only at hij; omega⟩
    · simp only [h.grid]
      exact accepted_encode (digits_blanked hS removed) (conflictFree_blanked hS removed)

theorem generateSudokuPuzzle_spec_demo :
    ∃ puzzle, generateSudokuPuzzle 79 [1, 5, 2, 0, 1, 7, 7, 0, 3, 3, 12, 8] = .ok puzzle ∧
      (Finset.univ.filter fun p : Fin 9 × Fin 9 => puzzle.sudokuarray p.1 p.2 ≠ 0).card = 79 ∧
      decodeSudokuString puzzle.sudokustring = puzzle.sudokuarray ∧
      Accepted puzzle.sudokustring := by
  have hok : (generateSudokuPuzzle 79 [1, 5, 2, 0, 1, 7, 7, 0, 3, 3, 12, 8]).isOk := by
    decide +kernel
  rcases generateSudokuPuzzle_spec (by decide : 9 ≤ 79) (by decide)
    [1, 5, 2, 0, 1, 7, 7, 0, 3, 3, 12, 8] with hstarved | ⟨puzzle, hpuzzle, hcard, -, -, htested⟩
  · rw [hstarved] at hok
    cases hok
  · exact ⟨puzzle, hpuzzle, hcard, htested⟩

end Eece315.Sudoku
