import Mathlib

/-! Tables of labelled cells in which segments are filled and read. Segment bounds are integers,
as a program computes them; only the cells that exist are concerned. -/
namespace Eece315.SegmentTable

variable {α : Type*}

/-- The loop `for (i = start; i < stop; i++) cells[i] = v`. -/
def fill (cells : List α) (start stop : ℤ) (v : α) : List α :=
  cells.mapIdx fun i c => if start ≤ i ∧ (i : ℤ) < stop then v else c

/-- Every index of the segment is a cell of the table with label `v`. -/
def Covers (cells : List α) (start stop : ℤ) (v : α) : Prop :=
  ∀ i : ℤ, start ≤ i → i < stop → 0 ≤ i ∧ cells[i.toNat]? = some v

variable {cells : List α} {a b c d : ℤ} {u v : α}

lemma getElem?_fill (cells : List α) (a b : ℤ) (v : α) (i : ℕ) :
    (fill cells a b v)[i]? =
      if a ≤ i ∧ (i : ℤ) < b then cells[i]?.map (fun _ => v) else cells[i]? := by
  rw [fill, List.getElem?_mapIdx]
  split_ifs with h
  · simp
  · cases cells[i]? <;> simp

lemma getElem?_fill_outside {i : ℕ} (h : ¬ (a ≤ i ∧ (i : ℤ) < b)) :
    (fill cells a b v)[i]? = cells[i]? := by
  rw [getElem?_fill, if_neg h]

lemma Covers.fill (hc : Covers cells a b u) :
    Covers (SegmentTable.fill cells a b v) a b v := by
  intro i hai hib
  obtain ⟨hi, hcell⟩ := hc i hai hib
  refine ⟨hi, ?_⟩
  rw [getElem?_fill, if_pos (by omega), hcell, Option.map_some]

lemma fill_eq_self (h : ∀ i : ℕ, a ≤ i → (i : ℤ) < b → ∀ u, cells[i]? = some u → u = v) :
    SegmentTable.fill cells a b v = cells := by
  apply List.ext_getElem?
  intro i
  rw [getElem?_fill]
  split_ifs with hi
  · cases hc : cells[i]? with
    | none => rfl
    | some u => rw [h i hi.1 hi.2 u hc, Option.map_some]
  · rfl

lemma Covers.fill_disjoint (hc : Covers cells a b u)
    (h : ∀ i, a ≤ i → i < b → ¬ (c ≤ i ∧ i < d)) :
    Covers (SegmentTable.fill cells c d v) a b u := by
  intro i hai hib
  obtain ⟨hi, hcell⟩ := hc i hai hib
  refine ⟨hi, ?_⟩
  rw [getElem?_fill_outside, hcell]
  have := h i hai hib
  omega

lemma Covers.disjoint (hu : Covers cells a b u) (hv : Covers cells c d v) (hne : u ≠ v) :
    ∀ i, a ≤ i → i < b → ¬ (c ≤ i ∧ i < d) := by
  rintro i hai hib ⟨hci, hid⟩
  have h₁ := (hu i hai hib).2
  have h₂ := (hv i hci hid).2
  exact hne (Option.some.inj (h₁.symm.trans h₂))

lemma fill_fill_of_covers (hc : Covers cells a b u) : fill (fill cells a b v) a b u = cells := by
  apply List.ext_getElem?
  intro i
  rw [getElem?_fill]
  split_ifs with h
  · have := (hc i h.1 h.2).2
    rw [Int.toNat_natCast] at this
    rw [getElem?_fill, if_pos h, this]
    rfl
  · exact getElem?_fill_outside h

lemma covers_of_slice {n m : ℕ} (hc : Covers ((cells.drop n).take m) a b v) :
    Covers cells (a + n) (b + n) v := by
  intro i hai hib
  obtain ⟨hi, hcell⟩ := hc (i - n) (by omega) (by omega)
  refine ⟨by omega, ?_⟩
  rw [List.getElem?_take] at hcell
  split_ifs at hcell with hlt
  · rw [List.getElem?_drop] at hcell
    rwa [show n + (i - n).toNat = i.toNat by omega] at hcell

lemma lt_of_slice {n m : ℕ} (hc : Covers ((cells.drop n).take m) a b v) {i : ℤ} (hai : a ≤ i)
    (hib : i < b) : i < m := by
  obtain ⟨hi, hcell⟩ := hc i hai hib
  rw [List.getElem?_take] at hcell
  split_ifs at hcell with hlt
  omega

lemma length_fill (cells : List α) (a b : ℤ) (v : α) : (fill cells a b v).length = cells.length :=
  List.length_mapIdx

end Eece315.SegmentTable
