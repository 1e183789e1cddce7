import Eece315.DispatcherResources

/-! What one call of the allocator does to the host tables. First fit only ever answers free
cells, so that a failed attempt gives back all it took; what it can damage are cells named by
the handles of an earlier attempt. -/
namespace Eece315.DispatcherResources
open SegmentTable

/-- The variables of the scan at cell `i`: no run of free cells, or a run that ends there. -/
def RunOfFree (cells : List ℤ) (i cursor count : ℤ) : Prop :=
  cursor = -1 ∧ count = 0 ∨
    0 ≤ cursor ∧ 1 ≤ count ∧ cursor + count = i ∧ Covers cells cursor i 0

lemma RunOfFree.extend {cells : List ℤ} {i : ℕ} {cursor count : ℤ}
    (h : RunOfFree cells i cursor count) (hi : cells[i]? = some 0) :
    RunOfFree cells (i + 1) (if cursor = -1 then i else cursor) (count + 1) := by
  have hlast : Covers cells i (i + 1) 0 := by
    intro j hj hj'
    obtain rfl : j = i := by omega
    exact ⟨hj.trans' (by omega), by simpa using hi⟩
  rcases h with ⟨rfl, rfl⟩ | ⟨hc, hn, he, hcov⟩
  · exact .inr ⟨by simp, by simp, by simp, by rwa [if_pos rfl]⟩
  · rw [if_neg (by omega)]
    refine .inr ⟨hc, by omega, by omega, fun j hj hj' => ?_⟩
    by_cases hji : j < i
    · exact hcov j hj hji
    · exact hlast j (by omega) hj'

/-- The rule for the loop of `checkResourcesFreeFirstFit`: an assertion about the index, the run
start and the run length that each cell keeps holds at the end of the table, or before the free
cell at which the loop breaks. -/
lemma scan_rule {n pid : ℤ} {cells : List ℤ} (I : ℤ → ℤ → ℤ → Prop)
    (hfree : ∀ (i : ℕ) cursor count, I i cursor count → cells[i]? = some 0 → count + 1 ≠ n →
      I (i + 1) (if cursor = -1 then (i : ℤ) else cursor) (count + 1))
    (hoccupied : ∀ (i : ℕ) cursor count cell, I i cursor count → cells[i]? = some cell →
      cell ≠ 0 → I (i + 1) (-1) 0)
    (before rest : List ℤ) (hcells : before ++ rest = cells) {cursor count : ℤ}
    (h : I before.length cursor count) {result : ℤ × ℤ}
    (hs : scan n pid rest before.length cursor count = some result) :
    I cells.length result.1 result.2 ∨
      ∃ (i : ℕ) (cursor count : ℤ), I i cursor count ∧ cells[i]? = some 0 ∧ count + 1 = n ∧
        result = (if cursor = -1 then (i : ℤ) else cursor, n) := by
  induction rest generalizing before cursor count with
  | nil =>
    rw [List.append_nil] at hcells
    subst hcells
    exact .inl (by rwa [← Option.some.inj hs])
  | cons cell rest ih =>
    have hcell : cells[before.length]? = some cell := by simp [← hcells]
    have hnext : (before ++ [cell]) ++ rest = cells := by simp [← hcells]
    have hlen : ((before ++ [cell]).length : ℤ) = before.length + 1 := by simp
    unfold scan at hs
    by_cases hz : cell = 0
    · subst hz
      simp only [if_true] at hs
      by_cases hfull : count + 1 = n
      · rw [if_pos hfull, hfull] at hs
        exact .inr ⟨before.length, cursor, count, h, hcell, hfull, (Option.some.inj hs).symm⟩
      · rw [if_neg hfull, ← hlen] at hs
        apply ih _ hnext _ hs
        rw [hlen]
        exact hfree _ _ _ h hcell hfull
    · rw [if_neg hz] at hs
      split_ifs at hs
      rw [← hlen] at hs
      apply ih _ hnext _ hs
      rw [hlen]
      exact hoccupied _ _ _ _ h hcell hz

theorem checkResourcesFreeFirstFit_spec {needed pid : ℤ} {cells : List ℤ} (hn : needed ≠ 0)
    (h : checkResourcesFreeFirstFit needed pid cells ≠ -1) :
    0 ≤ checkResourcesFreeFirstFit needed pid cells ∧
      Covers cells (checkResourcesFreeFirstFit needed pid cells)
        (checkResourcesFreeFirstFit needed pid cells + needed) 0 := by
  unfold checkResourcesFreeFirstFit at h ⊢
  cases hs : scan needed pid cells 0 (-1) 0 with
  | none => simp [hs] at h
  | some result =>
    have hrun : ∃ i, RunOfFree cells i result.1 result.2 := by
      have hrule := scan_rule (RunOfFree cells) (fun _ _ _ hi hcell _ => hi.extend hcell)
        (fun _ _ _ _ _ _ _ => .inl ⟨rfl, rfl⟩) [] cells rfl (.inl ⟨rfl, rfl⟩) hs
      rcases hrule with hend | ⟨i, cursor, count, hi, hcell, hfull, rfl⟩
      · exact ⟨_, hend⟩
      · rw [← hfull]
        exact ⟨_, hi.extend hcell⟩
    obtain ⟨i, hi⟩ := hrun
    simp only [hs] at h ⊢
    split_ifs at h ⊢ with hc
    · rcases hi with ⟨-, hzero⟩ | ⟨h0, -, he, hcov⟩
      · exact absurd (hc.symm.trans hzero) hn
      · rw [← hc, he]
        exact ⟨h0, hcov⟩
    · exact absurd rfl h

/-- A kind whose grant an attempt renews. -/
def Renews (process : PCB) (host : Host) (k : Resource) : Prop :=
  (process.io k).needed ≠ 0 ∧ cursor process host k ≠ -1

instance (process : PCB) (host : Host) (k : Resource) : Decidable (Renews process host k) :=
  inferInstanceAs (Decidable (_ ∧ _))

section Attempt

variable {process : PCB} {host : Host} {k : Resource}

lemma Renews.free (h : Renews process host k) :
    0 ≤ (attemptGrant process host k).startID ∧
      Covers (host.alloc k) (attemptGrant process host k).startID
        ((attemptGrant process host k).startID + (attemptGrant process host k).held) 0 := by
  obtain ⟨h0, hcov⟩ := checkResourcesFreeFirstFit_spec h.1 h.2
  have hg : attemptGrant process host k = ⟨(process.io k).needed, (process.io k).needed,
      cursor process host k + (region (process.priority = 0) k).1⟩ := if_pos h
  rw [hg]
  have hslice := covers_of_slice hcov
  change 0 ≤ cursor process host k at h0
  refine ⟨add_nonneg h0 (Int.natCast_nonneg _), ?_⟩
  rwa [add_right_comm] at hslice

lemma Renews.inside (h : Renews process host k) {i : ℤ}
    (hi : (attemptGrant process host k).startID ≤ i)
    (hi' : i < (attemptGrant process host k).startID + (attemptGrant process host k).held) :
    (region (process.priority = 0) k).1 ≤ i ∧
      i < (region (process.priority = 0) k).1 + (region (process.priority = 0) k).2 := by
  obtain ⟨h0, hcov⟩ := checkResourcesFreeFirstFit_spec h.1 h.2
  have hg : attemptGrant process host k = ⟨(process.io k).needed, (process.io k).needed,
      cursor process host k + (region (process.priority = 0) k).1⟩ := if_pos h
  rw [hg] at hi hi'
  change 0 ≤ cursor process host k at h0
  change Covers _ (cursor process host k) (cursor process host k + _) 0 at hcov
  have hlt := lt_of_slice hcov (i := i - (region (process.priority = 0) k).1)
    (by simp only at hi; omega) (by simp only at hi'; omega)
  simp only at hi
  constructor <;> omega

lemma Renews.cells (h : Renews process host k) :
    attemptCells process host k = fill (host.alloc k) (attemptGrant process host k).startID
      ((attemptGrant process host k).startID + (attemptGrant process host k).held)
      process.pid := if_pos h

lemma attemptGrant_of_not (h : ¬ Renews process host k) :
    attemptGrant process host k = process.io k := if_neg h

lemma attemptCells_of_not (h : ¬ Renews process host k) :
    attemptCells process host k = host.alloc k := if_neg h

lemma attemptGrant_needed (process : PCB) (host : Host) (k : Resource) :
    (attemptGrant process host k).needed = (process.io k).needed := by
  rw [attemptGrant]
  split_ifs <;> rfl

lemma renews_iff (h : (process.io k).needed ≠ 0) :
    Renews process host k ↔ Fits process host k := by
  simp [Renews, Fits, h]

lemma attemptCells_of_label {i : ℕ} {v : ℤ} (hv : v ≠ 0) (hi : (host.alloc k)[i]? = some v) :
    (attemptCells process host k)[i]? = some v := by
  by_cases h : Renews process host k
  · rw [h.cells, getElem?_fill_outside, hi]
    intro hin
    have hfree := (h.free.2 i hin.1 hin.2).2
    rw [Int.toNat_natCast, hi] at hfree
    exact hv (Option.some.inj hfree)
  · rwa [attemptCells_of_not h]

lemma label_of_attemptCells {i : ℕ} {v : ℤ} (hi : (attemptCells process host k)[i]? = some v) :
    (host.alloc k)[i]? = some v ∨ v = process.pid ∧ Renews process host k ∧
      (attemptGrant process host k).startID ≤ i ∧
      i < (attemptGrant process host k).startID + (attemptGrant process host k).held := by
  by_cases h : Renews process host k
  · rw [h.cells, getElem?_fill] at hi
    split_ifs at hi with hin
    · obtain ⟨u, -, hu⟩ := Option.map_eq_some_iff.mp hi
      exact .inr ⟨hu.symm, h, hin⟩
    · exact .inl hi
  · exact .inl (by rwa [attemptCells_of_not h] at hi)

lemma label_of_freedCells {i : ℕ} {v : ℤ} (hv : v ≠ 0)
    (hi : (freedCells process host k)[i]? = some v) : (host.alloc k)[i]? = some v := by
  rw [freedCells] at hi
  split_ifs at hi
  · rw [getElem?_fill] at hi
    split_ifs at hi
    · obtain ⟨u, -, hu⟩ := Option.map_eq_some_iff.mp hi
      exact absurd hu.symm hv
    · exact hi
  · exact hi

lemma failed_cells (process : PCB) (host : Host) (k : Resource) :
    (freeHostResources (attempted process host) ⟨attemptCells process host⟩).alloc k =
      if Renews process host k then host.alloc k else freedCells process host k := by
  rw [freeHostResources_alloc]
  split_ifs with h
  · have hne : (attemptGrant process host k).startID ≠ -1 := by
      have := h.free.1
      omega
    change (if (attemptGrant process host k).startID ≠ -1 then
      fill (attemptCells process host k) (attemptGrant process host k).startID
        ((attemptGrant process host k).startID + (attemptGrant process host k).held) 0
      else attemptCells process host k) = host.alloc k
    rw [if_pos hne, h.cells, fill_fill_of_covers h.free.2]
  · simp only [freedCells, attempted, attemptGrant_of_not h, attemptCells_of_not h]

end Attempt

end Eece315.DispatcherResources
