import Eece315.DispatcherGrants

/-! First fit is exact: of all the runs of free cells long enough it answers the lowest, and it
gives up only where there is none. -/
namespace Eece315.DispatcherResources
open SegmentTable

def freeRuns (cells : List ℤ) (n : ℤ) : Set ℤ := {s | Covers cells s (s + n) 0}

/-- The lowest start of a run that the scan, about to look at cell `i`, has not ruled out. -/
def frontier (i cursor : ℤ) : ℤ := if cursor = -1 then i else cursor

section Scan

variable {cells : List ℤ} {n cursor count : ℤ} {i : ℕ}

lemma freeRuns_nonneg {s : ℤ} (hn : 1 ≤ n) (hs : s ∈ freeRuns cells n) : 0 ≤ s := by
  have hfirst := hs s le_rfl (by omega)
  exact hfirst.1

lemma frontier_of_run {i : ℤ} (h : RunOfFree cells i cursor count) :
    frontier i cursor + count = i := by
  rcases h with ⟨rfl, rfl⟩ | ⟨hc, -, he, -⟩
  · simp [frontier]
  · rwa [frontier, if_neg (by omega)]

lemma frontier_extend (cursor : ℤ) (i : ℕ) :
    frontier (i + 1) (if cursor = -1 then i else cursor) = frontier i cursor := by
  by_cases hc : cursor = -1
  · have hi : (i : ℤ) ≠ -1 := by omega
    simp [frontier, hc, hi]
  · simp [frontier, hc]

lemma RunOfFree.mem_freeRuns {i : ℤ} (h : RunOfFree cells i cursor n) (hn : 1 ≤ n) :
    frontier i cursor ∈ freeRuns cells n ∧ frontier i cursor = cursor := by
  rcases h with ⟨-, hzero⟩ | ⟨hc, -, he, hcov⟩
  · omega
  · have hf : frontier i cursor = cursor := if_neg (by omega)
    rw [hf]
    refine ⟨?_, rfl⟩
    change Covers cells cursor (cursor + n) 0
    rwa [he]

end Scan

/-- The invariant of the loop at cell `i`: the run under way is shorter than asked for, and no run
starts below the frontier. -/
structure Scanned (cells : List ℤ) (n i cursor count : ℤ) : Prop where
  run : RunOfFree cells i cursor count
  short : count < n
  low : frontier i cursor ∈ lowerBounds (freeRuns cells n)

/-- What the scan answers: with the length reached, the lowest run, and with any other length, no
run at all. -/
def ScanExact (cells : List ℤ) (n : ℤ) (result : ℤ × ℤ) : Prop :=
  result.2 = n ∧ IsLeast (freeRuns cells n) result.1 ∨
    result.2 ≠ n ∧ freeRuns cells n = ∅

section Scanned

variable {cells : List ℤ} {n cursor count : ℤ} {i : ℕ}

lemma scanned_start (hn : 1 ≤ n) : Scanned cells n 0 (-1) 0 :=
  ⟨.inl ⟨rfl, rfl⟩, by omega, fun _ hs => freeRuns_nonneg hn hs⟩

lemma Scanned.free (h : Scanned cells n i cursor count) (hcell : cells[i]? = some 0)
    (hne : count + 1 ≠ n) :
    Scanned cells n (i + 1) (if cursor = -1 then i else cursor) (count + 1) := by
  refine ⟨h.run.extend hcell, ?_, ?_⟩
  · have hshort := h.short
    omega
  · rw [frontier_extend]
    exact h.low

lemma Scanned.occupied (h : Scanned cells n i cursor count) {cell : ℤ}
    (hcell : cells[i]? = some cell) (hne : cell ≠ 0) : Scanned cells n (i + 1) (-1) 0 := by
  have hend := frontier_of_run h.run
  have hshort := h.short
  have hcount : 0 ≤ count := by
    rcases h.run with ⟨-, rfl⟩ | ⟨-, hpos, -, -⟩ <;> omega
  refine ⟨.inl ⟨rfl, rfl⟩, by omega, fun s hs => ?_⟩
  have hfrom := h.low hs
  change (i + 1 : ℤ) ≤ s
  by_contra hlt
  obtain ⟨-, hfree⟩ := hs i (by omega) (by omega)
  rw [Int.toNat_natCast, hcell] at hfree
  exact hne (Option.some.inj hfree)

lemma Scanned.stop (h : Scanned cells n cells.length cursor count) (hn : 1 ≤ n) :
    ScanExact cells n (cursor, count) := by
  refine .inr ⟨h.short.ne, Set.eq_empty_iff_forall_notMem.mpr fun s hs => ?_⟩
  have hfrom := h.low hs
  have hend := frontier_of_run h.run
  have hshort := h.short
  obtain ⟨-, hcell⟩ := hs (s + n - 1) (by omega) (by omega)
  obtain ⟨hlt, -⟩ := List.getElem?_eq_some_iff.mp hcell
  omega

lemma Scanned.complete (h : Scanned cells n i cursor count) (hn : 1 ≤ n)
    (hcell : cells[i]? = some 0) (hfull : count + 1 = n) :
    ScanExact cells n (if cursor = -1 then (i : ℤ) else cursor, n) := by
  have hext := h.run.extend hcell
  have hlow := h.low
  rw [hfull] at hext
  rw [← frontier_extend] at hlow
  obtain ⟨hmem, hcursor⟩ := hext.mem_freeRuns hn
  rw [hcursor] at hmem hlow
  exact .inl ⟨rfl, hmem, hlow⟩

lemma scan_exact {pid : ℤ} (hn : 1 ≤ n) {result : ℤ × ℤ}
    (hs : scan n pid cells 0 (-1) 0 = some result) : ScanExact cells n result := by
  have hrule := scan_rule (Scanned cells n) (fun _ _ _ h => h.free)
    (fun _ _ _ _ h => h.occupied) [] cells rfl (scanned_start hn) hs
  rcases hrule with hend | ⟨i, cursor, count, h, hcell, hfull, rfl⟩
  · exact hend.stop hn
  · exact h.complete hn hcell hfull

end Scanned

lemma scan_ne_none {numResourcesReq pid : ℤ} {cells : List ℤ} (h : pid ∉ cells)
    (i cursor count : ℤ) : scan numResourcesReq pid cells i cursor count ≠ none := by
  induction cells generalizing i cursor count with
  | nil => simp [scan]
  | cons cell cells ih =>
    have hcell : cell ≠ pid := fun he => h (by simp [he])
    have hcells : pid ∉ cells := fun hm => h (List.mem_cons_of_mem _ hm)
    rw [scan]
    by_cases hz : cell = 0
    · rw [if_pos hz]
      generalize (if cursor = -1 then i else cursor) = start
      dsimp only
      split_ifs
      · exact Option.some_ne_none _
      · exact ih hcells _ _ _
    · rw [if_neg hz, if_neg hcell]
      exact ih hcells _ _ _

section FirstFit

variable {n pid : ℤ} {cells : List ℤ}

lemma checkResourcesFreeFirstFit_isLeast (hn : 1 ≤ n)
    (h : checkResourcesFreeFirstFit n pid cells ≠ -1) :
    IsLeast (freeRuns cells n) (checkResourcesFreeFirstFit n pid cells) := by
  unfold checkResourcesFreeFirstFit at h ⊢
  cases hs : scan n pid cells 0 (-1) 0 with
  | none => simp [hs] at h
  | some result =>
    simp only [hs] at h ⊢
    rcases scan_exact hn hs with ⟨hfull, hleast⟩ | ⟨hshort, -⟩
    · rwa [if_pos hfull]
    · exact absurd (if_neg hshort) h

lemma checkResourcesFreeFirstFit_complete (hpid : pid ∉ cells) (hn : 1 ≤ n)
    (h : checkResourcesFreeFirstFit n pid cells = -1) : freeRuns cells n = ∅ := by
  unfold checkResourcesFreeFirstFit at h
  cases hs : scan n pid cells 0 (-1) 0 with
  | none => exact absurd hs (scan_ne_none hpid 0 (-1) 0)
  | some result =>
    simp only [hs] at h
    rcases scan_exact hn hs with ⟨hfull, hleast⟩ | ⟨-, hempty⟩
    · rw [if_pos hfull] at h
      have hnonneg := freeRuns_nonneg hn hleast.1
      omega
    · exact hempty

lemma checkResourcesFreeFirstFit_ne_iff (hpid : pid ∉ cells) (hn : 1 ≤ n) :
    checkResourcesFreeFirstFit n pid cells ≠ -1 ↔ (freeRuns cells n).Nonempty := by
  constructor
  · intro h
    exact ⟨_, (checkResourcesFreeFirstFit_isLeast hn h).1⟩
  · intro hsome h
    rw [checkResourcesFreeFirstFit_complete hpid hn h] at hsome
    exact Set.not_nonempty_empty hsome

end FirstFit

/-- For a process that owns no cell of the table, first fit answers the least index at which the
cells asked for are free, and -1 if and only if there is no such index. -/
theorem checkResourcesFreeFirstFit_exact (cells : List ℤ) (pid n : ℤ) (hpid : pid ∉ cells)
    (hn : 1 ≤ n) :
    ((∃ s, Covers cells s (s + n) 0) →
      IsLeast {s | Covers cells s (s + n) 0} (checkResourcesFreeFirstFit n pid cells)) ∧
    (checkResourcesFreeFirstFit n pid cells = -1 ↔ ¬ ∃ s, Covers cells s (s + n) 0) := by
  have hiff := checkResourcesFreeFirstFit_ne_iff hpid hn
  constructor
  · intro hsome
    exact checkResourcesFreeFirstFit_isLeast hn (hiff.mpr hsome)
  · exact not_iff_not.mp (hiff.trans not_not.symm)

/-- The third process takes the run that ends at the last cell. -/
theorem checkResourcesFreeFirstFit_exact_demo :
    IsLeast {s | Covers [(1 : ℤ), 0, 2, 0, 0] s (s + 2) 0}
      (checkResourcesFreeFirstFit 2 3 [1, 0, 2, 0, 0]) := by
  apply (checkResourcesFreeFirstFit_exact [1, 0, 2, 0, 0] 3 2 (by decide) (by decide)).1
  refine ⟨3, fun i hi hi' => ?_⟩
  obtain rfl | rfl : i = 3 ∨ i = 4 := by omega
  · decide
  · decide

/-- Nothing of kind `k` is asked for, or the part of the table its allocator looks at has that
many free cells in a row. -/
def Room (process : PCB) (host : Host) (k : Resource) : Prop :=
  (process.io k).needed = 0 ∨
    (freeRuns (((host.alloc k).drop (region (process.priority = 0) k).1).take
      (region (process.priority = 0) k).2) (process.io k).needed).Nonempty

lemma fits_iff_room {process : PCB} {host : Host} {k : Resource}
    (hneeded : 0 ≤ (process.io k).needed) (hpid : process.pid ∉ host.alloc k) :
    Fits process host k ↔ Room process host k := by
  have hpart : process.pid ∉ ((host.alloc k).drop (region (process.priority = 0) k).1).take
      (region (process.priority = 0) k).2 :=
    fun h => hpid (List.mem_of_mem_drop (List.mem_of_mem_take h))
  apply or_congr_right'
  intro hn
  exact checkResourcesFreeFirstFit_ne_iff hpart (by omega)

/-- A process that owns nothing is turned away only where a kind has no room for it. -/
theorem allocateResources_iff_room {process : PCB} {host : Host}
    (hneeded : ∀ k, 0 ≤ (process.io k).needed) (hpid : ∀ k, process.pid ∉ host.alloc k) :
    (allocateResources process host).1 ≠ 0 ↔ ∀ k, Room process host k := by
  rw [allocateResources_ne_zero]
  exact forall_congr' fun k => fits_iff_room (hneeded k) (hpid k)

end Eece315.DispatcherResources
