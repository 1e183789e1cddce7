import Mathlib

/-! Jobs for a single processor: when a schedule that is never idle while work is ready has done
all of them. From its last idle slot on it only runs jobs that arrived after that slot, so it is
through with them by the latest of the sums of an arrival and of the work that arrives from then
on. A running sum over the jobs in any order is a bound for these, and the least one if the jobs
are in the order of their arrival. -/
namespace Eece315.SingleProcessor

section Schedules

variable {ι : Type*}

/-- The processor is busy from some slot on, before which it was idle or which is the first. -/
lemma exists_busy_since (schedule : ℕ → Option ι) (t : ℕ) :
    ∃ s ≤ t, (∀ u, s ≤ u → u < t → schedule u ≠ none) ∧
      ∀ u, u + 1 = s → schedule u = none := by
  induction t with
  | zero => exact ⟨0, le_rfl, by simp, by simp⟩
  | succ t ih =>
    by_cases hidle : schedule t = none
    · refine ⟨t + 1, le_rfl, fun u hu hlt => by omega, ?_⟩
      intro u hu
      obtain rfl : u = t := by omega
      exact hidle
    · obtain ⟨s, hs, hbusy, hbefore⟩ := ih
      refine ⟨s, by omega, ?_, hbefore⟩
      intro u hu hlt
      by_cases hut : u = t
      · exact hut ▸ hidle
      · exact hbusy u hu (by omega)

variable [DecidableEq ι]

/-- The slots before `t` in which the job runs. -/
def done (schedule : ℕ → Option ι) (i : ι) (t : ℕ) : ℕ :=
  ((Finset.range t).filter fun u => schedule u = some i).card

/-- Jobs run after their arrival and until their work is done, and no slot is idle while a job has
work to do. -/
structure WorkConserving (arrival work : ι → ℤ) (schedule : ℕ → Option ι) : Prop where
  arrived : ∀ t i, schedule t = some i → arrival i ≤ t
  unfinished : ∀ t i, schedule t = some i → done schedule i t < work i
  busy : ∀ t, schedule t = none → ∀ i, arrival i ≤ t → work i ≤ done schedule i t

variable {arrival work : ι → ℤ} {schedule : ℕ → Option ι} {i : ι} {t : ℕ}

lemma done_mono (schedule : ℕ → Option ι) (i : ι) {t t' : ℕ} (h : t ≤ t') :
    done schedule i t ≤ done schedule i t' := by
  apply Finset.card_le_card
  apply Finset.filter_subset_filter
  exact Finset.range_subset_range.mpr h

lemma done_succ (schedule : ℕ → Option ι) (i : ι) (t : ℕ) :
    done schedule i (t + 1) = done schedule i t + if schedule t = some i then 1 else 0 := by
  rw [done, Finset.range_add_one, Finset.filter_insert]
  split_ifs
  · rw [Finset.card_insert_of_notMem (by simp)]
    rfl
  · rfl

lemma WorkConserving.done_le (h : WorkConserving arrival work schedule) (hwork : 0 ≤ work i)
    (t : ℕ) : done schedule i t ≤ work i := by
  induction t with
  | zero => simpa [done] using hwork
  | succ t ih =>
    rw [done_succ]
    split_ifs with hrun
    · have hlt := h.unfinished t i hrun
      push_cast
      omega
    · simpa using ih

lemma WorkConserving.arrival_of_idle (h : WorkConserving arrival work schedule)
    (harrival : 0 ≤ arrival i) {s : ℕ} (hbefore : ∀ u, u + 1 = s → schedule u = none)
    (hs : s ≤ t) (hleft : done schedule i t < work i) : s ≤ arrival i := by
  cases s with
  | zero => simpa using harrival
  | succ u =>
    by_contra hearly
    have hdone := h.busy u (hbefore u rfl) i (by omega)
    have hmono := done_mono schedule i (by omega : u ≤ t)
    omega

variable [Fintype ι]

/-- All the work is done by every bound on an arrival and the work that arrives from then on. -/
theorem WorkConserving.finished (h : WorkConserving arrival work schedule)
    (harrival : ∀ i, 0 ≤ arrival i) (hwork : ∀ i, 0 ≤ work i) {r : ℤ}
    (hr : ∀ i, arrival i + ∑ j with arrival i ≤ arrival j, work j ≤ r) (ht : r ≤ t) (i : ι) :
    done schedule i t = work i := by
  apply le_antisymm (h.done_le (hwork i) t)
  by_contra! hleft
  obtain ⟨s, hs, hbusy, hbefore⟩ := exists_busy_since schedule t
  -- the jobs that have run since the last idle slot, and the first of them to arrive
  let late : Finset ι := Finset.univ.filter fun j => (s : ℤ) ≤ arrival j
  have hi : i ∈ late := by
    simpa [late] using h.arrival_of_idle (harrival i) hbefore hs hleft
  obtain ⟨first, hfirst, hmin⟩ := late.exists_min_image arrival ⟨i, hi⟩
  have hlate : late = Finset.univ.filter fun j => arrival first ≤ arrival j := by
    ext j
    have hs' : (s : ℤ) ≤ arrival first := by simpa [late] using hfirst
    simp only [late, Finset.mem_filter, Finset.mem_univ, true_and]
    constructor
    · exact fun hj => hmin j (by simpa [late] using hj)
    · exact fun hj => hs'.trans hj
  have hslots : t - s ≤ ∑ j ∈ late, done schedule j t := by
    have hsub : Finset.Ico s t ⊆
        late.biUnion fun j => (Finset.range t).filter fun u => schedule u = some j := by
      intro u hu
      obtain ⟨hsu, hut⟩ := Finset.mem_Ico.mp hu
      obtain ⟨j, hj⟩ := Option.ne_none_iff_exists'.mp (hbusy u hsu hut)
      have hjlate := h.arrival_of_idle (harrival j) hbefore hsu (h.unfinished u j hj)
      simp only [Finset.mem_biUnion, Finset.mem_filter, Finset.mem_range]
      exact ⟨j, by simpa [late] using hjlate, hut, hj⟩
    calc t - s = (Finset.Ico s t).card := (Nat.card_Ico s t).symm
      _ ≤ _ := Finset.card_le_card hsub
      _ ≤ _ := Finset.card_biUnion_le
  have hsum : ∑ j ∈ late, (done schedule j t : ℤ) < ∑ j ∈ late, work j := by
    apply Finset.sum_lt_sum
    · exact fun j _ => h.done_le (hwork j) t
    · exact ⟨i, hi, hleft⟩
  have hbound := hr first
  rw [← hlate] at hbound
  have hs' : (s : ℤ) ≤ arrival first := by simpa [late] using hfirst
  have hslots' : (t : ℤ) - s ≤ ∑ j ∈ late, (done schedule j t : ℤ) := by
    have hcast : ((t - s : ℕ) : ℤ) = t - s := Int.ofNat_sub hs
    rw [← hcast]
    exact_mod_cast hslots
  omega

end Schedules

section Sums

/-- The running sum over jobs, each an arrival and its work. -/
def finish (jobs : List (ℤ × ℤ)) : ℤ := jobs.foldl (fun r job => max r job.1 + job.2) 0

/-- The work that arrives from `t` on. -/
def workFrom (t : ℤ) (jobs : List (ℤ × ℤ)) : ℤ :=
  (jobs.map fun job => if t ≤ job.1 then job.2 else 0).sum

/-- The sum of all work, or an arrival and the work that arrives from then on. -/
def IsBound (jobs : List (ℤ × ℤ)) (b : ℤ) : Prop :=
  b = (jobs.map Prod.snd).sum ∨ ∃ job ∈ jobs, b = job.1 + workFrom job.1 jobs

variable {jobs : List (ℤ × ℤ)} {job : ℤ × ℤ} {t b : ℤ}

lemma finish_append (jobs : List (ℤ × ℤ)) (job : ℤ × ℤ) :
    finish (jobs ++ [job]) = max (finish jobs) job.1 + job.2 := by
  rw [finish, List.foldl_append]
  rfl

lemma workFrom_append (t : ℤ) (jobs : List (ℤ × ℤ)) (job : ℤ × ℤ) :
    workFrom t (jobs ++ [job]) = workFrom t jobs + if t ≤ job.1 then job.2 else 0 := by
  simp [workFrom]

lemma workFrom_nonneg (hwork : ∀ job ∈ jobs, 0 ≤ job.2) (t : ℤ) : 0 ≤ workFrom t jobs := by
  apply List.sum_nonneg
  intro x hx
  obtain ⟨job, hjob, rfl⟩ := List.mem_map.mp hx
  split_ifs
  · exact hwork job hjob
  · exact le_rfl

lemma workFrom_eq_zero (hearly : ∀ job ∈ jobs, job.1 < t) : workFrom t jobs = 0 := by
  apply List.sum_eq_zero
  intro x hx
  obtain ⟨job, hjob, rfl⟩ := List.mem_map.mp hx
  exact if_neg (not_le.mpr (hearly job hjob))

lemma sum_le_finish (jobs : List (ℤ × ℤ)) : (jobs.map Prod.snd).sum ≤ finish jobs := by
  induction jobs using List.reverseRecOn with
  | nil => exact le_rfl
  | append_singleton jobs job ih =>
    have hmax := le_max_left (finish jobs) job.1
    rw [finish_append, List.map_append, List.sum_append, List.map_singleton, List.sum_singleton]
    omega

lemma add_workFrom_le_finish (hwork : ∀ job ∈ jobs, 0 ≤ job.2) (hlate : ∃ job ∈ jobs, t ≤ job.1) :
    t + workFrom t jobs ≤ finish jobs := by
  induction jobs using List.reverseRecOn with
  | nil => simp at hlate
  | append_singleton jobs job ih =>
    have hjobs : ∀ job' ∈ jobs, 0 ≤ job'.2 := fun job' h => hwork job' (by simp [h])
    have hjob := hwork job (by simp)
    have hleft := le_max_left (finish jobs) job.1
    have hright := le_max_right (finish jobs) job.1
    rw [finish_append, workFrom_append]
    by_cases hearlier : ∃ job' ∈ jobs, t ≤ job'.1
    · have hih := ih hjobs hearlier
      split_ifs <;> omega
    · have hnone : ∀ job' ∈ jobs, job'.1 < t := by simpa using hearlier
      have hlast : t ≤ job.1 := by
        obtain ⟨job', hmem, ht⟩ := hlate
        rcases List.mem_append.mp hmem with hmem | hmem
        · exact absurd (hnone job' hmem) (not_lt.mpr ht)
        · rwa [← List.mem_singleton.mp hmem]
      rw [workFrom_eq_zero hnone, if_pos hlast]
      omega

theorem le_finish (hwork : ∀ job ∈ jobs, 0 ≤ job.2) (hb : IsBound jobs b) : b ≤ finish jobs := by
  rcases hb with rfl | ⟨job, hjob, rfl⟩
  · exact sum_le_finish jobs
  · exact add_workFrom_le_finish hwork ⟨job, hjob, le_rfl⟩

/-- In the order of arrival the running sum is one of the bounds: a job that comes when all earlier
work is done starts a new one, any other one adds to the bound so far. -/
theorem isBound_finish (hwork : ∀ job ∈ jobs, 0 ≤ job.2)
    (hsorted : jobs.Pairwise fun job job' => job.1 ≤ job'.1) : IsBound jobs (finish jobs) := by
  induction jobs using List.reverseRecOn with
  | nil => exact .inl rfl
  | append_singleton jobs job ih =>
    have hjobs : ∀ job' ∈ jobs, 0 ≤ job'.2 := fun job' h => hwork job' (by simp [h])
    obtain ⟨hbefore, -, hlast⟩ := List.pairwise_append.mp hsorted
    have hle : ∀ job' ∈ jobs, job'.1 ≤ job.1 := fun job' h => hlast job' h job (by simp)
    rw [finish_append]
    rcases le_or_gt job.1 (finish jobs) with hbusy | hidle
    · rw [max_eq_left hbusy]
      rcases ih hjobs hbefore with hsum | ⟨job', hjob', hsum⟩
      · left
        rw [hsum, List.map_append, List.sum_append, List.map_singleton, List.sum_singleton]
      · right
        refine ⟨job', by simp [hjob'], ?_⟩
        rw [hsum, workFrom_append, if_pos (hle job' hjob'), add_assoc]
    · right
      refine ⟨job, by simp, ?_⟩
      have hzero : workFrom job.1 jobs = 0 := by
        by_cases htie : ∃ job' ∈ jobs, job.1 ≤ job'.1
        · have hbound := add_workFrom_le_finish hjobs htie
          have hnonneg := workFrom_nonneg hjobs job.1
          omega
        · exact workFrom_eq_zero (by simpa using htie)
      rw [max_eq_right hidle.le, workFrom_append, hzero, if_pos le_rfl, zero_add]

lemma workFrom_eq_sum (t : ℤ) (jobs : List (ℤ × ℤ)) :
    workFrom t jobs = ∑ j : Fin jobs.length with t ≤ (jobs.get j).1, (jobs.get j).2 := by
  rw [workFrom, Finset.sum_filter, ← List.sum_ofFn]
  congr 1
  conv_lhs => rw [← List.ofFn_get jobs]
  rw [List.map_ofFn]
  rfl

end Sums

end Eece315.SingleProcessor
