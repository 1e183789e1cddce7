import Eece315.DispatcherRuns
import Eece315.SingleProcessor

/-! The time that `readFile` computes for the whole list. It is a running sum over the lines in the
order of the file, and bounds the time that any schedule needs which does not leave the processor
idle while there is work. -/
namespace Eece315.DispatcherRuntime
open DispatcherSystem DispatcherAbstract SingleProcessor

def jobs (lines : List Args) : List (ℤ × ℤ) :=
  (lines.take MAX_PROCESSES).map fun args => (args.arrivalTime, args.processorTime)

lemma updateRuntime_processOf (runtime : ℤ) (pid : ℕ) (args : Args) :
    updateRuntime runtime (processOf pid args) =
      max runtime args.arrivalTime + args.processorTime := by
  have hrun : updateRuntime runtime (processOf pid args) =
      if args.arrivalTime + args.processorTime > runtime + args.processorTime then
        args.arrivalTime + args.processorTime
      else runtime + args.processorTime := rfl
  rw [hrun]
  split_ifs with h
  · rw [max_eq_right (by omega)]
  · rw [max_eq_left (by omega)]

lemma readLines_runtime (lines : List Args) (pid : ℕ) (a : Abstract) :
    (Abstract.readLines pid lines a).globals.runtime =
      ((lines.take (MAX_PROCESSES + 1 - pid)).map fun args =>
        (args.arrivalTime, args.processorTime)).foldl (fun r job => max r job.1 + job.2)
        a.globals.runtime := by
  induction lines generalizing pid a with
  | nil => simp [Abstract.readLines]
  | cons args lines ih =>
    unfold Abstract.readLines
    by_cases hpid : pid ≤ MAX_PROCESSES
    · have hroom : MAX_PROCESSES + 1 - pid = (MAX_PROCESSES + 1 - (pid + 1)) + 1 := by omega
      rw [if_pos hpid, ih, hroom, List.take_succ_cons, List.map_cons, List.foldl_cons,
        ← updateRuntime_processOf _ pid]
      rfl
    · have hroom : MAX_PROCESSES + 1 - pid = 0 := by omega
      rw [if_neg hpid, hroom]
      rfl

lemma runtime_eq (lines : List Args) :
    ∃ s, mainLoop lines 0 = some s ∧ s.globals.runtime = finish (jobs lines) := by
  obtain ⟨s, hs, ⟨-, hglobals⟩, -⟩ := simulates_mainLoop lines 0
  refine ⟨s, hs, ?_⟩
  rw [hglobals]
  exact readLines_runtime lines 1 _

/-- The runtime is no less than an arrival time and the processor times of what arrives from then
on, and no less than the sum of all processor times; it is one of these if the file is sorted. No
schedule that is never idle while there is work takes longer. -/
theorem runtime_bounds {lines : List Args} (harrival : ∀ args ∈ lines, 0 ≤ args.arrivalTime)
    (hwork : ∀ args ∈ lines, 0 ≤ args.processorTime) :
    ∃ s, mainLoop lines 0 = some s ∧
      (∀ b, IsBound (jobs lines) b → b ≤ s.globals.runtime) ∧
      ((jobs lines).Pairwise (fun job job' => job.1 ≤ job'.1) →
        IsBound (jobs lines) s.globals.runtime) ∧
      ∀ schedule (t : ℕ), WorkConserving (fun i => ((jobs lines).get i).1)
          (fun i => ((jobs lines).get i).2) schedule →
        s.globals.runtime ≤ t → ∀ i, done schedule i t = ((jobs lines).get i).2 := by
  obtain ⟨s, hs, hruntime⟩ := runtime_eq lines
  have hjobs : ∀ job ∈ jobs lines, 0 ≤ job.1 ∧ 0 ≤ job.2 := by
    intro job hjob
    obtain ⟨args, hargs, rfl⟩ := List.mem_map.mp hjob
    have hmem := List.mem_of_mem_take hargs
    exact ⟨harrival args hmem, hwork args hmem⟩
  have hwork' : ∀ job ∈ jobs lines, 0 ≤ job.2 := fun job hjob => (hjobs job hjob).2
  refine ⟨s, hs, ?_, ?_, ?_⟩
  · intro b hb
    rw [hruntime]
    exact le_finish hwork' hb
  · intro hsorted
    rw [hruntime]
    exact isBound_finish hwork' hsorted
  · intro schedule t hschedule ht i
    apply hschedule.finished (fun i => (hjobs _ (List.get_mem _ i)).1)
      (fun i => (hjobs _ (List.get_mem _ i)).2) _ ht
    intro i
    rw [← workFrom_eq_sum, hruntime]
    exact le_finish hwork' (.inr ⟨_, List.get_mem _ i, rfl⟩)

/-- Two lines, the first with arrival and processor time 1, the second with 2. -/
theorem runtime_bounds_demo :
    ∃ s, mainLoop [fun _ => 1, fun _ => 2] 0 = some s ∧
      IsBound (jobs [fun _ => 1, fun _ => 2]) s.globals.runtime := by
  have hpositive : ∀ args ∈ [fun _ => 1, fun _ => (2 : ℤ)],
      0 ≤ Args.arrivalTime args ∧ 0 ≤ Args.processorTime args := by
    simp [Args.arrivalTime, Args.processorTime]
  obtain ⟨s, hs, -, hsorted, -⟩ := runtime_bounds (fun args h => (hpositive args h).1)
    (fun args h => (hpositive args h).2)
  exact ⟨s, hs, hsorted (by decide)⟩

end Eece315.DispatcherRuntime
