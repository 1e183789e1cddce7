import Eece315.DispatcherTime

/-! What is finished when `main` leaves its loop. A call that runs a process takes one quantum off
the work of the file, so that all processes terminate exactly when the file asks for no more than
20 quanta and no call stays idle that is needed for what is left. -/
namespace Eece315.DispatcherCompletion
open HeapChain DispatcherQueue DispatcherResources DispatcherSystem DispatcherAbstract
open DispatcherGlobals DispatcherTime

/-- The loop condition of `main` is `time < 20`; the one with the runtime is commented out. -/
def LOOP_BOUND : ℕ := 20

/-- When `main` leaves its loop every process of the file has terminated. -/
def Finished (lines : List Args) : Prop :=
  ∃ s, mainLoop lines LOOP_BOUND = some s ∧
    ∀ c, 1 ≤ c → c ≤ lines.length → c ∈ terminated s.globals.out

/-- A line that the dispatcher can serve: a priority from 0 to 3, an arrival time that is not
negative, some processor time and requests that fit an empty host. -/
structure Servable (args : Args) : Prop where
  priority : 0 ≤ args 1 ∧ args 1 ≤ 3
  arrivalTime : 0 ≤ args 0
  processorTime : 1 ≤ args 2
  requests : ∀ k, Fits (processOf 1 args) DispatcherSystem.initSystem.globals.host k

def busy (lines : List Args) (n : ℕ) : Bool :=
  match (mainLoop lines n).bind (updateDispatcher n) with
  | some (rt, s) => (nextProcess rt s).isSome
  | none => false

def busyCalls (lines : List Args) (n : ℕ) : ℕ := (List.range n).countP (busy lines)

def totalTime (lines : List Args) : ℤ := (lines.map Args.processorTime).sum

def workLeft (lines : List Args) (g : Globals) : ℤ :=
  ((loaded lines).map fun c => (g.pcb c).remainingTime).sum

/-- The file asks for no more than 20 quanta, and a call only finds no process to run, be it that
none has arrived, that those that wait are not looked at or that they have been lost, in a state
in which the later calls suffice for the work that is left. -/
structure InTime (lines : List Args) : Prop where
  total : totalTime lines ≤ 20
  idle : ∀ n < 20, ∀ rt s, Call lines n rt s → nextProcess rt s = none →
    workLeft lines s.globals ≤ 19 - n

section Counting

variable {lines : List Args} {n : ℕ}

lemma busy_call {rt : Bool} {s : System} (h : Call lines n rt s) :
    busy lines n = (nextProcess rt s).isSome := by
  obtain ⟨s₀, hs₀, hu⟩ := h
  simp [busy, hs₀, hu]

lemma busyCalls_succ (lines : List Args) (n : ℕ) :
    busyCalls lines (n + 1) = busyCalls lines n + if busy lines n then 1 else 0 := by
  rw [busyCalls, busyCalls, List.range_succ, List.countP_append, List.countP_singleton]

lemma length_quanta (lines : List Args) (n : ℕ) :
    (quanta (Abstract.mainLoop lines n).globals.out).length = busyCalls lines n := by
  induction n with
  | zero =>
    rw [mainLoop_zero_globals]
    rfl
  | succ n ih =>
    obtain ⟨rt, s, hs⟩ := exists_call lines n
    rw [quanta_call hs, List.length_append, ih, busyCalls_succ, busy_call hs]
    cases nextProcess rt s <;> simp

lemma mem_quanta {c : ℕ} (hc : c ∈ quanta (Abstract.mainLoop lines n).globals.out) :
    c ∈ loaded lines := by
  induction n with
  | zero =>
    rw [mainLoop_zero_globals] at hc
    cases hc
  | succ n ih =>
    obtain ⟨rt, s, hs⟩ := exists_call lines n
    rw [quanta_call hs, List.mem_append] at hc
    rcases hc with hc | hc
    · exact ih hc
    · obtain ⟨a, hsim, -, hle, hrt⟩ := call_timed hs
      rw [nextProcess_eq hsim, Option.mem_toList] at hc
      exact (current_of_ledger (nodup_loaded lines)
        ((Abstract.ledger_selectProcess_le hrt).trans hle) hc).1

lemma sum_quantaRun (lines : List Args) (n : ℕ) :
    ∑ c ∈ (loaded lines).toFinset, quantaRun (Abstract.mainLoop lines n).globals c =
      busyCalls lines n := by
  have hsum := Multiset.sum_count_eq_card (s := (loaded lines).toFinset)
    (m := (quanta (Abstract.mainLoop lines n).globals.out : Multiset ℕ)) fun c hc =>
      List.mem_toFinset.mpr (mem_quanta (Multiset.mem_coe.mp hc))
  rw [Multiset.coe_card, length_quanta] at hsum
  rw [← hsum]
  exact Finset.sum_congr rfl fun c _ => (Multiset.coe_count c _).symm

lemma busyCalls_le (lines : List Args) (n : ℕ) : busyCalls lines n ≤ n :=
  List.countP_le_length.trans_eq List.length_range

lemma busyCalls_add_le (lines : List Args) (n m : ℕ) :
    busyCalls lines (n + m) ≤ busyCalls lines n + m := by
  induction m with
  | zero => exact le_rfl
  | succ m ih =>
    rw [← add_assoc, busyCalls_succ]
    split_ifs <;> omega

lemma argsOf_mem {c : ℕ} (hc : c ∈ loaded lines) : argsOf lines c ∈ lines := by
  obtain ⟨h1, hlen, -⟩ := mem_loaded_iff.mp hc
  rw [argsOf, List.getD_eq_getElem _ _ (by omega)]
  exact List.getElem_mem _

lemma sum_processorTime (hlen : lines.length ≤ MAX_PROCESSES) :
    ∑ c ∈ (loaded lines).toFinset, processorTime lines c = totalTime lines := by
  rw [List.sum_toFinset _ (Multiset.coe_nodup.mp (nodup_loaded lines)), totalTime, loaded,
    min_eq_left hlen]
  congr 1
  apply List.ext_getElem
  · simp
  · intro i hi _
    simp only [List.length_map, List.length_range'] at hi
    simp [processorTime, argsOf, hi]

lemma quanta_of_call {rt : Bool} {s : System} (hs : Call lines n rt s) :
    quanta s.globals.out = quanta (Abstract.mainLoop lines n).globals.out := by
  have hk : KeptByOffers (loaded lines) fun g =>
      quanta g.out = quanta (Abstract.mainLoop lines n).globals.out := by
    refine ⟨fun g hg c _ => hg, fun g hg c => ?_⟩
    rw [← hg]
    simp [Globals.print, quanta]
  exact hk.call rfl hs

lemma workLeft_call (hlen : lines.length ≤ MAX_PROCESSES) {rt : Bool} {s : System}
    (hs : Call lines n rt s) :
    workLeft lines s.globals = totalTime lines - busyCalls lines n := by
  obtain ⟨a, hsim, htimed, -, -⟩ := call_timed hs
  have hrem : ∀ c ∈ (loaded lines).toFinset, (s.globals.pcb c).remainingTime =
      processorTime lines c - (quantaRun (Abstract.mainLoop lines n).globals c : ℤ) := by
    intro c hc
    rw [hsim.2, htimed.remaining c (List.mem_toFinset.mp hc), quantaRun, quantaRun, ← hsim.2,
      quanta_of_call hs]
  have hquanta := congrArg (Nat.cast : ℕ → ℤ) (sum_quantaRun lines n)
  rw [Nat.cast_sum] at hquanta
  rw [workLeft, ← List.sum_toFinset _ (Multiset.coe_nodup.mp (nodup_loaded lines)),
    Finset.sum_congr rfl hrem, Finset.sum_sub_distrib, sum_processorTime hlen, hquanta]

lemma length_le_totalTime (h : ∀ args ∈ lines, 1 ≤ args 2) :
    (lines.length : ℤ) ≤ totalTime lines := by
  have hsum := List.card_nsmul_le_sum (lines.map Args.processorTime) 1
    (by simpa [Args.processorTime] using h)
  simpa [totalTime] using hsum

variable (h : ∀ args ∈ lines, 1 ≤ args 2)

include h

lemma quantaRun_le {c : ℕ} (hc : c ∈ loaded lines) (n : ℕ) :
    quantaRun (Abstract.mainLoop lines n).globals c ≤ processorTime lines c ∧
      (quantaRun (Abstract.mainLoop lines n).globals c = processorTime lines c ↔
        c ∈ terminated (Abstract.mainLoop lines n).globals.out) := by
  have htimed := timed_mainLoop lines n
  have hrem := htimed.remaining c hc
  have hpos : 1 ≤ processorTime lines c := h _ (argsOf_mem hc)
  by_cases hterm : c ∈ terminated (Abstract.mainLoop lines n).globals.out
  · have hzero := htimed.spent c hc hterm
    exact ⟨by omega, iff_of_true (by omega) hterm⟩
  · have hleft := htimed.left c hc hpos hterm
    exact ⟨by omega, iff_of_false (by omega) hterm⟩

lemma all_terminated_iff (hlen : lines.length ≤ MAX_PROCESSES) (n : ℕ) :
    (∀ c ∈ loaded lines, c ∈ terminated (Abstract.mainLoop lines n).globals.out) ↔
      totalTime lines ≤ busyCalls lines n := by
  have hquanta : ((busyCalls lines n : ℕ) : ℤ) = ∑ c ∈ (loaded lines).toFinset,
      (quantaRun (Abstract.mainLoop lines n).globals c : ℤ) := by
    rw [← sum_quantaRun]
    exact Nat.cast_sum _ _
  have hle : ∀ c ∈ (loaded lines).toFinset,
      (quantaRun (Abstract.mainLoop lines n).globals c : ℤ) ≤ processorTime lines c :=
    fun c hc => (quantaRun_le h (List.mem_toFinset.mp hc) n).1
  have hsum := Finset.sum_le_sum hle
  have heq := Finset.sum_eq_sum_iff_of_le hle
  rw [← hquanta, sum_processorTime hlen] at hsum heq
  constructor
  · intro hall
    refine (heq.mpr fun c hc => ?_).ge
    have hc' := List.mem_toFinset.mp hc
    exact (quantaRun_le h hc' n).2.mpr (hall c hc')
  · intro htotal c hc
    exact (quantaRun_le h hc n).2.mp (heq.mp (hsum.antisymm htotal) c (List.mem_toFinset.mpr hc))

end Counting

lemma loaded_of_terminated {lines : List Args} {n c : ℕ}
    (hc : c ∈ terminated (Abstract.mainLoop lines n).globals.out) : c ∈ loaded lines := by
  apply Multiset.mem_coe.mp
  apply Multiset.mem_of_le (ledger_mainLoop_le lines n)
  exact Multiset.mem_add.mpr (.inr (Multiset.mem_add.mpr (.inr (Multiset.mem_coe.mpr hc))))

lemma finished_eq (lines : List Args) : Finished lines ↔ ∀ c, 1 ≤ c → c ≤ lines.length →
    c ∈ terminated (Abstract.mainLoop lines LOOP_BOUND).globals.out := by
  obtain ⟨s, hs, hsim, -⟩ := simulates_mainLoop lines LOOP_BOUND
  rw [← hsim.2]
  constructor
  · rintro ⟨t, ht, hall⟩
    obtain rfl : s = t := Option.some.inj (hs.symm.trans ht)
    exact hall
  · intro hall
    exact ⟨s, hs, hall⟩

section Bound

variable {lines : List Args}

lemma totalTime_le_iff (hlen : lines.length ≤ MAX_PROCESSES) :
    totalTime lines ≤ busyCalls lines 20 ↔ InTime lines := by
  constructor
  · intro htotal
    have hall := busyCalls_le lines 20
    refine ⟨by omega, fun n hn rt s hs hidle => ?_⟩
    have hrest := busyCalls_add_le lines (n + 1) (19 - n)
    rw [busyCalls_succ, busy_call hs, hidle, show n + 1 + (19 - n) = 20 by omega] at hrest
    simp only [Option.isSome_none, Bool.false_eq_true, if_false] at hrest
    rw [workLeft_call hlen hs]
    omega
  · intro hin
    have hleft : ∀ n ≤ 20, totalTime lines - busyCalls lines n ≤ 20 - n := by
      intro n hn
      induction n with
      | zero => simpa [busyCalls] using hin.total
      | succ n ih =>
        obtain ⟨rt, s, hs⟩ := exists_call lines n
        have hbefore := ih (by omega)
        rw [busyCalls_succ, busy_call hs]
        cases hnext : nextProcess rt s with
        | none =>
          have hidle := hin.idle n (by omega) rt s hs hnext
          rw [workLeft_call hlen hs] at hidle
          simp only [Option.isSome_none, Bool.false_eq_true, if_false]
          omega
        | some c =>
          simp only [Option.isSome_some, if_true]
          omega
    have hend := hleft 20 le_rfl
    omega

/-- With some processor time in every line, all processes have terminated when `main` leaves its
loop exactly when the file asks for at most 20 quanta and no call stays idle that is needed. -/
theorem finished_iff (h : ∀ args ∈ lines, 1 ≤ args 2) : Finished lines ↔ InTime lines := by
  rw [finished_eq]
  by_cases hlen : lines.length ≤ MAX_PROCESSES
  · rw [← totalTime_le_iff hlen]
    refine Iff.trans ?_ (all_terminated_iff h hlen LOOP_BOUND)
    constructor
    · intro hall c hc
      obtain ⟨h1, hlen', -⟩ := mem_loaded_iff.mp hc
      exact hall c h1 hlen'
    · intro hall c h1 hc
      exact hall c (mem_loaded_iff.mpr ⟨h1, hc, hc.trans hlen⟩)
  · rw [not_le, MAX_PROCESSES] at hlen
    apply iff_of_false
    · intro hall
      -- a line beyond the last one that is read
      have hlast := mem_loaded_iff.mp (loaded_of_terminated (hall 1001 (by omega) (by omega)))
      rw [MAX_PROCESSES] at hlast
      omega
    · intro hin
      have hlong := length_le_totalTime h
      have htotal := hin.total
      omega

/-- The first call finds nothing to run. Then two processes of different classes finish in five
quanta, and the later calls are idle too. -/
theorem finished_iff_demo : ∃ lines, totalTime lines = 5 ∧ InTime lines ∧ Finished lines := by
  let lines : List Args := [![1, 1, 2, 16, 0, 0, 0, 0], ![2, 0, 3, 0, 1, 0, 0, 0]]
  have hidle : ∀ n < 20, ∀ r ∈ (mainLoop lines n).bind (updateDispatcher n),
      nextProcess r.1 r.2 = none → workLeft lines r.2.globals ≤ 19 - n := by decide +kernel
  have hin : InTime lines := by
    refine ⟨by decide, fun n hn rt s hs hnext => ?_⟩
    obtain ⟨s₀, hs₀, hu⟩ := hs
    exact hidle n hn (rt, s) (Option.bind_eq_some_iff.mpr ⟨s₀, hs₀, hu⟩) hnext
  exact ⟨lines, by decide, hin, (finished_iff (by simp [lines])).mpr hin⟩

/-- A single process that needs one quantum more than the loop has. -/
theorem finished_fails : ¬ ∀ lines, (∀ args ∈ lines, Servable args) → Finished lines := by
  intro h
  let lines : List Args := [![0, 1, 21, 0, 0, 0, 0, 0]]
  have hserve : ∀ args ∈ lines, Servable args := by
    intro args hargs
    rw [List.mem_singleton.mp hargs]
    exact ⟨by decide, by decide, by decide, fun k => by cases k <;> exact .inl rfl⟩
  have hfin := (finished_eq lines).mp (h lines hserve)
  have htime : ∀ args ∈ lines, 1 ≤ args 2 := fun args hargs => (hserve args hargs).3
  have hall := (all_terminated_iff htime
    (show 1 ≤ MAX_PROCESSES by simp [MAX_PROCESSES]) LOOP_BOUND).mp fun c hc => by
      obtain ⟨h1, hlen, -⟩ := mem_loaded_iff.mp hc
      exact hfin c h1 hlen
  have hbusy := busyCalls_le lines LOOP_BOUND
  have htotal : totalTime lines = 21 := by decide
  rw [htotal] at hall
  rw [LOOP_BOUND] at hbusy hall
  omega

end Bound

end Eece315.DispatcherCompletion
