import Eece315.DispatcherOwnershipRuns

/-! Invariants of the globals. A property that every single update of the globals keeps holds in
all states of a run of `main`, whatever the queues do in between. -/
namespace Eece315.DispatcherGlobals
open HeapChain DispatcherQueue DispatcherResources DispatcherSystem DispatcherAbstract
open DispatcherOwnership

/-- `P` is kept by the offers of `updateDispatcher` to the processes `cs`. -/
structure KeptByOffers (cs : List ℕ) (P : Globals → Prop) : Prop where
  allocate : ∀ g, P g → ∀ c ∈ cs, P (g.allocate c).2
  initialized : ∀ g, P g → ∀ c, P (g.print (.initialized c))

/-- `P` is kept when `doProcessing` selects a process. -/
structure KeptBySelect (P : Globals → Prop) : Prop where
  suspend : ∀ g, P g → ∀ c, P (g.suspend c)
  dispatch : ∀ g, P g → ∀ c slice, P (g.dispatch c slice)

/-- `P` is kept by what the program does to its globals. Only processes from `cs` that have not
terminated are run. -/
structure Kept (cs : List ℕ) (P : Globals → Prop) : Prop
    extends KeptByOffers cs P, KeptBySelect P where
  quantum : ∀ g, P g → (∀ c, g.currentProcess = some c → c ∈ cs ∧ c ∉ terminated g.out) →
    P g.quantum.1

lemma setPcb_related {R : PCB → PCB → Prop} (hrefl : ∀ p, R p p) {g : Globals} {c : ℕ} {p : PCB}
    (h : R (g.pcb c) p) (d : ℕ) : R (g.pcb d) ((g.setPcb c p).pcb d) := by
  by_cases hd : d = c
  · subst hd
    simpa [Globals.setPcb] using h
  · simpa [Globals.setPcb, Function.update_of_ne hd] using hrefl (g.pcb d)

section Steps

variable {cs : List ℕ} {P : Globals → Prop} {a : Abstract}

lemma KeptByOffers.offer (hk : KeptByOffers cs P) {st : Offers} (h : P st.system.globals)
    {c : ℕ} (hc : c ∈ cs) (time : ℤ) : P (st.offer time c).system.globals := by
  have hattempt : P (st.attempt c).system.globals := hk.allocate _ h c hc
  rcases st.offer_cases time c with ⟨-, he⟩ | ⟨-, -, he⟩ | ⟨-, -, he⟩ <;> rw [he]
  · exact hk.initialized _ hattempt c
  · exact hattempt
  · exact h

lemma KeptByOffers.offers (hk : KeptByOffers cs P) (h : P a.globals) {done : List ℕ}
    (hd : ∀ c ∈ done, c ∈ cs) (time : ℤ) : P (a.offers time done).system.globals :=
  List.foldlRecOn done (motive := fun st : Offers => P st.system.globals) _ h
    fun _ hst c hc => hk.offer hst (hd c hc) time

lemma KeptByOffers.updateDispatcher (hk : KeptByOffers cs P) (h : P a.globals)
    (hd : ∀ c ∈ (a.queue .dispatcher).processes, c ∈ cs) (time : ℤ) :
    P (a.updateDispatcher time).2.globals := hk.offers h hd time

lemma KeptBySelect.dispatchFrom (hk : KeptBySelect P) (h : P a.globals) (name : QueueName)
    (slice : PCB → ℤ) : P (a.dispatchFrom name slice).globals := by
  unfold Abstract.dispatchFrom
  split
  · exact hk.dispatch _ h _ _
  · exact h

lemma KeptBySelect.selectProcess (hk : KeptBySelect P) (h : P a.globals) (rtUpdated : Bool) :
    P (a.selectProcess rtUpdated).globals := by
  unfold Abstract.selectProcess
  split
  · rename_i c hc
    split_ifs
    · apply hk.dispatchFrom
      exact hk.suspend _ h c
    · exact h
  · split_ifs <;> exact hk.dispatchFrom h _ _

lemma current_of_ledger (hn : (cs : Multiset ℕ).Nodup) (hle : a.ledger ≤ (cs : Multiset ℕ)) {c : ℕ}
    (hc : a.globals.currentProcess = some c) : c ∈ cs ∧ c ∉ terminated a.globals.out := by
  have hmem : c ∈ (a.globals.currentProcess.toList : Multiset ℕ) := by simp [hc]
  constructor
  · apply Multiset.mem_coe.mp
    apply Multiset.mem_of_le hle
    exact Multiset.mem_add.mpr (.inr (Multiset.mem_add.mpr (.inl hmem)))
  · exact current_notMem_terminated (Multiset.nodup_of_le hle hn) hc

lemma Kept.doProcessing (hk : Kept cs P) (h : P a.globals) (hn : (cs : Multiset ℕ).Nodup)
    (hle : a.ledger ≤ (cs : Multiset ℕ)) {rtUpdated : Bool}
    (hrt : rtUpdated = true → (a.queue .realTimeQueue).processes ≠ []) :
    P (a.doProcessing rtUpdated).globals := by
  rw [Abstract.doProcessing, runProcess_globals]
  apply hk.quantum _ (hk.selectProcess h rtUpdated)
  intro c hc
  exact current_of_ledger hn ((Abstract.ledger_selectProcess_le hrt).trans hle) hc

lemma mem_of_ledger (hle : a.ledger ≤ (cs : Multiset ℕ)) {name : QueueName} {c : ℕ}
    (hc : c ∈ (a.queue name).processes) : c ∈ cs := by
  apply Multiset.mem_coe.mp
  apply Multiset.mem_of_le hle
  apply Multiset.mem_add.mpr
  left
  exact Multiset.mem_sum.mpr ⟨name, Finset.mem_univ _, Multiset.mem_coe.mpr hc⟩

lemma Kept.iteration (hk : Kept cs P) (h : P a.globals) (hn : (cs : Multiset ℕ).Nodup)
    (hle : a.ledger ≤ (cs : Multiset ℕ)) (time : ℤ) : P (a.iteration time).globals :=
  hk.doProcessing (hk.updateDispatcher h (fun _ hc => mem_of_ledger hle hc) time) hn
    ((Abstract.ledger_updateDispatcher_le time a).trans hle) (updateDispatcher_realTime time a)

end Steps

lemma mem_loaded {lines : List Args} {n c : ℕ} {name : QueueName}
    (hc : c ∈ ((Abstract.mainLoop lines n).queue name).processes) : c ∈ loaded lines :=
  mem_of_ledger (ledger_mainLoop_le lines n) hc

section Runs

variable {lines : List Args} {P : Globals → Prop}

theorem Kept.mainLoop (hk : Kept (loaded lines) P) (h : P (Abstract.mainLoop lines 0).globals)
    (n : ℕ) : P (Abstract.mainLoop lines n).globals := by
  induction n with
  | zero => exact h
  | succ n ih => exact hk.iteration ih (nodup_loaded lines) (ledger_mainLoop_le lines n) n

lemma KeptByOffers.call (hk : KeptByOffers (loaded lines) P) {n : ℕ} {rt : Bool} {s : System}
    (h : P (Abstract.mainLoop lines n).globals) (hs : Call lines n rt s) : P s.globals := by
  obtain ⟨a, hsim, rfl, -⟩ := hs.simulates
  rw [hsim.2]
  exact hk.updateDispatcher h (fun _ hc => mem_loaded hc) n

theorem KeptByOffers.visited (hk : KeptByOffers (loaded lines) P) {N : ℕ}
    (h : ∀ n ≤ N, P (Abstract.mainLoop lines n).globals) {s : System} (hs : Visited lines N s) :
    P s.globals := by
  cases hs with
  | @border n s hn hs =>
    obtain ⟨hsim, -⟩ := simulates_of_mainLoop hs
    rw [hsim.2]
    exact h n hn
  | @offering n s st hn hs loop =>
    obtain ⟨hsim, -⟩ := simulates_of_mainLoop hs
    obtain ⟨done, later, rest, hd, -, hoff⟩ := LoopState.simulates hsim loop
    rw [hoff.2.1]
    apply hk.offers (h n hn.le)
    intro c hc
    have hmem : c ∈ ((Abstract.mainLoop lines n).queue .dispatcher).processes :=
      hd ▸ List.mem_append_left _ hc
    exact mem_loaded hmem
  | @call n rt s hn hs => exact hk.call (h n hn.le) hs

theorem Kept.visited (hk : Kept (loaded lines) P) (h : P (Abstract.mainLoop lines 0).globals)
    {N : ℕ} {s : System} (hs : Visited lines N s) : P s.globals :=
  hk.toKeptByOffers.visited (fun n _ => hk.mainLoop h n) hs

end Runs

section File

/-! The state that `readFile` leaves. -/

def argsOf (lines : List Args) (c : ℕ) : Args := lines.getD (c - 1) 0

lemma readLines_pcb_lt (lines : List Args) {pid c : ℕ} (hc : c < pid) (a : Abstract) :
    (Abstract.readLines pid lines a).globals.pcb c = a.globals.pcb c := by
  induction lines generalizing pid a with
  | nil => rfl
  | cons args lines ih =>
    unfold Abstract.readLines
    split_ifs
    · rw [ih (by omega)]
      exact Function.update_of_ne (by omega) _ _
    · rfl

lemma readLines_pcb (lines : List Args) {pid c : ℕ} (hc : pid ≤ c) (hmax : c ≤ MAX_PROCESSES)
    (hlen : c < pid + lines.length) (a : Abstract) :
    (Abstract.readLines pid lines a).globals.pcb c =
      processOf c (lines.getD (c - pid) 0) := by
  induction lines generalizing pid a with
  | nil => simp at hlen; omega
  | cons args lines ih =>
    rw [Abstract.readLines, if_pos (by omega)]
    rcases hc.eq_or_lt with rfl | hlt
    · rw [readLines_pcb_lt lines (Nat.lt_succ_self pid)]
      simp [Abstract.loadProcess, Globals.setPcb]
    · rw [List.length_cons] at hlen
      have hsub : c - pid = (c - (pid + 1)) + 1 := by omega
      rw [ih hlt (by omega), hsub, List.getD_cons_succ]

lemma mem_loaded_iff {lines : List Args} {c : ℕ} :
    c ∈ loaded lines ↔ 1 ≤ c ∧ c ≤ lines.length ∧ c ≤ MAX_PROCESSES := by
  rw [loaded, List.mem_range'_1]
  omega

lemma loaded_pcb {lines : List Args} {c : ℕ} (hc : c ∈ loaded lines) :
    (Abstract.mainLoop lines 0).globals.pcb c = processOf c (argsOf lines c) := by
  obtain ⟨h1, hlen, hmax⟩ := mem_loaded_iff.mp hc
  exact readLines_pcb lines h1 hmax (by omega) _

lemma readLines_processes (lines : List Args) (pid : ℕ) (a : Abstract)
    (h : (a.queue .dispatcher).overwritten = none) :
    ((Abstract.readLines pid lines a).queue .dispatcher).processes =
      (a.queue .dispatcher).processes ++
        List.range' pid (min lines.length (MAX_PROCESSES + 1 - pid)) := by
  induction lines generalizing pid a with
  | nil => simp [Abstract.readLines]
  | cons args lines ih =>
    unfold Abstract.readLines
    split_ifs with hp
    · have hq := loadProcess_dispatcher a pid args
      have hroom : min (args :: lines).length (MAX_PROCESSES + 1 - pid) =
          min lines.length (MAX_PROCESSES + 1 - (pid + 1)) + 1 := by
        rw [List.length_cons]
        omega
      rw [ih (pid + 1) _ (by rw [hq, Shape.overwritten_enqueue]), hq, Shape.processes_enqueue _ _ h,
        hroom, List.range'_succ, List.append_assoc, List.singleton_append]
    · have hroom : MAX_PROCESSES + 1 - pid = 0 := by omega
      simp [hroom]

lemma mainLoop_zero_spec (lines : List Args) :
    ∃ s, mainLoop lines 0 = some s ∧ s.processes .dispatcher = loaded lines ∧
      ∀ c ∈ loaded lines, s.globals.pcb c = processOf c (argsOf lines c) := by
  obtain ⟨s, hs, hsim, -⟩ := simulates_mainLoop lines 0
  refine ⟨s, hs, ?_, ?_⟩
  · rw [hsim.processes_eq]
    exact readLines_processes lines 1 _ rfl
  · intro c hc
    rw [hsim.2]
    exact loaded_pcb hc

lemma readLines_globals (lines : List Args) (pid : ℕ) (a : Abstract) :
    (Abstract.readLines pid lines a).globals =
      { a.globals with
        pcb := (Abstract.readLines pid lines a).globals.pcb
        runtime := (Abstract.readLines pid lines a).globals.runtime } := by
  induction lines generalizing pid a with
  | nil => rfl
  | cons args lines ih =>
    unfold Abstract.readLines
    split_ifs
    · rw [ih]
      rfl
    · rfl

lemma mainLoop_zero_globals (lines : List Args) :
    (Abstract.mainLoop lines 0).globals =
      { DispatcherSystem.initSystem.globals with
        pcb := (Abstract.mainLoop lines 0).globals.pcb
        runtime := (Abstract.mainLoop lines 0).globals.runtime } :=
  readLines_globals lines 1 _

end File

end Eece315.DispatcherGlobals
