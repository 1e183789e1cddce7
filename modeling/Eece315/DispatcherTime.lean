import Eece315.DispatcherGlobals
import Eece315.DispatcherSelection

/-! Processor time. What is left of a process's time is its processor time less the quanta it
has run, and a process that has run all of its quanta terminates and is never run again. A
process without processor time is never seen to end. -/
namespace Eece315.DispatcherTime
open HeapChain DispatcherQueue DispatcherResources DispatcherSystem DispatcherAbstract
open DispatcherOwnership DispatcherSelection DispatcherGlobals

def processorTime (lines : List Args) (c : ℕ) : ℤ := (argsOf lines c).processorTime

def quantaRun (g : Globals) (c : ℕ) : ℕ := (quanta g.out).count c

/-- The process that a call of `doProcessing` runs, if any. -/
def nextProcess (rt : Bool) (s : System) : Option ℕ :=
  match s.globals.currentProcess with
  | some c =>
    if (s.globals.pcb c).priority ≠ 0 ∧ rt then (s.processes .realTimeQueue).head?.or (some c)
    else some c
  | none =>
    if rt then (s.processes .realTimeQueue).head?
    else (firstPointer s).bind fun name => (s.processes name).head?

/-- The call reports the termination of `c`, frees its PCB and gives back its resources. -/
def Terminates (s s' : System) (c : ℕ) : Prop :=
  terminated s'.globals.out = terminated s.globals.out ++ [c] ∧
    s'.globals.freed = s.globals.freed ++ [c] ∧
    s'.globals.host = freeHostResources (s.globals.pcb c) s.globals.host

/-- The call terminates nothing and gives nothing back. -/
def Spares (s s' : System) : Prop :=
  terminated s'.globals.out = terminated s.globals.out ∧ s'.globals.freed = s.globals.freed ∧
    s'.globals.host = s.globals.host

/-- In the call the number of quanta that `c` has run reaches its processor time. -/
def Reaches (lines : List Args) (s s' : System) (c : ℕ) : Prop :=
  (quantaRun s.globals c : ℤ) ≠ processorTime lines c ∧
    (quantaRun s'.globals c : ℤ) = processorTime lines c

/-- The call terminates the process that reaches its processor time, and no other. -/
structure Timely (lines : List Args) (s s' : System) : Prop where
  terminates : ∀ c ∈ loaded lines, Terminates s s' c ↔ Reaches lines s s' c
  spares : (∀ c ∈ loaded lines, ¬ Reaches lines s s' c) → Spares s s'

/-- Time is accounted for in the first `N` iterations. -/
def Accounted (lines : List Args) (N : ℕ) : Prop :=
  (∀ s, Visited lines N s → ∀ c ∈ loaded lines, 0 ≤ (s.globals.pcb c).remainingTime) ∧
    ∀ n < N, ∀ rt s s', Call lines n rt s → doProcessing rt s = some s' → Timely lines s s'

/-- No line has a negative processor time, and no process without processor time is run. -/
def TimesPositive (lines : List Args) (N : ℕ) : Prop :=
  (∀ c ∈ loaded lines, 0 ≤ processorTime lines c) ∧
    ∀ n < N, ∀ rt s, Call lines n rt s → ∀ c ∈ nextProcess rt s, processorTime lines c ≠ 0

section Quantum

variable {g : Globals} {c d : ℕ}

lemma quantum_remainingTime (hc : g.currentProcess = some c) :
    (g.quantum.1.pcb c).remainingTime = (g.pcb c).remainingTime - 1 := by
  unfold Globals.quantum
  rw [hc]
  simp only []
  split_ifs <;> simp [Globals.terminate, Globals.setPcb, Globals.print]

lemma quantum_last (hc : g.currentProcess = some c) (h : (g.pcb c).remainingTime = 1) :
    terminated g.quantum.1.out = terminated g.out ++ [c] ∧
      g.quantum.1.freed = g.freed ++ [c] ∧
      g.quantum.1.host = freeHostResources (g.pcb c) g.host := by
  unfold Globals.quantum
  rw [hc]
  simp only [h, sub_self, if_true]
  refine ⟨?_, rfl, Host.ext fun k => ?_⟩
  · simp [Globals.terminate, Globals.setPcb, Globals.print, terminated, List.filterMap_append]
  · refine (freeHostResources_alloc _ _ k).trans ?_
    rw [freeHostResources_alloc]
    simp [freedCells, Globals.setPcb, Globals.print]

lemma quantum_not_last (h : ∀ c, g.currentProcess = some c → (g.pcb c).remainingTime ≠ 1) :
    terminated g.quantum.1.out = terminated g.out ∧ g.quantum.1.freed = g.freed ∧
      g.quantum.1.host = g.host := by
  unfold Globals.quantum
  cases hc : g.currentProcess with
  | none => exact ⟨rfl, rfl, rfl⟩
  | some c =>
    have hne : ¬ (g.pcb c).remainingTime - 1 = 0 := by
      have := h c hc
      omega
    simp only [hne, if_false]
    split_ifs <;>
      simp [Globals.setPcb, Globals.print, terminated, List.filterMap_append]

lemma mem_terminated_quantum : c ∈ terminated g.quantum.1.out ↔ c ∈ terminated g.out ∨
    g.currentProcess = some c ∧ (g.pcb c).remainingTime = 1 := by
  by_cases hlast : ∃ d, g.currentProcess = some d ∧ (g.pcb d).remainingTime = 1
  · obtain ⟨d, hd, h1⟩ := hlast
    rw [(quantum_last hd h1).1, List.mem_append, List.mem_singleton, hd, Option.some.injEq]
    constructor
    · rintro (hc | rfl)
      · exact .inl hc
      · exact .inr ⟨rfl, h1⟩
    · rintro (hc | ⟨rfl, -⟩)
      · exact .inl hc
      · exact .inr rfl
  · rw [(quantum_not_last fun d hd h1 => hlast ⟨d, hd, h1⟩).1]
    constructor
    · exact .inl
    · intro hc
      exact hc.resolve_right fun hc => hlast ⟨c, hc⟩

lemma count_current_of_ne (h : g.currentProcess ≠ some c) :
    g.currentProcess.toList.count c = 0 := by
  rw [List.count_eq_zero]
  simpa [eq_comm] using h

lemma remainingTime_quantum (g : Globals) (c : ℕ) : (g.quantum.1.pcb c).remainingTime =
    (g.pcb c).remainingTime - g.currentProcess.toList.count c := by
  by_cases hc : g.currentProcess = some c
  · simp [quantum_remainingTime hc, hc]
  · rw [quantum_pcb g hc, count_current_of_ne hc]
    simp

lemma quantaRun_quantum (g : Globals) (c : ℕ) :
    quantaRun g.quantum.1 c = quantaRun g c + g.currentProcess.toList.count c := by
  rw [quantaRun, quanta_quantum, List.count_append, quantaRun]

end Quantum

structure Timed (lines : List Args) (g : Globals) : Prop where
  remaining : ∀ c ∈ loaded lines,
    (g.pcb c).remainingTime = processorTime lines c - quantaRun g c
  /-- a process with processor time has some of it left until it has terminated -/
  left : ∀ c ∈ loaded lines, 1 ≤ processorTime lines c → c ∉ terminated g.out →
    1 ≤ (g.pcb c).remainingTime
  spent : ∀ c ∈ loaded lines, c ∈ terminated g.out → (g.pcb c).remainingTime = 0

section Invariant

variable {lines : List Args} {g g' : Globals}

lemma Timed.congr (h : Timed lines g)
    (hpcb : ∀ c, (g'.pcb c).remainingTime = (g.pcb c).remainingTime)
    (hquanta : quanta g'.out = quanta g.out) (hterm : terminated g'.out = terminated g.out) :
    Timed lines g' := by
  refine ⟨fun c hc => ?_, fun c hc hp ht => ?_, fun c hc ht => ?_⟩
  · rw [hpcb, quantaRun, hquanta]
    exact h.remaining c hc
  · rw [hpcb]
    exact h.left c hc hp (hterm ▸ ht)
  · rw [hpcb]
    exact h.spent c hc (hterm ▸ ht)

lemma suspend_pcb (g : Globals) (c d : ℕ) :
    ((g.suspend c).pcb d).remainingTime = (g.pcb d).remainingTime ∧
      ((g.suspend c).pcb d).io = (g.pcb d).io :=
  setPcb_related (g := g) (c := c) (p := { g.pcb c with state := .suspended })
    (R := fun p q => q.remainingTime = p.remainingTime ∧ q.io = p.io)
    (fun _ => ⟨rfl, rfl⟩) ⟨rfl, rfl⟩ d

lemma dispatch_pcb (g : Globals) (c : ℕ) (slice : PCB → ℤ) (d : ℕ) :
    ((g.dispatch c slice).pcb d).remainingTime = (g.pcb d).remainingTime ∧
      ((g.dispatch c slice).pcb d).io = (g.pcb d).io :=
  setPcb_related (g := g) (c := c) (p := { g.pcb c with timeSpliceLeft := slice (g.pcb c) })
    (R := fun p q => q.remainingTime = p.remainingTime ∧ q.io = p.io)
    (fun _ => ⟨rfl, rfl⟩) ⟨rfl, rfl⟩ d

lemma allocate_remainingTime (g : Globals) (c d : ℕ) :
    ((g.allocate c).2.pcb d).remainingTime = (g.pcb d).remainingTime := by
  by_cases hd : d = c
  · subst hd
    rw [allocate_pcb_self]
    rfl
  · rw [allocate_pcb_of_ne g hd]

lemma Timed.quantum (h : Timed lines g)
    (hcur : ∀ c, g.currentProcess = some c → c ∈ loaded lines ∧ c ∉ terminated g.out) :
    Timed lines g.quantum.1 := by
  refine ⟨fun d hd => ?_, fun d hd hp ht => ?_, fun d hd ht => ?_⟩
  · rw [remainingTime_quantum, quantaRun_quantum, h.remaining d hd]
    push_cast
    ring
  · rw [mem_terminated_quantum, not_or] at ht
    have hleft := h.left d hd hp ht.1
    rw [remainingTime_quantum]
    by_cases hc : g.currentProcess = some d
    · have hne : (g.pcb d).remainingTime ≠ 1 := fun h1 => ht.2 ⟨hc, h1⟩
      simp only [hc, Option.toList_some, List.count_singleton_self]
      omega
    · rw [count_current_of_ne hc]
      omega
  · rw [remainingTime_quantum]
    rcases mem_terminated_quantum.mp ht with ht | ⟨hc, h1⟩
    · have hnot : g.currentProcess ≠ some d := fun hc => (hcur d hc).2 ht
      rw [count_current_of_ne hnot, h.spent d hd ht]
      rfl
    · simp [hc, h1]

lemma timed_kept (lines : List Args) : Kept (loaded lines) (Timed lines) := by
  refine ⟨⟨fun g h c _ => ?_, fun g h c => ?_⟩, ⟨fun g h c => ?_, fun g h c slice => ?_⟩,
    fun g h hcur => h.quantum hcur⟩
  · exact h.congr (allocate_remainingTime g c) rfl rfl
  · have hquanta : quanta (g.print (.initialized c)).out = quanta g.out := by
      simp [Globals.print, quanta]
    exact h.congr (fun _ => rfl) hquanta (terminated_initialized g.out c)
  · have hquanta : quanta (g.suspend c).out = quanta g.out := by
      simp [Globals.suspend, Globals.setPcb, Globals.print, quanta]
    have hterm : terminated (g.suspend c).out = terminated g.out := by
      simp [Globals.suspend, Globals.setPcb, Globals.print, terminated, List.filterMap_append]
    exact h.congr (fun d => (suspend_pcb g c d).1) hquanta hterm
  · exact h.congr (fun d => (dispatch_pcb g c slice d).1) rfl rfl

lemma timed_zero (lines : List Args) : Timed lines (Abstract.mainLoop lines 0).globals := by
  have hout : (Abstract.mainLoop lines 0).globals.out = [] := by
    rw [mainLoop_zero_globals]
    rfl
  have htime {c : ℕ} (hc : c ∈ loaded lines) :
      ((Abstract.mainLoop lines 0).globals.pcb c).remainingTime = processorTime lines c := by
    rw [loaded_pcb hc]
    rfl
  refine ⟨fun c hc => ?_, fun c hc hp _ => ?_, fun c _ ht => ?_⟩
  · rw [htime hc, quantaRun, hout]
    simp [quanta]
  · rwa [htime hc]
  · rw [hout] at ht
    cases ht

end Invariant

section Calls

variable {lines : List Args} {n : ℕ} {a : Abstract} {s s' : System} {rt : Bool}

lemma nextProcess_eq (hs : Simulates s a) :
    nextProcess rt s = (a.selectProcess rt).globals.currentProcess := by
  rw [nextProcess, hs.2, Simulates.firstPointer_eq hs]
  simp only [hs.processes_eq]
  cases hcur : a.globals.currentProcess with
  | some c =>
    simp only [Abstract.selectProcess, hcur]
    split_ifs with hif
    · have hne : QueueName.realTimeQueue ≠
          Abstract.queueOf { a with globals := a.globals.suspend c } c := by
        rw [Abstract.queueOf, suspend_priority]
        exact fun hq => hif.1 (priorityQueue_eq_realTimeQueue.mp hq.symm)
      rw [currentProcess_dispatchFrom, Abstract.enqueueToPriority_of_ne hne]
      change _ = (a.queue .realTimeQueue).processes.head?.or a.globals.currentProcess
      rw [hcur]
    · exact hcur.symm
  | none =>
    cases rt with
    | true => simp [Abstract.selectProcess, hcur, currentProcess_dispatchFrom]
    | false =>
      rw [selectProcess_idle hcur]
      cases userQueues.find? fun m => a.queue m ≠ .null with
      | none => simp [hcur]
      | some name => simp [currentProcess_dispatchFrom, hcur]

structure SameAccount (g g' : Globals) : Prop where
  quanta : quanta g'.out = quanta g.out
  terminated : terminated g'.out = terminated g.out
  freed : g'.freed = g.freed
  host : g'.host = g.host
  remaining : ∀ c, (g'.pcb c).remainingTime = (g.pcb c).remainingTime
  io : ∀ c, (g'.pcb c).io = (g.pcb c).io

lemma sameAccount_select (rt : Bool) (a : Abstract) :
    SameAccount a.globals (a.selectProcess rt).globals := by
  have hk : KeptBySelect (SameAccount a.globals) := by
    refine ⟨fun g h c => ?_, fun g h c slice => ?_⟩
    · have hquanta : quanta (g.suspend c).out = quanta g.out := by
        simp [Globals.suspend, Globals.setPcb, Globals.print, quanta]
      have hterm : terminated (g.suspend c).out = terminated g.out := by
        simp [Globals.suspend, Globals.setPcb, Globals.print, terminated, List.filterMap_append]
      refine ⟨hquanta.trans h.quanta, hterm.trans h.terminated, h.freed, h.host, fun d => ?_,
        fun d => ?_⟩
      · exact (suspend_pcb g c d).1.trans (h.remaining d)
      · exact (suspend_pcb g c d).2.trans (h.io d)
    · refine ⟨h.quanta, h.terminated, h.freed, h.host, fun d => ?_, fun d => ?_⟩
      · exact (dispatch_pcb g c slice d).1.trans (h.remaining d)
      · exact (dispatch_pcb g c slice d).2.trans (h.io d)
  exact hk.selectProcess ⟨rfl, rfl, rfl, rfl, fun _ => rfl, fun _ => rfl⟩ rt

lemma freeHostResources_congr {p q : PCB} (h : q.io = p.io) (host : Host) :
    freeHostResources q host = freeHostResources p host := by
  apply Host.ext
  intro k
  rw [freeHostResources_alloc, freeHostResources_alloc, freedCells, freedCells, h]

lemma call_timed (h : Call lines n rt s) : ∃ a, Simulates s a ∧ Timed lines a.globals ∧
    a.ledger ≤ (loaded lines : Multiset ℕ) ∧
    (rt = true → (a.queue .realTimeQueue).processes ≠ []) := by
  have hk := timed_kept lines
  have hs := hk.call (hk.mainLoop (timed_zero lines) n) h
  obtain ⟨a, hsim, rfl, hrt⟩ := h.simulates
  rw [hsim.2] at hs
  exact ⟨_, hsim, hs, (Abstract.ledger_updateDispatcher_le n _).trans (ledger_mainLoop_le lines n),
    hrt⟩

section Endings

variable {a : Abstract}

lemma terminates_of_last (hs : s.globals = a.globals)
    (hs' : s'.globals = (a.selectProcess rt).globals.quantum.1)
    (hc : (a.selectProcess rt).globals.currentProcess = some c)
    (h1 : ((a.selectProcess rt).globals.pcb c).remainingTime = 1) : Terminates s s' c := by
  have hsel := sameAccount_select rt a
  obtain ⟨hterm, hfreed, hhost⟩ := quantum_last hc h1
  rw [Terminates, hs, hs', hterm, hfreed, hhost, hsel.terminated, hsel.freed, hsel.host,
    freeHostResources_congr (hsel.io c)]
  exact ⟨rfl, rfl, rfl⟩

lemma spares_of_not_last (hs : s.globals = a.globals)
    (hs' : s'.globals = (a.selectProcess rt).globals.quantum.1)
    (h1 : ∀ c, (a.selectProcess rt).globals.currentProcess = some c →
      ((a.selectProcess rt).globals.pcb c).remainingTime ≠ 1) : Spares s s' := by
  have hsel := sameAccount_select rt a
  obtain ⟨hterm, hfreed, hhost⟩ := quantum_not_last h1
  rw [Spares, hs, hs', hterm, hfreed, hhost, hsel.terminated, hsel.freed, hsel.host]
  exact ⟨rfl, rfl, rfl⟩

end Endings

lemma timely_call (h : Call lines n rt s) (hs' : doProcessing rt s = some s') :
    Timely lines s s' := by
  obtain ⟨a, hsim, htimed, hle, hrt⟩ := call_timed h
  obtain ⟨t, ht, hsim'⟩ := hsim.doProcessing fun h => ne_null_of_processes (hrt h)
  obtain rfl : s' = t := Option.some.inj (hs'.symm.trans ht)
  have hsel := sameAccount_select rt a
  set g := (a.selectProcess rt).globals with hg
  have hglobals : s'.globals = g.quantum.1 := by
    rw [hsim'.2, Abstract.doProcessing, runProcess_globals]
  have hcur (c : ℕ) (hc : g.currentProcess = some c) : c ∈ loaded lines :=
    (current_of_ledger (nodup_loaded lines) ((Abstract.ledger_selectProcess_le hrt).trans hle)
      hc).1
  have hreaches (c : ℕ) (hc : c ∈ loaded lines) : Reaches lines s s' c ↔
      g.currentProcess = some c ∧ (g.pcb c).remainingTime = 1 := by
    have hbefore : quantaRun s.globals c = quantaRun g c := by
      rw [hsim.2, quantaRun, quantaRun, hsel.quanta]
    have hrem : (g.pcb c).remainingTime = processorTime lines c - quantaRun g c := by
      rw [hsel.remaining, htimed.remaining c hc, quantaRun, quantaRun, hsel.quanta]
    rw [Reaches, hbefore, hglobals, quantaRun_quantum, hrem]
    by_cases hrun : g.currentProcess = some c
    · simp only [hrun, Option.toList_some, List.count_singleton_self, true_and]
      push_cast
      omega
    · simp [hrun, count_current_of_ne hrun]
  refine ⟨fun c hc => ?_, fun hno => ?_⟩
  · rw [hreaches c hc]
    refine ⟨fun hterm => ?_, fun hrun => terminates_of_last hsim.2 hglobals hrun.1 hrun.2⟩
    by_contra hrun
    by_cases hother : ∃ d, g.currentProcess = some d ∧ (g.pcb d).remainingTime = 1
    · obtain ⟨d, hd, h1⟩ := hother
      have hsame := hterm.1.symm.trans (terminates_of_last hsim.2 hglobals hd h1).1
      obtain rfl : c = d := by simpa using hsame
      exact hrun ⟨hd, h1⟩
    · have hspare := spares_of_not_last hsim.2 hglobals fun d hd h1 => hother ⟨d, hd, h1⟩
      have hsame := hterm.1.symm.trans hspare.1
      simp at hsame
  · apply spares_of_not_last hsim.2 hglobals
    intro c hc h1
    exact hno c (hcur c hc) ((hreaches c (hcur c hc)).mpr ⟨hc, h1⟩)

lemma quanta_call (h : Call lines n rt s) :
    quanta (Abstract.mainLoop lines (n + 1)).globals.out =
      quanta (Abstract.mainLoop lines n).globals.out ++ (nextProcess rt s).toList := by
  have hk : KeptByOffers (loaded lines) fun g =>
      quanta g.out = quanta (Abstract.mainLoop lines n).globals.out :=
    ⟨fun g hg c _ => hg, fun g hg c => by simpa [Globals.print, quanta] using hg⟩
  have hbefore := hk.call rfl h
  obtain ⟨s₀, hs₀, hu⟩ := h
  obtain ⟨hrt, hsim⟩ := simulates_updateDispatcher lines n hs₀ hu
  have hstep : Abstract.mainLoop lines (n + 1) =
      (((Abstract.mainLoop lines n).updateDispatcher n).2.selectProcess rt).runProcess := by
    rw [hrt]
    rfl
  rw [hstep, quanta_runProcess, quanta_selectProcess, nextProcess_eq hsim, ← hbefore, hsim.2]

end Calls

section Runs

variable {lines : List Args} {N n c : ℕ}

lemma timed_mainLoop (lines : List Args) (n : ℕ) :
    Timed lines (Abstract.mainLoop lines n).globals :=
  (timed_kept lines).mainLoop (timed_zero lines) n

lemma quantaRun_eq_zero (h : ∀ k < n, ∀ rt s, Call lines k rt s → c ∉ nextProcess rt s) :
    quantaRun (Abstract.mainLoop lines n).globals c = 0 := by
  induction n with
  | zero =>
    rw [quantaRun, mainLoop_zero_globals]
    rfl
  | succ n ih =>
    obtain ⟨rt, s, hs⟩ := exists_call lines n
    have hlast : (nextProcess rt s).toList.count c = 0 :=
      List.count_eq_zero.mpr (by simpa using h n (by omega) rt s hs)
    rw [quantaRun, quanta_call hs, List.count_append, hlast]
    exact ih fun k hk => h k (by omega)

/-- Time is accounted for in the first iterations exactly when no line has a negative processor
time and none of their calls runs a process without processor time. -/
theorem timeAccounted_iff (lines : List Args) (N : ℕ) :
    Accounted lines N ↔ TimesPositive lines N := by
  constructor
  · rintro ⟨hnonneg, -⟩
    have hborder {n : ℕ} (hn : n ≤ N) {c : ℕ} (hc : c ∈ loaded lines) :
        0 ≤ ((Abstract.mainLoop lines n).globals.pcb c).remainingTime := by
      obtain ⟨s, hs, hsim, -⟩ := simulates_mainLoop lines n
      rw [← hsim.2]
      exact hnonneg s (.border hn hs) c hc
    refine ⟨fun c hc => ?_, fun n hn rt s hs c hnext htime => ?_⟩
    · have h0 := hborder (Nat.zero_le N) hc
      rwa [loaded_pcb hc] at h0
    · obtain ⟨a, hsim, -, hle, hrt⟩ := call_timed hs
      have hcur : (a.selectProcess rt).globals.currentProcess = some c := by
        rw [← nextProcess_eq hsim]
        exact hnext
      have hc := (current_of_ledger (nodup_loaded lines)
        ((Abstract.ledger_selectProcess_le hrt).trans hle) hcur).1
      have hpos : 1 ≤ quantaRun (Abstract.mainLoop lines (n + 1)).globals c := by
        rw [quantaRun, quanta_call hs, List.count_append, nextProcess_eq hsim, hcur]
        simp
      have hrem := (timed_mainLoop lines (n + 1)).remaining c hc
      have := hborder (n := n + 1) hn hc
      omega
  · rintro ⟨hnonneg, hrun⟩
    refine ⟨fun s hs c hc => ?_, fun n _ rt s s' hs hs' => timely_call hs hs'⟩
    have htimed := (timed_kept lines).visited (timed_zero lines) hs
    by_cases htime : processorTime lines c = 0
    · have hk : KeptByOffers (loaded lines) fun g => quantaRun g c = 0 :=
        ⟨fun g hg d _ => hg, fun g hg d => by simpa [quantaRun, Globals.print, quanta] using hg⟩
      have hzero : quantaRun s.globals c = 0 := by
        apply hk.visited (fun n hn => ?_) hs
        apply quantaRun_eq_zero
        intro k hk rt t ht hnext
        exact hrun k (by omega) rt t ht c hnext htime
      rw [htimed.remaining c hc, htime, hzero]
      rfl
    · have hpos : 1 ≤ processorTime lines c := by
        have := hnonneg c hc
        omega
      by_cases hterm : c ∈ terminated s.globals.out
      · exact (htimed.spent c hc hterm).ge
      · exact (htimed.left c hc hpos hterm).trans' zero_le_one

/-- A process without processor time runs one quantum and has minus one left. -/
theorem timeAccounted_fails : ¬ ∀ lines N, Accounted lines N := by
  intro h
  have hrun : (mainLoop [![0, 1, 0, 0, 0, 0, 0, 0]] 1).map (fun s =>
      (s.globals.pcb 1).remainingTime) = some (-1) := by decide +kernel
  obtain ⟨s, hs, htime⟩ := Option.map_eq_some_iff.mp hrun
  have hneg := (h [![0, 1, 0, 0, 0, 0, 0, 0]] 1).1 s (.border le_rfl hs) 1 (by decide)
  rw [htime] at hneg
  omega

end Runs

end Eece315.DispatcherTime
