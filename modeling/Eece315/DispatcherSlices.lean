import Eece315.DispatcherMemory
import Eece315.DispatcherTime

/-! How long a process keeps the processor. A dispatch gives it a fresh slice: all of its time
to a real-time process, which then runs to its end, and the quantum of its queue to a user
process. What was left of the slice of a process that was suspended is forgotten. -/
namespace Eece315.DispatcherSlices
open SegmentTable HeapChain DispatcherQueue DispatcherResources DispatcherSystem DispatcherAbstract
open DispatcherOwnership DispatcherSelection DispatcherGlobals DispatcherTime

def sliceFrom : QueueName → PCB → ℤ
  | .realTimeQueue => PCB.remainingTime
  | name => fun _ => quantumOf name

def freshSlice (p : PCB) : ℤ := sliceFrom (priorityQueue p.priority) p

/-- The call in state `s` makes `c` current, and `s₁` is the state in which it is then run. -/
structure Dispatches (rt : Bool) (s : System) (c : ℕ) (s₁ : System) : Prop where
  before : s.globals.currentProcess ≠ some c
  select : selectProcess rt s = some s₁
  current : s₁.globals.currentProcess = some c

section Selection

variable {a : Abstract} {rt : Bool} {c d : ℕ} {name : QueueName} {slice : PCB → ℤ}

lemma dispatchFrom_taken (hbefore : a.globals.currentProcess ≠ some c)
    (hafter : (a.dispatchFrom name slice).globals.currentProcess = some c) :
    (a.queue name).processes.head? = some c ∧
      (a.dispatchFrom name slice).globals = a.globals.dispatch c slice := by
  rcases h : a.queue name with _ | _ | ⟨f, d, ds⟩
  · simp [Abstract.dispatchFrom, h, hbefore] at hafter
  · simp [Abstract.dispatchFrom, h, hbefore] at hafter
  · rw [dispatchFrom_chain slice h] at hafter ⊢
    obtain rfl : d = c := Option.some.inj hafter
    exact ⟨rfl, rfl⟩

lemma dispatchFrom_other (hafter : (a.dispatchFrom name slice).globals.currentProcess ≠ some d) :
    (a.dispatchFrom name slice).globals.pcb d = a.globals.pcb d := by
  rcases h : a.queue name with _ | _ | ⟨f, c, cs⟩
  · simp [Abstract.dispatchFrom, h]
  · simp [Abstract.dispatchFrom, h]
  · rw [dispatchFrom_chain slice h] at hafter ⊢
    have hdc : d ≠ c := fun he => hafter (congrArg some he.symm)
    simp [Globals.dispatch, Globals.setPcb, Function.update_of_ne hdc]

lemma dispatch_self (g : Globals) (c : ℕ) (slice : PCB → ℤ) :
    (g.dispatch c slice).pcb c = { g.pcb c with timeSpliceLeft := slice (g.pcb c) } := by
  simp [Globals.dispatch, Globals.setPcb]

lemma suspend_other (g : Globals) (h : d ≠ c) : (g.suspend c).pcb d = g.pcb d := by
  simp [Globals.suspend, Globals.setPcb, Globals.print, Function.update_of_ne h]

lemma realTimeQueue_suspend (h : (a.globals.pcb c).priority ≠ 0) :
    (Abstract.enqueueToPriority c { a with globals := a.globals.suspend c }).queue
      .realTimeQueue = a.queue .realTimeQueue := by
  apply Abstract.enqueueToPriority_of_ne
  rw [Abstract.queueOf, suspend_priority]
  exact fun hq => h (priorityQueue_eq_realTimeQueue.mp hq.symm)

/-- The state in which the program looks at the real-time queue, with the current process put
back. -/
def putBack (c : ℕ) (a : Abstract) : Abstract :=
  Abstract.enqueueToPriority c { a with globals := a.globals.suspend c }

/-- The three things that the selection of a process can do: leave everything as it is, put a
user process back for a real-time one, or give the idle processor the head of a queue. -/
theorem select_cases (rt : Bool) (a : Abstract) :
    (a.selectProcess rt = a ∧
      ∀ d, a.globals.currentProcess = some d → (a.globals.pcb d).priority = 0 ∨ rt = false) ∨
    (∃ d, a.globals.currentProcess = some d ∧ (a.globals.pcb d).priority ≠ 0 ∧ rt = true ∧
      a.selectProcess rt =
        (putBack d a).dispatchFrom .realTimeQueue (sliceFrom .realTimeQueue)) ∨
    (a.globals.currentProcess = none ∧ ∃ name ≠ .dispatcher,
      a.selectProcess rt = a.dispatchFrom name (sliceFrom name)) := by
  cases hcur : a.globals.currentProcess with
  | some d =>
    by_cases hif : (a.globals.pcb d).priority ≠ 0 ∧ rt = true
    · right
      left
      refine ⟨d, rfl, hif.1, hif.2, ?_⟩
      rw [Abstract.selectProcess, hcur]
      exact if_pos hif
    · left
      refine ⟨?_, fun e he => ?_⟩
      · rw [Abstract.selectProcess, hcur]
        exact if_neg hif
      · obtain rfl : d = e := Option.some.inj he
        rwa [not_and_or, not_not, Bool.not_eq_true] at hif
  | none =>
    cases rt with
    | true =>
      right
      right
      refine ⟨rfl, .realTimeQueue, by simp, ?_⟩
      rw [Abstract.selectProcess, hcur]
      rfl
    | false =>
      rw [selectProcess_idle hcur]
      cases hf : userQueues.find? fun m => a.queue m ≠ .null with
      | none =>
        left
        exact ⟨rfl, fun d hd => by cases hd⟩
      | some name =>
        right
        right
        have hmem : name ∈ userQueues := List.mem_of_find?_eq_some hf
        have huser : name = .p1Queue ∨ name = .p2Queue ∨ name = .p3Queue := by
          simpa [userQueues] using hmem
        refine ⟨rfl, name, ?_, ?_⟩ <;> rcases huser with rfl | rfl | rfl <;> simp <;> rfl

lemma sliceFrom_head (hclass : Classed a) (hname : name ≠ .dispatcher)
    (h : (a.queue name).processes.head? = some c) :
    sliceFrom name (a.globals.pcb c) = freshSlice (a.globals.pcb c) := by
  have hq : priorityQueue (a.globals.pcb c).priority = name :=
    hclass name hname c (List.mem_of_head? h)
  rw [freshSlice, hq]

theorem select_dispatched (hclass : Classed a) (hbefore : a.globals.currentProcess ≠ some c)
    (hafter : (a.selectProcess rt).globals.currentProcess = some c) :
    (a.selectProcess rt).globals.pcb c =
      { a.globals.pcb c with timeSpliceLeft := freshSlice (a.globals.pcb c) } := by
  rcases select_cases rt a with ⟨he, -⟩ | ⟨d, hcur, hd, -, he⟩ | ⟨-, name, hname, he⟩
  · rw [he] at hafter
    exact absurd hafter hbefore
  · rw [he] at hafter ⊢
    obtain ⟨hhead, hg⟩ := dispatchFrom_taken (a := putBack d a) hbefore hafter
    have hcd : c ≠ d := fun hcd => hbefore (by rw [hcur, hcd])
    have hpcb : (putBack d a).globals.pcb c = a.globals.pcb c := suspend_other a.globals hcd
    rw [putBack, realTimeQueue_suspend hd] at hhead
    rw [hg, dispatch_self, hpcb, sliceFrom_head hclass (by simp) hhead]
  · rw [he] at hafter ⊢
    obtain ⟨hhead, hg⟩ := dispatchFrom_taken hbefore hafter
    rw [hg, dispatch_self, sliceFrom_head hclass hname hhead]

theorem select_other (hbefore : a.globals.currentProcess ≠ some d)
    (hafter : (a.selectProcess rt).globals.currentProcess ≠ some d) :
    (a.selectProcess rt).globals.pcb d = a.globals.pcb d := by
  rcases select_cases rt a with ⟨he, -⟩ | ⟨c, hcur, -, -, he⟩ | ⟨-, name, -, he⟩
  · rw [he]
  · rw [he] at hafter ⊢
    have hdc : d ≠ c := fun hdc => hbefore (by rw [hcur, hdc])
    exact (dispatchFrom_other hafter).trans (suspend_other a.globals hdc)
  · rw [he] at hafter ⊢
    exact dispatchFrom_other hafter

theorem select_suspended (hbefore : a.globals.currentProcess = some c)
    (hafter : (a.selectProcess rt).globals.currentProcess ≠ some c) :
    (a.selectProcess rt).globals.pcb c = { a.globals.pcb c with state := .suspended } := by
  rcases select_cases rt a with ⟨he, -⟩ | ⟨d, hcur, -, -, he⟩ | ⟨hcur, -⟩
  · rw [he] at hafter
    exact absurd hbefore hafter
  · obtain rfl : d = c := Option.some.inj (hcur.symm.trans hbefore)
    rw [he] at hafter ⊢
    rw [dispatchFrom_other hafter]
    simp [putBack, Globals.suspend, Globals.setPcb, Globals.print]
  · rw [hcur] at hbefore
    cases hbefore

theorem select_kept (hclass : Classed a)
    (hrt : rt = true → (a.queue .realTimeQueue).processes ≠ [])
    (hbefore : a.globals.currentProcess = some c)
    (hafter : (a.selectProcess rt).globals.currentProcess = some c) :
    a.selectProcess rt = a ∧ ((a.globals.pcb c).priority = 0 ∨ rt = false) := by
  rcases select_cases rt a with ⟨he, hkept⟩ | ⟨d, hcur, hd, hflag, he⟩ | ⟨hcur, -⟩
  · exact ⟨he, hkept c hbefore⟩
  · -- the head of the real-time queue takes the place of a user process
    exfalso
    obtain rfl : d = c := Option.some.inj (hcur.symm.trans hbefore)
    obtain ⟨r, rs, hr⟩ := List.exists_cons_of_ne_nil (hrt hflag)
    have hhead : (a.queue .realTimeQueue).processes.head? = some r := by rw [hr]; rfl
    rw [he, currentProcess_dispatchFrom, putBack, realTimeQueue_suspend hd, hhead] at hafter
    obtain rfl : r = d := Option.some.inj hafter
    exact hd ((Classed.head hclass (by simp) hhead).mpr rfl)
  · rw [hcur] at hbefore
    cases hbefore

end Selection

section Quantum

variable {g : Globals} {c : ℕ}

lemma allocate_timeSpliceLeft (g : Globals) (c d : ℕ) :
    ((g.allocate c).2.pcb d).timeSpliceLeft = (g.pcb d).timeSpliceLeft := by
  by_cases hd : d = c
  · subst hd
    rw [allocate_pcb_self]
    rfl
  · rw [allocate_pcb_of_ne g hd]

/-- The current process leaves the processor when its time is up, and at the end of its slice
unless its priority is below 1. -/
theorem quantum_stays_iff (hc : g.currentProcess = some c) :
    g.quantum.1.currentProcess = some c ↔ (g.pcb c).remainingTime ≠ 1 ∧
      ((g.pcb c).timeSpliceLeft = 1 → (g.pcb c).priority < 1) := by
  unfold Globals.quantum
  rw [hc]
  simp only []
  split_ifs with h1 h2 h3 h4
  · exact iff_of_false (by simp [Globals.terminate]) (by omega)
  · exact iff_of_false not_false (by omega)
  · exact iff_of_false not_false (by omega)
  · exact iff_of_true hc (by omega)
  · exact iff_of_true hc (by omega)

lemma quantum_stays (hc : g.currentProcess = some c)
    (hs : g.quantum.1.currentProcess = some c) :
    (g.quantum.1.pcb c).priority = (g.pcb c).priority ∧
      (g.quantum.1.pcb c).timeSpliceLeft = (g.pcb c).timeSpliceLeft - 1 ∧
      (g.quantum.1.pcb c).remainingTime = (g.pcb c).remainingTime - 1 := by
  unfold Globals.quantum at hs ⊢
  rw [hc] at hs ⊢
  simp only [] at hs ⊢
  split_ifs at hs ⊢ <;> simp_all [Globals.terminate, Globals.setPcb, Globals.print]

end Quantum

section Iterations

/-! The three states of an iteration of the machine: behind `updateDispatcher`, behind the
selection of a process, and at the end. -/

def updated (lines : List Args) (n : ℕ) : Abstract :=
  ((Abstract.mainLoop lines n).updateDispatcher n).2

def flag (lines : List Args) (n : ℕ) : Bool := ((Abstract.mainLoop lines n).updateDispatcher n).1

def selected (lines : List Args) (n : ℕ) : Abstract :=
  (updated lines n).selectProcess (flag lines n)

variable {lines : List Args} {n : ℕ} {rt : Bool} {s s₁ s' : System}

lemma mainLoop_succ_globals (lines : List Args) (n : ℕ) :
    (Abstract.mainLoop lines (n + 1)).globals = (selected lines n).globals.quantum.1 :=
  runProcess_globals (selected lines n)

lemma classed_updated (lines : List Args) (n : ℕ) : Classed (updated lines n) :=
  (classed_mainLoop lines n).updateDispatcher n

lemma realTime_updated (lines : List Args) (n : ℕ) (h : flag lines n = true) :
    ((updated lines n).queue .realTimeQueue).processes ≠ [] := updateDispatcher_realTime n _ h

lemma updated_kept {P : Globals → Prop} (hk : KeptByOffers (loaded lines) P)
    (h : P (Abstract.mainLoop lines n).globals) : P (updated lines n).globals :=
  hk.updateDispatcher h (fun _ hc => mem_loaded hc) n

structure Traced (lines : List Args) (n : ℕ) (rt : Bool) (s s₁ s' : System) : Prop where
  flag_eq : rt = flag lines n
  call : Simulates s (updated lines n)
  select : selectProcess rt s = some s₁
  middle : Simulates s₁ (selected lines n)
  run : doProcessing rt s = some s'
  next : Simulates s' (Abstract.mainLoop lines (n + 1))

lemma exists_traced (h : Call lines n rt s) : ∃ s₁ s', Traced lines n rt s s₁ s' := by
  obtain ⟨s₀, hs₀, hu⟩ := h
  obtain ⟨hflag, hcall⟩ := simulates_updateDispatcher lines n hs₀ hu
  have hrt (hrt : rt = true) : (updated lines n).queue .realTimeQueue ≠ .null :=
    ne_null_of_processes (realTime_updated lines n (hflag.symm.trans hrt))
  obtain ⟨s₁, hselect, hselected⟩ := hcall.selectProcess hrt
  obtain ⟨s', hrun, hnext⟩ := hselected.runProcess
  rw [hflag] at hselected hnext
  exact ⟨s₁, s', hflag, hcall, hselect, hselected, by simp [doProcessing, hselect, hrun], hnext⟩

lemma Traced.dispatched {c : ℕ} {t : System} (h : Traced lines n rt s s₁ s')
    (hd : Dispatches rt s c t) : (updated lines n).globals.currentProcess ≠ some c ∧
      (selected lines n).globals.currentProcess = some c ∧
      t.globals = (selected lines n).globals := by
  obtain rfl : s₁ = t := Option.some.inj (h.select.symm.trans hd.select)
  have hbefore := hd.before
  have hcurrent := hd.current
  rw [h.call.2] at hbefore
  rw [h.middle.2] at hcurrent
  exact ⟨hbefore, hcurrent, h.middle.2⟩

end Iterations

section Return

/-- What a process remembers as granted are cells of the table. -/
def GrantsInside (lines : List Args) (g : Globals) : Prop :=
  ∀ c ∈ loaded lines, ∀ k (i : ℤ), ((g.pcb c).io k).startID ≤ i →
    i < ((g.pcb c).io k).startID + ((g.pcb c).io k).held → 0 ≤ i ∧ i < (g.host.alloc k).length

variable {lines : List Args} {g g' : Globals} {c n : ℕ} {rt : Bool} {s s' : System}

lemma length_allocate (g : Globals) (c : ℕ) (k : Resource) :
    ((g.allocate c).2.host.alloc k).length = (g.host.alloc k).length := by
  by_cases hf : ∀ k, Fits (g.pcb c) g.host k
  · rw [allocate_fits hf]
    exact DispatcherMemory.length_attemptCells _ _ _
  · rw [allocate_fails hf, failed_cells]
    split_ifs
    · rfl
    · exact DispatcherMemory.length_freedCells _ _ _

lemma GrantsInside.congr (h : GrantsInside lines g)
    (hio : ∀ c, (g'.pcb c).io = (g.pcb c).io)
    (hlen : ∀ k, (g'.host.alloc k).length = (g.host.alloc k).length) : GrantsInside lines g' := by
  intro c hc k i hi hi'
  rw [hio c] at hi hi'
  rw [hlen k]
  exact h c hc k i hi hi'

lemma GrantsInside.allocate (h : GrantsInside lines g) (c : ℕ) :
    GrantsInside lines (g.allocate c).2 := by
  intro d hd k i hi hi'
  rw [length_allocate]
  by_cases hdc : d = c
  · subst hdc
    rw [allocate_pcb_self] at hi hi'
    change (attemptGrant (g.pcb d) g.host k).startID ≤ i at hi
    change i < (attemptGrant (g.pcb d) g.host k).startID +
      (attemptGrant (g.pcb d) g.host k).held at hi'
    by_cases hr : Renews (g.pcb d) g.host k
    · obtain ⟨h0, hcell⟩ := hr.free.2 i hi hi'
      have hlt := (List.getElem?_eq_some_iff.mp hcell).1
      exact ⟨h0, by omega⟩
    · rw [attemptGrant_of_not hr] at hi hi'
      exact h d hd k i hi hi'
  · rw [allocate_pcb_of_ne g hdc] at hi hi'
    exact h d hd k i hi hi'

end Return

section RealTime

/-- A real-time process is current and has all of its time, `r` quanta, in its slice. -/
structure RealTimeCurrent (c : ℕ) (r : ℤ) (g : Globals) : Prop where
  current : g.currentProcess = some c
  priority : (g.pcb c).priority = 0
  slice : (g.pcb c).timeSpliceLeft = r
  remaining : (g.pcb c).remainingTime = r

variable {lines : List Args} {n c : ℕ} {r : ℤ} {g : Globals}

/-- The slice and the time go down together, so that the slice never ends first. -/
lemma RealTimeCurrent.quantum (h : RealTimeCurrent c r g) (hr : r ≠ 1) :
    RealTimeCurrent c (r - 1) g.quantum.1 := by
  have hstays := (quantum_stays_iff h.current).mpr
    ⟨by rwa [h.remaining], fun _ => by rw [h.priority]; exact one_pos⟩
  obtain ⟨hp, hs, hrem⟩ := quantum_stays h.current hstays
  exact ⟨hstays, by rw [hp, h.priority], by rw [hs, h.slice], by rw [hrem, h.remaining]⟩

lemma realTimeCurrent_kept (cs : List ℕ) (c : ℕ) (r : ℤ) :
    KeptByOffers cs (RealTimeCurrent c r) := by
  refine ⟨fun g h d _ => ?_, fun g h d => ⟨h.current, h.priority, h.slice, h.remaining⟩⟩
  exact ⟨h.current, (allocate_priority g d c).trans h.priority,
    (allocate_timeSpliceLeft g d c).trans h.slice,
    (allocate_remainingTime g d c).trans h.remaining⟩

lemma RealTimeCurrent.select {a : Abstract} (h : RealTimeCurrent c r a.globals) (rt : Bool) :
    a.selectProcess rt = a := by
  rcases select_cases rt a with ⟨he, -⟩ | ⟨d, hcur, hd, -⟩ | ⟨hcur, -⟩
  · exact he
  · obtain rfl : d = c := Option.some.inj (hcur.symm.trans h.current)
    exact absurd h.priority hd
  · rw [h.current] at hcur
    cases hcur

lemma current_mem_loaded (h : (selected lines n).globals.currentProcess = some c) :
    c ∈ loaded lines := by
  have hle := (Abstract.ledger_selectProcess_le (realTime_updated lines n)).trans
    ((Abstract.ledger_updateDispatcher_le n _).trans (ledger_mainLoop_le lines n))
  exact (current_of_ledger (nodup_loaded lines) hle h).1

lemma RealTimeCurrent.next (h : RealTimeCurrent c r (selected lines n).globals) (hr : r ≠ 1) :
    RealTimeCurrent c (r - 1) (selected lines (n + 1)).globals := by
  have hnext := h.quantum hr
  rw [← mainLoop_succ_globals] at hnext
  have hupdated := updated_kept (realTimeCurrent_kept (loaded lines) c (r - 1)) hnext
  rwa [selected, hupdated.select]

end RealTime

section Enforcement

/-- The current process, if it is a user process, has some of its slice left, and less than the
quantum of the queue it was taken from, which is that of its priority. -/
def InSlice (g : Globals) : Prop :=
  ∀ c, g.currentProcess = some c → (g.pcb c).priority ≠ 0 → 1 ≤ (g.pcb c).timeSpliceLeft ∧
    (g.pcb c).timeSpliceLeft < quantumOf (priorityQueue (g.pcb c).priority)

/-- The part of `InSlice` that no process ever breaks. -/
def BelowQuantum (g : Globals) : Prop :=
  ∀ c, g.currentProcess = some c → (g.pcb c).priority ≠ 0 →
    (g.pcb c).timeSpliceLeft < quantumOf (priorityQueue (g.pcb c).priority)

/-- The call runs a process of negative priority for the last quantum of its slice, which is not
the last of its time. -/
def Overstays (rt : Bool) (s : System) : Prop :=
  rt = false ∧ ∃ c, s.globals.currentProcess = some c ∧ (s.globals.pcb c).priority < 0 ∧
    (s.globals.pcb c).timeSpliceLeft = 1 ∧ (s.globals.pcb c).remainingTime ≠ 1

variable {lines : List Args} {n c : ℕ}

lemma freshSlice_of_user {p : PCB} (h : p.priority ≠ 0) :
    freshSlice p = quantumOf (priorityQueue p.priority) := by
  have hq : priorityQueue p.priority ≠ .realTimeQueue := mt priorityQueue_eq_realTimeQueue.mp h
  rw [freshSlice]
  cases hname : priorityQueue p.priority with
  | realTimeQueue => exact absurd hname hq
  | _ => rfl

lemma quantumOf_priorityQueue {p : ℤ} (h : p ≠ 0) :
    (p = 1 ∧ quantumOf (priorityQueue p) = 1) ∨ 2 ≤ quantumOf (priorityQueue p) := by
  rw [priorityQueue, if_neg h]
  split_ifs with h1 h2
  · exact .inl ⟨h1, rfl⟩
  · exact .inr (by simp [quantumOf, P2_TIMEQUANTUM])
  · exact .inr (by simp [quantumOf, P3_TIMEQUANTUM])

lemma selected_slice (hc : (selected lines n).globals.currentProcess = some c) :
    ((updated lines n).globals.currentProcess = some c ∧ selected lines n = updated lines n ∧
      (((updated lines n).globals.pcb c).priority = 0 ∨ flag lines n = false)) ∨
    ((selected lines n).globals.pcb c).timeSpliceLeft =
      freshSlice ((selected lines n).globals.pcb c) := by
  have hclass := classed_updated lines n
  by_cases hbefore : (updated lines n).globals.currentProcess = some c
  · exact .inl ⟨hbefore, select_kept hclass (realTime_updated lines n) hbefore hc⟩
  · right
    rw [selected, select_dispatched hclass hbefore hc, freshSlice, freshSlice]
    cases priorityQueue ((updated lines n).globals.pcb c).priority <;> rfl

lemma currentSlice_kept (cs : List ℕ) (R : ℤ → ℤ → Prop) : KeptByOffers cs fun g =>
    ∀ c, g.currentProcess = some c → R (g.pcb c).priority (g.pcb c).timeSpliceLeft := by
  refine ⟨fun g h d _ c hc => ?_, fun g h d => h⟩
  rw [allocate_priority, allocate_timeSpliceLeft]
  exact h c hc

lemma inSlice_kept (cs : List ℕ) : KeptByOffers cs InSlice :=
  currentSlice_kept cs fun priority left =>
    priority ≠ 0 → 1 ≤ left ∧ left < quantumOf (priorityQueue priority)

lemma belowQuantum_kept (cs : List ℕ) : KeptByOffers cs BelowQuantum :=
  currentSlice_kept cs fun priority left =>
    priority ≠ 0 → left < quantumOf (priorityQueue priority)

lemma belowQuantum_mainLoop (lines : List Args) (n : ℕ) :
    BelowQuantum (Abstract.mainLoop lines n).globals := by
  induction n with
  | zero =>
    intro c hc
    rw [mainLoop_zero_globals] at hc
    cases hc
  | succ n ih =>
    have hupdated : BelowQuantum (updated lines n).globals := updated_kept (belowQuantum_kept _) ih
    intro c hafter hp
    rw [mainLoop_succ_globals] at hafter hp ⊢
    have hc := quantum_current _ hafter
    obtain ⟨hpriority, hslice, -⟩ := quantum_stays hc hafter
    rw [hpriority] at hp
    rw [hpriority, hslice]
    rcases selected_slice hc with ⟨hbefore, hsame, -⟩ | hfresh
    · rw [hsame] at hp ⊢
      have := hupdated c hbefore hp
      omega
    · rw [hfresh, freshSlice_of_user hp]
      omega

lemma belowQuantum_updated (lines : List Args) (n : ℕ) :
    BelowQuantum (updated lines n).globals :=
  updated_kept (belowQuantum_kept _) (belowQuantum_mainLoop lines n)

lemma InSlice.next (h : InSlice (Abstract.mainLoop lines n).globals)
    (hcall : ∀ rt s, Call lines n rt s → ¬ Overstays rt s) :
    InSlice (Abstract.mainLoop lines (n + 1)).globals := by
  have hupdated : InSlice (updated lines n).globals := updated_kept (inSlice_kept _) h
  intro c hafter hp
  refine ⟨?_, belowQuantum_mainLoop lines (n + 1) c hafter hp⟩
  rw [mainLoop_succ_globals] at hafter hp ⊢
  have hc := quantum_current _ hafter
  obtain ⟨hrem, hlast⟩ := (quantum_stays_iff hc).mp hafter
  obtain ⟨hpriority, hslice, -⟩ := quantum_stays hc hafter
  rw [hpriority] at hp
  rw [hslice]
  rcases selected_slice hc with ⟨hbefore, hsame, hflag⟩ | hfresh
  · rw [hsame] at hp hlast hrem ⊢
    have hlow := (hupdated c hbefore hp).1
    -- with one quantum left only a process of negative priority stays
    by_contra hone
    have hslice1 : ((updated lines n).globals.pcb c).timeSpliceLeft = 1 := by omega
    have hneg := hlast hslice1
    obtain ⟨rt, s, hs⟩ := exists_call lines n
    obtain ⟨s₁, s', htraced⟩ := exists_traced hs
    apply hcall rt s hs
    refine ⟨htraced.flag_eq.trans (hflag.resolve_left hp), c, ?_, ?_, ?_, ?_⟩ <;>
      rw [htraced.call.2]
    · exact hbefore
    · omega
    · exact hslice1
    · exact hrem
  · rw [hfresh, freshSlice_of_user hp] at hlast ⊢
    rcases quantumOf_priorityQueue hp with ⟨hone, hq⟩ | hq
    · have := hlast hq
      omega
    · omega

lemma inSlice_visited {N : ℕ} (h : ∀ n < N, ∀ rt s, Call lines n rt s → ¬ Overstays rt s)
    {s : System} (hs : Visited lines N s) : InSlice s.globals := by
  refine (inSlice_kept (loaded lines)).visited (fun n hn => ?_) hs
  induction n with
  | zero =>
    intro c hc
    rw [mainLoop_zero_globals] at hc
    cases hc
  | succ n ih => exact (ih (by omega)).next (h n (by omega))

/-- In the states of the first `N` iterations user processes are within their slices exactly
when no call of these iterations overstays. -/
theorem inSlice_iff (lines : List Args) (N : ℕ) :
    (∀ s, Visited lines N s → InSlice s.globals) ↔
      ∀ n < N, ∀ rt s, Call lines n rt s → ¬ Overstays rt s := by
  constructor
  · rintro h n hn rt s hs ⟨rfl, c, hcur, hp, hslice, hrem⟩
    obtain ⟨s₁, s', htraced⟩ := exists_traced hs
    obtain ⟨t, ht, hsim, -⟩ := simulates_mainLoop lines (n + 1)
    have hafter := h t (.border hn ht)
    rw [htraced.call.2] at hcur hp hslice hrem
    have hsame : selected lines n = updated lines n := by
      rcases select_cases (flag lines n) (updated lines n) with
        ⟨he, -⟩ | ⟨d, -, -, hflag, -⟩ | ⟨hnone, -⟩
      · exact he
      · rw [← htraced.flag_eq] at hflag
        cases hflag
      · rw [hcur] at hnone
        cases hnone
    rw [hsim.2, mainLoop_succ_globals, hsame] at hafter
    have hstays := (quantum_stays_iff hcur).mpr ⟨hrem, fun _ => by omega⟩
    obtain ⟨hpriority, hleft, -⟩ := quantum_stays hcur hstays
    have hlow := (hafter c hstays (by rw [hpriority]; omega)).1
    rw [hleft, hslice] at hlow
    omega
  · intro h s hs
    exact inSlice_visited h hs

lemma priority_nonneg_kept (cs : List ℕ) :
    Kept cs fun g => ∀ c ∈ cs, 0 ≤ (g.pcb c).priority := by
  refine ⟨⟨fun g h d _ c hc => ?_, fun g h d => h⟩,
    ⟨fun g h d c hc => ?_, fun g h d slice c hc => ?_⟩, fun g h _ c hc => ?_⟩
  · rw [allocate_priority]
    exact h c hc
  · rw [suspend_priority]
    exact h c hc
  · have hset : ((g.dispatch d slice).pcb c).priority = (g.pcb c).priority :=
      setPcb_related (g := g) (c := d) (p := { g.pcb d with timeSpliceLeft := slice (g.pcb d) })
        (R := fun p q => q.priority = p.priority) (fun _ => rfl) rfl c
    rw [hset]
    exact h c hc
  · have hpos := h c hc
    by_cases hcur : g.currentProcess = some c
    · unfold Globals.quantum
      rw [hcur]
      simp only []
      split_ifs <;> simp [Globals.terminate, Globals.setPcb, Globals.print] <;> omega
    · rw [quantum_pcb g hcur]
      exact hpos

/-- Without negative priorities in the file every user process is within its slice. -/
theorem inSlice_of_nonneg (h : ∀ c ∈ loaded lines, 0 ≤ (argsOf lines c).priority) {N : ℕ}
    {s : System} (hs : Visited lines N s) : InSlice s.globals := by
  apply inSlice_visited _ hs
  rintro n - rt s hs ⟨-, c, hcur, hneg, -⟩
  have hk := priority_nonneg_kept (loaded lines)
  have hzero : ∀ c ∈ loaded lines, 0 ≤ ((Abstract.mainLoop lines 0).globals.pcb c).priority := by
    intro c hc
    rw [loaded_pcb hc]
    exact h c hc
  have hcall := hk.call (hk.mainLoop hzero n) hs
  obtain ⟨a, hsim, -, hle, -⟩ := call_timed hs
  have hc := (current_of_ledger (nodup_loaded lines) hle (hsim.2 ▸ hcur)).1
  have := hcall c hc
  omega

/-- A process of negative priority waits in the third queue. It stays current at the end of its
slice. -/
theorem inSlice_fails : ¬ ∀ lines N s, Visited lines N s → InSlice s.globals := by
  intro h
  let lines : List Args := [![0, 1, 2, 0, 0, 0, 0, 0], ![0, -1, 9, 0, 0, 0, 0, 0]]
  have hrun : (mainLoop lines 5).map (fun s =>
      decide (s.globals.currentProcess = some 2 ∧ (s.globals.pcb 2).priority = -1 ∧
        (s.globals.pcb 2).timeSpliceLeft = 0)) = some true := by decide +kernel
  obtain ⟨s, hs, hd⟩ := Option.map_eq_some_iff.mp hrun
  obtain ⟨hcur, hp, hslice⟩ := of_decide_eq_true hd
  have hlow := (h lines 5 s (.border le_rfl hs) 2 hcur (by rw [hp]; decide)).1
  rw [hslice] at hlow
  omega

end Enforcement

section Preemption

/-- The call in iteration `n` suspends user process `c`, which has `left` quanta left in its
slice. -/
def SuspendsIn (lines : List Args) (n c : ℕ) (left : ℤ) : Prop :=
  ∃ s, Call lines n true s ∧ s.globals.currentProcess = some c ∧ (s.globals.pcb c).priority ≠ 0 ∧
    (s.globals.pcb c).timeSpliceLeft = left

/-- The call in iteration `n` dispatches `c`, which starts with the given slice. -/
def DispatchesIn (lines : List Args) (n c : ℕ) (slice : ℤ) : Prop :=
  ∃ rt s s₁, Call lines n rt s ∧ Dispatches rt s c s₁ ∧ (s₁.globals.pcb c).timeSpliceLeft = slice

/-- The first iteration behind `n` that dispatches `c` is `m`. -/
structure NextDispatch (lines : List Args) (n m c : ℕ) (slice : ℤ) : Prop where
  later : n < m
  dispatches : DispatchesIn lines m c slice
  first : ∀ k, n < k → k < m → ∀ other, ¬ DispatchesIn lines k c other

structure Resting (c : ℕ) (priority left : ℤ) (g : Globals) : Prop where
  current : g.currentProcess ≠ some c
  priority : (g.pcb c).priority = priority
  slice : (g.pcb c).timeSpliceLeft = left

variable {lines : List Args} {n m c : ℕ} {p left slice : ℤ}

lemma resting_kept (cs : List ℕ) (c : ℕ) (p left : ℤ) : KeptByOffers cs (Resting c p left) := by
  refine ⟨fun g h d _ => ?_, fun g h d => ⟨h.current, h.priority, h.slice⟩⟩
  refine ⟨h.current, (allocate_priority g d c).trans h.priority, ?_⟩
  rw [allocate_timeSpliceLeft, h.slice]

lemma Resting.updated (h : Resting c p left (selected lines n).globals) :
    Resting c p left (updated lines (n + 1)).globals := by
  apply updated_kept (resting_kept (loaded lines) c p left)
  rw [mainLoop_succ_globals]
  refine ⟨fun hc => h.current (quantum_current _ hc), ?_, ?_⟩
  · rw [quantum_pcb _ h.current, h.priority]
  · rw [quantum_pcb _ h.current, h.slice]

lemma Resting.selected (h : Resting c p left (DispatcherSlices.updated lines n).globals)
    (hno : ∀ slice, ¬ DispatchesIn lines n c slice) :
    Resting c p left (DispatcherSlices.selected lines n).globals := by
  have hafter : (DispatcherSlices.selected lines n).globals.currentProcess ≠ some c := by
    intro hc
    obtain ⟨rt, s, hs⟩ := exists_call lines n
    obtain ⟨s₁, s', htraced⟩ := exists_traced hs
    refine hno _ ⟨rt, s, s₁, hs, ⟨?_, htraced.select, ?_⟩, rfl⟩
    · rw [htraced.call.2]
      exact h.current
    · rw [htraced.middle.2]
      exact hc
  have hrecord := select_other h.current hafter
  exact ⟨hafter, by rw [DispatcherSlices.selected, hrecord, h.priority],
    by rw [DispatcherSlices.selected, hrecord, h.slice]⟩

lemma suspendsIn_resting (h : SuspendsIn lines n c left) :
    ∃ p ≠ 0, left < quantumOf (priorityQueue p) ∧
      Resting c p left (selected lines n).globals := by
  obtain ⟨s, hs, hcur, hp, hleft⟩ := h
  obtain ⟨s₁, s', htraced⟩ := exists_traced hs
  rw [htraced.call.2] at hcur hp hleft
  refine ⟨_, hp, ?_, ?_⟩
  · rw [← hleft]
    exact belowQuantum_updated lines n c hcur hp
  · have hafter : (selected lines n).globals.currentProcess ≠ some c := by
      intro hc
      have hkept := (select_kept (classed_updated lines n) (realTime_updated lines n) hcur hc).2
      rw [← htraced.flag_eq] at hkept
      exact hkept.elim hp (by simp)
    have hrecord := select_suspended hcur hafter
    refine ⟨hafter, ?_, ?_⟩
    · rw [selected, hrecord]
    · rw [selected, hrecord, ← hleft]

lemma slice_of_nextDispatch (hs : SuspendsIn lines n c left)
    (hd : NextDispatch lines n m c slice) :
    ∃ p, slice = quantumOf (priorityQueue p) ∧ left < quantumOf (priorityQueue p) := by
  obtain ⟨p, hp, hlt, hrest⟩ := suspendsIn_resting hs
  have hwaits (j : ℕ) (hj : n + j < m) : Resting c p left (selected lines (n + j)).globals := by
    induction j with
    | zero => exact hrest
    | succ j ih =>
      have hprev := (ih (by omega)).updated
      exact hprev.selected (hd.first (n + j + 1) (by omega) (by omega))
  obtain ⟨j, rfl⟩ : ∃ j, m = n + j + 1 := ⟨m - n - 1, by have := hd.later; omega⟩
  have hbefore := (hwaits j (by omega)).updated
  obtain ⟨rt, s, s₁, hcall, hdisp, hslice⟩ := hd.dispatches
  obtain ⟨t, s', htraced⟩ := exists_traced hcall
  obtain ⟨hcurrent, hafter, hs₁⟩ := htraced.dispatched hdisp
  refine ⟨p, ?_, hlt⟩
  have hrecord := select_dispatched (classed_updated lines (n + j + 1)) hcurrent hafter
  rw [← hslice, hs₁, selected, hrecord]
  have huser : ((updated lines (n + j + 1)).globals.pcb c).priority ≠ 0 := by
    rwa [hbefore.priority]
  rw [← hbefore.priority]
  exact freshSlice_of_user huser

/-- The slice that a suspended user process had left is never the one it starts with when it is
dispatched the next time. -/
theorem slice_not_kept (hs : SuspendsIn lines n c left) (hd : NextDispatch lines n m c slice) :
    slice ≠ left := by
  obtain ⟨p, hslice, hleft⟩ := slice_of_nextDispatch hs hd
  rw [hslice]
  exact hleft.ne'

lemma preempted_run : ∃ lines, SuspendsIn lines 2 1 1 ∧ NextDispatch lines 2 3 1 2 := by
  let lines : List Args := [![0, 1, 5, 0, 0, 0, 0, 0], ![2, 0, 1, 0, 0, 0, 0, 0]]
  have hsuspend : ((mainLoop lines 2).bind (updateDispatcher 2)).map (fun r =>
      decide (r.1 = true ∧ r.2.globals.currentProcess = some 1 ∧
        (r.2.globals.pcb 1).priority ≠ 0 ∧ (r.2.globals.pcb 1).timeSpliceLeft = 1)) =
      some true := by decide +kernel
  have hdispatch : ((mainLoop lines 3).bind (updateDispatcher 3)).bind (fun r =>
      (selectProcess r.1 r.2).map fun s₁ =>
        decide (r.2.globals.currentProcess = none ∧ s₁.globals.currentProcess = some 1 ∧
          (s₁.globals.pcb 1).timeSpliceLeft = 2)) = some true := by decide +kernel
  refine ⟨lines, ?_, ⟨by decide, ?_, fun k h2 h3 => by omega⟩⟩
  · obtain ⟨⟨rt, s⟩, hcall, hd⟩ := Option.map_eq_some_iff.mp hsuspend
    obtain ⟨s₀, hs₀, hu⟩ := Option.bind_eq_some_iff.mp hcall
    obtain ⟨rfl, hcur, hp, hslice⟩ := of_decide_eq_true hd
    exact ⟨s, ⟨s₀, hs₀, hu⟩, hcur, hp, hslice⟩
  · obtain ⟨⟨rt, s⟩, hcall, hs⟩ := Option.bind_eq_some_iff.mp hdispatch
    obtain ⟨s₀, hs₀, hu⟩ := Option.bind_eq_some_iff.mp hcall
    obtain ⟨s₁, hs₁, hd⟩ := Option.map_eq_some_iff.mp hs
    obtain ⟨hidle, hcur, hslice⟩ := of_decide_eq_true hd
    have hnone : s.globals.currentProcess = none := hidle
    exact ⟨rt, s, s₁, ⟨s₀, hs₀, hu⟩, ⟨by simp [hnone], hs₁, hcur⟩, hslice⟩

theorem slice_not_kept_demo : ∃ lines, SuspendsIn lines 2 1 1 ∧ NextDispatch lines 2 3 1 2 ∧
    (2 : ℤ) ≠ 1 := by
  obtain ⟨lines, hs, hd⟩ := preempted_run
  exact ⟨lines, hs, hd, slice_not_kept hs hd⟩

theorem slice_not_kept_fails : ¬ ∀ lines n m c left slice, SuspendsIn lines n c left →
    NextDispatch lines n m c slice → slice = left := by
  intro h
  obtain ⟨lines, hs, hd⟩ := preempted_run
  have := h lines 2 3 1 1 2 hs hd
  omega

end Preemption

end Eece315.DispatcherSlices
