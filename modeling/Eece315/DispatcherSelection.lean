import Eece315.DispatcherClasses

/-! Which process `doProcessing` runs. An idle processor is given the first user queue whose
pointer is not null, whether or not that queue holds a process, and the real-time queue is only
looked at in the tick that put a process in it. -/
namespace Eece315.DispatcherSelection
open HeapChain DispatcherQueue DispatcherResources DispatcherSystem DispatcherAbstract

/-- The user queues in the order in which `doProcessing` looks at them. -/
def userQueues : List QueueName := [.p1Queue, .p2Queue, .p3Queue]

def quantumOf : QueueName → ℤ
  | .p1Queue => P1_TIMEQUANTUM
  | .p2Queue => P2_TIMEQUANTUM
  | _ => P3_TIMEQUANTUM

/-- The call in state `s` takes `c` from the head of queue `name` and runs it for a quantum. -/
def RunsHead (s : System) (name : QueueName) (c : ℕ) : Prop :=
  ∃ s₁ s₂, selectProcess false s = some s₁ ∧ s₁.processes name = (s.processes name).tail ∧
    s₁.globals.currentProcess = some c ∧ doProcessing false s = some s₂ ∧
    quanta s₂.globals.out = quanta s.globals.out ++ [c] ∧
    (s₂.globals.pcb c).remainingTime = (s.globals.pcb c).remainingTime - 1

def firstPointer (s : System) : Option QueueName := userQueues.find? fun m => s.queue m ≠ none

def firstNonEmpty (s : System) : Option QueueName :=
  userQueues.find? fun m => s.processes m ≠ []

/-- When the real-time queue holds a process, only a real-time process is run. -/
def RealTimeFirst (s s' : System) : Prop :=
  s.processes .realTimeQueue ≠ [] →
    ∀ c, quanta s'.globals.out = quanta s.globals.out ++ [c] → (s.globals.pcb c).priority = 0

/-- No real-time process waits, or the flag is set, or a real-time process is current, or the
processor is idle and the queue it is given is empty. -/
def RealTimeServed (rt : Bool) (s : System) : Prop :=
  s.processes .realTimeQueue = [] ∨ rt = true ∨
    match s.globals.currentProcess with
    | some c => (s.globals.pcb c).priority = 0
    | none => ∀ name, firstPointer s = some name → s.processes name = []

section Machine

variable {a : Abstract}

lemma selectProcess_idle (h : a.globals.currentProcess = none) :
    a.selectProcess false =
      match userQueues.find? fun m => a.queue m ≠ .null with
      | some name => a.dispatchFrom name fun _ => quantumOf name
      | none => a := by
  rw [Abstract.selectProcess, h]
  by_cases h₁ : a.queue .p1Queue = .null
  · by_cases h₂ : a.queue .p2Queue = .null
    · by_cases h₃ : a.queue .p3Queue = .null
      · simp [userQueues, h₁, h₂, h₃, Abstract.dispatchFrom_null]
      · simp [userQueues, h₁, h₂, h₃, quantumOf]
    · simp [userQueues, h₁, h₂, quantumOf]
  · simp [userQueues, h₁, quantumOf]

lemma Simulates.firstPointer_eq {s : System} (h : Simulates s a) :
    firstPointer s = userQueues.find? fun m => a.queue m ≠ .null := by
  simp only [firstPointer, ne_eq, h.1.null_iff]

lemma quanta_quantum (g : Globals) :
    quanta g.quantum.1.out = quanta g.out ++ g.currentProcess.toList := by
  unfold Globals.quantum
  cases hc : g.currentProcess with
  | none => simp
  | some c =>
    simp only []
    split_ifs <;>
      simp [Globals.terminate, Globals.setPcb, Globals.print, quanta]

lemma quanta_runProcess (a : Abstract) :
    quanta a.runProcess.globals.out = quanta a.globals.out ++ a.globals.currentProcess.toList := by
  rw [← quanta_quantum]
  unfold Abstract.runProcess
  split <;> simp_all

lemma remainingTime_runProcess {c : ℕ} (h : a.globals.currentProcess = some c) :
    (a.runProcess.globals.pcb c).remainingTime = (a.globals.pcb c).remainingTime - 1 := by
  have hq : (a.globals.quantum.1.pcb c).remainingTime = (a.globals.pcb c).remainingTime - 1 := by
    unfold Globals.quantum
    rw [h]
    simp only []
    split_ifs <;> simp [Globals.terminate, Globals.setPcb, Globals.print]
  rw [← hq]
  unfold Abstract.runProcess
  split <;> simp_all

lemma quanta_dispatchFrom (name : QueueName) (slice : PCB → ℤ) (a : Abstract) :
    quanta (a.dispatchFrom name slice).globals.out = quanta a.globals.out := by
  unfold Abstract.dispatchFrom
  split <;> rfl

lemma dispatchFrom_chain {name : QueueName} {f : Bool} {c : ℕ} {cs : List ℕ} (slice : PCB → ℤ)
    (h : a.queue name = .chain f c cs) :
    a.dispatchFrom name slice =
      { a.setQueue name (a.queue name).dequeue with globals := a.globals.dispatch c slice } := by
  simp [Abstract.dispatchFrom, h]

lemma currentProcess_dispatchFrom (name : QueueName) (slice : PCB → ℤ) (a : Abstract) :
    (a.dispatchFrom name slice).globals.currentProcess =
      (a.queue name).processes.head?.or a.globals.currentProcess := by
  rcases h : a.queue name with _ | _ | ⟨f, c, cs⟩
  · simp [Abstract.dispatchFrom, h]
  · simp [Abstract.dispatchFrom, h]
  · simp [dispatchFrom_chain slice h, Globals.dispatch]

end Machine

section WorkConserving

variable {s : System} {name : QueueName}

lemma firstNonEmpty_of_firstPointer {a : Abstract} (hs : Simulates s a)
    (h : firstPointer s = some name) (hp : s.processes name ≠ []) :
    firstNonEmpty s = some name := by
  rw [firstPointer, List.find?_eq_some_iff_append] at h
  obtain ⟨-, before, after, he, hnull⟩ := h
  rw [firstNonEmpty, List.find?_eq_some_iff_append]
  refine ⟨by simpa using hp, before, after, he, fun m hm => ?_⟩
  have hq : s.queue m = none := by simpa using hnull m hm
  rw [hs.1.null_iff] at hq
  simp [hs.processes_eq, hq]

lemma firstPointer_iff {a : Abstract} (hs : Simulates s a) (h : firstNonEmpty s = some name) :
    firstPointer s = some name ↔ ∀ m ∈ userQueues.takeWhile (· ≠ name), s.queue m = none := by
  have hp : s.processes name ≠ [] := by simpa using List.find?_some h
  have hne : s.queue name ≠ none := by
    rw [Ne, hs.1.null_iff]
    exact ne_null_of_processes (by rwa [← hs.processes_eq])
  have hmem : name ∈ userQueues := List.mem_of_find?_eq_some h
  have hcases : name = .p1Queue ∨ name = .p2Queue ∨ name = .p3Queue := by
    simpa [userQueues] using hmem
  rcases hcases with rfl | rfl | rfl <;>
    simp [firstPointer, userQueues, List.find?_cons, hne] <;> grind

/-- An idle processor whose tick brought no real-time process is given the head of the first
user queue that holds one exactly when the queues before it are null. -/
theorem runsHead_iff {lines : List Args} {n c : ℕ} (h : Call lines n false s)
    (hidle : s.globals.currentProcess = none) (hname : firstNonEmpty s = some name)
    (hc : (s.processes name).head? = some c) :
    RunsHead s name c ↔ ∀ m ∈ userQueues.takeWhile (· ≠ name), s.queue m = none := by
  obtain ⟨a, hs, -, -⟩ := h.simulates
  obtain ⟨s₁, h₁, hs₁⟩ := hs.selectProcess fun hrt : false = true => absurd hrt (by simp)
  obtain ⟨s₂, h₂, hs₂⟩ := hs₁.runProcess
  have hsel := selectProcess_idle (a := a) (by rw [← hs.2, hidle])
  rw [← Simulates.firstPointer_eq hs] at hsel
  rw [← firstPointer_iff hs hname]
  constructor
  · rintro ⟨s₁', s₂', h₁', -, hcur, -⟩
    obtain rfl : s₁' = s₁ := Option.some.inj (h₁'.symm.trans h₁)
    rw [hs₁.2, hsel] at hcur
    cases hf : firstPointer s with
    | none =>
      rw [hf] at hcur
      rw [← hs.2, hidle] at hcur
      cases hcur
    | some m =>
      rw [hf] at hcur
      simp only [currentProcess_dispatchFrom, ← hs.2, hidle, Option.or_none] at hcur
      have hp : s.processes m ≠ [] := by
        rw [hs.processes_eq]
        intro he
        simp [he] at hcur
      rw [firstNonEmpty_of_firstPointer hs hf hp] at hname
      exact hname
  · intro hf
    replace hsel : a.selectProcess false = a.dispatchFrom name fun _ => quantumOf name := by
      rw [hsel, hf]
    obtain ⟨f, cs, hq⟩ : ∃ f cs, a.queue name = .chain f c cs := by
      rw [hs.processes_eq] at hc
      obtain ⟨f, d, cs, hq⟩ := Shape.exists_chain (s := a.queue name) fun he => by simp [he] at hc
      rw [hq, Shape.processes_chain, List.head?_cons] at hc
      exact ⟨f, cs, by rw [hq, Option.some.inj hc]⟩
    have hd := dispatchFrom_chain (fun _ => quantumOf name) hq
    have hcur : (a.selectProcess false).globals.currentProcess = some c := by
      rw [hsel, currentProcess_dispatchFrom, hq]
      rfl
    refine ⟨s₁, s₂, h₁, ?_, by rw [hs₁.2, hcur], by simp [doProcessing, h₁, h₂], ?_, ?_⟩
    · have hp : (a.queue name).processes = c :: cs := by rw [hq]; rfl
      rw [hs₁.processes_eq, hs.processes_eq, hsel, hd, hp]
      simpa using Shape.processes_dequeue hp
    · rw [hs₂.2, hs.2, quanta_runProcess, hcur, hsel, quanta_dispatchFrom]
      rfl
    · rw [hs₂.2, hs.2, remainingTime_runProcess hcur, hsel, hd]
      simp [Globals.dispatch, Globals.setPcb]

/-- A process that has used its first slice waits in the second queue, and the first is null. -/
theorem runsHead_iff_demo : ∃ lines s, Call lines 1 false s ∧
    (RunsHead s .p2Queue 1 ↔
      ∀ m ∈ userQueues.takeWhile (· ≠ .p2Queue), s.queue m = none) := by
  let lines : List Args := [![0, 1, 2, 0, 0, 0, 0, 0]]
  have hrun : ((mainLoop lines 1).bind (updateDispatcher 1)).map (fun r =>
      decide (r.1 = false ∧ r.2.globals.currentProcess = none ∧
        firstNonEmpty r.2 = some .p2Queue ∧ (r.2.processes .p2Queue).head? = some 1)) =
      some true := by decide +kernel
  obtain ⟨⟨rt, s⟩, hcall, hs⟩ := Option.map_eq_some_iff.mp hrun
  obtain ⟨s₀, hs₀, hu⟩ := Option.bind_eq_some_iff.mp hcall
  obtain ⟨rfl, hidle, hname, hc⟩ := of_decide_eq_true hs
  exact ⟨lines, s, ⟨s₀, hs₀, hu⟩, runsHead_iff ⟨s₀, hs₀, hu⟩ hidle hname hc⟩

/-- A process of priority 2 arrives at a system in which nothing has run: the empty node of the
first queue keeps the processor idle. -/
theorem runsHead_fails : ¬ ∀ lines n s name c, Call lines n false s →
    s.globals.currentProcess = none → firstNonEmpty s = some name →
      (s.processes name).head? = some c → RunsHead s name c := by
  intro h
  let lines : List Args := [![0, 2, 1, 0, 0, 0, 0, 0]]
  have hrun : ((mainLoop lines 0).bind (updateDispatcher 0)).map (fun r =>
      decide (r.1 = false ∧ r.2.globals.currentProcess = none ∧
        firstNonEmpty r.2 = some .p2Queue ∧ (r.2.processes .p2Queue).head? = some 1 ∧
        (selectProcess false r.2).map (fun s => s.globals.currentProcess) = some none)) =
      some true := by decide +kernel
  obtain ⟨⟨rt, s⟩, hcall, hs⟩ := Option.map_eq_some_iff.mp hrun
  obtain ⟨s₀, hs₀, hu⟩ := Option.bind_eq_some_iff.mp hcall
  obtain ⟨rfl, hidle, hname, hc, hsel⟩ := of_decide_eq_true hs
  obtain ⟨s₁, s₂, h₁, -, hcur, -⟩ := h lines 0 s .p2Queue 1 ⟨s₀, hs₀, hu⟩ hidle hname hc
  rw [h₁, Option.map_some, hcur] at hsel
  cases hsel

end WorkConserving

section RealTime

variable {s : System} {a : Abstract} {rt : Bool}

lemma quanta_selectProcess (rt : Bool) (a : Abstract) :
    quanta (a.selectProcess rt).globals.out = quanta a.globals.out := by
  have hsuspend (c : ℕ) : quanta (a.globals.suspend c).out = quanta a.globals.out := by
    simp [Globals.suspend, Globals.setPcb, Globals.print, quanta]
  unfold Abstract.selectProcess
  split
  · split_ifs
    · rw [quanta_dispatchFrom]
      exact hsuspend _
    · rfl
  · split_ifs <;> rw [quanta_dispatchFrom]

lemma realTimeFirst_iff_current {s' : System} (hs : Simulates s a)
    (hs' : Simulates s' (a.doProcessing rt)) :
    RealTimeFirst s s' ↔ ((a.queue .realTimeQueue).processes ≠ [] →
      ∀ c, (a.selectProcess rt).globals.currentProcess = some c →
        (a.globals.pcb c).priority = 0) := by
  have hq : quanta s'.globals.out = quanta s.globals.out ++
      (a.selectProcess rt).globals.currentProcess.toList := by
    rw [hs'.2, hs.2, Abstract.doProcessing, quanta_runProcess, quanta_selectProcess]
  rw [RealTimeFirst, hs.processes_eq, hq, hs.2]
  cases (a.selectProcess rt).globals.currentProcess <;> simp

lemma Classed.head {name : QueueName} (h : Classed a) (hname : name ≠ .dispatcher) {c : ℕ}
    (hc : (a.queue name).processes.head? = some c) :
    (a.globals.pcb c).priority = 0 ↔ name = .realTimeQueue := by
  have hq : priorityQueue (a.globals.pcb c).priority = name :=
    h name hname c (List.mem_of_head? hc)
  rw [← hq, priorityQueue_eq_realTimeQueue]

lemma current_of_flag (h : Classed a) (hrt : (a.queue .realTimeQueue).processes ≠ []) {c : ℕ}
    (hc : (a.selectProcess true).globals.currentProcess = some c) :
    (a.globals.pcb c).priority = 0 := by
  obtain ⟨d, ds, hd⟩ := List.exists_cons_of_ne_nil hrt
  have hhead : (a.queue .realTimeQueue).processes.head? = some d := by rw [hd]; rfl
  have hzero : (a.globals.pcb d).priority = 0 := (Classed.head h (by simp) hhead).mpr rfl
  cases hcur : a.globals.currentProcess with
  | none =>
    simp only [Abstract.selectProcess, hcur, if_true, currentProcess_dispatchFrom, hhead] at hc
    rwa [← Option.some.inj hc]
  | some e =>
    simp only [Abstract.selectProcess, hcur, and_true] at hc
    split_ifs at hc with he
    · have hne : QueueName.realTimeQueue ≠
          Abstract.queueOf { a with globals := a.globals.suspend e } e := by
        rw [Abstract.queueOf, suspend_priority]
        exact fun hq => he (priorityQueue_eq_realTimeQueue.mp hq.symm)
      rw [currentProcess_dispatchFrom, Abstract.enqueueToPriority_of_ne hne, hhead] at hc
      rwa [← Option.some.inj hc]
    · rw [hcur] at hc
      rw [← Option.some.inj hc]
      exact not_not.mp he

/-- A call of `doProcessing` prefers waiting real-time processes exactly when the flag is set, a
real-time process is current already or the idle processor is given an empty queue. -/
theorem realTimeFirst_iff {lines : List Args} {n : ℕ} (h : Call lines n rt s) :
    ∃ s', doProcessing rt s = some s' ∧ (RealTimeFirst s s' ↔ RealTimeServed rt s) := by
  obtain ⟨a, hs, ha, hflag⟩ := h.simulates
  have hclass : Classed a := ha ▸ (classed_mainLoop lines n).updateDispatcher n
  obtain ⟨s', hs', hsim⟩ := hs.doProcessing fun hrt => ne_null_of_processes (hflag hrt)
  refine ⟨s', hs', ?_⟩
  rw [realTimeFirst_iff_current hs hsim, RealTimeServed, hs.processes_eq, hs.2]
  by_cases hrt : (a.queue .realTimeQueue).processes = []
  · simp [hrt]
  cases rt with
  | true => simpa [hrt] using fun c hc => current_of_flag hclass hrt hc
  | false =>
    simp only [hrt, ne_eq, not_false_eq_true, forall_true_left, false_or, Bool.false_eq_true]
    cases hcur : a.globals.currentProcess with
    | some c => simp [Abstract.selectProcess, hcur]
    | none =>
      rw [selectProcess_idle hcur, ← Simulates.firstPointer_eq hs]
      cases hf : firstPointer s with
      | none => simp [hcur]
      | some name =>
        have hmem : name ∈ userQueues := List.mem_of_find?_eq_some hf
        have hname : name ≠ .dispatcher ∧ name ≠ .realTimeQueue := by
          constructor <;> rintro rfl <;> simp [userQueues] at hmem
        simp only [currentProcess_dispatchFrom, hcur, Option.or_none, hs.processes_eq,
          Option.some.injEq, forall_eq']
        cases hp : (a.queue name).processes with
        | nil => simp
        | cons c cs =>
          have hc := Classed.head hclass hname.1 (c := c) (by rw [hp]; rfl)
          simp [hc, hname.2]

/-- A real-time process waits beside a user process, and the flag tells of it. -/
theorem realTimeFirst_iff_demo : ∃ rt s s',
    Call [![0, 0, 1, 0, 0, 0, 0, 0], ![0, 1, 1, 0, 0, 0, 0, 0]] 0 rt s ∧
      s.processes .realTimeQueue = [1] ∧ s.processes .p1Queue = [2] ∧
      doProcessing rt s = some s' ∧ RealTimeFirst s s' := by
  let lines : List Args := [![0, 0, 1, 0, 0, 0, 0, 0], ![0, 1, 1, 0, 0, 0, 0, 0]]
  have hrun : ((mainLoop lines 0).bind (updateDispatcher 0)).map (fun r =>
      decide (r.1 = true ∧ r.2.processes .realTimeQueue = [1] ∧
        r.2.processes .p1Queue = [2])) = some true := by decide +kernel
  obtain ⟨⟨rt, s⟩, hcall, hs⟩ := Option.map_eq_some_iff.mp hrun
  obtain ⟨s₀, hs₀, hu⟩ := Option.bind_eq_some_iff.mp hcall
  obtain ⟨hflag, hreal, huser⟩ := of_decide_eq_true hs
  have h : Call lines 0 rt s := ⟨s₀, hs₀, hu⟩
  obtain ⟨s', hs', hiff⟩ := realTimeFirst_iff h
  exact ⟨rt, s, s', h, hreal, huser, hs', hiff.mpr (.inr (.inl hflag))⟩

/-- Two real-time processes and a user process arrive together: when the first has finished, no
flag tells of the second, and the user process is run. -/
theorem realTimeFirst_fails : ¬ ∀ lines n rt s s', Call lines n rt s →
    doProcessing rt s = some s' → RealTimeFirst s s' := by
  intro h
  let lines : List Args :=
    [![0, 0, 1, 0, 0, 0, 0, 0], ![0, 0, 1, 0, 0, 0, 0, 0], ![0, 1, 1, 0, 0, 0, 0, 0]]
  have hrun : ((mainLoop lines 1).bind (updateDispatcher 1)).bind (fun r =>
      (doProcessing r.1 r.2).map fun s' =>
        decide (r.2.processes .realTimeQueue ≠ [] ∧
          quanta s'.globals.out = quanta r.2.globals.out ++ [3] ∧
          (r.2.globals.pcb 3).priority ≠ 0)) = some true := by decide +kernel
  obtain ⟨⟨rt, s⟩, hcall, hs⟩ := Option.bind_eq_some_iff.mp hrun
  obtain ⟨s₀, hs₀, hu⟩ := Option.bind_eq_some_iff.mp hcall
  obtain ⟨s', hs', hd⟩ := Option.map_eq_some_iff.mp hs
  obtain ⟨hrt, hq, hp⟩ := of_decide_eq_true hd
  exact hp (h lines 1 rt s s' ⟨s₀, hs₀, hu⟩ hs' hrt 3 hq)

end RealTime

end Eece315.DispatcherSelection
