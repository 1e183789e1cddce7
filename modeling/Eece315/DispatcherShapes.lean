import Eece315.DispatcherReachable

/-! The queues of the dispatcher in memory. Wherever the loop of `main` has got to, each global
pointer is null or starts a finite chain of nodes of its own, and what the source dereferences
without a test is there. -/
namespace Eece315.DispatcherShapes
open HeapChain DispatcherQueue DispatcherResources DispatcherSystem DispatcherAbstract
open DispatcherReachable

/-- The states that the loop of `main` passes through: at its head, after some of the passes
through the loop of `updateDispatcher`, when `doProcessing` is called, when the current process
has been put back in favour of a real-time one, and when the last block of `doProcessing` is
reached. -/
inductive MainLoopState (lines : List Args) : System → Prop
  | head {n : ℕ} {s : System} (hs : mainLoop lines n = some s) : MainLoopState lines s
  | offering {n i : ℕ} {s : System} {st : Offering} (hs : mainLoop lines n = some s)
      (hst : offers n i (startOffers s) = some st) : MainLoopState lines st.system
  | updated {n : ℕ} {rt : Bool} {s : System} (hs : Call lines n rt s) : MainLoopState lines s
  | preempted {n c : ℕ} {s s' : System} (hs : Call lines n true s)
      (hc : s.globals.currentProcess = some c) (hp : (s.globals.pcb c).priority ≠ 0)
      (he : enqueueToPriority c { s with globals := s.globals.suspend c } = some s') :
      MainLoopState lines s'
  | selected {n : ℕ} {rt : Bool} {s s' : System} (hs : Call lines n rt s)
      (hsel : selectProcess rt s = some s') : MainLoopState lines s'

/-- The queues in use lead to the given nodes and to no others. -/
structure WellShaped (s : System) (nodes : QueueName → List ℕ) : Prop where
  chain : ∀ name ∈ usedQueues, IsChain Queue.next s.heap (s.queue name) (nodes name)
  allocated : ∀ name ∈ usedQueues, ∀ a ∈ nodes name, a < s.heap.top
  shape : ∀ name ∈ usedQueues, NodeShape s.heap (nodes name)
  apart : ∀ m ∈ usedQueues, ∀ n ∈ usedQueues, m ≠ n → ∀ a ∈ nodes m, a ∉ nodes n
  dispatcher : s.queue .dispatcher ≠ none

def Shaped (s : System) : Prop :=
  ∃ shape, Models s.heap s.queue shape ∧ shape .dispatcher ≠ .null

section Shaped

variable {s : System} {a : Abstract}

lemma Shaped.wellShaped (h : Shaped s) : ∃ nodes, WellShaped s nodes := by
  obtain ⟨shape, hm, hd⟩ := h
  obtain ⟨nodes, hf, hn⟩ := hm.nodes
  exact ⟨nodes, fun name _ => hf.chain name, fun name _ => hf.bound name, fun name _ => hn name,
    fun m _ n _ hmn => hf.apart m n hmn, mt (hm.null_iff .dispatcher).mp hd⟩

lemma Shaped.numElems (h : Shaped s) (name : QueueName) :
    ∃ count, numElems s.heap (s.queue name) = some count := by
  obtain ⟨shape, hm, -⟩ := h
  exact ⟨_, hm.numElems_eq name⟩

lemma Shaped.printQueue (h : Shaped s) (pid : ℕ → ℤ) (name : QueueName) :
    printQueue s.heap pid (s.queue name) = some (queueText ((s.processes name).map pid)) := by
  obtain ⟨shape, hm, -⟩ := h
  rw [hm.printQueue_eq pid name, System.processes, hm.processes_eq name]

lemma shaped_of_simulates (h : Simulates s a) (hd : a.queue .dispatcher ≠ .null) : Shaped s :=
  ⟨a.queue, h.1, hd⟩

end Shaped

/-! Inside the loop of `updateDispatcher` the global pointer to the dispatcher queue still leads
to the whole of the old one; the new one is reached through a local variable. -/

def withLocal (p : Option ℕ) (queue : QueueName → Option ℕ) : Option QueueName → Option ℕ
  | none => p
  | some name => queue name

def OfferingShaped (st : Offering) : Prop :=
  ∃ shape, Models st.system.heap (withLocal (some st.newDispatcher) st.system.queue) shape ∧
    shape (some .dispatcher) ≠ .null

section Offering

variable {s s' : System} {st st' : Offering} {time : ℤ}

lemma update_withLocal (p : Option ℕ) (queue : QueueName → Option ℕ) (name : QueueName)
    (q : Option ℕ) :
    Function.update (withLocal p queue) (some name) q =
      withLocal p (Function.update queue name q) := by
  funext o
  cases o with
  | none => rfl
  | some m =>
    by_cases hm : m = name
    · subst hm
      simp [withLocal]
    · have hne : some m ≠ some name := fun he => hm (Option.some.inj he)
      rw [Function.update_of_ne hne]
      exact (Function.update_of_ne hm q queue).symm

lemma OfferingShaped.shaped (h : OfferingShaped st) : Shaped st.system := by
  obtain ⟨shape, hm, hd⟩ := h
  have hglobal : Models st.system.heap st.system.queue fun name => shape (some name) :=
    Represents.reindex hm (Option.some_injective QueueName)
  exact ⟨_, hglobal, hd⟩

lemma Shaped.startOffers (h : Shaped s) : OfferingShaped (startOffers s) := by
  obtain ⟨shape, hm, hd⟩ := h
  have hnew := hm.extend.initializeQueue none
  refine ⟨_, hnew.congr (fun o => ?_) fun o => rfl, ?_⟩
  · cases o <;> simp [withLocal, DispatcherSystem.startOffers]
  · simpa using hd

lemma models_enqueueToPriority {p : Option ℕ} {shape : Option QueueName → Shape} {c : ℕ}
    (he : enqueueToPriority c s = some s') (hm : Models s.heap (withLocal p s.queue) shape) :
    ∃ shape', Models s'.heap (withLocal p s'.queue) shape' ∧
      shape' (some .dispatcher) = shape (some .dispatcher) := by
  set name := priorityQueue (s.globals.pcb c).priority with hname
  have hne : QueueName.dispatcher ≠ name := (priorityQueue_ne_dispatcher _).symm
  obtain ⟨q, heap, hq, hm'⟩ := hm.enqueueOrInit (some name) c
  have hq' : enqueueOrInit s.heap (s.queue name) c = some (some q, heap) := hq
  obtain rfl : { s with heap := heap, queue := Function.update s.queue name (some q) } = s' := by
    simpa [enqueueToPriority, ← hname, hq'] using he
  rw [update_withLocal] at hm'
  exact ⟨_, hm', Function.update_of_ne (fun h => hne (Option.some.inj h)) _ _⟩

lemma OfferingShaped.putBack {c : ℕ} (h : OfferingShaped st) (ho : st.putBack c = some st') :
    OfferingShaped st' := by
  obtain ⟨shape, hm, hd⟩ := h
  obtain ⟨heap, he, hm'⟩ := hm.enqueueProcess (i := none) rfl c
  obtain rfl : { st with system := { st.system with heap := heap } } = st' := by
    simpa [Offering.putBack, he] using ho
  exact ⟨_, hm', by simpa using hd⟩

lemma OfferingShaped.setLocals (h : OfferingShaped st) (queuePtr : Option ℕ) (g : Globals) :
    OfferingShaped { st with queuePtr := queuePtr, system := { st.system with globals := g } } := h

lemma OfferingShaped.offer (h : OfferingShaped st) (ho : offer time st = some st') :
    OfferingShaped st' := by
  simp only [DispatcherSystem.offer, Option.bind_eq_bind] at ho
  obtain ⟨⟨element, queuePtr⟩, -, ho⟩ := Option.bind_eq_some_iff.mp ho
  obtain ⟨node, -, ho⟩ := Option.bind_eq_some_iff.mp ho
  cases hp : (st.system.heap.cell node).process with
  | none =>
    simp only [hp] at ho
    obtain rfl := Option.some.inj ho
    exact h
  | some c =>
    simp only [hp] at ho
    split_ifs at ho
    · obtain ⟨system, he, ho⟩ := Option.bind_eq_some_iff.mp ho
      obtain rfl := Option.some.inj ho
      obtain ⟨shape, hm, hd⟩ := h
      obtain ⟨shape', hm', hsame⟩ := models_enqueueToPriority he hm
      exact ⟨shape', hm', hsame ▸ hd⟩
    · exact (h.setLocals queuePtr _).putBack ho
    · exact (h.setLocals queuePtr st.system.globals).putBack ho

lemma OfferingShaped.offers {n : ℕ} (h : OfferingShaped st) (ho : offers time n st = some st') :
    OfferingShaped st' := by
  induction n generalizing st with
  | zero => exact Option.some.inj ho ▸ h
  | succ n ih =>
    obtain ⟨st₁, h₁, ho⟩ := Option.bind_eq_some_iff.mp ho
    have hs₁ := h.offer h₁
    split_ifs at ho
    · exact Option.some.inj ho ▸ hs₁
    · exact ih hs₁ ho

end Offering

lemma shaped_mainLoop {lines : List Args} {n : ℕ} {s : System}
    (hs : mainLoop lines n = some s) : Shaped s := by
  obtain ⟨hsim, hd⟩ := simulates_of_mainLoop hs
  exact shaped_of_simulates hsim hd

section Call

variable {lines : List Args} {n c : ℕ} {rt : Bool} {s s' : System}

lemma simulates_call (hs : Call lines n rt s) :
    ∃ a : Abstract, Simulates s a ∧ a.queue .dispatcher ≠ .null ∧
      (rt = true → (a.queue .realTimeQueue).processes ≠ []) := by
  obtain ⟨a, hsim, rfl, hrt⟩ := hs.simulates
  exact ⟨_, hsim, updateDispatcher_dispatcher _ _, hrt⟩

lemma simulates_preempted (hs : Call lines n true s) (hp : (s.globals.pcb c).priority ≠ 0) :
    ∃ s' a, enqueueToPriority c { s with globals := s.globals.suspend c } = some s' ∧
      Simulates s' a ∧ a.queue .dispatcher ≠ .null ∧ (a.queue .realTimeQueue).processes ≠ [] := by
  obtain ⟨a, hsim, hd, hrt⟩ := simulates_call hs
  have hg : s.globals.suspend c = a.globals.suspend c := congrArg (Globals.suspend · c) hsim.2
  obtain ⟨s', he, hs'⟩ := (hsim.setGlobals hg).enqueueToPriority c
  have hqueue : Abstract.queueOf { a with globals := a.globals.suspend c } c =
      priorityQueue (s.globals.pcb c).priority := by
    rw [hsim.2]
    simp [Abstract.queueOf, Globals.suspend, Globals.setPcb, Globals.print]
  refine ⟨s', _, he, hs', ?_, ?_⟩
  · have hne : QueueName.dispatcher ≠ priorityQueue (s.globals.pcb c).priority :=
      (priorityQueue_ne_dispatcher _).symm
    rw [← hqueue] at hne
    rw [Abstract.enqueueToPriority_of_ne hne]
    exact hd
  · have hne : QueueName.realTimeQueue ≠ priorityQueue (s.globals.pcb c).priority :=
      fun h => hp (priorityQueue_eq_realTimeQueue.mp h.symm)
    rw [← hqueue] at hne
    rw [Abstract.enqueueToPriority_of_ne hne]
    exact hrt rfl

lemma shaped_selected (hs : Call lines n rt s) (hsel : selectProcess rt s = some s') :
    Shaped s' := by
  obtain ⟨a, hsim, hd, hrt⟩ := simulates_call hs
  obtain ⟨s₁, h₁, hs₁⟩ := hsim.selectProcess fun h => ne_null_of_processes (hrt h)
  obtain rfl : s' = s₁ := Option.some.inj (hsel.symm.trans h₁)
  apply shaped_of_simulates hs₁
  rw [Abstract.selectProcess_frame fun p => (priorityQueue_ne_dispatcher p).symm]
  exact hd

end Call

lemma MainLoopState.shaped {lines : List Args} {s : System} (h : MainLoopState lines s) :
    Shaped s := by
  cases h with
  | head hs => exact shaped_mainLoop hs
  | offering hs hst => exact ((shaped_mainLoop hs).startOffers.offers hst).shaped
  | updated hs =>
    obtain ⟨a, hsim, hd, -⟩ := simulates_call hs
    exact shaped_of_simulates hsim hd
  | preempted hs hc hp he =>
    obtain ⟨s₁, a, h₁, hsim, hd, -⟩ := simulates_preempted hs hp
    obtain rfl := Option.some.inj (he.symm.trans h₁)
    exact shaped_of_simulates hsim hd
  | selected hs hsel => exact shaped_selected hs hsel

lemma offers_found {s : System} {a : Abstract} (h : Simulates s a) (time : ℤ) {i : ℕ}
    (hi : i < (a.queue .dispatcher).processes.length) :
    ∃ st node rest c, offers time i (startOffers s) = some st ∧ st.broken = false ∧
      dequeueProcess st.system.heap st.queuePtr = some (some node, rest) ∧
      (st.system.heap.cell node).process = some c := by
  set cs := (a.queue .dispatcher).processes
  obtain ⟨st, left, ho, hl, hst⟩ :=
    h.enterLoop.offers (cs.take i) (cs.drop i) time (List.take_append_drop i cs).symm
  rw [List.length_take_of_le hi.le] at ho
  have hne : left.processes ≠ [] := by
    rw [hl]
    exact mt List.drop_eq_nil_iff.mp (not_le_of_gt hi)
  obtain ⟨f, c, later, hs⟩ := Shape.exists_chain hne
  obtain ⟨node, rest, -, hp, hd, -⟩ := hst.1.dequeueProcess (i := some .dispatcher) hs
  exact ⟨st, node, rest, c, ho, hst.2.2.2, hd, hp⟩

/-- What the shape of the queues is for: the walks along them end, and the pointers that the
source dereferences without a test are not null. -/
structure QueuesSafe (lines : List Args) : Prop where
  shaped : ∀ s, MainLoopState lines s → ∃ nodes, WellShaped s nodes
  counted : ∀ s, MainLoopState lines s → ∀ name ∈ usedQueues,
    ∃ count, numElems s.heap (s.queue name) = some count
  /-- `queuePtr->next->process->pid` -/
  printed : ∀ s, MainLoopState lines s → ∀ name ∈ usedQueues,
    printQueue s.heap (fun c => (s.globals.pcb c).pid) (s.queue name) =
      some (queueText ((s.processes name).map fun c => (s.globals.pcb c).pid))
  /-- `dequeueProcess(&queuePtr)->process`, in each of the `count` passes -/
  offered : ∀ n, ∃ s q count, mainLoop lines n = some s ∧ s.queue .dispatcher = some q ∧
    numElems (startOffers s).system.heap (some q) = some count ∧
    (((startOffers s).system.heap.cell q).process ≠ none → ∀ i < count, ∃ st node rest c,
      offers n i (startOffers s) = some st ∧ st.broken = false ∧
      dequeueProcess st.system.heap st.queuePtr = some (some node, rest) ∧
      (st.system.heap.cell node).process = some c)
  /-- `realTimeQueue->process`, after the current process has been put back -/
  preempted : ∀ n s c, Call lines n true s → s.globals.currentProcess = some c →
    (s.globals.pcb c).priority ≠ 0 →
    ∃ s' q p, enqueueToPriority c { s with globals := s.globals.suspend c } = some s' ∧
      s'.queue .realTimeQueue = some q ∧ (s'.heap.cell q).process = some p

/-- In every state of the loop of `main` the queues in use are null, a single empty node or a
finite chain of nodes that hold processes, the dispatcher queue is not null and no node is in two
queues: hence they are walked, offered and dispatched from safely. -/
theorem queues_safe (lines : List Args) : QueuesSafe lines where
  shaped s hs := hs.shaped.wellShaped
  counted s hs name _ := hs.shaped.numElems name
  printed s hs name _ := hs.shaped.printQueue _ name
  offered n := by
    obtain ⟨s, hs, hsim, hd⟩ := simulates_mainLoop lines n
    obtain ⟨q, hq⟩ := Option.ne_none_iff_exists'.mp (mt (hsim.1.null_iff .dispatcher).mp hd)
    obtain ⟨hcount, hpasses⟩ := hsim.passes hq
    refine ⟨s, q, _, hs, hq, hcount, fun hp i hi => ?_⟩
    rw [if_neg hp] at hpasses
    exact offers_found hsim n (hpasses ▸ hi)
  preempted n s c hs _ hp := by
    obtain ⟨s', a, he, hsim, -, hrt⟩ := simulates_preempted hs hp
    obtain ⟨f, p, ps, hshape⟩ := Shape.exists_chain hrt
    obtain ⟨q, -, hq, hqp, -⟩ := hsim.1.dequeueProcess hshape
    exact ⟨s', q, p, he, hq, hqp⟩

/-- The second process is running when the third, a real-time one, arrives. -/
theorem queues_safe_demo : ∃ s s' q p,
    Call [![0, 1, 1, 0, 0, 0, 0, 0], ![0, 2, 3, 0, 0, 0, 0, 0], ![2, 0, 1, 0, 0, 0, 0, 0]]
      2 true s ∧
    enqueueToPriority 2 { s with globals := s.globals.suspend 2 } = some s' ∧
    s'.queue .realTimeQueue = some q ∧ (s'.heap.cell q).process = some p := by
  have hrun : ((mainLoop [![0, 1, 1, 0, 0, 0, 0, 0], ![0, 2, 3, 0, 0, 0, 0, 0],
      ![2, 0, 1, 0, 0, 0, 0, 0]] 2).bind (updateDispatcher 2)).map (fun r =>
        decide (r.1 = true ∧ r.2.globals.currentProcess = some 2 ∧
          (r.2.globals.pcb 2).priority ≠ 0)) = some true := by decide +kernel
  obtain ⟨⟨rt, s⟩, hs, hd⟩ := Option.map_eq_some_iff.mp hrun
  obtain ⟨s₀, hs₀, hu⟩ := Option.bind_eq_some_iff.mp hs
  obtain ⟨rfl, hc, hp⟩ := of_decide_eq_true hd
  have hcall : Call _ 2 true s := ⟨s₀, hs₀, hu⟩
  obtain ⟨s', q, p, he, hq, hqp⟩ := (queues_safe _).preempted 2 s 2 hcall hc hp
  exact ⟨s, s', q, p, hcall, he, hq, hqp⟩

end Eece315.DispatcherShapes
