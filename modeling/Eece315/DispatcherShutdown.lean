import Eece315.DispatcherShapes

/-! The end of the dispatcher program. `closeSystem` frees the dispatcher queue and the PCBs in
it, each once and nothing that was freed before; what the other queues hold stays allocated, and
every pass of the main loop has left behind at least one node of the queue. -/
namespace Eece315.DispatcherShutdown
open HeapChain DispatcherQueue DispatcherResources DispatcherSystem DispatcherAbstract
open DispatcherReachable DispatcherShapes

structure Freed where
  nodes : List ℕ
  pcbs : List ℕ
  deriving DecidableEq, Repr

namespace Freed

/-- `free` of a queue node; a second one has no result. -/
def node (m : Freed) (a : ℕ) : Option Freed :=
  if a ∈ m.nodes then none else some { m with nodes := m.nodes ++ [a] }

/-- `free` of a process pointer, which may be null. -/
def process (m : Freed) : Option ℕ → Option Freed
  | none => some m
  | some c => if c ∈ m.pcbs then none else some { m with pcbs := m.pcbs ++ [c] }

end Freed

/-- The loop of `cleanQueue`, stopped after `fuel` passes. Reading a freed node has no result. -/
def cleanQueue (h : Heap Queue) : ℕ → Option ℕ → Freed → Option Freed
  | _, none, m => some m
  | 0, some _, _ => none
  | fuel + 1, some q, m => do
    let tmp := (h.cell q).next
    if q ∈ m.nodes then none
    else
      let m ← m.process (h.cell q).process
      let m ← m.node q
      cleanQueue h fuel tmp m

/-- The program frees a PCB when its process terminates, and here. -/
def closeSystem (s : System) : Option Freed :=
  cleanQueue s.heap s.heap.top (s.queue .dispatcher) ⟨[], s.globals.freed⟩

lemma cleanQueue_chain {h : Heap Queue} {fuel : ℕ} {p : Option ℕ} {as : List ℕ} {m : Freed}
    (hc : IsChain Queue.next h p as) (hfuel : as.length ≤ fuel)
    (hnodes : (m.nodes ++ as).Nodup)
    (hpcbs : (m.pcbs ++ as.filterMap fun a => (h.cell a).process).Nodup) :
    cleanQueue h fuel p m =
      some ⟨m.nodes ++ as, m.pcbs ++ as.filterMap fun a => (h.cell a).process⟩ := by
  induction as generalizing p fuel m with
  | nil =>
    obtain rfl : p = none := hc
    cases fuel <;> simp [cleanQueue]
  | cons a as ih =>
    obtain ⟨rfl, hc⟩ := hc
    obtain ⟨fuel, rfl⟩ : ∃ n, fuel = n + 1 := ⟨fuel - 1, by simp at hfuel; omega⟩
    have ha : a ∉ m.nodes := fun h => List.disjoint_of_nodup_append hnodes h List.mem_cons_self
    have hnodes' : ((m.nodes ++ [a]) ++ as).Nodup := by simpa using hnodes
    have hlength : as.length ≤ fuel := by simpa using hfuel
    rw [cleanQueue, if_neg ha]
    cases hp : (h.cell a).process with
    | none =>
      have hrest := ih (m := ⟨m.nodes ++ [a], m.pcbs⟩) hc hlength hnodes'
        (by simpa [List.filterMap_cons, hp] using hpcbs)
      simpa [Freed.process, Freed.node, ha, List.filterMap_cons, hp] using hrest
    | some c =>
      have hcons : (a :: as).filterMap (fun a => (h.cell a).process) =
          c :: as.filterMap fun a => (h.cell a).process := by simp [hp]
      rw [hcons] at hpcbs ⊢
      have hcm : c ∉ m.pcbs := fun h => List.disjoint_of_nodup_append hpcbs h List.mem_cons_self
      have hrest := ih (m := ⟨m.nodes ++ [a], m.pcbs ++ [c]⟩) hc hlength hnodes'
        (by simpa using hpcbs)
      simpa [Freed.process, Freed.node, ha, hcm] using hrest

/-- The PCBs that the shutdown leaves in a queue or on the processor. -/
def leftOver (s : System) : List ℕ :=
  [.realTimeQueue, .p1Queue, .p2Queue, .p3Queue].flatMap s.processes ++
    s.globals.currentProcess.toList

lemma accounted_le {lines : List Args} {n : ℕ} {s : System} (hs : mainLoop lines n = some s) :
    ((terminated s.globals.out ++ s.processes .dispatcher ++ leftOver s : List ℕ) :
      Multiset ℕ) ≤ (loaded lines : Multiset ℕ) := by
  obtain ⟨hsim, -⟩ := simulates_of_mainLoop hs
  have hle := ledger_mainLoop_le lines n
  rw [ledger_eq_reachable hsim] at hle
  apply le_trans _ hle
  have hreachable : reachable s = s.processes .dispatcher ++ leftOver s := by
    simp [reachable, usedQueues, leftOver]
  rw [hreachable]
  simp only [← Multiset.coe_add]
  have hsplit : (terminated s.globals.out + s.processes .dispatcher + leftOver s : Multiset ℕ) =
      (s.processes .dispatcher + leftOver s : Multiset ℕ) + terminated s.globals.out := by abel
  rw [hsplit]
  exact add_le_add_left (Multiset.le_add_right _ _) _

lemma closeSystem_eq {lines : List Args} {n : ℕ} {s : System} (hs : mainLoop lines n = some s) :
    ∃ nodes, IsChain Queue.next s.heap (s.queue .dispatcher) nodes ∧
      visit Queue.next s.heap s.heap.top (s.queue .dispatcher) = some nodes ∧
      closeSystem s = some ⟨nodes, terminated s.globals.out ++ s.processes .dispatcher⟩ := by
  obtain ⟨hsim, -⟩ := simulates_of_mainLoop hs
  obtain ⟨nodes, hf, -⟩ := hsim.1.nodes
  have hchain := hf.chain .dispatcher
  have hlength := hchain.length_le (hf.bound .dispatcher)
  have hvisit := hchain.visit hlength
  have hprocesses : s.processes .dispatcher =
      (nodes .dispatcher).filterMap fun a => (s.heap.cell a).process := by
    rw [System.processes, processes, hvisit, Option.getD_some]
  have hnodup : (terminated s.globals.out ++ s.processes .dispatcher).Nodup := by
    have hall := Multiset.nodup_of_le (accounted_le hs) (nodup_loaded lines)
    exact (List.nodup_append.mp (Multiset.coe_nodup.mp hall)).1
  obtain ⟨-, -, -, hfreed⟩ := (InLoop.head hs).simulates
  have hclose := cleanQueue_chain (m := ⟨[], s.globals.freed⟩) hchain hlength
    (by simpa using hchain.nodup) (by rw [hfreed, ← hprocesses]; exact hnodup)
  rw [← hprocesses, hfreed] at hclose
  refine ⟨nodes .dispatcher, hchain, hvisit, ?_⟩
  rw [closeSystem, hfreed]
  exact hclose

/-- However long the program ran, its shutdown comes to an end, reads no node that it has freed and
frees nothing twice: it frees the nodes of the dispatcher queue and the PCBs in them, besides those
of the terminated processes. What is left over in the other queues and on the processor is apart
from these and stays allocated. -/
theorem closeSystem_frees (lines : List Args) (n : ℕ) :
    ∃ s m, mainLoop lines n = some s ∧ closeSystem s = some m ∧
      visit Queue.next s.heap s.heap.top (s.queue .dispatcher) = some m.nodes ∧
      m.nodes.Nodup ∧ m.pcbs = terminated s.globals.out ++ s.processes .dispatcher ∧
      ((m.pcbs ++ leftOver s : List ℕ) : Multiset ℕ) ≤ (loaded lines : Multiset ℕ) := by
  obtain ⟨s, hs, -⟩ := simulates_mainLoop lines n
  obtain ⟨nodes, hchain, hvisit, hclose⟩ := closeSystem_eq hs
  exact ⟨s, _, hs, hclose, hvisit, hchain.nodup, rfl, accounted_le hs⟩

/-! Each pass of the main loop gives the dispatcher a queue of new nodes. -/

/-- Links lead to newer nodes, and the queues start at nodes that were handed out. -/
structure Tidy (s : System) : Prop where
  ascending : Ascending Queue.next s.heap
  bound : ∀ name q, s.queue name = some q → q < s.heap.top

structure Step (s s' : System) : Prop where
  tidy : Tidy s'
  top : s.heap.top ≤ s'.heap.top
  dispatcher : s'.queue .dispatcher = s.queue .dispatcher

lemma Step.trans {s s' s'' : System} (h : Step s s') (h' : Step s' s'') : Step s s'' :=
  ⟨h'.tidy, h.top.trans h'.top, h'.dispatcher.trans h.dispatcher⟩

lemma Tidy.step {s : System} (h : Tidy s) : Step s s := ⟨h, le_rfl, rfl⟩

section Tidy

variable {h h' : Heap Queue} {s s' : System} {q c : ℕ} {ptr r : Option ℕ}

lemma ascending_enqueueProcess (ha : Ascending Queue.next h) (hq : q < h.top)
    (he : enqueueProcess h q c = some h') : Ascending Queue.next h' ∧ h.top ≤ h'.top := by
  rw [enqueueProcess] at he
  split_ifs at he
  · cases he
    exact ⟨ha.write fun b hb => ha q b hb, le_rfl⟩
  · obtain ⟨iter, hiter, he⟩ := Option.bind_eq_some_iff.mp he
    cases he
    have hlt := lastFrom_lt hiter hq fun a b hab => (ha a b hab).2
    refine ⟨(ha.alloc rfl).write ?_, Nat.le_succ _⟩
    intro b hb
    obtain rfl : h.top = b := Option.some.inj hb
    exact ⟨hlt, Nat.lt_succ_self _⟩

lemma ascending_enqueueOrInit (ha : Ascending Queue.next h) (hq : ∀ q, ptr = some q → q < h.top)
    (he : enqueueOrInit h ptr c = some (r, h')) :
    Ascending Queue.next h' ∧ h.top ≤ h'.top ∧ ∀ q, r = some q → q < h'.top := by
  cases ptr with
  | none =>
    obtain ⟨heap, hheap, hr⟩ := Option.bind_eq_some_iff.mp he
    cases hr
    have hnew : Ascending Queue.next (h.alloc ⟨false, none, none⟩) := ha.alloc rfl
    obtain ⟨hasc, htop⟩ := ascending_enqueueProcess hnew (Nat.lt_succ_self _) hheap
    refine ⟨hasc, (Nat.le_succ _).trans htop, fun q hq => ?_⟩
    cases hq
    exact htop
  | some a =>
    obtain ⟨heap, hheap, hr⟩ := Option.bind_eq_some_iff.mp he
    cases hr
    obtain ⟨hasc, htop⟩ := ascending_enqueueProcess ha (hq a rfl) hheap
    refine ⟨hasc, htop, fun q hr => ?_⟩
    cases hr
    exact (hq a rfl).trans_le htop

lemma Tidy.setGlobals (ht : Tidy s) (g : Globals) : Step s { s with globals := g } :=
  ⟨⟨ht.ascending, ht.bound⟩, le_rfl, rfl⟩

lemma Tidy.enqueueToPriority (ht : Tidy s) (he : enqueueToPriority c s = some s') :
    Step s s' := by
  set name := priorityQueue (s.globals.pcb c).priority with hname
  obtain ⟨⟨r, heap⟩, hr, hs'⟩ := Option.bind_eq_some_iff.mp he
  cases hs'
  obtain ⟨hasc, htop, hbound⟩ := ascending_enqueueOrInit ht.ascending (ht.bound _) hr
  refine ⟨⟨hasc, fun m a hm => ?_⟩, htop, ?_⟩
  · dsimp only at hm ⊢
    by_cases hmn : m = name
    · subst hmn
      rw [Function.update_self] at hm
      exact hbound a hm
    · rw [Function.update_of_ne hmn] at hm
      exact (ht.bound m a hm).trans_le htop
  · exact Function.update_of_ne (priorityQueue_ne_dispatcher _).symm _ _

lemma Tidy.dispatchFrom {name : QueueName} {slice : PCB → ℤ} (ht : Tidy s)
    (hne : name ≠ .dispatcher) (hd : dispatchFrom name slice s = some s') : Step s s' := by
  obtain ⟨a, ha, hd⟩ := Option.bind_eq_some_iff.mp hd
  cases hp : (s.heap.cell a).process with
  | none =>
    rw [hp] at hd
    cases hd
    exact ht.step
  | some c =>
    rw [hp] at hd
    have hdeq : dequeueProcess s.heap (some a) = some (some a, (s.heap.cell a).next) := by
      simp [dequeueProcess, hp]
    rw [hdeq] at hd
    cases hd
    refine ⟨⟨ht.ascending, fun m b hm => ?_⟩, le_rfl, Function.update_of_ne hne.symm _ _⟩
    dsimp only at hm ⊢
    by_cases hmn : m = name
    · subst hmn
      rw [Function.update_self] at hm
      exact (ht.ascending a b hm).2
    · rw [Function.update_of_ne hmn] at hm
      exact ht.bound m b hm

lemma Tidy.doProcessing {rt : Bool} (ht : Tidy s) (hd : doProcessing rt s = some s') :
    Step s s' := by
  obtain ⟨s₁, hselect, hrun⟩ := Option.bind_eq_some_iff.mp hd
  have hselected : Step s s₁ := by
    unfold selectProcess at hselect
    split at hselect
    · split_ifs at hselect
      · obtain ⟨s₂, hput, htake⟩ := Option.bind_eq_some_iff.mp hselect
        have hput' := (ht.setGlobals _).trans ((ht.setGlobals _).tidy.enqueueToPriority hput)
        exact hput'.trans (hput'.tidy.dispatchFrom (by decide) htake)
      · cases hselect
        exact ht.step
    · split_ifs at hselect
      · exact ht.dispatchFrom (by decide) hselect
      · cases hselect
        exact ht.step
      · exact ht.dispatchFrom (by decide) hselect
      · exact ht.dispatchFrom (by decide) hselect
      · exact ht.dispatchFrom (by decide) hselect
      · cases hselect
        exact ht.step
  apply hselected.trans
  unfold runProcess at hrun
  rcases hq : s₁.globals.quantum with ⟨g, _ | c⟩
  · rw [hq] at hrun
    cases hrun
    exact hselected.tidy.setGlobals g
  · rw [hq] at hrun
    have hset := hselected.tidy.setGlobals g
    exact hset.trans (hset.tidy.enqueueToPriority hrun)

structure TidyOffering (new : ℕ) (st : Offering) : Prop where
  tidy : Tidy st.system
  newDispatcher : st.newDispatcher = new
  allocated : new < st.system.heap.top

lemma TidyOffering.setLocals {new : ℕ} {st : Offering} (ht : TidyOffering new st)
    (queuePtr : Option ℕ) (g : Globals) : TidyOffering new
      { st with queuePtr := queuePtr, system := { st.system with globals := g } } :=
  ⟨(ht.tidy.setGlobals g).tidy, ht.newDispatcher, ht.allocated⟩

lemma TidyOffering.putBack {new : ℕ} {st st' : Offering} (ht : TidyOffering new st)
    (hp : st.putBack c = some st') : TidyOffering new st' := by
  obtain ⟨heap, hheap, hst'⟩ := Option.bind_eq_some_iff.mp hp
  cases hst'
  rw [ht.newDispatcher] at hheap
  obtain ⟨hasc, htop⟩ := ascending_enqueueProcess ht.tidy.ascending ht.allocated hheap
  exact ⟨⟨hasc, fun name a ha => (ht.tidy.bound name a ha).trans_le htop⟩, ht.newDispatcher,
    ht.allocated.trans_le htop⟩

lemma TidyOffering.offer {new : ℕ} {time : ℤ} {st st' : Offering} (ht : TidyOffering new st)
    (ho : offer time st = some st') : TidyOffering new st' := by
  simp only [DispatcherSystem.offer, Option.bind_eq_bind] at ho
  obtain ⟨⟨element, queuePtr⟩, -, ho⟩ := Option.bind_eq_some_iff.mp ho
  obtain ⟨node, -, ho⟩ := Option.bind_eq_some_iff.mp ho
  cases hp : (st.system.heap.cell node).process with
  | none =>
    simp only [hp] at ho
    obtain rfl := Option.some.inj ho
    exact ⟨ht.tidy, ht.newDispatcher, ht.allocated⟩
  | some c =>
    simp only [hp] at ho
    split_ifs at ho
    · obtain ⟨system, he, ho⟩ := Option.bind_eq_some_iff.mp ho
      obtain rfl := Option.some.inj ho
      have hstep := (ht.tidy.setGlobals _).tidy.enqueueToPriority he
      exact ⟨hstep.tidy, ht.newDispatcher, ht.allocated.trans_le hstep.top⟩
    · exact (ht.setLocals queuePtr _).putBack ho
    · exact (ht.setLocals queuePtr st.system.globals).putBack ho

lemma TidyOffering.offers {new n : ℕ} {time : ℤ} {st st' : Offering} (ht : TidyOffering new st)
    (ho : offers time n st = some st') : TidyOffering new st' := by
  induction n generalizing st with
  | zero => exact Option.some.inj ho ▸ ht
  | succ n ih =>
    obtain ⟨st₁, h₁, ho⟩ := Option.bind_eq_some_iff.mp ho
    have ht₁ := ht.offer h₁
    split_ifs at ho
    · exact Option.some.inj ho ▸ ht₁
    · exact ih ht₁ ho

lemma Tidy.startOffers (ht : Tidy s) : TidyOffering s.heap.top (startOffers s) :=
  ⟨⟨ht.ascending.alloc rfl, fun name a ha => (ht.bound name a ha).trans (Nat.lt_succ_self _)⟩,
    rfl, Nat.lt_succ_self _⟩

lemma updateDispatcher_new {a : Abstract} {rt : Bool} {time : ℤ} (hsim : Simulates s a)
    (hd : a.queue .dispatcher ≠ .null) (hu : updateDispatcher time s = some (rt, s')) :
    ∃ n st, offers time n (startOffers s) = some st ∧ s' = { st.system with
      queue := Function.update st.system.queue .dispatcher (some st.newDispatcher) } := by
  obtain ⟨q, hq⟩ := Option.ne_none_iff_exists'.mp (mt (hsim.1.null_iff .dispatcher).mp hd)
  have hptr : (startOffers s).queuePtr = some q := hq
  obtain ⟨st, rest, hoffers, -, hst⟩ := hsim.enterLoop.offers _ [] time (List.append_nil _).symm
  obtain ⟨hcount, hpasses⟩ := hsim.passes hq
  simp only [updateDispatcher, hptr, Option.bind_eq_bind, hcount, Option.bind_some, hpasses,
    hoffers, hst.2.2.2] at hu
  cases hu
  exact ⟨_, st, hoffers, rfl⟩

lemma Tidy.iteration {a : Abstract} {time : ℤ} (ht : Tidy s) (hsim : Simulates s a)
    (hd : a.queue .dispatcher ≠ .null) (hi : iteration time s = some s') :
    Tidy s' ∧ s'.queue .dispatcher = some s.heap.top := by
  obtain ⟨⟨rt, s₁⟩, hu, hp⟩ := Option.bind_eq_some_iff.mp hi
  obtain ⟨n, st, hoffers, rfl⟩ := updateDispatcher_new hsim hd hu
  have hst := ht.startOffers.offers hoffers
  have htidy : Tidy { st.system with
      queue := Function.update st.system.queue .dispatcher (some st.newDispatcher) } := by
    refine ⟨hst.tidy.ascending, fun name q hq => ?_⟩
    dsimp only at hq ⊢
    by_cases hname : name = .dispatcher
    · subst hname
      rw [Function.update_self] at hq
      cases hq
      exact hst.newDispatcher ▸ hst.allocated
    · rw [Function.update_of_ne hname] at hq
      exact hst.tidy.bound name q hq
  have hstep := htidy.doProcessing hp
  refine ⟨hstep.tidy, hstep.dispatcher.trans ?_⟩
  simp [hst.newDispatcher]

lemma tidy_initSystem : Tidy initSystem := by
  constructor
  · intro a b hab
    have hnone : (initSystem.heap.cell a).next = none := by
      simp only [initSystem, List.foldl_cons, List.foldl_nil, initializeQueue, Heap.alloc,
        Function.update_apply]
      split_ifs <;> rfl
    rw [hnone] at hab
    cases hab
  · intro name q hq
    cases name <;> cases hq <;> decide

lemma Tidy.readLines {pid : ℕ} {lines : List Args} (ht : Tidy s)
    (hr : readLines pid lines s = some s') : Tidy s' ∧ s'.queue = s.queue := by
  induction lines generalizing pid s with
  | nil =>
    cases hr
    exact ⟨ht, rfl⟩
  | cons args lines ih =>
    rw [DispatcherSystem.readLines] at hr
    split_ifs at hr
    · obtain ⟨s₁, hl, hr⟩ := Option.bind_eq_some_iff.mp hr
      obtain ⟨q, hq, hl⟩ := Option.bind_eq_some_iff.mp hl
      obtain ⟨heap, hheap, hl⟩ := Option.bind_eq_some_iff.mp hl
      cases hl
      obtain ⟨hasc, htop⟩ := ascending_enqueueProcess ht.ascending (ht.bound _ q hq) hheap
      apply ih _ hr
      exact ⟨hasc, fun name a ha => (ht.bound name a ha).trans_le htop⟩
    · cases hr
      exact ⟨ht, rfl⟩

lemma tidy_mainLoop {lines : List Args} {n : ℕ} (hs : mainLoop lines n = some s) : Tidy s := by
  induction n generalizing s with
  | zero => exact (Tidy.readLines ⟨tidy_initSystem.ascending, tidy_initSystem.bound⟩ hs).1
  | succ n ih =>
    obtain ⟨s₀, hs₀, hi⟩ := Option.bind_eq_some_iff.mp hs
    obtain ⟨hsim, hd⟩ := simulates_of_mainLoop hs₀
    exact ((ih hs₀).iteration hsim hd hi).1

lemma nodes_zero {lines : List Args} {nodes : List ℕ} (hs : mainLoop lines 0 = some s)
    (hchain : IsChain Queue.next s.heap (s.queue .dispatcher) nodes) :
    nodes.length + 5 ≤ s.heap.top := by
  obtain ⟨-, hqueue⟩ := Tidy.readLines ⟨tidy_initSystem.ascending, tidy_initSystem.bound⟩ hs
  obtain ⟨cells, hf, -⟩ := (simulates_of_mainLoop hs).1.1.nodes
  obtain rfl := hchain.unique (hf.chain .dispatcher)
  have hfirst : ∀ name q, s.queue name = some q → name ≠ .dispatcher →
      q ∉ cells .dispatcher ∧ q < s.heap.top := by
    intro name q hq hne
    obtain ⟨as, has⟩ := hf.cells_eq hq
    have hmem : q ∈ cells name := by simp [has]
    exact ⟨hf.apart name .dispatcher hne q hmem, hf.bound name q hmem⟩
  have hothers : ∀ q ∈ [1, 2, 3, 4, 5], q ∉ cells .dispatcher ∧ q < s.heap.top := by
    intro q hq
    have hname : ∃ name, initSystem.queue name = some q ∧ name ≠ .dispatcher := by
      simp only [List.mem_cons, List.not_mem_nil, or_false] at hq
      rcases hq with rfl | rfl | rfl | rfl | rfl
      exacts [⟨.realTimeQueue, rfl, by decide⟩, ⟨.userJobQueue, rfl, by decide⟩,
        ⟨.p1Queue, rfl, by decide⟩, ⟨.p2Queue, rfl, by decide⟩, ⟨.p3Queue, rfl, by decide⟩]
    obtain ⟨name, hname, hne⟩ := hname
    exact hfirst name q (by rw [hqueue]; exact hname) hne
  have hnodup : (cells .dispatcher ++ [1, 2, 3, 4, 5]).Nodup := by
    rw [List.nodup_append]
    refine ⟨hchain.nodup, by decide, ?_⟩
    rintro a ha b hb rfl
    exact (hothers a hb).1 ha
  have hsub : cells .dispatcher ++ [1, 2, 3, 4, 5] ⊆ List.range s.heap.top := by
    intro a ha
    rw [List.mem_range]
    rcases List.mem_append.mp ha with ha | ha
    · exact hf.bound .dispatcher a ha
    · exact (hothers a ha).2
  simpa using (hnodup.subperm hsub).length_le

/-- Nodes of the queues that the shutdown does not free: at least one for each pass of the main
loop besides those of the queues other than the dispatcher queue. -/
theorem leaked_nodes {lines : List Args} {n : ℕ} {m : Freed} (hs : mainLoop lines n = some s)
    (hm : closeSystem s = some m) : m.nodes.length + (n + 5) ≤ s.heap.top := by
  obtain ⟨nodes, hchain, -, hclose⟩ := closeSystem_eq hs
  obtain rfl := Option.some.inj (hclose.symm.trans hm)
  clear hclose hm
  dsimp only
  induction n generalizing s nodes with
  | zero => exact nodes_zero hs hchain
  | succ n ih =>
    obtain ⟨s₀, hs₀, hi⟩ := Option.bind_eq_some_iff.mp hs
    obtain ⟨hsim, hd⟩ := simulates_of_mainLoop hs₀
    obtain ⟨nodes₀, hchain₀, -, -⟩ := closeSystem_eq hs₀
    have hold := ih hs₀ nodes₀ hchain₀
    have hne : nodes₀ ≠ [] := by
      rintro rfl
      exact hd ((hsim.1.null_iff .dispatcher).mp hchain₀)
    have hpos := List.length_pos_of_ne_nil hne
    obtain ⟨htidy, hnew⟩ := (tidy_mainLoop hs₀).iteration hsim hd hi
    rw [hnew] at hchain
    have hle := hchain.add_length_le htidy.ascending (htidy.bound _ _ hnew)
    omega

/-- Twenty passes over an empty list let go of 25 nodes. -/
theorem leaked_nodes_demo : ∃ s m, mainLoop [] 20 = some s ∧ closeSystem s = some m ∧
    m.nodes.length + (20 + 5) ≤ s.heap.top := by
  obtain ⟨s, hs, -⟩ := simulates_mainLoop [] 20
  obtain ⟨nodes, -, -, hclose⟩ := closeSystem_eq hs
  exact ⟨s, _, hs, hclose, leaked_nodes hs hclose⟩

end Tidy

end Eece315.DispatcherShutdown
