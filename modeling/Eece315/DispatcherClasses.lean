import Eece315.DispatcherLedger

/-! In every reachable state a process waits in the queue of its own priority. A priority only
changes while its process is current, and the ledger shows that the process is then in no queue. -/
namespace Eece315.DispatcherAbstract
open HeapChain DispatcherQueue DispatcherResources DispatcherSystem

lemma mem_processes_enqueue {s : Shape} {c d : ℕ} (h : d ∈ (s.enqueue c).processes) :
    d ∈ s.processes ∨ d = c := by
  rcases s with _ | _ | ⟨_ | _, q, ps⟩ <;> simp_all [Shape.enqueue] <;> tauto

lemma mem_processes_dequeue {s : Shape} {d : ℕ} (h : d ∈ s.dequeue.processes) :
    d ∈ s.processes := by
  rcases s with _ | _ | ⟨f, q, _ | ⟨p, ps⟩⟩ <;> simp_all [Shape.dequeue]

/-- Outside the dispatcher queue a process waits in the queue of its priority. -/
def Classed (a : Abstract) : Prop :=
  ∀ name ≠ .dispatcher, ∀ c ∈ (a.queue name).processes, a.queueOf c = name

namespace Abstract

lemma currentProcess_notMem {a : Abstract} (h : a.ledger.Nodup) {c : ℕ}
    (hc : a.globals.currentProcess = some c) (name : QueueName) :
    c ∉ (a.queue name).processes := by
  intro hmem
  have hdis := (Multiset.nodup_add.mp h).2.2
  have hsum : c ∈ ∑ name, ((a.queue name).processes : Multiset ℕ) :=
    Multiset.mem_sum.mpr ⟨name, Finset.mem_univ _, Multiset.mem_coe.mpr hmem⟩
  exact Multiset.disjoint_left.mp hdis hsum (by simp [Globals.ledger, hc])

lemma ledger_updateDispatcher_le (time : ℤ) (a : Abstract) :
    (a.updateDispatcher time).2.ledger ≤ a.ledger :=
  Multiset.le_iff_exists_add.mpr ⟨_, (ledger_updateDispatcher time a).symm⟩

lemma ledger_selectProcess_le {a : Abstract} {rtUpdated : Bool}
    (hrt : rtUpdated = true → (a.queue .realTimeQueue).processes ≠ []) :
    (a.selectProcess rtUpdated).ledger ≤ a.ledger :=
  Multiset.le_iff_exists_add.mpr ⟨_, (ledger_selectProcess hrt).symm⟩

end Abstract

section Steps

variable {a : Abstract}

lemma Classed.setGlobals (h : Classed a) {g : Globals}
    (hg : ∀ name ≠ .dispatcher, ∀ c ∈ (a.queue name).processes,
      (g.pcb c).priority = (a.globals.pcb c).priority) :
    Classed { a with globals := g } := by
  intro name hname c hc
  exact (congrArg priorityQueue (hg name hname c hc)).trans (h name hname c hc)

lemma Classed.enqueueToPriority (h : Classed a) (c : ℕ) : Classed (a.enqueueToPriority c) := by
  intro name hname d hd
  change a.queueOf d = name
  by_cases hq : name = a.queueOf c
  · subst hq
    rw [Abstract.enqueueToPriority_queue] at hd
    rcases mem_processes_enqueue hd with hd | rfl
    · exact h _ hname d hd
    · rfl
  · rw [Abstract.enqueueToPriority_of_ne hq] at hd
    exact h name hname d hd

lemma mem_dispatchFrom {source name : QueueName} {slice : PCB → ℤ} {d : ℕ}
    (hd : d ∈ ((a.dispatchFrom source slice).queue name).processes) :
    d ∈ (a.queue name).processes := by
  unfold Abstract.dispatchFrom at hd
  split at hd
  · by_cases hn : name = source
    · subst hn
      apply mem_processes_dequeue
      simpa using hd
    · simpa [Abstract.setQueue_of_ne a _ hn] using hd
  · exact hd

lemma Classed.dispatchFrom (h : Classed a) (source : QueueName) (slice : PCB → ℤ) :
    Classed (a.dispatchFrom source slice) := by
  intro name hname d hd
  refine Eq.trans ?_ (h name hname d (mem_dispatchFrom hd))
  unfold Abstract.dispatchFrom
  split
  · rename_i f c cs hs
    apply congrArg priorityQueue
    by_cases hdc : d = c
    · subst hdc
      simp [Globals.dispatch, Globals.setPcb]
    · simp [Globals.dispatch, Globals.setPcb, Function.update_of_ne hdc]
  · rfl

lemma suspend_priority (g : Globals) (c d : ℕ) :
    ((g.suspend c).pcb d).priority = (g.pcb d).priority := by
  by_cases hd : d = c
  · subst hd
    simp [Globals.suspend, Globals.setPcb, Globals.print]
  · simp [Globals.suspend, Globals.setPcb, Globals.print, Function.update_of_ne hd]

lemma Classed.selectProcess (h : Classed a) (rtUpdated : Bool) :
    Classed (a.selectProcess rtUpdated) := by
  unfold Abstract.selectProcess
  split
  · rename_i c hc
    split_ifs
    · have hs : Classed { a with globals := a.globals.suspend c } :=
        h.setGlobals fun _ _ d _ => suspend_priority _ c d
      exact (hs.enqueueToPriority c).dispatchFrom _ _
    · exact h
  · split_ifs <;> exact h.dispatchFrom _ _

lemma quantum_pcb (g : Globals) {d : ℕ} (hd : g.currentProcess ≠ some d) :
    g.quantum.1.pcb d = g.pcb d := by
  unfold Globals.quantum
  cases hc : g.currentProcess with
  | none => rfl
  | some c =>
    have hdc : d ≠ c := fun he => hd (by rw [hc, he])
    simp only []
    split_ifs <;>
      simp [Globals.terminate, Globals.setPcb, Globals.print, Function.update_of_ne hdc]

lemma Classed.runProcess (h : Classed a) (hn : a.ledger.Nodup) : Classed a.runProcess := by
  have hg : Classed { a with globals := a.globals.quantum.1 } := by
    apply h.setGlobals
    intro name _ d hd
    rw [quantum_pcb _ fun hc => Abstract.currentProcess_notMem hn hc name hd]
  unfold Abstract.runProcess
  rcases hq : a.globals.quantum with ⟨g, _ | c⟩
  · rwa [hq] at hg
  · rw [hq] at hg
    exact hg.enqueueToPriority c

lemma Classed.offer {st : Offers} (h : Classed st.system) (time : ℤ) (c : ℕ) :
    Classed (st.offer time c).system := by
  have hattempt : Classed (st.attempt c).system :=
    h.setGlobals fun _ _ d _ => allocate_priority _ c d
  rcases st.offer_cases time c with ⟨-, he⟩ | ⟨-, -, he⟩ | ⟨-, -, he⟩ <;> rw [he]
  · have hprint : Classed { (st.attempt c).system with
        globals := (st.attempt c).system.globals.print (.initialized c) } :=
      hattempt.setGlobals fun _ _ _ _ => rfl
    exact hprint.enqueueToPriority c
  · exact hattempt
  · exact h

lemma Classed.updateDispatcher (h : Classed a) (time : ℤ) :
    Classed (a.updateDispatcher time).2 := by
  have hoffers (cs : List ℕ) : Classed (a.offers time cs).system :=
    List.foldlRecOn cs (motive := fun st : Offers => Classed st.system) _ h
      fun st hst c _ => Classed.offer hst time c
  intro name hname d hd
  rw [Abstract.updateDispatcher, Abstract.setQueue_of_ne _ _ hname] at hd
  exact hoffers _ name hname d hd

lemma Classed.iteration (h : Classed a) (hn : a.ledger.Nodup) (time : ℤ) :
    Classed (a.iteration time) := by
  have hle := (Abstract.ledger_selectProcess_le (updateDispatcher_realTime time a)).trans
    (Abstract.ledger_updateDispatcher_le time a)
  exact ((h.updateDispatcher time).selectProcess _).runProcess (Multiset.nodup_of_le hle hn)

end Steps

theorem classed_mainLoop (lines : List Args) (n : ℕ) : Classed (Abstract.mainLoop lines n) := by
  induction n with
  | zero =>
    intro name hname c hc
    rw [Abstract.mainLoop, Abstract.readFile, readLines_of_ne hname] at hc
    cases hc
  | succ n ih =>
    exact ih.iteration (Multiset.nodup_of_le (ledger_mainLoop_le lines n) (nodup_loaded lines)) n

end Eece315.DispatcherAbstract
