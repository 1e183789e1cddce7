import Eece315.DispatcherGlobals

/-! Which PCBs the dispatcher can still reach. They are accounted for by the ledger, and so are
the freed ones: nothing is reached twice and nothing freed is reached. -/
namespace Eece315.DispatcherReachable
open HeapChain DispatcherQueue DispatcherResources DispatcherSystem DispatcherAbstract
open DispatcherOwnership DispatcherGlobals

/-- The states of the loop of `main`: at its head and between its two calls. -/
inductive InLoop (lines : List Args) : System → Prop
  | head {n : ℕ} {s : System} (hs : mainLoop lines n = some s) : InLoop lines s
  | updated {n : ℕ} {rt : Bool} {s : System} (hs : Call lines n rt s) : InLoop lines s

/-- The global queues that the program puts processes in. -/
def usedQueues : List QueueName := [.dispatcher, .realTimeQueue, .p1Queue, .p2Queue, .p3Queue]

/-- The PCBs found through the global queue pointers and the processor, as often as they are
found. -/
def reachable (s : System) : List ℕ :=
  usedQueues.flatMap s.processes ++ s.globals.currentProcess.toList

/-- A PCB is freed when its termination is reported. -/
def FreesTerminated (g : Globals) : Prop := g.freed = terminated g.out

lemma FreesTerminated.print {g : Globals} (h : FreesTerminated g) {e : Event}
    (he : terminated [e] = []) : FreesTerminated (g.print e) := by
  have happ : terminated (g.out ++ [e]) = terminated g.out ++ terminated [e] :=
    List.filterMap_append
  change g.freed = terminated (g.out ++ [e])
  rw [happ, he, List.append_nil]
  exact h

lemma freesTerminated_kept (cs : List ℕ) : Kept cs FreesTerminated := by
  refine ⟨⟨fun g h c _ => h, fun g h c => h.print rfl⟩,
    ⟨fun g h c => ?_, fun g h c slice => h⟩, fun g h _ => ?_⟩
  · have hset : FreesTerminated (g.setPcb c { g.pcb c with state := .suspended }) := h
    exact hset.print rfl
  · have hf : g.freed = terminated g.out := h
    unfold Globals.quantum
    cases hc : g.currentProcess with
    | none => exact h
    | some c =>
      simp only []
      split_ifs <;>
        simp [FreesTerminated, Globals.terminate, Globals.setPcb, Globals.print, hf, terminated,
          List.filterMap_append]

lemma freesTerminated_zero (lines : List Args) :
    FreesTerminated (Abstract.mainLoop lines 0).globals := by
  rw [mainLoop_zero_globals]
  rfl

lemma ledger_eq_reachable {s : System} {a : Abstract} (h : Simulates s a) :
    a.ledger = (reachable s : Multiset ℕ) + ((a.queue .userJobQueue).processes : Multiset ℕ) +
      (terminated s.globals.out : Multiset ℕ) := by
  have hsum : ∑ name, ((a.queue name).processes : Multiset ℕ) =
      ((a.queue .dispatcher).processes : Multiset ℕ) + ((a.queue .realTimeQueue).processes +
        ((a.queue .userJobQueue).processes + ((a.queue .p1Queue).processes +
          ((a.queue .p2Queue).processes + (a.queue .p3Queue).processes)))) := by
    have huniv : (Finset.univ : Finset QueueName) =
      {.dispatcher, .realTimeQueue, .userJobQueue, .p1Queue, .p2Queue, .p3Queue} := rfl
    rw [huniv]
    simp [Finset.sum_insert]
  rw [Abstract.ledger, hsum, reachable, h.2]
  simp only [usedQueues, List.flatMap_cons, List.flatMap_nil, List.append_nil, h.processes_eq,
    Globals.ledger, ← Multiset.coe_add]
  abel

lemma InLoop.simulates {lines : List Args} {s : System} (h : InLoop lines s) :
    ∃ a, Simulates s a ∧ a.ledger.Nodup ∧ FreesTerminated s.globals := by
  have hk := freesTerminated_kept (loaded lines)
  have h0 := freesTerminated_zero lines
  cases h with
  | @head n s hs =>
    obtain ⟨hsim, -⟩ := simulates_of_mainLoop hs
    exact ⟨_, hsim, nodup_mainLoop lines n, hsim.2 ▸ hk.mainLoop h0 n⟩
  | @updated n rt s hs =>
    obtain ⟨a, hsim, rfl, -⟩ := hs.simulates
    have hle := Abstract.ledger_updateDispatcher_le n (Abstract.mainLoop lines n)
    exact ⟨_, hsim, Multiset.nodup_of_le hle (nodup_mainLoop lines n),
      hk.call (hk.mainLoop h0 n) hs⟩

/-- In the loop of `main` no PCB is reachable twice, none is freed twice, and none that has been
freed is reachable. -/
theorem reachable_nodup {lines : List Args} {s : System} (h : InLoop lines s) :
    (reachable s).Nodup ∧ s.globals.freed.Nodup ∧ ∀ c ∈ s.globals.freed, c ∉ reachable s := by
  obtain ⟨a, hsim, hn, hf⟩ := h.simulates
  rw [ledger_eq_reachable hsim, add_right_comm] at hn
  have hboth := (Multiset.nodup_add.mp hn).1
  rw [← hf, Multiset.nodup_add, Multiset.coe_nodup, Multiset.coe_nodup] at hboth
  obtain ⟨hreach, hfreed, hdis⟩ := hboth
  refine ⟨hreach, hfreed, fun c hc hmem => ?_⟩
  exact Multiset.disjoint_left.mp hdis (Multiset.mem_coe.mpr hmem) (Multiset.mem_coe.mpr hc)

/-- One process has terminated, one waits and one has yet to arrive. -/
theorem reachable_nodup_demo : ∃ s,
    InLoop [![0, 1, 1, 0, 0, 0, 0, 0], ![0, 1, 1, 0, 0, 0, 0, 0], ![5, 1, 1, 0, 0, 0, 0, 0]] s ∧
      s.globals.freed = [1] ∧ reachable s = [3, 2] ∧
      ((reachable s).Nodup ∧ s.globals.freed.Nodup ∧
        ∀ c ∈ s.globals.freed, c ∉ reachable s) := by
  have hrun : (mainLoop [![0, 1, 1, 0, 0, 0, 0, 0], ![0, 1, 1, 0, 0, 0, 0, 0],
      ![5, 1, 1, 0, 0, 0, 0, 0]] 1).map (fun s =>
        decide (s.globals.freed = [1] ∧ reachable s = [3, 2])) = some true := by decide +kernel
  obtain ⟨s, hs, hd⟩ := Option.map_eq_some_iff.mp hrun
  obtain ⟨hfreed, hreach⟩ := of_decide_eq_true hd
  exact ⟨s, .head hs, hfreed, hreach, reachable_nodup (.head hs)⟩

end Eece315.DispatcherReachable
