import Eece315.DispatcherRuns

/-! Where the processes are. The ledger of a state counts every process once for each place it
is found in and once for each line that reports its termination. An iteration never adds to the
ledger, and takes from it exactly the processes that an enqueue overwrites. -/
namespace Eece315.DispatcherAbstract
open HeapChain DispatcherQueue DispatcherResources DispatcherSystem

instance : Fintype QueueName :=
  ⟨{.dispatcher, .realTimeQueue, .userJobQueue, .p1Queue, .p2Queue, .p3Queue},
    fun name => by cases name <;> decide⟩

def terminated (out : List Event) : List ℕ :=
  out.filterMap fun
    | .terminated c => some c
    | _ => none

/-- The processes reported as running, one entry for each quantum. -/
def quanta (out : List Event) : List ℕ :=
  out.filterMap fun
    | .running c => some c
    | _ => none

def Globals.ledger (g : Globals) : Multiset ℕ :=
  (g.currentProcess.toList : Multiset ℕ) + (terminated g.out : Multiset ℕ)

def Abstract.ledger (a : Abstract) : Multiset ℕ :=
  (∑ name, ((a.queue name).processes : Multiset ℕ)) + Globals.ledger a.globals

def Abstract.overwritten (a : Abstract) (c : ℕ) : Multiset ℕ :=
  ((a.queue (a.queueOf c)).overwritten.toList : Multiset ℕ)

def Abstract.elsewhere (a : Abstract) : Multiset ℕ := (a.setQueue .dispatcher .null).ledger

lemma enqueue_add_overwritten (s : Shape) (p : ℕ) :
    ((s.enqueue p).processes : Multiset ℕ) + (s.overwritten.toList : Multiset ℕ) =
      (s.processes : Multiset ℕ) + {p} := by
  rcases s with _ | _ | ⟨_ | _, q, ps⟩
  · rfl
  · rfl
  · simp only [Shape.enqueue, Shape.overwritten, Shape.processes_chain, ← Multiset.cons_coe,
      ← Multiset.singleton_add, Option.toList_some, Multiset.coe_nil]
    abel
  · simp only [Shape.enqueue, Shape.overwritten, Shape.processes_chain, ← Multiset.cons_coe,
      ← Multiset.coe_add, ← Multiset.singleton_add, Option.toList_none, Multiset.coe_nil]
    abel

namespace Abstract

variable {a : Abstract}

lemma ledger_setQueue (a : Abstract) (name : QueueName) (s : Shape) :
    (a.setQueue name s).ledger + ((a.queue name).processes : Multiset ℕ) =
      a.ledger + (s.processes : Multiset ℕ) := by
  have hrest : ∀ b : Abstract, (∀ m, m ≠ name → b.queue m = a.queue m) →
      ∑ m, ((b.queue m).processes : Multiset ℕ) =
        ((b.queue name).processes : Multiset ℕ) +
          ∑ m ∈ Finset.univ.erase name, ((a.queue m).processes : Multiset ℕ) := by
    intro b hb
    rw [← Finset.add_sum_erase _ _ (Finset.mem_univ name)]
    congr 1
    exact Finset.sum_congr rfl fun m hm => by rw [hb m (Finset.ne_of_mem_erase hm)]
  rw [ledger, ledger, hrest (a.setQueue name s) fun m hm => setQueue_of_ne a s hm,
    hrest a fun _ _ => rfl, setQueue_self, setQueue_globals]
  abel

lemma ledger_setGlobals (a : Abstract) {g : Globals}
    (h : Globals.ledger g = Globals.ledger a.globals) :
    ({ a with globals := g } : Abstract).ledger = a.ledger := by
  rw [ledger, ledger, h]

lemma ledger_eq (a : Abstract) :
    a.ledger = ((a.queue .dispatcher).processes : Multiset ℕ) + a.elsewhere := by
  have h := ledger_setQueue a .dispatcher .null
  rw [Shape.processes_null, Multiset.coe_nil, add_zero] at h
  rw [← h, elsewhere, add_comm]

lemma elsewhere_setQueue_dispatcher (a : Abstract) (s : Shape) :
    (a.setQueue .dispatcher s).elsewhere = a.elsewhere := by
  rw [elsewhere, elsewhere]
  congr 1
  simp [setQueue]

lemma ledger_enqueueToPriority (c : ℕ) (a : Abstract) :
    (a.enqueueToPriority c).ledger + a.overwritten c = a.ledger + {c} := by
  have h := ledger_setQueue a (a.queueOf c) ((a.queue (a.queueOf c)).enqueue c)
  have he := enqueue_add_overwritten (a.queue (a.queueOf c)) c
  rw [overwritten]
  refine add_right_cancel (b := ((a.queue (a.queueOf c)).processes : Multiset ℕ)) ?_
  rw [add_right_comm, enqueueToPriority, h, add_assoc, he]
  abel

lemma ledger_dispatchFrom {name : QueueName} {f : Bool} {c : ℕ} {cs : List ℕ} (slice : PCB → ℤ)
    (h : a.queue name = .chain f c cs) :
    (a.dispatchFrom name slice).ledger + (a.globals.currentProcess.toList : Multiset ℕ) =
      a.ledger := by
  have hd : a.dispatchFrom name slice =
      { a.setQueue name (a.queue name).dequeue with globals := a.globals.dispatch c slice } := by
    simp [dispatchFrom, h]
  have hs := ledger_setQueue a name (a.queue name).dequeue
  have hp : (a.queue name).processes = c :: cs := by rw [h]; rfl
  rw [hp, Shape.processes_dequeue hp, ← Multiset.cons_coe, ← Multiset.singleton_add] at hs
  have hl : (a.dispatchFrom name slice).ledger + (a.globals.currentProcess.toList : Multiset ℕ) =
      (a.setQueue name (a.queue name).dequeue).ledger + {c} := by
    rw [hd, ledger, ledger]
    simp only [Globals.ledger, Globals.dispatch, Globals.setPcb, setQueue_globals,
      Option.toList_some, Multiset.coe_singleton]
    abel
  rw [hl]
  refine add_right_cancel (b := (cs : Multiset ℕ)) ?_
  rw [add_assoc, hs]

lemma dispatchFrom_eq_self {name : QueueName} (slice : PCB → ℤ)
    (h : (a.queue name).processes = []) : a.dispatchFrom name slice = a := by
  unfold dispatchFrom
  split
  · simp_all
  · rfl

end Abstract

lemma Globals.ledger_suspend (g : Globals) (c : ℕ) :
    Globals.ledger (g.suspend c) = Globals.ledger g := by
  simp [Globals.ledger, DispatcherSystem.Globals.suspend, DispatcherSystem.Globals.setPcb,
    DispatcherSystem.Globals.print, terminated, List.filterMap_append]

lemma Globals.ledger_quantum (g : Globals) :
    Globals.ledger g.quantum.1 + (g.quantum.2.toList : Multiset ℕ) = Globals.ledger g := by
  unfold DispatcherSystem.Globals.quantum
  cases hc : g.currentProcess with
  | none => simp
  | some c =>
    have hrun : terminated (g.out ++ [.running c]) = terminated g.out := by
      simp [terminated, List.filterMap_append]
    have hterm : terminated (g.out ++ [.running c, .terminated c]) = terminated g.out ++ [c] := by
      simp [terminated, List.filterMap_append]
    simp only []
    split_ifs <;>
      simp [Globals.ledger, DispatcherSystem.Globals.terminate, DispatcherSystem.Globals.setPcb,
        DispatcherSystem.Globals.print, hc, hrun, hterm, List.perm_append_singleton, add_comm]

/-- What the last block of `doProcessing` overwrites. -/
def Abstract.lostByRun (a : Abstract) : Multiset ℕ :=
  match a.globals.quantum with
  | (_, none) => 0
  | (g, some c) => ({ a with globals := g } : Abstract).overwritten c

/-- What suspending the current process overwrites. -/
def Abstract.lostBySelect (rtUpdated : Bool) (a : Abstract) : Multiset ℕ :=
  match a.globals.currentProcess with
  | some c => if (a.globals.pcb c).priority ≠ 0 ∧ rtUpdated then a.overwritten c else 0
  | none => 0

namespace Abstract

variable {a : Abstract}

lemma ledger_runProcess (a : Abstract) : a.runProcess.ledger + a.lostByRun = a.ledger := by
  have hq := Globals.ledger_quantum a.globals
  unfold runProcess lostByRun
  rcases hg : a.globals.quantum with ⟨g, _ | c⟩
  · rw [hg] at hq
    rw [add_zero, ledger_setGlobals a (by simpa using hq)]
  · rw [hg] at hq
    rw [ledger_enqueueToPriority, ledger, ledger, ← hq]
    simp only [Option.toList_some, Multiset.coe_singleton]
    abel

lemma ledger_selectProcess {rtUpdated : Bool}
    (hrt : rtUpdated = true → (a.queue .realTimeQueue).processes ≠ []) :
    (a.selectProcess rtUpdated).ledger + a.lostBySelect rtUpdated = a.ledger := by
  have hidle (hc : a.globals.currentProcess = none) (name : QueueName) (slice : PCB → ℤ) :
      (a.dispatchFrom name slice).ledger = a.ledger := by
    rcases hs : a.queue name with _ | _ | ⟨f, c, cs⟩
    · rw [dispatchFrom_eq_self slice (by simp [hs])]
    · rw [dispatchFrom_eq_self slice (by simp [hs])]
    · simpa [hc] using ledger_dispatchFrom slice hs
  unfold selectProcess lostBySelect
  cases hc : a.globals.currentProcess with
  | none =>
    simp only []
    split_ifs <;> simp [hidle hc]
  | some c =>
    simp only []
    split_ifs with hif
    · set b : Abstract := { a with globals := a.globals.suspend c } with hb
      have hb' : b.ledger = a.ledger := ledger_setGlobals a (Globals.ledger_suspend _ c)
      have hprio : b.queueOf c = a.queueOf c := by
        simp [hb, queueOf, Globals.suspend, Globals.setPcb, Globals.print]
      have hover : b.overwritten c = a.overwritten c := by rw [overwritten, overwritten, hprio]
      have hcur : (b.enqueueToPriority c).globals.currentProcess = some c := hc
      have hne : QueueName.realTimeQueue ≠ b.queueOf c := by
        rw [hprio]
        exact fun he => hif.1 (priorityQueue_eq_realTimeQueue.mp he.symm)
      have hqueue : (b.enqueueToPriority c).queue .realTimeQueue = a.queue .realTimeQueue :=
        enqueueToPriority_of_ne hne
      obtain ⟨f, r, rs, hs⟩ := Shape.exists_chain (hrt hif.2)
      have h₁ := ledger_enqueueToPriority c b
      have h₂ := ledger_dispatchFrom PCB.remainingTime (hqueue.trans hs)
      rw [hcur, Option.toList_some, Multiset.coe_singleton] at h₂
      refine add_right_cancel (b := ({c} : Multiset ℕ)) ?_
      rw [add_right_comm, h₂, ← hover, h₁, hb']
    · simp

theorem ledger_doProcessing {rtUpdated : Bool}
    (hrt : rtUpdated = true → (a.queue .realTimeQueue).processes ≠ []) :
    (a.doProcessing rtUpdated).ledger +
      ((a.selectProcess rtUpdated).lostByRun + a.lostBySelect rtUpdated) = a.ledger := by
  rw [doProcessing, ← add_assoc, ledger_runProcess, ledger_selectProcess hrt]

end Abstract

/-- The ledger inside `updateDispatcher`, without the processes still to be offered. -/
def Offers.ledger (st : Offers) : Multiset ℕ :=
  (st.newDispatcher.processes : Multiset ℕ) + st.system.elsewhere

def Offers.lost (time : ℤ) (st : Offers) (c : ℕ) : Multiset ℕ :=
  if st.Admits time c then st.system.overwritten c else 0

def lostByOffers (time : ℤ) : List ℕ → Offers → Multiset ℕ
  | [], _ => 0
  | c :: cs, st => st.lost time c + lostByOffers time cs (st.offer time c)

lemma allocate_pcb (g : Globals) (c : ℕ) :
    (g.allocate c).2.pcb = Function.update g.pcb c (attempted (g.pcb c) g.host) := by
  rw [← allocateResources_process]
  rfl

lemma allocate_priority (g : Globals) (c d : ℕ) :
    ((g.allocate c).2.pcb d).priority = (g.pcb d).priority := by
  rw [allocate_pcb]
  by_cases hd : d = c
  · subst hd
    simp [attempted]
  · rw [Function.update_of_ne hd]

lemma terminated_initialized (out : List Event) (c : ℕ) :
    terminated (out ++ [.initialized c]) = terminated out := by
  simp [terminated, List.filterMap_append]

lemma Offers.ledger_putBack (st : Offers) (h : st.newDispatcher.overwritten = none) (c : ℕ) :
    (st.putBack c).ledger = st.ledger + {c} ∧ (st.putBack c).newDispatcher.overwritten = none := by
  constructor
  · rw [Offers.ledger, Offers.putBack, Shape.processes_enqueue _ _ h, ← Multiset.coe_add,
      Multiset.coe_singleton, Offers.ledger]
    abel
  · exact st.newDispatcher.overwritten_enqueue c

lemma elsewhere_enqueueToPriority (c : ℕ) (a : Abstract) :
    (a.enqueueToPriority c).elsewhere + a.overwritten c = a.elsewhere + {c} := by
  have hne : a.queueOf c ≠ .dispatcher := priorityQueue_ne_dispatcher _
  have h := Abstract.ledger_enqueueToPriority c (a.setQueue .dispatcher .null)
  have hover : (a.setQueue .dispatcher .null).overwritten c = a.overwritten c := by
    simp only [Abstract.overwritten]
    rw [show (a.setQueue .dispatcher .null).queueOf c = a.queueOf c from rfl,
      Abstract.setQueue_of_ne _ _ hne]
  have hcomm : (a.setQueue .dispatcher .null).enqueueToPriority c =
      (a.enqueueToPriority c).setQueue .dispatcher .null := by
    simp only [Abstract.enqueueToPriority]
    rw [show (a.setQueue .dispatcher .null).queueOf c = a.queueOf c from rfl,
      Abstract.setQueue_of_ne _ _ hne]
    simp only [Abstract.setQueue, Abstract.mk.injEq, and_true]
    exact Function.update_comm hne.symm _ _ _
  rwa [hover, hcomm] at h

lemma Offers.ledger_enlist (st : Offers) (c : ℕ) :
    (st.enlist c).ledger + st.system.overwritten c = st.ledger + {c} := by
  set b : Abstract := { st.system with globals := st.system.globals.print (.initialized c) } with hb
  have hel : b.elsewhere = st.system.elsewhere := by
    rw [Abstract.elsewhere, Abstract.elsewhere, Abstract.ledger, Abstract.ledger]
    congr 1
    simp only [Globals.ledger, hb, Abstract.setQueue_globals, Globals.print,
      terminated_initialized]
  have he : (b.enqueueToPriority c).elsewhere + st.system.overwritten c = b.elsewhere + {c} :=
    elsewhere_enqueueToPriority c b
  rw [Offers.ledger, Offers.ledger, add_assoc, add_assoc, ← hel, ← he]
  rfl

lemma overwritten_attempt (st : Offers) (c : ℕ) :
    (st.attempt c).system.overwritten c = st.system.overwritten c := by
  have hq : (st.attempt c).system.queueOf c = st.system.queueOf c :=
    congrArg priorityQueue (allocate_priority _ c c)
  rw [Abstract.overwritten, Abstract.overwritten, hq]
  rfl

lemma Offers.ledger_offer (time : ℤ) (st : Offers) (h : st.newDispatcher.overwritten = none)
    (c : ℕ) :
    (st.offer time c).ledger + st.lost time c = st.ledger + {c} ∧
      (st.offer time c).newDispatcher.overwritten = none := by
  have hst : (st.attempt c).ledger = st.ledger := rfl
  rcases st.offer_cases time c with ⟨ha, he⟩ | ⟨ha, -, he⟩ | ⟨ha, -, he⟩ <;> rw [he, lost]
  · rw [if_pos ha, ← overwritten_attempt, Offers.ledger_enlist, hst]
    exact ⟨rfl, h⟩
  · rw [if_neg ha, add_zero, ← hst]
    exact (st.attempt c).ledger_putBack h c
  · rw [if_neg ha, add_zero]
    exact st.ledger_putBack h c

lemma Offers.ledger_foldl (time : ℤ) (cs : List ℕ) (st : Offers)
    (h : st.newDispatcher.overwritten = none) :
    (cs.foldl (Offers.offer time) st).ledger + lostByOffers time cs st =
      st.ledger + (cs : Multiset ℕ) := by
  induction cs generalizing st with
  | nil => simp [lostByOffers]
  | cons c cs ih =>
    obtain ⟨h₁, h₂⟩ := st.ledger_offer time h c
    have hrec := ih _ h₂
    rw [List.foldl_cons, lostByOffers, add_left_comm, hrec, ← Multiset.cons_coe,
      ← Multiset.singleton_add, ← add_assoc st.ledger, ← h₁]
    abel

namespace Abstract

variable {a : Abstract}

/-- What an iteration overwrites before `doProcessing` is called. -/
def lostByUpdate (time : ℤ) (a : Abstract) : Multiset ℕ :=
  lostByOffers time (a.queue .dispatcher).processes ⟨.empty, false, a⟩

theorem ledger_updateDispatcher (time : ℤ) (a : Abstract) :
    (a.updateDispatcher time).2.ledger + a.lostByUpdate time = a.ledger := by
  have h := Offers.ledger_foldl time (a.queue .dispatcher).processes ⟨.empty, false, a⟩ rfl
  have hst : (Offers.mk .empty false a).ledger = a.elsewhere := by simp [Offers.ledger]
  rw [ledger_eq (a.updateDispatcher time).2, updateDispatcher, setQueue_self,
    elsewhere_setQueue_dispatcher, lostByUpdate, ledger_eq a, add_comm _ a.elsewhere, ← hst, ← h]
  rfl

def lost (time : ℤ) (a : Abstract) : Multiset ℕ :=
  let (rtUpdated, b) := a.updateDispatcher time
  a.lostByUpdate time + (b.lostBySelect rtUpdated + (b.selectProcess rtUpdated).lostByRun)

theorem ledger_iteration (time : ℤ) (a : Abstract) :
    (a.iteration time).ledger + a.lost time = a.ledger := by
  have h₁ := ledger_updateDispatcher time a
  have h₂ := ledger_doProcessing (updateDispatcher_realTime time a)
  change ((a.updateDispatcher time).2.doProcessing (a.updateDispatcher time).1).ledger +
    (a.lostByUpdate time + ((a.updateDispatcher time).2.lostBySelect (a.updateDispatcher time).1 +
      ((a.updateDispatcher time).2.selectProcess (a.updateDispatcher time).1).lostByRun)) = _
  rw [← h₁, ← h₂]
  abel

end Abstract

lemma ledger_readLines (lines : List Args) (pid : ℕ) (a : Abstract)
    (h : (a.queue .dispatcher).overwritten = none) :
    (Abstract.readLines pid lines a).ledger = a.ledger +
      (List.range' pid (min lines.length (MAX_PROCESSES + 1 - pid)) : Multiset ℕ) := by
  induction lines generalizing pid a with
  | nil => simp [Abstract.readLines]
  | cons args lines ih =>
    unfold Abstract.readLines
    split_ifs with hp
    · have hload : (a.loadProcess pid args).ledger = a.ledger + {pid} := by
        have hset := Abstract.ledger_setQueue a .dispatcher ((a.queue .dispatcher).enqueue pid)
        have hg : (a.loadProcess pid args).ledger =
            (a.setQueue .dispatcher ((a.queue .dispatcher).enqueue pid)).ledger := rfl
        rw [← hg, Shape.processes_enqueue _ _ h, ← Multiset.coe_add, ← add_assoc] at hset
        rw [add_right_comm] at hset
        exact add_right_cancel hset
      have hq : ((a.loadProcess pid args).queue .dispatcher).overwritten = none := by
        rw [loadProcess_dispatcher]
        exact (a.queue .dispatcher).overwritten_enqueue pid
      have hmin : min (lines.length + 1) (MAX_PROCESSES + 1 - pid) =
          min lines.length (MAX_PROCESSES + 1 - (pid + 1)) + 1 := by omega
      rw [ih (pid + 1) _ hq, hload, List.length_cons, hmin, List.range'_succ,
        ← Multiset.cons_coe, ← Multiset.singleton_add, add_assoc]
    · have hmin : MAX_PROCESSES + 1 - pid = 0 := by omega
      simp [hmin]

lemma ledger_mainLoop_zero (lines : List Args) :
    (Abstract.mainLoop lines 0).ledger = (loaded lines : Multiset ℕ) := by
  have h := ledger_readLines lines 1
    { Abstract.initSystem with globals := { Abstract.initSystem.globals with runtime := 0 } } rfl
  have hzero : ({ Abstract.initSystem with
      globals := { Abstract.initSystem.globals with runtime := 0 } } : Abstract).ledger = 0 := by
    simp [Abstract.ledger, Abstract.initSystem, Globals.ledger, DispatcherSystem.initSystem,
      terminated]
  rw [hzero, zero_add] at h
  exact h

theorem ledger_mainLoop_le (lines : List Args) (n : ℕ) :
    (Abstract.mainLoop lines n).ledger ≤ (loaded lines : Multiset ℕ) := by
  induction n with
  | zero => exact (ledger_mainLoop_zero lines).le
  | succ n ih =>
    rw [← Abstract.ledger_iteration n] at ih
    exact (Multiset.le_add_right _ _).trans ih

lemma nodup_loaded (lines : List Args) : (loaded lines : Multiset ℕ).Nodup :=
  Multiset.coe_nodup.mpr (List.nodup_range' 1)

end Eece315.DispatcherAbstract
