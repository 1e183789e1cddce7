import Eece315.DispatcherAbstract

/-! Whole runs of the dispatcher. The program never gets stuck: after any number of iterations,
and between the two halves of each, it simulates the machine over queue values. -/
namespace Eece315.DispatcherAbstract
open HeapChain DispatcherQueue DispatcherResources DispatcherSystem

lemma enqueue_processes_ne_nil (s : Shape) (p : ℕ) : (s.enqueue p).processes ≠ [] := by
  rcases s with _ | _ | ⟨_ | _, q, ps⟩ <;> simp [Shape.enqueue]

lemma ne_null_of_processes {s : Shape} (h : s.processes ≠ []) : s ≠ .null := by
  rintro rfl
  exact h rfl

lemma enqueue_ne_null (s : Shape) (p : ℕ) : s.enqueue p ≠ .null :=
  ne_null_of_processes (enqueue_processes_ne_nil s p)

namespace Abstract

variable {a : Abstract}

@[simp] lemma setQueue_self (a : Abstract) (name : QueueName) (s : Shape) :
    (a.setQueue name s).queue name = s := by
  simp [Abstract.setQueue]

lemma setQueue_of_ne (a : Abstract) {m n : QueueName} (s : Shape) (h : m ≠ n) :
    (a.setQueue n s).queue m = a.queue m := by
  simp [Abstract.setQueue, Function.update_of_ne h]

@[simp] lemma setQueue_globals (a : Abstract) (n : QueueName) (s : Shape) :
    (a.setQueue n s).globals = a.globals := rfl

@[simp] lemma enqueueToPriority_globals (c : ℕ) (a : Abstract) :
    (a.enqueueToPriority c).globals = a.globals := rfl

lemma enqueueToPriority_queue (c : ℕ) (a : Abstract) :
    (a.enqueueToPriority c).queue (a.queueOf c) = (a.queue (a.queueOf c)).enqueue c :=
  setQueue_self _ _ _

lemma enqueueToPriority_of_ne {c : ℕ} {m : QueueName} (h : m ≠ a.queueOf c) :
    (a.enqueueToPriority c).queue m = a.queue m := setQueue_of_ne a _ h

lemma dispatchFrom_of_ne {name m : QueueName} (slice : PCB → ℤ) (h : m ≠ name) :
    (a.dispatchFrom name slice).queue m = a.queue m := by
  unfold Abstract.dispatchFrom
  split
  · exact setQueue_of_ne a _ h
  · rfl

section Frame

/-! A queue that no process is ever put in or taken from by its priority. -/

variable {m : QueueName} (hm : ∀ p, m ≠ priorityQueue p)

include hm

lemma selectProcess_frame (rtUpdated : Bool) (a : Abstract) :
    (a.selectProcess rtUpdated).queue m = a.queue m := by
  unfold Abstract.selectProcess
  split
  · split_ifs
    · have hrt : m ≠ .realTimeQueue := hm 0
      rw [dispatchFrom_of_ne _ hrt, enqueueToPriority_of_ne (hm _)]
    · rfl
  · split_ifs
    · exact dispatchFrom_of_ne _ (hm 0)
    · exact dispatchFrom_of_ne _ (hm 1)
    · exact dispatchFrom_of_ne _ (hm 2)
    · exact dispatchFrom_of_ne _ (hm 3)

lemma runProcess_frame (a : Abstract) : a.runProcess.queue m = a.queue m := by
  unfold Abstract.runProcess
  split
  · rfl
  · rw [enqueueToPriority_of_ne (hm _)]

lemma doProcessing_frame (rtUpdated : Bool) (a : Abstract) :
    (a.doProcessing rtUpdated).queue m = a.queue m := by
  rw [Abstract.doProcessing, runProcess_frame hm, selectProcess_frame hm]

lemma offer_frame (time : ℤ) (st : Offers) (c : ℕ) :
    (st.offer time c).system.queue m = st.system.queue m := by
  rcases st.offer_cases time c with ⟨-, he⟩ | ⟨-, -, he⟩ | ⟨-, -, he⟩ <;> rw [he]
  · exact enqueueToPriority_of_ne (hm _)
  · rfl
  · rfl

lemma offers_frame (time : ℤ) (cs : List ℕ) (a : Abstract) :
    (a.offers time cs).system.queue m = a.queue m :=
  List.foldlRecOn cs (motive := fun st : Offers => st.system.queue m = a.queue m) _ rfl
    fun st h c _ => by rw [offer_frame hm, h]

end Frame

lemma userJobQueue_ne_priorityQueue (p : ℤ) : QueueName.userJobQueue ≠ priorityQueue p := by
  unfold priorityQueue
  split_ifs <;> simp

end Abstract

/-- What the loop of `updateDispatcher` keeps: the new queue is not null, and the flag is only
set once a process waits in the real-time queue. -/
structure OffersOk (st : Offers) : Prop where
  newDispatcher : st.newDispatcher ≠ .null
  realTime : st.rtQUpdated = true → (st.system.queue .realTimeQueue).processes ≠ []

lemma OffersOk.putBack {st : Offers} (h : OffersOk st) (c : ℕ) : OffersOk (st.putBack c) :=
  ⟨enqueue_ne_null _ _, h.realTime⟩

lemma OffersOk.enlist {st : Offers} (h : OffersOk st) (c : ℕ) : OffersOk (st.enlist c) := by
  refine ⟨h.newDispatcher, fun hrt => ?_⟩
  set a : Abstract := { st.system with globals := st.system.globals.print (.initialized c) }
  change ((a.enqueueToPriority c).queue .realTimeQueue).processes ≠ []
  by_cases hc : QueueName.realTimeQueue = a.queueOf c
  · rw [hc, Abstract.enqueueToPriority_queue]
    exact enqueue_processes_ne_nil _ _
  · rw [Abstract.enqueueToPriority_of_ne hc]
    apply h.realTime
    have hp : ¬ (st.system.globals.pcb c).priority = 0 := fun hp =>
      hc (priorityQueue_eq_realTimeQueue.mpr hp).symm
    simpa [Offers.enlist, hp] using hrt

lemma OffersOk.offer {st : Offers} (h : OffersOk st) (time : ℤ) (c : ℕ) :
    OffersOk (st.offer time c) := by
  have h' : OffersOk (st.attempt c) := ⟨h.newDispatcher, h.realTime⟩
  rcases st.offer_cases time c with ⟨-, he⟩ | ⟨-, -, he⟩ | ⟨-, -, he⟩ <;> rw [he]
  · exact h'.enlist c
  · exact h'.putBack c
  · exact h.putBack c

lemma offersOk_offers (time : ℤ) (cs : List ℕ) (a : Abstract) : OffersOk (a.offers time cs) := by
  have hstart : OffersOk ⟨.empty, false, a⟩ := ⟨by simp, by simp⟩
  exact List.foldlRecOn cs _ hstart fun st h c _ => h.offer time c

lemma updateDispatcher_dispatcher (time : ℤ) (a : Abstract) :
    (a.updateDispatcher time).2.queue .dispatcher ≠ .null := by
  rw [Abstract.updateDispatcher, Abstract.setQueue_self]
  exact (offersOk_offers time _ a).newDispatcher

lemma updateDispatcher_realTime (time : ℤ) (a : Abstract)
    (h : (a.updateDispatcher time).1 = true) :
    ((a.updateDispatcher time).2.queue .realTimeQueue).processes ≠ [] := by
  rw [Abstract.updateDispatcher, Abstract.setQueue_of_ne _ _ (by simp)]
  exact (offersOk_offers time _ a).realTime h

lemma Simulates.iteration {s : System} {a : Abstract} (h : Simulates s a)
    (hd : a.queue .dispatcher ≠ .null) (time : ℤ) :
    ∃ s', iteration time s = some s' ∧ Simulates s' (a.iteration time) := by
  obtain ⟨s₁, h₁, hs₁⟩ := h.updateDispatcher hd time
  obtain ⟨s₂, h₂, hs₂⟩ := hs₁.doProcessing fun hrt =>
    ne_null_of_processes (updateDispatcher_realTime time a hrt)
  exact ⟨s₂, by simp [DispatcherSystem.iteration, h₁, h₂], hs₂⟩

lemma loadProcess_dispatcher (a : Abstract) (pid : ℕ) (args : Args) :
    (a.loadProcess pid args).queue .dispatcher = (a.queue .dispatcher).enqueue pid :=
  Abstract.setQueue_self a .dispatcher ((a.queue .dispatcher).enqueue pid)

lemma Simulates.loadProcess {s : System} {a : Abstract} (h : Simulates s a)
    (hd : a.queue .dispatcher ≠ .null) (pid : ℕ) (args : Args) :
    ∃ s', loadProcess pid args s = some s' ∧ Simulates s' (a.loadProcess pid args) := by
  obtain ⟨hm, hg⟩ := h
  obtain ⟨q, hq⟩ := Option.ne_none_iff_exists'.mp (mt (hm.null_iff .dispatcher).mp hd)
  obtain ⟨heap, he, hm'⟩ := hm.enqueueProcess hq pid
  refine ⟨_, by simp [DispatcherSystem.loadProcess, hq, he]; rfl, hm', ?_⟩
  simp [Abstract.loadProcess, hg]

lemma Simulates.readLines {s : System} {a : Abstract} (h : Simulates s a)
    (hd : a.queue .dispatcher ≠ .null) (pid : ℕ) (lines : List Args) :
    ∃ s', readLines pid lines s = some s' ∧ Simulates s' (Abstract.readLines pid lines a) ∧
      (Abstract.readLines pid lines a).queue .dispatcher ≠ .null := by
  induction lines generalizing pid s a with
  | nil => exact ⟨s, rfl, h, hd⟩
  | cons args lines ih =>
    by_cases hp : pid ≤ MAX_PROCESSES
    · obtain ⟨s₁, h₁, hs₁⟩ := h.loadProcess hd pid args
      have hd₁ : (a.loadProcess pid args).queue .dispatcher ≠ .null := by
        rw [loadProcess_dispatcher]
        exact enqueue_ne_null (a.queue .dispatcher) pid
      obtain ⟨s', h', hs', hd'⟩ := ih hs₁ hd₁ (pid + 1)
      refine ⟨s', by simp [DispatcherSystem.readLines, hp, h₁, h'], ?_, ?_⟩
      · simpa [Abstract.readLines, hp] using hs'
      · simpa [Abstract.readLines, hp] using hd'
    · exact ⟨s, by simp [DispatcherSystem.readLines, hp],
        by simpa [Abstract.readLines, hp] using h, by simpa [Abstract.readLines, hp] using hd⟩

lemma simulates_initSystem : Simulates initSystem Abstract.initSystem := by
  refine ⟨?_, rfl⟩
  have h₀ : Models ⟨fun _ => ⟨false, none, none⟩, 0⟩ (fun _ : QueueName => none)
      fun _ => Shape.null := represents_null _
  have h₆ := ((((((h₀.initializeQueue .dispatcher).initializeQueue .realTimeQueue).initializeQueue
    .userJobQueue).initializeQueue .p1Queue).initializeQueue .p2Queue).initializeQueue .p3Queue)
  refine h₆.congr (fun n => ?_) fun n => ?_
  · cases n <;> rfl
  · cases n <;> rfl

/-- The program is never stuck, and its state is that of the machine. -/
theorem simulates_mainLoop (lines : List Args) (n : ℕ) :
    ∃ s, mainLoop lines n = some s ∧ Simulates s (Abstract.mainLoop lines n) ∧
      (Abstract.mainLoop lines n).queue .dispatcher ≠ .null := by
  induction n with
  | zero =>
    exact (simulates_initSystem.setGlobals rfl).readLines (by simp [Abstract.initSystem]) 1 lines
  | succ n ih =>
    obtain ⟨s, hs, hsim, hd⟩ := ih
    obtain ⟨s', hs', hsim'⟩ := hsim.iteration hd n
    refine ⟨s', by simp [mainLoop, hs, hs'], hsim', ?_⟩
    rw [Abstract.mainLoop, Abstract.iteration,
      Abstract.doProcessing_frame fun p => (priorityQueue_ne_dispatcher p).symm]
    exact updateDispatcher_dispatcher _ _

lemma simulates_of_mainLoop {lines : List Args} {n : ℕ} {s : System}
    (hs : mainLoop lines n = some s) :
    Simulates s (Abstract.mainLoop lines n) ∧
      (Abstract.mainLoop lines n).queue .dispatcher ≠ .null := by
  obtain ⟨t, ht, hsim, hd⟩ := simulates_mainLoop lines n
  obtain rfl : s = t := Option.some.inj (hs.symm.trans ht)
  exact ⟨hsim, hd⟩

lemma readLines_of_ne {m : QueueName} (hm : m ≠ .dispatcher) (pid : ℕ) (lines : List Args)
    (a : Abstract) : (Abstract.readLines pid lines a).queue m = a.queue m := by
  induction lines generalizing pid a with
  | nil => rfl
  | cons args lines ih =>
    unfold Abstract.readLines
    split_ifs
    · rw [ih]
      exact Abstract.setQueue_of_ne a ((a.queue .dispatcher).enqueue pid) hm
    · rfl

lemma mainLoop_userJobQueue (lines : List Args) (n : ℕ) :
    (Abstract.mainLoop lines n).queue .userJobQueue = .empty := by
  have hne : QueueName.userJobQueue ≠ .dispatcher := by simp
  induction n with
  | zero => exact readLines_of_ne hne 1 lines _
  | succ n ih =>
    have hm := Abstract.userJobQueue_ne_priorityQueue
    rw [Abstract.mainLoop, Abstract.iteration, Abstract.doProcessing_frame hm,
      Abstract.updateDispatcher, Abstract.setQueue_of_ne _ _ hne, Abstract.offers_frame hm, ih]

theorem simulates_updateDispatcher (lines : List Args) (n : ℕ) {s s₁ : System} {rt : Bool}
    (hs : mainLoop lines n = some s) (hu : updateDispatcher n s = some (rt, s₁)) :
    rt = ((Abstract.mainLoop lines n).updateDispatcher n).1 ∧
      Simulates s₁ ((Abstract.mainLoop lines n).updateDispatcher n).2 := by
  obtain ⟨hsim, hd⟩ := simulates_of_mainLoop hs
  obtain ⟨s₂, h₂, hs₂⟩ := hsim.updateDispatcher hd n
  obtain ⟨rfl, rfl⟩ : (rt, s₁) = (_, s₂) := Option.some.inj (hu.symm.trans h₂)
  exact ⟨rfl, hs₂⟩

/-- The call of `doProcessing` in iteration `n` of `main` is made with flag `rt` in state `s`. -/
def Call (lines : List Args) (n : ℕ) (rt : Bool) (s : System) : Prop :=
  ∃ s₀, mainLoop lines n = some s₀ ∧ updateDispatcher n s₀ = some (rt, s)

lemma exists_call (lines : List Args) (n : ℕ) : ∃ rt s, Call lines n rt s := by
  obtain ⟨s₀, hs₀, hsim, hd⟩ := simulates_mainLoop lines n
  obtain ⟨s, hs, -⟩ := hsim.updateDispatcher hd n
  exact ⟨_, s, s₀, hs₀, hs⟩

lemma Call.simulates {lines : List Args} {n : ℕ} {rt : Bool} {s : System} (h : Call lines n rt s) :
    ∃ a : Abstract, Simulates s a ∧ a = ((Abstract.mainLoop lines n).updateDispatcher n).2 ∧
      (rt = true → (a.queue .realTimeQueue).processes ≠ []) := by
  obtain ⟨s₀, hs₀, hu⟩ := h
  obtain ⟨rfl, hsim⟩ := simulates_updateDispatcher lines n hs₀ hu
  exact ⟨_, hsim, rfl, updateDispatcher_realTime n _⟩

/-- The states between the passes through the loop of `updateDispatcher`. -/
inductive LoopState (time : ℤ) (s : System) : Offering → Prop
  | enter : LoopState time s (startOffers s)
  | pass {st st' : Offering} : LoopState time s st → offer time st = some st' →
      st'.broken = false → LoopState time s st'

section Loop

variable {s : System} {a : Abstract} {time : ℤ}

lemma LoopState.simulates (hs : Simulates s a) {st : Offering} (h : LoopState time s st) :
    ∃ done later rest, (a.queue .dispatcher).processes = done ++ later ∧
      rest.processes = later ∧ SimulatesOffers st rest (a.offers time done) := by
  induction h with
  | enter => exact ⟨[], _, _, rfl, rfl, hs.enterLoop⟩
  | @pass st st' _ ho _ ih =>
    obtain ⟨done, later, rest, hd, hl, hsim⟩ := ih
    cases later with
    | nil => rw [hsim.offer_eq_none hl] at ho; cases ho
    | cons c later =>
      obtain ⟨st'', ho', hsim'⟩ := hsim.offer hl time
      obtain rfl : st' = st'' := Option.some.inj (ho.symm.trans ho')
      refine ⟨done ++ [c], later, rest.dequeue, by simp [hd], Shape.processes_dequeue hl, ?_⟩
      simpa [Abstract.offers] using hsim'

lemma exists_loopState (time : ℤ) (hs : Simulates s a) {done later : List ℕ}
    (hd : (a.queue .dispatcher).processes = done ++ later) :
    ∃ st rest, LoopState time s st ∧ rest.processes = later ∧
      SimulatesOffers st rest (a.offers time done) := by
  induction done using List.reverseRecOn generalizing later with
  | nil => exact ⟨_, _, .enter, hd, hs.enterLoop⟩
  | append_singleton done c ih =>
    obtain ⟨st, rest, hst, hl, hsim⟩ := ih (show _ = done ++ c :: later by simpa using hd)
    obtain ⟨st', ho, hsim'⟩ := hsim.offer hl time
    refine ⟨st', rest.dequeue, hst.pass ho hsim'.2.2.2, Shape.processes_dequeue hl, ?_⟩
    simpa [Abstract.offers] using hsim'

end Loop

end Eece315.DispatcherAbstract
