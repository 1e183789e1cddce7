import Eece315.DispatcherSystem

/-! The dispatcher over queues as values. The operations of this machine are total, and the
program of `DispatcherSystem` simulates it: a run of `main` never dereferences a null pointer or
loses itself in a cyclic chain, and its queues hold what the queues here hold. -/
namespace Eece315.DispatcherAbstract
open HeapChain DispatcherQueue DispatcherResources DispatcherSystem

structure Abstract where
  queue : QueueName → Shape
  globals : Globals

namespace Abstract

def setQueue (a : Abstract) (name : QueueName) (s : Shape) : Abstract :=
  { a with queue := Function.update a.queue name s }

def queueOf (a : Abstract) (c : ℕ) : QueueName := priorityQueue (a.globals.pcb c).priority

def enqueueToPriority (c : ℕ) (a : Abstract) : Abstract :=
  a.setQueue (a.queueOf c) ((a.queue (a.queueOf c)).enqueue c)

def dispatchFrom (name : QueueName) (slice : PCB → ℤ) (a : Abstract) : Abstract :=
  match a.queue name with
  | .chain _ c _ =>
    { a.setQueue name (a.queue name).dequeue with globals := a.globals.dispatch c slice }
  | _ => a

def selectProcess (rtUpdated : Bool) (a : Abstract) : Abstract :=
  match a.globals.currentProcess with
  | some c =>
    if (a.globals.pcb c).priority ≠ 0 ∧ rtUpdated then
      dispatchFrom .realTimeQueue PCB.remainingTime
        (enqueueToPriority c { a with globals := a.globals.suspend c })
    else a
  | none =>
    if rtUpdated then dispatchFrom .realTimeQueue PCB.remainingTime a
    else if a.queue .p1Queue ≠ .null then dispatchFrom .p1Queue (fun _ => P1_TIMEQUANTUM) a
    else if a.queue .p2Queue ≠ .null then dispatchFrom .p2Queue (fun _ => P2_TIMEQUANTUM) a
    else dispatchFrom .p3Queue (fun _ => P3_TIMEQUANTUM) a

def runProcess (a : Abstract) : Abstract :=
  match a.globals.quantum with
  | (g, none) => { a with globals := g }
  | (g, some c) => enqueueToPriority c { a with globals := g }

def doProcessing (rtUpdated : Bool) (a : Abstract) : Abstract :=
  runProcess (selectProcess rtUpdated a)

end Abstract

structure Offers where
  newDispatcher : Shape
  rtQUpdated : Bool
  system : Abstract

namespace Offers

def putBack (st : Offers) (c : ℕ) : Offers :=
  { st with newDispatcher := st.newDispatcher.enqueue c }

def enlist (st : Offers) (c : ℕ) : Offers :=
  { st with
    rtQUpdated := st.rtQUpdated || (st.system.globals.pcb c).priority = 0
    system := Abstract.enqueueToPriority c
      { st.system with globals := st.system.globals.print (.initialized c) } }

def attempt (st : Offers) (c : ℕ) : Offers :=
  { st with system := { st.system with globals := (st.system.globals.allocate c).2 } }

def offer (time : ℤ) (st : Offers) (c : ℕ) : Offers :=
  if time ≥ (st.system.globals.pcb c).arrivalTime then
    if (st.system.globals.allocate c).1 ≠ 0 then (st.attempt c).enlist c
    else (st.attempt c).putBack c
  else st.putBack c

/-- Process `c` has arrived and its allocation will succeed. -/
def Admits (time : ℤ) (st : Offers) (c : ℕ) : Prop :=
  time ≥ (st.system.globals.pcb c).arrivalTime ∧ (st.system.globals.allocate c).1 ≠ 0

instance (time : ℤ) (st : Offers) (c : ℕ) : Decidable (st.Admits time c) :=
  inferInstanceAs (Decidable (_ ∧ _))

theorem offer_cases (time : ℤ) (st : Offers) (c : ℕ) :
    (st.Admits time c ∧ st.offer time c = (st.attempt c).enlist c) ∨
      (¬ st.Admits time c ∧ time ≥ (st.system.globals.pcb c).arrivalTime ∧
        st.offer time c = (st.attempt c).putBack c) ∨
      (¬ st.Admits time c ∧ time < (st.system.globals.pcb c).arrivalTime ∧
        st.offer time c = st.putBack c) := by
  by_cases ht : time ≥ (st.system.globals.pcb c).arrivalTime
  · by_cases hr : (st.system.globals.allocate c).1 ≠ 0
    · exact .inl ⟨⟨ht, hr⟩, by rw [offer, if_pos ht, if_pos hr]⟩
    · exact .inr (.inl ⟨fun h => hr h.2, ht, by rw [offer, if_pos ht, if_neg hr]⟩)
  · exact .inr (.inr ⟨fun h => ht h.1, lt_of_not_ge ht, by rw [offer, if_neg ht]⟩)

end Offers

namespace Abstract

def offers (time : ℤ) (cs : List ℕ) (a : Abstract) : Offers :=
  cs.foldl (Offers.offer time) ⟨.empty, false, a⟩

def updateDispatcher (time : ℤ) (a : Abstract) : Bool × Abstract :=
  let st := a.offers time (a.queue .dispatcher).processes
  (st.rtQUpdated, st.system.setQueue .dispatcher st.newDispatcher)

def iteration (time : ℤ) (a : Abstract) : Abstract :=
  let (rtUpdated, a) := a.updateDispatcher time
  a.doProcessing rtUpdated

def initSystem : Abstract := ⟨fun _ => .empty, DispatcherSystem.initSystem.globals⟩

def loadProcess (pid : ℕ) (args : Args) (a : Abstract) : Abstract :=
  let p := processOf pid args
  { a.setQueue .dispatcher ((a.queue .dispatcher).enqueue pid) with
    globals := { a.globals.setPcb pid p with runtime := updateRuntime a.globals.runtime p } }

def readLines : ℕ → List Args → Abstract → Abstract
  | _, [], a => a
  | pid, args :: lines, a =>
    if pid ≤ MAX_PROCESSES then readLines (pid + 1) lines (loadProcess pid args a) else a

def readFile (lines : List Args) (a : Abstract) : Abstract :=
  readLines 1 lines { a with globals := { a.globals with runtime := 0 } }

def mainLoop (lines : List Args) : ℕ → Abstract
  | 0 => readFile lines initSystem
  | n + 1 => iteration n (mainLoop lines n)

end Abstract

/-- The pointers of the program stand for the queues of the abstract machine, in disjoint
chains, and everything else is the same. -/
def Simulates (s : System) (a : Abstract) : Prop :=
  Models s.heap s.queue a.queue ∧ s.globals = a.globals

lemma priorityQueue_ne_dispatcher (p : ℤ) : priorityQueue p ≠ .dispatcher := by
  unfold priorityQueue
  split_ifs <;> simp

lemma priorityQueue_eq_realTimeQueue {p : ℤ} : priorityQueue p = .realTimeQueue ↔ p = 0 := by
  unfold priorityQueue
  split_ifs <;> simp_all

section Simulation

variable {s : System} {a : Abstract}

lemma Simulates.processes_eq (h : Simulates s a) (name : QueueName) :
    s.processes name = (a.queue name).processes := h.1.processes_eq name

lemma Simulates.setGlobals (h : Simulates s a) {g g' : Globals} (hg : g = g') :
    Simulates { s with globals := g } { a with globals := g' } := ⟨h.1, hg⟩

theorem Simulates.enqueueToPriority (h : Simulates s a) (c : ℕ) :
    ∃ s', enqueueToPriority c s = some s' ∧ Simulates s' (a.enqueueToPriority c) := by
  obtain ⟨hm, hg⟩ := h
  obtain ⟨q, heap, he, hm'⟩ := hm.enqueueOrInit (a.queueOf c) c
  refine ⟨{ s with heap := heap, queue := Function.update s.queue (a.queueOf c) (some q) },
    ?_, hm', hg⟩
  rw [Abstract.queueOf, ← hg] at he ⊢
  simp [DispatcherSystem.enqueueToPriority, he]

theorem Simulates.dispatchFrom (h : Simulates s a) {name : QueueName} (slice : PCB → ℤ)
    (hn : a.queue name ≠ .null) :
    ∃ s', dispatchFrom name slice s = some s' ∧ Simulates s' (a.dispatchFrom name slice) := by
  obtain ⟨hm, hg⟩ := h
  obtain ⟨q, hq⟩ := Option.ne_none_iff_exists'.mp (mt (hm.null_iff name).mp hn)
  rcases hm.head hq with ⟨hs, hc⟩ | ⟨f, c, ps, hs, -, hc⟩
  · exact ⟨s, by simp [DispatcherSystem.dispatchFrom, hq, hc],
      by simpa [Abstract.dispatchFrom, hs] using ⟨hm, hg⟩⟩
  · obtain ⟨b, rest, hb, -, hd, hm'⟩ := hm.dequeueProcess hs
    rw [hq] at hd
    refine ⟨⟨s.heap, Function.update s.queue name rest, s.globals.dispatch c slice⟩,
      by simp [DispatcherSystem.dispatchFrom, hq, hc, hd], ?_⟩
    have ha : a.dispatchFrom name slice =
        ⟨Function.update a.queue name (a.queue name).dequeue, a.globals.dispatch c slice⟩ := by
      simp [Abstract.dispatchFrom, hs, Abstract.setQueue]
    rw [ha, ← hg]
    exact ⟨hm', rfl⟩

lemma Abstract.dispatchFrom_null {name : QueueName} (slice : PCB → ℤ)
    (hn : a.queue name = .null) : a.dispatchFrom name slice = a := by
  simp [Abstract.dispatchFrom, hn]

/-- Only the preemption of a user process relies on the flag: it dereferences the real-time
queue without a test. -/
theorem Simulates.selectProcess (h : Simulates s a) {rtUpdated : Bool}
    (hrt : rtUpdated = true → a.queue .realTimeQueue ≠ .null) :
    ∃ s', selectProcess rtUpdated s = some s' ∧ Simulates s' (a.selectProcess rtUpdated) := by
  have hg := h.2
  have hnull := h.1.null_iff
  unfold DispatcherSystem.selectProcess Abstract.selectProcess
  rw [hg]
  cases hcur : a.globals.currentProcess with
  | some c =>
    by_cases hif : (a.globals.pcb c).priority ≠ 0 ∧ rtUpdated = true
    · simp only [if_pos hif]
      obtain ⟨s₁, h₁, hs₁⟩ :=
        (h.setGlobals (congrArg (Globals.suspend · c) hg)).enqueueToPriority c
      rw [hg] at h₁
      rw [h₁]
      refine hs₁.dispatchFrom _ ?_
      have hne : QueueName.realTimeQueue ≠ priorityQueue (a.globals.pcb c).priority := by
        intro he
        exact hif.1 (priorityQueue_eq_realTimeQueue.mp he.symm)
      simpa [Abstract.enqueueToPriority, Abstract.setQueue, Abstract.queueOf, Globals.suspend,
        Globals.setPcb, Globals.print, Function.update_of_ne hne] using hrt hif.2
    · simp only [if_neg hif]
      exact ⟨s, rfl, h⟩
  | none =>
    have hstep (name : QueueName) (slice : PCB → ℤ) (hn : a.queue name ≠ .null) :=
      h.dispatchFrom slice hn
    cases rtUpdated with
    | true =>
      have hn := hrt rfl
      simpa only [if_true, ne_eq, hnull, hn, not_false_eq_true] using hstep .realTimeQueue _ hn
    | false =>
      simp only [Bool.false_eq_true, if_false, ne_eq, hnull]
      by_cases h₁ : a.queue .p1Queue = .null
      · by_cases h₂ : a.queue .p2Queue = .null
        · by_cases h₃ : a.queue .p3Queue = .null
          · simp only [h₁, h₂, h₃, not_true_eq_false, if_false]
            exact ⟨s, rfl, by rwa [Abstract.dispatchFrom_null _ h₃]⟩
          · simpa only [h₁, h₂, h₃, not_true_eq_false, not_false_eq_true, if_false, if_true] using
              hstep .p3Queue _ h₃
        · simpa only [h₁, h₂, not_true_eq_false, not_false_eq_true, if_false, if_true] using
            hstep .p2Queue _ h₂
      · simpa only [h₁, not_false_eq_true, if_true] using hstep .p1Queue _ h₁

theorem Simulates.runProcess (h : Simulates s a) :
    ∃ s', runProcess s = some s' ∧ Simulates s' a.runProcess := by
  unfold DispatcherSystem.runProcess Abstract.runProcess
  rw [h.2]
  rcases a.globals.quantum with ⟨g, _ | c⟩
  · exact ⟨_, rfl, h.setGlobals rfl⟩
  · exact (h.setGlobals rfl).enqueueToPriority c

theorem Simulates.doProcessing (h : Simulates s a) {rtUpdated : Bool}
    (hrt : rtUpdated = true → a.queue .realTimeQueue ≠ .null) :
    ∃ s', doProcessing rtUpdated s = some s' ∧ Simulates s' (a.doProcessing rtUpdated) := by
  obtain ⟨s₁, h₁, hs₁⟩ := h.selectProcess hrt
  obtain ⟨s₂, h₂, hs₂⟩ := hs₁.runProcess
  exact ⟨s₂, by simp [DispatcherSystem.doProcessing, h₁, h₂], hs₂⟩

end Simulation

/-- The pointers in use inside the loop of `updateDispatcher`: the new dispatcher queue, the
rest of the old one and the other queues. -/
def offerPtr (st : Offering) : Option QueueName → Option ℕ
  | none => some st.newDispatcher
  | some .dispatcher => st.queuePtr
  | some name => st.system.queue name

def offerShape (rest : Shape) (b : Offers) : Option QueueName → Shape
  | none => b.newDispatcher
  | some .dispatcher => rest
  | some name => b.system.queue name

/-- The loop of `updateDispatcher` against the machine, with `rest` still to be offered. -/
def SimulatesOffers (st : Offering) (rest : Shape) (b : Offers) : Prop :=
  Models st.system.heap (offerPtr st) (offerShape rest b) ∧
    st.system.globals = b.system.globals ∧ st.rtQUpdated = b.rtQUpdated ∧ st.broken = false

section Offers

variable {st : Offering} {rest : Shape} {b : Offers}

lemma SimulatesOffers.putBack (h : SimulatesOffers st rest b) (c : ℕ) :
    ∃ st', st.putBack c = some st' ∧ SimulatesOffers st' rest (b.putBack c) := by
  obtain ⟨hm, hg, hrt, hb⟩ := h
  obtain ⟨heap, he, hm'⟩ := hm.enqueueProcess (i := none) (q := st.newDispatcher) rfl c
  refine ⟨{ st with system := { st.system with heap := heap } },
    by simp [Offering.putBack, he], ?_, hg, hrt, hb⟩
  refine hm'.congr (fun o => ?_) fun o => ?_ <;>
    rcases o with _ | (_ | _ | _ | _ | _ | _) <;> rfl

lemma SimulatesOffers.enlist (h : SimulatesOffers st rest b) (c : ℕ) :
    ∃ s', enqueueToPriority c
        { st.system with globals := st.system.globals.print (.initialized c) } = some s' ∧
      SimulatesOffers
        { st with
          rtQUpdated := st.rtQUpdated || (st.system.globals.pcb c).priority = 0
          system := s' } rest (b.enlist c) := by
  obtain ⟨hm, hg, hrt, hb⟩ := h
  set name := priorityQueue (b.system.globals.pcb c).priority with hname
  have hne : name ≠ .dispatcher := priorityQueue_ne_dispatcher _
  obtain ⟨q, heap, he, hm'⟩ := hm.enqueueOrInit (some name) c
  have hptr : offerPtr st (some name) = st.system.queue name := by
    cases hn : name with
    | dispatcher => exact absurd hn hne
    | _ => rfl
  rw [hptr] at he
  refine ⟨⟨heap, Function.update st.system.queue name (some q),
    st.system.globals.print (.initialized c)⟩, ?_, ?_, ?_, ?_, hb⟩
  · simp [DispatcherSystem.enqueueToPriority, hg, Globals.print, ← hname, he]
  · refine hm'.congr (fun o => ?_) fun o => ?_
    · by_cases ho : o = some name
      · subst ho
        cases hn : name with
        | dispatcher => exact absurd hn hne
        | _ => simp [offerPtr]
      · rw [Function.update_of_ne ho]
        rcases o with _ | (_ | _ | _ | _ | _ | _) <;> simp [offerPtr] <;>
          exact Function.update_of_ne (fun he => ho (congrArg some he)) _ _
    · by_cases ho : o = some name
      · subst ho
        cases hn : name with
        | dispatcher => exact absurd hn hne
        | _ => simp [offerShape, Offers.enlist, Abstract.enqueueToPriority, Abstract.setQueue,
            Abstract.queueOf, Globals.print, ← hname, hn]
      · rw [Function.update_of_ne ho]
        rcases o with _ | (_ | _ | _ | _ | _ | _) <;>
          simp [offerShape, Offers.enlist, Abstract.enqueueToPriority, Abstract.setQueue,
            Abstract.queueOf, Globals.print, ← hname] <;>
          exact Function.update_of_ne (fun he => ho (congrArg some he)) _ _
  · exact congrArg (Globals.print · (.initialized c)) hg
  · simp [Offers.enlist, hrt, hg]

theorem SimulatesOffers.offer (h : SimulatesOffers st rest b) {c : ℕ} {cs : List ℕ}
    (hrest : rest.processes = c :: cs) (time : ℤ) :
    ∃ st', offer time st = some st' ∧ SimulatesOffers st' rest.dequeue (b.offer time c) := by
  obtain ⟨f, ps, rfl⟩ : ∃ f ps, rest = .chain f c ps := by
    rcases rest with _ | _ | ⟨f, p, ps⟩
    · cases hrest
    · cases hrest
    · exact ⟨f, ps, by rw [(List.cons.inj hrest).1]⟩
  obtain ⟨hm, hg, hrt, hb⟩ := h
  obtain ⟨node, q, -, hp, hd, hm'⟩ := hm.dequeueProcess (i := some .dispatcher) rfl
  have h₁ : SimulatesOffers { st with queuePtr := q } (Shape.chain f c ps).dequeue b := by
    refine ⟨?_, hg, hrt, hb⟩
    refine hm'.congr (fun o => ?_) fun o => ?_
    · rcases o with _ | (_ | _ | _ | _ | _ | _) <;> simp [offerPtr]
    · rcases o with _ | (_ | _ | _ | _ | _ | _) <;> simp [offerShape]
  have hd' : dequeueProcess st.system.heap st.queuePtr = some (some node, q) := hd
  simp only [DispatcherSystem.offer, hd', Option.bind_eq_bind, Option.bind_some, hp, hg]
  by_cases htime : time ≥ (b.system.globals.pcb c).arrivalTime
  · have h₂ : SimulatesOffers
        { st with
          queuePtr := q
          system := { st.system with globals := (b.system.globals.allocate c).2 } }
        (Shape.chain f c ps).dequeue (b.attempt c) := ⟨h₁.1, rfl, hrt, hb⟩
    by_cases hr : (b.system.globals.allocate c).1 ≠ 0
    · obtain ⟨s', he, hs'⟩ := h₂.enlist c
      simp only at he
      refine ⟨_, by simp only [htime, if_true, hr, ne_eq, not_false_eq_true, he]; rfl, ?_⟩
      simpa only [Offers.offer, htime, if_true, hr, ne_eq, not_false_eq_true] using hs'
    · obtain ⟨st', he, hs'⟩ := h₂.putBack c
      refine ⟨st', by simpa only [htime, if_true, hr, if_false] using he, ?_⟩
      simpa only [Offers.offer, htime, if_true, hr, if_false] using hs'
  · obtain ⟨st', he, hs'⟩ := h₁.putBack c
    refine ⟨st', by simpa only [htime, if_false] using he, ?_⟩
    simpa only [Offers.offer, htime, if_false] using hs'

/-- With nothing left to offer the loop body would dereference a null pointer. -/
lemma SimulatesOffers.offer_eq_none (h : SimulatesOffers st rest b) (hrest : rest.processes = [])
    {time : ℤ} : DispatcherSystem.offer time st = none := by
  cases hq : st.queuePtr with
  | none => simp [DispatcherSystem.offer, hq, dequeueProcess]
  | some q =>
    rcases h.1.head (i := some .dispatcher) hq with ⟨-, hc⟩ | ⟨f, p, ps, hs, -, -⟩
    · simp [DispatcherSystem.offer, hq, dequeueProcess, hc]
    · have hr : rest = .chain f p ps := hs
      simp [hr] at hrest

theorem SimulatesOffers.offers (cs later : List ℕ) (time : ℤ) (h : SimulatesOffers st rest b)
    (hrest : rest.processes = cs ++ later) :
    ∃ st' rest', offers time cs.length st = some st' ∧ rest'.processes = later ∧
      SimulatesOffers st' rest' (cs.foldl (Offers.offer time) b) := by
  induction cs generalizing st rest b with
  | nil => exact ⟨st, rest, rfl, hrest, h⟩
  | cons c cs ih =>
    obtain ⟨st₁, h₁, hs₁⟩ := h.offer hrest time
    obtain ⟨st', rest', h', hl, hs'⟩ := ih hs₁ (Shape.processes_dequeue hrest)
    refine ⟨st', rest', ?_, hl, hs'⟩
    simp [DispatcherSystem.offers, h₁, hs₁.2.2.2, h']

end Offers

section Runs

variable {s : System} {a : Abstract}

lemma Simulates.enterLoop (h : Simulates s a) :
    SimulatesOffers (startOffers s) (a.queue .dispatcher) ⟨.empty, false, a⟩ := by
  obtain ⟨hm, hg⟩ := h
  refine ⟨(hm.extend.initializeQueue none).congr (fun o => ?_) fun o => ?_, hg, rfl, rfl⟩
  · rcases o with _ | (_ | _ | _ | _ | _ | _) <;> simp [offerPtr, startOffers]
  · rcases o with _ | (_ | _ | _ | _ | _ | _) <;> simp [offerShape]

lemma SimulatesOffers.finish {st : Offering} {rest : Shape} {b : Offers}
    (h : SimulatesOffers st rest b) :
    Simulates
      { st.system with
        queue := Function.update st.system.queue .dispatcher (some st.newDispatcher) }
      (b.system.setQueue .dispatcher b.newDispatcher) := by
  obtain ⟨hm, hg, -, -⟩ := h
  let f : QueueName → Option QueueName := fun n => if n = .dispatcher then none else some n
  have hf : Function.Injective f := by
    intro m n
    rcases m with _ | _ | _ | _ | _ | _ <;> rcases n with _ | _ | _ | _ | _ | _ <;> simp [f]
  have hr : Models st.system.heap (fun n => offerPtr st (f n)) fun n => offerShape rest b (f n) :=
    Represents.reindex hm hf
  refine ⟨hr.congr (fun n => ?_) fun n => ?_, hg⟩
  · rcases n with _ | _ | _ | _ | _ | _ <;> simp [f, offerPtr]
  · rcases n with _ | _ | _ | _ | _ | _ <;> simp [f, offerShape, Abstract.setQueue]

lemma Simulates.passes (h : Simulates s a) {q : ℕ} (hq : s.queue .dispatcher = some q) :
    numElems (startOffers s).system.heap (some q) = some (a.queue .dispatcher).fields.length ∧
      (if ((startOffers s).system.heap.cell q).process = none then 0
        else (a.queue .dispatcher).fields.length) = (a.queue .dispatcher).processes.length := by
  obtain ⟨hm, -⟩ := h.enterLoop
  have hcount := hm.numElems_eq (some .dispatcher)
  change numElems (startOffers s).system.heap (s.queue .dispatcher) = _ at hcount
  rw [hq] at hcount
  refine ⟨hcount, ?_⟩
  rcases hm.head (i := some .dispatcher) hq with ⟨hs, hc⟩ | ⟨f, p, ps, hs, -, hc⟩
  · have hs' : a.queue .dispatcher = .empty := hs
    simp [hc, hs']
  · have hs' : a.queue .dispatcher = .chain f p ps := hs
    simp [hc, hs']

theorem Simulates.updateDispatcher (h : Simulates s a) (hd : a.queue .dispatcher ≠ .null)
    (time : ℤ) :
    ∃ s', updateDispatcher time s = some ((a.updateDispatcher time).1, s') ∧
      Simulates s' (a.updateDispatcher time).2 := by
  have hstart := h.enterLoop
  obtain ⟨q, hq⟩ := Option.ne_none_iff_exists'.mp (mt (h.1.null_iff .dispatcher).mp hd)
  have hq' : (startOffers s).queuePtr = some q := hq
  obtain ⟨st', rest', hoff, -, hsim⟩ := hstart.offers _ [] time (List.append_nil _).symm
  obtain ⟨hcount, hiter⟩ := h.passes hq
  refine ⟨_, ?_, hsim.finish⟩
  have hflag : st'.rtQUpdated = (a.updateDispatcher time).1 := hsim.2.2.1
  simp only [DispatcherSystem.updateDispatcher, hq', Option.bind_eq_bind, hcount,
    Option.bind_some, hiter, hoff, hsim.2.2.2, hflag]
  rfl

end Runs

end Eece315.DispatcherAbstract
