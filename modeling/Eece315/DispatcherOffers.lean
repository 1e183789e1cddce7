import Eece315.Sieve
import Eece315.DispatcherReachable

/-! What one call of `updateDispatcher` does. It sieves the dispatcher queue: the processes that
have arrived are offered to the allocator one after the other, those that get their resources
are handed to `enqueueToPriority`, and the others stay in the dispatcher queue. -/
namespace Eece315.DispatcherOffers
open HeapChain DispatcherQueue DispatcherResources DispatcherSystem DispatcherAbstract
open DispatcherOwnership DispatcherReachable Sieve

/-- The test that a process in the dispatcher queue is put to: it has arrived, and its resources
can be allocated on the host as it then is. -/
def admits (time : ℤ) (g : Globals) (c : ℕ) : Bool × Globals :=
  if (g.pcb c).arrivalTime ≤ time then
    let (allocResult, g) := g.allocate c
    if allocResult ≠ 0 then (true, g.print (.initialized c)) else (false, g)
  else (false, g)

def admissions (time : ℤ) (s : System) : Sieved Globals ℕ :=
  sieve (admits time) s.globals (s.processes .dispatcher)

/-- The call of `updateDispatcher` in state `s` that answers `rt` and leads to `s'` parts the
dispatcher queue and keeps its order. -/
structure StablePartition (time : ℤ) (s : System) (rt : Bool) (s' : System) : Prop where
  /-- a process is admitted when the allocator succeeds on the host that the offers before left -/
  admitted : ∀ done c later, s.processes .dispatcher = done ++ c :: later →
    (c ∈ (admissions time s).taken ↔ (s.globals.pcb c).arrivalTime ≤ time ∧
      ((sieve (admits time) s.globals done).state.allocate c).1 ≠ 0)
  globals : s'.globals = (admissions time s).state
  order : (admissions time s).taken.Sublist (s.processes .dispatcher)
  dispatcher : s'.processes .dispatcher =
    (s.processes .dispatcher).filter (· ∉ (admissions time s).taken)
  reported : s'.globals.out = s.globals.out ++ (admissions time s).taken.map .initialized
  /-- every queue is enqueued to once for each admitted process of its priority -/
  handed : ∀ a, Simulates s a → ∃ a', Simulates s' a' ∧ ∀ name ≠ .dispatcher,
    a'.queue name = ((admissions time s).taken.filter fun c => a.queueOf c = name).foldl
      Shape.enqueue (a.queue name)
  currentProcess : s'.globals.currentProcess = s.globals.currentProcess
  result : rt = true ↔ ∃ c ∈ (admissions time s).taken, (s.globals.pcb c).priority = 0

section Shapes

lemma processes_foldl_enqueue {s : Shape} (h : s.overwritten = none) (cs : List ℕ) :
    (cs.foldl Shape.enqueue s).processes = s.processes ++ cs := by
  induction cs generalizing s with
  | nil => simp
  | cons c cs ih =>
    rw [List.foldl_cons, ih (s.overwritten_enqueue c), s.processes_enqueue c h]
    simp

end Shapes

section Offers

variable {time : ℤ} {a : Abstract}

lemma admits_pcb (time : ℤ) (g : Globals) (c d : ℕ) :
    (((admits time g c).2.pcb d).priority = (g.pcb d).priority ∧
      ((admits time g c).2.pcb d).arrivalTime = (g.pcb d).arrivalTime) ∧
      (admits time g c).2.currentProcess = g.currentProcess := by
  have harrival : ((g.allocate c).2.pcb d).arrivalTime = (g.pcb d).arrivalTime := by
    by_cases hd : d = c
    · subst hd
      rw [allocate_pcb_self]
      rfl
    · rw [allocate_pcb_of_ne g hd]
  have hpriority := allocate_priority g c d
  rw [admits]
  split_ifs
  · dsimp only
    split_ifs <;> exact ⟨⟨hpriority, harrival⟩, rfl⟩
  · exact ⟨⟨rfl, rfl⟩, rfl⟩

lemma sieve_pcb (time : ℤ) (g : Globals) (cs : List ℕ) (d : ℕ) :
    ((((sieve (admits time) g cs).state.pcb d).priority = (g.pcb d).priority) ∧
      (((sieve (admits time) g cs).state.pcb d).arrivalTime = (g.pcb d).arrivalTime)) ∧
      (sieve (admits time) g cs).state.currentProcess = g.currentProcess := by
  induction cs generalizing g with
  | nil => exact ⟨⟨rfl, rfl⟩, rfl⟩
  | cons c cs ih =>
    obtain ⟨⟨hp, ha⟩, hc⟩ := ih (admits time g c).2
    obtain ⟨⟨hp', ha'⟩, hc'⟩ := admits_pcb time g c d
    rw [sieve_cons]
    split_ifs <;> exact ⟨⟨hp.trans hp', ha.trans ha'⟩, hc.trans hc'⟩

lemma admits_iff (time : ℤ) (g : Globals) (c : ℕ) :
    (admits time g c).1 = true ↔ (g.pcb c).arrivalTime ≤ time ∧ (g.allocate c).1 ≠ 0 := by
  rw [admits]
  split_ifs with ht
  · dsimp only
    split_ifs with hr <;> simp [ht, hr]
  · simp [ht]

structure OffersSieved (a : Abstract) (st : Offers) (r : Sieved Globals ℕ) : Prop where
  globals : st.system.globals = r.state
  newDispatcher : st.newDispatcher = r.left.foldl Shape.enqueue .empty
  rtQUpdated : st.rtQUpdated = r.taken.any fun c => (a.globals.pcb c).priority = 0
  queue : ∀ name, st.system.queue name =
    (r.taken.filter fun c => a.queueOf c = name).foldl Shape.enqueue (a.queue name)
  out : r.state.out = a.globals.out ++ r.taken.map .initialized

lemma OffersSieved.putBack {st : Offers} {r : Sieved Globals ℕ} (h : OffersSieved a st r) {c : ℕ}
    {g : Globals} (hout : g.out = st.system.globals.out) :
    OffersSieved a (Offers.putBack { st with system := { st.system with globals := g } } c)
      ⟨r.taken, r.left ++ [c], g⟩ := by
  refine ⟨rfl, ?_, h.rtQUpdated, h.queue, ?_⟩
  · rw [List.foldl_append, ← h.newDispatcher]
    rfl
  · rw [← h.out, ← h.globals]
    exact hout

lemma OffersSieved.enlist {st : Offers} {r : Sieved Globals ℕ} (h : OffersSieved a st r) {c : ℕ}
    {g : Globals} (hout : g.out = st.system.globals.out)
    (hpriority : (g.pcb c).priority = (a.globals.pcb c).priority) :
    OffersSieved a (Offers.enlist { st with system := { st.system with globals := g } } c)
      ⟨r.taken ++ [c], r.left, g.print (.initialized c)⟩ := by
  refine ⟨rfl, h.newDispatcher, ?_, fun name => ?_, ?_⟩
  · simp [Offers.enlist, h.rtQUpdated, hpriority]
  · set b : Abstract := { st.system with globals := g.print (.initialized c) } with hb
    have hq : b.queueOf c = a.queueOf c := congrArg priorityQueue hpriority
    change (b.enqueueToPriority c).queue name = _
    rw [List.filter_append, List.foldl_append, ← h.queue name]
    by_cases hname : a.queueOf c = name
    · rw [← hname, ← hq, Abstract.enqueueToPriority_queue, hq]
      simp [hb]
    · rw [Abstract.enqueueToPriority_of_ne fun he => hname (hq.symm.trans he.symm)]
      simp [hb, hname]
  · rw [List.map_append, ← List.append_assoc, ← h.out, ← h.globals, ← hout]
    rfl

theorem offers_sieved (time : ℤ) (done : List ℕ) (a : Abstract) :
    OffersSieved a (a.offers time done) (sieve (admits time) a.globals done) := by
  induction done using List.reverseRecOn with
  | nil => exact ⟨rfl, rfl, rfl, fun _ => rfl, by simp⟩
  | append_singleton done c ih =>
    set st := a.offers time done with hst
    have hstep : a.offers time (done ++ [c]) = st.offer time c := by
      simp [hst, Abstract.offers]
    have hpriority : (st.system.globals.pcb c).priority = (a.globals.pcb c).priority := by
      rw [ih.globals]
      exact (sieve_pcb time a.globals done c).1.1
    have hadmits := admits_iff time st.system.globals c
    rw [hstep]
    rcases st.offer_cases time c with ⟨ha, he⟩ | ⟨ha, ht, he⟩ | ⟨ha, ht, he⟩ <;> rw [he]
    · have htaken := hadmits.mpr ha
      have hg : (admits time st.system.globals c).2 =
          (st.system.globals.allocate c).2.print (.initialized c) := by
        rw [admits, if_pos ha.1]
        exact congrArg Prod.snd (if_pos ha.2)
      rw [ih.globals] at htaken
      rw [sieve_append_of_taken htaken, ← ih.globals, hg]
      exact ih.enlist rfl ((allocate_priority _ c c).trans hpriority)
    · have hleft : (admits time st.system.globals c).1 = false :=
        Bool.eq_false_iff.mpr fun h => ha (hadmits.mp h)
      have hg : (admits time st.system.globals c).2 = (st.system.globals.allocate c).2 := by
        rw [admits, if_pos ht]
        exact congrArg Prod.snd (if_neg fun hr => ha ⟨ht, hr⟩)
      rw [ih.globals] at hleft
      rw [sieve_append_of_left hleft, ← ih.globals, hg]
      exact ih.putBack rfl
    · have hleft : (admits time st.system.globals c).1 = false :=
        Bool.eq_false_iff.mpr fun h => ha (hadmits.mp h)
      have hg : (admits time st.system.globals c).2 = st.system.globals := by
        rw [admits, if_neg (not_le.mpr ht)]
      rw [ih.globals] at hleft
      rw [sieve_append_of_left hleft, ← ih.globals, hg]
      exact ih.putBack rfl

end Offers

section Update

variable {lines : List Args} {s : System}

lemma InLoop.dispatcher (h : InLoop lines s) : s.queue .dispatcher ≠ none := by
  cases h with
  | @head n s hs =>
    obtain ⟨hsim, hd⟩ := simulates_of_mainLoop hs
    exact mt (hsim.1.null_iff .dispatcher).mp hd
  | @updated n rt s hs =>
    obtain ⟨a, hsim, rfl, -⟩ := hs.simulates
    exact mt (hsim.1.null_iff .dispatcher).mp (updateDispatcher_dispatcher n _)

lemma handed_queue {a : Abstract} {time : ℤ} {s' : System}
    (hs' : Simulates s' (a.updateDispatcher time).2) (hs : Simulates s a) :
    ∃ a', Simulates s' a' ∧ ∀ name ≠ .dispatcher, a'.queue name =
      ((admissions time s).taken.filter fun c => a.queueOf c = name).foldl
        Shape.enqueue (a.queue name) := by
  refine ⟨_, hs', fun name hname => ?_⟩
  rw [Abstract.updateDispatcher, Abstract.setQueue_of_ne _ _ hname, admissions, hs.2,
    hs.processes_eq]
  exact (offers_sieved time _ a).queue name

/-- In every state of the loop of `main` and at any time `updateDispatcher` parts the dispatcher
queue into the processes admitted and those that stay, each in their order. -/
theorem updateDispatcher_stablePartition (h : InLoop lines s) (time : ℤ) :
    ∃ rt s', updateDispatcher time s = some (rt, s') ∧ StablePartition time s rt s' := by
  obtain ⟨a, hs, hn, -⟩ := h.simulates
  have hnull {b : Abstract} (hb : Simulates s b) : b.queue .dispatcher ≠ .null :=
    mt (hb.1.null_iff .dispatcher).mpr (InLoop.dispatcher h)
  obtain ⟨s', hu, hs'⟩ := hs.updateDispatcher (hnull hs) time
  have hnodup := nodup_dispatcher hn
  have hp := hs.processes_eq .dispatcher
  have hsieved := offers_sieved time (a.queue .dispatcher).processes a
  have hadm : admissions time s =
      sieve (admits time) a.globals (a.queue .dispatcher).processes := by
    rw [admissions, hs.2, hp]
  have hglobals : s'.globals = (admissions time s).state := by
    rw [hs'.2, hadm, ← hsieved.globals]
    rfl
  refine ⟨_, s', hu, fun done c later hd => ?_, hglobals, taken_sublist _ _ _, ?_, ?_,
    fun b hb => ?_, ?_, ?_⟩
  · rw [hp] at hd
    rw [hadm, hd, mem_taken_iff (hd ▸ hnodup), admits_iff, hs.2,
      (sieve_pcb time a.globals done c).1.2]
  · have hleft : s'.processes .dispatcher = (admissions time s).left := by
      rw [hs'.processes_eq, hadm, Abstract.updateDispatcher, Abstract.setQueue_self,
        hsieved.newDispatcher, processes_foldl_enqueue rfl, Shape.processes_empty,
        List.nil_append]
    rw [hleft, admissions, left_eq_filter (hp ▸ hnodup)]
  · rw [hglobals, hs.2, hadm]
    exact hsieved.out
  · obtain ⟨t, ht, hst⟩ := hb.updateDispatcher (hnull hb) time
    have hsame : s' = t := congrArg Prod.snd (Option.some.inj (hu.symm.trans ht))
    exact handed_queue (hsame ▸ hst) hb
  · rw [hglobals, admissions]
    exact (sieve_pcb time s.globals _ 0).2
  · rw [hadm, hs.2]
    change (a.offers time _).rtQUpdated = true ↔ _
    rw [hsieved.rtQUpdated]
    simp

/-- A real-time process, one that asks for too many printers and one that has not arrived. -/
theorem updateDispatcher_stablePartition_demo : ∃ s rt s',
    InLoop [![0, 0, 1, 0, 0, 0, 0, 0], ![0, 1, 1, 0, 3, 0, 0, 0], ![2, 1, 1, 0, 0, 0, 0, 0]] s ∧
      updateDispatcher 0 s = some (rt, s') ∧ StablePartition 0 s rt s' := by
  obtain ⟨s, hs, -, -⟩ := simulates_mainLoop
    [![0, 0, 1, 0, 0, 0, 0, 0], ![0, 1, 1, 0, 3, 0, 0, 0], ![2, 1, 1, 0, 0, 0, 0, 0]] 0
  obtain ⟨rt, s', hu, hp⟩ := updateDispatcher_stablePartition (.head hs) 0
  exact ⟨s, rt, s', .head hs, hu, hp⟩

end Update

end Eece315.DispatcherOffers
