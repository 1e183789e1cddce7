import Eece315.DispatcherFirstFit
import Eece315.DispatcherMemory
import Eece315.DispatcherOffers

/-! Taking back an allocation. In whatever state a process waits for resources, no cell carries
its pid, and giving back what it has just been granted restores the host; a failed attempt does
as well, unless a handle of an earlier attempt names a cell that is in use. -/
namespace Eece315.DispatcherRollback
open SegmentTable HeapChain DispatcherQueue DispatcherResources DispatcherSystem
open DispatcherAbstract DispatcherOwnership DispatcherGlobals DispatcherOffers Sieve

/-- In some state of a run, with globals `g`, process `c` waits in the dispatcher queue. In the
loop of `updateDispatcher` this is what is left of the old queue, and the new one. -/
inductive Waiting (lines : List Args) : Globals → ℕ → Prop
  | head {n c : ℕ} {s : System} (hs : mainLoop lines n = some s)
      (hc : c ∈ s.processes .dispatcher) : Waiting lines s.globals c
  | offering {n c : ℕ} {s : System} {st : Offering} (hs : mainLoop lines n = some s)
      (loop : LoopState n s st) (hc : c ∈ processes st.system.heap st.queuePtr ∨
        c ∈ processes st.system.heap (some st.newDispatcher)) : Waiting lines st.system.globals c
  | call {n c : ℕ} {rt : Bool} {s : System} (hs : Call lines n rt s)
      (hc : c ∈ s.processes .dispatcher) : Waiting lines s.globals c

/-- If the allocation for `c` fails, it leaves the five tables as they were. -/
def RollsBack (g : Globals) (c : ℕ) : Prop :=
  (g.allocate c).1 = 0 → (g.allocate c).2.host = g.host

/-- PCBs and labels fit together: a label is the pid of a process that has been initialized,
whether or not its cell has been cleared by others since. -/
structure Labelled (lines : List Args) (g : Globals) : Prop where
  pid : ∀ c ∈ loaded lines, (g.pcb c).pid = c
  /-- what is not asked for is never granted -/
  unasked : ∀ c ∈ loaded lines, ∀ k, ((g.pcb c).io k).needed = 0 →
    ((g.pcb c).io k).startID = -1 ∧ ((g.pcb c).io k).held = 0
  label : ∀ k (i : ℕ) v, (g.host.alloc k)[i]? = some v → v ≠ 0 →
    ∃ d ∈ loaded lines, v = d ∧ .initialized d ∈ g.out

section Steps

variable {lines : List Args} {g g' : Globals} {c d : ℕ} {k : Resource}

lemma Labelled.congr (h : Labelled lines g)
    (hpcb : ∀ d, (g'.pcb d).pid = (g.pcb d).pid ∧ (g'.pcb d).io = (g.pcb d).io)
    (hhost : ∀ k (i : ℕ) v, v ≠ 0 → (g'.host.alloc k)[i]? = some v →
      (g.host.alloc k)[i]? = some v)
    (hout : ∀ d, Event.initialized d ∈ g.out → .initialized d ∈ g'.out) : Labelled lines g' := by
  refine ⟨fun d hd => ?_, fun d hd k => ?_, fun k i v hi hv => ?_⟩
  · rw [(hpcb d).1]
    exact h.pid d hd
  · rw [(hpcb d).2]
    exact h.unasked d hd k
  · obtain ⟨d, hd, hvd, hinit⟩ := h.label k i v (hhost k i v hv hi) hv
    exact ⟨d, hd, hvd, hout d hinit⟩

lemma Labelled.admits (h : Labelled lines g) (hc : c ∈ loaded lines) (time : ℤ) :
    Labelled lines (admits time g c).2 := by
  have hpid (d : ℕ) (hd : d ∈ loaded lines) : ((g.allocate c).2.pcb d).pid = d :=
    (allocate_pid g c d).trans (h.pid d hd)
  rw [DispatcherOffers.admits]
  split_ifs with ht
  · dsimp only
    split_ifs with hr
    · have hf := (allocateResources_ne_zero _ _).mp hr
      refine ⟨hpid, fun d hd => allocate_unasked (h.unasked d hd), fun k i v hi hv => ?_⟩
      change ((g.allocate c).2.host.alloc k)[i]? = some v at hi
      rw [allocate_fits hf] at hi
      rcases label_of_attemptCells hi with hi | ⟨hvc, -⟩
      · obtain ⟨d, hd, hvd, hinit⟩ := h.label k i v hi hv
        exact ⟨d, hd, hvd, List.mem_append_left _ hinit⟩
      · refine ⟨c, hc, by rw [hvc, h.pid c hc], ?_⟩
        exact List.mem_append_right _ (List.mem_singleton_self _)
    · have hf : ¬ ∀ k, Fits (g.pcb c) g.host k := fun hf =>
        hr ((allocateResources_ne_zero _ _).mpr hf)
      refine ⟨hpid, fun d hd => allocate_unasked (h.unasked d hd), fun k i v hi hv => ?_⟩
      rw [allocate_fails hf, failed_cells] at hi
      split_ifs at hi
      · exact h.label k i v hi hv
      · exact h.label k i v (label_of_freedCells hv hi) hv
  · exact h

lemma Labelled.sieve {cs : List ℕ} (h : Labelled lines g) (hcs : ∀ c ∈ cs, c ∈ loaded lines)
    (time : ℤ) : Labelled lines (sieve (DispatcherOffers.admits time) g cs).state := by
  induction cs generalizing g with
  | nil => exact h
  | cons c cs ih =>
    have hrest := ih (h.admits (hcs c List.mem_cons_self) time)
      fun d hd => hcs d (List.mem_cons_of_mem c hd)
    rw [sieve_cons]
    split_ifs <;> exact hrest

lemma labelled_keptBySelect (lines : List Args) : KeptBySelect (Labelled lines) := by
  refine ⟨fun g h c => ?_, fun g h c slice => ?_⟩
  · have hset : ∀ d, ((g.suspend c).pcb d).pid = (g.pcb d).pid ∧
        ((g.suspend c).pcb d).io = (g.pcb d).io :=
      setPcb_related (R := fun p q => q.pid = p.pid ∧ q.io = p.io) (fun _ => ⟨rfl, rfl⟩)
        (p := { g.pcb c with state := .suspended }) ⟨rfl, rfl⟩
    exact h.congr hset (fun _ _ _ _ hi => hi) fun d hd => List.mem_append_left _ hd
  · have hset : ∀ d, ((g.dispatch c slice).pcb d).pid = (g.pcb d).pid ∧
        ((g.dispatch c slice).pcb d).io = (g.pcb d).io :=
      setPcb_related (R := fun p q => q.pid = p.pid ∧ q.io = p.io) (fun _ => ⟨rfl, rfl⟩)
        (p := { g.pcb c with timeSpliceLeft := slice (g.pcb c) }) ⟨rfl, rfl⟩
    exact h.congr hset (fun _ _ _ _ hi => hi) fun d hd => hd

lemma Labelled.quantum (h : Labelled lines g) : Labelled lines g.quantum.1 := by
  refine h.congr (fun d => ?_) (fun k i v hv hi => ?_) fun d hd => quantum_out g hd
  · have hsame := DispatcherMemory.sameRecord_quantum g d
    exact ⟨hsame.pid, hsame.io⟩
  · rcases DispatcherMemory.quantum_host g k with hhost | ⟨c, hhost⟩
    · rwa [hhost] at hi
    · rw [hhost] at hi
      exact label_of_freedCells hv hi

lemma initialized_doProcessing {a : Abstract} (rt : Bool) (c : ℕ)
    (h : .initialized c ∉ a.globals.out) : .initialized c ∉ (a.doProcessing rt).globals.out := by
  have hk : KeptBySelect fun g => Event.initialized c ∉ g.out := by
    refine ⟨fun g hg d => ?_, fun g hg d slice => hg⟩
    simpa [Globals.suspend, Globals.setPcb, Globals.print] using hg
  have hsel := hk.selectProcess h rt
  rw [Abstract.doProcessing, runProcess_globals]
  unfold Globals.quantum
  cases (a.selectProcess rt).globals.currentProcess with
  | none => exact hsel
  | some d =>
    simp only []
    split_ifs <;> simpa [Globals.terminate, Globals.setPcb, Globals.print] using hsel

end Steps

section Runs

variable {lines : List Args} {g : Globals} {c n : ℕ}

/-- No process in the dispatcher queue has been initialized. -/
def Fresh (a : Abstract) : Prop :=
  ∀ c ∈ (a.queue .dispatcher).processes, .initialized c ∉ a.globals.out

lemma fresh_offers {a : Abstract} (hf : Fresh a) (hn : (a.queue .dispatcher).processes.Nodup)
    (time : ℤ) {done later : List ℕ} (hd : (a.queue .dispatcher).processes = done ++ later) {c : ℕ}
    (hc : c ∈ later ∨ c ∈ (a.offers time done).newDispatcher.processes) :
    c ∈ (a.queue .dispatcher).processes ∧
      .initialized c ∉ (a.offers time done).system.globals.out := by
  have hsieved := offers_sieved time done a
  rw [hsieved.newDispatcher, processes_foldl_enqueue rfl, Shape.processes_empty,
    List.nil_append] at hc
  rw [hsieved.globals, hsieved.out, hd]
  rw [hd] at hn
  have hmem : c ∈ done ++ later ∧ c ∉ (sieve (admits time) a.globals done).taken := by
    rcases hc with hc | hc
    · refine ⟨List.mem_append_right _ hc, fun ht => ?_⟩
      have hdone := (taken_sublist (admits time) a.globals done).subset ht
      exact (List.nodup_append.mp hn).2.2 c hdone c hc rfl
    · have hdone := (left_sublist (admits time) a.globals done).subset hc
      exact ⟨List.mem_append_left _ hdone,
        fun ht => notMem_left_of_taken (List.nodup_append.mp hn).1 ht hc⟩
  refine ⟨hmem.1, ?_⟩
  have hout := hf c (hd ▸ hmem.1)
  simp [hout, hmem.2]

lemma fresh_updateDispatcher {a : Abstract} (hf : Fresh a)
    (hn : (a.queue .dispatcher).processes.Nodup) (time : ℤ) :
    Fresh (a.updateDispatcher time).2 := by
  intro c hc
  rw [Abstract.updateDispatcher, Abstract.setQueue_self] at hc
  exact (fresh_offers hf hn time (List.append_nil _).symm (.inr hc)).2

theorem fresh_mainLoop (lines : List Args) (n : ℕ) : Fresh (Abstract.mainLoop lines n) := by
  induction n with
  | zero =>
    intro c _
    rw [mainLoop_zero_globals]
    exact List.not_mem_nil
  | succ n ih =>
    have hupdate := fresh_updateDispatcher ih (nodup_dispatcher (nodup_mainLoop lines n)) n
    intro c hc
    rw [Abstract.mainLoop, Abstract.iteration] at hc ⊢
    rw [Abstract.doProcessing_frame fun p => (priorityQueue_ne_dispatcher p).symm] at hc
    exact initialized_doProcessing _ c (hupdate c hc)

lemma labelled_offers {a : Abstract} (h : Labelled lines a.globals) (time : ℤ) {done : List ℕ}
    (hd : ∀ c ∈ done, c ∈ loaded lines) :
    Labelled lines (a.offers time done).system.globals := by
  rw [(offers_sieved time done a).globals]
  exact h.sieve hd time

lemma labelled_zero (lines : List Args) :
    Labelled lines (Abstract.mainLoop lines 0).globals := by
  refine ⟨fun c hc => ?_, fun c hc k _ => ?_, fun k i v hi hv => ?_⟩
  · rw [loaded_pcb hc]
    rfl
  · rw [loaded_pcb hc]
    cases k <;> exact ⟨rfl, rfl⟩
  · refine absurd ?_ hv
    rw [mainLoop_zero_globals] at hi
    have hzero : ∀ x ∈ DispatcherSystem.initSystem.globals.host.alloc k, x = 0 := by
      cases k <;> exact fun x hx => (List.mem_replicate.mp hx).2
    exact hzero v (List.mem_of_getElem? hi)

theorem labelled_mainLoop (lines : List Args) (n : ℕ) :
    Labelled lines (Abstract.mainLoop lines n).globals := by
  induction n with
  | zero => exact labelled_zero lines
  | succ n ih =>
    have hupdate : Labelled lines ((Abstract.mainLoop lines n).updateDispatcher n).2.globals :=
      labelled_offers ih n fun c hc => mem_loaded hc
    have hstep : Abstract.mainLoop lines (n + 1) =
        ((Abstract.mainLoop lines n).updateDispatcher n).2.doProcessing
          ((Abstract.mainLoop lines n).updateDispatcher n).1 := rfl
    rw [hstep, Abstract.doProcessing, runProcess_globals]
    exact ((labelled_keptBySelect lines).selectProcess hupdate _).quantum

theorem Waiting.spec (h : Waiting lines g c) :
    Labelled lines g ∧ c ∈ loaded lines ∧ .initialized c ∉ g.out := by
  cases h with
  | @head n c s hs hc =>
    obtain ⟨hsim, -⟩ := simulates_of_mainLoop hs
    rw [hsim.processes_eq] at hc
    rw [hsim.2]
    exact ⟨labelled_mainLoop lines n, mem_loaded hc, fresh_mainLoop lines n c hc⟩
  | @offering n c s st hs loop hc =>
    obtain ⟨hsim, -⟩ := simulates_of_mainLoop hs
    obtain ⟨done, later, rest, hd, hl, hoff⟩ := LoopState.simulates hsim loop
    have hold : processes st.system.heap st.queuePtr = rest.processes :=
      hoff.1.processes_eq (some .dispatcher)
    have hnew : processes st.system.heap (some st.newDispatcher) =
        ((Abstract.mainLoop lines n).offers n done).newDispatcher.processes :=
      hoff.1.processes_eq none
    rw [hold, hl, hnew] at hc
    obtain ⟨hmem, hfresh⟩ := fresh_offers (fresh_mainLoop lines n)
      (nodup_dispatcher (nodup_mainLoop lines n)) n hd hc
    rw [hoff.2.1]
    refine ⟨labelled_offers (labelled_mainLoop lines n) n fun d hdone => ?_, mem_loaded hmem,
      hfresh⟩
    have hdisp : d ∈ ((Abstract.mainLoop lines n).queue .dispatcher).processes :=
      hd ▸ List.mem_append_left _ hdone
    exact mem_loaded hdisp
  | @call n c rt s hs hc =>
    obtain ⟨a, hsim, rfl, -⟩ := hs.simulates
    rw [hsim.processes_eq] at hc
    have hfresh := fresh_updateDispatcher (fresh_mainLoop lines n)
      (nodup_dispatcher (nodup_mainLoop lines n)) n c hc
    have hle := (Abstract.ledger_updateDispatcher_le n (Abstract.mainLoop lines n)).trans
      (ledger_mainLoop_le lines n)
    rw [hsim.2]
    exact ⟨labelled_offers (labelled_mainLoop lines n) n fun d hd => mem_loaded hd,
      mem_of_ledger hle hc, hfresh⟩

lemma Attempt.waiting {N : ℕ} (h : Attempt lines N g c) : Waiting lines g c := by
  obtain ⟨n, -, s, st, hs, loop, hnext, -, rfl⟩ := h
  exact .offering hs loop (.inl (List.mem_of_head? hnext))

end Runs

section Failure

variable {lines : List Args} {g : Globals} {c : ℕ}

lemma not_rollsBack (h : Clobbers g c) : ¬ RollsBack g c := by
  obtain ⟨k, hfit, hs, i, v, hi, hi', hv, hne⟩ := h
  have hf : ¬ ∀ k, Fits (g.pcb c) g.host k := fun hf => hfit (hf k)
  have hzero : (g.allocate c).1 = 0 := by
    by_contra hr
    exact hf ((allocateResources_ne_zero _ _).mp hr)
  have hneed : ((g.pcb c).io k).needed ≠ 0 := fun hz => hfit (.inl hz)
  intro hback
  have hcell := congrArg (fun host : Host => (host.alloc k)[i]?) (hback hzero)
  simp only [allocate_fails hf, failed_cells] at hcell
  rw [if_neg (mt (renews_iff hneed).mp hfit), freedCells, if_pos hs, getElem?_fill,
    if_pos ⟨hi, hi'⟩, hv, Option.map_some] at hcell
  exact hne (Option.some.inj hcell).symm

/-- The allocation for a process that waits, if it fails, changes nothing on the host exactly
when it clobbers no cell. -/
theorem rollsBack_iff (h : Waiting lines g c) : RollsBack g c ↔ ¬ Clobbers g c := by
  obtain ⟨hl, hc, -⟩ := h.spec
  constructor
  · intro hback hclob
    exact not_rollsBack hclob hback
  · intro hclob hzero
    have hf : ¬ ∀ k, Fits (g.pcb c) g.host k := fun hf =>
      (allocateResources_ne_zero _ _).mpr hf hzero
    exact failed_host hf (hl.unasked c hc) hclob

/-- A process that asks for too many printers, before its first attempt. -/
theorem rollsBack_iff_demo : ∃ g, Waiting [![0, 1, 1, 0, 3, 0, 0, 0]] g 1 ∧
    (RollsBack g 1 ↔ ¬ Clobbers g 1) := by
  obtain ⟨s, hs, hsim, -⟩ := simulates_mainLoop [![0, 1, 1, 0, 3, 0, 0, 0]] 0
  have hw : Waiting [![0, 1, 1, 0, 3, 0, 0, 0]] s.globals 1 := by
    apply Waiting.head hs
    rw [hsim.processes_eq]
    decide
  exact ⟨_, hw, rollsBack_iff hw⟩

/-- The first attempt of process 2 finds a printer but no scanner. Process 3 gets both printers,
and the next attempt of process 2 fails again and clears the first of them. -/
theorem rollsBack_fails : ¬ ∀ lines g c, Waiting lines g c → RollsBack g c := by
  intro h
  let lines : List Args :=
    [![0, 1, 9, 0, 0, 1, 0, 0], ![0, 1, 9, 0, 1, 1, 0, 0], ![0, 1, 9, 0, 2, 0, 0, 0]]
  have hrun : (mainLoop lines 1).map (fun s =>
      decide (2 ∈ s.processes .dispatcher ∧ (s.globals.allocate 2).1 = 0 ∧
        ((s.globals.allocate 2).2.host.alloc .printers)[0]? = some 0 ∧
        (s.globals.host.alloc .printers)[0]? = some 3)) = some true := by decide +kernel
  obtain ⟨s, hs, hd⟩ := Option.map_eq_some_iff.mp hrun
  obtain ⟨hmem, hzero, hafter, hbefore⟩ := of_decide_eq_true hd
  have hsame := h lines s.globals 2 (.head hs hmem) hzero
  rw [hsame, hbefore] at hafter
  cases hafter

end Failure

section Success

variable {lines : List Args} {g : Globals} {c : ℕ}

/-- Giving back all that a successful allocation has granted restores the host. -/
theorem freeHostResources_allocate (h : Waiting lines g c) (hs : (g.allocate c).1 ≠ 0) :
    freeHostResources ((g.allocate c).2.pcb c) (g.allocate c).2.host = g.host := by
  obtain ⟨hl, hc, -⟩ := h.spec
  have hf := (allocateResources_ne_zero _ _).mp hs
  rw [allocate_pcb_self, allocate_fits hf]
  apply Host.ext
  intro k
  rw [failed_cells]
  split_ifs with hr
  · rfl
  · -- a kind that fits and was not renewed is one that was not asked for
    have hneed : ((g.pcb c).io k).needed = 0 := by
      by_contra hn
      exact hr ((renews_iff hn).mpr (hf k))
    rw [freedCells, if_neg (not_not.mpr (hl.unasked c hc k hneed).1)]

theorem freeHostResources_allocate_demo : ∃ g, Waiting [![0, 1, 1, 32, 1, 0, 0, 2]] g 1 ∧
    (g.allocate 1).1 ≠ 0 ∧
      freeHostResources ((g.allocate 1).2.pcb 1) (g.allocate 1).2.host = g.host := by
  have hrun : (mainLoop [![0, 1, 1, 32, 1, 0, 0, 2]] 0).map (fun s =>
      decide (1 ∈ s.processes .dispatcher ∧ (s.globals.allocate 1).1 ≠ 0)) = some true := by
    decide +kernel
  obtain ⟨s, hs, hd⟩ := Option.map_eq_some_iff.mp hrun
  obtain ⟨hmem, hne⟩ := of_decide_eq_true hd
  exact ⟨_, .head hs hmem, hne, freeHostResources_allocate (.head hs hmem) hne⟩

end Success

section Labels

variable {lines : List Args} {g : Globals} {c : ℕ}

lemma Waiting.unlabelled (h : Waiting lines g c) (k : Resource) :
    (g.pcb c).pid ∉ g.host.alloc k := by
  obtain ⟨hl, hc, hfresh⟩ := h.spec
  intro hmem
  obtain ⟨i, hi⟩ := List.mem_iff_getElem?.mp hmem
  have hpid := hl.pid c hc
  have hpos := (mem_loaded_iff.mp hc).1
  obtain ⟨d, -, hd, hinit⟩ := hl.label k i _ hi (by omega)
  have hcd : c = d := by omega
  exact hfresh (hcd ▸ hinit)

/-- Whenever resources are asked for on behalf of a process, no cell carries its pid, so that no
allocator finds it: each looks at its own table, and the others have not touched it. -/
theorem attempt_unlabelled {N : ℕ} (h : Attempt lines N g c) :
    (∀ k, (g.pcb c).pid ∉ g.host.alloc k) ∧
      ∀ done k first count, k ∉ done →
        scan ((g.pcb c).io k).needed (g.pcb c).pid
          ((((stage (g.pcb c) g.host done).2.alloc k).drop first).take count) 0 (-1) 0 ≠ none := by
  have hlabel := (Attempt.waiting h).unlabelled
  refine ⟨hlabel, fun done k first count hk => ?_⟩
  have hown : (stage (g.pcb c) g.host done).2.alloc k = g.host.alloc k := if_neg hk
  apply scan_ne_none
  rw [hown]
  intro hmem
  exact hlabel k (List.mem_of_mem_drop (List.mem_of_mem_take hmem))

/-- The first attempt of a process that asks for memory and a printer. -/
theorem attempt_unlabelled_demo : ∃ g, Attempt [![0, 1, 1, 32, 1, 0, 0, 0]] 1 g 1 ∧
    (∀ k, (g.pcb 1).pid ∉ g.host.alloc k) ∧
      ∀ done k first count, k ∉ done →
        scan ((g.pcb 1).io k).needed (g.pcb 1).pid
          ((((stage (g.pcb 1) g.host done).2.alloc k).drop first).take count) 0 (-1) 0 ≠ none := by
  have hqueue : ((Abstract.mainLoop [![0, 1, 1, 32, 1, 0, 0, 0]] 0).queue .dispatcher).processes =
      [] ++ 1 :: [] := by decide
  have hattempt := (exists_attempt Nat.one_pos hqueue (by decide)).1
  exact ⟨_, hattempt, attempt_unlabelled hattempt⟩

/-- A process whose line asks for no negative amount is turned away only where there is no room
for what it asks for. -/
theorem attempt_iff_room {N : ℕ} (h : Attempt lines N g c)
    (hneeded : ∀ k, 0 ≤ ((g.pcb c).io k).needed) :
    (g.allocate c).1 ≠ 0 ↔ ∀ k, Room (g.pcb c) g.host k :=
  allocateResources_iff_room hneeded (Attempt.waiting h).unlabelled

end Labels

end Eece315.DispatcherRollback
