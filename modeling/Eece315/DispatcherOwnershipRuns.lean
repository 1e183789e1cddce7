import Eece315.DispatcherOwnership

/-! Ownership over whole runs. In the first iterations of `main` every admitted process owns its
cells in every state exactly when no attempt of these iterations clobbers a cell. -/
namespace Eece315.DispatcherOwnership
open SegmentTable HeapChain DispatcherQueue DispatcherResources DispatcherSystem
open DispatcherAbstract

/-- The states of the first `N` iterations: at their borders, between two passes through the
loop of `updateDispatcher`, and when `doProcessing` is called. -/
inductive Visited (lines : List Args) (N : ℕ) : System → Prop
  | border {n : ℕ} {s : System} (hn : n ≤ N) (hs : mainLoop lines n = some s) : Visited lines N s
  | offering {n : ℕ} {s : System} {st : Offering} (hn : n < N) (hs : mainLoop lines n = some s)
      (loop : LoopState n s st) : Visited lines N st.system
  | call {n : ℕ} {rt : Bool} {s : System} (hn : n < N) (hs : Call lines n rt s) :
      Visited lines N s

/-- In the first `N` iterations resources are asked for on behalf of `c` in state `g`. -/
def Attempt (lines : List Args) (N : ℕ) (g : Globals) (c : ℕ) : Prop :=
  ∃ n < N, ∃ s st, mainLoop lines n = some s ∧ LoopState n s st ∧
    (processes st.system.heap st.queuePtr).head? = some c ∧
    n ≥ (st.system.globals.pcb c).arrivalTime ∧ g = st.system.globals

structure Placed (a : Abstract) : Prop where
  queue : ∀ name ≠ .dispatcher, ∀ c ∈ (a.queue name).processes, .initialized c ∈ a.globals.out
  current : ∀ c, a.globals.currentProcess = some c → .initialized c ∈ a.globals.out

structure Inv (a : Abstract) : Prop where
  sound : Sound a.globals (a.queue .dispatcher).processes
  placed : Placed a

structure OffersInv (st : Offers) (rest : List ℕ) : Prop where
  sound : Sound st.system.globals (rest ++ st.newDispatcher.processes)
  placed : Placed st.system
  nodup : (rest ++ st.newDispatcher.processes).Nodup
  unmarked : st.newDispatcher.overwritten = none

section Placed

variable {a : Abstract}

lemma Placed.setGlobals (h : Placed a) {g : Globals}
    (hout : ∀ c, .initialized c ∈ a.globals.out → .initialized c ∈ g.out)
    (hcur : ∀ c, g.currentProcess = some c → a.globals.currentProcess = some c) :
    Placed { a with globals := g } :=
  ⟨fun name hname c hc => hout c (h.queue name hname c hc),
    fun c hc => hout c (h.current c (hcur c hc))⟩

lemma Placed.enqueueToPriority (h : Placed a) {c : ℕ} (hc : .initialized c ∈ a.globals.out) :
    Placed (a.enqueueToPriority c) := by
  refine ⟨fun name hname d hd => ?_, h.current⟩
  by_cases hq : name = a.queueOf c
  · subst hq
    rw [Abstract.enqueueToPriority_queue] at hd
    rcases mem_processes_enqueue hd with hd | rfl
    · exact h.queue _ hname d hd
    · exact hc
  · rw [Abstract.enqueueToPriority_of_ne hq] at hd
    exact h.queue name hname d hd

lemma dispatchFrom_out (source : QueueName) (slice : PCB → ℤ) (a : Abstract) :
    (a.dispatchFrom source slice).globals.out = a.globals.out := by
  unfold Abstract.dispatchFrom
  split <;> rfl

lemma Placed.dispatchFrom (h : Placed a) {source : QueueName} (hs : source ≠ .dispatcher)
    (slice : PCB → ℤ) : Placed (a.dispatchFrom source slice) := by
  refine ⟨fun name hname d hd => ?_, fun d hd => ?_⟩
  · rw [dispatchFrom_out]
    exact h.queue name hname d (mem_dispatchFrom hd)
  · rw [dispatchFrom_out]
    unfold Abstract.dispatchFrom at hd
    split at hd
    · rename_i f c cs hq
      obtain rfl : c = d := Option.some.inj hd
      exact h.queue source hs c (by simp [hq])
    · exact h.current d hd

lemma Placed.selectProcess (h : Placed a) (rtUpdated : Bool) :
    Placed (a.selectProcess rtUpdated) := by
  unfold Abstract.selectProcess
  split
  · rename_i c hc
    split_ifs
    · have hs : Placed { a with globals := a.globals.suspend c } :=
        h.setGlobals (fun d hd => List.mem_append_left _ hd) fun d hd => hd
      refine (hs.enqueueToPriority ?_).dispatchFrom (by simp) _
      exact List.mem_append_left _ (h.current c hc)
    · exact h
  · split_ifs <;> exact h.dispatchFrom (by simp) _

lemma quantum_out (g : Globals) {c : ℕ} (h : .initialized c ∈ g.out) :
    .initialized c ∈ g.quantum.1.out := by
  unfold Globals.quantum
  cases g.currentProcess with
  | none => exact h
  | some d =>
    simp only []
    split_ifs <;> simp [Globals.terminate, Globals.setPcb, Globals.print, h]

lemma quantum_current (g : Globals) {c : ℕ} (h : g.quantum.1.currentProcess = some c) :
    g.currentProcess = some c := by
  unfold Globals.quantum at h
  cases hd : g.currentProcess with
  | none => simp [hd] at h
  | some d =>
    simp only [hd] at h
    split_ifs at h <;> simp_all [Globals.terminate, Globals.setPcb, Globals.print]

lemma quantum_back (g : Globals) {c : ℕ} (h : g.quantum.2 = some c) :
    g.currentProcess = some c := by
  unfold Globals.quantum at h
  cases hd : g.currentProcess with
  | none => simp [hd] at h
  | some d =>
    simp only [hd] at h
    split_ifs at h <;> simp_all

lemma Placed.runProcess (h : Placed a) : Placed a.runProcess := by
  have hg : Placed { a with globals := a.globals.quantum.1 } :=
    h.setGlobals (fun c hc => quantum_out _ hc) fun c hc => quantum_current _ hc
  have hb := fun c => quantum_back a.globals (c := c)
  unfold Abstract.runProcess
  rcases hq : a.globals.quantum with ⟨g, _ | c⟩
  · rwa [hq] at hg
  · rw [hq] at hg hb
    apply hg.enqueueToPriority
    have hout := quantum_out a.globals (h.current c (hb c rfl))
    rwa [hq] at hout

end Placed

section Iteration

variable {a : Abstract} {time : ℤ}

lemma OffersInv.offer {st : Offers} {c : ℕ} {rest : List ℕ} (h : OffersInv st (c :: rest))
    (hn : time ≥ (st.system.globals.pcb c).arrivalTime → ¬ Clobbers st.system.globals c) :
    OffersInv (st.offer time c) rest := by
  have hmem : c ∈ c :: rest ++ st.newDispatcher.processes := List.mem_cons_self
  have hback := Shape.processes_enqueue st.newDispatcher c h.unmarked
  have hsame (d : ℕ) (hd : d ∈ rest ++ (st.newDispatcher.enqueue c).processes) :
      d ∈ c :: rest ++ st.newDispatcher.processes := by
    rw [hback] at hd
    simp only [List.cons_append, List.mem_cons, List.mem_append, List.not_mem_nil,
      or_false] at hd ⊢
    tauto
  have hnodup : (rest ++ (st.newDispatcher.enqueue c).processes).Nodup := by
    rw [hback, ← List.append_assoc]
    exact (List.perm_append_singleton c _).nodup_iff.mpr h.nodup
  have hunmarked := st.newDispatcher.overwritten_enqueue c
  have hattempt : Placed (st.attempt c).system :=
    h.placed.setGlobals (fun d hd => hd) fun d hd => hd
  rcases st.offer_cases time c with ⟨⟨-, hr⟩, he⟩ | ⟨hr, ht, he⟩ | ⟨-, -, he⟩ <;> rw [he]
  · have hfit := (allocateResources_ne_zero _ _).mp hr
    have hc := (List.nodup_cons.mp h.nodup).1
    refine ⟨h.sound.enlist hc hfit, ?_, (List.nodup_cons.mp h.nodup).2, h.unmarked⟩
    have hprint : Placed { (st.attempt c).system with
        globals := (st.attempt c).system.globals.print (.initialized c) } :=
      hattempt.setGlobals (fun d hd => List.mem_append_left _ hd) fun d hd => hd
    exact hprint.enqueueToPriority (List.mem_append_right _ (List.mem_singleton_self _))
  · have hfit : ¬ ∀ k, Fits (st.system.globals.pcb c) st.system.globals.host k :=
      fun hf => hr ⟨ht, (allocateResources_ne_zero _ _).mpr hf⟩
    exact ⟨(h.sound.refuse hmem hfit (hn ht)).mono hsame, hattempt, hnodup, hunmarked⟩
  · exact ⟨h.sound.mono hsame, h.placed, hnodup, hunmarked⟩

/-- No attempt of an update clobbers a cell, given the invariant up to that attempt. -/
def Harmless (time : ℤ) (a : Abstract) : Prop :=
  ∀ done c later, (a.queue .dispatcher).processes = done ++ c :: later →
    OffersInv (a.offers time done) (c :: later) →
      time ≥ ((a.offers time done).system.globals.pcb c).arrivalTime →
        ¬ Clobbers (a.offers time done).system.globals c

lemma Inv.offers (h : Inv a) (hn : (a.queue .dispatcher).processes.Nodup)
    (hharm : Harmless time a) {done later : List ℕ}
    (hd : (a.queue .dispatcher).processes = done ++ later) :
    OffersInv (a.offers time done) later := by
  induction done using List.reverseRecOn generalizing later with
  | nil =>
    have hl : (a.queue .dispatcher).processes = later := hd
    exact ⟨by simpa [Abstract.offers, ← hl] using h.sound, h.placed,
      by simpa [Abstract.offers, ← hl] using hn, rfl⟩
  | append_singleton done c ih =>
    have hd' : (a.queue .dispatcher).processes = done ++ c :: later := by simpa using hd
    have hst := ih hd'
    have hstep := hst.offer (hharm done c later hd' hst)
    simpa [Abstract.offers] using hstep

lemma nodup_dispatcher (h : a.ledger.Nodup) : (a.queue .dispatcher).processes.Nodup := by
  rw [Abstract.ledger_eq] at h
  exact Multiset.coe_nodup.mp (Multiset.nodup_add.mp h).1

lemma Inv.updateDispatcher (h : Inv a) (hn : a.ledger.Nodup) (hharm : Harmless time a) :
    Inv (a.updateDispatcher time).2 := by
  have hst := h.offers (nodup_dispatcher hn) hharm (List.append_nil _).symm
  refine ⟨?_, fun name hname c hc => ?_, hst.placed.current⟩
  · have hs := hst.sound
    rw [List.nil_append] at hs
    simpa [Abstract.updateDispatcher] using hs
  · rw [Abstract.updateDispatcher, Abstract.setQueue_of_ne _ _ hname] at hc
    exact hst.placed.queue name hname c hc

lemma Sound.dispatchFrom {pending : List ℕ} (h : Sound a.globals pending) (source : QueueName)
    (slice : PCB → ℤ) : Sound (a.dispatchFrom source slice).globals pending := by
  unfold Abstract.dispatchFrom
  split
  · rename_i f c cs hs
    refine h.congr (fun d => ?_) rfl (fun _ => Iff.rfl) fun _ => Iff.rfl
    by_cases hd : d = c
    · subst hd
      simp [Globals.dispatch, Globals.setPcb]
    · simp [Globals.dispatch, Globals.setPcb, Function.update_of_ne hd]
  · exact h

lemma Sound.selectProcess {pending : List ℕ} (h : Sound a.globals pending) (rtUpdated : Bool) :
    Sound (a.selectProcess rtUpdated).globals pending := by
  have hsuspend (c : ℕ) : Sound (a.globals.suspend c) pending := by
    refine h.congr (fun d => ?_) rfl
      (fun d => by simp [Globals.suspend, Globals.setPcb, Globals.print])
      fun d => by simp [Globals.suspend, Globals.setPcb, Globals.print]
    by_cases hd : d = c
    · subst hd
      simp [Globals.suspend, Globals.setPcb, Globals.print]
    · simp [Globals.suspend, Globals.setPcb, Globals.print, Function.update_of_ne hd]
  unfold Abstract.selectProcess
  split
  · split_ifs
    · apply Sound.dispatchFrom
      exact hsuspend _
    · exact h
  · split_ifs <;> exact h.dispatchFrom _ _

lemma runProcess_globals (a : Abstract) : a.runProcess.globals = a.globals.quantum.1 := by
  unfold Abstract.runProcess
  split <;> simp_all

lemma current_notMem_terminated {c : ℕ} (hn : a.ledger.Nodup)
    (hc : a.globals.currentProcess = some c) : c ∉ terminated a.globals.out := by
  intro ht
  have hmem : c ∈ (a.globals.currentProcess.toList : Multiset ℕ) := by simp [hc]
  have hg := (Multiset.nodup_add.mp hn).2.1
  exact Multiset.disjoint_left.mp (Multiset.nodup_add.mp hg).2.2 hmem (Multiset.mem_coe.mpr ht)

lemma Inv.doProcessing (h : Inv a) (hn : a.ledger.Nodup) {rtUpdated : Bool}
    (hrt : rtUpdated = true → (a.queue .realTimeQueue).processes ≠ []) :
    Inv (a.doProcessing rtUpdated) := by
  have hplaced := h.placed.selectProcess rtUpdated
  have hle := Multiset.nodup_of_le (Abstract.ledger_selectProcess_le hrt) hn
  refine ⟨?_, hplaced.runProcess⟩
  rw [Abstract.doProcessing_frame fun p => (priorityQueue_ne_dispatcher p).symm,
    Abstract.doProcessing, runProcess_globals]
  exact (h.sound.selectProcess rtUpdated).quantum fun c hc =>
    ⟨hplaced.current c hc, fun ht =>
      current_notMem_terminated hle hc (List.mem_filterMap.mpr ⟨_, ht, rfl⟩)⟩

lemma Inv.iteration (h : Inv a) (hn : a.ledger.Nodup) (hharm : Harmless time a) :
    Inv (a.iteration time) :=
  (h.updateDispatcher hn hharm).doProcessing
    (Multiset.nodup_of_le (Abstract.ledger_updateDispatcher_le time a) hn)
    (updateDispatcher_realTime time a)

end Iteration

section Runs

variable {lines : List Args}

lemma Inv.loadProcess {a : Abstract} (h : Inv a) (hout : a.globals.out = []) {pid : ℕ}
    (hpid : pid ≠ 0) (args : Args) : Inv (a.loadProcess pid args) := by
  have hnobody (c : ℕ) : ¬ Admitted a.globals c := by simp [Admitted, hout]
  have hself : (a.loadProcess pid args).globals.pcb pid = processOf pid args := by
    simp [Abstract.loadProcess, Globals.setPcb]
  have hother {c : ℕ} (hc : c ≠ pid) :
      (a.loadProcess pid args).globals.pcb c = a.globals.pcb c := by
    simp [Abstract.loadProcess, Globals.setPcb, Function.update_of_ne hc]
  have hqueue {c : ℕ} (hc : c ∈ ((a.loadProcess pid args).queue .dispatcher).processes)
      (hne : c ≠ pid) : c ∈ (a.queue .dispatcher).processes := by
    rw [loadProcess_dispatcher] at hc
    exact (mem_processes_enqueue hc).resolve_right hne
  refine ⟨⟨fun c hc => absurd hc (hnobody c), fun c hc => ?_, fun c _ => ?_, fun c hc k => ?_,
    fun k i v hi hv => ?_⟩, fun name hname c hc => ?_, h.placed.current⟩
  · have hc' : c ∈ ((a.loadProcess pid args).queue .dispatcher).processes := by
      apply hc.resolve_right
      change Event.initialized c ∉ a.globals.out
      simp [hout]
    by_cases hne : c = pid
    · subst hne
      rw [hself]
      exact ⟨rfl, hpid⟩
    · rw [hother hne]
      exact h.sound.pid c (.inl (hqueue hc' hne))
  · change Event.initialized c ∉ a.globals.out ∧ Event.terminated c ∉ a.globals.out
    simp [hout]
  · by_cases hne : c = pid
    · subst hne
      rw [hself]
      cases k <;> exact fun _ => ⟨rfl, rfl⟩
    · rw [hother hne]
      exact h.sound.unasked c (hqueue hc hne) k
  · obtain ⟨c, hc, -⟩ := h.sound.label k i v hi hv
    exact absurd hc (hnobody c)
  · have hq : (a.loadProcess pid args).queue name = a.queue name :=
      Abstract.setQueue_of_ne a ((a.queue .dispatcher).enqueue pid) hname
    rw [hq] at hc
    exact h.placed.queue name hname c hc

lemma inv_readLines (lines : List Args) (pid : ℕ) (hpid : pid ≠ 0) (a : Abstract) (h : Inv a)
    (hout : a.globals.out = []) : Inv (Abstract.readLines pid lines a) := by
  induction lines generalizing pid a with
  | nil => exact h
  | cons args lines ih =>
    unfold Abstract.readLines
    split_ifs
    · exact ih (pid + 1) (by omega) _ (h.loadProcess hout hpid args) hout
    · exact h

lemma nodup_mainLoop (lines : List Args) (n : ℕ) : (Abstract.mainLoop lines n).ledger.Nodup :=
  Multiset.nodup_of_le (ledger_mainLoop_le lines n) (nodup_loaded lines)

theorem inv_mainLoop (n : ℕ) (hharm : ∀ k < n, Harmless k (Abstract.mainLoop lines k)) :
    Inv (Abstract.mainLoop lines n) := by
  induction n with
  | zero =>
    refine inv_readLines lines 1 one_ne_zero _ ⟨⟨fun c hc => ?_, fun c hc => ?_, fun c hc => ?_,
      fun c hc => ?_, fun k i v hi hv => ?_⟩, fun name _ c hc => ?_, fun c hc => ?_⟩ rfl
    · cases hc.1
    · rcases hc with hc | hc <;> cases hc
    · cases hc
    · cases hc
    · refine absurd ?_ hv
      have hzero : ∀ x ∈ DispatcherSystem.initSystem.globals.host.alloc k, x = 0 := by
        cases k <;> exact fun x hx => (List.mem_replicate.mp hx).2
      exact hzero v (List.mem_of_getElem? hi)
    · cases hc
    · cases hc
  | succ n ih =>
    exact (ih fun k hk => hharm k (by omega)).iteration (nodup_mainLoop lines n)
      (hharm n (by omega))

lemma exists_attempt {N n : ℕ} (hn : n < N) {done later : List ℕ} {c : ℕ}
    (hd : ((Abstract.mainLoop lines n).queue .dispatcher).processes = done ++ c :: later)
    (harr : n ≥ (((Abstract.mainLoop lines n).offers n done).system.globals.pcb c).arrivalTime) :
    Attempt lines N ((Abstract.mainLoop lines n).offers n done).system.globals c ∧
      ∃ s', Visited lines N s' ∧
        s'.globals = (((Abstract.mainLoop lines n).offers n done).offer n c).system.globals := by
  obtain ⟨s, hs, hsim, -⟩ := simulates_mainLoop lines n
  obtain ⟨st, rest, hst, hl, hoff⟩ := exists_loopState n hsim hd
  refine ⟨⟨n, hn, s, st, hs, hst, ?_, by rwa [hoff.2.1], hoff.2.1.symm⟩, ?_⟩
  · have hp : processes st.system.heap st.queuePtr = rest.processes :=
      hoff.1.processes_eq (some .dispatcher)
    rw [hp, hl]
    rfl
  · obtain ⟨st', ho, hoff'⟩ := hoff.offer hl n
    exact ⟨st'.system, .offering hn hs (hst.pass ho hoff'.2.2.2), hoff'.2.1⟩

lemma offer_globals_of_arrived {st : Offers} {c : ℕ} {time : ℤ}
    (harr : time ≥ (st.system.globals.pcb c).arrivalTime)
    (hf : ¬ ∀ k, Fits (st.system.globals.pcb c) st.system.globals.host k) :
    (st.offer time c).system.globals = (st.system.globals.allocate c).2 := by
  have hr : ¬ (st.system.globals.allocate c).1 ≠ 0 :=
    fun hr => hf ((allocateResources_ne_zero _ _).mp hr)
  rw [Offers.offer, if_pos harr, if_neg hr]
  rfl

lemma visited_exclusive {N : ℕ} (hharm : ∀ k < N, Harmless k (Abstract.mainLoop lines k))
    {s : System} (hs : Visited lines N s) : Exclusive s.globals := by
  have hinv {n : ℕ} (hn : n ≤ N) : Inv (Abstract.mainLoop lines n) :=
    inv_mainLoop n fun k hk => hharm k (by omega)
  cases hs with
  | @border n s hn hs =>
    obtain ⟨hsim, -⟩ := simulates_of_mainLoop hs
    rw [hsim.2]
    exact (hinv hn).sound.owns
  | @offering n s st hn hs loop =>
    obtain ⟨hsim, -⟩ := simulates_of_mainLoop hs
    obtain ⟨done, later, rest, hd, -, hoff⟩ := LoopState.simulates hsim loop
    have hst := (hinv hn.le).offers (nodup_dispatcher (nodup_mainLoop lines n)) (hharm n hn) hd
    rw [hoff.2.1]
    exact hst.sound.owns
  | @call n rt s hn hs =>
    obtain ⟨a, hsim, rfl, -⟩ := hs.simulates
    rw [hsim.2]
    exact ((hinv hn.le).updateDispatcher (nodup_mainLoop lines n) (hharm n hn)).sound.owns

/-- In the states of the first `N` iterations every admitted process owns its cells exactly when
none of their attempts clobbers a cell. -/
theorem exclusive_iff (lines : List Args) (N : ℕ) :
    (∀ s, Visited lines N s → Exclusive s.globals) ↔
      ∀ g c, Attempt lines N g c → ¬ Clobbers g c := by
  constructor
  · intro hex
    have hharm : ∀ k < N, Harmless k (Abstract.mainLoop lines k) := by
      intro k hk done c later hd hst harr hclob
      obtain ⟨-, s', hs', hg⟩ := exists_attempt hk hd harr
      rw [offer_globals_of_arrived harr fun hf => hclob.elim fun kind hk => hk.1 (hf kind)] at hg
      apply hst.sound.not_exclusive List.mem_cons_self hclob
      rw [← hg]
      exact hex s' hs'
    rintro g c ⟨n, hn, s, st, hs, loop, hnext, harr, rfl⟩ hclob
    obtain ⟨hsim, -⟩ := simulates_of_mainLoop hs
    obtain ⟨done, later, rest, hd, hl, hoff⟩ := LoopState.simulates hsim loop
    have hp : processes st.system.heap st.queuePtr = rest.processes :=
      hoff.1.processes_eq (some .dispatcher)
    rw [hp, hl] at hnext
    obtain ⟨later, rfl⟩ : ∃ cs, later = c :: cs := by
      cases later with
      | nil => cases hnext
      | cons d cs => exact ⟨cs, by rw [Option.some.inj hnext]⟩
    have hinv := inv_mainLoop n fun k hk => hharm k (by omega)
    have hst := hinv.offers (nodup_dispatcher (nodup_mainLoop lines n)) (hharm n hn) hd
    rw [hoff.2.1] at harr hclob
    exact hharm n hn done c later hd hst harr hclob
  · intro hno s hs
    refine visited_exclusive (fun k hk done c later hd _ harr => ?_) hs
    exact hno _ c (exists_attempt hk hd harr).1

/-- A process that could get a printer but no scanner is refused; when it tries again, it clears
the printer that was given to another process in the meantime. -/
theorem exclusive_fails : ¬ ∀ lines N s, Visited lines N s → Exclusive s.globals := by
  intro h
  let lines : List Args :=
    [![0, 1, 9, 0, 0, 1, 0, 0], ![0, 1, 9, 0, 1, 1, 0, 0], ![0, 1, 9, 0, 2, 0, 0, 0]]
  have hrun : (mainLoop lines 2).map (fun s =>
      decide (Admitted s.globals 3 ∧ ((s.globals.pcb 3).io .printers).startID = 0 ∧
        ((s.globals.pcb 3).io .printers).held = 2 ∧ (s.globals.pcb 3).pid = 3 ∧
        (s.globals.host.alloc .printers)[0]? = some 0)) = some true := by decide +kernel
  obtain ⟨s, hs, hd⟩ := Option.map_eq_some_iff.mp hrun
  obtain ⟨hadm, hstart, hheld, hpid, hcell⟩ := of_decide_eq_true hd
  have hown := (h lines 2 s (.border le_rfl hs) 3 hadm .printers 0 (by simp [hstart])
    (by simp [hstart, hheld])).2
  rw [Int.toNat_zero, hcell, hpid] at hown
  cases hown

end Runs

end Eece315.DispatcherOwnership
