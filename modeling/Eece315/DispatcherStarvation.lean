import Eece315.DispatcherSlices

/-! Who never gets the processor. The search for a user process does not look past the empty first
queue that the program starts with, so that no user process runs before one of priority 1 has been
admitted. A real-time process is only dispatched in a pass in which one is admitted, and in every
pass at most one is. -/
namespace Eece315.DispatcherStarvation
open HeapChain DispatcherQueue DispatcherResources DispatcherSystem DispatcherAbstract
open DispatcherOwnership DispatcherSelection DispatcherGlobals DispatcherSlices

variable {lines : List Args}

def listed (lines : List Args) (c : ℕ) : ℤ := (argsOf lines c).priority

/-- A process of priority 1 has been given its resources. -/
def Roused (lines : List Args) (out : List Event) : Prop :=
  ∃ d, .initialized d ∈ out ∧ listed lines d = 1

/-- Before a user process ran, one of priority 1 had been given its resources. -/
def RousedFirst (lines : List Args) (out : List Event) : Prop :=
  ∀ before c after, out = before ++ .running c :: after → listed lines c ≠ 0 → Roused lines before

/-- The first user queue is the one that the program started with, and no user process has been
current. -/
structure Dormant (lines : List Args) (a : Abstract) : Prop where
  p1Queue : a.queue .p1Queue = .empty
  current : ∀ c, a.globals.currentProcess = some c → (a.globals.pcb c).priority = 0
  unaged : ∀ c ∈ loaded lines, (a.globals.pcb c).priority = listed lines c

section Roused

variable {out : List Event} {e : Event}

lemma Roused.append (h : Roused lines out) : Roused lines (out ++ [e]) := by
  obtain ⟨d, hd, hp⟩ := h
  exact ⟨d, List.mem_append_left _ hd, hp⟩

lemma RousedFirst.append (h : RousedFirst lines out)
    (he : ∀ c, e = .running c → listed lines c ≠ 0 → Roused lines out) :
    RousedFirst lines (out ++ [e]) := by
  intro before c after hout hc
  rcases List.eq_nil_or_concat after with rfl | ⟨after, e', rfl⟩
  · obtain ⟨rfl, hlast⟩ := List.append_inj' hout rfl
    exact he c (List.singleton_inj.mp hlast) hc
  · have hsplit : out ++ [e] = (before ++ .running c :: after) ++ [e'] := by simpa using hout
    exact h before c after (List.append_inj' hsplit rfl).1 hc

lemma roused_kept (cs : List ℕ) : Kept cs fun g => Roused lines g.out := by
  constructor
  · exact ⟨fun g h c _ => h, fun g h c => h.append⟩
  · exact ⟨fun g h c => h.append, fun g h c slice => h⟩
  · intro g h _
    unfold Globals.quantum
    split
    · exact h
    · simp only []
      split_ifs
      · exact h.append.append
      all_goals exact h.append

lemma rousedFirst_offers (cs : List ℕ) :
    KeptByOffers cs fun g => RousedFirst lines g.out :=
  ⟨fun g h c _ => h, fun g h c => h.append (by intro d hd; cases hd)⟩

lemma rousedFirst_select : KeptBySelect fun g => RousedFirst lines g.out :=
  ⟨fun g h c => h.append (by intro d hd; cases hd), fun g h c slice => h⟩

end Roused

section Dormant

variable {a : Abstract} {st : Offers} {c : ℕ}

lemma priorityQueue_eq_p1Queue {p : ℤ} : priorityQueue p = .p1Queue ↔ p = 1 := by
  unfold priorityQueue
  split_ifs <;> simp_all

lemma Dormant.congr {b : Abstract} (h : Dormant lines a)
    (hp1 : b.queue .p1Queue = a.queue .p1Queue)
    (hcurrent : ∀ d, b.globals.currentProcess = some d → a.globals.currentProcess = some d)
    (hpriority : ∀ d, (b.globals.pcb d).priority = (a.globals.pcb d).priority) :
    Dormant lines b := by
  constructor
  · rw [hp1, h.p1Queue]
  · intro d hd
    rw [hpriority]
    exact h.current d (hcurrent d hd)
  · intro d hd
    rw [hpriority]
    exact h.unaged d hd

lemma Dormant.offer (h : Dormant lines st.system) (hc : c ∈ loaded lines) (time : ℤ) :
    Roused lines (st.offer time c).system.globals.out ∨
      Dormant lines (st.offer time c).system := by
  have hpriority := allocate_priority st.system.globals c
  rcases st.offer_cases time c with ⟨-, he⟩ | ⟨-, -, he⟩ | ⟨-, -, he⟩ <;> rw [he]
  · by_cases hone : listed lines c = 1
    · left
      exact ⟨c, List.mem_append_right _ (List.mem_singleton_self _), hone⟩
    · right
      have hattempt : Dormant lines (st.attempt c).system :=
        h.congr rfl (fun _ => id) hpriority
      refine hattempt.congr ?_ (fun _ => id) fun _ => rfl
      apply Abstract.enqueueToPriority_of_ne
      intro hq
      apply hone
      rw [← h.unaged c hc, ← hpriority]
      exact priorityQueue_eq_p1Queue.mp hq.symm
  · right
    exact h.congr rfl (fun _ => id) hpriority
  · right
    exact h

lemma Dormant.updateDispatcher (h : Dormant lines a)
    (hd : ∀ c ∈ (a.queue .dispatcher).processes, c ∈ loaded lines) (time : ℤ) :
    Roused lines (a.updateDispatcher time).2.globals.out ∨
      Dormant lines (a.updateDispatcher time).2 := by
  have hoffers : Roused lines (a.offers time (a.queue .dispatcher).processes).system.globals.out ∨
      Dormant lines (a.offers time (a.queue .dispatcher).processes).system := by
    apply List.foldlRecOn _ (Offers.offer time)
      (motive := fun st : Offers => Roused lines st.system.globals.out ∨ Dormant lines st.system)
    · exact .inr h
    · intro st hst c hc
      rcases hst with hst | hst
      · left
        exact (roused_kept (loaded lines)).toKeptByOffers.offer hst (hd c hc) time
      · exact hst.offer (hd c hc) time
  exact hoffers.imp_right fun hst => hst.congr (Abstract.setQueue_of_ne _ _ (by simp)) (fun _ => id)
    fun _ => rfl

lemma priority_dispatch (g : Globals) (c d : ℕ) (slice : PCB → ℤ) :
    ((g.dispatch c slice).pcb d).priority = (g.pcb d).priority :=
  setPcb_related (g := g) (c := c) (p := { g.pcb c with timeSpliceLeft := slice (g.pcb c) })
    (R := fun p q => q.priority = p.priority) (fun _ => rfl) rfl d

lemma Dormant.selectProcess (h : Dormant lines a) (hclass : Classed a) (rt : Bool) :
    Dormant lines (a.selectProcess rt) := by
  cases hcur : a.globals.currentProcess with
  | some c =>
    have hzero := h.current c hcur
    have hsame : a.selectProcess rt = a := by simp [Abstract.selectProcess, hcur, hzero]
    rwa [hsame]
  | none =>
    cases rt with
    | true =>
      have hsel : a.selectProcess true = a.dispatchFrom .realTimeQueue PCB.remainingTime := by
        simp [Abstract.selectProcess, hcur]
      rw [hsel]
      have hne : QueueName.p1Queue ≠ .realTimeQueue := by simp
      have hp1 : (a.dispatchFrom .realTimeQueue PCB.remainingTime).queue .p1Queue = .empty :=
        (Abstract.dispatchFrom_of_ne _ hne).trans h.p1Queue
      rcases hq : a.queue .realTimeQueue with _ | _ | ⟨f, c, cs⟩
      · simpa [Abstract.dispatchFrom, hq] using h
      · simpa [Abstract.dispatchFrom, hq] using h
      · rw [dispatchFrom_chain _ hq] at hp1 ⊢
        have hhead : (a.queue .realTimeQueue).processes.head? = some c := by
          rw [hq]
          rfl
        constructor
        · exact hp1
        · intro d hd
          obtain rfl : c = d := Option.some.inj hd
          rw [priority_dispatch]
          exact (Classed.head hclass (by decide) hhead).mpr rfl
        · intro d hd
          rw [priority_dispatch]
          exact h.unaged d hd
    | false =>
      have hsame : a.selectProcess false = a := by
        simp [Abstract.selectProcess, hcur, h.p1Queue, Abstract.dispatchFrom]
      rwa [hsame]

lemma Dormant.runProcess (h : Dormant lines a) : Dormant lines a.runProcess := by
  have hpriority (d : ℕ) : (a.globals.quantum.1.pcb d).priority = (a.globals.pcb d).priority := by
    by_cases hd : a.globals.currentProcess = some d
    · have hzero := h.current d hd
      simp only [Globals.quantum, hd]
      split_ifs <;> simp [Globals.terminate, Globals.setPcb, Globals.print] <;> omega
    · rw [quantum_pcb _ hd]
  have hback : a.globals.quantum.2 = none := by
    cases hcur : a.globals.currentProcess with
    | none => simp [Globals.quantum, hcur]
    | some c =>
      have hzero := h.current c hcur
      simp only [Globals.quantum, hcur]
      split_ifs <;> first | rfl | omega
  have hrun : a.runProcess = { a with globals := a.globals.quantum.1 } := by
    unfold Abstract.runProcess
    split <;> simp_all
  rw [hrun]
  exact h.congr rfl (fun d hd => quantum_current _ hd) hpriority

end Dormant

section FirstUser

variable {g : Globals} {n : ℕ}

lemma RousedFirst.quantum (h : RousedFirst lines g.out)
    (hc : ∀ c, g.currentProcess = some c → listed lines c ≠ 0 → Roused lines g.out) :
    RousedFirst lines g.quantum.1.out := by
  unfold Globals.quantum
  cases hcur : g.currentProcess with
  | none => exact h
  | some c =>
    have hrun : RousedFirst lines (g.out ++ [.running c]) := by
      apply h.append
      intro d hd
      obtain rfl : c = d := Event.running.inj hd
      exact hc c hcur
    simp only []
    split_ifs
    · exact hrun.append (by intro d hd; cases hd)
    all_goals exact hrun

lemma dormant_zero (lines : List Args) : Dormant lines (Abstract.mainLoop lines 0) := by
  constructor
  · exact readLines_of_ne (by simp) 1 lines _
  · intro c hc
    rw [mainLoop_zero_globals] at hc
    cases hc
  · intro c hc
    rw [loaded_pcb hc]
    rfl

lemma updated_ledger_le (lines : List Args) (n : ℕ) :
    (updated lines n).ledger ≤ (loaded lines : Multiset ℕ) :=
  (Abstract.ledger_updateDispatcher_le n _).trans (ledger_mainLoop_le lines n)

theorem rousedFirst_mainLoop (lines : List Args) (n : ℕ) :
    (Roused lines (Abstract.mainLoop lines n).globals.out ∨
        Dormant lines (Abstract.mainLoop lines n)) ∧
      RousedFirst lines (Abstract.mainLoop lines n).globals.out := by
  induction n with
  | zero =>
    refine ⟨.inr (dormant_zero lines), fun before c after hout => ?_⟩
    rw [mainLoop_zero_globals] at hout
    cases before <;> cases hout
  | succ n ih =>
    obtain ⟨hor, hfirst⟩ := ih
    have hk : Kept (loaded lines) fun g => Roused lines g.out := roused_kept (loaded lines)
    have hupdated : Roused lines (updated lines n).globals.out ∨
        Dormant lines (updated lines n) := by
      rcases hor with h | h
      · exact .inl (updated_kept hk.toKeptByOffers h)
      · exact h.updateDispatcher (fun _ hc => mem_loaded hc) n
    have hselected : Roused lines (selected lines n).globals.out ∨
        Dormant lines (selected lines n) := by
      rcases hupdated with h | h
      · exact .inl (hk.toKeptBySelect.selectProcess h _)
      · exact .inr (h.selectProcess (classed_updated lines n) _)
    constructor
    · rcases hselected with h | h
      · left
        rw [mainLoop_succ_globals]
        exact hk.quantum _ h fun c hc =>
          current_of_ledger (nodup_loaded lines)
            ((Abstract.ledger_selectProcess_le (realTime_updated lines n)).trans
              (updated_ledger_le lines n)) hc
      · exact .inr h.runProcess
    · rw [mainLoop_succ_globals]
      apply RousedFirst.quantum
      · exact rousedFirst_select.selectProcess
          (updated_kept (rousedFirst_offers (loaded lines)) hfirst) _
      · intro c hc huser
        apply hselected.resolve_right
        intro h
        apply huser
        rw [← h.unaged c (current_mem_loaded hc)]
        exact h.current c hc

/-- Whatever waits in the other queues, no user process runs before one of priority 1 has been
given its resources. -/
theorem first_user {s : System} {before after : List Event} {c : ℕ}
    (hs : mainLoop lines n = some s) (hout : s.globals.out = before ++ .running c :: after)
    (huser : listed lines c ≠ 0) : ∃ d, .initialized d ∈ before ∧ listed lines d = 1 := by
  obtain ⟨hsim, -⟩ := simulates_of_mainLoop hs
  rw [hsim.2] at hout
  exact (rousedFirst_mainLoop lines n).2 before c after hout huser

/-- The process of the second queue is run in the second pass, behind one of the first. -/
theorem first_user_demo : ∃ lines s before after, mainLoop lines 2 = some s ∧
    s.globals.out = before ++ .running 2 :: after ∧ listed lines 2 = 2 ∧
      ∃ d, .initialized d ∈ before ∧ listed lines d = 1 := by
  let lines : List Args := [![0, 1, 1, 0, 0, 0, 0, 0], ![0, 2, 1, 0, 0, 0, 0, 0]]
  have hrun : (mainLoop lines 2).map (fun s => s.globals.out) =
      some ([.initialized 1, .initialized 2, .running 1, .terminated 1] ++
        .running 2 :: [.terminated 2]) := by decide +kernel
  obtain ⟨s, hs, hout⟩ := Option.map_eq_some_iff.mp hrun
  exact ⟨lines, s, _, _, hs, hout, by decide, first_user hs hout (by decide)⟩

end FirstUser

section RealTime

/-! A pass that announces no real-time process dispatches none either. -/

variable {g : Globals} {a : Abstract} {n c : ℕ}

/-- What `updateDispatcher` returns in pass `n` of `main`. -/
def announces (lines : List Args) (n : ℕ) : Bool :=
  match (mainLoop lines n).bind (updateDispatcher n) with
  | some (rtUpdated, _) => rtUpdated
  | none => false

def realTimeRun (lines : List Args) (out : List Event) : Finset ℕ :=
  (quanta out).toFinset.filter fun c => listed lines c = 0

def CurrentRan (g : Globals) : Prop := ∀ c, g.currentProcess = some c → c ∈ quanta g.out

/-- A process is real-time as long as its line says so. -/
def ClassListed (lines : List Args) (g : Globals) : Prop :=
  ∀ c ∈ loaded lines, (g.pcb c).priority = 0 ↔ listed lines c = 0

lemma announces_eq (lines : List Args) (n : ℕ) : announces lines n = flag lines n := by
  obtain ⟨rt, s, s₀, hs₀, hu⟩ := exists_call lines n
  have hcall : (mainLoop lines n).bind (updateDispatcher n) = some (rt, s) := by
    rw [hs₀]
    exact hu
  rw [announces, hcall]
  exact (simulates_updateDispatcher lines n hs₀ hu).1

lemma currentRan_kept (cs : List ℕ) : KeptByOffers cs CurrentRan := by
  refine ⟨fun g h d _ => h, fun g h d c hc => ?_⟩
  have hran := h c hc
  simpa [quanta, Globals.print] using hran

lemma currentRan_mainLoop (lines : List Args) (n : ℕ) :
    CurrentRan (Abstract.mainLoop lines n).globals := by
  intro c hc
  cases n with
  | zero =>
    rw [mainLoop_zero_globals] at hc
    cases hc
  | succ n =>
    rw [mainLoop_succ_globals] at hc ⊢
    rw [quanta_quantum, quantum_current _ hc]
    simp

lemma classListed_kept (lines : List Args) : Kept (loaded lines) (ClassListed lines) := by
  refine ⟨⟨fun g h d _ c hc => ?_, fun g h d => h⟩,
    ⟨fun g h d c hc => ?_, fun g h d slice c hc => ?_⟩, fun g h _ c hc => ?_⟩
  · rw [allocate_priority]
    exact h c hc
  · rw [suspend_priority]
    exact h c hc
  · rw [priority_dispatch]
    exact h c hc
  · rw [← h c hc]
    by_cases hcur : g.currentProcess = some c
    · unfold Globals.quantum
      rw [hcur]
      simp only []
      split_ifs <;> simp [Globals.terminate, Globals.setPcb, Globals.print] <;> omega
    · rw [quantum_pcb g hcur]

lemma classListed_mainLoop (lines : List Args) (n : ℕ) :
    ClassListed lines (Abstract.mainLoop lines n).globals := by
  apply (classListed_kept lines).mainLoop
  intro c hc
  rw [loaded_pcb hc]
  exact Iff.rfl

lemma classListed_updated (lines : List Args) (n : ℕ) :
    ClassListed lines (updated lines n).globals :=
  updated_kept (classListed_kept lines).toKeptByOffers (classListed_mainLoop lines n)

lemma priority_of_idle (hclass : Classed a) (hidle : a.globals.currentProcess = none)
    (hc : (a.selectProcess false).globals.currentProcess = some c) :
    (a.globals.pcb c).priority ≠ 0 := by
  rw [selectProcess_idle hidle] at hc
  cases hf : userQueues.find? fun m => a.queue m ≠ .null with
  | none =>
    rw [hf, hidle] at hc
    cases hc
  | some name =>
    have hmem : name ∈ userQueues := List.mem_of_find?_eq_some hf
    have huser : name ≠ .dispatcher ∧ name ≠ .realTimeQueue := by
      constructor <;> rintro rfl <;> simp [userQueues] at hmem
    rw [hf] at hc
    have hhead : (a.queue name).processes.head? = some c := by
      simpa [currentProcess_dispatchFrom, hidle] using hc
    intro hzero
    exact huser.2 ((Classed.head hclass huser.1 hhead).mp hzero)

lemma selected_ran (hflag : flag lines n = false)
    (hc : (selected lines n).globals.currentProcess = some c) (hzero : listed lines c = 0) :
    c ∈ quanta (updated lines n).globals.out := by
  rw [selected, hflag] at hc
  cases hcur : (updated lines n).globals.currentProcess with
  | none =>
    exfalso
    apply priority_of_idle (classed_updated lines n) hcur hc
    have hmem : c ∈ loaded lines := current_mem_loaded (n := n) (by rw [selected, hflag, hc])
    exact (classListed_updated lines n c hmem).mpr hzero
  | some d =>
    have hsame : (updated lines n).selectProcess false = updated lines n := by
      simp [Abstract.selectProcess, hcur]
    rw [hsame, hcur] at hc
    obtain rfl : d = c := Option.some.inj hc
    exact updated_kept (currentRan_kept _) (currentRan_mainLoop lines n) d hcur

lemma quanta_updated (lines : List Args) (n : ℕ) :
    quanta (updated lines n).globals.out = quanta (Abstract.mainLoop lines n).globals.out := by
  have hk : KeptByOffers (loaded lines) fun g =>
      quanta g.out = quanta (Abstract.mainLoop lines n).globals.out := by
    refine ⟨fun g h d _ => h, fun g h d => ?_⟩
    simpa [quanta, Globals.print] using h
  exact updated_kept hk rfl

lemma quanta_mainLoop_succ (lines : List Args) (n : ℕ) :
    quanta (Abstract.mainLoop lines (n + 1)).globals.out =
      quanta (Abstract.mainLoop lines n).globals.out ++
        (selected lines n).globals.currentProcess.toList := by
  rw [mainLoop_succ_globals, quanta_quantum, selected, quanta_selectProcess, quanta_updated]

lemma card_realTimeRun_succ (lines : List Args) (n : ℕ) :
    (realTimeRun lines (Abstract.mainLoop lines (n + 1)).globals.out).card ≤
      (realTimeRun lines (Abstract.mainLoop lines n).globals.out).card +
        if flag lines n then 1 else 0 := by
  unfold realTimeRun
  rw [quanta_mainLoop_succ]
  cases hcur : (selected lines n).globals.currentProcess with
  | none => simp
  | some c =>
    rw [Option.toList_some, List.toFinset_append, List.toFinset_cons, List.toFinset_nil,
      Finset.filter_union]
    by_cases hflag : flag lines n = true
    · rw [if_pos hflag]
      apply (Finset.card_union_le _ _).trans
      gcongr
      exact (Finset.card_filter_le _ _).trans (by simp)
    · rw [if_neg hflag, Nat.add_zero]
      apply Finset.card_le_card
      apply Finset.union_subset (Finset.Subset.refl _)
      intro d hd
      obtain ⟨hdc, hzero⟩ := Finset.mem_filter.mp hd
      obtain rfl : d = c := by simpa using hdc
      have hran := selected_ran (by simpa using hflag) hcur hzero
      rw [quanta_updated] at hran
      exact Finset.mem_filter.mpr ⟨List.mem_toFinset.mpr hran, hzero⟩

/-- No more real-time processes ever run than there are passes that announce one: of several that
are admitted together all but one wait for later ones to arrive. -/
theorem realTimeRun_le (lines : List Args) (n : ℕ) :
    ∃ s, mainLoop lines n = some s ∧
      (realTimeRun lines s.globals.out).card ≤ (List.range n).countP (announces lines) := by
  obtain ⟨s, hs, hsim, -⟩ := simulates_mainLoop lines n
  refine ⟨s, hs, ?_⟩
  rw [hsim.2]
  clear hs hsim s
  induction n with
  | zero =>
    rw [mainLoop_zero_globals]
    exact Nat.le_refl 0
  | succ n ih =>
    rw [List.range_succ, List.countP_append, List.countP_singleton, announces_eq]
    exact (card_realTimeRun_succ lines n).trans (by gcongr)

end RealTime

end Eece315.DispatcherStarvation
