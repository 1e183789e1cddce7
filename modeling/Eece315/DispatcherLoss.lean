import Eece315.DispatcherLedger

/-! Which processes `main` loses. The program keeps every process it has read exactly as long as
no call of `enqueueToPriority` finds a queue whose first node is occupied but unmarked. -/
namespace Eece315.DispatcherLoss
open HeapChain DispatcherQueue DispatcherResources DispatcherSystem DispatcherAbstract

/-- The places where a process can be found, and the report of its termination. -/
def Accounted (s : System) (c : ℕ) : Prop :=
  c ∈ s.processes .dispatcher ∨ c ∈ s.processes .realTimeQueue ∨ c ∈ s.processes .p1Queue ∨
    c ∈ s.processes .p2Queue ∨ c ∈ s.processes .p3Queue ∨ s.globals.currentProcess = some c ∨
      .terminated c ∈ s.globals.out

instance (s : System) (c : ℕ) : Decidable (Accounted s c) := inferInstanceAs (Decidable (_ ∨ _))

/-- The calls of `enqueueToPriority` in one iteration from `s`: the state the call is made in
and its process. -/
inductive EnqueueCall (time : ℤ) (s : System) : System → ℕ → Prop
  | admission {st : Offering} {c : ℕ} (loop : LoopState time s st)
      (next : (processes st.system.heap st.queuePtr).head? = some c)
      (arrived : time ≥ (st.system.globals.pcb c).arrivalTime)
      (granted : (st.system.globals.allocate c).1 ≠ 0) :
      EnqueueCall time s
        { st.system with globals := (st.system.globals.allocate c).2.print (.initialized c) } c
  | suspension {s₁ : System} {c : ℕ} (update : updateDispatcher time s = some (true, s₁))
      (current : s₁.globals.currentProcess = some c) (user : (s₁.globals.pcb c).priority ≠ 0) :
      EnqueueCall time s { s₁ with globals := s₁.globals.suspend c } c
  | expiry {rt : Bool} {s₁ s₂ : System} {c : ℕ}
      (update : updateDispatcher time s = some (rt, s₁))
      (select : selectProcess rt s₁ = some s₂) (expired : s₂.globals.quantum.2 = some c) :
      EnqueueCall time s { s₂ with globals := s₂.globals.quantum.1 } c

/-- The queue that process `c` is to be put in starts with an occupied, unmarked node. -/
def Overwrites (s : System) (c : ℕ) : Prop :=
  HeadUnmarked s.heap (s.queue (priorityQueue (s.globals.pcb c).priority))

lemma overwrites_iff {s : System} {a : Abstract} (h : Simulates s a) (c : ℕ) :
    Overwrites s c ↔ a.overwritten c ≠ 0 := by
  rw [Overwrites, h.1.headUnmarked_iff, h.2, Abstract.overwritten, Abstract.queueOf]
  cases (a.queue (priorityQueue (a.globals.pcb c).priority)).overwritten <;> simp

section Calls

variable {s : System} {a : Abstract} {time : ℤ}

lemma SimulatesOffers.overwrites_iff {st : Offering} {rest : Shape} {b : Offers}
    (h : SimulatesOffers st rest b) (c : ℕ) :
    Overwrites { st.system with globals := (st.system.globals.allocate c).2.print (.initialized c) }
        c ↔ b.system.overwritten c ≠ 0 := by
  obtain ⟨hm, hg, -, -⟩ := h
  have hp : (((st.system.globals.allocate c).2.print (.initialized c)).pcb c).priority =
      (b.system.globals.pcb c).priority := by
    rw [hg]
    exact allocate_priority _ c c
  rw [Overwrites, hp, Abstract.overwritten, Abstract.queueOf]
  have hi := hm.headUnmarked_iff (some (priorityQueue (b.system.globals.pcb c).priority))
  have hne := priorityQueue_ne_dispatcher (b.system.globals.pcb c).priority
  cases hname : priorityQueue (b.system.globals.pcb c).priority with
  | dispatcher => exact absurd hname hne
  | _ =>
    rw [hname] at hi
    apply hi.trans
    simp only [offerShape]
    rw [Ne, Ne, Multiset.coe_eq_zero, Option.toList_eq_nil_iff]

lemma lostByOffers_ne_zero (time : ℤ) (cs : List ℕ) (b : Offers) :
    lostByOffers time cs b ≠ 0 ↔
      ∃ done c later, cs = done ++ c :: later ∧
        (done.foldl (Offers.offer time) b).lost time c ≠ 0 := by
  induction cs generalizing b with
  | nil => simp [lostByOffers]
  | cons c cs ih =>
    rw [lostByOffers, Ne, add_eq_zero, not_and_or, ← Ne, ← Ne, ih]
    constructor
    · rintro (h | ⟨done, d, later, rfl, h⟩)
      · exact ⟨[], c, cs, rfl, h⟩
      · exact ⟨c :: done, d, later, rfl, h⟩
    · rintro ⟨_ | ⟨e, done⟩, d, later, he, h⟩
      · obtain ⟨rfl, rfl⟩ := List.cons.inj he
        exact .inl h
      · obtain ⟨rfl, rfl⟩ := List.cons.inj he
        exact .inr ⟨done, d, later, rfl, h⟩

lemma lostByUpdate_ne_zero (hs : Simulates s a) :
    a.lostByUpdate time ≠ 0 ↔ ∃ st c, LoopState time s st ∧
      (processes st.system.heap st.queuePtr).head? = some c ∧
      time ≥ (st.system.globals.pcb c).arrivalTime ∧ (st.system.globals.allocate c).1 ≠ 0 ∧
      Overwrites
        { st.system with globals := (st.system.globals.allocate c).2.print (.initialized c) } c
    := by
  have hhead {st : Offering} {rest : Shape} {b : Offers} (h : SimulatesOffers st rest b) :
      processes st.system.heap st.queuePtr = rest.processes :=
    h.1.processes_eq (some .dispatcher)
  rw [Abstract.lostByUpdate, lostByOffers_ne_zero]
  constructor
  · rintro ⟨done, c, later, hd, hlost⟩
    obtain ⟨st, rest, hst, hl, hsim⟩ := exists_loopState time hs hd
    have hadm : (a.offers time done).Admits time c := by
      by_contra hn
      exact hlost (if_neg hn)
    refine ⟨st, c, hst, by rw [hhead hsim, hl]; rfl, ?_, ?_, ?_⟩
    · rw [hsim.2.1]
      exact hadm.1
    · rw [hsim.2.1]
      exact hadm.2
    · rw [SimulatesOffers.overwrites_iff hsim]
      change (a.offers time done).lost time c ≠ 0 at hlost
      rwa [Offers.lost, if_pos hadm] at hlost
  · rintro ⟨st, c, hst, hnext, harr, hgr, hover⟩
    obtain ⟨done, later, rest, hd, hl, hsim⟩ := LoopState.simulates hs hst
    rw [hhead hsim, hl] at hnext
    obtain ⟨later, rfl⟩ : ∃ cs, later = c :: cs := by
      cases later with
      | nil => cases hnext
      | cons d cs => exact ⟨cs, by rw [Option.some.inj hnext]⟩
    rw [hsim.2.1] at harr hgr
    refine ⟨done, c, later, hd, ?_⟩
    change (a.offers time done).lost time c ≠ 0
    rw [Offers.lost, if_pos (show (a.offers time done).Admits time c from ⟨harr, hgr⟩)]
    exact (SimulatesOffers.overwrites_iff hsim c).mp hover

lemma lostBySelect_ne_zero {rt : Bool} :
    a.lostBySelect rt ≠ 0 ↔ ∃ c, a.globals.currentProcess = some c ∧
      (a.globals.pcb c).priority ≠ 0 ∧ rt = true ∧ a.overwritten c ≠ 0 := by
  unfold Abstract.lostBySelect
  cases a.globals.currentProcess with
  | none => simp
  | some c =>
    by_cases h : (a.globals.pcb c).priority ≠ 0 ∧ rt = true
    · simp [h.1, h.2]
    · simp only [if_neg h, ne_eq, not_true_eq_false, Option.some.injEq, false_iff]
      rintro ⟨d, rfl, hp, hrt, -⟩
      exact h ⟨hp, hrt⟩

lemma lostByRun_ne_zero : a.lostByRun ≠ 0 ↔ ∃ c, a.globals.quantum.2 = some c ∧
    ({ a with globals := a.globals.quantum.1 } : Abstract).overwritten c ≠ 0 := by
  unfold Abstract.lostByRun
  rcases a.globals.quantum with ⟨g, _ | c⟩ <;> simp

/-- An iteration loses a process exactly when one of its enqueues overwrites one. -/
theorem lost_ne_zero_iff (time : ℤ) (hs : Simulates s a) (hd : a.queue .dispatcher ≠ .null) :
    a.lost time ≠ 0 ↔ ∃ s' c, EnqueueCall time s s' c ∧ Overwrites s' c := by
  obtain ⟨s₁, hu, hs₁⟩ := hs.updateDispatcher hd time
  obtain ⟨s₂, hsel, hs₂⟩ := hs₁.selectProcess fun hrt =>
    ne_null_of_processes (updateDispatcher_realTime time a hrt)
  set rt := (a.updateDispatcher time).1
  set b := (a.updateDispatcher time).2
  have hsplit : a.lost time ≠ 0 ↔ a.lostByUpdate time ≠ 0 ∨ b.lostBySelect rt ≠ 0 ∨
      (b.selectProcess rt).lostByRun ≠ 0 := by
    change a.lostByUpdate time + (b.lostBySelect rt + (b.selectProcess rt).lostByRun) ≠ 0 ↔ _
    simp only [ne_eq, add_eq_zero, not_and_or]
  have hsuspend (c : ℕ) : Overwrites { s₁ with globals := s₁.globals.suspend c } c ↔
      b.overwritten c ≠ 0 := by
    have hp : ((s₁.globals.suspend c).pcb c).priority = (s₁.globals.pcb c).priority := by
      simp [Globals.suspend, Globals.setPcb, Globals.print]
    rw [← overwrites_iff hs₁, Overwrites, Overwrites, hp]
  have hexpire (c : ℕ) : Overwrites { s₂ with globals := s₂.globals.quantum.1 } c ↔
      ({ b.selectProcess rt with
        globals := (b.selectProcess rt).globals.quantum.1 } : Abstract).overwritten c ≠ 0 :=
    overwrites_iff (hs₂.setGlobals (by rw [hs₂.2])) c
  rw [hsplit, lostByUpdate_ne_zero hs, lostBySelect_ne_zero, lostByRun_ne_zero, ← hs₁.2, ← hs₂.2]
  constructor
  · rintro (⟨st, c, hst, hnext, harr, hgr, hover⟩ | ⟨c, hcur, hp, hrt, hover⟩ | ⟨c, hq, hover⟩)
    · exact ⟨_, c, .admission hst hnext harr hgr, hover⟩
    · exact ⟨_, c, .suspension (hrt ▸ hu) hcur hp, (hsuspend c).mpr hover⟩
    · rw [hs₂.2] at hover
      exact ⟨_, c, .expiry hu hsel hq, (hexpire c).mpr hover⟩
  · rintro ⟨s', c, hcall, hover⟩
    cases hcall with
    | admission hst hnext harr hgr => exact .inl ⟨_, c, hst, hnext, harr, hgr, hover⟩
    | suspension hu' hcur hp =>
      obtain ⟨hrt, rfl⟩ : true = rt ∧ _ = s₁ := by simpa using hu'.symm.trans hu
      exact .inr (.inl ⟨c, hcur, hp, hrt.symm, (hsuspend c).mp hover⟩)
    | expiry hu' hsel' hq =>
      obtain ⟨rfl, rfl⟩ : _ = rt ∧ _ = s₁ := by simpa using hu'.symm.trans hu
      obtain rfl : _ = s₂ := Option.some.inj (hsel'.symm.trans hsel)
      refine .inr (.inr ⟨c, hq, ?_⟩)
      rw [hs₂.2]
      exact (hexpire c).mp hover

end Calls

lemma accounted_iff {s : System} {a : Abstract} (h : Simulates s a)
    (hu : a.queue .userJobQueue = .empty) (c : ℕ) : Accounted s c ↔ c ∈ a.ledger := by
  have hterm : c ∈ terminated a.globals.out ↔ .terminated c ∈ a.globals.out := by
    simp only [terminated, List.mem_filterMap]
    constructor
    · rintro ⟨e, he, hc⟩
      cases e <;> simp_all
    · exact fun hc => ⟨_, hc, rfl⟩
  have hsum : c ∈ ∑ name, ((a.queue name).processes : Multiset ℕ) ↔
      ∃ name, c ∈ (a.queue name).processes := by
    simp [Multiset.mem_sum]
  simp only [Accounted, h.processes_eq, h.2, Abstract.ledger, Globals.ledger, Multiset.mem_add,
    hsum, Multiset.mem_coe, hterm, Option.mem_toList]
  constructor
  · rintro (hc | hc | hc | hc | hc | hc | hc)
    · exact .inl ⟨_, hc⟩
    · exact .inl ⟨_, hc⟩
    · exact .inl ⟨_, hc⟩
    · exact .inl ⟨_, hc⟩
    · exact .inl ⟨_, hc⟩
    · exact .inr (.inl hc)
    · exact .inr (.inr hc)
  · rintro (⟨name, hc⟩ | hc | hc)
    · cases name with
      | userJobQueue => simp [hu] at hc
      | _ => simp [hc]
    · simp [hc]
    · simp [hc]

/-- After `n` iterations every process of the file has been accounted for all along exactly when
no enqueue has found an occupied, unmarked first node. -/
theorem accounted_iff_no_overwrite (lines : List Args) (n : ℕ) :
    (∀ k ≤ n, ∃ s, mainLoop lines k = some s ∧ ∀ c ∈ loaded lines, Accounted s c) ↔
      ∀ k < n, ∀ s, mainLoop lines k = some s →
        ∀ s' c, EnqueueCall k s s' c → ¬ Overwrites s' c := by
  set L : ℕ → Multiset ℕ := fun k => (Abstract.mainLoop lines k).ledger with hL
  have hstep (k : ℕ) : L (k + 1) + (Abstract.mainLoop lines k).lost k = L k :=
    Abstract.ledger_iteration k _
  have hzero : L 0 = (loaded lines : Multiset ℕ) := ledger_mainLoop_zero lines
  have hacc (k : ℕ) : (∃ s, mainLoop lines k = some s ∧ ∀ c ∈ loaded lines, Accounted s c) ↔
      ∀ c ∈ loaded lines, c ∈ L k := by
    obtain ⟨s, hs, hsim, -⟩ := simulates_mainLoop lines k
    simp only [hs, Option.some.injEq, exists_eq_left',
      accounted_iff hsim (mainLoop_userJobQueue lines k), hL]
  have hlost (k : ℕ) : (∀ s, mainLoop lines k = some s →
      ∀ s' c, EnqueueCall k s s' c → ¬ Overwrites s' c) ↔
        (Abstract.mainLoop lines k).lost k = 0 := by
    obtain ⟨s, hs, hsim, hd⟩ := simulates_mainLoop lines k
    have hiff := lost_ne_zero_iff k hsim hd
    rw [← not_iff_not, ← Ne, hiff]
    simp [hs]
  simp only [hacc, hlost]
  constructor
  · intro h k hk
    by_contra hne
    have hlt : Multiset.card (L (k + 1)) < Multiset.card (L k) := by
      rw [← hstep k, Multiset.card_add]
      have := Multiset.card_pos.mpr hne
      omega
    have hle : (loaded lines : Multiset ℕ) ≤ L (k + 1) :=
      (Multiset.le_iff_subset (nodup_loaded lines)).mpr
        fun c hc => h (k + 1) hk c (Multiset.mem_coe.mp hc)
    have hcard := Multiset.card_le_card (ledger_mainLoop_le lines k)
    exact absurd (Multiset.card_le_card hle) (not_le_of_gt (hlt.trans_le hcard))
  · intro h k hk
    have hconst (j : ℕ) (hj : j ≤ n) : L j = L 0 := by
      induction j with
      | zero => rfl
      | succ j ih =>
        have := hstep j
        rw [h j (by omega), add_zero] at this
        rw [this, ih (by omega)]
    intro c hc
    rw [hconst k hk, hzero]
    exact Multiset.mem_coe.mpr hc

/-- Two real-time processes arrive together and a third one a tick later: the third takes the
place of the second, which is still waiting. -/
theorem accounted_fails : ¬ ∀ lines n s, mainLoop lines n = some s →
    ∀ c ∈ loaded lines, Accounted s c := by
  intro h
  let lines : List Args :=
    [![0, 0, 1, 0, 0, 0, 0, 0], ![0, 0, 1, 0, 0, 0, 0, 0], ![1, 0, 1, 0, 0, 0, 0, 0]]
  have hlost : (mainLoop lines 2).map (fun s => decide (Accounted s 2)) = some false := by
    decide +kernel
  obtain ⟨s, hs, hacc⟩ := Option.map_eq_some_iff.mp hlost
  exact of_decide_eq_false hacc (h lines 2 s hs 2 (by decide))

end Eece315.DispatcherLoss
