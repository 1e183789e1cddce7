import Eece315.DispatcherClasses
import Eece315.DispatcherGrants

/-! Who owns the cells of the host tables. An admitted process keeps its cells until it
terminates as long as no failed attempt clears cells that the handles of an earlier one name. -/
namespace Eece315.DispatcherOwnership
open SegmentTable HeapChain DispatcherQueue DispatcherResources DispatcherSystem
open DispatcherAbstract

/-- Process `c` has been given its resources and has not terminated. -/
def Admitted (g : Globals) (c : ℕ) : Prop := .initialized c ∈ g.out ∧ .terminated c ∉ g.out

instance (g : Globals) (c : ℕ) : Decidable (Admitted g c) := inferInstanceAs (Decidable (_ ∧ _))

/-- Every cell of its grants carries the pid of the process. -/
def Owns (g : Globals) (c : ℕ) : Prop :=
  ∀ k, Covers (g.host.alloc k) ((g.pcb c).io k).startID
    (((g.pcb c).io k).startID + ((g.pcb c).io k).held) (g.pcb c).pid

def Exclusive (g : Globals) : Prop := ∀ c, Admitted g c → Owns g c

/-- Some kind does not fit although an earlier attempt found room for it, and a cell found then
has a label now. -/
def Clobbers (g : Globals) (c : ℕ) : Prop :=
  ∃ k, ¬ Fits (g.pcb c) g.host k ∧ ((g.pcb c).io k).startID ≠ -1 ∧
    ∃ (i : ℕ) (v : ℤ), ((g.pcb c).io k).startID ≤ i ∧
      i < ((g.pcb c).io k).startID + ((g.pcb c).io k).held ∧
      (g.host.alloc k)[i]? = some v ∧ v ≠ 0

/-- Labels and handles agree, and the processes that wait for resources own nothing. -/
structure Sound (g : Globals) (pending : List ℕ) : Prop where
  owns : Exclusive g
  pid : ∀ c, c ∈ pending ∨ .initialized c ∈ g.out → (g.pcb c).pid = c ∧ c ≠ 0
  fresh : ∀ c ∈ pending, .initialized c ∉ g.out ∧ .terminated c ∉ g.out
  unasked : ∀ c ∈ pending, ∀ k, ((g.pcb c).io k).needed = 0 →
    ((g.pcb c).io k).startID = -1 ∧ ((g.pcb c).io k).held = 0
  label : ∀ k (i : ℕ) v, (g.host.alloc k)[i]? = some v → v ≠ 0 →
    ∃ c, Admitted g c ∧ ((g.pcb c).io k).startID ≤ i ∧
      i < ((g.pcb c).io k).startID + ((g.pcb c).io k).held

section Steps

variable {g g' : Globals} {pending : List ℕ} {c d : ℕ}

lemma Sound.mono (h : Sound g pending) {fewer : List ℕ} (hs : ∀ c ∈ fewer, c ∈ pending) :
    Sound g fewer :=
  ⟨h.owns, fun c hc => h.pid c (hc.imp_left (hs c)), fun c hc => h.fresh c (hs c hc),
    fun c hc => h.unasked c (hs c hc), h.label⟩

lemma Sound.admitted_pid (h : Sound g pending) (hc : Admitted g c) :
    (g.pcb c).pid = c ∧ c ≠ 0 := h.pid c (.inr hc.1)

lemma Sound.admitted_ne (h : Sound g pending) (hd : Admitted g d) (hc : c ∈ pending) : d ≠ c :=
  fun he => (h.fresh c hc).1 (he ▸ hd.1)

lemma Sound.congr (h : Sound g pending)
    (hpcb : ∀ d, (g'.pcb d).pid = (g.pcb d).pid ∧ (g'.pcb d).io = (g.pcb d).io)
    (hhost : g'.host = g.host)
    (hinit : ∀ d, Event.initialized d ∈ g'.out ↔ .initialized d ∈ g.out)
    (hterm : ∀ d, Event.terminated d ∈ g'.out ↔ .terminated d ∈ g.out) : Sound g' pending := by
  have hadm (d : ℕ) : Admitted g' d ↔ Admitted g d := by rw [Admitted, Admitted, hinit, hterm]
  refine ⟨fun d hd k => ?_, fun d hd => ?_, fun d hd => ?_, fun d hd k => ?_, fun k i v hi hv => ?_⟩
  · rw [hhost, (hpcb d).1, (hpcb d).2]
    exact h.owns d ((hadm d).mp hd) k
  · rw [(hpcb d).1]
    exact h.pid d (hd.imp_right (hinit d).mp)
  · rw [hinit, hterm]
    exact h.fresh d hd
  · rw [(hpcb d).2]
    exact h.unasked d hd k
  · rw [hhost] at hi
    obtain ⟨d, hd, hrange⟩ := h.label k i v hi hv
    exact ⟨d, (hadm d).mpr hd, by rwa [(hpcb d).2]⟩

lemma allocate_fits (hf : ∀ k, Fits (g.pcb c) g.host k) :
    (g.allocate c).2.host = ⟨attemptCells (g.pcb c) g.host⟩ := by
  have h : (g.allocate c).2.host = (allocateResources (g.pcb c) g.host).2.2 := rfl
  rw [h, allocateResources_eq, if_pos hf]

lemma allocate_fails (hf : ¬ ∀ k, Fits (g.pcb c) g.host k) :
    (g.allocate c).2.host = freeHostResources (attempted (g.pcb c) g.host)
      ⟨attemptCells (g.pcb c) g.host⟩ := by
  have h : (g.allocate c).2.host = (allocateResources (g.pcb c) g.host).2.2 := rfl
  rw [h, allocateResources_eq, if_neg hf]

lemma allocate_pcb_self (g : Globals) (c : ℕ) :
    (g.allocate c).2.pcb c = attempted (g.pcb c) g.host := by
  rw [allocate_pcb, Function.update_self]

lemma allocate_pcb_of_ne (g : Globals) (h : d ≠ c) : (g.allocate c).2.pcb d = g.pcb d := by
  rw [allocate_pcb, Function.update_of_ne h]

lemma allocate_unasked (h : ∀ k, ((g.pcb d).io k).needed = 0 →
      ((g.pcb d).io k).startID = -1 ∧ ((g.pcb d).io k).held = 0) (k : Resource)
    (hn : (((g.allocate c).2.pcb d).io k).needed = 0) :
    (((g.allocate c).2.pcb d).io k).startID = -1 ∧ (((g.allocate c).2.pcb d).io k).held = 0 := by
  by_cases hdc : d = c
  · subst hdc
    rw [allocate_pcb_self] at hn ⊢
    have hneed : ((g.pcb d).io k).needed = 0 := by
      rwa [← attemptGrant_needed _ g.host]
    have hrenew : ¬ Renews (g.pcb d) g.host k := fun hr => hr.1 hneed
    change (attemptGrant (g.pcb d) g.host k).startID = -1 ∧
      (attemptGrant (g.pcb d) g.host k).held = 0
    rw [attemptGrant_of_not hrenew]
    exact h k hneed
  · rw [allocate_pcb_of_ne g hdc] at hn ⊢
    exact h k hn

lemma allocate_pid (g : Globals) (c d : ℕ) : ((g.allocate c).2.pcb d).pid = (g.pcb d).pid := by
  by_cases hdc : d = c
  · subst hdc
    rw [allocate_pcb_self]
    rfl
  · rw [allocate_pcb_of_ne g hdc]

lemma admitted_initialized (h : Sound g (c :: pending)) (d : ℕ) :
    Admitted ((g.allocate c).2.print (.initialized c)) d ↔ Admitted g d ∨ d = c := by
  have hinit : Event.initialized d ∈ g.out ++ [.initialized c] ↔
      .initialized d ∈ g.out ∨ d = c := by simp
  have hterm : Event.terminated d ∈ g.out ++ [.initialized c] ↔ .terminated d ∈ g.out := by simp
  change Event.initialized d ∈ g.out ++ [.initialized c] ∧
    Event.terminated d ∉ g.out ++ [.initialized c] ↔ _
  rw [hinit, hterm, Admitted]
  constructor
  · rintro ⟨hi | rfl, ht⟩
    · exact .inl ⟨hi, ht⟩
    · exact .inr rfl
  · rintro (⟨hi, ht⟩ | rfl)
    · exact ⟨.inl hi, ht⟩
    · exact ⟨.inr rfl, (h.fresh d List.mem_cons_self).2⟩

lemma owns_allocated (h : Sound g (c :: pending)) (hf : ∀ k, Fits (g.pcb c) g.host k)
    (k : Resource) : Covers (attemptCells (g.pcb c) g.host k)
      (attemptGrant (g.pcb c) g.host k).startID
      ((attemptGrant (g.pcb c) g.host k).startID + (attemptGrant (g.pcb c) g.host k).held)
      (g.pcb c).pid := by
  by_cases hr : Renews (g.pcb c) g.host k
  · rw [hr.cells]
    exact hr.free.2.fill
  · have hn : ((g.pcb c).io k).needed = 0 := by
      by_contra hn
      exact hr ((renews_iff hn).mpr (hf k))
    have hu := h.unasked c List.mem_cons_self k hn
    rw [attemptGrant_of_not hr, hu.2, add_zero]
    exact fun j hj hj' => absurd hj' (not_lt.mpr hj)

lemma owns_kept (h : Sound g pending) {d : ℕ} (hd : Admitted g d) (c : ℕ) (k : Resource) :
    Covers (attemptCells (g.pcb c) g.host k) ((g.pcb d).io k).startID
      (((g.pcb d).io k).startID + ((g.pcb d).io k).held) (g.pcb d).pid := by
  intro j hj hj'
  obtain ⟨hj0, hcell⟩ := h.owns d hd k j hj hj'
  have hpid : (g.pcb d).pid ≠ 0 := by
    rw [(h.admitted_pid hd).1]
    exact_mod_cast (h.admitted_pid hd).2
  exact ⟨hj0, attemptCells_of_label hpid hcell⟩

lemma Sound.enlist (h : Sound g (c :: pending)) (hc : c ∉ pending)
    (hf : ∀ k, Fits (g.pcb c) g.host k) :
    Sound ((g.allocate c).2.print (.initialized c)) pending := by
  have hmem : c ∈ c :: pending := List.mem_cons_self
  have hout : ((g.allocate c).2.print (.initialized c)).out = g.out ++ [.initialized c] := rfl
  have hhost : ((g.allocate c).2.print (.initialized c)).host =
      ⟨attemptCells (g.pcb c) g.host⟩ := allocate_fits hf
  have hpcb (d : ℕ) : ((g.allocate c).2.print (.initialized c)).pcb d =
      (g.allocate c).2.pcb d := rfl
  refine ⟨fun d hd k => ?_, fun d hd => ?_, fun d hd => ?_, fun d hd k hn => ?_,
    fun k i v hi hv => ?_⟩
  · rw [hhost, hpcb]
    rcases (admitted_initialized h d).mp hd with hd | rfl
    · rw [allocate_pcb_of_ne g (h.admitted_ne hd hmem)]
      exact owns_kept h hd c k
    · rw [allocate_pcb_self]
      exact owns_allocated h hf k
  · rw [hpcb, allocate_pid]
    apply h.pid d
    rw [hout, List.mem_append, List.mem_singleton, Event.initialized.injEq] at hd
    rcases hd with hd | hd | rfl
    · exact .inl (List.mem_cons_of_mem _ hd)
    · exact .inr hd
    · exact .inl hmem
  · have hfresh := h.fresh d (List.mem_cons_of_mem _ hd)
    have hdc : d ≠ c := fun heq => hc (heq ▸ hd)
    simpa [hout, hdc] using hfresh
  · exact allocate_unasked (h.unasked d (List.mem_cons_of_mem _ hd)) k hn
  · rw [hhost] at hi
    rcases label_of_attemptCells hi with hi | ⟨-, -, hrange⟩
    · obtain ⟨d, hd, hrange⟩ := h.label k i v hi hv
      refine ⟨d, (admitted_initialized h d).mpr (.inl hd), ?_⟩
      rwa [hpcb, allocate_pcb_of_ne g (h.admitted_ne hd hmem)]
    · refine ⟨c, (admitted_initialized h c).mpr (.inr rfl), ?_⟩
      rwa [hpcb, allocate_pcb_self]

lemma failed_host (hf : ¬ ∀ k, Fits (g.pcb c) g.host k) (hu : ∀ k, ((g.pcb c).io k).needed = 0 →
    ((g.pcb c).io k).startID = -1 ∧ ((g.pcb c).io k).held = 0) (hn : ¬ Clobbers g c) :
    (g.allocate c).2.host = g.host := by
  rw [allocate_fails hf]
  apply Host.ext
  intro k
  rw [failed_cells]
  split_ifs with hr
  · rfl
  · rw [freedCells]
    split_ifs with hs
    · have hneed : ((g.pcb c).io k).needed ≠ 0 := fun hz => hs (hu k hz).1
      have hfit : ¬ Fits (g.pcb c) g.host k := mt (renews_iff hneed).mpr hr
      apply fill_eq_self
      intro i hi hi' v hv
      by_contra hne
      exact hn ⟨k, hfit, hs, i, v, hi, hi', hv, hne⟩
    · rfl

lemma Sound.refuse (h : Sound g pending) (hc : c ∈ pending)
    (hf : ¬ ∀ k, Fits (g.pcb c) g.host k) (hn : ¬ Clobbers g c) :
    Sound (g.allocate c).2 pending := by
  have hhost := failed_host hf (h.unasked c hc) hn
  have hsame {d : ℕ} (hd : Admitted g d) : (g.allocate c).2.pcb d = g.pcb d :=
    allocate_pcb_of_ne g (h.admitted_ne hd hc)
  refine ⟨fun d hd k => ?_, fun d hd => ?_, h.fresh, fun d hd => allocate_unasked (h.unasked d hd),
    fun k i v hi hv => ?_⟩
  · rw [hhost, hsame hd]
    exact h.owns d hd k
  · rw [allocate_pid]
    exact h.pid d hd
  · rw [hhost] at hi
    obtain ⟨d, hd, hrange⟩ := h.label k i v hi hv
    exact ⟨d, hd, by rwa [hsame hd]⟩

lemma Sound.not_exclusive (h : Sound g pending) (hc : c ∈ pending) (hclob : Clobbers g c) :
    ¬ Exclusive (g.allocate c).2 := by
  obtain ⟨k, hfit, hs, i, v, hi, hi', hv, hne⟩ := hclob
  obtain ⟨d, hd, hdi, hdi'⟩ := h.label k i v hv hne
  intro hex
  have hcell := (hex d hd k i (by rwa [allocate_pcb_of_ne g (h.admitted_ne hd hc)])
    (by rwa [allocate_pcb_of_ne g (h.admitted_ne hd hc)])).2
  have hneed : ((g.pcb c).io k).needed ≠ 0 := fun hz => hfit (.inl hz)
  rw [allocate_fails fun hf => hfit (hf k), failed_cells,
    if_neg (mt (renews_iff hneed).mp hfit), freedCells, if_pos hs, Int.toNat_natCast,
    getElem?_fill, if_pos ⟨hi, hi'⟩, hv, Option.map_some, allocate_pid,
    (h.admitted_pid hd).1] at hcell
  exact (h.admitted_pid hd).2 (by exact_mod_cast (Option.some.inj hcell).symm)

lemma terminate_pcb (g : Globals) (c d : ℕ) :
    ((g.terminate c).pcb d).pid = (g.pcb d).pid ∧ ((g.terminate c).pcb d).io = (g.pcb d).io := by
  by_cases hd : d = c
  · subst hd
    simp [Globals.terminate, Globals.setPcb, Globals.print]
  · simp [Globals.terminate, Globals.setPcb, Globals.print, Function.update_of_ne hd]

lemma Sound.terminate (h : Sound g pending) (hc : Admitted g c) :
    Sound (g.terminate c) pending := by
  have hout : (g.terminate c).out = g.out ++ [.terminated c] := rfl
  have hcells (k : Resource) : (g.terminate c).host.alloc k = freedCells (g.pcb c) g.host k :=
    freeHostResources_alloc _ _ k
  have hinit (d : ℕ) : Event.initialized d ∈ g.out ++ [.terminated c] ↔
      .initialized d ∈ g.out := by simp
  have hterm (d : ℕ) : Event.terminated d ∈ g.out ++ [.terminated c] ↔
      .terminated d ∈ g.out ∨ d = c := by simp
  have hadm (d : ℕ) : Admitted (g.terminate c) d ↔ Admitted g d ∧ d ≠ c := by
    rw [Admitted, hout, hinit, hterm, Admitted, not_or, and_assoc]
  refine ⟨fun d hd k => ?_, fun d hd => ?_, fun d hd => ?_, fun d hd k => ?_,
    fun k i v hi hv => ?_⟩
  · obtain ⟨hd, hdc⟩ := (hadm d).mp hd
    rw [hcells, (terminate_pcb g c d).1, (terminate_pcb g c d).2, freedCells]
    split_ifs
    · refine (h.owns d hd k).fill_disjoint ((h.owns d hd k).disjoint (h.owns c hc k) ?_)
      rw [(h.admitted_pid hd).1, (h.admitted_pid hc).1]
      exact_mod_cast hdc
    · exact h.owns d hd k
  · rw [(terminate_pcb g c d).1]
    rw [hout, hinit] at hd
    exact h.pid d hd
  · rw [hout, hinit, hterm]
    have hfresh := h.fresh d hd
    refine ⟨hfresh.1, ?_⟩
    rintro (ht | rfl)
    · exact hfresh.2 ht
    · exact hfresh.1 hc.1
  · rw [(terminate_pcb g c d).2]
    exact h.unasked d hd k
  · rw [hcells, freedCells] at hi
    have hold : (g.host.alloc k)[i]? = some v ∧ ¬ (((g.pcb c).io k).startID ≤ i ∧
        (i : ℤ) < ((g.pcb c).io k).startID + ((g.pcb c).io k).held) := by
      split_ifs at hi with hs
      · rw [getElem?_fill] at hi
        split_ifs at hi with hin
        · obtain ⟨u, -, hu⟩ := Option.map_eq_some_iff.mp hi
          exact absurd hu.symm hv
        · exact ⟨hi, hin⟩
      · -- a grant that starts at -1 has no cell
        refine ⟨hi, fun hin => ?_⟩
        have hfirst := (h.owns c hc k (-1) (by omega) (by omega)).1
        omega
    obtain ⟨d, hd, hrange⟩ := h.label k i v hold.1 hv
    refine ⟨d, (hadm d).mpr ⟨hd, fun he => hold.2 (he ▸ hrange)⟩, ?_⟩
    rwa [(terminate_pcb g c d).2]

lemma Sound.quantum (h : Sound g pending)
    (hcur : ∀ c, g.currentProcess = some c → Admitted g c) : Sound g.quantum.1 pending := by
  unfold Globals.quantum
  cases hc : g.currentProcess with
  | none => exact h
  | some c =>
    have hrun (p : PCB) (hp : p.pid = (g.pcb c).pid ∧ p.io = (g.pcb c).io) :
        Sound ((g.setPcb c p).print (.running c)) pending := by
      refine h.congr (fun d => ?_) rfl (fun d => by simp [Globals.setPcb, Globals.print])
        fun d => by simp [Globals.setPcb, Globals.print]
      by_cases hd : d = c
      · subst hd
        simpa [Globals.setPcb, Globals.print] using hp
      · simp [Globals.setPcb, Globals.print, Function.update_of_ne hd]
    have hback {g₁ : Globals} (h₁ : Sound g₁ pending) (p : PCB)
        (hp : p.pid = (g₁.pcb c).pid ∧ p.io = (g₁.pcb c).io) :
        Sound { g₁.setPcb c p with currentProcess := none } pending := by
      refine h₁.congr (fun d => ?_) rfl (fun _ => Iff.rfl) fun _ => Iff.rfl
      by_cases hd : d = c
      · subst hd
        simpa [Globals.setPcb] using hp
      · simp [Globals.setPcb, Function.update_of_ne hd]
    have hadm := hcur c hc
    simp only []
    split_ifs
    · change Sound (Globals.terminate _ c) pending
      refine Sound.terminate (hrun _ ?_) ?_
      · exact ⟨rfl, rfl⟩
      · simpa [Admitted, Globals.setPcb, Globals.print] using hadm
    · refine hback (hrun _ ?_) _ ?_
      · exact ⟨rfl, rfl⟩
      · simp [Globals.setPcb, Globals.print]
    · refine hback (hrun _ ?_) _ ?_
      · exact ⟨rfl, rfl⟩
      · simp [Globals.setPcb, Globals.print]
    · apply hrun
      exact ⟨rfl, rfl⟩
    · apply hrun
      exact ⟨rfl, rfl⟩

end Steps

end Eece315.DispatcherOwnership
