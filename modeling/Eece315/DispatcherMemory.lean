import Eece315.DispatcherGlobals

/-! The two parts of the memory. Real-time processes only ever get cells of the first part and
the others only cells of the second, in every state of a run and whatever the file asks for. -/
namespace Eece315.DispatcherMemory
open SegmentTable HeapChain DispatcherQueue DispatcherResources DispatcherSystem
open DispatcherAbstract DispatcherOwnership DispatcherGlobals

/-- Cell `i` belongs to the part of the memory that the process's class is given. -/
def OnItsSide (p : PCB) (i : ℤ) : Prop := i < MAX_RTMEMSPACE ↔ p.priority = 0

structure Partitioned (lines : List Args) (g : Globals) : Prop where
  size : (g.host.alloc .memSpace).length = MAX_MEMSPACE
  pid : ∀ c ∈ loaded lines, (g.pcb c).pid = c
  /-- no process crosses between the classes -/
  priority : ∀ c ∈ loaded lines, (g.pcb c).priority = 0 ↔ argsOf lines c 1 = 0
  /-- every grant lies inside the memory, on the side of its class -/
  grant : ∀ c ∈ loaded lines, ∀ i : ℤ, ((g.pcb c).io .memSpace).startID ≤ i →
    i < ((g.pcb c).io .memSpace).startID + ((g.pcb c).io .memSpace).held →
      0 ≤ i ∧ i < MAX_MEMSPACE ∧ OnItsSide (g.pcb c) i
  /-- a cell holds 0 or the pid of a process of its side -/
  cell : ∀ (i : ℕ) (v : ℤ), (g.host.alloc .memSpace)[i]? = some v → v ≠ 0 →
    ∃ c ∈ loaded lines, v = (g.pcb c).pid ∧ OnItsSide (g.pcb c) i

structure SameRecord (p q : PCB) : Prop where
  pid : q.pid = p.pid
  io : q.io = p.io
  priority : q.priority = 0 ↔ p.priority = 0

lemma SameRecord.refl (p : PCB) : SameRecord p p := ⟨rfl, rfl, Iff.rfl⟩

lemma sameRecord_quantum (g : Globals) (d : ℕ) : SameRecord (g.pcb d) (g.quantum.1.pcb d) := by
  by_cases hd : g.currentProcess = some d
  · unfold Globals.quantum
    rw [hd]
    simp only []
    split_ifs <;> constructor <;> simp [Globals.terminate, Globals.setPcb, Globals.print] <;> omega
  · rw [quantum_pcb g hd]
    exact SameRecord.refl _

lemma quantum_host (g : Globals) (k : Resource) : g.quantum.1.host = g.host ∨
    ∃ c, g.quantum.1.host.alloc k = freedCells (g.pcb c) g.host k := by
  unfold Globals.quantum
  cases hc : g.currentProcess with
  | none => exact .inl rfl
  | some c =>
    simp only []
    split_ifs
    · refine .inr ⟨c, (freeHostResources_alloc _ _ k).trans ?_⟩
      simp [freedCells, Globals.setPcb, Globals.print]
    · exact .inl rfl
    · exact .inl rfl
    · exact .inl rfl
    · exact .inl rfl

section Steps

variable {lines : List Args} {g g' : Globals} {process : PCB} {host : Host} {k : Resource}

lemma length_attemptCells (process : PCB) (host : Host) (k : Resource) :
    (attemptCells process host k).length = (host.alloc k).length := by
  rw [attemptCells]
  split_ifs
  · exact length_fill _ _ _ _
  · rfl

lemma length_freedCells (process : PCB) (host : Host) (k : Resource) :
    (freedCells process host k).length = (host.alloc k).length := by
  rw [freedCells]
  split_ifs
  · exact length_fill _ _ _ _
  · rfl

lemma Partitioned.congr (h : Partitioned lines g) (hpcb : ∀ c, SameRecord (g.pcb c) (g'.pcb c))
    (hlen : (g'.host.alloc .memSpace).length = (g.host.alloc .memSpace).length)
    (hcell : ∀ (i : ℕ) (v : ℤ), v ≠ 0 → (g'.host.alloc .memSpace)[i]? = some v →
      (g.host.alloc .memSpace)[i]? = some v) : Partitioned lines g' := by
  have hside (c : ℕ) (i : ℤ) : OnItsSide (g'.pcb c) i ↔ OnItsSide (g.pcb c) i := by
    rw [OnItsSide, OnItsSide, (hpcb c).priority]
  refine ⟨hlen.trans h.size, fun c hc => ?_, fun c hc => ?_, fun c hc i hi hi' => ?_,
    fun i v hi hv => ?_⟩
  · rw [(hpcb c).pid]
    exact h.pid c hc
  · rw [(hpcb c).priority]
    exact h.priority c hc
  · rw [(hpcb c).io] at hi hi'
    rw [hside]
    exact h.grant c hc i hi hi'
  · obtain ⟨c, hc, hv', hon⟩ := h.cell i v (hcell i v hv hi) hv
    exact ⟨c, hc, by rw [(hpcb c).pid, hv'], (hside c i).mpr hon⟩

lemma onItsSide_of_renews (h : Renews process host .memSpace) {i : ℤ}
    (hi : (attemptGrant process host .memSpace).startID ≤ i)
    (hi' : i < (attemptGrant process host .memSpace).startID +
      (attemptGrant process host .memSpace).held) :
    0 ≤ i ∧ i < MAX_MEMSPACE ∧ OnItsSide process i := by
  have hin := h.inside hi hi'
  by_cases hp : process.priority = 0
  · simp only [region, hp, decide_true, if_true, MAX_RTMEMSPACE] at hin
    refine ⟨by omega, ?_, iff_of_true ?_ hp⟩
    · rw [MAX_MEMSPACE]
      omega
    · rw [MAX_RTMEMSPACE]
      omega
  · simp only [region, hp, decide_false, Bool.false_eq_true, if_false, MAX_RTMEMSPACE,
      MAX_MEMSPACE] at hin
    refine ⟨by omega, ?_, iff_of_false ?_ hp⟩
    · rw [MAX_MEMSPACE]
      omega
    · rw [MAX_RTMEMSPACE]
      omega

lemma Partitioned.allocate (h : Partitioned lines g) {c : ℕ} (hc : c ∈ loaded lines) :
    Partitioned lines (g.allocate c).2 := by
  have hrecord (d : ℕ) : ((g.allocate c).2.pcb d).pid = (g.pcb d).pid ∧
      ((g.allocate c).2.pcb d).priority = (g.pcb d).priority :=
    ⟨allocate_pid g c d, allocate_priority g c d⟩
  have hside (d : ℕ) (i : ℤ) : OnItsSide ((g.allocate c).2.pcb d) i ↔ OnItsSide (g.pcb d) i := by
    rw [OnItsSide, OnItsSide, (hrecord d).2]
  have hold {i : ℕ} {v : ℤ} (hv : v ≠ 0) (hi : (g.host.alloc .memSpace)[i]? = some v) :
      ∃ d ∈ loaded lines, v = ((g.allocate c).2.pcb d).pid ∧
        OnItsSide ((g.allocate c).2.pcb d) i := by
    obtain ⟨d, hd, hv', hon⟩ := h.cell i v hi hv
    exact ⟨d, hd, by rw [(hrecord d).1, hv'], (hside d i).mpr hon⟩
  refine ⟨?_, fun d hd => ?_, fun d hd => ?_, fun d hd i hi hi' => ?_, fun i v hi hv => ?_⟩
  · by_cases hf : ∀ k, Fits (g.pcb c) g.host k
    · rw [allocate_fits hf]
      exact (length_attemptCells _ _ _).trans h.size
    · rw [allocate_fails hf, failed_cells]
      split_ifs
      · exact h.size
      · exact (length_freedCells _ _ _).trans h.size
  · rw [(hrecord d).1]
    exact h.pid d hd
  · rw [(hrecord d).2]
    exact h.priority d hd
  · rw [hside]
    by_cases hdc : d = c
    · subst hdc
      rw [allocate_pcb_self] at hi hi'
      change (attemptGrant (g.pcb d) g.host .memSpace).startID ≤ i at hi
      change i < (attemptGrant (g.pcb d) g.host .memSpace).startID +
        (attemptGrant (g.pcb d) g.host .memSpace).held at hi'
      by_cases hr : Renews (g.pcb d) g.host .memSpace
      · exact onItsSide_of_renews hr hi hi'
      · rw [attemptGrant_of_not hr] at hi hi'
        exact h.grant d hd i hi hi'
    · rw [allocate_pcb_of_ne g hdc] at hi hi'
      exact h.grant d hd i hi hi'
  · by_cases hf : ∀ k, Fits (g.pcb c) g.host k
    · rw [allocate_fits hf] at hi
      rcases label_of_attemptCells hi with hi | ⟨rfl, hr, hin, hin'⟩
      · exact hold hv hi
      · refine ⟨c, hc, (hrecord c).1.symm, (hside c i).mpr ?_⟩
        exact (onItsSide_of_renews hr hin hin').2.2
    · rw [allocate_fails hf, failed_cells] at hi
      split_ifs at hi
      · exact hold hv hi
      · exact hold hv (label_of_freedCells hv hi)

lemma partitioned_kept (lines : List Args) : Kept (loaded lines) (Partitioned lines) := by
  refine ⟨⟨fun g h c hc => h.allocate hc, fun g h c => ?_⟩,
    ⟨fun g h c => ?_, fun g h c slice => ?_⟩, fun g h _ => ?_⟩
  · exact h.congr (fun d => SameRecord.refl _) rfl fun i v _ hi => hi
  · have hset : SameRecord (g.pcb c) { g.pcb c with state := .suspended } :=
      ⟨rfl, rfl, Iff.rfl⟩
    exact h.congr (setPcb_related SameRecord.refl hset) rfl fun i v _ hi => hi
  · have hset : SameRecord (g.pcb c) { g.pcb c with timeSpliceLeft := slice (g.pcb c) } :=
      ⟨rfl, rfl, Iff.rfl⟩
    exact h.congr (setPcb_related SameRecord.refl hset) rfl fun i v _ hi => hi
  · rcases quantum_host g .memSpace with hhost | ⟨c, hhost⟩
    · apply h.congr (sameRecord_quantum g)
      · rw [hhost]
      · intro i v _ hi
        rwa [hhost] at hi
    · apply h.congr (sameRecord_quantum g)
      · rw [hhost, length_freedCells]
      · intro i v hv hi
        rw [hhost] at hi
        exact label_of_freedCells hv hi

end Steps

lemma partitioned_zero (lines : List Args) :
    Partitioned lines (Abstract.mainLoop lines 0).globals := by
  have hhost : (Abstract.mainLoop lines 0).globals.host.alloc .memSpace =
      List.replicate MAX_MEMSPACE 0 := by
    rw [mainLoop_zero_globals]
    rfl
  refine ⟨?_, fun c hc => ?_, fun c hc => ?_, fun c hc i hi hi' => ?_, fun i v hi hv => ?_⟩
  · rw [hhost, List.length_replicate]
  · rw [loaded_pcb hc]
    rfl
  · rw [loaded_pcb hc]
    rfl
  · rw [loaded_pcb hc] at hi hi'
    simp only [processOf, newGrant] at hi hi'
    omega
  · rw [hhost] at hi
    exact absurd (List.mem_replicate.mp (List.mem_of_getElem? hi)).2 hv

/-- In every state of a run the memory is partitioned between the classes. -/
theorem partitioned_visited {lines : List Args} {N : ℕ} {s : System} (hs : Visited lines N s) :
    Partitioned lines s.globals := (partitioned_kept lines).visited (partitioned_zero lines) hs

/-- A real-time process and a user process have asked for memory. -/
theorem partitioned_visited_demo : ∃ s,
    Visited [![0, 0, 9, 16, 0, 0, 0, 0], ![0, 2, 9, 32, 0, 0, 0, 0]] 1 s ∧
      Partitioned [![0, 0, 9, 16, 0, 0, 0, 0], ![0, 2, 9, 32, 0, 0, 0, 0]] s.globals := by
  obtain ⟨s, hs, -, -⟩ :=
    simulates_mainLoop [![0, 0, 9, 16, 0, 0, 0, 0], ![0, 2, 9, 32, 0, 0, 0, 0]] 1
  exact ⟨s, .border le_rfl hs, partitioned_visited (.border le_rfl hs)⟩

end Eece315.DispatcherMemory
