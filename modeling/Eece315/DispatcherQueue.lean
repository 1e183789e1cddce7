import Eece315.HeapChain

/-! The linked queue of the dispatcher (`queue.c`). Nodes live in a heap of cells and a null
pointer is `none`; a null dereference and a walk along a cyclic chain have no result.
Process pointers are references into the table of PCBs, which this file never follows. -/
namespace Eece315.DispatcherQueue
open HeapChain

/-- `struct queue`; the flag is only ever assigned 0 and 1. -/
structure Queue where
  isHead : Bool
  next : Option ℕ
  process : Option ℕ
  deriving DecidableEq, Repr

/-- `malloc` is taken to succeed. -/
def initializeQueue (h : Heap Queue) : ℕ × Heap Queue := (h.top, h.alloc ⟨false, none, none⟩)

def enqueueProcess (h : Heap Queue) (queuePtr currentProcess : ℕ) : Option (Heap Queue) :=
  if (h.cell queuePtr).isHead = false then
    some (h.write queuePtr
      { h.cell queuePtr with process := some currentProcess, isHead := true })
  else do
    let iter ← lastFrom Queue.next h h.top queuePtr
    let new : Queue := ⟨false, none, some currentProcess⟩
    return (h.alloc new).write iter { h.cell iter with next := some h.top }

/-- The returned element and the new value of the caller's pointer. -/
def dequeueProcess (h : Heap Queue) : Option ℕ → Option (Option ℕ × Option ℕ)
  | none => none
  | some q =>
    if (h.cell q).process = none then some (none, some q)
    else some (some q, (h.cell q).next)

/-- The queue and the new value of the caller's pointer. In front of a first node without the flag
nothing is pushed, and the source prints a message. -/
def pushbackQueueElement (h : Heap Queue) (queuePtr : Option ℕ) (newHead : ℕ) :
    Heap Queue × Option ℕ :=
  match queuePtr with
  | none => (h.write newHead { h.cell newHead with isHead := true }, some newHead)
  | some q =>
    if (h.cell q).isHead then
      let h := h.write q { h.cell q with isHead := false }
      (h.write newHead { h.cell newHead with isHead := true, next := some q }, some newHead)
    else (h, some q)

def numElems (h : Heap Queue) (queuePtr : Option ℕ) : Option ℕ :=
  (visit Queue.next h h.top queuePtr).map List.length

/-- The loop of `printQueue`, stopped after `fuel` nodes. -/
def printRest (h : Heap Queue) (pid : ℕ → ℤ) : ℕ → ℕ → Option String
  | 0, _ => none
  | fuel + 1, a =>
    match (h.cell a).next with
    | none => some ""
    | some b => do
      let process ← (h.cell b).process
      let text ← printRest h pid fuel b
      return ", " ++ toString (pid process) ++ text

/-- The text that is printed; `pid` looks a pid up in the table of PCBs. -/
def printQueue (h : Heap Queue) (pid : ℕ → ℤ) : Option ℕ → Option String
  | none => some "The queue is empty!\n"
  | some q =>
    match (h.cell q).process with
    | none => some "The queue is empty!\n"
    | some process => do
      let text ← printRest h pid h.top q
      return "Order of PID's: " ++ toString (pid process) ++ text ++ "\n"

/-- How every caller enqueues: a null pointer is first given a new queue. -/
def enqueueOrInit (h : Heap Queue) (queuePtr : Option ℕ) (process : ℕ) :
    Option (Option ℕ × Heap Queue) := do
  let (q, h) := match queuePtr with
    | none => initializeQueue h
    | some q => (q, h)
  let h ← enqueueProcess h q process
  return (some q, h)

def processes (h : Heap Queue) (queuePtr : Option ℕ) : List ℕ :=
  ((visit Queue.next h h.top queuePtr).getD []).filterMap fun a => (h.cell a).process

/-- The queue's first node holds a process but not the flag: `enqueueProcess` takes such a
node for an empty queue. -/
def HeadUnmarked (h : Heap Queue) (queuePtr : Option ℕ) : Prop :=
  ∃ q ∈ queuePtr, (h.cell q).isHead = false ∧ (h.cell q).process ≠ none

instance (h : Heap Queue) (queuePtr : Option ℕ) : Decidable (HeadUnmarked h queuePtr) :=
  match queuePtr with
  | none => isFalse (by simp [HeadUnmarked])
  | some q => decidable_of_iff
      ((h.cell q).isHead = false ∧ (h.cell q).process ≠ none) (by simp [HeadUnmarked])

def restText : List ℤ → String
  | [] => ""
  | pid :: pids => ", " ++ toString pid ++ restText pids

/-- What `printQueue` prints for the pids in a queue. -/
def queueText : List ℤ → String
  | [] => "The queue is empty!\n"
  | pid :: pids => "Order of PID's: " ++ toString pid ++ restText pids ++ "\n"

lemma queueText_nil : queueText [] = "The queue is empty!\n" := rfl

lemma queueText_cons (pid : ℤ) (pids : List ℤ) :
    queueText (pid :: pids) =
      "Order of PID's: " ++ toString pid ++ restText pids ++ "\n" := rfl

/-- The nodes that a queue pointer may lead to: none, a single empty node, or a chain of nodes
that all hold a process. -/
inductive NodeShape (h : Heap Queue) : List ℕ → Prop
  | null : NodeShape h []
  | empty {q : ℕ} (hq : h.cell q = ⟨false, none, none⟩) : NodeShape h [q]
  | chain {nodes : List ℕ} (hne : nodes ≠ []) (hp : ∀ a ∈ nodes, (h.cell a).process ≠ none) :
      NodeShape h nodes

/-- What a queue pointer can stand for: null, the empty node of `initializeQueue`, or a chain
of nodes that all hold a process, whose first node may or may not carry the flag. -/
inductive Shape
  | null
  | empty
  | chain (isHead : Bool) (first : ℕ) (rest : List ℕ)
  deriving DecidableEq, Repr

namespace Shape

def processes : Shape → List ℕ
  | null => []
  | empty => []
  | chain _ p ps => p :: ps

def fields : Shape → List (Bool × Option ℕ)
  | null => []
  | empty => [(false, none)]
  | chain f p ps => (f, some p) :: ps.map fun q => (false, some q)

/-- The effect of `enqueueOrInit`: an unmarked first node loses its process. -/
def enqueue : Shape → ℕ → Shape
  | null, p => chain true p []
  | empty, p => chain true p []
  | chain false _ ps, p => chain true p ps
  | chain true q ps, p => chain true q (ps ++ [p])

def dequeue : Shape → Shape
  | null => null
  | empty => empty
  | chain _ _ [] => null
  | chain _ _ (p :: ps) => chain false p ps

/-- The process an enqueue overwrites. -/
def overwritten : Shape → Option ℕ
  | chain false p _ => some p
  | _ => none

@[simp] lemma processes_null : null.processes = [] := rfl
@[simp] lemma processes_empty : empty.processes = [] := rfl
@[simp] lemma processes_chain (f : Bool) (p : ℕ) (ps : List ℕ) :
    (chain f p ps).processes = p :: ps := rfl
@[simp] lemma fields_null : null.fields = [] := rfl
@[simp] lemma fields_empty : empty.fields = [(false, none)] := rfl
@[simp] lemma fields_chain (f : Bool) (p : ℕ) (ps : List ℕ) :
    (chain f p ps).fields = (f, some p) :: ps.map fun q => (false, some q) := rfl

lemma exists_chain {s : Shape} (h : s.processes ≠ []) : ∃ f p ps, s = chain f p ps := by
  rcases s with _ | _ | ⟨f, p, ps⟩
  · exact absurd rfl h
  · exact absurd rfl h
  · exact ⟨f, p, ps, rfl⟩

lemma filterMap_fields (s : Shape) : s.fields.filterMap Prod.snd = s.processes := by
  cases s with
  | null => rfl
  | empty => rfl
  | chain f p ps => simp [List.filterMap_map]

lemma process_ne_none_of_mem_fields {f : Bool} {p : ℕ} {ps : List ℕ} {x : Bool × Option ℕ}
    (hx : x ∈ (chain f p ps).fields) : x.2 ≠ none := by
  rcases List.mem_cons.mp hx with rfl | hx
  · simp
  · obtain ⟨q, -, rfl⟩ := List.mem_map.mp hx
    simp

@[simp] lemma fields_eq_nil_iff (s : Shape) : s.fields = [] ↔ s = null := by
  cases s <;> simp

lemma processes_enqueue (s : Shape) (p : ℕ) (h : s.overwritten = none) :
    (s.enqueue p).processes = s.processes ++ [p] := by
  match s, h with
  | null, _ => rfl
  | empty, _ => rfl
  | chain true q ps, _ => rfl

lemma overwritten_enqueue (s : Shape) (p : ℕ) : (s.enqueue p).overwritten = none := by
  rcases s with _ | _ | ⟨_ | _, q, ps⟩ <;> rfl

lemma processes_dequeue {s : Shape} {p : ℕ} {ps : List ℕ} (h : s.processes = p :: ps) :
    s.dequeue.processes = ps := by
  match s, h with
  | chain f q [], h => simpa [dequeue] using (List.cons.inj h).2
  | chain f q (r :: rs), h => simpa [dequeue] using (List.cons.inj h).2

end Shape

def Queue.fields (q : Queue) : Bool × Option ℕ := (q.isHead, q.process)

@[simp] lemma Queue.fields_mk (f : Bool) (n p : Option ℕ) : (⟨f, n, p⟩ : Queue).fields = (f, p) :=
  rfl

/-- The pointers stand for queues of the given shapes, no two of which share a node. -/
def Models {ι : Type*} (h : Heap Queue) (ptr : ι → Option ℕ) (shape : ι → Shape) : Prop :=
  Represents Queue.next Queue.fields h ptr fun i => (shape i).fields

section Operations

variable {ι : Type*} {h : Heap Queue} {ptr : ι → Option ℕ} {shape : ι → Shape}

lemma Models.congr {ptr' : ι → Option ℕ} {shape' : ι → Shape} (hm : Models h ptr shape)
    (hp : ∀ i, ptr' i = ptr i) (hs : ∀ i, shape' i = shape i) : Models h ptr' shape' := by
  rwa [funext hp, funext hs]

lemma Models.extend (hm : Models h ptr shape) :
    Models h (fun o : Option ι => o.elim none ptr) fun o => o.elim .null shape := by
  have hr := Represents.extend hm
  rw [Models]
  convert hr using 2 with o
  cases o <;> rfl

lemma Models.null_iff (hm : Models h ptr shape) (i : ι) : ptr i = none ↔ shape i = .null := by
  rw [Represents.null_iff hm i, Shape.fields_eq_nil_iff]

lemma Models.head (hm : Models h ptr shape) {i : ι} {q : ℕ} (hq : ptr i = some q) :
    (shape i = .empty ∧ h.cell q = ⟨false, none, none⟩) ∨
      ∃ f p ps, shape i = .chain f p ps ∧ (h.cell q).isHead = f ∧
        (h.cell q).process = some p := by
  cases hs : shape i with
  | null => rw [(hm.null_iff i).mpr hs] at hq; cases hq
  | empty =>
    have hf : (shape i).fields = (false, none) :: [] := by simp [hs]
    obtain ⟨a, ha, hv, hn⟩ := Represents.head_val hm hf
    obtain rfl : a = q := by simpa [ha] using hq
    cases hc : h.cell a with
    | mk f n p =>
      rw [hc] at hv hn
      obtain ⟨rfl, rfl⟩ : f = false ∧ p = none := by simpa using hv
      obtain rfl : n = none := hn.mpr rfl
      exact .inl ⟨rfl, rfl⟩
  | chain f p ps =>
    have hf : (shape i).fields = (f, some p) :: ps.map fun q => (false, some q) := by
      simp [hs]
    obtain ⟨a, ha, hv, -⟩ := Represents.head_val hm hf
    obtain rfl : a = q := by simpa [ha] using hq
    exact .inr ⟨f, p, ps, rfl, congrArg Prod.fst hv, congrArg Prod.snd hv⟩

lemma Models.headUnmarked_iff (hm : Models h ptr shape) (i : ι) :
    HeadUnmarked h (ptr i) ↔ (shape i).overwritten ≠ none := by
  cases hp : ptr i with
  | none => simp [HeadUnmarked, (hm.null_iff i).mp hp, Shape.overwritten]
  | some q =>
    rcases hm.head hp with ⟨hs, hq⟩ | ⟨f, p, ps, hs, hf, hpr⟩
    · simp [HeadUnmarked, hs, hq, Shape.overwritten]
    · cases f <;> simp [HeadUnmarked, hs, hf, hpr, Shape.overwritten]

lemma Models.processes_eq (hm : Models h ptr shape) (i : ι) :
    processes h (ptr i) = (shape i).processes := by
  obtain ⟨as, hv, hc⟩ := Represents.visit hm i
  rw [processes, hv, Option.getD_some, ← Shape.filterMap_fields, ← hc, List.filterMap_map]
  rfl

lemma Models.numElems_eq (hm : Models h ptr shape) (i : ι) :
    numElems h (ptr i) = some (shape i).fields.length := by
  obtain ⟨as, hv, hc⟩ := Represents.visit hm i
  rw [numElems, hv, Option.map_some, ← hc, List.length_map]

lemma Models.nodes (hm : Models h ptr shape) :
    ∃ nodes, Family Queue.next h ptr nodes ∧ ∀ i, NodeShape h (nodes i) := by
  obtain ⟨nodes, hf, hv⟩ := hm
  refine ⟨nodes, hf, fun i => ?_⟩
  have hvi : (nodes i).map (fun a => (h.cell a).fields) = (shape i).fields := hv i
  have hc := hf.chain i
  cases hs : shape i with
  | null =>
    rw [hs] at hvi
    rw [List.map_eq_nil_iff.mp hvi]
    exact .null
  | empty =>
    rw [hs] at hvi
    obtain ⟨q, hn, hq⟩ := List.map_eq_singleton_iff.mp hvi
    rw [hn] at hc ⊢
    have hnext : (h.cell q).next = none := hc.2
    obtain ⟨hflag, hp⟩ := Prod.mk.inj hq
    apply NodeShape.empty
    calc h.cell q = ⟨(h.cell q).isHead, (h.cell q).next, (h.cell q).process⟩ := rfl
      _ = ⟨false, none, none⟩ := by rw [hflag, hnext, hp]
  | chain f p ps =>
    rw [hs] at hvi
    apply NodeShape.chain
    · rintro hn
      simp [hn] at hvi
    · intro a ha
      have hmem : (h.cell a).fields ∈ (Shape.chain f p ps).fields :=
        hvi ▸ List.mem_map_of_mem ha
      exact Shape.process_ne_none_of_mem_fields hmem

lemma printRest_eq (pid : ℕ → ℤ) {a fuel : ℕ} {as ps : List ℕ}
    (hc : IsChain Queue.next h (some a) (a :: as))
    (hp : as.map (fun b => (h.cell b).process) = ps.map some) (hf : as.length < fuel) :
    printRest h pid fuel a = some (restText (ps.map pid)) := by
  induction as generalizing a fuel ps with
  | nil =>
    obtain rfl : ps = [] := List.map_eq_nil_iff.mp hp.symm
    obtain ⟨fuel, rfl⟩ := Nat.exists_eq_add_of_lt hf
    have hnext : (h.cell a).next = none := hc.2
    simp [printRest, hnext, restText]
  | cons b bs ih =>
    obtain ⟨fuel, rfl⟩ : ∃ n, fuel = n + 1 := ⟨fuel - 1, by simp at hf; omega⟩
    have hnext : (h.cell a).next = some b := hc.2.1
    cases ps with
    | nil => cases hp
    | cons p ps =>
      obtain ⟨hb, hbs⟩ := List.cons.inj hp
      have hrest := ih ⟨rfl, hc.2.2⟩ hbs (by simpa using hf)
      simp [printRest, hnext, hb, hrest, restText]

lemma Models.printQueue_eq (hm : Models h ptr shape) (pid : ℕ → ℤ) (i : ι) :
    printQueue h pid (ptr i) = some (queueText ((shape i).processes.map pid)) := by
  cases hq : ptr i with
  | none =>
    rw [(hm.null_iff i).mp hq, Shape.processes_null, List.map_nil, queueText_nil]
    rfl
  | some q =>
    rcases hm.head hq with ⟨hs, hc⟩ | ⟨f, p, ps, hs, -, hp⟩
    · have hp : (h.cell q).process = none := by rw [hc]
      rw [hs, Shape.processes_empty, List.map_nil, queueText_nil]
      simp only [printQueue, hp]
    · obtain ⟨cells, hf, hv⟩ := hm
      have hch := hf.chain i
      have hvi : ((cells i).map fun a => (h.cell a).fields).map Prod.snd =
          (shape i).fields.map Prod.snd := congrArg _ (hv i)
      have hlen := hch.length_le (hf.bound i)
      obtain ⟨as, hcells⟩ := hf.cells_eq hq
      rw [hcells, hq] at hch
      rw [hcells, hs] at hvi
      rw [hcells, List.length_cons] at hlen
      have hps : as.map (fun b => (h.cell b).process) = ps.map some := by
        simp only [Queue.fields, List.map_map, List.map_cons, Function.comp_def,
          Shape.fields_chain] at hvi
        exact (List.cons.inj hvi).2
      have hrest := printRest_eq pid hch hps (Nat.lt_of_succ_le hlen)
      rw [hs, Shape.processes_chain, List.map_cons, queueText_cons]
      simp only [printQueue, hp, hrest, Option.bind_eq_bind, Option.bind_some, Option.pure_def]

variable [DecidableEq ι]

private lemma fields_update (shape : ι → Shape) (i : ι) (s : Shape) :
    (fun j => (Function.update shape i s j).fields) =
      Function.update (fun j => (shape j).fields) i s.fields := by
  funext j
  by_cases hj : j = i
  · subst hj
    simp
  · simp [Function.update_of_ne hj]

lemma Models.initializeQueue (hm : Models h ptr shape) (i : ι) :
    Models (initializeQueue h).2 (Function.update ptr i (some (initializeQueue h).1))
      (Function.update shape i .empty) := by
  have hr := Represents.alloc hm i (c := (⟨false, none, none⟩ : Queue)) rfl
  rw [Models, fields_update]
  exact hr

lemma Models.enqueueProcess (hm : Models h ptr shape) {i : ι} {q : ℕ} (hq : ptr i = some q)
    (p : ℕ) :
    ∃ h', enqueueProcess h q p = some h' ∧
      Models h' ptr (Function.update shape i ((shape i).enqueue p)) := by
  simp only [Models, fields_update]
  rcases hm.head hq with ⟨hs, hc⟩ | ⟨f, r, rs, hs, hf, hp⟩
  · refine ⟨_, by rw [DispatcherQueue.enqueueProcess, if_pos (by rw [hc])], ?_⟩
    have hfs : (shape i).fields = (false, none) :: [] := by simp [hs]
    have hw := Represents.write_head hm hfs hq
      (c := { h.cell q with process := some p, isHead := true }) rfl
    simpa [hs, Shape.enqueue] using hw
  · cases f with
    | false =>
      refine ⟨_, by rw [DispatcherQueue.enqueueProcess, if_pos hf], ?_⟩
      have hfs : (shape i).fields = (false, some r) :: rs.map fun x => (false, some x) := by
        simp [hs]
      have hw := Represents.write_head hm hfs hq
        (c := { h.cell q with process := some p, isHead := true }) rfl
      simpa [hs, Shape.enqueue] using hw
    | true =>
      obtain ⟨l, hl, hw⟩ := Represents.snoc hm hq (c := (⟨false, none, some p⟩ : Queue)) rfl
      refine ⟨_, by rw [DispatcherQueue.enqueueProcess, if_neg (by simp [hf]), hl]; rfl, ?_⟩
      have hr := hw { h.cell l with next := some h.top } rfl rfl
      simpa [hs, Shape.enqueue, Queue.fields] using hr

lemma Models.enqueueOrInit (hm : Models h ptr shape) (i : ι) (p : ℕ) :
    ∃ q h', enqueueOrInit h (ptr i) p = some (some q, h') ∧
      Models h' (Function.update ptr i (some q))
        (Function.update shape i ((shape i).enqueue p)) := by
  cases hp : ptr i with
  | some q =>
    obtain ⟨h', he, hm'⟩ := hm.enqueueProcess hp p
    exact ⟨q, h', by simp [DispatcherQueue.enqueueOrInit, he],
      by rwa [← hp, Function.update_eq_self]⟩
  | none =>
    have hs := (hm.null_iff i).mp hp
    have hi := hm.initializeQueue i
    obtain ⟨h', he, hm'⟩ := hi.enqueueProcess (i := i) (Function.update_self i _ ptr) p
    refine ⟨(DispatcherQueue.initializeQueue h).1, h',
      by simp [DispatcherQueue.enqueueOrInit, he], ?_⟩
    simpa [hs, Shape.enqueue] using hm'

lemma Models.dequeueProcess (hm : Models h ptr shape) {i : ι} {f : Bool} {p : ℕ}
    {ps : List ℕ} (hs : shape i = .chain f p ps) :
    ∃ a q, ptr i = some a ∧ (h.cell a).process = some p ∧
      dequeueProcess h (ptr i) = some (some a, q) ∧
      Models h (Function.update ptr i q) (Function.update shape i (shape i).dequeue) := by
  have hf : (shape i).fields = (f, some p) :: ps.map fun x => (false, some x) := by simp [hs]
  obtain ⟨a, ha, hv, -⟩ := Represents.head_val hm hf
  have hp : (h.cell a).process = some p := congrArg Prod.snd hv
  refine ⟨a, (h.cell a).next, ha, hp, by simp [DispatcherQueue.dequeueProcess, ha, hp], ?_⟩
  rw [Models, fields_update]
  have hr := Represents.pop hm hf ha
  have hd : (shape i).dequeue.fields = ps.map fun x => (false, some x) := by
    cases ps <;> simp [hs, Shape.dequeue]
  rwa [hd]

end Operations

end Eece315.DispatcherQueue
