import Eece315.DispatcherQueue
import Eece315.StepRuns

/-! Pushing a dequeued element back. The dequeued node keeps its link and the node behind it gets
no flag, so that an element is pushed back in front of what is left only when nothing is left.
In general an element is added, and nothing else, exactly in front of a node with the flag that does
not lead to the element, or to a queue pointer that is null if the element's link is null. -/
namespace Eece315.DispatcherPushback
open HeapChain DispatcherQueue StepRuns

inductive Op (ι : Type)
  | create (i : ι)
  | enqueue (i : ι) (process : ℕ)
  | dequeue (i : ι)
  | pushback (i : ι) (element : ℕ)

/-- A program with queue pointers, and the elements that `dequeueProcess` has returned to it. -/
structure Client (ι : Type) where
  heap : Heap Queue
  ptr : ι → Option ℕ
  returned : List ℕ

variable {ι : Type}

def start (ι : Type) : Client ι := ⟨⟨fun _ => ⟨false, none, none⟩, 0⟩, fun _ => none, []⟩

/-- One call. A program pushes back what was returned to it. -/
def step [DecidableEq ι] (st : Client ι) : Op ι → Option (Client ι)
  | .create i =>
    let (q, h) := initializeQueue st.heap
    some { st with heap := h, ptr := Function.update st.ptr i (some q) }
  | .enqueue i p => do
    let h ← enqueueProcess st.heap (← st.ptr i) p
    return { st with heap := h }
  | .dequeue i => do
    let (element, q) ← dequeueProcess st.heap (st.ptr i)
    return { st with
      ptr := Function.update st.ptr i q
      returned := st.returned ++ element.toList }
  | .pushback i e =>
    if e ∈ st.returned then
      let (h, q) := pushbackQueueElement st.heap (st.ptr i) e
      some { st with heap := h, ptr := Function.update st.ptr i q }
    else none

def run [DecidableEq ι] (ops : List (Op ι)) : Option (Client ι) := ops.foldlM step (start ι)

def Op.isPushback : Op ι → Bool
  | .pushback _ _ => true
  | _ => false

/-- A dequeue gives an element, and after pushing it back the queue is as it was. -/
def Undone (h : Heap Queue) (queuePtr : Option ℕ) : Prop :=
  ∃ e q, dequeueProcess h queuePtr = some (some e, q) ∧
    processes (pushbackQueueElement h q e).1 (pushbackQueueElement h q e).2 =
      processes h queuePtr

def contents (h : Heap Queue) (queuePtr : Option ℕ) : Option (List (Option ℕ)) :=
  (visit Queue.next h h.top queuePtr).map fun nodes => nodes.map fun a => (h.cell a).process

/-- The queue has the process of the element in front and is the same behind it. -/
def AddsOne (h : Heap Queue) (queuePtr : Option ℕ) (e : ℕ) : Prop :=
  ∃ p before, (h.cell e).process = some p ∧ contents h queuePtr = some before ∧
    contents (pushbackQueueElement h queuePtr e).1 (pushbackQueueElement h queuePtr e).2 =
      some (some p :: before)

section Heaps

variable {h h' h'' : Heap Queue} {a e p q : ℕ} {c : Queue}

structure Grows (h h' : Heap Queue) : Prop where
  top : h.top ≤ h'.top
  next : (∀ a b, (h.cell a).next = some b → b < h.top) →
    ∀ a b, (h'.cell a).next = some b → b < h'.top
  process : ∀ a < h.top, (h.cell a).process ≠ none → (h'.cell a).process ≠ none

lemma Grows.trans (hg : Grows h h') (hg' : Grows h' h'') : Grows h h'' := by
  constructor
  · exact hg.top.trans hg'.top
  · exact fun hnext => hg'.next (hg.next hnext)
  · exact fun a ha hp => hg'.process a (ha.trans_le hg.top) (hg.process a ha hp)

lemma grows_alloc (hc : c.next = none) : Grows h (h.alloc c) := by
  constructor
  · exact Nat.le_succ h.top
  · intro hnext a b hb
    by_cases ha : a = h.top
    · rw [ha, Heap.alloc_cell_top, hc] at hb
      cases hb
    · simp only [Heap.alloc, Function.update_of_ne ha] at hb
      exact (hnext a b hb).trans (Nat.lt_succ_self h.top)
  · intro a ha hp
    rwa [h.alloc_cell c ha]

lemma grows_write (hnext : ∀ b, c.next = some b → (h.cell a).next = some b ∨ b < h.top)
    (hprocess : (h.cell a).process ≠ none → c.process ≠ none) : Grows h (h.write a c) := by
  constructor
  · exact le_rfl
  · intro hbound a' b hb
    by_cases ha : a' = a
    · rw [ha, Heap.write_cell_self] at hb
      exact (hnext b hb).elim (hbound a b) id
    · rw [h.write_cell c ha] at hb
      exact hbound a' b hb
  · intro a' _ hp
    by_cases ha : a' = a
    · rw [ha, Heap.write_cell_self]
      exact hprocess (ha ▸ hp)
    · rwa [h.write_cell c ha]

lemma grows_enqueueProcess (hq : q < h.top) (hnext : ∀ a b, (h.cell a).next = some b → b < h.top)
    (he : enqueueProcess h q p = some h') : Grows h h' := by
  rw [enqueueProcess] at he
  split_ifs at he
  · cases he
    exact grows_write (fun b hb => .inl hb) (by simp)
  · obtain ⟨l, hl, he⟩ := Option.bind_eq_some_iff.mp he
    cases he
    have hltop := lastFrom_lt hl hq hnext
    have halloc : Grows h (h.alloc ⟨false, none, some p⟩) := grows_alloc rfl
    apply halloc.trans
    apply grows_write
    · intro b hb
      right
      rw [← Option.some.inj hb]
      exact Nat.lt_succ_self h.top
    · rw [h.alloc_cell _ hltop]
      exact id

lemma grows_pushback {queuePtr : Option ℕ} (hq : ∀ q, queuePtr = some q → q < h.top) :
    Grows h (pushbackQueueElement h queuePtr e).1 := by
  cases queuePtr with
  | none => exact grows_write (fun b hb => .inl hb) id
  | some q =>
    simp only [pushbackQueueElement]
    split_ifs
    · have hflag : Grows h (h.write q { h.cell q with isHead := false }) :=
        grows_write (fun b hb => .inl hb) id
      apply hflag.trans
      apply grows_write
      · intro b hb
        right
        rw [← Option.some.inj hb]
        exact hq q rfl
      · exact id
    · exact ⟨le_rfl, id, fun _ _ => id⟩

lemma top_pushback (h : Heap Queue) (queuePtr : Option ℕ) (e : ℕ) :
    (pushbackQueueElement h queuePtr e).1.top = h.top := by
  cases queuePtr with
  | none => rfl
  | some q =>
    simp only [pushbackQueueElement]
    split_ifs <;> rfl

lemma pushback_ptr {queuePtr : Option ℕ} (ha : (pushbackQueueElement h queuePtr e).2 = some a) :
    a = e ∨ queuePtr = some a := by
  cases queuePtr with
  | none => exact .inl (Option.some.inj ha).symm
  | some q =>
    simp only [pushbackQueueElement] at ha
    split_ifs at ha
    · exact .inl (Option.some.inj ha).symm
    · exact .inr ha

end Heaps

section Elements

variable {h : Heap Queue} {queuePtr : Option ℕ} {nodes : List ℕ} {e p q : ℕ}

lemma contents_eq_some_iff {h : Heap Queue} {content : List (Option ℕ)}
    (hptr : ∀ a, queuePtr = some a → a < h.top)
    (hnext : ∀ a b, (h.cell a).next = some b → b < h.top) :
    contents h queuePtr = some content ↔ ∃ nodes, IsChain Queue.next h queuePtr nodes ∧
      nodes.map (fun a => (h.cell a).process) = content := by
  rw [contents, Option.map_eq_some_iff]
  constructor
  · rintro ⟨nodes, hv, hc⟩
    exact ⟨nodes, isChain_of_visit hv, hc⟩
  · rintro ⟨nodes, hv, hc⟩
    exact ⟨nodes, hv.visit (hv.length_le (hv.bound hptr hnext)), hc⟩

lemma contents_pushback_iff {content : List (Option ℕ)} (he : e < h.top)
    (hptr : ∀ a, queuePtr = some a → a < h.top)
    (hnext : ∀ a b, (h.cell a).next = some b → b < h.top) :
    contents (pushbackQueueElement h queuePtr e).1 (pushbackQueueElement h queuePtr e).2 =
        some content ↔
      ∃ nodes, IsChain Queue.next (pushbackQueueElement h queuePtr e).1
          (pushbackQueueElement h queuePtr e).2 nodes ∧
        nodes.map (fun a => ((pushbackQueueElement h queuePtr e).1.cell a).process) = content := by
  have hgrows : Grows h (pushbackQueueElement h queuePtr e).1 := grows_pushback hptr
  apply contents_eq_some_iff ?_ (hgrows.next hnext)
  intro a ha
  rw [top_pushback]
  rcases pushback_ptr ha with rfl | hq
  · exact he
  · exact hptr a hq

lemma pushback_marked (hflag : (h.cell q).isHead = true) (e : ℕ) :
    (pushbackQueueElement h (some q) e).2 = some e ∧
    ((pushbackQueueElement h (some q) e).1.cell e).next = some q ∧
    ∀ a, ((pushbackQueueElement h (some q) e).1.cell a).process = (h.cell a).process ∧
      (a ≠ e → ((pushbackQueueElement h (some q) e).1.cell a).next = (h.cell a).next) := by
  have hpush : pushbackQueueElement h (some q) e =
      ((h.write q { h.cell q with isHead := false }).write e
        { (h.write q { h.cell q with isHead := false }).cell e with
          isHead := true, next := some q }, some e) := by
    rw [pushbackQueueElement]
    simp only [hflag, if_true]
  -- taking the flag from the first node leaves the other fields
  have hunflag (a : ℕ) : ((h.write q { h.cell q with isHead := false }).cell a).next =
      (h.cell a).next ∧ ((h.write q { h.cell q with isHead := false }).cell a).process =
        (h.cell a).process := by
    by_cases haq : a = q
    · rw [haq, Heap.write_cell_self]
      exact ⟨rfl, rfl⟩
    · rw [h.write_cell _ haq]
      exact ⟨rfl, rfl⟩
  rw [hpush]
  refine ⟨rfl, by rw [Heap.write_cell_self], ?_⟩
  intro a
  by_cases hae : a = e
  · rw [hae, Heap.write_cell_self]
    exact ⟨(hunflag e).2, fun hne => absurd rfl hne⟩
  · rw [Heap.write_cell _ _ hae]
    exact ⟨(hunflag a).2, fun _ => (hunflag a).1⟩

lemma addsOne_null (he : e < h.top) (hnext : ∀ a b, (h.cell a).next = some b → b < h.top)
    (hp : (h.cell e).process = some p) : AddsOne h none e ↔ (h.cell e).next = none := by
  have hcell : (pushbackQueueElement h none e).1.cell e = { h.cell e with isHead := true } :=
    Heap.write_cell_self ..
  have hbefore : contents h none = some [] := by
    rw [contents, HeapChain.visit]
    rfl
  simp only [AddsOne, hp, hbefore, Option.some.injEq, exists_and_left, exists_eq_left']
  rw [contents_pushback_iff he (by simp) hnext]
  constructor
  · rintro ⟨nodes, hchain, hcontent⟩
    obtain ⟨a, rfl⟩ : ∃ a, nodes = [a] := by
      rw [← List.length_eq_one_iff]
      simpa using congrArg List.length hcontent
    obtain rfl : e = a := Option.some.inj hchain.1
    have hlink := hchain.2
    rwa [hcell] at hlink
  · intro hlink
    refine ⟨[e], ⟨rfl, ?_⟩, ?_⟩
    · rwa [hcell]
    · rw [List.map_singleton, hcell, ← hp]

lemma addsOne_marked (he : e < h.top) (hptr : ∀ a, some q = some a → a < h.top)
    (hnext : ∀ a b, (h.cell a).next = some b → b < h.top) (hp : (h.cell e).process = some p)
    (hflag : (h.cell q).isHead = true) (hchain : IsChain Queue.next h (some q) nodes)
    (hnot : e ∉ nodes) : AddsOne h (some q) e := by
  obtain ⟨hhead, hlink, hold⟩ := pushback_marked hflag e
  have hbefore : contents h (some q) = some (nodes.map fun a => (h.cell a).process) :=
    (contents_eq_some_iff hptr hnext).mpr ⟨nodes, hchain, rfl⟩
  refine ⟨p, _, hp, hbefore, ?_⟩
  rw [contents_pushback_iff he hptr hnext]
  refine ⟨e :: nodes, ⟨hhead, ?_⟩, ?_⟩
  · rw [hlink]
    apply hchain.frame
    intro a ha
    exact (hold a).2 (ne_of_mem_of_not_mem ha hnot)
  · rw [List.map_cons, (hold e).1, hp]
    congr 1
    exact List.map_congr_left fun a _ => (hold a).1

/-- An element that the queue holds already is linked to the node that was first, and the queue
has no end any more. -/
lemma not_addsOne_member (hflag : (h.cell q).isHead = true)
    (hvisit : visit Queue.next h h.top (some q) = some nodes) (hmem : e ∈ nodes) :
    ¬ AddsOne h (some q) e := by
  rintro ⟨p, before, -, -, hadds⟩
  obtain ⟨hhead, hlink, hold⟩ := pushback_marked hflag e
  rw [hhead, contents, Option.map_eq_some_iff] at hadds
  obtain ⟨nodes', hvisit', -⟩ := hadds
  have hchain' := isChain_of_visit hvisit'
  have hnodup := hchain'.nodup
  cases nodes' with
  | nil => cases hchain'
  | cons a nodes' =>
    obtain ⟨ha, hrest⟩ := hchain'
    obtain rfl := Option.some.inj ha
    rw [hlink] at hrest
    have hagain : e ∈ nodes' :=
      (isChain_of_visit hvisit).mem_of_mem hrest hmem fun a hae => (hold a).2 hae
    exact (List.nodup_cons.mp hnodup).1 hagain

lemma not_addsOne_unmarked (hflag : (h.cell q).isHead = false) : ¬ AddsOne h (some q) e := by
  rintro ⟨p, before, -, hbefore, hadds⟩
  have hpush : pushbackQueueElement h (some q) e = (h, some q) := by
    rw [pushbackQueueElement]
    simp [hflag]
  rw [hpush, hbefore, Option.some.injEq] at hadds
  simpa using congrArg List.length hadds

end Elements

section Invariants

variable {st st' : Client ι} {op : Op ι} {ops : List (Op ι)}

structure Bounded (st : Client ι) : Prop where
  ptr : ∀ i a, st.ptr i = some a → a < st.heap.top
  next : ∀ a b, (st.heap.cell a).next = some b → b < st.heap.top
  returned : ∀ e ∈ st.returned, e < st.heap.top ∧ (st.heap.cell e).process ≠ none

lemma Bounded.grow (hb : Bounded st) {h : Heap Queue} (hg : Grows st.heap h) {ptr : ι → Option ℕ}
    (hptr : ∀ i a, ptr i = some a → st.ptr i = some a ∨ a < h.top) :
    Bounded ⟨h, ptr, st.returned⟩ := by
  constructor
  · intro i a ha
    rcases hptr i a ha with hold | hnew
    · exact (hb.ptr i a hold).trans_le hg.top
    · exact hnew
  · exact hg.next hb.next
  · intro e he
    obtain ⟨hlt, hp⟩ := hb.returned e he
    exact ⟨hlt.trans_le hg.top, hg.process e hlt hp⟩

variable [DecidableEq ι]

lemma update_cases {ptr : ι → Option ℕ} {i j : ι} {q : Option ℕ} {a : ℕ}
    (h : Function.update ptr i q j = some a) : ptr j = some a ∨ q = some a := by
  by_cases hj : j = i
  · rw [hj, Function.update_self] at h
    exact .inr h
  · rw [Function.update_of_ne hj] at h
    exact .inl h

lemma bounded_step (hb : Bounded st) (hs : step st op = some st') : Bounded st' := by
  cases op with
  | create i =>
    cases hs
    apply hb.grow (grows_alloc rfl)
    intro j a ha
    apply (update_cases ha).imp_right
    intro htop
    rw [← Option.some.inj htop]
    exact Nat.lt_succ_self st.heap.top
  | enqueue i p =>
    obtain ⟨q, hq, hs⟩ := Option.bind_eq_some_iff.mp hs
    obtain ⟨h, he, hs⟩ := Option.bind_eq_some_iff.mp hs
    cases hs
    exact hb.grow (grows_enqueueProcess (hb.ptr i q hq) hb.next he) fun _ _ => .inl
  | dequeue i =>
    obtain ⟨⟨element, q⟩, hd, hs⟩ := Option.bind_eq_some_iff.mp hs
    cases hs
    cases hq : st.ptr i with
    | none =>
      rw [hq] at hd
      cases hd
    | some a =>
      have htop := hb.ptr i a hq
      rw [hq, dequeueProcess] at hd
      split_ifs at hd with hp
      · cases hd
        have hsame : Function.update st.ptr i (some a) = st.ptr := by
          rw [← hq, Function.update_eq_self]
        rw [hsame, Option.toList_none, List.append_nil]
        exact hb
      · cases hd
        refine ⟨?_, hb.next, ?_⟩
        · intro j b hj
          exact (update_cases hj).elim (hb.ptr j b) (hb.next a b)
        · intro e he
          rcases List.mem_append.mp he with he | he
          · exact hb.returned e he
          · obtain rfl := List.mem_singleton.mp he
            exact ⟨htop, hp⟩
  | pushback i e =>
    simp only [step] at hs
    split_ifs at hs with he
    cases hs
    apply hb.grow (grows_pushback (hb.ptr i))
    intro j a ha
    rcases update_cases ha with hold | hnew
    · exact .inl hold
    · right
      rw [top_pushback]
      rcases pushback_ptr hnew with rfl | hold
      · exact (hb.returned a he).1
      · exact hb.ptr i a hold

lemma bounded_run (h : run ops = some st) : Bounded st := by
  apply foldlM_induction ?_ (fun _ _ _ => bounded_step) h
  exact ⟨by simp [start], by simp [start], by simp [start]⟩

end Invariants

section Runs

variable [DecidableEq ι] {st st' : Client ι} {op : Op ι} {ops : List (Op ι)} {h : Heap Queue}
  {ptr : ι → Option ℕ} {shape : ι → Shape} {i : ι}

lemma models_step (hm : Models st.heap st.ptr shape) (hop : op.isPushback = false)
    (hs : step st op = some st') : ∃ shape', Models st'.heap st'.ptr shape' := by
  cases op with
  | create i =>
    cases hs
    exact ⟨_, hm.initializeQueue i⟩
  | enqueue i p =>
    obtain ⟨q, hq, hs⟩ := Option.bind_eq_some_iff.mp hs
    obtain ⟨h, he, hm'⟩ := hm.enqueueProcess hq p
    simp only [he, Option.bind_eq_bind, Option.bind_some, Option.pure_def,
      Option.some.injEq] at hs
    subst hs
    exact ⟨_, hm'⟩
  | dequeue i =>
    obtain ⟨⟨element, q⟩, hd, hs⟩ := Option.bind_eq_some_iff.mp hs
    cases hs
    cases hq : st.ptr i with
    | none =>
      rw [hq] at hd
      cases hd
    | some a =>
      rcases hm.head hq with ⟨-, hc⟩ | ⟨f, p, ps, hs, -, -⟩
      · simp only [hq, dequeueProcess, hc, if_true, Option.some.injEq, Prod.mk.injEq] at hd
        rw [← hd.2, ← hq, Function.update_eq_self]
        exact ⟨shape, hm⟩
      · obtain ⟨a', q', -, -, hd', hm'⟩ := hm.dequeueProcess hs
        cases hd.symm.trans hd'
        exact ⟨_, hm'⟩
  | pushback i e => cases hop

lemma models_run (hops : ∀ op ∈ ops, op.isPushback = false) (h : run ops = some st) :
    ∃ shape, Models st.heap st.ptr shape := by
  have hevery : EveryStep step (start ι) (fun _ op => op.isPushback = false) ops := by
    intro before op after he c _
    exact hops op (by simp [he])
  apply hevery.induction (motive := fun st => ∃ shape, Models st.heap st.ptr shape)
  · exact ⟨fun _ => .null, represents_null _⟩
  · rintro c d op ⟨shape, hm⟩ hop hs
    exact models_step hm hop hs
  · exact h

omit [DecidableEq ι] in
lemma lt_top (hm : Models h ptr shape) {a : ℕ} (ha : ptr i = some a) : a < h.top := by
  obtain ⟨cells, hf, -⟩ := hm
  obtain ⟨as, has⟩ := hf.cells_eq ha
  exact hf.bound i a (by simp [has])

lemma processes_single {a p : ℕ} (ha : a < h.top) (hnext : (h.cell a).next = none)
    (hp : (h.cell a).process = some p) : processes h (some a) = [p] := by
  have hchain : IsChain Queue.next h (some a) [a] := ⟨rfl, hnext⟩
  rw [processes, hchain.visit (Nat.one_le_of_lt ha), Option.getD_some]
  simp [hp]

lemma undone_iff (hm : Models h ptr shape) (hne : processes h (ptr i) ≠ []) :
    Undone h (ptr i) ↔ (processes h (ptr i)).length = 1 := by
  rw [hm.processes_eq] at hne ⊢
  obtain ⟨f, p, ps, hs⟩ := Shape.exists_chain hne
  obtain ⟨a, q, ha, hp, hd, hm'⟩ := hm.dequeueProcess hs
  have hundone : Undone h (ptr i) ↔
      processes (pushbackQueueElement h q a).1 (pushbackQueueElement h q a).2 =
        (shape i).processes := by
    rw [← hm.processes_eq]
    constructor
    · rintro ⟨e, q', hd', hsame⟩
      cases hd.symm.trans hd'
      exact hsame
    · exact fun hsame => ⟨a, q, hd, hsame⟩
  have hqnext : q = (h.cell a).next := by
    simp only [ha, dequeueProcess, hp, reduceCtorEq, if_false, Option.some.injEq,
      Prod.mk.injEq] at hd
    exact hd.2.symm
  rw [hundone, hs, Shape.processes_chain, List.length_cons]
  cases ps with
  | nil =>
    -- the element is all there was, so that its link is null
    have hq : q = none := by
      have hnull := (hm'.null_iff i).mpr (by rw [Function.update_self, hs]; rfl)
      rwa [Function.update_self] at hnull
    have hcell : (pushbackQueueElement h none a).1.cell a = { h.cell a with isHead := true } :=
      Heap.write_cell_self ..
    have hpush : processes (pushbackQueueElement h q a).1 (pushbackQueueElement h q a).2 = [p] := by
      rw [hq] at hqnext ⊢
      apply processes_single
      · rw [top_pushback]
        exact lt_top hm ha
      · rw [hcell]
        exact hqnext.symm
      · rw [hcell]
        exact hp
    simp [hpush]
  | cons p' ps =>
    -- the node that is first now has no flag, and nothing is pushed in front of it
    rw [hs, Shape.dequeue] at hm'
    obtain ⟨b, hb⟩ : ∃ b, Function.update ptr i q i = some b := by
      rw [← Option.ne_none_iff_exists', ne_eq, hm'.null_iff i, Function.update_self]
      simp
    have hflag : (h.cell b).isHead = false := by
      rcases hm'.head hb with ⟨hempty, -⟩ | ⟨f', r, rs, hchain, hf, -⟩
      · rw [Function.update_self] at hempty
        cases hempty
      · rw [Function.update_self] at hchain
        cases hchain
        exact hf
    have hafter := hm'.processes_eq i
    rw [Function.update_self] at hb
    rw [Function.update_self, Function.update_self, Shape.processes_chain] at hafter
    have hpush : pushbackQueueElement h q a = (h, q) := by
      rw [hb, pushbackQueueElement]
      simp [hflag]
    rw [hpush, hafter]
    constructor
    · intro hsame
      have hlen := congrArg List.length hsame
      simp at hlen
    · intro hlen
      simp at hlen

/-- In a run that pushes nothing back, a dequeue is undone exactly when the queue held one process.
In every run, an element that was returned is added to a queue exactly when the pointer and the link
of the element are null, or the first node has the flag and the element is not behind it. -/
theorem pushback_iff (hrun : run ops = some st) (i : ι) :
    ((∀ op ∈ ops, op.isPushback = false) → processes st.heap (st.ptr i) ≠ [] →
      (Undone st.heap (st.ptr i) ↔ (processes st.heap (st.ptr i)).length = 1)) ∧
    ∀ e ∈ st.returned, AddsOne st.heap (st.ptr i) e ↔
      (st.ptr i = none ∧ (st.heap.cell e).next = none) ∨
        ∃ q nodes, st.ptr i = some q ∧ (st.heap.cell q).isHead = true ∧
          visit Queue.next st.heap st.heap.top (some q) = some nodes ∧ e ∉ nodes := by
  have hb := bounded_run hrun
  constructor
  · intro hops hne
    obtain ⟨shape, hm⟩ := models_run hops hrun
    exact undone_iff hm hne
  · intro e he
    obtain ⟨hlt, hprocess⟩ := hb.returned e he
    obtain ⟨p, hp⟩ := Option.ne_none_iff_exists'.mp hprocess
    cases hq : st.ptr i with
    | none =>
      rw [addsOne_null hlt hb.next hp]
      simp
    | some q =>
      by_cases hflag : (st.heap.cell q).isHead = true
      · cases hvisit : visit Queue.next st.heap st.heap.top (some q) with
        | none =>
          have hnot : ¬ AddsOne st.heap (some q) e := by
            rintro ⟨p, before, -, hbefore, -⟩
            rw [contents, hvisit] at hbefore
            cases hbefore
          simp [hnot, hvisit]
        | some nodes =>
          by_cases hmem : e ∈ nodes
          · have hadds := not_addsOne_member hflag hvisit hmem
            simp [hadds, hvisit, hmem]
          · have hptr : ∀ a, some q = some a → a < st.heap.top := hq ▸ hb.ptr i
            have hadds := addsOne_marked hlt hptr hb.next hp hflag (isChain_of_visit hvisit) hmem
            simp [hadds, hflag, hvisit, hmem]
      · have hadds := not_addsOne_unmarked (e := e) (Bool.eq_false_iff.mpr hflag)
        simp [hadds, hflag]

/-- A process is enqueued, dequeued and pushed back. -/
theorem pushback_iff_demo :
    ∃ st st' : Client Unit, run [.create (), .enqueue () 0] = some st ∧
      Undone st.heap (st.ptr ()) ∧
      run [.create (), .enqueue () 0, .dequeue ()] = some st' ∧
      AddsOne st'.heap (st'.ptr ()) 0 := by
  have hrun : run [.create (), .enqueue () 0] = some _ := rfl
  have hrun' : run [.create (), .enqueue () 0, .dequeue ()] = some _ := rfl
  refine ⟨_, _, hrun, ?_, hrun', ?_⟩
  · exact ((pushback_iff hrun ()).1 (by decide) (by decide)).mpr rfl
  · exact ((pushback_iff hrun' ()).2 0 (by decide)).mpr (.inl ⟨rfl, rfl⟩)

/-- With two processes enqueued, the first one is not put back. -/
theorem pushback_fails :
    ∃ st : Client Unit, run [.create (), .enqueue () 0, .enqueue () 1] = some st ∧
      processes st.heap (st.ptr ()) = [0, 1] ∧ ¬ Undone st.heap (st.ptr ()) ∧
      ∃ e q, dequeueProcess st.heap (st.ptr ()) = some (some e, q) ∧
        processes (pushbackQueueElement st.heap q e).1 (pushbackQueueElement st.heap q e).2 =
          [1] := by
  refine ⟨_, rfl, rfl, ?_, _, _, rfl, rfl⟩
  rintro ⟨e, q, hd, hsame⟩
  cases hd
  exact absurd hsame (by decide)

end Runs

end Eece315.DispatcherPushback
