import Eece315.DispatcherQueue
import Eece315.StepRuns

/-! One queue under any sequence of enqueues and dequeues. The chain is first in, first out
exactly as long as every dequeue is followed by further dequeues until the queue is empty:
an enqueue in between takes the unmarked first node for an empty queue. -/
namespace Eece315.DispatcherQueueFifo
open HeapChain DispatcherQueue StepRuns

inductive Op
  | enqueue (process : ℕ)
  | dequeue
  deriving DecidableEq, Repr

/-- A program's one queue pointer, and what `dequeueProcess` has returned to it so far. -/
structure Client where
  heap : Heap Queue
  queuePtr : Option ℕ
  returned : List ℕ

def emptyHeap : Heap Queue := ⟨fun _ => ⟨false, none, none⟩, 0⟩

def start : Client :=
  let (q, h) := initializeQueue emptyHeap
  ⟨h, some q, []⟩

/-- A dequeue on a queue that holds no process is outside the sequences considered. -/
def step (st : Client) : Op → Option Client
  | .enqueue p => do
    let (q, h) ← enqueueOrInit st.heap st.queuePtr p
    return { st with heap := h, queuePtr := q }
  | .dequeue => do
    let (element, q) ← dequeueProcess st.heap st.queuePtr
    let p ← (st.heap.cell (← element)).process
    return { st with queuePtr := q, returned := st.returned ++ [p] }

def run (ops : List Op) : Option Client := ops.foldlM step start

/-- Every dequeue comes to a queue that holds a process. -/
def Served (ops : List Op) : Prop :=
  EveryStep step start (fun st op => op = .dequeue → processes st.heap st.queuePtr ≠ []) ops

def enqueued (ops : List Op) : List ℕ :=
  ops.filterMap fun
    | .enqueue p => some p
    | .dequeue => none

/-- No enqueue comes after a dequeue that left processes behind: `held` counts the processes
in the queue and `popped` says that one was dequeued since the queue was last filled. -/
def DrainsFirst : ℕ → Bool → List Op → Prop
  | _, _, [] => True
  | held, popped, .enqueue _ :: ops =>
    (held = 0 ∨ popped = false) ∧ DrainsFirst (held + 1) false ops
  | held, _, .dequeue :: ops => DrainsFirst (held - 1) true ops

instance : ∀ (held : ℕ) (popped : Bool) (ops : List Op), Decidable (DrainsFirst held popped ops)
  | _, _, [] => isTrue trivial
  | held, popped, .enqueue _ :: ops =>
    have := instDecidableDrainsFirst (held + 1) false ops
    inferInstanceAs (Decidable ((held = 0 ∨ popped = false) ∧ DrainsFirst (held + 1) false ops))
  | held, _, .dequeue :: ops => instDecidableDrainsFirst (held - 1) true ops

private lemma update_unit {α : Type*} (a b : α) :
    Function.update (fun _ : Unit => a) () b = fun _ => b :=
  Function.update_eq_const_of_subsingleton () b _

/-- The client's pointer stands for a queue of shape `s`. -/
def Holds (st : Client) (s : Shape) : Prop :=
  Models st.heap (fun _ : Unit => st.queuePtr) fun _ => s

lemma holds_start : Holds start .empty := by
  have hm : Models emptyHeap (fun _ : Unit => none) fun _ => .null :=
    represents_null emptyHeap
  have hi := hm.initializeQueue ()
  rwa [update_unit, update_unit] at hi

lemma Holds.processes_eq {st : Client} {s : Shape} (h : Holds st s) :
    processes st.heap st.queuePtr = s.processes := Models.processes_eq h ()

lemma Holds.enqueue {st : Client} {s : Shape} (h : Holds st s) (p : ℕ) :
    ∃ st', step st (.enqueue p) = some st' ∧ Holds st' (s.enqueue p) ∧
      st'.returned = st.returned := by
  obtain ⟨q, h', he, hm⟩ := Models.enqueueOrInit h () p
  rw [update_unit, update_unit] at hm
  exact ⟨{ st with heap := h', queuePtr := some q }, by simp [step, he], hm, rfl⟩

lemma Holds.dequeue {st st' : Client} {s : Shape} (h : Holds st s)
    (hs : step st .dequeue = some st') :
    ∃ p ps, s.processes = p :: ps ∧ Holds st' s.dequeue ∧
      st'.returned = st.returned ++ [p] := by
  cases s with
  | null =>
    have hn : st.queuePtr = none := (Models.null_iff h ()).mpr rfl
    simp [step, hn, dequeueProcess] at hs
  | empty =>
    obtain ⟨q, hq⟩ := Option.ne_none_iff_exists'.mp
      (fun hn => Shape.noConfusion ((Models.null_iff h ()).mp hn))
    rcases Models.head h (i := ()) hq with ⟨-, hc⟩ | ⟨f, p, ps, hc, -⟩
    · simp [step, hq, dequeueProcess, hc] at hs
    · cases hc
  | chain f p ps =>
    obtain ⟨a, q, -, hp, hd, hm⟩ := Models.dequeueProcess h (i := ()) rfl
    rw [update_unit, update_unit] at hm
    simp only [step, hd, hp, Option.bind_eq_bind, Option.bind_some, Option.pure_def,
      Option.some.injEq] at hs
    subst hs
    exact ⟨p, ps, rfl, hm, rfl⟩

lemma Holds.dequeue_ne {st : Client} {s : Shape} (h : Holds st s) (hne : s.processes ≠ []) :
    ∃ st', step st .dequeue = some st' := by
  cases s with
  | null => exact absurd rfl hne
  | empty => exact absurd rfl hne
  | chain f p ps =>
    obtain ⟨a, q, -, hp, hd, -⟩ := Models.dequeueProcess h (i := ()) rfl
    exact ⟨_, by simp only [step, hd, hp, Option.bind_eq_bind, Option.bind_some]; rfl⟩

lemma Served.exists_run {ops : List Op} (h : Served ops) : ∃ st, run ops = some st := by
  refine EveryStep.exists_run (motive := fun st => ∃ s, Holds st s) ⟨_, holds_start⟩ ?_ h
  rintro st op ⟨s, hs⟩ hserved
  cases op with
  | enqueue p =>
    obtain ⟨st', hstep, hs', -⟩ := hs.enqueue p
    exact ⟨st', hstep, _, hs'⟩
  | dequeue =>
    have hne := hserved rfl
    rw [hs.processes_eq] at hne
    obtain ⟨st', hstep⟩ := hs.dequeue_ne hne
    obtain ⟨p, ps, -, hs', -⟩ := hs.dequeue hstep
    exact ⟨st', hstep, _, hs'⟩

/-- The flag of `DrainsFirst` is the missing mark of the first node. -/
def unmarked : Shape → Bool
  | .chain false _ _ => true
  | _ => false

lemma unmarked_enqueue (s : Shape) (p : ℕ) : unmarked (s.enqueue p) = false := by
  rcases s with _ | _ | ⟨_ | _, q, ps⟩ <;> rfl

lemma drainsFirst_enqueue {s : Shape} (hc : s.overwritten = none) (p : ℕ) (ops : List Op) :
    DrainsFirst s.processes.length (unmarked s) (.enqueue p :: ops) ↔
      DrainsFirst (s.enqueue p).processes.length (unmarked (s.enqueue p)) ops := by
  rw [unmarked_enqueue, Shape.processes_enqueue s p hc, List.length_append, List.length_singleton]
  apply and_iff_right
  rcases s with _ | _ | ⟨_ | _, q, ps⟩ <;> simp_all [unmarked, Shape.overwritten]

lemma drainsFirst_dequeue {s : Shape} {p : ℕ} {ps : List ℕ} (hps : s.processes = p :: ps)
    (ops : List Op) :
    DrainsFirst s.processes.length (unmarked s) (.dequeue :: ops) ↔
      DrainsFirst s.dequeue.processes.length (unmarked s.dequeue) ops := by
  have hcount : s.processes.length - 1 = s.dequeue.processes.length := by
    simp [Shape.processes_dequeue hps, hps]
  change DrainsFirst (s.processes.length - 1) true ops ↔ _
  rw [hcount]
  rcases s with _ | _ | ⟨f, q, _ | ⟨r, rs⟩⟩
  · cases hps
  · cases hps
  · -- the emptied queue: the flag no longer matters
    cases ops with
    | nil => exact Iff.rfl
    | cons op ops => cases op <;> simp [DrainsFirst, Shape.dequeue]
  · exact Iff.rfl

/-- What a run returns and leaves behind is everything enqueued, in order, when it drains the
queue before every refill, and has fewer entries otherwise. -/
structure Outcome (ops : List Op) (st st' : Client) (s s' : Shape) : Prop where
  kept : DrainsFirst s.processes.length (unmarked s) ops →
    st'.returned ++ s'.processes = st.returned ++ s.processes ++ enqueued ops
  lost : ¬ DrainsFirst s.processes.length (unmarked s) ops →
    (st'.returned ++ s'.processes).length <
      (st.returned ++ s.processes ++ enqueued ops).length

section Outcomes

variable {ops : List Op} {st st₁ st' : Client} {s s' : Shape} {p : ℕ}

lemma Outcome.length_le (h : Outcome ops st st' s s') : (st'.returned ++ s'.processes).length ≤
    (st.returned ++ s.processes ++ enqueued ops).length := by
  by_cases hd : DrainsFirst s.processes.length (unmarked s) ops
  · exact (congrArg List.length (h.kept hd)).le
  · exact (h.lost hd).le

lemma Outcome.enqueue (h : Outcome ops st₁ st' (s.enqueue p) s')
    (hret : st₁.returned = st.returned) : Outcome (.enqueue p :: ops) st st' s s' := by
  have he : enqueued (.enqueue p :: ops) = p :: enqueued ops := rfl
  cases hc : s.overwritten with
  | none =>
    have hp := Shape.processes_enqueue s p hc
    have hd := drainsFirst_enqueue hc p ops
    constructor
    · intro hkept
      rw [h.kept (hd.mp hkept), hret, hp, he]
      simp
    · intro hlost
      have hlength := h.lost (mt hd.mpr hlost)
      simp only [hret, hp, he, List.length_append, List.length_cons, List.length_nil] at hlength ⊢
      omega
  | some q =>
    obtain ⟨ps, rfl⟩ : ∃ ps, s = .chain false q ps := by
      rcases s with _ | _ | ⟨_ | _, r, ps⟩ <;> simp_all [Shape.overwritten]
    have hlength := h.length_le
    refine ⟨fun hkept => absurd hkept.1 (by simp [unmarked]), fun _ => ?_⟩
    simp only [hret, he, Shape.enqueue, Shape.processes_chain, List.length_append,
      List.length_cons] at hlength ⊢
    omega

lemma Outcome.dequeue {ps : List ℕ} (h : Outcome ops st₁ st' s.dequeue s')
    (hps : s.processes = p :: ps) (hret : st₁.returned = st.returned ++ [p]) :
    Outcome (.dequeue :: ops) st st' s s' := by
  have hp := Shape.processes_dequeue hps
  have he : enqueued (.dequeue :: ops) = enqueued ops := rfl
  have hd := drainsFirst_dequeue hps ops
  constructor
  · intro hkept
    rw [h.kept (hd.mp hkept), hret, hps, hp, he]
    simp
  · intro hlost
    have hlength := h.lost (mt hd.mpr hlost)
    simp only [hret, hps, hp, he, List.length_append, List.length_cons,
      List.length_nil] at hlength ⊢
    omega

end Outcomes

lemma run_from (ops : List Op) {st st' : Client} {s : Shape} (h : Holds st s)
    (hr : ops.foldlM step st = some st') : ∃ s', Holds st' s' ∧ Outcome ops st st' s s' := by
  induction ops generalizing st s with
  | nil =>
    obtain rfl : st = st' := by simpa using hr
    exact ⟨s, h, fun _ => by simp [enqueued], fun hn => absurd trivial hn⟩
  | cons op ops ih =>
    rw [List.foldlM_cons] at hr
    obtain ⟨st₁, h₁, hr₁⟩ := Option.bind_eq_some_iff.mp hr
    cases op with
    | enqueue p =>
      obtain ⟨st₂, h₂, hm, hret⟩ := h.enqueue p
      obtain rfl : st₁ = st₂ := by simpa [h₁] using h₂
      obtain ⟨s', hs', hout⟩ := ih hm hr₁
      exact ⟨s', hs', hout.enqueue hret⟩
    | dequeue =>
      obtain ⟨p, ps, hps, hm, hret⟩ := h.dequeue h₁
      obtain ⟨s', hs', hout⟩ := ih hm hr₁
      exact ⟨s', hs', hout.dequeue hps hret⟩

/-- The linked queue serves every sequence, and is first in, first out on exactly those that
drain it before every refill. -/
theorem fifo_iff_drainsFirst (ops : List Op) (hserved : Served ops) :
    ∃ st, run ops = some st ∧
      (st.returned ++ processes st.heap st.queuePtr = enqueued ops ↔ DrainsFirst 0 false ops) := by
  obtain ⟨st, h⟩ := hserved.exists_run
  obtain ⟨s, hs, hkept, hlost⟩ := run_from ops holds_start h
  rw [← hs.processes_eq] at hkept hlost
  have hstart : start.returned ++ Shape.empty.processes ++ enqueued ops = enqueued ops := rfl
  rw [hstart] at hkept hlost
  refine ⟨st, h, fun he => ?_, hkept⟩
  by_contra hn
  exact absurd (congrArg List.length he) (hlost hn).ne

theorem fifo_iff_drainsFirst_demo :
    ∃ st, run [.enqueue 0, .enqueue 1, .enqueue 2, .dequeue] = some st ∧
      st.returned ++ processes st.heap st.queuePtr = [0, 1, 2] := by
  have hserved : Served [.enqueue 0, .enqueue 1, .enqueue 2, .dequeue] := by
    refine everyStep_cons.mpr ⟨by simp, fun c₁ h₁ => everyStep_cons.mpr ⟨by simp, fun c₂ h₂ =>
      everyStep_cons.mpr ⟨by simp, fun c₃ h₃ => everyStep_cons.mpr ⟨fun _ => ?_, fun _ _ =>
        everyStep_nil⟩⟩⟩⟩
    cases h₁
    cases h₂
    cases h₃
    decide
  obtain ⟨st, hst, hiff⟩ := fifo_iff_drainsFirst _ hserved
  exact ⟨st, hst, hiff.mpr (by decide)⟩

/-- Refilling a queue that has lost its first element replaces the second one. -/
theorem fifo_fails : Served [.enqueue 0, .enqueue 1, .dequeue, .enqueue 2] ∧
    ∃ st, run [.enqueue 0, .enqueue 1, .dequeue, .enqueue 2] = some st ∧
      st.returned ++ processes st.heap st.queuePtr ≠
        enqueued [.enqueue 0, .enqueue 1, .dequeue, .enqueue 2] := by
  refine ⟨?_, _, rfl, by decide⟩
  refine everyStep_cons.mpr ⟨by simp, fun c₁ h₁ => everyStep_cons.mpr ⟨by simp, fun c₂ h₂ =>
    everyStep_cons.mpr ⟨fun _ => ?_, fun _ _ => everyStep_cons.mpr ⟨by simp, fun _ _ =>
      everyStep_nil⟩⟩⟩⟩
  cases h₁
  cases h₂
  decide

end Eece315.DispatcherQueueFifo
