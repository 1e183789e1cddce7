import Mathlib
import Eece315.StepRuns

/-! Threads with straight-line programs over shared locks. A thread may wait for a lock, release
one or act; every interleaving of the threads is a schedule. Threads that take their locks in
the order of a rank are never all stuck, and what a thread's program guarantees at each of its
points on its own holds at that point in every run. -/
namespace Eece315.LockPrograms

open StepRuns

inductive Instr (L A : Type*)
  | lock (l : L)
  | unlock (l : L)
  | act (a : A)
  deriving DecidableEq, Repr

/-- What each thread still has to do, who holds each lock, and the acts so far. -/
structure Config (T L A : Type*) where
  rest : T → List (Instr L A)
  holder : L → Option T
  log : List (T × A)

variable {T L A : Type*}

def heldBy (holder : L → Option T) (t : T) : Set L := {l | holder l = some t}

def acts : List (Instr L A) → List A
  | [] => []
  | .lock _ :: p => acts p
  | .unlock _ :: p => acts p
  | .act a :: p => a :: acts p

/-- `P` holds at every point of a program that is run by itself, of the locks held there, the
acts so far and the rest of the program. -/
def Along (P : Set L → List A → List (Instr L A) → Prop) :
    Set L → List A → List (Instr L A) → Prop
  | held, done, [] => P held done []
  | held, done, .lock l :: p => P held done (.lock l :: p) ∧ Along P (insert l held) done p
  | held, done, .unlock l :: p => P held done (.unlock l :: p) ∧ Along P (held \ {l}) done p
  | held, done, .act a :: p => P held done (.act a :: p) ∧ Along P held (done ++ [a]) p

/-- The discipline of ranked locks: a lock is taken while only locks of lower rank are held, only
a lock that is held is released, and none is held in the end. -/
def Ranked (rank : L → ℕ) (held : Set L) : List (Instr L A) → Prop
  | [] => held = ∅
  | .lock l :: _ => ∀ l' ∈ held, rank l' < rank l
  | .unlock l :: _ => l ∈ held
  | .act _ :: _ => True

section Points

variable {P Q : Set L → List A → List (Instr L A) → Prop} {held : Set L} {done : List A}
  {p : List (Instr L A)}

lemma Along.head (h : Along P held done p) : P held done p := by
  rcases p with _ | ⟨_ | _ | _, p⟩
  exacts [h, h.1, h.1, h.1]

lemma Along.and (h : Along P held done p) (g : Along Q held done p) :
    Along (fun held done p => P held done p ∧ Q held done p) held done p := by
  induction p generalizing held done with
  | nil => exact ⟨h, g⟩
  | cons i p ih => cases i <;> exact ⟨⟨h.1, g.1⟩, ih h.2 g.2⟩

lemma acts_append (p q : List (Instr L A)) : acts (p ++ q) = acts p ++ acts q := by
  induction p with
  | nil => rfl
  | cons i p ih => cases i <;> simp [acts, ih]

lemma along_acts {all : List A} (h : done ++ acts p = all) :
    Along (fun _ done p => done ++ acts p = all) held done p := by
  induction p generalizing held done with
  | nil => exact h
  | cons i p ih =>
    cases i with
    | lock l => exact ⟨h, ih h⟩
    | unlock l => exact ⟨h, ih h⟩
    | act a => exact ⟨h, ih (by simpa [acts] using h)⟩

end Points

section Holders

variable {holder : L → Option T} {t u : T} {l : L}

lemma eq_of_mem_heldBy (ht : l ∈ heldBy holder t) (hu : l ∈ heldBy holder u) : t = u :=
  Option.some.inj (ht.symm.trans hu)

variable [DecidableEq L]

lemma heldBy_lock_self (holder : L → Option T) (l : L) (t : T) :
    heldBy (Function.update holder l (some t)) t = insert l (heldBy holder t) := by
  ext l'
  by_cases h : l' = l
  · subst h
    simp [heldBy]
  · simp [heldBy, h]

lemma heldBy_lock_of_ne (hfree : holder l = none) (hne : u ≠ t) :
    heldBy (Function.update holder l (some t)) u = heldBy holder u := by
  ext l'
  by_cases h : l' = l
  · subst h
    simp [heldBy, hfree, hne.symm]
  · simp [heldBy, h]

lemma heldBy_unlock (holder : L → Option T) (l : L) (t : T) :
    heldBy (Function.update holder l none) t = heldBy holder t \ {l} := by
  ext l'
  by_cases h : l' = l
  · subst h
    simp [heldBy]
  · simp [heldBy, h]

end Holders

variable [DecidableEq T]

def actsOf (log : List (T × A)) (t : T) : List A := (log.filter fun e => e.1 = t).map Prod.snd

@[simp] lemma actsOf_nil (t : T) : actsOf ([] : List (T × A)) t = [] := rfl

lemma actsOf_append_self (log : List (T × A)) (t : T) (a : A) :
    actsOf (log ++ [(t, a)]) t = actsOf log t ++ [a] := by
  simp [actsOf, List.filter_append]

lemma actsOf_append_of_ne (log : List (T × A)) {t u : T} (a : A) (hne : u ≠ t) :
    actsOf (log ++ [(t, a)]) u = actsOf log u := by
  simp [actsOf, List.filter_append, hne.symm]

variable [DecidableEq L]

/-- Thread `t` makes a step, unless it has finished or waits for a lock. A lock is released
whoever holds it. -/
def step (c : Config T L A) (t : T) : Option (Config T L A) :=
  match c.rest t with
  | [] => none
  | .lock l :: p =>
    if c.holder l = none then
      some ⟨Function.update c.rest t p, Function.update c.holder l (some t), c.log⟩
    else none
  | .unlock l :: p => some ⟨Function.update c.rest t p, Function.update c.holder l none, c.log⟩
  | .act a :: p => some ⟨Function.update c.rest t p, c.holder, c.log ++ [(t, a)]⟩

def initial (prog : T → List (Instr L A)) : Config T L A := ⟨prog, fun _ => none, []⟩

def run (prog : T → List (Instr L A)) (schedule : List T) : Option (Config T L A) :=
  schedule.foldlM step (initial prog)

section Steps

variable {c d : Config T L A} {t : T}

lemma step_cases (h : step c t = some d) :
    (∃ l p, c.rest t = .lock l :: p ∧ c.holder l = none ∧
      d = ⟨Function.update c.rest t p, Function.update c.holder l (some t), c.log⟩) ∨
    (∃ l p, c.rest t = .unlock l :: p ∧
      d = ⟨Function.update c.rest t p, Function.update c.holder l none, c.log⟩) ∨
    ∃ a p, c.rest t = .act a :: p ∧
      d = ⟨Function.update c.rest t p, c.holder, c.log ++ [(t, a)]⟩ := by
  unfold step at h
  split at h
  · cases h
  · rename_i l p hp
    split_ifs at h with hfree
    exact .inl ⟨l, p, hp, hfree, (Option.some.inj h).symm⟩
  · rename_i l p hp
    exact .inr (.inl ⟨l, p, hp, (Option.some.inj h).symm⟩)
  · rename_i a p hp
    exact .inr (.inr ⟨a, p, hp, (Option.some.inj h).symm⟩)

lemma step_or_waits (c : Config T L A) (h : c.rest t ≠ []) :
    (∃ d, step c t = some d) ∨ ∃ l p u, c.rest t = .lock l :: p ∧ c.holder l = some u := by
  unfold step
  rcases hp : c.rest t with _ | ⟨l | l | a, p⟩
  · exact absurd hp h
  · cases hl : c.holder l with
    | none => exact .inl ⟨_, if_pos hl⟩
    | some u => exact .inr ⟨l, p, u, rfl, hl⟩
  · exact .inl ⟨_, rfl⟩
  · exact .inl ⟨_, rfl⟩

end Steps

/-- The threads are at points of their own programs, with the locks and acts that they have
there. -/
def InStep (P : T → Set L → List A → List (Instr L A) → Prop) (c : Config T L A) : Prop :=
  ∀ t, Along (P t) (heldBy c.holder t) (actsOf c.log t) (c.rest t)

section Runs

variable {P : T → Set L → List A → List (Instr L A) → Prop} {rank : L → ℕ}
  {prog : T → List (Instr L A)} {schedule : List T} {c d : Config T L A} {t : T}

omit [DecidableEq L] in
lemma InStep.holds_of_unlock
    (hP : ∀ t held done p, P t held done p → Ranked rank held p) (h : InStep P c)
    {l : L} {p : List (Instr L A)} (hp : c.rest t = .unlock l :: p) : c.holder l = some t := by
  have hr := hP _ _ _ _ (h t).head
  rwa [hp] at hr

lemma InStep.step (hP : ∀ t held done p, P t held done p → Ranked rank held p) (h : InStep P c)
    (hs : step c t = some d) : InStep P d := by
  intro u
  have hu := h u
  by_cases hut : u = t
  · subst hut
    rcases step_cases hs with ⟨l, p, hp, -, rfl⟩ | ⟨l, p, hp, rfl⟩ | ⟨a, p, hp, rfl⟩ <;> dsimp only
    · rw [hp] at hu
      rw [heldBy_lock_self, Function.update_self]
      exact hu.2
    · rw [hp] at hu
      rw [heldBy_unlock, Function.update_self]
      exact hu.2
    · rw [hp] at hu
      rw [actsOf_append_self, Function.update_self]
      exact hu.2
  · rcases step_cases hs with ⟨l, p, hp, hfree, rfl⟩ | ⟨l, p, hp, rfl⟩ | ⟨a, p, hp, rfl⟩ <;>
      dsimp only
    · rwa [heldBy_lock_of_ne hfree hut, Function.update_of_ne hut]
    · -- the lock released is not one of the other thread's
      have hnot : l ∉ heldBy c.holder u :=
        fun hlu => hut (eq_of_mem_heldBy hlu (h.holds_of_unlock hP hp))
      rwa [heldBy_unlock, Set.sdiff_singleton_eq_self hnot, Function.update_of_ne hut]
    · rwa [actsOf_append_of_ne _ _ hut, Function.update_of_ne hut]

omit [DecidableEq L] in
lemma inStep_initial (hprog : ∀ t, Along (P t) ∅ [] (prog t)) : InStep P (initial prog) := by
  intro t
  have hheld : heldBy (initial prog).holder t = ∅ := by simp [heldBy, initial]
  rw [hheld]
  exact hprog t

theorem inStep_run (hP : ∀ t held done p, P t held done p → Ranked rank held p)
    (hprog : ∀ t, Along (P t) ∅ [] (prog t)) (h : run prog schedule = some c) : InStep P c :=
  foldlM_induction (inStep_initial hprog) (fun _ _ _ hc hs => hc.step hP hs) h

/-- Ranked threads are not all stuck: the one that waits for the highest lock waits for a thread
that steps. -/
theorem InStep.progress [Finite T] (hP : ∀ t held done p, P t held done p → Ranked rank held p)
    (h : InStep P c) (hleft : ∃ t, c.rest t ≠ []) : ∃ t d, LockPrograms.step c t = some d := by
  by_contra! hstuck
  have hwaits : ∀ t, c.rest t ≠ [] → ∃ l p u, c.rest t = .lock l :: p ∧ c.holder l = some u := by
    intro t ht
    rcases step_or_waits c ht with ⟨d, hd⟩ | hw
    · exact absurd hd (hstuck t d)
    · exact hw
  -- the highest of the locks waited for
  let wanted : T → ℕ := fun t => match c.rest t with
    | .lock l :: _ => rank l
    | _ => 0
  obtain ⟨t, ht, hmax⟩ := Set.exists_max_image {t | c.rest t ≠ []} wanted
    (Set.toFinite _) hleft
  obtain ⟨l, p, u, hp, hl⟩ := hwaits t ht
  have hru := hP _ _ _ _ (h u).head
  have hu : c.rest u ≠ [] := by
    intro hnil
    rw [hnil] at hru
    exact Set.notMem_empty l (hru ▸ (show l ∈ heldBy c.holder u from hl))
  obtain ⟨l', p', u', hp', -⟩ := hwaits u hu
  rw [hp'] at hru
  have hlt : rank l < rank l' := hru l hl
  have hle : wanted u ≤ wanted t := hmax u hu
  simp only [wanted, hp, hp'] at hle
  omega

/-- A run that cannot go on has run every program to its end, and all locks are free. -/
theorem InStep.terminal [Finite T] (hP : ∀ t held done p, P t held done p → Ranked rank held p)
    (h : InStep P c) (hstop : ∀ t, LockPrograms.step c t = none) :
    (∀ t, c.rest t = []) ∧ ∀ l, c.holder l = none := by
  have hdone : ∀ t, c.rest t = [] := by
    by_contra! hleft
    obtain ⟨t, d, hd⟩ := h.progress hP hleft
    rw [hstop t] at hd
    cases hd
  refine ⟨hdone, fun l => ?_⟩
  cases hl : c.holder l with
  | none => rfl
  | some t =>
    have hr := hP _ _ _ _ (h t).head
    rw [hdone t] at hr
    exact (Set.notMem_empty l (hr ▸ (show l ∈ heldBy c.holder t from hl))).elim

lemma length_step [Fintype T] (h : LockPrograms.step c t = some d) :
    ∑ u, (d.rest u).length < ∑ u, (c.rest u).length := by
  obtain ⟨i, p, hp, hd⟩ : ∃ i p, c.rest t = i :: p ∧ d.rest = Function.update c.rest t p := by
    rcases step_cases h with ⟨l, p, hp, -, rfl⟩ | ⟨l, p, hp, rfl⟩ | ⟨a, p, hp, rfl⟩
    exacts [⟨_, p, hp, rfl⟩, ⟨_, p, hp, rfl⟩, ⟨_, p, hp, rfl⟩]
  refine Finset.sum_lt_sum (fun u _ => ?_) ⟨t, Finset.mem_univ t, ?_⟩
  · by_cases hu : u = t
    · subst hu
      simp [hd, hp]
    · rw [hd, Function.update_of_ne hu]
  · simp [hd, hp]

theorem length_run [Fintype T] (h : run prog schedule = some c) :
    schedule.length + ∑ t, (c.rest t).length ≤ ∑ t, (prog t).length :=
  foldlM_length_le (fun c => ∑ t, (c.rest t).length) (fun _ _ _ => length_step) h

end Runs

end Eece315.LockPrograms
