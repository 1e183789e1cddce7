import Mathlib
import Eece315.StepRuns

/-! A main thread that creates threads and joins them. Every thread has a state of its own that no
other thread touches; the threads that were created and the main thread step in any order. What
the steps of a thread keep holds of its state in every run, and a main thread that joins only
what it created, where the threads come to an end, is never stuck. -/
namespace Eece315.ForkJoin

open StepRuns

inductive Call (T : Type*)
  | create (t : T)
  | join (t : T)
  deriving DecidableEq, Repr

inductive Event (T : Type*)
  | main
  | thread (t : T)
  deriving DecidableEq, Repr

structure Code (S : Type*) where
  next : S → Option S
  ended : S → Bool
  next_of_ended : ∀ s, ended s → next s = none

structure Config (T S : Type*) where
  pending : List (Call T)
  created : T → Bool
  state : T → S

variable {T S : Type*} [DecidableEq T]

def step (code : Code S) (c : Config T S) : Event T → Option (Config T S)
  | .main => match c.pending with
    | [] => none
    | .create t :: p => some { c with pending := p, created := Function.update c.created t true }
    | .join t :: p => if code.ended (c.state t) then some { c with pending := p } else none
  | .thread t =>
    if c.created t then
      (code.next (c.state t)).map fun s => { c with state := Function.update c.state t s }
    else none

def initial (calls : List (Call T)) (start : T → S) : Config T S :=
  ⟨calls, fun _ => false, start⟩

def run (code : Code S) (calls : List (Call T)) (start : T → S) (schedule : List (Event T)) :
    Option (Config T S) :=
  schedule.foldlM (step code) (initial calls start)

/-- Every thread that is joined was created before. -/
def Paired (created : T → Bool) : List (Call T) → Prop
  | [] => True
  | .create t :: p => Paired (Function.update created t true) p
  | .join t :: p => created t ∧ Paired created p

variable {code : Code S} {calls : List (Call T)} {start : T → S} {schedule : List (Event T)}
  {c d : Config T S} {e : Event T}

lemma step_cases (h : step code c e = some d) :
    (∃ t p, c.pending = .create t :: p ∧
      d = { c with pending := p, created := Function.update c.created t true }) ∨
    (∃ t p, c.pending = .join t :: p ∧ code.ended (c.state t) ∧ d = { c with pending := p }) ∨
    ∃ t s, c.created t ∧ code.next (c.state t) = some s ∧
      d = { c with state := Function.update c.state t s } := by
  cases e with
  | main =>
    simp only [step] at h
    split at h
    · cases h
    · rename_i t p hp
      exact .inl ⟨t, p, hp, (Option.some.inj h).symm⟩
    · rename_i t p hp
      split_ifs at h with hended
      exact .inr (.inl ⟨t, p, hp, hended, (Option.some.inj h).symm⟩)
  | thread t =>
    simp only [step] at h
    split_ifs at h with hcreated
    obtain ⟨s, hs, rfl⟩ := Option.map_eq_some_iff.mp h
    exact .inr (.inr ⟨t, s, hcreated, hs, rfl⟩)

theorem inv_run (Inv : T → S → Prop) (base : ∀ t, Inv t (start t))
    (next : ∀ t s s', Inv t s → code.next s = some s' → Inv t s')
    (h : run code calls start schedule = some c) : ∀ t, Inv t (c.state t) := by
  refine foldlM_induction (motive := fun c => ∀ t, Inv t (c.state t)) base ?_ h
  intro c d e hc hs u
  rcases step_cases hs with ⟨t, p, -, rfl⟩ | ⟨t, p, -, -, rfl⟩ | ⟨t, s, -, hnext, rfl⟩
  · exact hc u
  · exact hc u
  · by_cases hu : u = t
    · subst hu
      simpa using next u _ s (hc u) hnext
    · simpa [Function.update_of_ne hu] using hc u

/-- A thread that is joined and need no longer be waited for has ended. -/
theorem joined_run (h : run code calls start schedule = some c) :
    ∀ t, .join t ∈ calls → .join t ∈ c.pending ∨ code.ended (c.state t) := by
  refine foldlM_induction
    (motive := fun c => ∀ t, .join t ∈ calls → .join t ∈ c.pending ∨ code.ended (c.state t))
    (fun t ht => .inl ht) ?_ h
  intro c d e hc hs u hu
  have hcu := hc u hu
  rcases step_cases hs with ⟨t, p, hp, rfl⟩ | ⟨t, p, hp, hended, rfl⟩ | ⟨t, s, -, hnext, rfl⟩
  · simpa [hp] using hcu
  · rcases hcu with hmem | hend
    · rw [hp] at hmem
      rcases List.mem_cons.mp hmem with heq | hmem
      · cases heq
        exact .inr hended
      · exact .inl hmem
    · exact .inr hend
  · rcases hcu with hmem | hend
    · exact .inl hmem
    · have hut : u ≠ t := by
        rintro rfl
        rw [code.next_of_ended _ hend] at hnext
        cases hnext
      exact .inr (by simpa [Function.update_of_ne hut] using hend)

lemma paired_joins {created : T → Bool} {ts : List T} (h : ∀ t ∈ ts, created t) :
    Paired created (ts.map .join) := by
  induction ts with
  | nil => trivial
  | cons t ts ih =>
    exact ⟨h t List.mem_cons_self, ih fun u hu => h u (List.mem_cons_of_mem t hu)⟩

lemma paired_creates {created : T → Bool} {ts us : List T}
    (h : ∀ t ∈ us, created t ∨ t ∈ ts) :
    Paired created (ts.map .create ++ us.map .join) := by
  induction ts generalizing created with
  | nil => exact paired_joins fun t ht => by simpa using h t ht
  | cons t ts ih =>
    apply ih
    intro u hu
    by_cases hut : u = t
    · exact .inl (by simp [hut])
    · simpa [Function.update_of_ne hut, hut] using h u hu

lemma paired_run (hcalls : Paired (fun _ => false) calls)
    (h : run code calls start schedule = some c) : Paired c.created c.pending := by
  refine foldlM_induction (motive := fun c => Paired c.created c.pending) hcalls ?_ h
  intro c d e hc hs
  rcases step_cases hs with ⟨t, p, hp, rfl⟩ | ⟨t, p, hp, -, rfl⟩ | ⟨t, s, -, -, rfl⟩
  · rwa [hp] at hc
  · rw [hp] at hc
    exact hc.2
  · exact hc

/-- Until the main thread has done all its calls, it or a thread can step. -/
theorem progress (hcalls : Paired (fun _ => false) calls)
    (hlive : ∀ t, code.ended (c.state t) ∨ ∃ s, code.next (c.state t) = some s)
    (h : run code calls start schedule = some c) (hpending : c.pending ≠ []) :
    ∃ e d, step code c e = some d := by
  have hpaired := paired_run hcalls h
  rcases hp : c.pending with _ | ⟨t | t, p⟩
  · exact absurd hp hpending
  · exact ⟨.main, Option.isSome_iff_exists.mp (by simp [step, hp])⟩
  · rw [hp] at hpaired
    rcases hlive t with hend | ⟨s, hs⟩
    · exact ⟨.main, Option.isSome_iff_exists.mp (by simp [step, hp, hend])⟩
    · exact ⟨.thread t, Option.isSome_iff_exists.mp (by simp [step, hpaired.1, hs])⟩

lemma length_step [Fintype T] {size : S → ℕ}
    (hsize : ∀ s s', code.next s = some s' → size s' < size s) (h : step code c e = some d) :
    d.pending.length + ∑ t, size (d.state t) < c.pending.length + ∑ t, size (c.state t) := by
  rcases step_cases h with ⟨t, p, hp, rfl⟩ | ⟨t, p, hp, -, rfl⟩ | ⟨t, s, -, hnext, rfl⟩
  · simp [hp]
  · simp [hp]
  · refine Nat.add_lt_add_left (Finset.sum_lt_sum (fun u _ => ?_) ⟨t, Finset.mem_univ t, ?_⟩) _
    · by_cases hu : u = t
      · subst hu
        simpa using (hsize _ _ hnext).le
      · simp [Function.update_of_ne hu]
    · simpa using hsize _ _ hnext

theorem length_run [Fintype T] {size : S → ℕ}
    (hsize : ∀ s s', code.next s = some s' → size s' < size s)
    (h : run code calls start schedule = some c) :
    schedule.length + (c.pending.length + ∑ t, size (c.state t)) ≤
      calls.length + ∑ t, size (start t) :=
  foldlM_length_le (fun c => c.pending.length + ∑ t, size (c.state t))
    (fun _ _ _ => length_step hsize) h

lemma creates_run (code : Code S) (created : T → Bool) (state : T → S) (ts : List T)
    (p : List (Call T)) :
    ∃ c, (List.replicate ts.length .main).foldlM (step code)
        ⟨ts.map .create ++ p, created, state⟩ = some c ∧
      c.state = state ∧ ∀ t, created t ∨ t ∈ ts → c.created t := by
  induction ts generalizing created with
  | nil => exact ⟨⟨p, created, state⟩, rfl, rfl, fun t ht => by simpa using ht⟩
  | cons t ts ih =>
    obtain ⟨c, hc, hstate, hcreated⟩ := ih (Function.update created t true)
    refine ⟨c, hc, hstate, ?_⟩
    intro u hu
    apply hcreated
    by_cases hut : u = t
    · exact .inl (by simp [hut])
    · simpa [Function.update_of_ne hut, hut] using hu

theorem alone (code : Code S) {P Q : S → Prop} (size : S → ℕ)
    (hsize : ∀ s s', code.next s = some s' → size s' < size s)
    (hnext : ∀ s, P s → Q s ∨ ∃ s', code.next s = some s' ∧ P s') {t : T}
    (hcreated : c.created t) (hstate : P (c.state t)) :
    ∃ n d, (List.replicate n (.thread t)).foldlM (step code) c = some d ∧ Q (d.state t) := by
  induction hm : size (c.state t) using Nat.strong_induction_on generalizing c with
  | _ m ih =>
    rcases hnext _ hstate with hQ | ⟨s', hs', hP⟩
    · exact ⟨0, c, rfl, hQ⟩
    · have hstep : step code c (.thread t) =
          some { c with state := Function.update c.state t s' } := by
        rw [step, if_pos hcreated, hs', Option.map_some]
      have hself : (Function.update c.state t s') t = s' := Function.update_self t s' c.state
      obtain ⟨n, d, hd, hQ⟩ := ih (size s') (hm ▸ hsize _ _ hs')
        (c := { c with state := Function.update c.state t s' }) hcreated
        (by simpa only [hself] using hP) (by simp only [hself])
      refine ⟨n + 1, d, ?_, hQ⟩
      rw [List.replicate_succ, List.foldlM_cons, hstep]
      exact hd

end Eece315.ForkJoin
