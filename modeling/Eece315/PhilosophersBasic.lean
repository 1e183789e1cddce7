import Mathlib
import Eece315.LockPrograms

/-! The dining philosophers. Each philosopher is a thread and each fork a mutex; a philosopher
takes the higher-numbered of its two forks first. For every number of philosophers and of meals
and every interleaving, nobody waits for ever, no two neighbours eat together, and all the meals
are eaten. -/
namespace Eece315.Philosophers

open LockPrograms

variable {NPHILOSOPHERS : ℕ}

def leftfork (id : Fin NPHILOSOPHERS) : Fin NPHILOSOPHERS := id

def rightfork (id : Fin NPHILOSOPHERS) : Fin NPHILOSOPHERS :=
  ⟨(id + 1) % NPHILOSOPHERS, Nat.mod_lt _ id.pos⟩

/-- The philosopher on the other side of the right fork. -/
def neighbour (id : Fin NPHILOSOPHERS) : Fin NPHILOSOPHERS :=
  ⟨(id + 1) % NPHILOSOPHERS, Nat.mod_lt _ id.pos⟩

/-- A fork taken second ranks above the fork taken first. -/
def forkRank (fork : Fin NPHILOSOPHERS) : ℕ := NPHILOSOPHERS - fork

section Forks

variable {n : Fin NPHILOSOPHERS}

lemma rightfork_ne_leftfork (hN : 2 ≤ NPHILOSOPHERS) (n : Fin NPHILOSOPHERS) :
    rightfork n ≠ leftfork n := by
  intro h
  have h' : (n.val + 1) % NPHILOSOPHERS = n.val := congrArg Fin.val h
  rcases Nat.lt_or_ge (n.val + 1) NPHILOSOPHERS with hlt | hge
  · rw [Nat.mod_eq_of_lt hlt] at h'
    omega
  · have hlast : n.val + 1 = NPHILOSOPHERS := le_antisymm n.isLt hge
    rw [hlast, Nat.mod_self] at h'
    omega

lemma neighbour_ne (hN : 2 ≤ NPHILOSOPHERS) (n : Fin NPHILOSOPHERS) : neighbour n ≠ n :=
  rightfork_ne_leftfork hN n

lemma leftfork_neighbour (n : Fin NPHILOSOPHERS) : leftfork (neighbour n) = rightfork n := rfl

lemma forkRank_lt {f g : Fin NPHILOSOPHERS} (h : g < f) : forkRank f < forkRank g := by
  have hf := f.isLt
  have hgf : g.val < f.val := h
  unfold forkRank
  omega

end Forks

namespace Basic

def getLeftFork (n : Fin NPHILOSOPHERS) : List (Instr (Fin NPHILOSOPHERS) ℕ) :=
  [.lock (leftfork n)]

def getRightFork (n : Fin NPHILOSOPHERS) : List (Instr (Fin NPHILOSOPHERS) ℕ) :=
  [.lock (rightfork n)]

def pickupForks (n : Fin NPHILOSOPHERS) : List (Instr (Fin NPHILOSOPHERS) ℕ) :=
  if leftfork n > rightfork n then getLeftFork n ++ getRightFork n
  else getRightFork n ++ getLeftFork n

def returnForks (n : Fin NPHILOSOPHERS) : List (Instr (Fin NPHILOSOPHERS) ℕ) :=
  [.unlock (leftfork n), .unlock (rightfork n)]

/-- A thread of the program; eating a meal is its only act. -/
def philosopher (NMEALS : ℕ) (n : Fin NPHILOSOPHERS) : List (Instr (Fin NPHILOSOPHERS) ℕ) :=
  (List.range NMEALS).flatMap fun mealsEaten =>
    pickupForks n ++ .act mealsEaten :: returnForks n

/-- Philosopher `n` is between its `pickupForks` and its `returnForks`. -/
def Eating (c : Config (Fin NPHILOSOPHERS) (Fin NPHILOSOPHERS) ℕ) (n : Fin NPHILOSOPHERS) : Prop :=
  (∃ mealsEaten p, c.rest n = .act mealsEaten :: p) ∨ ∃ p, c.rest n = returnForks n ++ p

structure Point (n : Fin NPHILOSOPHERS) (held : Set (Fin NPHILOSOPHERS))
    (p : List (Instr (Fin NPHILOSOPHERS) ℕ)) : Prop where
  ranked : Ranked forkRank held p
  forks : ((∃ mealsEaten q, p = .act mealsEaten :: q) ∨ ∃ q, p = returnForks n ++ q) →
    leftfork n ∈ held ∧ rightfork n ∈ held

section Programs

variable {n : Fin NPHILOSOPHERS} {done : List ℕ} {meal : ℕ}
  {p : List (Instr (Fin NPHILOSOPHERS) ℕ)}

lemma pickupForks_eq (hN : 2 ≤ NPHILOSOPHERS) (n : Fin NPHILOSOPHERS) : ∃ f g, g < f ∧
    ({g, f} : Set (Fin NPHILOSOPHERS)) = {leftfork n, rightfork n} ∧
    pickupForks n = [.lock f, .lock g] := by
  unfold pickupForks
  split_ifs with horder
  · exact ⟨leftfork n, rightfork n, horder, Set.pair_comm _ _, rfl⟩
  · have hlt : leftfork n < rightfork n :=
      lt_of_le_of_ne (not_lt.mp horder) (rightfork_ne_leftfork hN n).symm
    exact ⟨rightfork n, leftfork n, hlt, rfl, rfl⟩

lemma along_meal (hN : 2 ≤ NPHILOSOPHERS)
    (h : Along (fun held _ p => Point n held p) ∅ (done ++ [meal]) p) :
    Along (fun held _ p => Point n held p) ∅ done
      (pickupForks n ++ .act meal :: returnForks n ++ p) := by
  obtain ⟨f, g, hgf, hpair, hpickup⟩ := pickupForks_eq hN n
  have hne := rightfork_ne_leftfork hN n
  have hheld : insert g (insert f (∅ : Set (Fin NPHILOSOPHERS))) = {leftfork n, rightfork n} := by
    rw [← hpair, insert_empty_eq]
  have hreturned : (({leftfork n, rightfork n} : Set (Fin NPHILOSOPHERS)) \ {leftfork n}) \
      {rightfork n} = ∅ := by
    ext fork
    simp
  rw [hpickup]
  refine ⟨⟨by simp [Ranked], by simp [returnForks]⟩, ⟨?_, by simp [returnForks]⟩, ?_⟩
  · simpa [Ranked] using forkRank_lt hgf
  · rw [hheld]
    refine ⟨⟨trivial, fun _ => by simp⟩, ⟨by simp [Ranked], fun _ => by simp⟩, ⟨?_, ?_⟩, ?_⟩
    · simp [Ranked, hne]
    · simp [returnForks, hne]
    · rw [hreturned]
      exact h

lemma along_philosopher (hN : 2 ≤ NPHILOSOPHERS) (NMEALS : ℕ) (n : Fin NPHILOSOPHERS) :
    Along (fun held _ p => Point n held p) ∅ [] (philosopher NMEALS n) := by
  unfold philosopher
  generalize List.range NMEALS = meals
  generalize ([] : List ℕ) = done
  induction meals generalizing done with
  | nil => exact ⟨rfl, by simp [returnForks]⟩
  | cons meal meals ih => exact along_meal hN (ih _)

lemma acts_philosopher (NMEALS : ℕ) (n : Fin NPHILOSOPHERS) :
    acts (philosopher NMEALS n) = List.range NMEALS := by
  unfold philosopher
  generalize List.range NMEALS = meals
  induction meals with
  | nil => rfl
  | cons meal meals ih =>
    have hround : acts (pickupForks n) = [] := by
      unfold pickupForks
      split_ifs <;> rfl
    rw [List.flatMap_cons, acts_append, acts_append, hround, ih]
    rfl

lemma length_philosopher (NMEALS : ℕ) (n : Fin NPHILOSOPHERS) :
    (philosopher NMEALS n).length = NMEALS * 5 := by
  have hround : ∀ mealsEaten : ℕ,
      (pickupForks n ++ .act mealsEaten :: returnForks n).length = 5 := by
    intro mealsEaten
    unfold pickupForks
    split_ifs <;> rfl
  simp [philosopher, List.length_flatMap, hround]

end Programs

section Runs

variable {NMEALS : ℕ} {schedule : List (Fin NPHILOSOPHERS)}
  {c : Config (Fin NPHILOSOPHERS) (Fin NPHILOSOPHERS) ℕ}

/-- The philosopher is at a point of its program, and the meals it has eaten and those still to
eat are all its meals. -/
def Served (NMEALS : ℕ) (n : Fin NPHILOSOPHERS) (held : Set (Fin NPHILOSOPHERS)) (done : List ℕ)
    (p : List (Instr (Fin NPHILOSOPHERS) ℕ)) : Prop :=
  Point n held p ∧ done ++ acts p = List.range NMEALS

lemma served_ranked (n : Fin NPHILOSOPHERS) (held : Set (Fin NPHILOSOPHERS)) (done : List ℕ)
    (p : List (Instr (Fin NPHILOSOPHERS) ℕ)) (h : Served NMEALS n held done p) :
    Ranked forkRank held p := h.1.ranked

lemma inStep (hN : 2 ≤ NPHILOSOPHERS) (h : run (philosopher NMEALS) schedule = some c) :
    InStep (Served NMEALS) c :=
  inStep_run served_ranked
    (fun n => (along_philosopher hN NMEALS n).and (along_acts (acts_philosopher NMEALS n))) h

lemma forks_of_eating (hN : 2 ≤ NPHILOSOPHERS) (h : run (philosopher NMEALS) schedule = some c)
    {n : Fin NPHILOSOPHERS} (heat : Eating c n) :
    leftfork n ∈ heldBy c.holder n ∧ rightfork n ∈ heldBy c.holder n :=
  (inStep hN h n).head.1.forks heat

/-- The philosophers always go on, never eat next to each other, release only their own forks,
and when they stop each has eaten its meals, in order, and all the forks are free. -/
theorem dining (hN : 2 ≤ NPHILOSOPHERS) (h : run (philosopher NMEALS) schedule = some c) :
    ((∃ n, c.rest n ≠ []) → ∃ n d, step c n = some d) ∧
    (∀ n, Eating c n → ¬ Eating c (neighbour n)) ∧
    (∀ n fork p, c.rest n = .unlock fork :: p → c.holder fork = some n) ∧
    schedule.length ≤ NPHILOSOPHERS * (NMEALS * 5) ∧
    ((∀ n, step c n = none) →
      (∀ n, c.rest n = [] ∧ actsOf c.log n = List.range NMEALS) ∧
      ∀ fork, c.holder fork = none) := by
  have hstep := inStep hN h
  refine ⟨hstep.progress served_ranked, fun n hn hnext => ?_,
    fun n fork p hp => hstep.holds_of_unlock served_ranked hp, ?_, fun hstop => ?_⟩
  · have hright := (forks_of_eating hN h hn).2
    have hleft := (forks_of_eating hN h hnext).1
    rw [leftfork_neighbour] at hleft
    exact neighbour_ne hN n (eq_of_mem_heldBy hleft hright)
  · have hlength := length_run h
    simp only [length_philosopher, Finset.sum_const, Finset.card_univ, Fintype.card_fin,
      smul_eq_mul] at hlength
    omega
  · obtain ⟨hdone, hfree⟩ := hstep.terminal served_ranked hstop
    refine ⟨fun n => ⟨hdone n, ?_⟩, hfree⟩
    have hmeals := (hstep n).head.2
    rwa [hdone n, acts, List.append_nil] at hmeals

theorem dining_demo : ∃ c : Config (Fin 5) (Fin 5) ℕ,
    run (philosopher 2) [0, 2, 0, 1, 0, 4, 0, 0, 1] = some c ∧ ∃ n d, step c n = some d := by
  obtain ⟨c, hc, hleft⟩ := (Option.any_eq_true _ _).mp
    (show (run (@philosopher 5 2) [0, 2, 0, 1, 0, 4, 0, 0, 1]).any
      (fun c => decide (c.rest 3 ≠ [])) by decide)
  exact ⟨c, hc, (dining (by decide) hc).1 ⟨3, of_decide_eq_true hleft⟩⟩

end Runs

end Basic

end Eece315.Philosophers
