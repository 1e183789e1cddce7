import Mathlib
import Eece315.PhilosophersBasic

/-! The philosophers that announce every fork they take or put down to the animation. A message
names the fork, the philosopher and the direction in three characters; the socket is shared under
a lock of its own. The animation keeps the height of every fork and, for every bowl, how many
forks are up and how many meals were eaten. -/
namespace Eece315.Philosophers.Animated

open LockPrograms

variable {NPHILOSOPHERS : ℕ}

inductive Lock (NPHILOSOPHERS : ℕ)
  | fork (f : Fin NPHILOSOPHERS)
  | sockLock
  deriving DecidableEq

inductive Act
  | eat (mealsEaten : ℕ)
  | send (msg : List Char)
  deriving DecidableEq

abbrev Thread (NPHILOSOPHERS : ℕ) := List (Instr (Lock NPHILOSOPHERS) Act)

/-- The first three characters of what `sprintf` writes: the socket sends no more. -/
def message (fork n : ℕ) (position : Char) : List Char :=
  (Nat.toDigits 10 fork ++ Nat.toDigits 10 n ++ [position]).take 3

/-- A fork is announced after it is taken. -/
def getFork (fork n : Fin NPHILOSOPHERS) : Thread NPHILOSOPHERS :=
  [.lock (.fork fork), .lock .sockLock, .act (.send (message fork n '1')), .unlock .sockLock]

def getLeftFork (n : Fin NPHILOSOPHERS) : Thread NPHILOSOPHERS := getFork (leftfork n) n

def getRightFork (n : Fin NPHILOSOPHERS) : Thread NPHILOSOPHERS := getFork (rightfork n) n

def pickupForks (n : Fin NPHILOSOPHERS) : Thread NPHILOSOPHERS :=
  if leftfork n > rightfork n then getLeftFork n ++ getRightFork n
  else getRightFork n ++ getLeftFork n

/-- The forks are announced before they are put down, both under one hold of the socket. -/
def returnForks (n : Fin NPHILOSOPHERS) : Thread NPHILOSOPHERS :=
  [.lock .sockLock,
    .act (.send (message (leftfork n) n '0')), .unlock (.fork (leftfork n)),
    .act (.send (message (rightfork n) n '0')), .unlock (.fork (rightfork n)),
    .unlock .sockLock]

def philosopher (NMEALS : ℕ) (n : Fin NPHILOSOPHERS) : Thread NPHILOSOPHERS :=
  (List.range NMEALS).flatMap fun mealsEaten =>
    pickupForks n ++ .act (.eat mealsEaten) :: returnForks n

/-- What the animation reads in a message. -/
structure Message where
  forkNum : ℕ
  bowlNum : ℕ
  forkPos : ℕ
  deriving DecidableEq, Repr

def int (c : Char) : Option ℕ := if c.isDigit then some (c.toNat - '0'.toNat) else none

def parse (message : List Char) : Option Message :=
  match message with
  | [fork, bowl, pos] => do return ⟨← int fork, ← int bowl, ← int pos⟩
  | _ => none

structure Bowl where
  numUp : ℤ
  meals : ℕ
  deriving DecidableEq, Repr

def Bowl.move (bowl : Bowl) (forkPos : ℕ) : Bowl :=
  let numUp := if forkPos ≠ 0 then bowl.numUp + 1 else bowl.numUp - 1
  ⟨numUp, if numUp = 2 then bowl.meals + 1 else bowl.meals⟩

structure Diners (NPHILOSOPHERS : ℕ) where
  forks : Fin NPHILOSOPHERS → ℤ
  bowls : Fin NPHILOSOPHERS → Bowl

def loaded : Diners NPHILOSOPHERS := ⟨fun _ => 0, fun _ => ⟨0, 0⟩⟩

/-- An index past the last fork ends the animation. -/
def animFork (d : Diners NPHILOSOPHERS) (forkNum forkPos : ℕ) : Option (Diners NPHILOSOPHERS) :=
  if h : forkNum < NPHILOSOPHERS then
    let currZ := d.forks ⟨forkNum, h⟩
    some { d with
      forks := Function.update d.forks ⟨forkNum, h⟩ (if forkPos ≠ 0 then currZ + 1 else currZ - 1) }
  else none

/-- The bowl of a philosopher is the one after its number. -/
def animBowl (d : Diners NPHILOSOPHERS) (bowlNum forkPos : ℕ) : Option (Diners NPHILOSOPHERS) :=
  if h : (bowlNum + 1) % NPHILOSOPHERS < NPHILOSOPHERS then
    let bowl : Fin NPHILOSOPHERS := ⟨(bowlNum + 1) % NPHILOSOPHERS, h⟩
    some { d with bowls := Function.update d.bowls bowl ((d.bowls bowl).move forkPos) }
  else none

def comm (d : Diners NPHILOSOPHERS) (message : List Char) : Option (Diners NPHILOSOPHERS) := do
  let m ← parse message
  animBowl (← animFork d m.forkNum m.forkPos) m.bowlNum m.forkPos

def play (messages : List (List Char)) : Option (Diners NPHILOSOPHERS) :=
  messages.foldlM comm loaded

def messages {T : Type*} (log : List (T × Act)) : List (List Char) :=
  log.filterMap fun e => match e.2 with
    | .send msg => some msg
    | .eat _ => none

/-- The forks that a philosopher has announced as taken, and its bowl in the animation. -/
structure Announced where
  up : Finset ℕ
  bowl : Bowl

def announce (s : Announced) : Act → Announced
  | .eat _ => s
  | .send msg => match parse msg with
    | some m => ⟨if m.forkPos ≠ 0 then insert m.forkNum s.up else s.up.erase m.forkNum,
        s.bowl.move m.forkPos⟩
    | none => s

def announced (done : List Act) : Announced := done.foldl announce ⟨∅, ⟨0, 0⟩⟩

@[simp] lemma announced_append (done : List Act) (a : Act) :
    announced (done ++ [a]) = announce (announced done) a := by
  simp [announced, List.foldl_append]

def rank : Lock NPHILOSOPHERS → ℕ
  | .fork f => forkRank f
  | .sockLock => NPHILOSOPHERS + 1

/-- What a philosopher has announced is so: the forks that are up are its own, and it holds them. -/
structure Seated (n : Fin NPHILOSOPHERS) (held : Set (Lock NPHILOSOPHERS)) (s : Announced) :
    Prop where
  numUp : s.bowl.numUp = s.up.card
  up : ∀ fork ∈ s.up, ∃ f : Fin NPHILOSOPHERS, f.val = fork ∧
    (f = leftfork n ∨ f = rightfork n) ∧ .fork f ∈ held

structure Point (NMEALS : ℕ) (n : Fin NPHILOSOPHERS) (held : Set (Lock NPHILOSOPHERS))
    (done : List Act) (p : Thread NPHILOSOPHERS) : Prop where
  seated : Seated n held (announced done)
  next : ∀ msg q, p = .act (.send msg) :: q → ∃ f : Fin NPHILOSOPHERS, .fork f ∈ held ∧
    (parse msg = some ⟨f, n, 1⟩ ∧ f.val ∉ (announced done).up ∨
      parse msg = some ⟨f, n, 0⟩ ∧ f.val ∈ (announced done).up)
  meals : p = [] → (announced done).bowl.meals = NMEALS

section Messages

variable {fork n : ℕ}

lemma parse_message (hfork : fork < 10) (hn : n < 10) :
    parse (message fork n '1') = some ⟨fork, n, 1⟩ ∧
      parse (message fork n '0') = some ⟨fork, n, 0⟩ := by
  have hall : ∀ fork < 10, ∀ n < 10, parse (message fork n '1') = some ⟨fork, n, 1⟩ ∧
      parse (message fork n '0') = some ⟨fork, n, 0⟩ := by decide
  exact hall fork hfork n hn

lemma announce_up (s : Announced) (hfork : fork < 10) (hn : n < 10) :
    announce s (.send (message fork n '1')) = ⟨insert fork s.up, s.bowl.move 1⟩ := by
  simp [announce, (parse_message hfork hn).1]

lemma announce_down (s : Announced) (hfork : fork < 10) (hn : n < 10) :
    announce s (.send (message fork n '0')) = ⟨s.up.erase fork, s.bowl.move 0⟩ := by
  simp [announce, (parse_message hfork hn).2]

end Messages

section Order

variable {n fork : Fin NPHILOSOPHERS} {held : Set (Lock NPHILOSOPHERS)} {done done' : List Act}
  {p : Thread NPHILOSOPHERS}

lemma pickupForks_eq (hN : 2 ≤ NPHILOSOPHERS) (n : Fin NPHILOSOPHERS) : ∃ f g, g < f ∧
    (f = leftfork n ∧ g = rightfork n ∨ f = rightfork n ∧ g = leftfork n) ∧
    pickupForks n = getFork f n ++ getFork g n := by
  unfold pickupForks
  split_ifs with horder
  · exact ⟨leftfork n, rightfork n, horder, .inl ⟨rfl, rfl⟩, rfl⟩
  · have hlt : leftfork n < rightfork n :=
      lt_of_le_of_ne (not_lt.mp horder) (rightfork_ne_leftfork hN n).symm
    exact ⟨rightfork n, leftfork n, hlt, .inr ⟨rfl, rfl⟩, rfl⟩

lemma rank_fork_lt_sockLock (f : Fin NPHILOSOPHERS) :
    rank (.fork f) < rank (.sockLock : Lock NPHILOSOPHERS) := by
  simp only [rank, forkRank]
  omega

lemma sockLock_notMem (h : ∀ l ∈ held, rank l < rank (.fork fork)) : .sockLock ∉ held :=
  fun hmem => absurd (h _ hmem) (rank_fork_lt_sockLock fork).not_gt

/-- The socket is taken and given back on top of the fork. -/
lemma ranked_getFork (h : ∀ l ∈ held, rank l < rank (.fork fork))
    (hp : Along (fun held _ p => Ranked rank held p) (insert (.fork fork) held)
      (done ++ [.send (message fork n '1')]) p) :
    Along (fun held _ p => Ranked rank held p) held done (getFork fork n ++ p) := by
  have hsock : .sockLock ∉ insert (.fork fork) held := by
    simpa using sockLock_notMem h
  refine ⟨h, ?_, trivial, Set.mem_insert _ _, ?_⟩
  · intro l hl
    rcases hl with rfl | hl
    · exact rank_fork_lt_sockLock fork
    · exact (h l hl).trans (rank_fork_lt_sockLock fork)
  · rwa [Set.insert_sdiff_self_of_notMem hsock]

lemma ranked_returnForks (hN : 2 ≤ NPHILOSOPHERS)
    (hp : ∀ done, Along (fun held _ p => Ranked rank held p) ∅ done p) :
    Along (fun held _ p => Ranked rank held p) {.fork (leftfork n), .fork (rightfork n)} done
      (returnForks n ++ p) := by
  have hne := rightfork_ne_leftfork hN n
  refine ⟨?_, trivial, ?_, trivial, ?_, ?_, ?_⟩
  · rintro l (rfl | rfl)
    exacts [rank_fork_lt_sockLock _, rank_fork_lt_sockLock _]
  · simp [Ranked]
  · simp [Ranked, hne]
  · simp [Ranked]
  · have hfree : ((((insert Lock.sockLock ({.fork (leftfork n), .fork (rightfork n)} :
        Set (Lock NPHILOSOPHERS))) \ {.fork (leftfork n)}) \ {.fork (rightfork n)}) \
        {Lock.sockLock}) = ∅ := by
      ext l
      simp
      tauto
    rw [hfree]
    exact hp _

lemma ranked_meal (hN : 2 ≤ NPHILOSOPHERS) (meal : ℕ)
    (hp : ∀ done, Along (fun held _ p => Ranked rank held p) ∅ done p) :
    Along (fun held _ p => Ranked rank held p) ∅ done
      (pickupForks n ++ .act (.eat meal) :: returnForks n ++ p) := by
  obtain ⟨f, g, hgf, hforks, hpickup⟩ := pickupForks_eq hN n
  have hheld : insert (.fork g) (insert (.fork f) (∅ : Set (Lock NPHILOSOPHERS))) =
      {.fork (leftfork n), .fork (rightfork n)} := by
    rcases hforks with ⟨hf, hg⟩ | ⟨hf, hg⟩
    · rw [hf, hg, insert_empty_eq, Set.pair_comm]
    · rw [hf, hg, insert_empty_eq]
  rw [hpickup, List.append_assoc, List.append_assoc]
  refine ranked_getFork (by simp) (ranked_getFork ?_ ?_)
  · simpa [rank] using forkRank_lt hgf
  · rw [hheld]
    exact ⟨trivial, ranked_returnForks hN hp⟩

lemma ranked_philosopher (hN : 2 ≤ NPHILOSOPHERS) (NMEALS : ℕ) (n : Fin NPHILOSOPHERS) :
    Along (fun held _ p => Ranked rank held p) ∅ [] (philosopher NMEALS n) := by
  unfold philosopher
  generalize List.range NMEALS = meals
  generalize ([] : List Act) = done
  induction meals generalizing done with
  | nil => rfl
  | cons meal meals ih => exact ranked_meal hN meal fun done => ih done

end Order

section Announcing

variable {NMEALS : ℕ} {n fork : Fin NPHILOSOPHERS} {held held' : Set (Lock NPHILOSOPHERS)}
  {done : List Act} {p : Thread NPHILOSOPHERS} {s : Announced} {k : ℕ}

lemma Seated.change (h : Seated n held s)
    (hforks : ∀ f : Fin NPHILOSOPHERS, f.val ∈ s.up → .fork f ∈ held → .fork f ∈ held') :
    Seated n held' s := by
  refine ⟨h.numUp, fun fork hfork => ?_⟩
  obtain ⟨f, rfl, hown, hf⟩ := h.up fork hfork
  exact ⟨f, rfl, hown, hforks f hfork hf⟩

lemma Seated.sockLock (h : Seated n held s) : Seated n (insert .sockLock held) s :=
  h.change fun _ _ hf => Set.mem_insert_of_mem _ hf

lemma Seated.forkLock (h : Seated n held s) : Seated n (insert (.fork fork) held) s :=
  h.change fun _ _ hf => Set.mem_insert_of_mem _ hf

lemma Seated.forkUnlock (h : Seated n held s) (fork : Fin NPHILOSOPHERS)
    (hfork : fork.val ∉ s.up) : Seated n (held \ {.fork fork}) s := by
  refine h.change fun f hup hf => ⟨hf, ?_⟩
  rintro ⟨rfl⟩
  exact hfork hup

lemma Seated.raise (h : Seated n held s) (hown : fork = leftfork n ∨ fork = rightfork n)
    (hheld : .fork fork ∈ held) (hfork : fork.val ∉ s.up) :
    Seated n held ⟨insert fork.val s.up, s.bowl.move 1⟩ := by
  refine ⟨?_, fun f hf => ?_⟩
  · simp [Bowl.move, h.numUp, hfork]
  · rcases Finset.mem_insert.mp hf with rfl | hf
    · exact ⟨fork, rfl, hown, hheld⟩
    · exact h.up f hf

lemma Seated.lower (h : Seated n held s) (fork : Fin NPHILOSOPHERS) (hfork : fork.val ∈ s.up) :
    Seated n held ⟨s.up.erase fork.val, s.bowl.move 0⟩ := by
  refine ⟨?_, fun f hf => h.up f (Finset.mem_of_mem_erase hf)⟩
  have hcard := Finset.card_erase_add_one hfork
  simp only [Bowl.move, h.numUp, ne_eq, not_true_eq_false, if_false]
  omega

lemma Point.of_seated {i : Instr (Lock NPHILOSOPHERS) Act} (h : Seated n held (announced done))
    (hi : ∀ msg, i ≠ .act (.send msg)) : Point NMEALS n held done (i :: p) :=
  ⟨h, fun msg _ hp => absurd (List.cons.inj hp).1 (hi msg), fun hp => by cases hp⟩

lemma point_getFork (h10 : NPHILOSOPHERS ≤ 10) (h : Seated n held (announced done))
    (hown : fork = leftfork n ∨ fork = rightfork n) (hfork : fork.val ∉ (announced done).up)
    (hsock : .sockLock ∉ held)
    (hp : ∀ done', announced done' =
        ⟨insert fork.val (announced done).up, (announced done).bowl.move 1⟩ →
      Along (Point NMEALS n) (insert (.fork fork) held) done' p) :
    Along (Point NMEALS n) held done (getFork fork n ++ p) := by
  have hf : fork.val < 10 := fork.isLt.trans_le h10
  have hn : n.val < 10 := n.isLt.trans_le h10
  have hdone := (announced_append done (.send (message fork n '1'))).trans
    (announce_up _ hf hn)
  have hheld : Lock.fork fork ∈ insert Lock.sockLock (insert (.fork fork) held) := by simp
  refine ⟨.of_seated h (by simp), .of_seated h.forkLock (by simp), ⟨h.forkLock.sockLock, ?_, ?_⟩,
    .of_seated ?_ (by simp), ?_⟩
  · intro msg q hq
    obtain rfl : message fork n '1' = msg := by simpa using (List.cons.inj hq).1
    exact ⟨fork, hheld, .inl ⟨(parse_message hf hn).1, hfork⟩⟩
  · simp
  · rw [hdone]
    exact h.forkLock.sockLock.raise hown hheld hfork
  · rw [Set.insert_sdiff_self_of_notMem (by simpa using hsock)]
    exact hp _ hdone

lemma point_putFork (h10 : NPHILOSOPHERS ≤ 10) (h : Seated n held (announced done))
    (hfork : fork.val ∈ (announced done).up)
    (hp : ∀ done', announced done' =
        ⟨(announced done).up.erase fork.val, (announced done).bowl.move 0⟩ →
      Along (Point NMEALS n) (held \ {.fork fork}) done' p) :
    Along (Point NMEALS n) held done
      (.act (.send (message fork n '0')) :: .unlock (.fork fork) :: p) := by
  have hf : fork.val < 10 := fork.isLt.trans_le h10
  have hn : n.val < 10 := n.isLt.trans_le h10
  have hdone := (announced_append done (.send (message fork n '0'))).trans
    (announce_down _ hf hn)
  refine ⟨⟨h, ?_, by simp⟩, .of_seated ?_ (by simp), hp _ hdone⟩
  · intro msg q hq
    obtain rfl : message fork n '0' = msg := by simpa using (List.cons.inj hq).1
    obtain ⟨f, hfork', -, hheld⟩ := h.up _ hfork
    obtain rfl : f = fork := Fin.ext hfork'
    exact ⟨f, hheld, .inr ⟨(parse_message hf hn).2, hfork⟩⟩
  · rw [hdone]
    exact h.lower fork hfork

lemma point_returnForks (hN : 2 ≤ NPHILOSOPHERS) (h10 : NPHILOSOPHERS ≤ 10)
    (h : Seated n {.fork (leftfork n), .fork (rightfork n)} (announced done))
    (hs : announced done = ⟨{(leftfork n).val, (rightfork n).val}, ⟨2, k⟩⟩)
    (hp : ∀ done', announced done' = ⟨∅, ⟨0, k⟩⟩ → Along (Point NMEALS n) ∅ done' p) :
    Along (Point NMEALS n) {.fork (leftfork n), .fork (rightfork n)} done
      (returnForks n ++ p) := by
  have hne : (rightfork n).val ≠ (leftfork n).val :=
    fun h => rightfork_ne_leftfork hN n (Fin.ext h)
  refine ⟨.of_seated h (by simp), ?_⟩
  refine point_putFork h10 h.sockLock (by simp [hs]) fun done₁ hs₁ => ?_
  rw [hs] at hs₁
  have hup₁ : (announced done₁).up = {(rightfork n).val} := by
    rw [hs₁]
    ext fork
    simp
    omega
  have h₁ := (h.sockLock.lower (leftfork n) (by simp [hs])).forkUnlock (leftfork n) (by simp)
  rw [hs, ← hs₁] at h₁
  refine point_putFork h10 h₁ (by simp [hup₁]) fun done₂ hs₂ => ?_
  have h₂ := (h₁.lower (rightfork n) (by simp [hup₁])).forkUnlock (rightfork n) (by simp)
  rw [← hs₂] at h₂
  refine ⟨.of_seated h₂ (by simp), ?_⟩
  have hfree : ((((insert Lock.sockLock ({.fork (leftfork n), .fork (rightfork n)} :
      Set (Lock NPHILOSOPHERS))) \ {.fork (leftfork n)}) \ {.fork (rightfork n)}) \
      {Lock.sockLock}) = ∅ := by
    ext l
    simp
    tauto
  rw [hfree]
  refine hp _ (hs₂.trans ?_)
  rw [hup₁, hs₁]
  simp [Bowl.move]

lemma point_meal (hN : 2 ≤ NPHILOSOPHERS) (h10 : NPHILOSOPHERS ≤ 10) (meal : ℕ)
    (hs : announced done = ⟨∅, ⟨0, k⟩⟩)
    (hp : ∀ done', announced done' = ⟨∅, ⟨0, k + 1⟩⟩ → Along (Point NMEALS n) ∅ done' p) :
    Along (Point NMEALS n) ∅ done (pickupForks n ++ .act (.eat meal) :: returnForks n ++ p) := by
  obtain ⟨f, g, hgf, hforks, hpickup⟩ := pickupForks_eq hN n
  have hgf' : g.val ≠ f.val := (Fin.lt_def.mp hgf).ne
  have hf : f = leftfork n ∨ f = rightfork n := hforks.imp And.left And.left
  have hg : g = leftfork n ∨ g = rightfork n := (hforks.imp And.right And.right).symm
  rw [hpickup, List.append_assoc, List.append_assoc]
  have hseated : Seated n (∅ : Set (Lock NPHILOSOPHERS)) (announced done) := by
    constructor <;> simp [hs]
  refine point_getFork h10 hseated hf (by simp [hs]) (by simp) fun done₁ hs₁ => ?_
  rw [hs] at hs₁
  have h₁ := hseated.forkLock.raise hf (Set.mem_insert _ _) (by simp [hs])
  rw [hs, ← hs₁] at h₁
  have hg₁ : g.val ∉ (announced done₁).up := by simpa [hs₁] using hgf'
  refine point_getFork h10 h₁ hg hg₁ (by simp) fun done₂ hs₂ => ?_
  have h₂ := h₁.forkLock.raise hg (Set.mem_insert _ _) hg₁
  rw [← hs₂] at h₂
  refine ⟨.of_seated h₂ (by simp), ?_⟩
  have hs₂' : announced (done₂ ++ [.eat meal]) =
      ⟨{(leftfork n).val, (rightfork n).val}, ⟨2, k + 1⟩⟩ := by
    rw [announced_append, announce, hs₂, hs₁]
    rcases hforks with ⟨hfork, hfork'⟩ | ⟨hfork, hfork'⟩
    · simp [Bowl.move, ← hfork, ← hfork', Finset.pair_comm]
    · simp [Bowl.move, ← hfork, ← hfork']
  have hheld : insert (.fork g) (insert (.fork f) (∅ : Set (Lock NPHILOSOPHERS))) =
      {.fork (leftfork n), .fork (rightfork n)} := by
    rcases hforks with ⟨hf, hg⟩ | ⟨hf, hg⟩
    · rw [hf, hg, insert_empty_eq, Set.pair_comm]
    · rw [hf, hg, insert_empty_eq]
  rw [hheld] at h₂ ⊢
  refine point_returnForks hN h10 ?_ hs₂' hp
  rwa [announced_append, announce]

lemma point_philosopher (hN : 2 ≤ NPHILOSOPHERS) (h10 : NPHILOSOPHERS ≤ 10) (NMEALS : ℕ)
    (n : Fin NPHILOSOPHERS) : Along (Point NMEALS n) ∅ [] (philosopher NMEALS n) := by
  unfold philosopher
  have hs : announced [] = ⟨∅, ⟨0, 0⟩⟩ := rfl
  have hlength : 0 + (List.range NMEALS).length = NMEALS := by simp
  revert hs hlength
  generalize List.range NMEALS = meals
  generalize ([] : List Act) = done
  generalize 0 = k
  intro hs hlength
  induction meals generalizing done k with
  | nil =>
    refine ⟨⟨by simp [hs], by simp [hs]⟩, by simp, fun _ => ?_⟩
    simpa [hs] using hlength
  | cons meal meals ih =>
    refine point_meal hN h10 meal hs fun done' hs' => ih done' (k + 1) hs' ?_
    rw [List.length_cons] at hlength
    omega

end Announcing

end Eece315.Philosophers.Animated
