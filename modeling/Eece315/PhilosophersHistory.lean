import Mathlib
import Eece315.PhilosophersAnimated

/-! The history that the philosophers send to the animation. While their numbers have one digit,
every fork goes up and down by turns, each time by one philosopher; no bowl counts more than two
forks, no two neighbours have two each, and in the end the animation has counted all the meals.
With eleven philosophers the messages run into each other. -/
namespace Eece315.Philosophers.Animated

open LockPrograms StepRuns

variable {NPHILOSOPHERS : ℕ}

/-- A fork goes up when it is down, and down, by the same philosopher, when it is up. -/
def Alternates : Option ℕ → List Message → Prop
  | _, [] => True
  | none, m :: ms => m.forkPos = 1 ∧ Alternates (some m.bowlNum) ms
  | some n, m :: ms => m.forkPos = 0 ∧ m.bowlNum = n ∧ Alternates none ms

/-- Who has the fork after the messages about it. -/
def upAfter : Option ℕ → List Message → Option ℕ
  | s, [] => s
  | none, m :: ms => upAfter (some m.bowlNum) ms
  | some _, _ :: ms => upAfter none ms

lemma alternates_append (s : Option ℕ) (ms : List Message) (m : Message) :
    Alternates s (ms ++ [m]) ↔ Alternates s ms ∧ Alternates (upAfter s ms) [m] := by
  induction ms generalizing s with
  | nil => cases s <;> simp [Alternates, upAfter]
  | cons m' ms ih => cases s <;> simp [Alternates, upAfter, ih, and_assoc]

lemma upAfter_append (s : Option ℕ) (ms : List Message) (m : Message) :
    upAfter s (ms ++ [m]) = upAfter (upAfter s ms) [m] := by
  induction ms generalizing s with
  | nil => cases s <;> rfl
  | cons m' ms ih => cases s <;> simp [upAfter, ih]

/-- The messages as they are read. -/
def history {T : Type*} (log : List (T × Act)) : List Message := (messages log).filterMap parse

def about (fork : ℕ) (history : List Message) : List Message :=
  history.filter fun m => m.forkNum = fork

/-- No bowl counts more than two forks, and no two neighbours have two each. -/
def Table (d : Diners NPHILOSOPHERS) : Prop :=
  ∀ n, ((d.bowls (neighbour n)).numUp = 0 ∨ (d.bowls (neighbour n)).numUp = 1 ∨
    (d.bowls (neighbour n)).numUp = 2) ∧
  ¬ ((d.bowls (neighbour n)).numUp = 2 ∧ (d.bowls (neighbour (neighbour n))).numUp = 2)

/-- The messages sent so far make a legal history of the forks and of the bowls. -/
structure Legal (NMEALS : ℕ) (c : Config (Fin NPHILOSOPHERS) (Lock NPHILOSOPHERS) Act) :
    Prop where
  read : ∀ msg ∈ messages c.log, (parse msg).isSome
  alternates : ∀ fork, Alternates none (about fork (history c.log))
  table : ∀ sent, sent <+: messages c.log →
    ∃ d : Diners NPHILOSOPHERS, play sent = some d ∧ Table d
  meals : (∀ n, c.rest n = []) → ∃ d : Diners NPHILOSOPHERS,
    play (messages c.log) = some d ∧ ∀ n, (d.bowls (neighbour n)).meals = NMEALS

section Messages

variable {T : Type*} (log : List (T × Act)) (t : T) (msg : List Char)

lemma messages_append_eat (meal : ℕ) : messages (log ++ [(t, .eat meal)]) = messages log := by
  simp [messages]

lemma messages_append_send : messages (log ++ [(t, .send msg)]) = messages log ++ [msg] := by
  simp [messages]

lemma history_append_send {m : Message} (hm : parse msg = some m) :
    history (log ++ [(t, .send msg)]) = history log ++ [m] := by
  simp [history, messages_append_send, hm]

lemma about_append_self (history : List Message) (m : Message) :
    about m.forkNum (history ++ [m]) = about m.forkNum history ++ [m] := by
  simp [about]

lemma about_append_of_ne {fork : ℕ} (history : List Message) {m : Message}
    (h : fork ≠ m.forkNum) : about fork (history ++ [m]) = about fork history := by
  simp [about, h.symm]

end Messages

lemma neighbour_injective :
    Function.Injective (neighbour : Fin NPHILOSOPHERS → Fin NPHILOSOPHERS) := by
  intro a b h
  have hmod : a.val + 1 ≡ b.val + 1 [MOD NPHILOSOPHERS] := congrArg Fin.val h
  exact Fin.ext ((Nat.ModEq.add_right_cancel' 1 hmod).eq_of_lt_of_lt a.isLt b.isLt)

lemma comm_eq {msg : List Char} {f n : Fin NPHILOSOPHERS} {pos : ℕ}
    (hm : parse msg = some ⟨f, n, pos⟩) (d : Diners NPHILOSOPHERS) :
    ∃ d', comm d msg = some d' ∧ d'.bowls (neighbour n) = (d.bowls (neighbour n)).move pos ∧
      ∀ n', n' ≠ n → d'.bowls (neighbour n') = d.bowls (neighbour n') := by
  have hbowl : (n.val + 1) % NPHILOSOPHERS < NPHILOSOPHERS := Nat.mod_lt _ n.pos
  have hcomm : comm d msg = some { d with
      forks := Function.update d.forks f (if pos ≠ 0 then d.forks f + 1 else d.forks f - 1)
      bowls := Function.update d.bowls (neighbour n) ((d.bowls (neighbour n)).move pos) } := by
    simp [comm, hm, animFork, animBowl, hbowl, neighbour]
  refine ⟨_, hcomm, by simp, fun n' hn' => ?_⟩
  exact Function.update_of_ne (neighbour_injective.ne hn') _ _

lemma play_append (sent : List (List Char)) (msg : List Char) :
    (play (sent ++ [msg]) : Option (Diners NPHILOSOPHERS)) =
      (play sent).bind fun d => comm d msg := by
  simp [play, List.foldlM_append]

/-- The order of the locks and what was announced, at a point of a program. -/
def Served (NMEALS : ℕ) (n : Fin NPHILOSOPHERS) (held : Set (Lock NPHILOSOPHERS))
    (done : List Act) (p : Thread NPHILOSOPHERS) : Prop :=
  Ranked rank held p ∧ Point NMEALS n held done p

lemma served_ranked {NMEALS : ℕ} (n : Fin NPHILOSOPHERS) (held : Set (Lock NPHILOSOPHERS))
    (done : List Act) (p : Thread NPHILOSOPHERS) (h : Served NMEALS n held done p) :
    Ranked rank held p := h.1

structure Watched (log : List (Fin NPHILOSOPHERS × Act)) : Prop where
  read : ∀ msg ∈ messages log, (parse msg).isSome
  alternates : ∀ fork, Alternates none (about fork (history log))
  up : ∀ fork n, upAfter none (about fork (history log)) = some n ↔
    ∃ t : Fin NPHILOSOPHERS, t.val = n ∧ fork ∈ (announced (actsOf log t)).up
  bowls : ∃ d : Diners NPHILOSOPHERS, play (messages log) = some d ∧
    ∀ n, d.bowls (neighbour n) = (announced (actsOf log n)).bowl

section Runs

variable {NMEALS : ℕ} {schedule : List (Fin NPHILOSOPHERS)}
  {c d : Config (Fin NPHILOSOPHERS) (Lock NPHILOSOPHERS) Act}

lemma announced_append_self (log : List (Fin NPHILOSOPHERS × Act)) (t : Fin NPHILOSOPHERS)
    (a : Act) : announced (actsOf (log ++ [(t, a)]) t) = announce (announced (actsOf log t)) a := by
  rw [actsOf_append_self, announced_append]

lemma announced_append_of_ne (log : List (Fin NPHILOSOPHERS × Act)) {t u : Fin NPHILOSOPHERS}
    (a : Act) (h : u ≠ t) : announced (actsOf (log ++ [(t, a)]) u) = announced (actsOf log u) := by
  rw [actsOf_append_of_ne _ _ h]

lemma announced_append_eat (log : List (Fin NPHILOSOPHERS × Act)) (t u : Fin NPHILOSOPHERS)
    (meal : ℕ) : announced (actsOf (log ++ [(t, .eat meal)]) u) = announced (actsOf log u) := by
  by_cases h : u = t
  · subst h
    rw [announced_append_self, announce]
  · exact announced_append_of_ne _ _ h

lemma Watched.before (h : Watched c.log) (hs : InStep (Served NMEALS) c) {t : Fin NPHILOSOPHERS}
    {msg : List Char} {p : Thread NPHILOSOPHERS} (hp : c.rest t = .act (.send msg) :: p) :
    ∃ (f : Fin NPHILOSOPHERS) (pos : ℕ), parse msg = some ⟨f, t, pos⟩ ∧
      (∀ u, f.val ∈ (announced (actsOf c.log u)).up → u = t) ∧
      (pos = 1 ∧ upAfter none (about f (history c.log)) = none ∨
        pos = 0 ∧ upAfter none (about f (history c.log)) = some t.val) := by
  obtain ⟨f, hheld, hcase⟩ := (hs t).head.2.next msg p hp
  have honly : ∀ u, f.val ∈ (announced (actsOf c.log u)).up → u = t := by
    intro u hu
    obtain ⟨g, hg, -, hg'⟩ := (hs u).head.2.seated.up f hu
    obtain rfl := Fin.ext hg
    exact eq_of_mem_heldBy hg' hheld
  rcases hcase with ⟨hparse, hnot⟩ | ⟨hparse, hin⟩
  · refine ⟨f, 1, hparse, honly, .inl ⟨rfl, ?_⟩⟩
    by_contra hsome
    obtain ⟨n, hn⟩ := Option.ne_none_iff_exists'.mp hsome
    obtain ⟨u, -, hu⟩ := (h.up f n).mp hn
    exact hnot (honly u hu ▸ hu)
  · exact ⟨f, 0, hparse, honly, .inr ⟨rfl, (h.up f t).mpr ⟨t, rfl, hin⟩⟩⟩

section Send

variable {t f : Fin NPHILOSOPHERS} {msg : List Char} {pos : ℕ}

lemma Watched.alternates_send (h : Watched c.log) (hm : parse msg = some ⟨f, t, pos⟩)
    (hbefore : pos = 1 ∧ upAfter none (about f (history c.log)) = none ∨
      pos = 0 ∧ upAfter none (about f (history c.log)) = some t.val) (fork : ℕ) :
    Alternates none (about fork (history (c.log ++ [(t, .send msg)]))) := by
  rw [history_append_send _ _ _ hm]
  by_cases hfork : fork = f.val
  · subst hfork
    rw [about_append_self (m := ⟨f, t, pos⟩), alternates_append]
    refine ⟨h.alternates f, ?_⟩
    rcases hbefore with ⟨rfl, hup⟩ | ⟨rfl, hup⟩ <;> simp [hup, Alternates]
  · rw [about_append_of_ne _ hfork]
    exact h.alternates fork

lemma Watched.up_send (h : Watched c.log) (hm : parse msg = some ⟨f, t, pos⟩)
    (honly : ∀ u, f.val ∈ (announced (actsOf c.log u)).up → u = t)
    (hbefore : pos = 1 ∧ upAfter none (about f (history c.log)) = none ∨
      pos = 0 ∧ upAfter none (about f (history c.log)) = some t.val) (fork n : ℕ) :
    upAfter none (about fork (history (c.log ++ [(t, .send msg)]))) = some n ↔
      ∃ u : Fin NPHILOSOPHERS, u.val = n ∧
        fork ∈ (announced (actsOf (c.log ++ [(t, .send msg)]) u)).up := by
  have hself : (announced (actsOf (c.log ++ [(t, .send msg)]) t)).up =
      if pos ≠ 0 then insert f.val (announced (actsOf c.log t)).up
      else (announced (actsOf c.log t)).up.erase f.val := by
    rw [announced_append_self, announce, hm]
  rw [history_append_send _ _ _ hm]
  by_cases hfork : fork = f.val
  · subst hfork
    have hothers : ∀ u, f.val ∈ (announced (actsOf (c.log ++ [(t, .send msg)]) u)).up → u = t := by
      intro u hu
      by_contra hne
      rw [announced_append_of_ne _ _ hne] at hu
      exact hne (honly u hu)
    rw [about_append_self (m := ⟨f, t, pos⟩), upAfter_append]
    rcases hbefore with ⟨rfl, hup⟩ | ⟨rfl, hup⟩
    · simp only [hup, upAfter, Option.some.injEq]
      constructor
      · rintro rfl
        exact ⟨t, rfl, by simp [hself]⟩
      · rintro ⟨u, rfl, hu⟩
        rw [hothers u hu]
    · simp only [hup, upAfter, reduceCtorEq, false_iff, not_exists, not_and]
      rintro u - hu
      obtain rfl := hothers u hu
      simp [hself] at hu
  · rw [about_append_of_ne _ hfork, h.up]
    refine exists_congr fun u => and_congr_right fun _ => ?_
    by_cases hu : u = t
    · subst hu
      rw [hself]
      split_ifs <;> simp [hfork]
    · rw [announced_append_of_ne _ _ hu]

lemma Watched.bowls_send (h : Watched c.log) (hm : parse msg = some ⟨f, t, pos⟩) :
    ∃ d : Diners NPHILOSOPHERS, play (messages (c.log ++ [(t, .send msg)])) = some d ∧
      ∀ n, d.bowls (neighbour n) = (announced (actsOf (c.log ++ [(t, .send msg)]) n)).bowl := by
  obtain ⟨d, hplay, hbowls⟩ := h.bowls
  obtain ⟨d', hcomm, hbowl, hothers⟩ := comm_eq hm d
  refine ⟨d', ?_, fun n => ?_⟩
  · rw [messages_append_send, play_append, hplay, Option.bind_some, hcomm]
  · by_cases hn : n = t
    · subst hn
      rw [hbowl, hbowls, announced_append_self, announce, hm]
    · rw [hothers n hn, hbowls, announced_append_of_ne _ _ hn]

end Send

lemma Watched.send (h : Watched c.log) (hs : InStep (Served NMEALS) c) {t : Fin NPHILOSOPHERS}
    {msg : List Char} {p : Thread NPHILOSOPHERS} (hp : c.rest t = .act (.send msg) :: p) :
    Watched (c.log ++ [(t, .send msg)]) := by
  obtain ⟨f, pos, hm, honly, hbefore⟩ := h.before hs hp
  refine ⟨?_, h.alternates_send hm hbefore, h.up_send hm honly hbefore, h.bowls_send hm⟩
  rw [messages_append_send]
  intro msg' hmsg'
  rcases List.mem_append.mp hmsg' with hold | hnew
  · exact h.read msg' hold
  · rw [List.mem_singleton.mp hnew, hm]
    rfl

lemma Watched.step (h : Watched c.log) (hs : InStep (Served NMEALS) c) {t : Fin NPHILOSOPHERS}
    (hstep : step c t = some d) : Watched d.log := by
  rcases step_cases hstep with ⟨l, p, hp, -, rfl⟩ | ⟨l, p, hp, rfl⟩ | ⟨a, p, hp, rfl⟩
  · exact h
  · exact h
  · cases a with
    | send msg => exact h.send hs hp
    | eat meal =>
      have hhistory : history (c.log ++ [(t, .eat meal)]) = history c.log := by
        rw [history, messages_append_eat, history]
      refine ⟨?_, fun fork => ?_, fun fork n => ?_, ?_⟩
      · simpa only [messages_append_eat] using h.read
      · simpa only [hhistory] using h.alternates fork
      · simpa only [hhistory, announced_append_eat] using h.up fork n
      · simpa only [messages_append_eat, announced_append_eat] using h.bowls

lemma Seated.up_subset {n : Fin NPHILOSOPHERS} {held : Set (Lock NPHILOSOPHERS)} {s : Announced}
    (h : Seated n held s) : s.up ⊆ {(leftfork n).val, (rightfork n).val} := by
  intro fork hfork
  obtain ⟨f, rfl, hown, -⟩ := h.up fork hfork
  rcases hown with hf | hf <;> simp [hf]

lemma Seated.numUp_cases {n : Fin NPHILOSOPHERS} {held : Set (Lock NPHILOSOPHERS)} {s : Announced}
    (h : Seated n held s) : s.bowl.numUp = 0 ∨ s.bowl.numUp = 1 ∨ s.bowl.numUp = 2 := by
  have hcard := (Finset.card_le_card h.up_subset).trans Finset.card_le_two
  rw [h.numUp]
  omega

lemma Seated.both {n : Fin NPHILOSOPHERS} {held : Set (Lock NPHILOSOPHERS)} {s : Announced}
    (h : Seated n held s) (htwo : s.bowl.numUp = 2) :
    .fork (leftfork n) ∈ held ∧ .fork (rightfork n) ∈ held := by
  have hcard : s.up.card = 2 := by
    have := h.numUp
    omega
  have hup : s.up = {(leftfork n).val, (rightfork n).val} :=
    Finset.eq_of_subset_of_card_le h.up_subset (hcard ▸ Finset.card_le_two)
  have hheld : ∀ f : Fin NPHILOSOPHERS, f.val ∈ s.up → .fork f ∈ held := by
    intro f hf
    obtain ⟨g, hg, -, hg'⟩ := h.up f hf
    exact Fin.ext hg ▸ hg'
  exact ⟨hheld _ (by simp [hup]), hheld _ (by simp [hup])⟩

lemma Watched.table (hN : 2 ≤ NPHILOSOPHERS) (h : Watched c.log) (hs : InStep (Served NMEALS) c) :
    ∃ d : Diners NPHILOSOPHERS, play (messages c.log) = some d ∧ Table d := by
  obtain ⟨d, hplay, hbowls⟩ := h.bowls
  refine ⟨d, hplay, fun n => ⟨?_, fun ⟨hn, hnext⟩ => ?_⟩⟩
  · rw [hbowls]
    exact (hs n).head.2.seated.numUp_cases
  · rw [hbowls] at hn hnext
    have hright := ((hs n).head.2.seated.both hn).2
    have hleft := ((hs (neighbour n)).head.2.seated.both hnext).1
    rw [leftfork_neighbour] at hleft
    exact neighbour_ne hN n (eq_of_mem_heldBy hleft hright)

lemma messages_step {t : Fin NPHILOSOPHERS} (hstep : step c t = some d) :
    messages d.log = messages c.log ∨ ∃ msg, messages d.log = messages c.log ++ [msg] := by
  rcases step_cases hstep with ⟨l, p, -, -, rfl⟩ | ⟨l, p, -, rfl⟩ | ⟨a, p, -, rfl⟩
  · exact .inl rfl
  · exact .inl rfl
  · cases a with
    | eat meal => exact .inl (messages_append_eat _ _ _)
    | send msg => exact .inr ⟨msg, messages_append_send _ _ _⟩

lemma watched_nil : Watched ([] : List (Fin NPHILOSOPHERS × Act)) := by
  refine ⟨by simp [messages], fun fork => trivial, fun fork n => ?_, loaded, rfl, fun n => rfl⟩
  simp [history, messages, about, upAfter, announced]

theorem watched_run (hN : 2 ≤ NPHILOSOPHERS) (h10 : NPHILOSOPHERS ≤ 10)
    (h : run (philosopher NMEALS) schedule = some c) :
    InStep (Served NMEALS) c ∧ Watched c.log ∧ ∀ sent, sent <+: messages c.log →
      ∃ d : Diners NPHILOSOPHERS, play sent = some d ∧ Table d := by
  refine foldlM_induction
    (motive := fun c => InStep (Served NMEALS) c ∧ Watched c.log ∧
      ∀ sent, sent <+: messages c.log → ∃ d : Diners NPHILOSOPHERS, play sent = some d ∧ Table d)
    ⟨?_, watched_nil, fun sent hsent => ?_⟩ ?_ h
  · exact inStep_initial fun n =>
      (ranked_philosopher hN NMEALS n).and (point_philosopher hN h10 NMEALS n)
  · obtain rfl := List.prefix_nil.mp hsent
    exact ⟨loaded, rfl, by simp [Table, loaded]⟩
  · rintro c d t ⟨hs, hw, htable⟩ hstep
    have hs' := hs.step served_ranked hstep
    have hw' := hw.step hs hstep
    refine ⟨hs', hw', fun sent hsent => ?_⟩
    rcases messages_step hstep with hsame | ⟨msg, hmsg⟩
    · exact htable sent (hsame ▸ hsent)
    · rw [hmsg, List.prefix_concat_iff] at hsent
      rcases hsent with rfl | hsent
      · rw [← hmsg]
        exact hw'.table hN hs'
      · exact htable sent hsent

/-- The philosophers always go on; and while their numbers have one digit, the history that the
animation is sent is legal. -/
theorem animated (hN : 2 ≤ NPHILOSOPHERS) (h : run (philosopher NMEALS) schedule = some c) :
    ((∃ n, c.rest n ≠ []) → ∃ n d, step c n = some d) ∧
    (NPHILOSOPHERS ≤ 10 → Legal NMEALS c) := by
  constructor
  · have hranked : InStep (fun _ held _ p => Ranked rank held p) c :=
      inStep_run (fun _ _ _ _ hp => hp) (fun n => ranked_philosopher hN NMEALS n) h
    exact hranked.progress fun _ _ _ _ hp => hp
  · intro h10
    obtain ⟨hs, hw, htable⟩ := watched_run hN h10 h
    refine ⟨hw.read, hw.alternates, htable, fun hend => ?_⟩
    obtain ⟨d, hplay, hbowls⟩ := hw.bowls
    refine ⟨d, hplay, fun n => ?_⟩
    rw [hbowls]
    exact (hs n).head.2.meals (hend n)

theorem animated_demo : ∃ c : Config (Fin 5) (Lock 5) Act,
    run (philosopher 2) [0, 0, 2, 0, 0, 2, 2, 0] = some c ∧ Legal 2 c := by
  obtain ⟨c, hc⟩ := Option.isSome_iff_exists.mp
    (show (run (@philosopher 5 2) [0, 0, 2, 0, 0, 2, 2, 0]).isSome by decide)
  exact ⟨c, hc, (animated (by decide) hc).2 (by decide)⟩

/-- Philosopher 10 takes fork 10 and philosopher 0 takes fork 1: both messages are read as
philosopher 0 taking fork 1. -/
theorem animated_fails : ¬ ∀ (N NMEALS : ℕ), 2 ≤ N → ∀ (schedule : List (Fin N))
    (c : Config (Fin N) (Lock N) Act), run (philosopher NMEALS) schedule = some c →
      ((∃ n, c.rest n ≠ []) → ∃ n d, step c n = some d) ∧ Legal NMEALS c := by
  intro hclaim
  obtain ⟨c, hc, hmessages⟩ := (Option.any_eq_true _ _).mp
    (show (run (@philosopher 11 1) [10, 10, 10, 10, 0, 0, 0]).any
      (fun c => decide (history c.log = [⟨1, 0, 1⟩, ⟨1, 0, 1⟩])) by decide)
  have hlegal := (hclaim 11 1 (by decide) _ c hc).2.alternates 1
  rw [of_decide_eq_true hmessages] at hlegal
  simp [about, Alternates] at hlegal

end Runs

end Eece315.Philosophers.Animated
