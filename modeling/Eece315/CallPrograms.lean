import Mathlib
import Eece315.StepRuns

/-! Programs that call their environment. A program is a machine that names the call it makes at
each of its states and goes on with the answer; the environment sees every call with its answer,
refuses the answers it never gives and keeps a state of its own. Two such programs over one
environment make their calls in any order. -/
namespace Eece315.CallPrograms

open StepRuns

/-- A program has returned when it makes no more calls. -/
structure Program (S C A : Type*) where
  call : S → Option C
  next : S → A → Option S

variable {S T C A W : Type*}

abbrev Environment (W C A : Type*) := W → C → A → Option W

def Program.step (P : Program S C A) (env : Environment W C A) (s : S) (w : W) (a : A) :
    Option (S × W) :=
  (P.call s).bind fun c => (env w c a).bind fun w' => (P.next s a).map fun s' => (s', w')

lemma Program.step_eq_some {P : Program S C A} {env : Environment W C A} {s s' : S} {w w' : W}
    {a : A} : P.step env s w a = some (s', w') ↔
      ∃ c, P.call s = some c ∧ env w c a = some w' ∧ P.next s a = some s' := by
  simp only [Program.step, Option.bind_eq_some_iff, Option.map_eq_some_iff, Prod.mk.injEq]
  constructor
  · rintro ⟨c, hc, w₁, hw, s₁, hs, rfl, rfl⟩
    exact ⟨c, hc, hw, hs⟩
  · rintro ⟨c, hc, hw, hs⟩
    exact ⟨c, hc, w', hw, s', hs, rfl, rfl⟩

def Program.run (P : Program S C A) (env : Environment W C A) (s : S) (w : W) (answers : List A) :
    Option (S × W) :=
  answers.foldlM (fun c a => P.step env c.1 c.2 a) (s, w)

/-- What every call keeps holds throughout. -/
theorem Program.inv_run {P : Program S C A} {env : Environment W C A} {s s' : S} {w w' : W}
    {answers : List A} (Inv : S → W → Prop) (base : Inv s w)
    (next : ∀ s w c a s' w', Inv s w → P.call s = some c → env w c a = some w' →
      P.next s a = some s' → Inv s' w')
    (h : P.run env s w answers = some (s', w')) : Inv s' w' := by
  apply foldlM_induction (motive := fun c => Inv c.1 c.2) base _ h
  intro c d a hc hs
  obtain ⟨call, hcall, henv, hnext⟩ := Program.step_eq_some.mp hs
  exact next _ _ _ _ _ _ hc hcall henv hnext

/-- What each answer makes of a part of the state, all of them make of it in order. -/
theorem Program.foldl_run {V : Type*} {P : Program S C A} {env : Environment W C A} {s s' : S}
    {w w' : W} {answers : List A} (view : S → V) (update : V → A → V)
    (next : ∀ s a s', P.next s a = some s' → view s' = update (view s) a)
    (h : P.run env s w answers = some (s', w')) : view s' = answers.foldl update (view s) := by
  induction answers using List.reverseRecOn generalizing s' w' with
  | nil =>
    cases h
    rfl
  | append_singleton answers a ih =>
    obtain ⟨⟨s₁, w₁⟩, hrun, hstep⟩ := foldlM_append_singleton.mp h
    obtain ⟨call, -, -, hnext⟩ := Program.step_eq_some.mp hstep
    rw [next _ _ _ hnext, ih hrun, List.foldl_append, List.foldl_cons, List.foldl_nil]

inductive Turn (A : Type*)
  | left (a : A)
  | right (a : A)
  deriving DecidableEq, Repr

/-- Two programs over one environment, which treats the calls of the one and of the other in its
own way. -/
def both (P : Program S C A) (Q : Program T C A) (left right : Environment W C A)
    (c : S × T × W) : Turn A → Option (S × T × W)
  | .left a => (P.step left c.1 c.2.2 a).map fun d => (d.1, c.2.1, d.2)
  | .right a => (Q.step right c.2.1 c.2.2 a).map fun d => (c.1, d.1, d.2)

section Both

variable {P : Program S C A} {Q : Program T C A} {left right : Environment W C A}
  {c d start : S × T × W} {turn : Turn A} {turns : List (Turn A)}

lemma both_left {s s' : S} {t : T} {w w' : W} {call : C} {a : A} (hcall : P.call s = some call)
    (henv : left w call a = some w') (hnext : P.next s a = some s') :
    both P Q left right (s, t, w) (.left a) = some (s', t, w') := by
  simp [both, Program.step, hcall, henv, hnext]

lemma both_right {s : S} {t t' : T} {w w' : W} {call : C} {a : A} (hcall : Q.call t = some call)
    (henv : right w call a = some w') (hnext : Q.next t a = some t') :
    both P Q left right (s, t, w) (.right a) = some (s, t', w') := by
  simp [both, Program.step, hcall, henv, hnext]

lemma both_cases (h : both P Q left right c turn = some d) :
    (∃ call a, P.call c.1 = some call ∧ left c.2.2 call a = some d.2.2 ∧
      P.next c.1 a = some d.1 ∧ d.2.1 = c.2.1) ∨
    ∃ call a, Q.call c.2.1 = some call ∧ right c.2.2 call a = some d.2.2 ∧
      Q.next c.2.1 a = some d.2.1 ∧ d.1 = c.1 := by
  cases turn with
  | left a =>
    obtain ⟨⟨s, w⟩, hs, rfl⟩ := Option.map_eq_some_iff.mp h
    obtain ⟨call, hcall, henv, hnext⟩ := Program.step_eq_some.mp hs
    exact .inl ⟨call, a, hcall, henv, hnext, rfl⟩
  | right a =>
    obtain ⟨⟨s, w⟩, hs, rfl⟩ := Option.map_eq_some_iff.mp h
    obtain ⟨call, hcall, henv, hnext⟩ := Program.step_eq_some.mp hs
    exact .inr ⟨call, a, hcall, henv, hnext, rfl⟩

/-- What the calls of both programs keep holds however they are interleaved. -/
theorem both_induction {motive : S → T → W → Prop} (base : motive start.1 start.2.1 start.2.2)
    (left_next : ∀ s t w call a s' w', motive s t w → P.call s = some call →
      left w call a = some w' → P.next s a = some s' → motive s' t w')
    (right_next : ∀ s t w call a t' w', motive s t w → Q.call t = some call →
      right w call a = some w' → Q.next t a = some t' → motive s t' w')
    (h : turns.foldlM (both P Q left right) start = some c) : motive c.1 c.2.1 c.2.2 := by
  apply foldlM_induction (motive := fun c => motive c.1 c.2.1 c.2.2) base _ h
  intro c d turn hc hs
  rcases both_cases hs with ⟨call, a, hcall, henv, hnext, heq⟩ | ⟨call, a, hcall, henv, hnext, heq⟩
  · rw [heq]
    exact left_next _ _ _ _ _ _ _ hc hcall henv hnext
  · rw [heq]
    exact right_next _ _ _ _ _ _ _ hc hcall henv hnext

end Both

end Eece315.CallPrograms
