import Mathlib

/-! Runs of a machine that steps on events and may refuse one: what every step keeps holds after
every run, and a run is no longer than a size that every step lowers. -/
namespace Eece315.StepRuns

variable {S E : Type*} {step : S → E → Option S} {start c d : S} {events : List E} {e : E}

lemma foldlM_append_singleton : (events ++ [e]).foldlM step start = some d ↔
    ∃ c, events.foldlM step start = some c ∧ step c e = some d := by
  simp [List.foldlM_append, Option.bind_eq_some_iff]

theorem foldlM_induction {motive : S → Prop} (base : motive start)
    (next : ∀ c d e, motive c → step c e = some d → motive d)
    (h : events.foldlM step start = some c) : motive c := by
  induction events using List.reverseRecOn generalizing c with
  | nil =>
    obtain rfl : start = c := by simpa using h
    exact base
  | append_singleton events e ih =>
    obtain ⟨c₀, hc₀, hs⟩ := foldlM_append_singleton.mp h
    exact next c₀ c e (ih hc₀) hs

/-- Every step of the run is tried in a state in which it meets the condition. -/
def EveryStep (step : S → E → Option S) (start : S) (P : S → E → Prop) (events : List E) : Prop :=
  ∀ before e after, events = before ++ e :: after → ∀ c, before.foldlM step start = some c → P c e

lemma EveryStep.of_append {P : S → E → Prop} {before after : List E}
    (h : EveryStep step start P (before ++ after)) : EveryStep step start P before := by
  intro before' e after' he
  exact h before' e (after' ++ after) (by simp [he])

theorem EveryStep.induction {P : S → E → Prop} {motive : S → Prop} (base : motive start)
    (next : ∀ c d e, motive c → P c e → step c e = some d → motive d)
    (hP : EveryStep step start P events) (h : events.foldlM step start = some c) : motive c := by
  induction events using List.reverseRecOn generalizing c with
  | nil =>
    obtain rfl : start = c := by simpa using h
    exact base
  | append_singleton events e ih =>
    obtain ⟨c₀, hc₀, hs⟩ := foldlM_append_singleton.mp h
    exact next c₀ c e (ih hP.of_append hc₀) (hP events e [] rfl c₀ hc₀) hs

lemma everyStep_cons {P : S → E → Prop} : EveryStep step start P (e :: events) ↔
    P start e ∧ ∀ c, step start e = some c → EveryStep step c P events := by
  constructor
  · intro h
    refine ⟨h [] e events rfl start rfl, fun c hc before e' after he d hd => ?_⟩
    apply h (e :: before) e' after (by simp [he])
    simp [hc, hd]
  · rintro ⟨hfirst, hrest⟩ before e' after he c hc
    cases before with
    | nil =>
      obtain rfl : start = c := by simpa using hc
      obtain ⟨rfl, -⟩ := List.cons.inj he
      exact hfirst
    | cons e₀ before =>
      obtain ⟨rfl, hrest'⟩ := List.cons.inj he
      obtain ⟨d, hd, hc⟩ := Option.bind_eq_some_iff.mp (by rwa [List.foldlM_cons] at hc)
      exact hrest d hd before e' after hrest' c hc

lemma everyStep_nil {P : S → E → Prop} : EveryStep step start P [] := by
  intro before e after he
  simp at he

/-- A condition on every step of a given run is a matter of tests. -/
lemma everyStep_of_forall {P : S → E → Prop} [∀ c e, Decidable (P c e)]
    (h : ∀ i : Fin events.length,
      ((events.take i).foldlM step start).all fun c => decide (P c events[i])) :
    EveryStep step start P events := by
  intro before e after he c hc
  have hi : before.length < events.length := by simp [he]
  have hbefore : events.take before.length = before := by rw [he, List.take_left]
  have hat : events[before.length] = e := by simp [he]
  have htest := h ⟨before.length, hi⟩
  simp only [Fin.getElem_fin, hbefore, hat, hc, Option.all_some, decide_eq_true_eq] at htest
  exact htest

/-- A run goes through if every step that meets the condition has a result. -/
theorem EveryStep.exists_run {P : S → E → Prop} {motive : S → Prop} (base : motive start)
    (next : ∀ c e, motive c → P c e → ∃ d, step c e = some d ∧ motive d)
    (hP : EveryStep step start P events) : ∃ d, events.foldlM step start = some d := by
  induction events generalizing start with
  | nil => exact ⟨start, rfl⟩
  | cons e events ih =>
    obtain ⟨hfirst, hrest⟩ := everyStep_cons.mp hP
    obtain ⟨c, hc, hmotive⟩ := next start e base hfirst
    obtain ⟨d, hd⟩ := ih hmotive (hrest c hc)
    exact ⟨d, by simp [hc, hd]⟩

theorem foldlM_length_le (size : S → ℕ) (hsize : ∀ c d e, step c e = some d → size d < size c)
    (h : events.foldlM step start = some c) : events.length + size c ≤ size start := by
  induction events using List.reverseRecOn generalizing c with
  | nil =>
    obtain rfl : start = c := by simpa using h
    simp
  | append_singleton events e ih =>
    obtain ⟨c₀, hc₀, hs⟩ := foldlM_append_singleton.mp h
    have hlt := hsize c₀ c e hs
    have hle := ih hc₀
    rw [List.length_append, List.length_singleton]
    omega

theorem foldlM_length_le_of_inv {motive : S → Prop} (size : S → ℕ) (base : motive start)
    (next : ∀ c d e, motive c → step c e = some d → motive d ∧ size d < size c)
    (h : events.foldlM step start = some c) :
    motive c ∧ events.length + size c ≤ size start := by
  induction events using List.reverseRecOn generalizing c with
  | nil =>
    obtain rfl : start = c := by simpa using h
    exact ⟨base, by simp⟩
  | append_singleton events e ih =>
    obtain ⟨c₀, hc₀, hs⟩ := foldlM_append_singleton.mp h
    obtain ⟨hinv, hle⟩ := ih hc₀
    obtain ⟨hinv', hlt⟩ := next c₀ c e hinv hs
    refine ⟨hinv', ?_⟩
    rw [List.length_append, List.length_singleton]
    omega

theorem foldlM_forall_of_inv {motive : S → Prop} {Q : E → Prop} (base : motive start)
    (next : ∀ c d e, motive c → step c e = some d → motive d ∧ Q e)
    (h : events.foldlM step start = some c) : ∀ e ∈ events, Q e := by
  induction events generalizing start with
  | nil => simp
  | cons e events ih =>
    obtain ⟨d, hd, hrest⟩ := Option.bind_eq_some_iff.mp (by rwa [List.foldlM_cons] at h)
    obtain ⟨hmotive, hQ⟩ := next start d e base hd
    exact List.forall_mem_cons.mpr ⟨hQ, ih hmotive hrest⟩

end Eece315.StepRuns
