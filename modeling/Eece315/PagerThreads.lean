import Eece315.PagerCoherence
import Eece315.StepRuns

/-! The threaded pager. The workers share the cursor into the list of addresses and the tables;
the test of a worker's loop reads the cursor without a lock, so that a worker may find the
cursor moved when it comes to fetch. The list is processed as it should be exactly when no test
succeeds that the addresses left do not suffice for. -/
namespace Eece315.PagerThreads
open StepRuns PagerSystem PagerCoherence

/-- What the workers are given; reads behind the list of addresses yield whatever is there. -/
structure Job where
  backingStore : BackingStore
  addresses : List (BitVec 32)
  beyond : ℕ → BitVec 32

def Job.numAddresses (job : Job) : ℕ := job.addresses.length

def Job.address (job : Job) (i : ℕ) : BitVec 32 := job.addresses[i]?.getD (job.beyond i)

/-- Where a worker is in `checkMemory`: at the test of its loop, before the critical section of
the cursor, before that of the tables, or behind the loop. -/
inductive Place
  | test
  | fetch
  | translate (index : ℕ) (address : BitVec 32)
  | finished
  deriving DecidableEq

/-- The shared variables and the workers, with the indices fetched and translated so far. -/
structure Config (k : ℕ) where
  addressCursor : ℕ
  pager : State
  place : Fin k → Place
  fetched : List ℕ
  translated : List ℕ

variable {k : ℕ}

def Config.moveTo (c : Config k) (w : Fin k) (place : Place) : Config k :=
  { c with place := Function.update c.place w place }

/-- The next step of worker `w` in `checkMemory`; a critical section is one step. -/
def step (job : Job) (c : Config k) (w : Fin k) : Option (Config k) :=
  match c.place w with
  | .test =>
    if c.addressCursor < job.numAddresses then some (c.moveTo w .fetch)
    else some (c.moveTo w .finished)
  | .fetch =>
    let i := c.addressCursor
    some { c.moveTo w (.translate i (job.address i)) with
      addressCursor := i + 1
      fetched := c.fetched ++ [i] }
  | .translate i address =>
    (translateAddress job.backingStore c.pager address).map fun pager =>
      { c.moveTo w .test with
        pager := pager
        translated := c.translated ++ [i] }
  | .finished => none

def initial (k : ℕ) : Config k := ⟨0, start, fun _ => .test, [], []⟩

def run (job : Job) (k : ℕ) (schedule : List (Fin k)) : Option (Config k) :=
  schedule.foldlM (step job) (initial k)

lemma step_cases {job : Job} {c d : Config k} {w : Fin k} (h : step job c w = some d) :
    (c.place w = .test ∧ c.addressCursor < job.numAddresses ∧ d = c.moveTo w .fetch) ∨
    (c.place w = .test ∧ job.numAddresses ≤ c.addressCursor ∧ d = c.moveTo w .finished) ∨
    (c.place w = .fetch ∧
      d = { c.moveTo w (.translate c.addressCursor (job.address c.addressCursor)) with
        addressCursor := c.addressCursor + 1
        fetched := c.fetched ++ [c.addressCursor] }) ∨
    ∃ i address pager, c.place w = .translate i address ∧
      translateAddress job.backingStore c.pager address = some pager ∧
      d = { c.moveTo w .test with pager := pager, translated := c.translated ++ [i] } := by
  unfold step at h
  split at h
  · rename_i hp
    split_ifs at h with hlt
    · exact .inl ⟨hp, hlt, (Option.some.inj h).symm⟩
    · exact .inr (.inl ⟨hp, not_lt.mp hlt, (Option.some.inj h).symm⟩)
  · rename_i hp
    exact .inr (.inr (.inl ⟨hp, (Option.some.inj h).symm⟩))
  · rename_i i address hp
    obtain ⟨pager, ht, rfl⟩ := Option.map_eq_some_iff.mp h
    exact .inr (.inr (.inr ⟨i, address, pager, hp, ht, rfl⟩))
  · cases h

def Place.pending : Place → ℕ
  | .fetch => 1
  | _ => 0

def Place.inHand : Place → Multiset ℕ
  | .translate i _ => {i}
  | _ => 0

namespace Config

def pending (c : Config k) : ℕ := ∑ w, (c.place w).pending

def inHand (c : Config k) : Multiset ℕ := ∑ w, (c.place w).inHand

lemma sum_moveTo {M : Type*} [AddCommMonoid M] (f : Place → M) (c : Config k) (w : Fin k)
    (place : Place) :
    ∑ v, f ((c.moveTo w place).place v) + f (c.place w) = ∑ v, f (c.place v) + f place := by
  have hupdate : ∀ v, f ((c.moveTo w place).place v) =
      Function.update (fun v => f (c.place v)) w (f place) v := by
    intro v
    exact Function.apply_update (fun _ => f) c.place w place v
  rw [Finset.sum_congr rfl fun v _ => hupdate v, Finset.sum_update_of_mem (Finset.mem_univ w),
    Finset.sdiff_singleton_eq_erase, add_assoc, Finset.sum_erase_add _ _ (Finset.mem_univ w),
    add_comm]

def claimed (c : Config k) : ℕ := c.addressCursor + c.pending

lemma pending_moveTo (c : Config k) (w : Fin k) (place : Place) :
    (c.moveTo w place).pending + (c.place w).pending = c.pending + place.pending :=
  sum_moveTo Place.pending c w place

lemma inHand_moveTo (c : Config k) (w : Fin k) (place : Place) :
    (c.moveTo w place).inHand + (c.place w).inHand = c.inHand + place.inHand :=
  sum_moveTo Place.inHand c w place

lemma pending_le (c : Config k) : c.pending ≤ k := by
  have hone : ∀ w ∈ Finset.univ, (c.place w).pending ≤ 1 := by
    intro w _
    cases c.place w <;> simp [Place.pending]
  simpa [pending] using Finset.sum_le_sum hone

end Config

section Steps

variable {job : Job} {c d : Config k} {w : Fin k}

lemma claimed_step (h : step job c w = some d) :
    d.claimed = c.claimed +
      if c.place w = .test ∧ c.addressCursor < job.numAddresses then 1 else 0 := by
  rcases step_cases h with ⟨hp, hlt, rfl⟩ | ⟨hp, hle, rfl⟩ | ⟨hp, rfl⟩ | ⟨i, a, s, hp, -, rfl⟩
  · have hmove := c.pending_moveTo w .fetch
    rw [hp] at hmove
    rw [if_pos ⟨hp, hlt⟩]
    exact congrArg (c.addressCursor + ·) hmove
  · have hmove := c.pending_moveTo w .finished
    rw [hp] at hmove
    rw [if_neg fun hif => absurd hif.2 (not_lt_of_ge hle)]
    exact congrArg (c.addressCursor + ·) hmove
  · have hmove := c.pending_moveTo w (.translate c.addressCursor (job.address c.addressCursor))
    rw [hp] at hmove
    simp only [Place.pending, add_zero] at hmove
    rw [if_neg (by simp [hp])]
    change c.addressCursor + 1 + (c.moveTo w _).pending = c.addressCursor + c.pending + 0
    omega
  · have hmove := c.pending_moveTo w .test
    rw [hp] at hmove
    rw [if_neg (by simp [hp])]
    exact congrArg (c.addressCursor + ·) hmove

/-- The indices are fetched in order, each is in one place, and a worker only stops at the end
of the list. -/
structure Tracked (job : Job) (c : Config k) : Prop where
  fetched : c.fetched = List.range c.addressCursor
  balance : (c.translated : Multiset ℕ) + c.inHand = Multiset.range c.addressCursor
  ended : ∀ w, c.place w = .finished → job.numAddresses ≤ c.addressCursor

lemma tracked_initial (job : Job) (k : ℕ) : Tracked job (initial k) :=
  ⟨rfl, by simp [initial, Config.inHand, Place.inHand], by simp [initial]⟩

lemma Tracked.step (h : Tracked job c) (hs : step job c w = some d) : Tracked job d := by
  have hended {place : Place} (hplace : place = .finished → job.numAddresses ≤ c.addressCursor) :
      ∀ v, (c.moveTo w place).place v = .finished → job.numAddresses ≤ c.addressCursor := by
    intro v hv
    by_cases hvw : v = w
    · subst hvw
      exact hplace (by simpa [Config.moveTo] using hv)
    · exact h.ended v (by simpa [Config.moveTo, Function.update_of_ne hvw] using hv)
  rcases step_cases hs with ⟨hp, -, rfl⟩ | ⟨hp, hle, rfl⟩ | ⟨hp, rfl⟩ | ⟨i, a, s, hp, -, rfl⟩
  · have hmove := c.inHand_moveTo w .fetch
    rw [hp] at hmove
    simp only [Place.inHand, add_zero] at hmove
    exact ⟨h.fetched, by rw [hmove]; exact h.balance, hended (by simp)⟩
  · have hmove := c.inHand_moveTo w .finished
    rw [hp] at hmove
    simp only [Place.inHand, add_zero] at hmove
    exact ⟨h.fetched, by rw [hmove]; exact h.balance, hended fun _ => hle⟩
  · have hmove := c.inHand_moveTo w (.translate c.addressCursor (job.address c.addressCursor))
    rw [hp] at hmove
    simp only [Place.inHand, add_zero] at hmove
    refine ⟨?_, ?_, fun v hv => (hended (by simp) v hv).trans (Nat.le_succ _)⟩
    · simp only [h.fetched, List.range_succ]
    · change (c.translated : Multiset ℕ) + (c.moveTo w _).inHand = Multiset.range (_ + 1)
      rw [hmove, ← add_assoc, h.balance, Multiset.range_succ, ← Multiset.singleton_add, add_comm]
  · have hmove := c.inHand_moveTo w .test
    rw [hp] at hmove
    simp only [Place.inHand, add_zero] at hmove
    refine ⟨h.fetched, ?_, hended (by simp)⟩
    change ((c.translated ++ [i] : List ℕ) : Multiset ℕ) + (c.moveTo w _).inHand = _
    rw [← Multiset.coe_add, Multiset.coe_singleton, add_assoc,
      add_comm ({i} : Multiset ℕ), hmove]
    exact h.balance

/-- How many steps a worker has left without a further test that succeeds. -/
def Place.weight : Place → ℕ
  | .test => 1
  | .fetch => 3
  | .translate _ _ => 2
  | .finished => 0

def Config.weight (c : Config k) : ℕ := ∑ w, (c.place w).weight

def Config.size (job : Job) (c : Config k) : ℕ :=
  3 * (job.numAddresses + k - c.claimed) + c.weight

lemma weight_moveTo (c : Config k) (w : Fin k) (place : Place) :
    (c.moveTo w place).weight + (c.place w).weight = c.weight + place.weight :=
  Config.sum_moveTo Place.weight c w place

lemma size_step (h : step job c w = some d) : d.size job < c.size job := by
  have hclaimed := claimed_step h
  unfold Config.size
  rcases step_cases h with ⟨hp, hlt, rfl⟩ | ⟨hp, hle, rfl⟩ | ⟨hp, rfl⟩ | ⟨i, a, s, hp, -, rfl⟩
  · have hw := weight_moveTo c w .fetch
    have hroom := c.pending_moveTo w .fetch
    have hle := (c.moveTo w .fetch).pending_le
    rw [hp] at hw hroom
    rw [if_pos ⟨hp, hlt⟩] at hclaimed
    simp only [Place.weight, Place.pending, Config.claimed] at hw hroom hclaimed ⊢
    omega
  · have hw := weight_moveTo c w .finished
    rw [hp] at hw
    rw [if_neg fun hif => absurd hif.2 (not_lt_of_ge hle), add_zero] at hclaimed
    rw [hclaimed]
    simp only [Place.weight] at hw
    omega
  · have hw := weight_moveTo c w (.translate c.addressCursor (job.address c.addressCursor))
    rw [hp] at hw
    rw [if_neg (by simp [hp]), add_zero] at hclaimed
    rw [hclaimed]
    simp only [Place.weight] at hw
    apply Nat.add_lt_add_left
    change (c.moveTo w _).weight < c.weight
    omega
  · have hw := weight_moveTo c w .test
    rw [hp] at hw
    rw [if_neg (by simp [hp]), add_zero] at hclaimed
    rw [hclaimed]
    simp only [Place.weight] at hw
    apply Nat.add_lt_add_left
    change (c.moveTo w _).weight < c.weight
    omega

lemma pager_step {addresses : List (BitVec 32)}
    (hc : PagerSystem.run job.backingStore addresses = some c.pager) (hs : step job c w = some d) :
    ∃ addresses, PagerSystem.run job.backingStore addresses = some d.pager := by
  rcases step_cases hs with ⟨-, -, rfl⟩ | ⟨-, -, rfl⟩ | ⟨-, rfl⟩ | ⟨i, a, s, -, ht, rfl⟩
  · exact ⟨addresses, hc⟩
  · exact ⟨addresses, hc⟩
  · exact ⟨addresses, hc⟩
  · exact ⟨addresses ++ [a], by simp [run_append, hc, ht]⟩

end Steps

/-- No test succeeds that the addresses left do not suffice for: at each of them there are more
addresses left than workers that have passed the test and not fetched yet. -/
def Spaced (job : Job) (k : ℕ) (schedule : List (Fin k)) : Prop :=
  ∀ before w after, schedule = before ++ w :: after → ∀ c, run job k before = some c →
    c.place w = .test → c.addressCursor < job.numAddresses →
      c.addressCursor + c.pending < job.numAddresses

/-- Only addresses of the list are fetched, none is translated twice, and when all workers have
stopped every address of the list has been translated once. -/
structure OnceEach (job : Job) (c : Config k) : Prop where
  inRange : ∀ i ∈ c.fetched, i < job.numAddresses
  atMostOnce : c.translated.Nodup
  all : (∀ w, c.place w = .finished) → c.translated.Perm (List.range job.numAddresses)

section Runs

variable {job : Job} {schedule : List (Fin k)} {c d : Config k}

lemma tracked_run (h : run job k schedule = some c) : Tracked job c :=
  foldlM_induction (tracked_initial job k) (fun _ _ _ hc hs => hc.step hs) h

theorem pager_run (h : run job k schedule = some c) :
    ∃ addresses, PagerSystem.run job.backingStore addresses = some c.pager :=
  foldlM_induction (motive := fun c : Config k =>
      ∃ addresses, PagerSystem.run job.backingStore addresses = some c.pager)
    ⟨[], rfl⟩ (fun _ _ _ ⟨_, hc⟩ hs => pager_step hc hs) h

lemma claimed_mono (h : schedule.foldlM (step job) c = some d) : c.claimed ≤ d.claimed := by
  refine foldlM_induction (motive := fun d : Config k => c.claimed ≤ d.claimed) le_rfl ?_ h
  intro d e w hd hs
  rw [claimed_step hs]
  exact hd.trans (Nat.le_add_right _ _)

lemma claimed_le (h : run job k schedule = some c) (hs : Spaced job k schedule) :
    c.claimed ≤ job.numAddresses := by
  refine EveryStep.induction (motive := fun c : Config k => c.claimed ≤ job.numAddresses) ?_ ?_ hs h
  · simp [initial, Config.claimed, Config.pending, Place.pending]
  · intro c d w hle hspaced hstep
    rw [claimed_step hstep]
    split_ifs with hif
    · exact hspaced hif.1 hif.2
    · exact hle

lemma lt_claimed (h : run job k schedule = some c) (hs : ¬ Spaced job k schedule) :
    job.numAddresses < c.claimed := by
  simp only [Spaced, not_forall, not_lt] at hs
  obtain ⟨before, w, after, rfl, c₀, hc₀, hp, hlt, hle⟩ := hs
  rw [run, List.foldlM_append] at h
  obtain ⟨c₁, hc₁, hrest⟩ := Option.bind_eq_some_iff.mp h
  obtain rfl : c₀ = c₁ := Option.some.inj (hc₀.symm.trans hc₁)
  rw [List.foldlM_cons] at hrest
  obtain ⟨c₂, hstep, hafter⟩ := Option.bind_eq_some_iff.mp hrest
  have hmono := claimed_mono hafter
  rw [claimed_step hstep, if_pos ⟨hp, hlt⟩] at hmono
  exact (Nat.lt_succ_of_le hle).trans_le hmono

lemma Tracked.translated_perm (h : Tracked job c) (hdone : ∀ w, c.place w = .finished) :
    c.pending = 0 ∧ c.translated.Perm (List.range c.addressCursor) := by
  have hhand : c.inHand = 0 := by simp [Config.inHand, hdone, Place.inHand]
  have hbalance := h.balance
  rw [hhand, add_zero] at hbalance
  exact ⟨by simp [Config.pending, hdone, Place.pending], Multiset.coe_eq_coe.mp hbalance⟩

lemma onceEach_of_spaced (h : run job k schedule = some c) (hk : 0 < k)
    (hs : Spaced job k schedule) : OnceEach job c := by
  have htracked := tracked_run h
  have hle := claimed_le h hs
  refine ⟨fun i hi => ?_, ?_, fun hdone => ?_⟩
  · rw [htracked.fetched, List.mem_range] at hi
    exact hi.trans_le ((Nat.le_add_right _ _).trans hle)
  · have hnodup : ((c.translated : Multiset ℕ) + c.inHand).Nodup :=
      htracked.balance ▸ Multiset.nodup_range _
    exact Multiset.coe_nodup.mp (Multiset.nodup_add.mp hnodup).1
  · obtain ⟨-, hperm⟩ := htracked.translated_perm hdone
    have hge := htracked.ended ⟨0, hk⟩ (hdone _)
    have hcursor : c.addressCursor = job.numAddresses :=
      le_antisymm ((Nat.le_add_right _ _).trans hle) hge
    rwa [hcursor] at hperm

lemma progress (hlen : job.backingStore.length = PAGESIZE * PAGESIZE)
    (h : run job k schedule = some c) :
    (∀ w, c.place w = .finished) ∨ ∃ w d, step job c w = some d := by
  by_cases hdone : ∀ w, c.place w = .finished
  · exact .inl hdone
  · obtain ⟨w, hw⟩ := not_forall.mp hdone
    obtain ⟨addresses, hrun⟩ := pager_run h
    obtain ⟨s, hs, hcoh⟩ := coherent_run hlen addresses
    obtain rfl : c.pager = s := Option.some.inj (hrun.symm.trans hs)
    refine .inr ⟨w, Option.isSome_iff_exists.mp ?_⟩
    cases hp : c.place w with
    | test =>
      simp only [step, hp]
      split_ifs <;> rfl
    | fetch => simp [step, hp]
    | translate i a =>
      obtain ⟨s', hs', -⟩ := hcoh.translateAddress a hlen
      simp [step, hp, hs']
    | finished => exact absurd hp hw

/-- Every address of the list is translated once, and nothing else is fetched, exactly when there
are workers and their tests are well spaced; and no run is without an end. -/
theorem onceEach_iff (hn : job.addresses ≠ []) (h : run job k schedule = some c) :
    (0 < k ∧ Spaced job k schedule → OnceEach job c) ∧
    ((∀ w, c.place w = .finished) → (OnceEach job c ↔ 0 < k ∧ Spaced job k schedule)) ∧
    schedule.length ≤ 3 * job.numAddresses + 4 * k ∧
    (job.backingStore.length = PAGESIZE * PAGESIZE →
      (∀ w, c.place w = .finished) ∨ ∃ w d, step job c w = some d) := by
  refine ⟨fun hs => onceEach_of_spaced h hs.1 hs.2,
    fun hdone => ⟨fun honce => ?_, fun hs => onceEach_of_spaced h hs.1 hs.2⟩, ?_,
    fun hlen => progress hlen h⟩
  · obtain ⟨hpending, hperm⟩ := (tracked_run h).translated_perm hdone
    have hlength := ((honce.all hdone).symm.trans hperm).length_eq
    rw [List.length_range, List.length_range] at hlength
    have hpos : 0 < job.numAddresses := List.length_pos_iff.mpr hn
    have hk : 0 < k := by
      by_contra hzero
      obtain rfl : k = 0 := by omega
      obtain rfl : schedule = [] := by
        cases schedule with
        | nil => rfl
        | cons w _ => exact w.elim0
      obtain rfl : initial 0 = c := Option.some.inj h
      exact absurd hlength hpos.ne'
    refine ⟨hk, ?_⟩
    by_contra hs
    have hlt := lt_claimed h hs
    rw [Config.claimed, hpending, ← hlength] at hlt
    exact lt_irrefl _ hlt
  · have hsize := foldlM_length_le (Config.size job) (fun _ _ _ hs => size_step hs) h
    have hstart : (initial k).size job = 3 * (job.numAddresses + k) + k := by
      simp [Config.size, Config.weight, Config.claimed, Config.pending, initial, Place.pending,
        Place.weight]
    omega

/-- The job of the examples: a single address. -/
def single : Job := ⟨⟨65536, BitVec.ofNat 8⟩, [0], fun _ => 0⟩

theorem onceEach_iff_demo : ∃ c : Config 2, run single 2 [0, 0, 0, 1, 0] = some c ∧
    (OnceEach single c ↔ 0 < 2 ∧ Spaced single 2 [0, 0, 0, 1, 0]) := by
  have hdone : (run single 2 [0, 0, 0, 1, 0]).map (fun c => decide (∀ w, c.place w = .finished)) =
      some true := by decide +kernel
  obtain ⟨c, hc, hw⟩ := Option.map_eq_some_iff.mp hdone
  exact ⟨c, hc, (onceEach_iff (by decide) hc).2.1 (of_decide_eq_true hw)⟩

/-- Two workers find the only address free, and both fetch. -/
theorem onceEach_fails : ¬ ∀ (job : Job) (k : ℕ) (schedule : List (Fin k)) (c : Config k),
    job.addresses ≠ [] → run job k schedule = some c → OnceEach job c := by
  intro h
  have hrun : (run single 3 [0, 1, 0, 1]).map Config.fetched = some [0, 1] := by decide +kernel
  obtain ⟨c, hc, hfetched⟩ := Option.map_eq_some_iff.mp hrun
  have honce := h single 3 [0, 1, 0, 1] c (by decide) hc
  exact absurd (honce.inRange 1 (by simp [hfetched])) (by decide)

end Runs

end Eece315.PagerThreads
