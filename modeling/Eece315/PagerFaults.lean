import Eece315.PagerThreads

/-! Page faults. Every page is loaded at least once, and exactly once if there are no more pages
than frames. Nothing then depends on the order of the accesses: however the workers of the
threaded pager take turns, it counts the faults and prints the values of the sequential one. -/
namespace Eece315.PagerFaults
open AgedTable PagerSystem PagerHistory PagerCoherence PagerThreads StepRuns

def pages (addresses : List (BitVec 32)) : Finset ℤ := (addresses.map getPageNumber).toFinset

/-- What a line says about the memory, without the frame that was used. -/
def contentOf (line : Line) : BitVec 32 × BitVec 8 := (line.address, line.value)

section Loads

/-! The pages that are loaded are those accessed. -/

variable {h : History} {addresses : List (BitVec 32)} {p q : ℤ}

lemma history_run_append (addresses : List (BitVec 32)) (a : BitVec 32) :
    History.run (addresses ++ [a]) = (History.run addresses).step (getPageNumber a) := by
  simp [History.run]

lemma accesses_run (addresses : List (BitVec 32)) :
    (History.run addresses).accesses.map Translation.pageNumber =
      (addresses.map getPageNumber).reverse := by
  induction addresses using List.reverseRecOn with
  | nil => rfl
  | append_singleton addresses a ih =>
    rw [history_run_append, History.step, List.map_cons, ih]
    simp

lemma mem_loads_of_found (hall : ∀ t ∈ h.accesses, t.pageNumber ∈ h.loads)
    (hfound : ¬ (h.recent p = none ∧ h.loaded p = none)) : p ∈ h.loads := by
  rcases not_and_or.mp hfound with hrecent | hloaded
  · obtain ⟨t, ht⟩ := Option.ne_none_iff_exists'.mp hrecent
    have htp : t.pageNumber = p := by simpa using List.find?_some ht
    exact htp ▸ hall t (List.mem_of_mem_take (List.mem_of_find?_eq_some ht))
  · obtain ⟨d, hd⟩ := Option.ne_none_iff_exists'.mp hloaded
    obtain ⟨hlt, hp, -⟩ := List.findIdx?_eq_some_iff_getElem.mp hd
    have hmem := List.mem_of_mem_take (List.getElem_mem hlt)
    rwa [of_decide_eq_true hp] at hmem

lemma loads_step (h : History) (p : ℤ) : (h.step p).loads =
    if h.recent p = none ∧ h.loaded p = none then p :: h.loads else h.loads := rfl

lemma mem_loads_step (hall : ∀ t ∈ h.accesses, t.pageNumber ∈ h.loads) :
    q ∈ (h.step p).loads ↔ q = p ∨ q ∈ h.loads := by
  rw [loads_step]
  by_cases hfault : h.recent p = none ∧ h.loaded p = none
  · rw [if_pos hfault, List.mem_cons]
  · rw [if_neg hfault]
    constructor
    · exact .inr
    · intro hq
      rcases hq with hq | hq
      · rw [hq]
        exact mem_loads_of_found hall hfault
      · exact hq

theorem mem_loads_run : p ∈ (History.run addresses).loads ↔ p ∈ addresses.map getPageNumber := by
  induction addresses using List.reverseRecOn generalizing p with
  | nil => simp [History.run, History.start]
  | append_singleton addresses a ih =>
    have hall : ∀ t ∈ (History.run addresses).accesses,
        t.pageNumber ∈ (History.run addresses).loads := by
      intro t ht
      rw [ih, ← List.mem_reverse, ← accesses_run]
      exact List.mem_map_of_mem ht
    rw [history_run_append, mem_loads_step hall, ih, List.map_append, List.mem_append, or_comm]
    simp

lemma toFinset_loads (addresses : List (BitVec 32)) :
    (History.run addresses).loads.toFinset = pages addresses := by
  ext p
  rw [pages, List.mem_toFinset, List.mem_toFinset, mem_loads_run]

lemma pages_append_le {before after : List (BitVec 32)}
    (hcard : (pages (before ++ after)).card ≤ PAGECOUNT) : (pages before).card ≤ PAGECOUNT := by
  apply (Finset.card_le_card _).trans hcard
  simp [pages]

theorem nodup_loads_run (hcard : (pages addresses).card ≤ PAGECOUNT) :
    (History.run addresses).loads.Nodup := by
  induction addresses using List.reverseRecOn with
  | nil => exact List.nodup_nil
  | append_singleton addresses a ih =>
    have hbefore := pages_append_le hcard
    have hnodup := ih hbefore
    have hlength : (History.run addresses).loads.length ≤ PAGECOUNT := by
      rwa [← List.toFinset_card_of_nodup hnodup, toFinset_loads]
    rw [history_run_append, loads_step]
    split_ifs with hfault
    · rw [List.nodup_cons]
      refine ⟨fun hmem => ?_, hnodup⟩
      have hnone := hfault.2
      rw [History.loaded, List.take_of_length_le hlength, List.findIdx?_eq_none_iff] at hnone
      simpa using hnone _ hmem
    · exact hnodup

lemma length_loads_le (hcard : (pages addresses).card ≤ PAGECOUNT) :
    (History.run addresses).loads.length = (pages addresses).card := by
  rw [← List.toFinset_card_of_nodup (nodup_loads_run hcard), toFinset_loads]

end Loads

section Sequential

variable {backingStore : BackingStore} {addresses : List (BitVec 32)} {s : State}

theorem faults_run (hs : PagerSystem.run backingStore addresses = some s) :
    (pages addresses).card ≤ s.pageFaults ∧
      ((pages addresses).card ≤ PAGECOUNT → s.pageFaults = (pages addresses).card) := by
  have hr := refines_run hs
  rw [hr.faults]
  constructor
  · rw [← toFinset_loads]
    exact List.toFinset_card_le _
  · exact length_loads_le

lemma stillMapped_of_few (hs : PagerSystem.run backingStore addresses = some s)
    (hcard : (pages addresses).card ≤ PAGECOUNT) (p : ℤ) : StillMapped s p := by
  have hr := refines_run hs
  intro hhit
  rw [Ne, hr.findPageIndex_eq_neg_one, History.loaded,
    List.take_of_length_le ((length_loads_le hcard).trans_le hcard), List.findIdx?_eq_none_iff]
  intro hnone
  have hmem : p ∈ (History.run addresses).loads := by
    apply mem_loads_of_found
    · intro t ht
      rw [mem_loads_run, ← List.mem_reverse, ← accesses_run]
      exact List.mem_map_of_mem ht
    · exact fun hfault => hhit (hr.checkTLB_eq_neg_one.mpr hfault.1)
  simpa using hnone p hmem

theorem out_run_of_few (hlen : backingStore.length = PAGESIZE * PAGESIZE)
    (ha : ∀ a ∈ addresses, a.toNat < PAGESIZE * PAGESIZE)
    (hcard : (pages addresses).card ≤ PAGECOUNT) :
    ∃ s, PagerSystem.run backingStore addresses = some s ∧
      s.out.map contentOf = addresses.map fun a => (a, backingStore.byte a.toNat) := by
  induction addresses using List.reverseRecOn with
  | nil => exact ⟨start, rfl, rfl⟩
  | append_singleton addresses a ih =>
    have hbefore := pages_append_le hcard
    obtain ⟨s, hs, hout⟩ := ih (fun b hb => ha b (List.mem_append_left _ hb)) hbefore
    obtain ⟨t, ht, hcoh⟩ := coherent_run hlen addresses
    obtain rfl : s = t := Option.some.inj (hs.symm.trans ht)
    obtain ⟨-, -, -, hright⟩ := hcoh.translateAddress a hlen
    obtain ⟨s', line, e, hs', hline, haddress, -, -, -, hvalue⟩ :=
      (hright (ha a (by simp))).mpr (stillMapped_of_few hs hbefore _)
    refine ⟨s', by simp [run_append, hs, hs'], ?_⟩
    rw [hline, List.map_append, List.map_append, hout]
    simp [contentOf, haddress, hvalue]

end Sequential

section Threaded

variable {k : ℕ} {job : Job} {c d : Config k} {w : Fin k} {schedule : List (Fin k)}

structure Follows (job : Job) (c : Config k) : Prop where
  inHand : ∀ w i a, c.place w = .translate i a → a = job.address i
  pager : PagerSystem.run job.backingStore (c.translated.map job.address) = some c.pager

lemma moveTo_inHand {place : Place} (hc : ∀ w i a, c.place w = .translate i a → a = job.address i)
    (hplace : ∀ i a, place = .translate i a → a = job.address i) :
    ∀ v i a, (c.moveTo w place).place v = .translate i a → a = job.address i := by
  intro v i a hv
  by_cases hvw : v = w
  · subst hvw
    exact hplace i a (by simpa [Config.moveTo] using hv)
  · exact hc v i a (by simpa [Config.moveTo, Function.update_of_ne hvw] using hv)

lemma Follows.step (h : Follows job c) (hs : PagerThreads.step job c w = some d) :
    Follows job d := by
  rcases step_cases hs with ⟨-, -, rfl⟩ | ⟨-, -, rfl⟩ | ⟨-, rfl⟩ | ⟨i, a, s, hp, ht, rfl⟩
  · exact ⟨moveTo_inHand h.inHand (by simp), h.pager⟩
  · exact ⟨moveTo_inHand h.inHand (by simp), h.pager⟩
  · refine ⟨moveTo_inHand h.inHand ?_, h.pager⟩
    intro i a he
    obtain ⟨rfl, rfl⟩ : c.addressCursor = i ∧ job.address c.addressCursor = a := by simpa using he
    rfl
  · refine ⟨moveTo_inHand h.inHand (by simp), ?_⟩
    rw [h.inHand w i a hp] at ht
    simp [run_append, h.pager, ht]

lemma follows_run (h : PagerThreads.run job k schedule = some c) : Follows job c :=
  foldlM_induction ⟨by simp [initial], rfl⟩ (fun _ _ _ hc hs => hc.step hs) h

lemma map_range_address (job : Job) :
    (List.range job.numAddresses).map job.address = job.addresses := by
  apply List.ext_getElem
  · simp [Job.numAddresses]
  · intro i hi hi'
    simp [Job.address, List.getElem?_eq_getElem hi']

/-- When the workers' tests were well spaced, have all stopped and there was room for all pages,
they have counted as many page faults as there are pages and printed the values of the sequential
loop. -/
theorem threads_agree (hlen : job.backingStore.length = PAGESIZE * PAGESIZE)
    (ha : ∀ a ∈ job.addresses, a.toNat < PAGESIZE * PAGESIZE)
    (hcard : (pages job.addresses).card ≤ PAGECOUNT) (hk : 0 < k)
    (h : PagerThreads.run job k schedule = some c) (hspaced : Spaced job k schedule)
    (hdone : ∀ w, c.place w = .finished) :
    ∃ s, PagerSystem.run job.backingStore job.addresses = some s ∧
      c.pager.pageFaults = s.pageFaults ∧ s.pageFaults = (pages job.addresses).card ∧
      (c.pager.out.map contentOf).Perm (s.out.map contentOf) := by
  have honce := onceEach_of_spaced h hk hspaced
  have hperm : (c.translated.map job.address).Perm job.addresses := by
    rw [← map_range_address]
    exact (honce.all hdone).map _
  have hpages : pages (c.translated.map job.address) = pages job.addresses :=
    List.toFinset_eq_of_perm _ _ (hperm.map _)
  obtain ⟨s, hs, hout⟩ := out_run_of_few hlen ha hcard
  obtain ⟨t, ht, hout'⟩ := out_run_of_few hlen (fun a hmem => ha a (hperm.mem_iff.mp hmem))
    (hpages ▸ hcard)
  have hpager := (follows_run h).pager
  obtain rfl : c.pager = t := Option.some.inj (hpager.symm.trans ht)
  have hfaults := (faults_run hs).2 hcard
  refine ⟨s, hs, ?_, hfaults, ?_⟩
  · rw [(faults_run hpager).2 (hpages ▸ hcard), hfaults, hpages]
  · rw [hout, hout']
    exact hperm.map _

/-- Two workers translate the first two of three addresses in the other order. -/
theorem threads_agree_demo : ∃ (schedule : List (Fin 2)) (c : Config 2) (s : State),
    PagerThreads.run ⟨unlikePages, [0, 300, 5], fun _ => 0⟩ 2 schedule = some c ∧
      PagerSystem.run unlikePages [0, 300, 5] = some s ∧ c.translated = [1, 0, 2] ∧
      c.pager.pageFaults = s.pageFaults ∧ s.pageFaults = 2 ∧
      (c.pager.out.map contentOf).Perm (s.out.map contentOf) := by
  let job : Job := ⟨unlikePages, [0, 300, 5], fun _ => 0⟩
  let schedule : List (Fin 2) := [0, 0, 1, 1, 1, 0, 0, 0, 0, 0, 1]
  have hrun : (PagerThreads.run job 2 schedule).map (fun c =>
      decide (c.translated = [1, 0, 2] ∧ ∀ w, c.place w = .finished)) = some true := by
    decide +kernel
  have hspaced : EveryStep (PagerThreads.step job) (initial 2) (fun c w => c.place w = .test →
      c.addressCursor < job.numAddresses → c.addressCursor + c.pending < job.numAddresses)
      schedule := everyStep_of_forall (by decide +kernel)
  obtain ⟨c, hc, hd⟩ := Option.map_eq_some_iff.mp hrun
  obtain ⟨htranslated, hdone⟩ := of_decide_eq_true hd
  have hbelow : ∀ a ∈ job.addresses, a.toNat < PAGESIZE * PAGESIZE := by simp [job, PAGESIZE]
  have hcard : (pages job.addresses).card ≤ PAGECOUNT :=
    (List.toFinset_card_le _).trans (by simp [job, PAGECOUNT])
  have hlen : job.backingStore.length = PAGESIZE * PAGESIZE := rfl
  obtain ⟨s, hs, hfaults, hpages, hout⟩ :=
    threads_agree hlen hbelow hcard two_pos hc hspaced hdone
  exact ⟨schedule, c, s, hc, hs, htranslated, hfaults, hpages.trans (by decide +kernel), hout⟩

end Threaded

end Eece315.PagerFaults
