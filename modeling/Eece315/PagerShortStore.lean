import Eece315.PagerCoherence
import Eece315.StepRuns

/-! The pager on a backing store of any length. A page that is only partly in the file is read as
far as it goes; of a page that starts past its end nothing is read, `ReadPage` gives the null
pointer, and the loop of `main` puts that pointer in a frame and reads through it. -/
namespace Eece315.PagerShortStore
open AgedTable PagerSystem PagerCoherence StepRuns

/-- An address, and what `malloc` has left in the byte of the page at its offset. -/
structure Access where
  address : BitVec 32
  leftover : BitVec 8

/-- The page of an address, its frame number and the state after the page fault, if any. -/
def pageOf (backingStore : BackingStore) (s : State) (address : BitVec 32) :
    Option Page × ℤ × State :=
  let pageNumber := getPageNumber address
  let (frameNumber, s) := lookup pageNumber s
  fetch backingStore pageNumber frameNumber s

/-- The body of the loop of `main` when a byte that `fread` has not written may be read. There is
no result where it reads through the null page pointer. -/
def translateAccess (backingStore : BackingStore) (s : State) (access : Access) : Option State := do
  let pageOffset := getPageOffSet access.address
  let (page, frameNumber, s) := pageOf backingStore s access.address
  let value := ((← page) pageOffset.toNat).getD access.leftover
  return { s with
    out := s.out ++ [⟨access.address, frameNumber, value⟩]
    tlb := updateTLB s.tlb (getPageNumber access.address) frameNumber }

/-- Where no unwritten byte is read the loop is the one of a complete backing store. -/
theorem translateAccess_of_translateAddress {backingStore : BackingStore} {s s' : State}
    {access : Access} (h : translateAddress backingStore s access.address = some s') :
    translateAccess backingStore s access = some s' := by
  have hbody : translateAddress backingStore s access.address =
      (pageOf backingStore s access.address).1.bind fun page =>
        (page (getPageOffSet access.address).toNat).bind fun value =>
          some { (pageOf backingStore s access.address).2.2 with
            out := (pageOf backingStore s access.address).2.2.out ++
              [⟨access.address, (pageOf backingStore s access.address).2.1, value⟩]
            tlb := updateTLB (pageOf backingStore s access.address).2.2.tlb
              (getPageNumber access.address) (pageOf backingStore s access.address).2.1 } := rfl
  rw [hbody] at h
  obtain ⟨page, hpage, h⟩ := Option.bind_eq_some_iff.mp h
  obtain ⟨value, hvalue, h⟩ := Option.bind_eq_some_iff.mp h
  rw [← h]
  simp [translateAccess, hpage, hvalue]

/-- The page of the address starts inside the file. -/
def Starts (backingStore : BackingStore) (address : BitVec 32) : Prop :=
  (getPageNumber address).toNat * PAGESIZE < backingStore.length

/-- Translating an address in state `s` keeps clear of a page that could not be read, and comes to
its end: no byte is read through the null page pointer. The step changes no frame after the page
fault, so the frames are those of the next state. -/
structure Handled (backingStore : BackingStore) (s : State) (access : Access) : Prop where
  unchanged : (lookup (getPageNumber access.address) s).1 = -1 →
    readPage backingStore (getPageNumber access.address) = none →
      (pageOf backingStore s access.address).2.2.pageTable.contents = s.pageTable.contents ∧
        ∀ s', translateAccess backingStore s access = some s' → s'.tlb.contents = s.tlb.contents
  read : ∃ s', translateAccess backingStore s access = some s'
  frames : ∀ e ∈ (pageOf backingStore s access.address).2.2.pageTable.contents, e.page ≠ none

lemma readPage_eq_none {backingStore : BackingStore} {pageNumber : ℤ}
    (hrange : 0 ≤ pageNumber ∧ pageNumber < PAGESIZE) :
    readPage backingStore pageNumber = none ↔
      backingStore.length ≤ pageNumber.toNat * PAGESIZE := by
  have hin : ¬(pageNumber < 0 ∨ pageNumber ≥ PAGESIZE) := by omega
  simp [readPage, hin]

lemma readPage_address {backingStore : BackingStore} {address : BitVec 32} :
    readPage backingStore (getPageNumber address) ≠ none ↔ Starts backingStore address := by
  rw [Ne, readPage_eq_none (getPageNumber_range address), not_le, Starts]

/-- The tables of a run so far: they are coherent, and name only pages that could be read. -/
structure Sound (backingStore : BackingStore) (s : State) : Prop where
  coherent : Coherent backingStore s
  frames : ∀ e ∈ s.pageTable.contents, e.page ≠ none
  translations : ∀ t ∈ s.tlb.contents, readPage backingStore t.pageNumber ≠ none

lemma sound_start (backingStore : BackingStore) : Sound backingStore start :=
  ⟨coherent_start backingStore, by simp [start], by simp [start]⟩

lemma Sound.lookup_eq_neg_one {backingStore : BackingStore} {s : State} {pageNumber : ℤ}
    (h : Sound backingStore s) (hnone : readPage backingStore pageNumber = none) :
    (lookup pageNumber s).1 = -1 := by
  have hmiss : checkTLB s.tlb pageNumber = -1 := by
    rcases checkTLB_cases s.tlb pageNumber with ⟨hmiss, -⟩ | ⟨t, ht, htp, -⟩
    · exact hmiss
    · rw [← htp] at hnone
      exact absurd hnone (h.translations t ht)
  have hfind : findPageIndex s.pageTable pageNumber = -1 := by
    rw [findPageIndex_eq_neg_one]
    intro e he hep
    rw [← hep, ← (h.coherent.page e he).1] at hnone
    exact h.frames e he hnone
  simp [lookup, hmiss, hfind]

section Step

variable {backingStore : BackingStore} {s : State} {access : Access}

/-- The frame is settled and holds a page: the address is handled and the tables stay sound. -/
lemma handled_of_pageOf {i : ℕ} {e : Frame} {s₁ : State}
    (hs : Starts backingStore access.address)
    (hf : pageOf backingStore s access.address = (e.page, (i : ℤ), s₁))
    (hsound : Sound backingStore s₁) (hi : s₁.pageTable.contents[i]? = some e)
    (hu : ∀ (j : ℕ) (e' : Frame), s₁.pageTable.contents[j]? = some e' →
      e'.pageNumber = getPageNumber access.address → j = i) :
    Handled backingStore s access ∧
      ∃ s', translateAccess backingStore s access = some s' ∧ Sound backingStore s' := by
  have hread := readPage_address.mpr hs
  have he := hsound.frames e (List.mem_of_getElem? hi)
  obtain ⟨page, hpage⟩ := Option.ne_none_iff_exists'.mp he
  have hcoh := hsound.coherent.updateTLB hi hu
  have hstep : translateAccess backingStore s access = some { s₁ with
      out := s₁.out ++
        [⟨access.address, i, (page (getPageOffSet access.address).toNat).getD access.leftover⟩]
      tlb := updateTLB s₁.tlb (getPageNumber access.address) i } := by
    simp [translateAccess, hf, hpage]
  constructor
  · refine ⟨fun _ hnone => absurd hnone hread, ⟨_, hstep⟩, ?_⟩
    rw [hf]
    exact hsound.frames
  · refine ⟨_, hstep, ⟨hcoh.page, hcoh.distinct, hcoh.frame⟩, hsound.frames, fun t ht => ?_⟩
    rcases Table.mem_insert (by decide : 0 < TLBSIZE) ht with rfl | ht
    · exact hread
    · exact hsound.translations t ht

theorem Sound.translateAccess (h : Sound backingStore s)
    (hs : Starts backingStore access.address) :
    Handled backingStore s access ∧
      ∃ s', translateAccess backingStore s access = some s' ∧ Sound backingStore s' := by
  set p := getPageNumber access.address with hp
  rcases h.coherent.fetch_cases p with ⟨i, e, hits, -, hf, hi, hu, -⟩ | ⟨-, -, hf, htlb, hpage⟩
  · exact handled_of_pageOf hs hf
      ⟨⟨h.coherent.page, h.coherent.distinct, h.coherent.frame⟩, h.frames, h.translations⟩ hi hu
  · have hcoh := h.coherent.updatePageTable (getPageNumber_range access.address) htlb hpage
    have hget := (s.pageTable.getElem?_insert (by decide : 0 < PAGECOUNT)
      ⟨readPage backingStore p, p⟩ s.pageTable.target).trans (if_pos rfl)
    have hframes : ∀ e ∈ (s.pageTable.insert ⟨readPage backingStore p, p⟩).contents,
        e.page ≠ none := by
      intro e he
      rcases Table.mem_insert (by decide : 0 < PAGECOUNT) he with rfl | he
      · exact readPage_address.mpr hs
      · exact h.frames e he
    apply handled_of_pageOf (e := ⟨readPage backingStore p, p⟩) hs hf _ hget
    · intro j e' hj he'
      exact hcoh.distinct j _ e' _ hj hget he'
    · exact ⟨⟨hcoh.page, hcoh.distinct, hcoh.frame⟩, hframes, h.translations⟩

/-- A page that is not in the file takes a frame all the same, if need be that of a page that is
still in use, and the loop ends there. -/
theorem Sound.stuck (h : Sound backingStore s) (hs : ¬ Starts backingStore access.address) :
    (pageOf backingStore s access.address).2.2.pageTable.contents[s.pageTable.target]? =
        some ⟨none, getPageNumber access.address⟩ ∧
      PagerShortStore.translateAccess backingStore s access = none := by
  rw [← readPage_address, not_not] at hs
  have hlook := h.lookup_eq_neg_one hs
  rcases h.coherent.fetch_cases (getPageNumber access.address) with
    ⟨i, e, hits, hi, -⟩ | ⟨-, -, hf, -, -⟩
  · omega
  · have hpage : pageOf backingStore s access.address = _ := hf
    rw [hs] at hpage
    constructor
    · rw [hpage, s.pageTable.getElem?_insert (by decide : 0 < PAGECOUNT), if_pos rfl]
    · simp [PagerShortStore.translateAccess, hpage]

lemma Sound.handled_iff (h : Sound backingStore s) :
    Handled backingStore s access ↔ Starts backingStore access.address := by
  constructor
  · intro hhandled
    by_contra hs
    obtain ⟨s', hs'⟩ := hhandled.read
    rw [(h.stuck hs).2] at hs'
    cases hs'
  · intro hs
    exact (h.translateAccess hs).1

end Step

section Runs

variable {backingStore : BackingStore} {accesses : List Access}

theorem sound_run (h : ∀ access ∈ accesses, Starts backingStore access.address) :
    ∃ s, accesses.foldlM (translateAccess backingStore) start = some s ∧
      Sound backingStore s := by
  induction accesses using List.reverseRecOn with
  | nil => exact ⟨start, rfl, sound_start backingStore⟩
  | append_singleton accesses access ih =>
    obtain ⟨s, hrun, hsound⟩ := ih fun a ha => h a (List.mem_append_left _ ha)
    obtain ⟨-, s', hs', hsound'⟩ := hsound.translateAccess (h access (by simp))
    exact ⟨s', foldlM_append_singleton.mpr ⟨s, hrun, hs'⟩, hsound'⟩

/-- Every address of a run is handled exactly when all of them have their page in the file: the
first whose page is missing is read through the null pointer. -/
theorem everyStep_handled_iff (backingStore : BackingStore) (accesses : List Access) :
    EveryStep (translateAccess backingStore) start (Handled backingStore) accesses ↔
      ∀ access ∈ accesses, Starts backingStore access.address := by
  constructor
  · intro h
    induction accesses using List.reverseRecOn with
    | nil => simp
    | append_singleton accesses access ih =>
      have hbefore := ih h.of_append
      obtain ⟨s, hrun, hsound⟩ := sound_run hbefore
      have hlast := hsound.handled_iff.mp (h accesses access [] rfl s hrun)
      intro a ha
      rcases List.mem_append.mp ha with ha | ha
      · exact hbefore a ha
      · rw [List.mem_singleton.mp ha]
        exact hlast
  · rintro h before access after rfl s hrun
    obtain ⟨s', hrun', hsound⟩ := sound_run fun a ha => h a (List.mem_append_left _ ha)
    obtain rfl : s' = s := Option.some.inj (hrun'.symm.trans hrun)
    exact hsound.handled_iff.mpr (h access (by simp))

/-- In an empty file there is not even the page of address 0. -/
theorem everyStep_handled_fails : ¬ ∀ (backingStore : BackingStore) (accesses : List Access),
    EveryStep (translateAccess backingStore) start (Handled backingStore) accesses := by
  intro h
  have hhandled := h ⟨0, BitVec.ofNat 8⟩ [⟨0, 0⟩] [] ⟨0, 0⟩ [] rfl start rfl
  have hstarts := (sound_start _).handled_iff.mp hhandled
  exact Nat.not_lt_zero _ hstarts

end Runs

end Eece315.PagerShortStore
