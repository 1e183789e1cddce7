import Eece315.PagerSystem

/-! The pager as two windows over its history. The TLB amounts to the last accesses and the page
table to the last pages loaded; frames are given out in turn. -/
namespace Eece315.PagerHistory
open AgedTable PagerSystem

/-- All accesses with the frames they used, and all pages loaded, the newest first. -/
structure History where
  accesses : List Translation
  loads : List ℤ
  TLBHits : ℕ

namespace History

def start : History := ⟨[], [], 0⟩

/-- The most recent of the last accesses to a page. -/
def recent (h : History) (pageNumber : ℤ) : Option Translation :=
  (h.accesses.take TLBSIZE).find? fun t => t.pageNumber = pageNumber

/-- How many loads ago a page was loaded, if it is one of the last pages loaded. -/
def loaded (h : History) (pageNumber : ℤ) : Option ℕ :=
  (h.loads.take PAGECOUNT).findIdx? fun p => p = pageNumber

/-- The frame of a page: reused, or the next one in turn. -/
def frame (h : History) (pageNumber : ℤ) : ℤ :=
  match h.recent pageNumber, h.loaded pageNumber with
  | some t, _ => t.frameNumber
  | none, some d => depth h.loads.length PAGECOUNT d
  | none, none => (h.loads.length % PAGECOUNT : ℕ)

def step (h : History) (pageNumber : ℤ) : History :=
  { accesses := ⟨pageNumber, h.frame pageNumber⟩ :: h.accesses
    loads := if h.recent pageNumber = none ∧ h.loaded pageNumber = none then pageNumber :: h.loads
      else h.loads
    TLBHits := if h.recent pageNumber = none then h.TLBHits else h.TLBHits + 1 }

end History

structure Refines (s : State) (h : History) : Prop where
  tlb : s.tlb.Holds h.accesses
  pageTable : ∃ frames : List Frame, s.pageTable.Holds frames ∧
    frames.map Frame.pageNumber = h.loads
  frame_nonneg : ∀ t ∈ h.accesses, 0 ≤ t.frameNumber
  agree : ∀ t ∈ h.accesses.take TLBSIZE, ∀ t' ∈ h.accesses.take TLBSIZE,
    t.pageNumber = t'.pageNumber → t.frameNumber = t'.frameNumber
  distinct : (h.loads.take PAGECOUNT).Nodup
  faults : s.pageFaults = h.loads.length
  hits : s.TLBHits = h.TLBHits

lemma refines_start : Refines start .start :=
  ⟨Table.holds_empty, ⟨[], Table.holds_empty, rfl⟩, by simp [History.start],
    by simp [History.start], by simp [History.start], rfl, rfl⟩

section Step

variable {s : State} {h : History} {pageNumber : ℤ}

/-- The TLB answers for the last accesses, whichever of its slots it looks at first. -/
lemma Refines.checkTLB_eq (hr : Refines s h) (pageNumber : ℤ) :
    checkTLB s.tlb pageNumber =
      match h.recent pageNumber with
      | some t => t.frameNumber
      | none => -1 := by
  have hmem (t : Translation) : t ∈ s.tlb.contents ↔ t ∈ h.accesses.take TLBSIZE :=
    hr.tlb.mem_contents (by decide)
  unfold checkTLB History.recent
  cases hf : s.tlb.contents.find? fun e => e.pageNumber = pageNumber with
  | none =>
    have hnone : (h.accesses.take TLBSIZE).find? (fun t => t.pageNumber = pageNumber) = none := by
      rw [List.find?_eq_none] at hf ⊢
      exact fun t ht => hf t ((hmem t).mpr ht)
    rw [hnone]
  | some e =>
    have he := (hmem e).mp (List.mem_of_find?_eq_some hf)
    have hep : e.pageNumber = pageNumber := by simpa using List.find?_some hf
    cases hw : (h.accesses.take TLBSIZE).find? fun t => t.pageNumber = pageNumber with
    | none => exact absurd (decide_eq_true hep) (List.find?_eq_none.mp hw e he)
    | some t =>
      have htp : t.pageNumber = pageNumber := by simpa using List.find?_some hw
      exact hr.agree e he t (List.mem_of_find?_eq_some hw) (hep.trans htp.symm)

lemma Refines.checkTLB_eq_neg_one (hr : Refines s h) :
    checkTLB s.tlb pageNumber = -1 ↔ h.recent pageNumber = none := by
  rw [hr.checkTLB_eq]
  cases ht : h.recent pageNumber with
  | none => simp
  | some t =>
    have := hr.frame_nonneg t (List.mem_of_mem_take (List.mem_of_find?_eq_some ht))
    simp only [reduceCtorEq, iff_false]
    omega

lemma Refines.findPageIndex_eq (hr : Refines s h) (pageNumber : ℤ) :
    findPageIndex s.pageTable pageNumber =
      match h.loaded pageNumber with
      | some d => (depth h.loads.length PAGECOUNT d : ℤ)
      | none => -1 := by
  obtain ⟨frames, hholds, hloads⟩ := hr.pageTable
  have hlen : h.loads.length = frames.length := by rw [← hloads, List.length_map]
  have hget (d : ℕ) (hd : d < PAGECOUNT) :
      (h.loads.take PAGECOUNT)[d]? = frames[d]?.map Frame.pageNumber := by
    rw [List.getElem?_take, if_pos hd, ← hloads, List.getElem?_map]
  unfold findPageIndex History.loaded
  cases hf : s.pageTable.contents.findIdx? fun e => e.pageNumber = pageNumber with
  | none =>
    have hnone : (h.loads.take PAGECOUNT).findIdx? (fun p => p = pageNumber) = none := by
      rw [List.findIdx?_eq_none_iff] at hf ⊢
      intro p hp
      rw [← hloads, ← List.map_take] at hp
      obtain ⟨e, he, rfl⟩ := List.mem_map.mp hp
      exact hf e ((hholds.mem_contents (by decide)).mpr he)
    rw [hnone]
  | some i =>
    obtain ⟨hlt, hpi, -⟩ := List.findIdx?_eq_some_iff_getElem.mp hf
    have hmin : i < min frames.length PAGECOUNT := by rwa [hholds.length_contents] at hlt
    have hd : depth frames.length PAGECOUNT i < PAGECOUNT := depth_lt (by decide)
    have hwin : (h.loads.take PAGECOUNT)[depth frames.length PAGECOUNT i]? =
        some pageNumber := by
      rw [hget _ hd, ← hholds.contents hmin, List.getElem?_eq_getElem hlt]
      simpa using hpi
    cases hw : (h.loads.take PAGECOUNT).findIdx? fun p => p = pageNumber with
    | none =>
      rw [List.findIdx?_eq_none_iff] at hw
      simpa using hw _ (List.mem_of_getElem? hwin)
    | some d =>
      obtain ⟨hdlt, hpd, -⟩ := List.findIdx?_eq_some_iff_getElem.mp hw
      have hsame : d = depth frames.length PAGECOUNT i := by
        apply (List.getElem?_inj hdlt hr.distinct).mp
        rw [hwin, List.getElem?_eq_getElem hdlt]
        simpa using hpd
      simp only [hsame, hlen, depth_depth hmin]

lemma Refines.findPageIndex_eq_neg_one (hr : Refines s h) :
    findPageIndex s.pageTable pageNumber = -1 ↔ h.loaded pageNumber = none := by
  rw [hr.findPageIndex_eq]
  cases h.loaded pageNumber <;> simp

lemma Refines.access (hr : Refines s h) {frameNumber : ℤ} (hnn : 0 ≤ frameNumber)
    (hagree : ∀ t ∈ h.accesses.take TLBSIZE, t.pageNumber = pageNumber →
      t.frameNumber = frameNumber) (out : List Line) :
    Refines { s with out := out, tlb := updateTLB s.tlb pageNumber frameNumber }
      { h with accesses := ⟨pageNumber, frameNumber⟩ :: h.accesses } := by
  refine ⟨hr.tlb.insert (by decide) _, hr.pageTable, fun t ht => ?_, fun t ht t' ht' hp => ?_,
    hr.distinct, hr.faults, hr.hits⟩
  · rcases List.mem_cons.mp ht with rfl | ht
    · exact hnn
    · exact hr.frame_nonneg t ht
  · have hold {t : Translation}
        (ht : t ∈ (⟨pageNumber, frameNumber⟩ :: h.accesses).take TLBSIZE) :
        t = ⟨pageNumber, frameNumber⟩ ∨ t ∈ h.accesses.take TLBSIZE := by
      rw [TLBSIZE, List.take_succ_cons, List.mem_cons] at ht
      exact ht.imp_right fun ht => List.take_subset_take_left _ (by decide) ht
    rcases hold ht with rfl | ht <;> rcases hold ht' with rfl | ht'
    · rfl
    · exact (hagree t' ht' hp.symm).symm
    · exact hagree t ht hp
    · exact hr.agree t ht t' ht' hp

lemma Refines.fault (hr : Refines s h) (hnew : h.loaded pageNumber = none) (page : Option Page) :
    (updatePageTable s.pageTable page pageNumber).2 = (h.loads.length % PAGECOUNT : ℕ) ∧
      Refines { s with
          pageTable := (updatePageTable s.pageTable page pageNumber).1
          pageFaults := s.pageFaults + 1 }
        { h with loads := pageNumber :: h.loads } := by
  obtain ⟨frames, hholds, hloads⟩ := hr.pageTable
  have hlen : h.loads.length = frames.length := by rw [← hloads, List.length_map]
  refine ⟨?_, hr.tlb, ⟨⟨page, pageNumber⟩ :: frames, hholds.insert (by decide) _, ?_⟩,
    hr.frame_nonneg, hr.agree, ?_, ?_, hr.hits⟩
  · rw [updatePageTable, hholds.target_eq (by decide), hlen]
  · rw [List.map_cons, hloads]
  · rw [History.loaded, List.findIdx?_eq_none_iff] at hnew
    rw [PAGECOUNT, List.take_succ_cons]
    refine List.nodup_cons.mpr ⟨fun hmem => ?_, ?_⟩
    · have hin := List.take_subset_take_left h.loads (by decide : 127 ≤ PAGECOUNT) hmem
      simpa using hnew _ hin
    · exact (List.take_sublist_take_left (by decide : 127 ≤ PAGECOUNT)).nodup hr.distinct
  · rw [hr.faults, List.length_cons]

lemma History.recent_eq_none : h.recent pageNumber = none ↔
    ∀ t ∈ h.accesses.take TLBSIZE, t.pageNumber ≠ pageNumber := by
  simp [History.recent, List.find?_eq_none]

lemma Refines.fetch (hr : Refines s h) (backingStore : BackingStore) (pageNumber : ℤ) :
    ∃ page s₁ h₁, fetch backingStore pageNumber (lookup pageNumber s).1
        (lookup pageNumber s).2 = (page, h.frame pageNumber, s₁) ∧
      Refines s₁ h₁ ∧ h₁.accesses = h.accesses ∧ 0 ≤ h.frame pageNumber ∧
      (∀ t ∈ h.accesses.take TLBSIZE, t.pageNumber = pageNumber →
        t.frameNumber = h.frame pageNumber) ∧
      h.step pageNumber =
        { h₁ with accesses := ⟨pageNumber, h.frame pageNumber⟩ :: h₁.accesses } := by
  have htlb := hr.checkTLB_eq pageNumber
  cases ht : h.recent pageNumber with
  | some t =>
    have hmem := List.mem_of_find?_eq_some ht
    have htp : t.pageNumber = pageNumber := by simpa using List.find?_some ht
    have hnn := hr.frame_nonneg t (List.mem_of_mem_take hmem)
    have hframe : h.frame pageNumber = t.frameNumber := by simp [History.frame, ht]
    have hne : t.frameNumber ≠ -1 := by omega
    rw [ht] at htlb
    refine ⟨_, { s with TLBHits := s.TLBHits + 1 }, { h with TLBHits := h.TLBHits + 1 },
      by simp [PagerSystem.fetch, lookup, htlb, hne, hframe]; rfl,
      ⟨hr.tlb, hr.pageTable, hr.frame_nonneg, hr.agree, hr.distinct, hr.faults, ?_⟩, rfl,
      by rwa [hframe], fun u hu hup => ?_, by simp [History.step, ht]⟩
    · exact congrArg (· + 1) hr.hits
    · rw [hframe]
      exact hr.agree u hu t hmem (hup.trans htp.symm)
  | none =>
    have hmiss : ∀ t ∈ h.accesses.take TLBSIZE, t.pageNumber = pageNumber →
        t.frameNumber = h.frame pageNumber := fun t hmem htp =>
      absurd htp (History.recent_eq_none.mp ht t hmem)
    rw [ht] at htlb
    have hpage := hr.findPageIndex_eq pageNumber
    cases hd : h.loaded pageNumber with
    | some d =>
      have hframe : h.frame pageNumber = depth h.loads.length PAGECOUNT d := by
        simp [History.frame, ht, hd]
      rw [hd] at hpage
      have hne : (depth h.loads.length PAGECOUNT d : ℤ) ≠ -1 := by omega
      exact ⟨_, s, h, by simp [PagerSystem.fetch, lookup, htlb, hpage, hne, hframe]; rfl, hr, rfl,
        by rw [hframe]; exact Int.natCast_nonneg _, hmiss, by simp [History.step, ht, hd]⟩
    | none =>
      have hframe : h.frame pageNumber = (h.loads.length % PAGECOUNT : ℕ) := by
        simp [History.frame, ht, hd]
      rw [hd] at hpage
      obtain ⟨hnew, href⟩ := hr.fault hd (readPage backingStore pageNumber)
      exact ⟨_, _, _, by simp [PagerSystem.fetch, lookup, htlb, hpage, hframe, ← hnew]; rfl, href,
        rfl, by rw [hframe]; exact Int.natCast_nonneg _, hmiss, by simp [History.step, ht, hd]⟩

theorem Refines.step (hr : Refines s h) {backingStore : BackingStore} {address : BitVec 32}
    {s' : State} (ht : translateAddress backingStore s address = some s') :
    Refines s' (h.step (getPageNumber address)) ∧
      s'.out.getLast?.map Line.frameNumber = some (h.frame (getPageNumber address)) := by
  obtain ⟨page, s₁, h₁, hf, href, hacc, hnn, hagree, hstep⟩ :=
    hr.fetch backingStore (getPageNumber address)
  simp only [translateAddress, hf, Option.bind_eq_bind, Option.bind_eq_some_iff, Option.pure_def,
    Option.some.injEq] at ht
  obtain ⟨bytes, -, value, -, rfl⟩ := ht
  rw [← hacc] at hagree
  exact ⟨hstep ▸ href.access hnn hagree _, by simp⟩

end Step

def History.run (addresses : List (BitVec 32)) : History :=
  (addresses.map getPageNumber).foldl History.step .start

theorem refines_run {backingStore : BackingStore} {addresses : List (BitVec 32)} {s : State}
    (hs : run backingStore addresses = some s) : Refines s (History.run addresses) := by
  induction addresses using List.reverseRecOn generalizing s with
  | nil =>
    obtain rfl : start = s := by simpa [run] using hs
    exact refines_start
  | append_singleton addresses a ih =>
    rw [run, List.foldlM_append] at hs
    obtain ⟨s₀, hs₀, hstep⟩ := Option.bind_eq_some_iff.mp hs
    have ht : translateAddress backingStore s₀ a = some s := by simpa using hstep
    have hr := ((ih hs₀).step ht).1
    simpa [History.run] using hr

end Eece315.PagerHistory
