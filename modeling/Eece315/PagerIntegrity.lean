import Eece315.PagerThreads

/-! What the tables of the pager are worth whatever the TLB remembers: in every state that the
loop of `main` or the workers reach, the page table has distinct pages with their contents, and
the TLB names frames that are in use. -/
namespace Eece315.PagerIntegrity
open AgedTable PagerSystem PagerCoherence PagerThreads

structure Intact (backingStore : BackingStore) (s : State) : Prop where
  pageCount : s.pageTable.contents.length ≤ PAGECOUNT
  distinct : (s.pageTable.contents.map Frame.pageNumber).Nodup
  pageNumber : ∀ e ∈ s.pageTable.contents, 0 ≤ e.pageNumber ∧ e.pageNumber ≤ 255
  page : ∀ e ∈ s.pageTable.contents, ∃ page, e.page = some page ∧ ∀ i < PAGESIZE,
    page i = some (backingStore.byte (e.pageNumber.toNat * PAGESIZE + i))
  frame : ∀ t ∈ s.tlb.contents,
    0 ≤ t.frameNumber ∧ t.frameNumber < s.pageTable.contents.length

section Coherence

variable {backingStore : BackingStore} {s : State}

lemma distinct_pages (h : Coherent backingStore s) :
    (s.pageTable.contents.map Frame.pageNumber).Nodup := by
  rw [List.nodup_iff_getElem?_ne_getElem?]
  intro i j hij hj
  rw [List.length_map] at hj
  rw [List.getElem?_map, List.getElem?_map, List.getElem?_eq_getElem hj,
    List.getElem?_eq_getElem (hij.trans hj)]
  intro he
  have hsame := h.distinct i j _ _ (List.getElem?_eq_getElem (hij.trans hj))
    (List.getElem?_eq_getElem hj) (Option.some.inj he)
  exact absurd hsame hij.ne

theorem intact_of_coherent (h : Coherent backingStore s)
    (hlen : backingStore.length = PAGESIZE * PAGESIZE) : Intact backingStore s := by
  refine ⟨?_, distinct_pages h, fun e he => ?_, fun e he => ?_, fun t ht => ?_⟩
  · rw [Table.length_contents]
    exact s.pageTable.bounded
  · obtain ⟨-, hlow, hhigh⟩ := h.page e he
    exact ⟨hlow, Int.lt_add_one_iff.mp hhigh⟩
  · obtain ⟨hpage, hrange⟩ := h.page e he
    rw [hpage]
    exact readPage_eq hlen hrange
  · obtain ⟨i, e, hti, hi, -⟩ := h.frame t ht
    obtain ⟨hlt, -⟩ := List.getElem?_eq_some_iff.mp hi
    rw [hti]
    exact ⟨Int.natCast_nonneg i, by exact_mod_cast hlt⟩

end Coherence

/-- With a complete backing store the tables are intact after any translations, in the loop of
`main` as in the critical sections of any number of workers. -/
theorem intact_reachable {backingStore : BackingStore}
    (hlen : backingStore.length = PAGESIZE * PAGESIZE) :
    (∀ addresses, ∃ s, PagerSystem.run backingStore addresses = some s ∧
      Intact backingStore s) ∧
    ∀ addresses beyond k schedule c,
      PagerThreads.run ⟨backingStore, addresses, beyond⟩ k schedule = some c →
        Intact backingStore c.pager := by
  have hintact (addresses : List (BitVec 32)) :
      ∃ s, PagerSystem.run backingStore addresses = some s ∧ Intact backingStore s := by
    obtain ⟨s, hs, hcoh⟩ := coherent_run hlen addresses
    exact ⟨s, hs, intact_of_coherent hcoh hlen⟩
  refine ⟨hintact, fun addresses beyond k schedule c h => ?_⟩
  obtain ⟨translated, hrun⟩ := pager_run h
  obtain ⟨s, hs, hs'⟩ := hintact translated
  obtain rfl : c.pager = s := Option.some.inj (hrun.symm.trans hs)
  exact hs'

theorem intact_reachable_demo : ∃ s,
    PagerSystem.run ⟨65536, BitVec.ofNat 8⟩ [0, 300, 70000] = some s ∧
      Intact ⟨65536, BitVec.ofNat 8⟩ s :=
  (intact_reachable rfl).1 [0, 300, 70000]

end Eece315.PagerIntegrity
