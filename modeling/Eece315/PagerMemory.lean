import Eece315.PagerSystem
import Eece315.Blocks
import Eece315.StepRuns

/-! The memory of the pager. The page table holds pointers to buffers that `ReadPage` allocates,
`UpdatePageTable` frees the one that it replaces and `FreePageTable` those that are left. The
program over pointers is the one over pages, whatever the TLB remembers of frames that have been
given away: it reads no buffer that it has freed, frees none twice and keeps none. -/
namespace Eece315.PagerMemory
open AgedTable Blocks PagerSystem StepRuns

/-- One index of `pages` and `pageNumbers` in `struct PageTable`. -/
structure Entry where
  page : Option ℕ
  pageNumber : ℤ

abbrev Pages := Table Entry PAGECOUNT

structure Machine where
  memory : Memory Page
  pageTable : Pages
  tlb : TLB
  pageFaults : ℕ
  TLBHits : ℕ
  out : List Line

def findPageIndex (pageTable : Pages) (pageNumber : ℤ) : ℤ :=
  match pageTable.contents.findIdx? fun e => e.pageNumber = pageNumber with
  | some i => i
  | none => -1

/-- The pointer to the buffer; `malloc` is taken to succeed. A buffer that nothing is read into is
neither returned nor freed. -/
def readPage (backingStore : BackingStore) (offset : ℤ) (memory : Memory Page) :
    Option (Option ℕ × Memory Page) :=
  if offset < 0 ∨ offset ≥ PAGESIZE then some (none, memory)
  else
    let (buffer, memory) := memory.malloc fun _ => none
    let start := offset.toNat * PAGESIZE
    if backingStore.length ≤ start then some (none, memory)
    else do
      let memory ← memory.write buffer fun i =>
        if start + i < backingStore.length then some (backingStore.byte (start + i)) else none
      return (some buffer, memory)

/-- The memory without the page that the next insertion replaces. -/
def evict (pageTable : Pages) (memory : Memory Page) : Option (Memory Page) :=
  if pageTable.slots.length = PAGECOUNT then
    memory.free (pageTable.contents[pageTable.target]?.bind Entry.page)
  else some memory

/-- The new table, the frame number and the memory without the page that was replaced. -/
def updatePageTable (pageTable : Pages) (page : Option ℕ) (pageNumber : ℤ)
    (memory : Memory Page) : Option (Pages × ℤ × Memory Page) := do
  let memory ← evict pageTable memory
  return (pageTable.insert ⟨page, pageNumber⟩, pageTable.target, memory)

def lookup (pageNumber : ℤ) (s : Machine) : ℤ × Machine :=
  let frameNumber := checkTLB s.tlb pageNumber
  if frameNumber = -1 then (findPageIndex s.pageTable pageNumber, s)
  else (frameNumber, { s with TLBHits := s.TLBHits + 1 })

def fetch (backingStore : BackingStore) (pageNumber frameNumber : ℤ) (s : Machine) :
    Option (Option ℕ × ℤ × Machine) :=
  if frameNumber ≠ -1 then
    some (s.pageTable.contents[frameNumber.toNat]?.bind Entry.page, frameNumber, s)
  else do
    let (page, memory) ← readPage backingStore pageNumber s.memory
    let (pageTable, frameNumber, memory) ← updatePageTable s.pageTable page pageNumber memory
    return (page, frameNumber,
      { s with memory := memory, pageTable := pageTable, pageFaults := s.pageFaults + 1 })

/-- The body of the loop of `main`. There is no result where it reads through a pointer that is
null or to a buffer that has been freed, or a byte that was not written. -/
def translateAddress (backingStore : BackingStore) (s : Machine) (address : BitVec 32) :
    Option Machine := do
  let pageNumber := getPageNumber address
  let pageOffset := getPageOffSet address
  let (frameNumber, s) := lookup pageNumber s
  let (page, frameNumber, s) ← fetch backingStore pageNumber frameNumber s
  let value ← (← s.memory.read page) pageOffset.toNat
  return { s with
    out := s.out ++ [⟨address, frameNumber, value⟩]
    tlb := updateTLB s.tlb pageNumber frameNumber }

def freePageTable (s : Machine) : Option (Memory Page) :=
  (s.pageTable.contents.map Entry.page).foldlM Memory.free s.memory

def start : Machine := ⟨.empty _, .empty _ _, .empty _ _, 0, 0, []⟩

def run (backingStore : BackingStore) (addresses : List (BitVec 32)) : Option Machine :=
  addresses.foldlM (translateAddress backingStore) start

def Entry.frame (memory : Memory Page) (e : Entry) : Frame := ⟨memory.read e.page, e.pageNumber⟩

def Machine.view (s : Machine) : State :=
  ⟨s.pageTable.map (Entry.frame s.memory), s.tlb, s.pageFaults, s.TLBHits, s.out⟩

/-- The buffers `bs` are the pages of the table, and no other buffer is allocated; a buffer was
allocated for each page fault. -/
structure Owns (s : Machine) (bs : List ℕ) : Prop where
  holds : s.memory.Holds bs
  pages : s.pageTable.contents.map Entry.page = bs.map some
  top : s.memory.top = s.pageFaults

section Calls

variable {backingStore : BackingStore} {s : Machine} {m : Memory Page} {bs : List ℕ}
  {pageNumber offset : ℤ} {page : Page}

lemma view_findPageIndex (s : Machine) (pageNumber : ℤ) :
    PagerSystem.findPageIndex s.view.pageTable pageNumber =
      findPageIndex s.pageTable pageNumber := by
  simp only [PagerSystem.findPageIndex, findPageIndex, Machine.view, Table.contents_map,
    List.findIdx?_map]
  rfl

lemma view_lookup (s : Machine) (pageNumber : ℤ) :
    PagerSystem.lookup pageNumber s.view =
      ((lookup pageNumber s).1, (lookup pageNumber s).2.view) := by
  have htlb : s.view.tlb = s.tlb := rfl
  simp only [PagerSystem.lookup, lookup, view_findPageIndex, htlb]
  split_ifs <;> rfl

lemma readPage_none (hread : PagerSystem.readPage backingStore offset = none) :
    ∃ m', readPage backingStore offset m = some (none, m') := by
  by_cases hrange : offset < 0 ∨ offset ≥ PAGESIZE
  · exact ⟨m, if_pos hrange⟩
  · have hlen : backingStore.length ≤ offset.toNat * PAGESIZE := by
      simpa [PagerSystem.readPage, hrange] using hread
    exact ⟨_, (if_neg hrange).trans (if_pos hlen)⟩

lemma readPage_some (h : m.Holds bs)
    (hread : PagerSystem.readPage backingStore offset = some page) :
    ∃ m', readPage backingStore offset m = some (some m.top, m') ∧ m'.Holds (m.top :: bs) ∧
      m'.top = m.top + 1 ∧ m'.content m.top = some page ∧
      ∀ b ∈ bs, m'.content b = m.content b := by
  by_cases hrange : offset < 0 ∨ offset ≥ PAGESIZE
  · simp [PagerSystem.readPage, hrange] at hread
  · by_cases hlen : backingStore.length ≤ offset.toNat * PAGESIZE
    · simp [PagerSystem.readPage, hrange, hlen] at hread
    · obtain ⟨m', hwrite, h', htop, hcontent, hrest⟩ :=
        (h.malloc fun _ => none).write List.mem_cons_self page
      simp only [PagerSystem.readPage, hrange, hlen, if_false, Option.some.injEq] at hread
      refine ⟨m', ?_, h', htop, hcontent, fun b hb => ?_⟩
      · simp only [readPage, hrange, hlen, if_false, hread]
        rw [show (m.malloc fun _ => none).1 = m.top from rfl, hwrite]
        rfl
      · rw [hrest b (h.bounded b hb).ne]
        exact Memory.malloc_content h hb _

lemma Owns.length (h : Owns s bs) : s.pageTable.slots.length = bs.length := by
  have hpages := congrArg List.length h.pages
  simpa using hpages

lemma Owns.entry (h : Owns s bs) {i : ℕ} {e : Entry} (hi : s.pageTable.contents[i]? = some e) :
    ∃ b, bs[i]? = some b ∧ e.page = some b := by
  have hpage := congrArg (fun l => l[i]?) h.pages
  simp only [List.getElem?_map, hi, Option.map_some] at hpage
  obtain ⟨b, hb, he⟩ := Option.map_eq_some_iff.mp hpage.symm
  exact ⟨b, hb, he.symm⟩

lemma Owns.evict (h : Owns s bs) (hm : m.Holds (s.memory.top :: bs)) :
    ∃ m' cs, evict s.pageTable m = some m' ∧ m'.Holds cs ∧ m'.top = m.top ∧
      (s.pageTable.insert ⟨some s.memory.top, pageNumber⟩).contents.map Entry.page =
        cs.map some ∧
      m'.content s.memory.top = m.content s.memory.top ∧
      ∀ i b, i ≠ s.pageTable.target → bs[i]? = some b → m'.content b = m.content b := by
  rw [Table.contents_insert, PagerMemory.evict]
  split_ifs with hfull
  · have hlt := Table.target_lt_of_full (by decide : 0 < PAGECOUNT) hfull
    obtain ⟨e, he⟩ : ∃ e, s.pageTable.contents[s.pageTable.target]? = some e :=
      ⟨_, List.getElem?_eq_getElem (by rwa [Table.length_contents])⟩
    obtain ⟨b, hb, hpage⟩ := h.entry he
    obtain ⟨hi, rfl⟩ := List.getElem?_eq_some_iff.mp hb
    obtain ⟨m', hfree, h', htop, hrest⟩ := hm.replace hi
    refine ⟨m', _, ?_, h', htop, ?_, ?_, fun i b hne hib => ?_⟩
    · rw [he, Option.bind_some, hpage, hfree]
    · rw [List.map_set, h.pages, List.map_set]
    · exact hrest _ (h.holds.bounded _ (List.getElem_mem hi)).ne'
    · apply hrest
      obtain ⟨hi', rfl⟩ := List.getElem?_eq_some_iff.mp hib
      exact fun heq => hne ((h.holds.nodup.getElem_inj_iff).mp heq)
  · refine ⟨m, bs ++ [s.memory.top], rfl, hm.perm (List.perm_append_singleton _ _).symm, rfl, ?_,
      rfl, fun _ _ _ _ => rfl⟩
    rw [List.map_append, List.map_append, h.pages]
    rfl

lemma Owns.updatePageTable (h : Owns s bs) (pageNumber : ℤ)
    (hm : m.Holds (s.memory.top :: bs))
    (hcontent : ∀ b ∈ bs, m.content b = s.memory.content b)
    (hpage : m.content s.memory.top = some page) :
    ∃ m' cs, updatePageTable s.pageTable (some s.memory.top) pageNumber m =
        some (s.pageTable.insert ⟨some s.memory.top, pageNumber⟩, (s.pageTable.target : ℤ), m') ∧
      m'.Holds cs ∧ m'.top = m.top ∧
      (s.pageTable.insert ⟨some s.memory.top, pageNumber⟩).contents.map Entry.page =
        cs.map some ∧
      m'.content s.memory.top = some page ∧
      (s.pageTable.insert ⟨some s.memory.top, pageNumber⟩).map (Entry.frame m') =
        s.view.pageTable.insert ⟨some page, pageNumber⟩ := by
  obtain ⟨m', cs, hevict, h', htop, hpages, hnew, hold⟩ := h.evict hm
  refine ⟨m', cs, ?_, h', htop, hpages, hnew.trans hpage, ?_⟩
  · rw [PagerMemory.updatePageTable, hevict]
    rfl
  · have hframe : (⟨some page, pageNumber⟩ : Frame) =
        Entry.frame m' ⟨some s.memory.top, pageNumber⟩ := by
      simp [Entry.frame, Memory.read, hnew, hpage]
    rw [hframe]
    apply Table.map_insert (by decide : 0 < PAGECOUNT)
    intro i e hi he
    obtain ⟨b, hb, hep⟩ := h.entry he
    simp only [Entry.frame, Memory.read, hep, Option.bind_some]
    rw [hold i b hi hb, hcontent b (List.mem_of_getElem? hb)]

end Calls

section Runs

variable (backingStore : BackingStore) {s s' : Machine} {bs : List ℕ}

lemma Owns.lookup (h : Owns s bs) (pageNumber : ℤ) : Owns (lookup pageNumber s).2 bs := by
  simp only [PagerMemory.lookup]
  split_ifs
  · exact h
  · exact ⟨h.holds, h.pages, h.top⟩

lemma Owns.fetch (h : Owns s bs) (pageNumber frameNumber : ℤ) :
    ((PagerSystem.fetch backingStore pageNumber frameNumber s.view).1 = none ∧
      ∀ f, fetch backingStore pageNumber frameNumber s = some f → f.2.2.memory.read f.1 = none) ∨
    ∃ f cs, fetch backingStore pageNumber frameNumber s = some f ∧ Owns f.2.2 cs ∧
      PagerSystem.fetch backingStore pageNumber frameNumber s.view =
        (f.2.2.memory.read f.1, f.2.1, f.2.2.view) := by
  by_cases hfound : frameNumber ≠ -1
  · right
    refine ⟨_, bs, if_pos hfound, h, ?_⟩
    rw [PagerSystem.fetch, if_pos hfound]
    simp only [Machine.view, Table.contents_map, List.getElem?_map, Prod.mk.injEq, and_true]
    cases s.pageTable.contents[frameNumber.toNat]? <;> rfl
  · cases hread : PagerSystem.readPage backingStore pageNumber with
    | none =>
      left
      constructor
      · rw [PagerSystem.fetch, if_neg hfound]
        exact hread
      · intro f hf
        obtain ⟨m, hm⟩ := readPage_none (m := s.memory) hread
        rw [PagerMemory.fetch, if_neg hfound, hm, Option.bind_eq_bind, Option.bind_some] at hf
        obtain ⟨⟨pageTable, frame, m'⟩, -, hf⟩ := Option.bind_eq_some_iff.mp hf
        obtain rfl := Option.some.inj hf
        rfl
    | some page =>
      right
      obtain ⟨m, hm, hholds, htop, hcontent, hrest⟩ := readPage_some h.holds hread
      obtain ⟨m', cs, hupdate, h', htop', hpages, hnew, hview⟩ :=
        h.updatePageTable pageNumber hholds hrest hcontent
      refine ⟨(some s.memory.top, s.pageTable.target, { s with
        memory := m'
        pageTable := s.pageTable.insert ⟨some s.memory.top, pageNumber⟩
        pageFaults := s.pageFaults + 1 }), cs, ?_, ⟨h', hpages, ?_⟩, ?_⟩
      · rw [PagerMemory.fetch, if_neg hfound, hm]
        simp [hupdate]
      · rw [htop', htop, h.top]
      · rw [PagerSystem.fetch, if_neg hfound, hread]
        simp only [PagerSystem.updatePageTable, Machine.view, Memory.read, Option.bind_some, hnew,
          hview, Table.target_map]

/-- The step behind the fetch, where the pointer leads to a page. -/
def finish (address : BitVec 32) (f : Option ℕ × ℤ × Machine) (page : Page) : Option Machine :=
  (page (getPageOffSet address).toNat).bind fun value =>
    some { f.2.2 with
      out := f.2.2.out ++ [⟨address, f.2.1, value⟩]
      tlb := updateTLB f.2.2.tlb (getPageNumber address) f.2.1 }

lemma translateAddress_eq (s : Machine) (address : BitVec 32) :
    translateAddress backingStore s address =
      (fetch backingStore (getPageNumber address) (lookup (getPageNumber address) s).1
        (lookup (getPageNumber address) s).2).bind fun f =>
          (f.2.2.memory.read f.1).bind (finish address f) := rfl

theorem Owns.translateAddress (h : Owns s bs) (address : BitVec 32) :
    PagerSystem.translateAddress backingStore s.view address =
        (translateAddress backingStore s address).map Machine.view ∧
      ∀ s', translateAddress backingStore s address = some s' → ∃ cs, Owns s' cs := by
  rw [PagerSystem.translateAddress, translateAddress_eq, view_lookup]
  simp only []
  rcases (h.lookup (getPageNumber address)).fetch backingStore
      (getPageNumber address) (PagerMemory.lookup (getPageNumber address) s).1 with
    ⟨hnone, hread⟩ | ⟨f, cs, hf, hcs, hview⟩
  · have hstuck : (PagerMemory.fetch backingStore (getPageNumber address)
        (PagerMemory.lookup (getPageNumber address) s).1
        (PagerMemory.lookup (getPageNumber address) s).2).bind (fun f =>
          (f.2.2.memory.read f.1).bind (finish address f)) = none := by
      rw [Option.bind_eq_none_iff]
      intro f hf
      rw [hread f hf, Option.bind_none]
    rw [hstuck]
    refine ⟨?_, fun _ hs => by cases hs⟩
    rw [hnone]
    rfl
  · rw [hf, hview, Option.bind_some]
    cases f.2.2.memory.read f.1 with
    | none => exact ⟨rfl, fun _ hs => by cases hs⟩
    | some page =>
      rw [Option.bind_some, finish]
      cases hv : page (getPageOffSet address).toNat with
      | none =>
        refine ⟨?_, fun _ hs => by cases hs⟩
        simp [hv]
      | some value =>
        constructor
        · simp [hv, Machine.view]
        · rintro s' hs
          obtain rfl := Option.some.inj hs
          exact ⟨cs, hcs.holds, hcs.pages, hcs.top⟩

lemma owns_start : Owns start [] := ⟨Memory.holds_empty, rfl, rfl⟩

lemma view_foldlM (h : Owns s bs) (addresses : List (BitVec 32)) :
    addresses.foldlM (PagerSystem.translateAddress backingStore) s.view =
        (addresses.foldlM (translateAddress backingStore) s).map Machine.view ∧
      ∀ s', addresses.foldlM (translateAddress backingStore) s = some s' → ∃ cs, Owns s' cs := by
  induction addresses generalizing s bs with
  | nil =>
    refine ⟨rfl, fun s' hs => ?_⟩
    obtain rfl : s = s' := Option.some.inj hs
    exact ⟨bs, h⟩
  | cons address addresses ih =>
    obtain ⟨hview, howns⟩ := h.translateAddress backingStore address
    rw [List.foldlM_cons, List.foldlM_cons, hview]
    cases hs : translateAddress backingStore s address with
    | none => exact ⟨rfl, fun _ hs' => by cases hs'⟩
    | some t =>
      obtain ⟨cs, hcs⟩ := howns t hs
      exact ih hcs

lemma Owns.freePageTable (h : Owns s bs) :
    ∃ m, freePageTable s = some m ∧ ∀ b, m.content b = none := by
  obtain ⟨m, hm, hholds⟩ := h.holds.freeAll
  refine ⟨m, ?_, fun b => ?_⟩
  · rw [PagerMemory.freePageTable, h.pages, hm]
  · have hb := hholds.allocated b
    simpa using hb

/-- For every backing store and list of addresses the program over pointers does what the one over
pages does. It holds at most `PAGECOUNT` buffers at a time, one was allocated for each page fault,
and `FreePageTable` frees all that are left. -/
theorem run_frees (backingStore : BackingStore) (addresses : List (BitVec 32)) :
    PagerSystem.run backingStore addresses = (run backingStore addresses).map Machine.view ∧
      ∀ s, run backingStore addresses = some s → ∃ bs m, Owns s bs ∧ bs.length ≤ PAGECOUNT ∧
        freePageTable s = some m ∧ ∀ b, m.content b = none := by
  obtain ⟨hview, howns⟩ := view_foldlM backingStore owns_start addresses
  refine ⟨hview, fun s hs => ?_⟩
  obtain ⟨bs, h⟩ := howns s hs
  obtain ⟨m, hm, hfreed⟩ := h.freePageTable
  exact ⟨bs, m, h, h.length ▸ s.pageTable.bounded, hm, hfreed⟩

end Runs

end Eece315.PagerMemory
