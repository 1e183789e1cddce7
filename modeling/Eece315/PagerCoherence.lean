import Eece315.PagerHistory
import Eece315.StepRuns

/-! When the translations are right. The page table and the TLB always name frames
consistently; a translation goes wrong exactly when its page is still in the TLB but no longer
in the page table. -/
namespace Eece315.PagerCoherence
open AgedTable PagerSystem PagerHistory StepRuns

/-- Translating `address` in state `s` uses a frame that then holds the page of the address, and
prints the byte of the backing store at the address. -/
def RightAt (backingStore : BackingStore) (s : State) (address : BitVec 32) : Prop :=
  ∃ s' line e, translateAddress backingStore s address = some s' ∧ s'.out = s.out ++ [line] ∧
    line.address = address ∧ 0 ≤ line.frameNumber ∧
    s'.pageTable.contents[line.frameNumber.toNat]? = some e ∧
    e.pageNumber = getPageNumber address ∧ line.value = backingStore.byte address.toNat

/-- A page that the TLB knows has not been evicted from the page table. -/
def StillMapped (s : State) (pageNumber : ℤ) : Prop :=
  checkTLB s.tlb pageNumber ≠ -1 → findPageIndex s.pageTable pageNumber ≠ -1

instance (s : State) (pageNumber : ℤ) : Decidable (StillMapped s pageNumber) := by
  unfold StillMapped
  infer_instance

lemma getPageOffSet_eq (address : BitVec 32) :
    getPageOffSet address = (address.toNat % PAGESIZE : ℕ) := by
  have hand : (address &&& 0xFF).toNat = address.toNat % PAGESIZE := by
    rw [BitVec.toNat_and]
    exact Nat.and_two_pow_sub_one_eq_mod address.toNat 8
  have hlt : address.toNat % PAGESIZE < 256 := Nat.mod_lt _ (by decide)
  rw [getPageOffSet, BitVec.toInt_eq_toNat_of_lt (by omega), hand]

lemma getPageNumber_range (address : BitVec 32) :
    0 ≤ getPageNumber address ∧ getPageNumber address < PAGESIZE := by
  have hand : (address.sdiv 0x100 &&& 0xFF).toNat = (address.sdiv 0x100).toNat % PAGESIZE := by
    rw [BitVec.toNat_and]
    exact Nat.and_two_pow_sub_one_eq_mod _ 8
  have hlt : (address.sdiv 0x100).toNat % PAGESIZE < 256 := Nat.mod_lt _ (by decide)
  rw [getPageNumber, BitVec.toInt_eq_toNat_of_lt (by omega), hand]
  exact ⟨Int.natCast_nonneg _, by exact_mod_cast hlt⟩

lemma getPageNumber_eq {address : BitVec 32} (h : address.toNat < PAGESIZE * PAGESIZE) :
    getPageNumber address = (address.toNat / PAGESIZE : ℕ) := by
  have hlt : address.toNat < 65536 := h
  have hdiv : (address.sdiv 0x100).toNat = address.toNat / PAGESIZE := by
    have hmsb : address.msb = false := BitVec.msb_eq_false_iff_two_mul_lt.mpr (by omega)
    have hmsb' : (0x100 : BitVec 32).msb = false := by decide
    rw [BitVec.sdiv_eq, hmsb, hmsb']
    rfl
  have hand : (address.sdiv 0x100 &&& 0xFF).toNat = address.toNat / PAGESIZE := by
    rw [BitVec.toNat_and, hdiv]
    refine (Nat.and_two_pow_sub_one_eq_mod _ 8).trans (Nat.mod_eq_of_lt ?_)
    exact Nat.div_lt_of_lt_mul h
  have hsmall : address.toNat / PAGESIZE < 256 := Nat.div_lt_of_lt_mul h
  rw [getPageNumber, BitVec.toInt_eq_toNat_of_lt (by omega), hand]

section Lookup

variable {pageTable : PageTable} {pageNumber : ℤ}

lemma findPageIndex_eq_natCast {i : ℕ} (h : findPageIndex pageTable pageNumber = i) :
    ∃ e, pageTable.contents[i]? = some e ∧ e.pageNumber = pageNumber := by
  unfold findPageIndex at h
  split at h
  · rename_i j hj
    obtain rfl : j = i := by exact_mod_cast h
    obtain ⟨hlt, hp, -⟩ := List.findIdx?_eq_some_iff_getElem.mp hj
    exact ⟨_, List.getElem?_eq_getElem hlt, by simpa using hp⟩
  · omega

lemma findPageIndex_nonneg (h : findPageIndex pageTable pageNumber ≠ -1) :
    ∃ i : ℕ, findPageIndex pageTable pageNumber = i := by
  unfold findPageIndex at h ⊢
  split
  · exact ⟨_, rfl⟩
  · simp_all

lemma findPageIndex_eq_neg_one :
    findPageIndex pageTable pageNumber = -1 ↔
      ∀ e ∈ pageTable.contents, e.pageNumber ≠ pageNumber := by
  unfold findPageIndex
  split
  · rename_i i hi
    obtain ⟨hlt, hp, -⟩ := List.findIdx?_eq_some_iff_getElem.mp hi
    refine ⟨fun h => by omega, fun h => absurd (by simpa using hp) (h _ (List.getElem_mem hlt))⟩
  · rename_i hnone
    rw [List.findIdx?_eq_none_iff] at hnone
    simpa using hnone

lemma checkTLB_cases (tlb : TLB) (pageNumber : ℤ) :
    (checkTLB tlb pageNumber = -1 ∧ ∀ e ∈ tlb.contents, e.pageNumber ≠ pageNumber) ∨
      ∃ e ∈ tlb.contents, e.pageNumber = pageNumber ∧
        checkTLB tlb pageNumber = e.frameNumber := by
  unfold checkTLB
  split
  · rename_i e he
    exact .inr ⟨e, List.mem_of_find?_eq_some he, by simpa using List.find?_some he, rfl⟩
  · rename_i hnone
    rw [List.find?_eq_none] at hnone
    exact .inl ⟨rfl, by simpa using hnone⟩

end Lookup

/-- Pages are in the frames the tables name for them, as long as the page table knows them. -/
structure Coherent (backingStore : BackingStore) (s : State) : Prop where
  page : ∀ e ∈ s.pageTable.contents, e.page = readPage backingStore e.pageNumber ∧
    0 ≤ e.pageNumber ∧ e.pageNumber < PAGESIZE
  distinct : ∀ (i j : ℕ) (e e' : Frame), s.pageTable.contents[i]? = some e →
    s.pageTable.contents[j]? = some e' → e.pageNumber = e'.pageNumber → i = j
  frame : ∀ t ∈ s.tlb.contents, ∃ (i : ℕ) (e : Frame), t.frameNumber = i ∧
    s.pageTable.contents[i]? = some e ∧
      ∀ (j : ℕ) (e' : Frame), s.pageTable.contents[j]? = some e' →
        e'.pageNumber = t.pageNumber → j = i

lemma coherent_start (backingStore : BackingStore) : Coherent backingStore start :=
  ⟨by simp [start], by simp [start], by simp [start]⟩

section Step

variable {backingStore : BackingStore} {s : State}

lemma Coherent.updateTLB (h : Coherent backingStore s) {pageNumber : ℤ} {i : ℕ} {e : Frame}
    (hi : s.pageTable.contents[i]? = some e)
    (hp : ∀ (j : ℕ) (e' : Frame), s.pageTable.contents[j]? = some e' →
      e'.pageNumber = pageNumber → j = i) :
    Coherent backingStore { s with tlb := updateTLB s.tlb pageNumber i } := by
  refine ⟨h.page, h.distinct, fun t ht => ?_⟩
  rcases Table.mem_insert (by decide : 0 < TLBSIZE) ht with rfl | ht
  · exact ⟨i, e, rfl, hi, hp⟩
  · exact h.frame t ht

lemma Coherent.updatePageTable (h : Coherent backingStore s) {pageNumber : ℤ}
    (hrange : 0 ≤ pageNumber ∧ pageNumber < PAGESIZE)
    (htlb : ∀ t ∈ s.tlb.contents, t.pageNumber ≠ pageNumber)
    (hpage : ∀ e ∈ s.pageTable.contents, e.pageNumber ≠ pageNumber) :
    Coherent backingStore { s with pageTable :=
      (updatePageTable s.pageTable (readPage backingStore pageNumber) pageNumber).1 } := by
  have hget (i : ℕ) := s.pageTable.getElem?_insert (by decide : 0 < PAGECOUNT)
    ⟨readPage backingStore pageNumber, pageNumber⟩ i
  refine ⟨fun e he => ?_, fun i j e e' hi hj hee => ?_, fun t ht => ?_⟩
  · rcases Table.mem_insert (by decide : 0 < PAGECOUNT) he with rfl | he
    · exact ⟨rfl, hrange⟩
    · exact h.page e he
  · change (s.pageTable.insert _).contents[i]? = some e at hi
    change (s.pageTable.insert _).contents[j]? = some e' at hj
    rw [hget] at hi hj
    split_ifs at hi hj with hit hjt hjt
    · rw [hit, hjt]
    · obtain rfl := Option.some.inj hi
      exact absurd hee.symm (hpage e' (List.mem_of_getElem? hj))
    · obtain rfl := Option.some.inj hj
      exact absurd hee (hpage e (List.mem_of_getElem? hi))
    · exact h.distinct i j e e' hi hj hee
  · obtain ⟨i, e, hti, hi, hu⟩ := h.frame t ht
    have hnew : ∀ (j : ℕ) (e' : Frame), (s.pageTable.insert
        ⟨readPage backingStore pageNumber, pageNumber⟩).contents[j]? = some e' →
          e'.pageNumber = t.pageNumber → j = i := by
      intro j e' hj he'
      rw [hget] at hj
      split_ifs at hj with hjt
      · obtain rfl := Option.some.inj hj
        exact absurd he'.symm (htlb t ht)
      · exact hu j e' hj he'
    by_cases hit : i = s.pageTable.target
    · exact ⟨i, ⟨readPage backingStore pageNumber, pageNumber⟩, hti,
        (hget i).trans (if_pos hit), hnew⟩
    · exact ⟨i, e, hti, (hget i).trans ((if_neg hit).trans hi), hnew⟩

lemma readPage_eq {pageNumber : ℤ} (hlen : backingStore.length = PAGESIZE * PAGESIZE)
    (hrange : 0 ≤ pageNumber ∧ pageNumber < PAGESIZE) :
    ∃ page, readPage backingStore pageNumber = some page ∧
      ∀ i < PAGESIZE, page i = some (backingStore.byte (pageNumber.toNat * PAGESIZE + i)) := by
  obtain ⟨p, rfl⟩ := Int.eq_ofNat_of_zero_le hrange.1
  have hp : p < 256 := by exact_mod_cast hrange.2
  have hread : readPage backingStore p = some fun i =>
      if p * PAGESIZE + i < backingStore.length then some (backingStore.byte (p * PAGESIZE + i))
      else none := by
    rw [readPage, if_neg (by simp only [PAGESIZE] at hrange ⊢; omega),
      if_neg (by simp only [hlen, PAGESIZE, Int.toNat_natCast]; omega)]
    rfl
  refine ⟨_, hread, fun i hi => if_pos ?_⟩
  simp only [hlen, PAGESIZE] at hi ⊢
  omega

lemma translate_of_fetch (s s₁ : State) (address : BitVec 32) (i : ℕ) (e : Frame)
    (hlen : backingStore.length = PAGESIZE * PAGESIZE)
    (hf : fetch backingStore (getPageNumber address) (lookup (getPageNumber address) s).1
      (lookup (getPageNumber address) s).2 = (e.page, (i : ℤ), s₁))
    (hout : s₁.out = s.out) (h : Coherent backingStore s₁)
    (hi : s₁.pageTable.contents[i]? = some e)
    (hu : ∀ (j : ℕ) (e' : Frame), s₁.pageTable.contents[j]? = some e' →
      e'.pageNumber = getPageNumber address → j = i) :
    ∃ s', translateAddress backingStore s address = some s' ∧ Coherent backingStore s' ∧
      (address.toNat < PAGESIZE * PAGESIZE →
        (RightAt backingStore s address ↔ e.pageNumber = getPageNumber address)) := by
  obtain ⟨hpage, hrange⟩ := h.page e (List.mem_of_getElem? hi)
  obtain ⟨page, hread, hbyte⟩ := readPage_eq hlen hrange
  have hoff : (getPageOffSet address).toNat = address.toNat % PAGESIZE := by
    rw [getPageOffSet_eq, Int.toNat_natCast]
  have hlt : (getPageOffSet address).toNat < PAGESIZE := hoff ▸ Nat.mod_lt _ (by decide)
  set value := backingStore.byte (e.pageNumber.toNat * PAGESIZE + (getPageOffSet address).toNat)
  have ht : translateAddress backingStore s address = some { s₁ with
      out := s₁.out ++ [⟨address, i, value⟩]
      tlb := updateTLB s₁.tlb (getPageNumber address) i } := by
    simp only [translateAddress, hf, hpage, hread, Option.bind_eq_bind, Option.bind_some,
      hbyte _ hlt, Option.pure_def]
    rfl
  have hcoh := h.updateTLB hi hu
  refine ⟨_, ht, ⟨hcoh.page, hcoh.distinct, hcoh.frame⟩, fun ha => ?_⟩
  constructor
  · rintro ⟨s', line, e', hs', hline, -, -, he', hp, -⟩
    obtain rfl := Option.some.inj (ht.symm.trans hs')
    rw [hout] at hline
    obtain rfl : ⟨address, i, value⟩ = line := by simpa using hline
    obtain rfl : e = e' := by simpa [hi] using he'
    exact hp
  · intro hp
    refine ⟨_, ⟨address, i, value⟩, e, ht, by rw [hout], rfl, Int.natCast_nonneg i,
      by simpa using hi, hp, ?_⟩
    have hsplit : e.pageNumber.toNat * PAGESIZE + (getPageOffSet address).toNat =
        address.toNat := by
      rw [hp, getPageNumber_eq ha, Int.toNat_natCast, hoff, Nat.div_add_mod']
    exact congrArg backingStore.byte hsplit

lemma Coherent.fetch_cases (h : Coherent backingStore s) (pageNumber : ℤ) :
    (∃ (i : ℕ) (e : Frame) (hits : ℕ), (lookup pageNumber s).1 = i ∧
      fetch backingStore pageNumber (lookup pageNumber s).1 (lookup pageNumber s).2 =
        (e.page, (i : ℤ), { s with TLBHits := hits }) ∧
      s.pageTable.contents[i]? = some e ∧
      (∀ (j : ℕ) (e' : Frame), s.pageTable.contents[j]? = some e' →
        e'.pageNumber = pageNumber → j = i) ∧
      (e.pageNumber = pageNumber ↔ StillMapped s pageNumber)) ∨
    ((lookup pageNumber s).1 = -1 ∧ checkTLB s.tlb pageNumber = -1 ∧
      fetch backingStore pageNumber (lookup pageNumber s).1 (lookup pageNumber s).2 =
        (readPage backingStore pageNumber, (s.pageTable.target : ℤ), { s with
          pageTable := s.pageTable.insert ⟨readPage backingStore pageNumber, pageNumber⟩
          pageFaults := s.pageFaults + 1 }) ∧
      (∀ t ∈ s.tlb.contents, t.pageNumber ≠ pageNumber) ∧
      ∀ e ∈ s.pageTable.contents, e.pageNumber ≠ pageNumber) := by
  rcases checkTLB_cases s.tlb pageNumber with ⟨hmiss, htlb⟩ | ⟨t, ht, htp, hhit⟩
  · by_cases hfind : findPageIndex s.pageTable pageNumber = -1
    · right
      refine ⟨?_, hmiss, ?_, htlb, findPageIndex_eq_neg_one.mp hfind⟩
      · simp [lookup, hmiss, hfind]
      · simp [lookup, fetch, hmiss, hfind, PagerSystem.updatePageTable]
    · left
      obtain ⟨i, hi⟩ := findPageIndex_nonneg hfind
      obtain ⟨e, he, hep⟩ := findPageIndex_eq_natCast hi
      refine ⟨i, e, s.TLBHits, by simp [lookup, hmiss, hi], ?_, he, ?_, ?_⟩
      · simp [lookup, fetch, hmiss, hi, he]
      · exact fun j e' hj he' => h.distinct j i e' e hj he (he'.trans hep.symm)
      · exact iff_of_true hep fun hne => absurd hmiss hne
  · -- the TLB names the frame, whatever it holds now
    left
    obtain ⟨i, e, hti, hi, hu⟩ := h.frame t ht
    rw [htp] at hu
    rw [hti] at hhit
    have hne : (i : ℤ) ≠ -1 := by omega
    refine ⟨i, e, s.TLBHits + 1, by simp [lookup, hhit, hne], ?_, hi, hu, ?_⟩
    · simp [lookup, fetch, hhit, hne, hi]
    · constructor
      · intro hep _ hnone
        exact findPageIndex_eq_neg_one.mp hnone e (List.mem_of_getElem? hi) hep
      · intro hstill
        obtain ⟨j, hj⟩ := findPageIndex_nonneg (hstill (by rw [hhit]; exact hne))
        obtain ⟨e', he', hep'⟩ := findPageIndex_eq_natCast hj
        obtain rfl : j = i := hu j e' he' hep'
        obtain rfl : e' = e := Option.some.inj (he'.symm.trans hi)
        exact hep'

/-- One address: the step succeeds and keeps the tables coherent, and is right exactly when the
TLB does not outlive the page table. -/
theorem Coherent.translateAddress (h : Coherent backingStore s) (address : BitVec 32)
    (hlen : backingStore.length = PAGESIZE * PAGESIZE) :
    ∃ s', translateAddress backingStore s address = some s' ∧ Coherent backingStore s' ∧
      (address.toNat < PAGESIZE * PAGESIZE →
        (RightAt backingStore s address ↔ StillMapped s (getPageNumber address))) := by
  set p := getPageNumber address with hp
  rcases h.fetch_cases p with ⟨i, e, hits, -, hf, hi, hu, hright⟩ | ⟨-, hmiss, hf, htlb, hpage⟩
  · obtain ⟨s', hs', hcoh', hiff⟩ := translate_of_fetch s { s with TLBHits := hits } address i e
      hlen hf rfl ⟨h.page, h.distinct, h.frame⟩ hi hu
    exact ⟨s', hs', hcoh', fun ha => (hiff ha).trans hright⟩
  · have hcoh := h.updatePageTable (getPageNumber_range address) htlb hpage
    have hget := (s.pageTable.getElem?_insert (by decide : 0 < PAGECOUNT)
      ⟨readPage backingStore p, p⟩ s.pageTable.target).trans (if_pos rfl)
    obtain ⟨s', hs', hcoh', hiff⟩ := translate_of_fetch s
      { s with
        pageTable := s.pageTable.insert ⟨readPage backingStore p, p⟩
        pageFaults := s.pageFaults + 1 } address _ ⟨readPage backingStore p, p⟩ hlen hf rfl
      ⟨hcoh.page, hcoh.distinct, hcoh.frame⟩ hget
      fun j e' hj he' => hcoh.distinct j _ e' _ hj hget he'
    exact ⟨s', hs', hcoh', fun ha => iff_of_true ((hiff ha).mpr rfl)
      fun hne => absurd hmiss hne⟩

end Step

section Runs

variable {backingStore : BackingStore} {addresses : List (BitVec 32)}

lemma run_append (before after : List (BitVec 32)) :
    run backingStore (before ++ after) =
      (run backingStore before).bind fun s => after.foldlM (translateAddress backingStore) s :=
  List.foldlM_append

theorem coherent_run (hlen : backingStore.length = PAGESIZE * PAGESIZE)
    (addresses : List (BitVec 32)) :
    ∃ s, run backingStore addresses = some s ∧ Coherent backingStore s := by
  induction addresses using List.reverseRecOn with
  | nil => exact ⟨start, rfl, coherent_start _⟩
  | append_singleton addresses a ih =>
    obtain ⟨s, hs, hcoh⟩ := ih
    obtain ⟨s', hs', hcoh', -⟩ := hcoh.translateAddress a hlen
    exact ⟨s', by simp [run_append, hs, hs'], hcoh'⟩

/-- Every address is translated to a frame that holds its page, and every value printed is the
byte at its address, exactly when no page is used through the TLB after its eviction from the
page table. -/
theorem right_iff_stillMapped (hlen : backingStore.length = PAGESIZE * PAGESIZE)
    (ha : ∀ a ∈ addresses, a.toNat < PAGESIZE * PAGESIZE) :
    (∀ before a after, addresses = before ++ a :: after →
      ∃ s, run backingStore before = some s ∧ RightAt backingStore s a) ↔
        ∀ before a after, addresses = before ++ a :: after →
          ∀ s, run backingStore before = some s → StillMapped s (getPageNumber a) := by
  have hstep {before after : List (BitVec 32)} {a : BitVec 32}
      (he : addresses = before ++ a :: after) : ∃ s, run backingStore before = some s ∧
        (RightAt backingStore s a ↔ StillMapped s (getPageNumber a)) := by
    subst he
    obtain ⟨s, hs, hcoh⟩ := coherent_run hlen before
    obtain ⟨-, -, -, hiff⟩ := hcoh.translateAddress a hlen
    exact ⟨s, hs, hiff (ha a (by simp))⟩
  constructor
  · intro h before a after he s hs
    obtain ⟨s₁, hs₁, hiff⟩ := hstep he
    obtain ⟨s₂, hs₂, hright⟩ := h before a after he
    obtain rfl : s = s₁ := Option.some.inj (hs.symm.trans hs₁)
    obtain rfl : s = s₂ := Option.some.inj (hs.symm.trans hs₂)
    exact hiff.mp hright
  · intro h before a after he
    obtain ⟨s, hs, hiff⟩ := hstep he
    exact ⟨s, hs, hiff.mpr (h before a after he s hs)⟩

/-- A backing store whose pages differ. -/
def unlikePages : BackingStore := ⟨PAGESIZE * PAGESIZE, fun i => BitVec.ofNat 8 (i / PAGESIZE + i)⟩

/-- The third address is found in the TLB. -/
theorem right_iff_stillMapped_demo : ∃ s, run unlikePages [0, 300] = some s ∧
    checkTLB s.tlb (getPageNumber 1) = 0 ∧ RightAt unlikePages s 1 := by
  have hmapped : EveryStep (translateAddress unlikePages) start
      (fun s a => StillMapped s (getPageNumber a)) [0, 300, 1] :=
    everyStep_of_forall (by decide +kernel)
  obtain ⟨s, hs, hright⟩ := (right_iff_stillMapped rfl (by simp [PAGESIZE])).mpr hmapped
    [0, 300] 1 [] rfl
  have hrun : (run unlikePages [0, 300]).map (fun s => checkTLB s.tlb (getPageNumber 1)) =
      some 0 := by decide +kernel
  rw [hs] at hrun
  exact ⟨s, hs, Option.some.inj hrun, hright⟩

/-- The accesses of all pages up to the first that has to replace one, with page 0 kept in the
TLB by an access in between every 14 others. -/
def hotPage : List (BitVec 32) :=
  (List.range 129).flatMap fun k =>
    if k % 14 = 13 then [BitVec.ofNat 32 (k * 256), 0] else [BitVec.ofNat 32 (k * 256)]

lemma hotPage_lt : ∀ a ∈ hotPage ++ [0], a.toNat < PAGESIZE * PAGESIZE := by
  intro a ha
  simp only [hotPage, List.mem_append, List.mem_flatMap, List.mem_range,
    List.mem_singleton] at ha
  have hzero : (0 : BitVec 32).toNat < PAGESIZE * PAGESIZE := by decide
  rcases ha with ⟨k, hk, ha⟩ | rfl
  · have hpage : (BitVec.ofNat 32 (k * 256)).toNat < PAGESIZE * PAGESIZE := by
      rw [BitVec.toNat_ofNat, PAGESIZE]
      omega
    split_ifs at ha <;> simp only [List.mem_cons, List.not_mem_nil, or_false] at ha
    · rcases ha with rfl | rfl
      · exact hpage
      · exact hzero
    · exact ha ▸ hpage
  · exact hzero

/-- Page 0 is the first to be evicted from the page table, and the TLB still names its frame. -/
theorem right_fails : ¬ ∀ (backingStore : BackingStore) (addresses : List (BitVec 32)),
    backingStore.length = PAGESIZE * PAGESIZE →
      (∀ a ∈ addresses, a.toNat < PAGESIZE * PAGESIZE) →
        ∀ before a after, addresses = before ++ a :: after →
          ∃ s, run backingStore before = some s ∧ RightAt backingStore s a := by
  intro h
  have hwindows : (History.run hotPage).recent 0 ≠ none ∧
      (History.run hotPage).loaded 0 = none := by
    simp only [Ne, ← Option.isNone_iff_eq_none]
    decide +kernel
  obtain ⟨s, hs, hright⟩ := h unlikePages (hotPage ++ [0]) rfl hotPage_lt hotPage 0 [] rfl
  obtain ⟨s', hs', hcoh⟩ := coherent_run
    (show unlikePages.length = PAGESIZE * PAGESIZE from rfl) hotPage
  obtain rfl : s = s' := Option.some.inj (hs.symm.trans hs')
  obtain ⟨-, -, -, hiff⟩ := hcoh.translateAddress 0 rfl
  have hpage : getPageNumber 0 = 0 := by decide
  have hr := refines_run hs
  have hmapped := (hiff (hotPage_lt 0 (by simp))).mp hright
  rw [hpage, StillMapped, Ne, Ne, hr.checkTLB_eq_neg_one, hr.findPageIndex_eq_neg_one] at hmapped
  exact hmapped hwindows.1 hwindows.2

/-- The last line has the first byte of page 128. -/
example : (run unlikePages (hotPage ++ [0])).map (fun s => s.out.getLast?) =
    some (some ⟨0, 0, 128⟩) := by decide +kernel

end Runs

end Eece315.PagerCoherence
