import Eece315.PagerCoherence

/-! The pager against a machine that forgets nothing. Every access and every page loaded is
remembered with the frame it used; the TLB is a window over the last accesses and the page table
a window over the last loads, and frames are given out in turn. -/
namespace Eece315.PagerWindows
open AgedTable PagerSystem PagerHistory PagerCoherence

structure Windows where
  accesses : List Translation
  loads : List Translation
  TLBHits : ℕ

namespace Windows

def start : Windows := ⟨[], [], 0⟩

/-- The most recent access to a page among the previous `TLBSIZE` steps. -/
def hit (w : Windows) (pageNumber : ℤ) : Option Translation :=
  (w.accesses.take TLBSIZE).find? fun t => t.pageNumber = pageNumber

/-- The load of a page among the last `PAGECOUNT` loads. -/
def mapped (w : Windows) (pageNumber : ℤ) : Option Translation :=
  (w.loads.take PAGECOUNT).find? fun t => t.pageNumber = pageNumber

def frame (w : Windows) (pageNumber : ℤ) : ℤ :=
  match w.hit pageNumber, w.mapped pageNumber with
  | some access, _ => access.frameNumber
  | none, some load => load.frameNumber
  | none, none => (w.loads.length % PAGECOUNT : ℕ)

/-- Neither window knows the page. -/
def Faults (w : Windows) (pageNumber : ℤ) : Prop :=
  w.hit pageNumber = none ∧ w.mapped pageNumber = none

instance (w : Windows) (pageNumber : ℤ) : Decidable (w.Faults pageNumber) :=
  inferInstanceAs (Decidable (_ ∧ _))

def step (w : Windows) (pageNumber : ℤ) : Windows :=
  let access : Translation := ⟨pageNumber, w.frame pageNumber⟩
  { accesses := access :: w.accesses
    loads := if w.Faults pageNumber then access :: w.loads else w.loads
    TLBHits := if w.hit pageNumber = none then w.TLBHits else w.TLBHits + 1 }

def run (pageNumbers : List ℤ) : Windows := pageNumbers.foldl step start

def history (w : Windows) : History :=
  ⟨w.accesses, w.loads.map Translation.pageNumber, w.TLBHits⟩

/-- Loads took the frames in turn. -/
def InTurn (w : Windows) : Prop :=
  ∀ (d : ℕ) t, w.loads[d]? = some t → t.frameNumber = depth w.loads.length PAGECOUNT d

lemma inTurn_start : start.InTurn := by
  intro d t ht
  cases ht

variable {w : Windows} {pageNumber : ℤ}

lemma history_recent (w : Windows) (pageNumber : ℤ) :
    w.history.recent pageNumber = w.hit pageNumber := rfl

lemma InTurn.mapped_eq (h : w.InTurn) (pageNumber : ℤ) :
    (w.mapped pageNumber).map Translation.frameNumber =
      (w.history.loaded pageNumber).map fun d => (depth w.loads.length PAGECOUNT d : ℤ) := by
  have hfind : w.mapped pageNumber =
      (w.history.loaded pageNumber).bind fun d => (w.loads.take PAGECOUNT)[d]? := by
    rw [mapped, List.find?_eq_bind_findIdx?_getElem?]
    rw [History.loaded, history, ← List.map_take, List.findIdx?_map]
    rfl
  cases hd : w.history.loaded pageNumber with
  | none => rw [hfind, hd]; rfl
  | some d =>
    obtain ⟨hlt, -, -⟩ := List.findIdx?_eq_some_iff_getElem.mp hd
    rw [history, ← List.map_take, List.length_map, List.length_take] at hlt
    have hd' : d < w.loads.length := by omega
    have hload : w.loads[d]? = some w.loads[d] := List.getElem?_eq_getElem hd'
    rw [hfind, hd, Option.bind_some, List.getElem?_take_of_lt (by omega), hload, Option.map_some,
      Option.map_some, h d _ hload]

lemma history_loads_length (w : Windows) : w.history.loads.length = w.loads.length :=
  List.length_map _

lemma InTurn.frame_eq (h : w.InTurn) (pageNumber : ℤ) :
    w.history.frame pageNumber = w.frame pageNumber := by
  have hmapped := h.mapped_eq pageNumber
  rw [History.frame, history_recent, history_loads_length, frame]
  cases w.hit pageNumber with
  | some t => rfl
  | none =>
    cases hm : w.mapped pageNumber with
    | none =>
      rw [hm, Option.map_none, eq_comm, Option.map_eq_none_iff] at hmapped
      rw [hmapped]
    | some load =>
      rw [hm, Option.map_some, eq_comm, Option.map_eq_some_iff] at hmapped
      obtain ⟨d, hd, hframe⟩ := hmapped
      rw [hd]
      exact hframe

lemma InTurn.faults_iff (h : w.InTurn) (pageNumber : ℤ) :
    w.Faults pageNumber ↔
      w.history.recent pageNumber = none ∧ w.history.loaded pageNumber = none := by
  have hmapped := h.mapped_eq pageNumber
  rw [Faults, history_recent]
  apply and_congr_right
  intro _
  rw [← Option.map_eq_none_iff (f := Translation.frameNumber), hmapped, Option.map_eq_none_iff]

lemma InTurn.history_step (h : w.InTurn) (pageNumber : ℤ) :
    (w.step pageNumber).history = w.history.step pageNumber := by
  have hloads : (w.step pageNumber).history.loads = (w.history.step pageNumber).loads := by
    rw [History.step, ← if_congr (h.faults_iff pageNumber) rfl rfl]
    simp only [history, step]
    split_ifs <;> rfl
  have haccesses : (w.step pageNumber).accesses = (w.history.step pageNumber).accesses := by
    rw [History.step, h.frame_eq]
    rfl
  exact congr (congr (congrArg History.mk haccesses) hloads) rfl

lemma InTurn.step (h : w.InTurn) (pageNumber : ℤ) : (w.step pageNumber).InTurn := by
  intro d t ht
  by_cases hf : w.Faults pageNumber
  · simp only [Windows.step, if_pos hf] at ht ⊢
    rw [List.length_cons]
    cases d with
    | zero =>
      obtain rfl := Option.some.inj ht
      simp only [frame, hf.1, hf.2, depth, Nat.add_sub_cancel, Nat.sub_zero]
    | succ d =>
      have hold := h d t ht
      rw [hold, depth, depth, Nat.add_sub_cancel, Nat.sub_sub, Nat.add_comm 1 d]
  · simp only [Windows.step, if_neg hf] at ht ⊢
    exact h d t ht

end Windows

lemma history_run (addresses : List (BitVec 32)) :
    (Windows.run (addresses.map getPageNumber)).InTurn ∧
      (Windows.run (addresses.map getPageNumber)).history = History.run addresses := by
  induction addresses using List.reverseRecOn with
  | nil => exact ⟨Windows.inTurn_start, rfl⟩
  | append_singleton addresses a ih =>
    obtain ⟨hturn, hhist⟩ := ih
    have hrun : Windows.run ((addresses ++ [a]).map getPageNumber) =
        (Windows.run (addresses.map getPageNumber)).step (getPageNumber a) := by
      simp [Windows.run]
    rw [hrun]
    exact ⟨hturn.step _, by rw [hturn.history_step, hhist]; simp [History.run]⟩

section Runs

variable {backingStore : BackingStore}

lemma out_translateAddress {s s' : State} {address : BitVec 32}
    (h : translateAddress backingStore s address = some s') :
    ∃ line, s'.out = s.out ++ [line] ∧ line.address = address := by
  have hlookup (p : ℤ) : (lookup p s).2.out = s.out := by
    simp only [lookup]
    split_ifs <;> rfl
  have hfetch (p frameNumber : ℤ) (s : State) :
      (fetch backingStore p frameNumber s).2.2.out = s.out := by
    unfold fetch
    split_ifs <;> rfl
  simp only [translateAddress, Option.bind_eq_bind, Option.bind_eq_some_iff, Option.pure_def,
    Option.some.injEq] at h
  obtain ⟨page, -, value, -, rfl⟩ := h
  exact ⟨_, by rw [hfetch, hlookup], rfl⟩

lemma out_run {addresses : List (BitVec 32)} {s : State}
    (hs : run backingStore addresses = some s) :
    s.out.map Line.address = addresses ∧ s.out.map Line.frameNumber =
      (History.run addresses).accesses.reverse.map Translation.frameNumber := by
  induction addresses using List.reverseRecOn generalizing s with
  | nil =>
    obtain rfl : start = s := by simpa [run] using hs
    exact ⟨rfl, rfl⟩
  | append_singleton addresses a ih =>
    rw [run_append] at hs
    obtain ⟨s₀, hs₀, hstep⟩ := Option.bind_eq_some_iff.mp hs
    have ht : translateAddress backingStore s₀ a = some s := by simpa using hstep
    obtain ⟨haddr, hframes⟩ := ih hs₀
    obtain ⟨line, hline, rfl⟩ := out_translateAddress ht
    have hframe := ((refines_run hs₀).step ht).2
    have hrun : History.run (addresses ++ [line.address]) =
        (History.run addresses).step (getPageNumber line.address) := by simp [History.run]
    rw [hline, List.getLast?_concat, Option.map_some, Option.some.injEq] at hframe
    rw [hline, hrun]
    simp [haddr, hframes, History.step, hframe]

/-- The loop uses the frames that the windows give, and counts the hits and the faults that the
windows have. -/
theorem windows_run (hlen : backingStore.length = PAGESIZE * PAGESIZE)
    (addresses : List (BitVec 32)) :
    ∃ s, run backingStore addresses = some s ∧ s.out.map Line.address = addresses ∧
      s.out.map Line.frameNumber =
        (Windows.run (addresses.map getPageNumber)).accesses.reverse.map
          Translation.frameNumber ∧
      s.TLBHits = (Windows.run (addresses.map getPageNumber)).TLBHits ∧
      s.pageFaults = (Windows.run (addresses.map getPageNumber)).loads.length := by
  obtain ⟨s, hs, -⟩ := coherent_run hlen addresses
  obtain ⟨haddresses, hframes⟩ := out_run hs
  obtain ⟨-, hhist⟩ := history_run addresses
  have hr := refines_run hs
  refine ⟨s, hs, haddresses, ?_, ?_, ?_⟩
  · rw [hframes, ← hhist]
    rfl
  · rw [hr.hits, ← hhist]
    rfl
  · rw [hr.faults, ← hhist, Windows.history_loads_length]

theorem windows_run_demo : ∃ s, run ⟨65536, BitVec.ofNat 8⟩ [0, 300, 1] = some s ∧
    s.out.map Line.frameNumber = [0, 1, 0] ∧ s.TLBHits = 1 ∧ s.pageFaults = 2 := by
  have hlen : (⟨65536, BitVec.ofNat 8⟩ : BackingStore).length = PAGESIZE * PAGESIZE := rfl
  obtain ⟨s, hs, -, hframes, hhits, hfaults⟩ := windows_run hlen [0, 300, 1]
  exact ⟨s, hs, hframes, hhits, hfaults⟩

end Runs

end Eece315.PagerWindows
