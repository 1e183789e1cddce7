import Mathlib

/-! Singly linked chains in a heap of cells. A cell type `C` carries a link `next` and an
observed value `val`; a family of handles represents a family of lists when every handle starts
a null-terminated chain with those values and no two chains share a cell. -/
namespace Eece315.HeapChain

/-- Cells below `top` are allocated; the others have never been handed out. -/
structure Heap (C : Type*) where
  cell : ℕ → C
  top : ℕ

variable {C V ι κ : Type*}

namespace Heap

/-- A fresh cell: its address is the old `top`. -/
def alloc (h : Heap C) (c : C) : Heap C := ⟨Function.update h.cell h.top c, h.top + 1⟩

def write (h : Heap C) (a : ℕ) (c : C) : Heap C := ⟨Function.update h.cell a c, h.top⟩

@[simp] lemma alloc_top (h : Heap C) (c : C) : (h.alloc c).top = h.top + 1 := rfl
@[simp] lemma alloc_cell_top (h : Heap C) (c : C) : (h.alloc c).cell h.top = c := by
  simp [alloc]
lemma alloc_cell (h : Heap C) (c : C) {a : ℕ} (ha : a < h.top) :
    (h.alloc c).cell a = h.cell a := by
  simp [alloc, Function.update_of_ne ha.ne]
@[simp] lemma write_top (h : Heap C) (a : ℕ) (c : C) : (h.write a c).top = h.top := rfl
@[simp] lemma write_cell_self (h : Heap C) (a : ℕ) (c : C) : (h.write a c).cell a = c := by
  simp [write]
lemma write_cell (h : Heap C) {a b : ℕ} (c : C) (hb : b ≠ a) :
    (h.write a c).cell b = h.cell b := by
  simp [write, Function.update_of_ne hb]

end Heap

/-- Following `next` from `p` visits exactly the listed cells and then meets a null link. -/
def IsChain (next : C → Option ℕ) (h : Heap C) : Option ℕ → List ℕ → Prop
  | p, [] => p = none
  | p, a :: as => p = some a ∧ IsChain next h (next (h.cell a)) as

/-- The loop `while (iter->next) iter = iter->next`, stopped after `fuel` cells. -/
def lastFrom (next : C → Option ℕ) (h : Heap C) : ℕ → ℕ → Option ℕ
  | 0, _ => none
  | fuel + 1, a =>
    match next (h.cell a) with
    | none => some a
    | some b => lastFrom next h fuel b

/-- The cells met from `p` up to the null link, or `none` when `fuel` cells do not reach it. -/
def visit (next : C → Option ℕ) (h : Heap C) : ℕ → Option ℕ → Option (List ℕ)
  | _, none => some []
  | 0, some _ => none
  | fuel + 1, some a => (visit next h fuel (next (h.cell a))).map (a :: ·)

section Chains

variable {next : C → Option ℕ} {h h' : Heap C} {p : Option ℕ} {as bs : List ℕ}

@[simp] lemma isChain_nil : IsChain next h p [] ↔ p = none := Iff.rfl
@[simp] lemma isChain_cons {a : ℕ} :
    IsChain next h p (a :: as) ↔ p = some a ∧ IsChain next h (next (h.cell a)) as := Iff.rfl

lemma IsChain.frame (hc : IsChain next h p as)
    (hn : ∀ a ∈ as, next (h'.cell a) = next (h.cell a)) : IsChain next h' p as := by
  induction as generalizing p with
  | nil => exact hc
  | cons a as ih =>
    refine ⟨hc.1, ?_⟩
    rw [hn a (by simp)]
    exact ih hc.2 fun b hb => hn b (by simp [hb])

lemma IsChain.unique (ha : IsChain next h p as) (hb : IsChain next h p bs) : as = bs := by
  induction as generalizing p bs with
  | nil =>
    cases bs with
    | nil => rfl
    | cons b bs => rw [show p = none from ha] at hb; cases hb.1
  | cons a as ih =>
    cases bs with
    | nil => rw [show p = none from hb] at ha; cases ha.1
    | cons b bs =>
      obtain rfl : a = b := by have := ha.1.symm.trans hb.1; simpa using this
      rw [ih ha.2 hb.2]

lemma IsChain.suffix (xs : List ℕ) {a : ℕ} (hc : IsChain next h p (xs ++ a :: as)) :
    IsChain next h (some a) (a :: as) := by
  induction xs generalizing p with
  | nil => exact ⟨rfl, hc.2⟩
  | cons x xs ih => exact ih hc.2

lemma IsChain.nodup (hc : IsChain next h p as) : as.Nodup := by
  induction as generalizing p with
  | nil => exact List.nodup_nil
  | cons a as ih =>
    refine List.nodup_cons.mpr ⟨fun ha => ?_, ih hc.2⟩
    obtain ⟨xs, ys, rfl⟩ := List.append_of_mem ha
    have hsuf := IsChain.suffix (a :: xs) hc
    have heq := IsChain.unique (hc.1 ▸ hc) hsuf
    have hlen := congrArg List.length heq
    simp only [List.length_cons, List.length_append] at hlen
    omega

lemma IsChain.length_le (hc : IsChain next h p as) (hb : ∀ a ∈ as, a < h.top) :
    as.length ≤ h.top := by
  have hsub : as ⊆ List.range h.top := fun a ha => List.mem_range.mpr (hb a ha)
  simpa using (hc.nodup.subperm hsub).length_le

lemma IsChain.lastFrom {a fuel : ℕ} (hc : IsChain next h (some a) (a :: as))
    (hf : as.length < fuel) :
    lastFrom next h fuel a = some ((a :: as).getLast (List.cons_ne_nil a as)) := by
  induction as generalizing a fuel with
  | nil =>
    obtain ⟨fuel, rfl⟩ := Nat.exists_eq_add_of_lt hf
    have hn : next (h.cell a) = none := hc.2
    simp [HeapChain.lastFrom, hn]
  | cons b as ih =>
    obtain ⟨fuel, rfl⟩ : ∃ n, fuel = n + 1 := ⟨fuel - 1, by simp at hf; omega⟩
    have hn : next (h.cell a) = some b := hc.2.1
    have hrec : HeapChain.lastFrom next h fuel b =
        some ((b :: as).getLast (List.cons_ne_nil b as)) :=
      ih ⟨rfl, hc.2.2⟩ (by simpa using hf)
    simp [HeapChain.lastFrom, hn, hrec]

lemma IsChain.visit {fuel : ℕ} (hc : IsChain next h p as) (hf : as.length ≤ fuel) :
    visit next h fuel p = some as := by
  induction as generalizing p fuel with
  | nil => rw [show p = none from hc]; cases fuel <;> rfl
  | cons a as ih =>
    obtain ⟨fuel, rfl⟩ : ∃ n, fuel = n + 1 := ⟨fuel - 1, by simp at hf; omega⟩
    rw [hc.1, HeapChain.visit, ih hc.2 (by simpa using hf)]
    rfl

lemma isChain_of_visit {fuel : ℕ} (hv : HeapChain.visit next h fuel p = some as) :
    IsChain next h p as := by
  induction fuel generalizing p as with
  | zero =>
    cases p with
    | none => exact (Option.some.inj hv) ▸ rfl
    | some a => cases hv
  | succ fuel ih =>
    cases p with
    | none => exact (Option.some.inj hv) ▸ rfl
    | some a =>
      obtain ⟨bs, hbs, rfl⟩ := Option.map_eq_some_iff.mp hv
      exact ⟨rfl, ih hbs⟩

lemma IsChain.bound (hc : IsChain next h p as) (hp : ∀ a, p = some a → a < h.top)
    (hnext : ∀ a b, next (h.cell a) = some b → b < h.top) : ∀ a ∈ as, a < h.top := by
  induction as generalizing p with
  | nil => simp
  | cons b bs ih =>
    intro a ha
    rcases List.mem_cons.mp ha with rfl | ha
    · exact hp a hc.1
    · exact ih hc.2 (hnext b) a ha

lemma lastFrom_lt {fuel a l : ℕ} (hl : HeapChain.lastFrom next h fuel a = some l)
    (ha : a < h.top) (hnext : ∀ a b, next (h.cell a) = some b → b < h.top) : l < h.top := by
  induction fuel generalizing a with
  | zero => cases hl
  | succ fuel ih =>
    rw [HeapChain.lastFrom] at hl
    cases hn : next (h.cell a) with
    | none =>
      rw [hn] at hl
      exact (Option.some.inj hl) ▸ ha
    | some b =>
      rw [hn] at hl
      exact ih hl (hnext a b hn)

/-- Every link leads to a cell that was handed out later. -/
def Ascending (next : C → Option ℕ) (h : Heap C) : Prop :=
  ∀ a b, next (h.cell a) = some b → a < b ∧ b < h.top

lemma Ascending.alloc {c : C} (ha : Ascending next h) (hc : next c = none) :
    Ascending next (h.alloc c) := by
  intro a b hab
  by_cases htop : a = h.top
  · subst htop
    rw [Heap.alloc_cell_top, hc] at hab
    cases hab
  · have hold : (h.alloc c).cell a = h.cell a := by simp [Heap.alloc, htop]
    rw [hold] at hab
    exact ⟨(ha a b hab).1, (ha a b hab).2.trans (Nat.lt_succ_self _)⟩

lemma Ascending.write {a : ℕ} {c : C} (ha : Ascending next h)
    (hc : ∀ b, next c = some b → a < b ∧ b < h.top) : Ascending next (h.write a c) := by
  intro x b hx
  by_cases hxa : x = a
  · subst hxa
    rw [Heap.write_cell_self] at hx
    exact hc b hx
  · rw [Heap.write_cell h c hxa] at hx
    exact ha x b hx

lemma IsChain.add_length_le {a : ℕ} (hc : IsChain next h (some a) as) (hasc : Ascending next h)
    (ha : a < h.top) : a + as.length ≤ h.top := by
  induction as generalizing a with
  | nil => cases hc
  | cons b as ih =>
    obtain ⟨hab, hc⟩ := hc
    obtain rfl : a = b := Option.some.inj hab
    cases as with
    | nil => exact ha
    | cons b as =>
      have hb := hasc a b hc.1
      have hrest := ih (hc.1 ▸ hc) hb.2
      simp only [List.length_cons] at hrest ⊢
      omega

lemma IsChain.mem_of_mem {a : ℕ} (hc : IsChain next h p as) (hc' : IsChain next h' p bs)
    (ha : a ∈ as) (hn : ∀ b, b ≠ a → next (h'.cell b) = next (h.cell b)) : a ∈ bs := by
  induction as generalizing p bs with
  | nil => cases ha
  | cons b as ih =>
    obtain ⟨rfl, hc⟩ := hc
    cases bs with
    | nil => cases hc'
    | cons b' bs =>
      obtain ⟨hb, hc'⟩ := hc'
      obtain rfl := Option.some.inj hb
      by_cases hab : b = a
      · simp [hab]
      · rw [hn b hab] at hc'
        have hmem : a ∈ as := (List.mem_cons.mp ha).resolve_left (Ne.symm hab)
        exact List.mem_cons_of_mem b (ih hc hc' hmem)

lemma IsChain.snoc {b : ℕ} (hc : IsChain next h p as) (hne : as ≠ []) (hb : b ∉ as)
    (hlink : next (h'.cell (as.getLast hne)) = some b) (hend : next (h'.cell b) = none)
    (hn : ∀ a ∈ as, a ≠ as.getLast hne → next (h'.cell a) = next (h.cell a)) :
    IsChain next h' p (as ++ [b]) := by
  induction as generalizing p with
  | nil => exact absurd rfl hne
  | cons a as ih =>
    refine ⟨hc.1, ?_⟩
    cases as with
    | nil => exact ⟨hlink, hend⟩
    | cons c cs =>
      have hnd := hc.nodup
      have hal : a ≠ (a :: c :: cs).getLast hne := by
        intro he
        rw [List.getLast_cons (List.cons_ne_nil c cs)] at he
        exact (List.nodup_cons.mp hnd).1 (he ▸ List.getLast_mem _)
      rw [hn a (by simp) hal]
      refine ih hc.2 (List.cons_ne_nil c cs) (fun hm => hb (List.mem_cons_of_mem a hm)) ?_ ?_
      · simpa using hlink
      · intro x hx hxl
        exact hn x (List.mem_cons_of_mem a hx) (by simpa using hxl)

end Chains

/-- Every handle starts a chain, the chains lie in allocated cells and share none of them. -/
structure Family (next : C → Option ℕ) (h : Heap C) (head : ι → Option ℕ)
    (cells : ι → List ℕ) : Prop where
  chain : ∀ i, IsChain next h (head i) (cells i)
  bound : ∀ i, ∀ a ∈ cells i, a < h.top
  apart : ∀ i j, i ≠ j → ∀ a ∈ cells i, a ∉ cells j

/-- The handles represent the lists `content`: some family of chains holds exactly these. -/
def Represents (next : C → Option ℕ) (val : C → V) (h : Heap C) (head : ι → Option ℕ)
    (content : ι → List V) : Prop :=
  ∃ cells, Family next h head cells ∧ ∀ i, (cells i).map (fun a => val (h.cell a)) = content i

lemma Family.cells_eq {next : C → Option ℕ} {h : Heap C} {head : ι → Option ℕ}
    {cells : ι → List ℕ} (hf : Family next h head cells) {i : ι} {a : ℕ} (ha : head i = some a) :
    ∃ as, cells i = a :: as := by
  have hch := hf.chain i
  cases hcs : cells i with
  | nil => simp [hcs, ha] at hch
  | cons b bs =>
    rw [hcs, ha] at hch
    obtain rfl : a = b := by simpa using hch.1
    exact ⟨bs, rfl⟩

lemma Family.lastFrom {next : C → Option ℕ} {h : Heap C} {head : ι → Option ℕ}
    {cells : ι → List ℕ} (hf : Family next h head cells) {i : ι} {a : ℕ} (ha : head i = some a) :
    ∃ hne : cells i ≠ [], lastFrom next h h.top a = some ((cells i).getLast hne) := by
  have hch := hf.chain i
  obtain ⟨as, hcells⟩ := hf.cells_eq ha
  have hne : cells i ≠ [] := by simp [hcells]
  have hlen : as.length < h.top := by
    have hle := hch.length_le (hf.bound i)
    rw [hcells, List.length_cons] at hle
    omega
  refine ⟨hne, ?_⟩
  rw [hcells, ha] at hch
  simpa [hcells] using hch.lastFrom hlen

section Rules

variable {next : C → Option ℕ} {val : C → V} {h : Heap C} {head : ι → Option ℕ}
  {content : ι → List V}

lemma represents_null (h : Heap C) :
    Represents next val h (fun _ : ι => none) (fun _ => []) :=
  ⟨fun _ => [], ⟨fun _ => rfl, by simp, by simp⟩, fun _ => rfl⟩

lemma Represents.null_iff (hr : Represents next val h head content) (i : ι) :
    head i = none ↔ content i = [] := by
  obtain ⟨cells, hf, hv⟩ := hr
  have hc := hf.chain i
  rw [← hv i]
  cases hcells : cells i with
  | nil => rw [hcells] at hc; simpa using hc
  | cons a as => rw [hcells] at hc; simp [hc.1]

lemma Represents.head_val (hr : Represents next val h head content) {i : ι} {v : V}
    {vs : List V} (hi : content i = v :: vs) :
    ∃ a, head i = some a ∧ val (h.cell a) = v ∧
      (next (h.cell a) = none ↔ vs = []) := by
  obtain ⟨cells, hf, hv⟩ := hr
  have hc := hf.chain i
  have hvi := hv i
  rw [hi] at hvi
  cases hcells : cells i with
  | nil => simp [hcells] at hvi
  | cons a as =>
    rw [hcells] at hc hvi
    obtain ⟨hva, hvs⟩ := List.cons.inj hvi
    refine ⟨a, hc.1, hva, ?_⟩
    subst hvs
    cases as with
    | nil => simpa using (isChain_nil.mp hc.2)
    | cons b bs => simp [hc.2.1]

lemma Represents.visit (hr : Represents next val h head content) (i : ι) :
    ∃ as, visit next h h.top (head i) = some as ∧
      as.map (fun a => val (h.cell a)) = content i := by
  obtain ⟨cells, hf, hv⟩ := hr
  exact ⟨cells i, (hf.chain i).visit ((hf.chain i).length_le (hf.bound i)), hv i⟩

variable [DecidableEq ι]

lemma Family.update {cells : ι → List ℕ} (hf : Family next h head cells) {i : ι} {as : List ℕ}
    (has : ∀ b ∈ as, b ∈ cells i ∨ b = h.top) :
    (∀ j, ∀ b ∈ Function.update cells i as j, b < h.top + 1) ∧
      ∀ j k, j ≠ k → ∀ b ∈ Function.update cells i as j, b ∉ Function.update cells i as k := by
  have hmem : ∀ j, ∀ b ∈ Function.update cells i as j, b ∈ cells j ∨ j = i ∧ b = h.top := by
    intro j b hb
    by_cases hj : j = i
    · subst hj
      rw [Function.update_self] at hb
      exact (has b hb).imp_right fun htop => ⟨rfl, htop⟩
    · rw [Function.update_of_ne hj] at hb
      exact .inl hb
  constructor
  · intro j b hb
    rcases hmem j b hb with hold | ⟨-, rfl⟩
    · exact (hf.bound j b hold).trans (Nat.lt_succ_self _)
    · exact Nat.lt_succ_self _
  · intro j k hjk b hb hbk
    rcases hmem j b hb with hj | ⟨hj, hbtop⟩
    · rcases hmem k b hbk with hk | ⟨-, hbtop⟩
      · exact hf.apart j k hjk b hj hk
      · exact absurd (hf.bound j b hj) (by omega)
    · rcases hmem k b hbk with hk | ⟨hk, -⟩
      · exact absurd (hf.bound k b hk) (by omega)
      · exact hjk (hj.trans hk.symm)

lemma Represents.alloc (hr : Represents next val h head content) (i : ι) {c : C}
    (hc : next c = none) :
    Represents next val (h.alloc c) (Function.update head i (some h.top))
      (Function.update content i [val c]) := by
  obtain ⟨cells, hf, hv⟩ := hr
  have hold : ∀ j, ∀ a ∈ cells j, (h.alloc c).cell a = h.cell a := fun j a ha =>
    h.alloc_cell c (hf.bound j a ha)
  have has : ∀ b ∈ [h.top], b ∈ cells i ∨ b = h.top := by simp
  obtain ⟨hbound, hapart⟩ := hf.update has
  refine ⟨Function.update cells i [h.top], ⟨fun j => ?_, hbound, hapart⟩, fun j => ?_⟩
  · by_cases hj : j = i
    · subst hj
      simp [IsChain, hc]
    · simp only [Function.update_of_ne hj]
      exact (hf.chain j).frame fun a ha => by rw [hold j a ha]
  · by_cases hj : j = i
    · subst hj
      simp
    · simp only [Function.update_of_ne hj, ← hv j]
      exact List.map_congr_left fun a ha => by rw [hold j a ha]

lemma Represents.write_head (hr : Represents next val h head content) {i : ι} {a : ℕ} {v : V}
    {vs : List V} {c : C} (hi : content i = v :: vs) (ha : head i = some a)
    (hc : next c = next (h.cell a)) :
    Represents next val (h.write a c) head (Function.update content i (val c :: vs)) := by
  obtain ⟨cells, hf, hv⟩ := hr
  have hch := hf.chain i
  have hvi := hv i
  rw [hi] at hvi
  obtain ⟨as, hcells⟩ := hf.cells_eq ha
  rw [hcells] at hvi hch
  have hnd := hch.nodup
  refine ⟨cells, ⟨fun j => (hf.chain j).frame fun b _ => ?_, hf.bound, hf.apart⟩, fun j => ?_⟩
  · by_cases hb : b = a
    · rw [hb, Heap.write_cell_self, hc]
    · rw [h.write_cell c hb]
  · by_cases hj : j = i
    · subst hj
      have htail : as.map (fun b => val ((h.write a c).cell b)) =
          as.map (fun b => val (h.cell b)) :=
        List.map_congr_left fun b hb => by
          rw [h.write_cell c (ne_of_mem_of_not_mem hb (List.nodup_cons.mp hnd).1)]
      simp only [hcells, List.map_cons, Function.update_self, Heap.write_cell_self, htail]
      rw [(List.cons.inj hvi).2]
    · rw [Function.update_of_ne hj, ← hv j]
      apply List.map_congr_left
      intro b hb
      have hba : b ≠ a := by
        rintro rfl
        exact hf.apart j i hj b hb (by simp [hcells])
      rw [h.write_cell c hba]

lemma Represents.snoc (hr : Represents next val h head content) {i : ι} {a : ℕ} {c : C}
    (ha : head i = some a) (hc : next c = none) :
    ∃ l, lastFrom next h h.top a = some l ∧
      ∀ d : C, next d = some h.top → val d = val (h.cell l) →
        Represents next val ((h.alloc c).write l d) head
          (Function.update content i (content i ++ [val c])) := by
  obtain ⟨cells, hf, hv⟩ := hr
  have hch := hf.chain i
  obtain ⟨hne, hlast⟩ := hf.lastFrom ha
  set l := (cells i).getLast hne with hl
  have hmem : l ∈ cells i := List.getLast_mem hne
  have hltop : l < h.top := hf.bound i l hmem
  refine ⟨l, hlast, fun d hd hdv => ?_⟩
  have hold : ∀ b, b < h.top → b ≠ l → ((h.alloc c).write l d).cell b = h.cell b := by
    intro b hb hbl
    rw [Heap.write_cell _ _ hbl, h.alloc_cell c hb]
  have hfresh : ((h.alloc c).write l d).cell h.top = c := by
    rw [Heap.write_cell _ _ hltop.ne', Heap.alloc_cell_top]
  have hoff : ∀ j, j ≠ i → ∀ b ∈ cells j, b ≠ l := by
    rintro j hj b hb rfl
    exact hf.apart j i hj _ hb hmem
  have has : ∀ b ∈ cells i ++ [h.top], b ∈ cells i ∨ b = h.top := by simp
  obtain ⟨hbound, hapart⟩ := hf.update has
  refine ⟨Function.update cells i (cells i ++ [h.top]),
    ⟨fun j => ?_, by simpa using hbound, hapart⟩, fun j => ?_⟩
  · by_cases hj : j = i
    · subst hj
      rw [Function.update_self]
      refine hch.snoc hne (fun hm => absurd (hf.bound j _ hm) (lt_irrefl _)) ?_ ?_ ?_
      · rw [← hl, Heap.write_cell_self, hd]
      · rw [hfresh, hc]
      · intro b hb hbl
        rw [hold b (hf.bound j b hb) hbl]
    · rw [Function.update_of_ne hj]
      exact (hf.chain j).frame fun b hb => by rw [hold b (hf.bound j b hb) (hoff j hj b hb)]
  · by_cases hj : j = i
    · subst hj
      rw [Function.update_self, Function.update_self, List.map_append, ← hv j]
      congr 1
      · apply List.map_congr_left
        intro b hb
        by_cases hbl : b = l
        · rw [hbl, Heap.write_cell_self, hdv]
        · rw [hold b (hf.bound j b hb) hbl]
      · simp [hfresh]
    · rw [Function.update_of_ne hj, Function.update_of_ne hj, ← hv j]
      exact List.map_congr_left fun b hb => by
        rw [hold b (hf.bound j b hb) (hoff j hj b hb)]

lemma Represents.pop (hr : Represents next val h head content) {i : ι} {a : ℕ} {v : V}
    {vs : List V} (hi : content i = v :: vs) (ha : head i = some a) :
    Represents next val h (Function.update head i (next (h.cell a)))
      (Function.update content i vs) := by
  obtain ⟨cells, hf, hv⟩ := hr
  have hch := hf.chain i
  have hvi := hv i
  rw [hi] at hvi
  obtain ⟨as, hcells⟩ := hf.cells_eq ha
  have hsub : ∀ j, ∀ b ∈ Function.update cells i as j, b ∈ cells j := by
    intro j b hb
    by_cases hj : j = i
    · subst hj
      rw [Function.update_self] at hb
      simp [hcells, hb]
    · rwa [Function.update_of_ne hj] at hb
  refine ⟨Function.update cells i as, ⟨?_, ?_, ?_⟩, ?_⟩
  · intro j
    by_cases hj : j = i
    · subst hj
      rw [hcells] at hch
      simpa using hch.2
    · simpa [Function.update_of_ne hj] using hf.chain j
  · exact fun j b hb => hf.bound j b (hsub j b hb)
  · exact fun j k hjk b hb hbk => hf.apart j k hjk b (hsub j b hb) (hsub k b hbk)
  · intro j
    by_cases hj : j = i
    · subst hj
      rw [hcells] at hvi
      simpa using (List.cons.inj hvi).2
    · simpa [Function.update_of_ne hj] using hv j

omit [DecidableEq ι] in
lemma Represents.reindex (hr : Represents next val h head content) {f : κ → ι}
    (hf : Function.Injective f) :
    Represents next val h (fun k => head (f k)) (fun k => content (f k)) := by
  obtain ⟨cells, hfam, hv⟩ := hr
  exact ⟨fun k => cells (f k), ⟨fun k => hfam.chain (f k), fun k => hfam.bound (f k),
    fun j k hjk => hfam.apart (f j) (f k) fun he => hjk (hf he)⟩, fun k => hv (f k)⟩

omit [DecidableEq ι] in
lemma Represents.extend (hr : Represents next val h head content) :
    Represents next val h (fun o : Option ι => o.elim none head)
      (fun o => o.elim [] content) := by
  obtain ⟨cells, hf, hv⟩ := hr
  refine ⟨fun o => o.elim [] cells, ⟨?_, ?_, ?_⟩, ?_⟩
  · rintro (_ | i)
    · rfl
    · exact hf.chain i
  · rintro (_ | i) a ha
    · cases ha
    · exact hf.bound i a ha
  · rintro (_ | i) (_ | j) hij a ha haj
    · cases ha
    · cases ha
    · cases haj
    · exact hf.apart i j (fun he => hij (he ▸ rfl)) a ha haj
  · rintro (_ | i)
    · rfl
    · exact hv i

end Rules

end Eece315.HeapChain
