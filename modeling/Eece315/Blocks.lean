import Mathlib

/-! Blocks of memory that are allocated and freed. To free a block that is not allocated, or to
read from one, is an error. -/
namespace Eece315.Blocks

variable {α : Type*}

/-- The contents of the allocated blocks, and the number of blocks handed out. No block is handed
out twice. -/
structure Memory (α : Type*) where
  content : ℕ → Option α
  top : ℕ

namespace Memory

def empty (α : Type*) : Memory α := ⟨fun _ => none, 0⟩

def malloc (m : Memory α) (a : α) : ℕ × Memory α :=
  (m.top, ⟨Function.update m.content m.top (some a), m.top + 1⟩)

def read (m : Memory α) (p : Option ℕ) : Option α := p.bind m.content

def write (m : Memory α) (b : ℕ) (a : α) : Option (Memory α) :=
  if (m.content b).isSome then some { m with content := Function.update m.content b (some a) }
  else none

/-- The null pointer may be freed. -/
def free (m : Memory α) : Option ℕ → Option (Memory α)
  | none => some m
  | some b =>
    if (m.content b).isSome then some { m with content := Function.update m.content b none }
    else none

/-- The blocks that are allocated are those in the list, and no block is in it twice. -/
structure Holds (m : Memory α) (bs : List ℕ) : Prop where
  nodup : bs.Nodup
  allocated : ∀ b, (m.content b).isSome ↔ b ∈ bs
  bounded : ∀ b ∈ bs, b < m.top

section Holds

variable {m : Memory α} {bs cs : List ℕ} {b : ℕ}

lemma holds_empty : (empty α).Holds [] := ⟨List.nodup_nil, by simp [empty], by simp⟩

lemma Holds.perm (h : m.Holds bs) (hp : bs.Perm cs) : m.Holds cs :=
  ⟨hp.nodup_iff.mp h.nodup, fun b => (h.allocated b).trans hp.mem_iff,
    fun b hb => h.bounded b (hp.mem_iff.mpr hb)⟩

lemma Holds.malloc (h : m.Holds bs) (a : α) : (m.malloc a).2.Holds (m.top :: bs) := by
  constructor
  · rw [List.nodup_cons]
    exact ⟨fun hmem => lt_irrefl _ (h.bounded _ hmem), h.nodup⟩
  · intro b
    by_cases hb : b = m.top
    · subst hb
      simp [Memory.malloc]
    · simpa [Memory.malloc, hb] using h.allocated b
  · intro b hb
    rcases List.mem_cons.mp hb with rfl | hb
    · exact Nat.lt_succ_self _
    · exact (h.bounded b hb).trans (Nat.lt_succ_self _)

lemma malloc_content (h : m.Holds bs) (hb : b ∈ bs) (a : α) :
    (m.malloc a).2.content b = m.content b :=
  Function.update_of_ne (h.bounded b hb).ne _ _

lemma Holds.write (h : m.Holds bs) (hb : b ∈ bs) (a : α) :
    ∃ m', m.write b a = some m' ∧ m'.Holds bs ∧ m'.top = m.top ∧ m'.content b = some a ∧
      ∀ c ≠ b, m'.content c = m.content c := by
  have hsome := (h.allocated b).mpr hb
  refine ⟨_, if_pos hsome, ⟨h.nodup, fun c => ?_, h.bounded⟩, rfl, Function.update_self _ _ _,
    fun c hc => Function.update_of_ne hc _ _⟩
  by_cases hc : c = b
  · subst hc
    simpa using hb
  · simpa [Function.update_of_ne hc] using h.allocated c

theorem Holds.free (h : m.Holds (b :: bs)) :
    ∃ m', m.free (some b) = some m' ∧ m'.Holds bs ∧ m'.top = m.top ∧
      ∀ c ≠ b, m'.content c = m.content c := by
  obtain ⟨hb, hnodup⟩ := List.nodup_cons.mp h.nodup
  have hsome := (h.allocated b).mpr List.mem_cons_self
  refine ⟨_, if_pos hsome, ⟨hnodup, fun c => ?_, fun c hc => ?_⟩, rfl,
    fun c hc => Function.update_of_ne hc _ _⟩
  · by_cases hc : c = b
    · subst hc
      simpa using hb
    · simpa [Function.update_of_ne hc, hc] using h.allocated c
  · exact h.bounded c (List.mem_cons_of_mem b hc)

lemma Holds.replace (h : m.Holds (b :: bs)) {i : ℕ} (hi : i < bs.length) :
    ∃ m', m.free (some bs[i]) = some m' ∧ m'.Holds (bs.set i b) ∧ m'.top = m.top ∧
      ∀ c ≠ bs[i], m'.content c = m.content c := by
  have hvictim : (b :: bs).Perm (bs[i] :: b :: bs.eraseIdx i) :=
    ((List.getElem_cons_eraseIdx_perm hi).symm.cons b).trans (List.Perm.swap _ _ _)
  obtain ⟨m', hfree, h', hrest⟩ := (h.perm hvictim).free
  exact ⟨m', hfree, h'.perm (List.set_perm_cons_eraseIdx hi b).symm, hrest⟩

/-- Whoever frees all blocks that are held, one after the other, leaves none allocated. -/
theorem Holds.freeAll (h : m.Holds bs) :
    ∃ m', (bs.map some).foldlM Memory.free m = some m' ∧ m'.Holds [] := by
  induction bs generalizing m with
  | nil => exact ⟨m, rfl, h⟩
  | cons b bs ih =>
    obtain ⟨m₁, hfree, h₁, -, -⟩ := h.free
    obtain ⟨m', hall, h'⟩ := ih h₁
    exact ⟨m', by simp [hfree, hall], h'⟩

end Holds

end Memory

end Eece315.Blocks
