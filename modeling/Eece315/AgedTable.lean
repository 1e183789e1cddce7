import Mathlib

/-! Tables of bounded size whose slots have ages. An entry goes into a slot of its own while
there is room and into the oldest slot otherwise, and every slot ages by one at each insertion. -/
namespace Eece315.AgedTable

structure Slot (α : Type*) where
  content : α
  age : ℕ

/-- The slots in use, in the order of their indices. -/
structure Table (α : Type*) (capacity : ℕ) where
  slots : List (Slot α)
  bounded : slots.length ≤ capacity

variable {α : Type*} {capacity : ℕ}

/-- The loop that looks for the greatest age from slot `i` on; of several slots of that age the
last one is taken. -/
def scanOldest : List (Slot α) → ℕ → ℕ → ℕ → ℕ
  | [], _, _, oldest => oldest
  | slot :: slots, i, max, oldest =>
    if slot.age ≥ max then scanOldest slots (i + 1) slot.age i
    else scanOldest slots (i + 1) max oldest

lemma scanOldest_lt (slots : List (Slot α)) (i max oldest : ℕ) (h : oldest < i) :
    scanOldest slots i max oldest < i + slots.length := by
  induction slots generalizing i max oldest with
  | nil => simpa [scanOldest] using h
  | cons slot slots ih =>
    rw [scanOldest, List.length_cons]
    split_ifs
    · have := ih (i + 1) slot.age i (by omega)
      omega
    · have := ih (i + 1) max oldest (by omega)
      omega

namespace Table

def empty (α : Type*) (capacity : ℕ) : Table α capacity := ⟨[], Nat.zero_le _⟩

def contents (t : Table α capacity) : List α := t.slots.map Slot.content

def target (t : Table α capacity) : ℕ :=
  if t.slots.length = capacity then scanOldest t.slots 0 0 0 else t.slots.length

def place (t : Table α capacity) (x : α) : List (Slot α) :=
  if t.slots.length = capacity then t.slots.set t.target ⟨x, 0⟩ else t.slots ++ [⟨x, 0⟩]

lemma length_place (t : Table α capacity) (x : α) : (t.place x).length ≤ capacity := by
  have := t.bounded
  rw [place]
  split_ifs with h
  · simpa using this
  · simp only [List.length_append, List.length_singleton]
    omega

def insert (t : Table α capacity) (x : α) : Table α capacity :=
  ⟨(t.place x).map fun slot => { slot with age := slot.age + 1 },
    by simpa using t.length_place x⟩

@[simp] lemma contents_empty : (empty α capacity).contents = [] := rfl

@[simp] lemma length_contents (t : Table α capacity) : t.contents.length = t.slots.length := by
  simp [contents]

lemma target_lt_of_full {t : Table α capacity} (hc : 0 < capacity)
    (h : t.slots.length = capacity) : t.target < t.slots.length := by
  rw [target, if_pos h]
  obtain ⟨slot, slots, hs⟩ := List.exists_cons_of_length_pos (hc.trans_eq h.symm)
  rw [hs, scanOldest, if_pos (Nat.zero_le _), List.length_cons]
  have := scanOldest_lt slots (0 + 1) slot.age 0 one_pos
  omega

lemma getElem?_place (t : Table α capacity) (hc : 0 < capacity) (x : α) (i : ℕ) :
    (t.place x)[i]? = if i = t.target then some ⟨x, 0⟩ else t.slots[i]? := by
  rw [place]
  by_cases h : t.slots.length = capacity
  · rw [if_pos h]
    split_ifs with hi
    · rw [hi, List.getElem?_set_self (target_lt_of_full hc h)]
    · rw [List.getElem?_set_ne (Ne.symm hi)]
  · rw [if_neg h, target, if_neg h]
    split_ifs with hi
    · rw [hi, List.getElem?_concat_length]
    · rcases Nat.lt_or_ge i t.slots.length with hlt | hge
      · rw [List.getElem?_append_left hlt]
      · rw [List.getElem?_eq_none hge, List.getElem?_eq_none]
        rw [List.length_append, List.length_singleton]
        omega

theorem getElem?_insert (t : Table α capacity) (hc : 0 < capacity) (x : α) (i : ℕ) :
    (t.insert x).contents[i]? = if i = t.target then some x else t.contents[i]? := by
  simp only [contents, insert, List.getElem?_map, t.getElem?_place hc x]
  split_ifs
  · rfl
  · simp [Function.comp_def]

lemma mem_insert {t : Table α capacity} (hc : 0 < capacity) {x y : α}
    (h : y ∈ (t.insert x).contents) : y = x ∨ y ∈ t.contents := by
  obtain ⟨i, hi⟩ := List.mem_iff_getElem?.mp h
  rw [t.getElem?_insert hc] at hi
  split_ifs at hi
  · exact .inl (Option.some.inj hi).symm
  · exact .inr (List.mem_of_getElem? hi)

lemma contents_insert (t : Table α capacity) (x : α) :
    (t.insert x).contents =
      if t.slots.length = capacity then t.contents.set t.target x else t.contents ++ [x] := by
  simp only [contents, insert, place, List.map_map]
  split_ifs
  · rw [List.map_set]
    rfl
  · rw [List.map_append]
    rfl

section Map

variable {β : Type*} {t : Table α capacity} {f g : α → β}

/-- The table as it looks when its entries are seen through `f`. -/
def map (f : α → β) (t : Table α capacity) : Table β capacity :=
  ⟨t.slots.map fun slot => ⟨f slot.content, slot.age⟩, by simpa using t.bounded⟩

lemma contents_map : (t.map f).contents = t.contents.map f := by
  simp [contents, map, Function.comp_def]

lemma scanOldest_map (slots : List (Slot α)) (i max oldest : ℕ) :
    scanOldest (slots.map fun slot => ⟨f slot.content, slot.age⟩) i max oldest =
      scanOldest slots i max oldest := by
  induction slots generalizing i max oldest with
  | nil => rfl
  | cons slot slots ih =>
    rw [List.map_cons, scanOldest, scanOldest]
    split_ifs
    · exact ih (i + 1) slot.age i
    · exact ih (i + 1) max oldest

lemma target_map : (t.map f).target = t.target := by
  simp only [target, map, List.length_map, scanOldest_map]

/-- An insertion seen through a function, where the entries that stay look as before. -/
theorem map_insert (hc : 0 < capacity) {x : α}
    (h : ∀ i e, i ≠ t.target → t.contents[i]? = some e → g e = f e) :
    (t.insert x).map g = (t.map f).insert (g x) := by
  have hplace : (t.place x).map (fun slot => (⟨g slot.content, slot.age⟩ : Slot β)) =
      (t.map f).place (g x) := by
    apply List.ext_getElem?
    intro i
    rw [List.getElem?_map, t.getElem?_place hc, (t.map f).getElem?_place hc, target_map]
    split_ifs with hi
    · rfl
    · simp only [map, List.getElem?_map]
      cases hslot : t.slots[i]? with
      | none => rfl
      | some slot =>
        have hcontent : t.contents[i]? = some slot.content := by simp [contents, hslot]
        simp [h i slot.content hi hcontent]
  have hslots : ((t.insert x).map g).slots = ((t.map f).insert (g x)).slots := by
    change _ = List.map (fun slot => { slot with age := slot.age + 1 }) ((t.map f).place (g x))
    rw [← hplace, List.map_map]
    exact List.map_map
  exact (Table.mk.injEq ..).mpr hslots

end Map

end Table

/-- After `n` insertions slot `i` was last written `depth n capacity i` insertions before the
newest one. -/
def depth (n capacity i : ℕ) : ℕ := (n - 1 - i) % capacity

section Depth

variable {n i : ℕ}

lemma depth_lt (hc : 0 < capacity) : depth n capacity i < capacity := Nat.mod_lt _ hc

lemma depth_target (n : ℕ) : depth (n + 1) capacity (n % capacity) = 0 := by
  rw [depth, Nat.add_sub_cancel]
  exact Nat.mod_eq_zero_of_dvd (Nat.dvd_sub_mod n)

lemma depth_eq_zero (hn : i < n + 1) (hi : i < capacity) (h : depth (n + 1) capacity i = 0) :
    i = n % capacity := by
  rw [depth, Nat.add_sub_cancel] at h
  have hmod := (Nat.modEq_iff_dvd' (by omega)).mpr (Nat.dvd_of_mod_eq_zero h)
  rw [Nat.ModEq, Nat.mod_eq_of_lt hi] at hmod
  exact hmod

lemma depth_succ (hn : i < n) (hi : i < capacity) (h : i ≠ n % capacity) :
    depth (n + 1) capacity i = depth n capacity i + 1 := by
  have hne : depth (n + 1) capacity i ≠ 0 := mt (depth_eq_zero (by omega) hi) h
  have hstep : n + 1 - 1 - i = n - 1 - i + 1 := by omega
  rw [depth, hstep, Nat.add_mod_eq_ite] at hne ⊢
  have hlt := Nat.mod_lt (n - 1 - i) (by omega : 0 < capacity)
  rcases Nat.lt_or_ge 1 capacity with h1 | h1
  · rw [Nat.mod_eq_of_lt h1] at hne ⊢
    rw [depth]
    split_ifs at hne ⊢ <;> omega
  · obtain rfl : capacity = 1 := by omega
    simp [Nat.mod_one] at hne

lemma depth_oldest (hn : capacity ≤ n) (hc : 0 < capacity) :
    depth n capacity (n % capacity) + 1 = capacity := by
  have hlt := Nat.mod_lt n hc
  have hsucc : n - 1 - n % capacity + 1 = n - n % capacity := by
    have := Nat.mod_lt n hc
    omega
  have hzero : (n - 1 - n % capacity + 1) % capacity = 0 := by
    rw [hsucc]
    exact Nat.mod_eq_zero_of_dvd (Nat.dvd_sub_mod n)
  have hd : depth n capacity (n % capacity) < capacity := depth_lt hc
  rw [depth] at hd ⊢
  rw [Nat.add_mod_eq_ite] at hzero
  rcases Nat.lt_or_ge 1 capacity with h1 | h1
  · rw [Nat.mod_eq_of_lt h1] at hzero
    split_ifs at hzero
    all_goals omega
  · omega

lemma depth_lt_oldest (hn : i < n) (hi : i < capacity) (h : i ≠ n % capacity) :
    depth n capacity i + 1 < capacity := by
  rw [← depth_succ hn hi h]
  exact depth_lt (by omega)

lemma depth_lt_min {d : ℕ} (hd : d < min n capacity) : depth n capacity d < min n capacity := by
  have hlt := Nat.mod_lt (n - 1 - d) (by omega : 0 < capacity)
  have hle := Nat.mod_le (n - 1 - d) capacity
  rw [depth]
  omega

lemma depth_depth {d : ℕ} (hd : d < min n capacity) :
    depth n capacity (depth n capacity d) = d := by
  have hsub : n - 1 - (n - 1 - d) % capacity = d + capacity * ((n - 1 - d) / capacity) := by
    have := Nat.mod_add_div (n - 1 - d) capacity
    omega
  rw [depth, depth, hsub, Nat.add_mul_mod_self_left, Nat.mod_eq_of_lt (by omega)]

end Depth

lemma scanOldest_of_lt (slots : List (Slot α)) (i max oldest : ℕ)
    (h : ∀ slot ∈ slots, slot.age < max) : scanOldest slots i max oldest = oldest := by
  induction slots generalizing i with
  | nil => rfl
  | cons slot slots ih =>
    have hlt := h slot List.mem_cons_self
    rw [scanOldest, if_neg (by omega), ih _ fun s hs => h s (List.mem_cons_of_mem _ hs)]

lemma scanOldest_eq (before after : List (Slot α)) (slot : Slot α) (i max oldest : ℕ)
    (hmax : max ≤ slot.age) (hb : ∀ s ∈ before, s.age < slot.age)
    (ha : ∀ s ∈ after, s.age < slot.age) :
    scanOldest (before ++ slot :: after) i max oldest = i + before.length := by
  induction before generalizing i max oldest with
  | nil => rw [List.nil_append, scanOldest, if_pos hmax, scanOldest_of_lt _ _ _ _ ha]; rfl
  | cons s before ih =>
    have hs := hb s List.mem_cons_self
    have hb' : ∀ s ∈ before, s.age < slot.age := fun s hs => hb s (List.mem_cons_of_mem _ hs)
    rw [List.cons_append, scanOldest, List.length_cons]
    split_ifs
    · rw [ih _ _ _ hs.le hb']
      omega
    · rw [ih _ _ _ hmax hb']
      omega

namespace Table

/-- The table after the insertions of `xs`, the newest one first: slot `i` holds the entry that
is `depth` insertions old, and is one older than that. -/
structure Holds (t : Table α capacity) (xs : List α) : Prop where
  length : t.slots.length = min xs.length capacity
  slot : ∀ i < min xs.length capacity, t.slots[i]? =
    xs[depth xs.length capacity i]?.map fun x => ⟨x, depth xs.length capacity i + 1⟩

lemma holds_empty : (empty α capacity).Holds [] := ⟨by simp [empty], by simp⟩

section Holds

variable {t : Table α capacity} {xs : List α}

lemma Holds.age (h : t.Holds xs) {i : ℕ} {slot : Slot α} (hs : t.slots[i]? = some slot) :
    i < min xs.length capacity ∧ slot.age = depth xs.length capacity i + 1 := by
  have hi : i < min xs.length capacity := by
    rw [← h.length]
    exact (List.getElem?_eq_some_iff.mp hs).1
  rw [h.slot i hi] at hs
  obtain ⟨x, -, rfl⟩ := Option.map_eq_some_iff.mp hs
  exact ⟨hi, rfl⟩

theorem Holds.target_eq (h : t.Holds xs) (hc : 0 < capacity) :
    t.target = xs.length % capacity := by
  rw [target]
  split_ifs with hfull
  · have hn : capacity ≤ xs.length := by
      have := h.length
      omega
    have hlt : xs.length % capacity < t.slots.length := by
      rw [hfull]
      exact Nat.mod_lt _ hc
    have hage {i : ℕ} (hi : i < t.slots.length) (hne : i ≠ xs.length % capacity) :
        t.slots[i].age < t.slots[xs.length % capacity].age := by
      rw [(h.age (List.getElem?_eq_getElem hi)).2, (h.age (List.getElem?_eq_getElem hlt)).2,
        depth_oldest hn hc]
      exact depth_lt_oldest (by omega) (by omega) hne
    have hsplit : t.slots = t.slots.take (xs.length % capacity) ++
        t.slots[xs.length % capacity] :: t.slots.drop (xs.length % capacity + 1) := by
      rw [List.getElem_cons_drop, List.take_append_drop]
    rw [hsplit, scanOldest_eq]
    · rw [List.length_take]
      omega
    · exact Nat.zero_le _
    · intro s hs
      obtain ⟨i, hi, rfl⟩ := List.getElem_of_mem hs
      rw [List.length_take] at hi
      rw [List.getElem_take]
      exact hage (by omega) (by omega)
    · intro s hs
      obtain ⟨i, hi, rfl⟩ := List.getElem_of_mem hs
      rw [List.length_drop] at hi
      rw [List.getElem_drop]
      exact hage (by omega) (by omega)
  · have hlen := h.length
    rw [hlen, Nat.mod_eq_of_lt (by omega)]
    omega

theorem Holds.insert (h : t.Holds xs) (hc : 0 < capacity) (x : α) :
    (t.insert x).Holds (x :: xs) := by
  have hlen : (t.insert x).slots.length = min (x :: xs).length capacity := by
    have := h.length
    rw [Table.insert, List.length_map, place, List.length_cons]
    split_ifs
    · rw [List.length_set]
      omega
    · rw [List.length_append, List.length_singleton]
      omega
  refine ⟨hlen, fun i hi => ?_⟩
  rw [List.length_cons] at hi ⊢
  rw [Table.insert, List.getElem?_map, t.getElem?_place hc, h.target_eq hc]
  split_ifs with hit
  · rw [hit, depth_target]
    rfl
  · have hold : i < min xs.length capacity := by
      rcases Nat.lt_or_ge xs.length capacity with hlt | hge
      · rw [Nat.mod_eq_of_lt hlt] at hit
        omega
      · omega
    rw [h.slot i hold, depth_succ (by omega) (by omega) hit, List.getElem?_cons_succ,
      Option.map_map]
    rfl

lemma Holds.contents (h : t.Holds xs) {i : ℕ} (hi : i < min xs.length capacity) :
    t.contents[i]? = xs[depth xs.length capacity i]? := by
  rw [Table.contents, List.getElem?_map, h.slot i hi, Option.map_map]
  simp [Function.comp_def]

lemma Holds.length_contents (h : t.Holds xs) : t.contents.length = min xs.length capacity := by
  rw [Table.contents, List.length_map, h.length]

lemma Holds.contents_depth (h : t.Holds xs) {d : ℕ} (hd : d < min xs.length capacity) :
    t.contents[depth xs.length capacity d]? = xs[d]? := by
  rw [h.contents (depth_lt_min hd), depth_depth hd]

theorem Holds.mem_contents (h : t.Holds xs) (hc : 0 < capacity) {x : α} :
    x ∈ t.contents ↔ x ∈ xs.take capacity := by
  simp only [List.mem_iff_getElem?]
  constructor
  · rintro ⟨i, hi⟩
    have hlt : i < min xs.length capacity := by
      rw [← h.length_contents]
      exact (List.getElem?_eq_some_iff.mp hi).1
    rw [h.contents hlt] at hi
    exact ⟨_, by rwa [List.getElem?_take, if_pos (depth_lt hc)]⟩
  · rintro ⟨d, hd⟩
    have hlt := (List.getElem?_eq_some_iff.mp hd).1
    rw [List.length_take] at hlt
    rw [List.getElem?_take, if_pos (by omega)] at hd
    exact ⟨_, (h.contents_depth (by omega)).trans hd⟩

end Holds

end Table

end Eece315.AgedTable
