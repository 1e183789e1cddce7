import Mathlib

/-! Lines of a stream, each with the newline that ends it, and what a reader with a bounded buffer
makes of them: it cuts every line into pieces of the size of its buffer. -/
namespace Eece315.Lines

variable {α : Type*} {nl : α} {s l : List α} {ls : List (List α)} {n : ℕ}

/-- A list in pieces of `n` elements, the last of which may be shorter. -/
def cut (n : ℕ) (l : List α) : List (List α) :=
  if l = [] ∨ n = 0 then [] else l.take n :: cut n (l.drop n)
termination_by l.length
decreasing_by
  rename_i h
  rw [not_or] at h
  have := List.length_pos_of_ne_nil h.1
  rw [List.length_drop]
  omega

@[simp] lemma cut_nil (n : ℕ) : cut n ([] : List α) = [] := by
  rw [cut, if_pos (.inl rfl)]

lemma cut_of_ne_nil (hl : l ≠ []) (hn : 0 < n) : cut n l = l.take n :: cut n (l.drop n) := by
  rw [cut, if_neg (by rw [not_or]; exact ⟨hl, hn.ne'⟩)]

lemma flatten_cut (hn : 0 < n) (l : List α) : (cut n l).flatten = l := by
  induction hm : l.length using Nat.strong_induction_on generalizing l with
  | _ m ih =>
    by_cases hl : l = []
    · rw [hl, cut_nil, List.flatten_nil]
    · have hpos := List.length_pos_of_ne_nil hl
      have hlt : (l.drop n).length < m := by
        rw [List.length_drop]
        omega
      rw [cut_of_ne_nil hl hn, List.flatten_cons, ih _ hlt _ rfl, List.take_append_drop]

lemma infix_of_mem_cut {c : List α} (hn : 0 < n) (h : c ∈ cut n l) : c <:+: l := by
  obtain ⟨front, back, hc⟩ := List.append_of_mem h
  have hflat := flatten_cut hn l
  rw [hc, List.flatten_append, List.flatten_cons] at hflat
  exact ⟨front.flatten, back.flatten, by rw [← hflat, List.append_assoc]⟩

lemma cut_of_length_le (hl : l ≠ []) (hn : l.length ≤ n) : cut n l = [l] := by
  have hpos := List.length_pos_of_ne_nil hl
  rw [cut_of_ne_nil hl (by omega), List.take_of_length_le hn, List.drop_eq_nil_of_le hn, cut_nil]

lemma cut_append {m : List α} (hl : l.length = n) (hn : 0 < n) : cut n (l ++ m) = l :: cut n m := by
  have hne : l ++ m ≠ [] := by
    rw [← List.length_pos_iff, List.length_append]
    omega
  rw [cut_of_ne_nil hne hn, List.take_left' hl, List.drop_left' hl]

/-- The elements up to the first one that has the property, and including it. -/
def upTo (p : α → Prop) [DecidablePred p] : List α → List α
  | [] => []
  | x :: xs => if p x then [x] else x :: upTo p xs

variable [DecidableEq α]

/-- At most `n` elements, up to the first newline and including it. -/
def takeLine (nl : α) : ℕ → List α → List α
  | 0, _ => []
  | _, [] => []
  | n + 1, c :: cs => if c = nl then [c] else c :: takeLine nl n cs

lemma takeLine_subset (nl : α) (n : ℕ) (s : List α) : takeLine nl n s ⊆ s := by
  induction s generalizing n with
  | nil => cases n <;> exact List.nil_subset _
  | cons c s ih =>
    cases n with
    | zero => exact List.nil_subset _
    | succ n =>
      rw [takeLine]
      split_ifs
      · exact List.cons_subset_cons c (List.nil_subset s)
      · exact List.cons_subset_cons c (ih n)

/-- The lines of a stream; the last one may lack its newline. -/
def linesOf (nl : α) : List α → List (List α)
  | [] => []
  | c :: cs =>
    if c = nl then [c] :: linesOf nl cs
    else match linesOf nl cs with
      | [] => [[c]]
      | l :: ls => (c :: l) :: ls

lemma takeLine_line (hline : nl ∉ l) (hlen : l.length < n) (rest : List α) :
    takeLine nl n (l ++ nl :: rest) = l ++ [nl] := by
  induction l generalizing n with
  | nil =>
    cases n with
    | zero => simp at hlen
    | succ n => simp [takeLine]
  | cons c l ih =>
    cases n with
    | zero => simp at hlen
    | succ n =>
      rw [List.mem_cons, not_or] at hline
      rw [List.length_cons] at hlen
      rw [List.cons_append, takeLine, if_neg (Ne.symm hline.1), ih hline.2 (by omega),
        List.cons_append]

lemma takeLine_last (hline : nl ∉ l) (hlen : l.length ≤ n) : takeLine nl n l = l := by
  induction l generalizing n with
  | nil => cases n <;> rfl
  | cons c l ih =>
    cases n with
    | zero => simp at hlen
    | succ n =>
      rw [List.mem_cons, not_or] at hline
      rw [List.length_cons] at hlen
      rw [takeLine, if_neg (Ne.symm hline.1), ih hline.2 (by omega)]

@[simp] lemma linesOf_eq_nil_iff : linesOf nl s = [] ↔ s = [] := by
  cases s with
  | nil => simp [linesOf]
  | cons c s =>
    rw [linesOf]
    split_ifs
    · simp
    · split <;> simp

lemma linesOf_cons {c : α} (hc : c ≠ nl) (h : linesOf nl (c :: s) = l :: ls) :
    (s = [] ∧ l = [c] ∧ ls = []) ∨ ∃ m, l = c :: m ∧ linesOf nl s = m :: ls := by
  rw [linesOf, if_neg hc] at h
  cases hs : linesOf nl s with
  | nil =>
    rw [hs] at h
    obtain ⟨rfl, rfl⟩ := List.cons.inj h
    exact .inl ⟨linesOf_eq_nil_iff.mp hs, rfl, rfl⟩
  | cons m ms =>
    rw [hs] at h
    obtain ⟨rfl, rfl⟩ := List.cons.inj h
    exact .inr ⟨m, rfl, rfl⟩

lemma linesOf_line (hline : nl ∉ l) (rest : List α) :
    linesOf nl (l ++ nl :: rest) = (l ++ [nl]) :: linesOf nl rest := by
  induction l with
  | nil => simp [linesOf]
  | cons c l ih =>
    rw [List.mem_cons, not_or] at hline
    rw [List.cons_append, linesOf, if_neg (Ne.symm hline.1), ih hline.2, List.cons_append]

lemma linesOf_singleton (hline : nl ∉ l) : linesOf nl (l ++ [nl]) = [l ++ [nl]] :=
  linesOf_line hline []

lemma linesOf_last (hl : l ≠ []) (hline : nl ∉ l) : linesOf nl l = [l] := by
  induction l with
  | nil => exact absurd rfl hl
  | cons c l ih =>
    rw [List.mem_cons, not_or] at hline
    rw [linesOf, if_neg (Ne.symm hline.1)]
    cases l with
    | nil => rfl
    | cons d l => rw [ih (List.cons_ne_nil d l) hline.2]

lemma linesOf_flatMap (hls : ∀ l ∈ ls, nl ∉ l) (s : List α) :
    linesOf nl (ls.flatMap (· ++ [nl]) ++ s) = ls.map (· ++ [nl]) ++ linesOf nl s := by
  induction ls with
  | nil => rfl
  | cons l ls ih =>
    have hrest := ih fun m hm => hls m (List.mem_cons_of_mem l hm)
    rw [List.flatMap_cons, List.append_assoc, List.append_assoc, List.singleton_append,
      linesOf_line (hls l List.mem_cons_self), hrest, List.map_cons, List.cons_append]

lemma linesOf_eq_cons (h : linesOf nl s = l :: ls) :
    ∃ m, nl ∉ m ∧ (l = m ++ [nl] ∨ l = m ∧ m ≠ [] ∧ ls = []) := by
  induction s generalizing l ls with
  | nil => cases h
  | cons c s ih =>
    by_cases hc : c = nl
    · rw [linesOf, if_pos hc] at h
      refine ⟨[], List.not_mem_nil, .inl ?_⟩
      rw [← (List.cons.inj h).1, hc, List.nil_append]
    · rcases linesOf_cons hc h with ⟨-, rfl, rfl⟩ | ⟨k, rfl, hs⟩
      · exact ⟨[c], by simpa using Ne.symm hc, .inr ⟨rfl, by simp, rfl⟩⟩
      · obtain ⟨m, hm, hk⟩ := ih hs
        refine ⟨c :: m, by simp [hm, Ne.symm hc], ?_⟩
        rcases hk with rfl | ⟨rfl, -, rfl⟩
        · exact .inl rfl
        · exact .inr ⟨rfl, by simp, rfl⟩

lemma takeLine_eq_take (h : linesOf nl s = l :: ls) (n : ℕ) : takeLine nl n s = l.take n := by
  induction s generalizing l ls n with
  | nil => cases h
  | cons c s ih =>
    cases n with
    | zero => rfl
    | succ n =>
      rw [takeLine]
      split_ifs with hc
      · rw [linesOf, if_pos hc] at h
        rw [← (List.cons.inj h).1]
        simp
      · rcases linesOf_cons hc h with ⟨rfl, rfl, -⟩ | ⟨m, rfl, hs⟩
        · cases n <;> simp [takeLine]
        · rw [ih hs, List.take_succ_cons]

lemma linesOf_drop (h : linesOf nl s = l :: ls) {k : ℕ} (hk : k ≤ l.length) :
    linesOf nl (s.drop k) = if k = l.length then ls else l.drop k :: ls := by
  induction s generalizing l k with
  | nil => cases h
  | cons c s ih =>
    cases k with
    | zero =>
      have hne : (0 : ℕ) ≠ l.length := by
        intro he
        have hl : l = [] := List.eq_nil_of_length_eq_zero he.symm
        by_cases hc : c = nl
        · rw [linesOf, if_pos hc, hl] at h
          cases h
        · rcases linesOf_cons hc h with ⟨-, rfl, -⟩ | ⟨m, rfl, -⟩ <;> cases hl
      rw [if_neg hne, List.drop_zero, List.drop_zero, h]
    | succ k =>
      rw [List.drop_succ_cons]
      by_cases hc : c = nl
      · rw [linesOf, if_pos hc] at h
        obtain ⟨rfl, rfl⟩ := List.cons.inj h
        obtain rfl : k = 0 := by simpa using hk
        simp
      · rcases linesOf_cons hc h with ⟨rfl, rfl, rfl⟩ | ⟨m, rfl, hs⟩
        · obtain rfl : k = 0 := by simpa using hk
          simp [linesOf]
        · rw [List.length_cons] at hk ⊢
          rw [ih hs (by omega), List.drop_succ_cons]
          simp only [Nat.add_right_cancel_iff]

lemma linesOf_ne_nil (h : l ∈ linesOf nl s) : l ≠ [] := by
  induction s generalizing l with
  | nil => cases h
  | cons c s ih =>
    obtain ⟨m, ms, hm⟩ := List.exists_cons_of_ne_nil
      (mt linesOf_eq_nil_iff.mp (List.cons_ne_nil c s) : linesOf nl (c :: s) ≠ [])
    rw [hm] at h
    by_cases hc : c = nl
    · rw [linesOf, if_pos hc] at hm
      obtain ⟨rfl, rfl⟩ := List.cons.inj hm
      rcases List.mem_cons.mp h with rfl | h
      · simp
      · exact ih h
    · rcases linesOf_cons hc hm with ⟨-, rfl, rfl⟩ | ⟨k, rfl, hs⟩
      · rw [List.mem_singleton.mp h]
        simp
      · rcases List.mem_cons.mp h with rfl | h
        · simp
        · exact ih (hs ▸ List.mem_cons_of_mem k h)

/-- What a reader with room for `n` elements finds in a stream, one piece after the other. -/
def pieces (nl : α) (n : ℕ) (s : List α) : List (List α) := (linesOf nl s).flatMap (cut n)

lemma pieces_eq_cons (hs : s ≠ []) (hn : 0 < n) :
    pieces nl n s = takeLine nl n s :: pieces nl n (s.drop (takeLine nl n s).length) := by
  obtain ⟨l, ls, h⟩ := List.exists_cons_of_ne_nil (mt linesOf_eq_nil_iff.mp hs : linesOf nl s ≠ [])
  have hmem : l ∈ linesOf nl s := by
    rw [h]
    exact List.mem_cons_self
  have hl := linesOf_ne_nil hmem
  have htake := takeLine_eq_take h n
  have hlen : (l.take n).length ≤ l.length := by
    rw [List.length_take]
    exact min_le_right _ _
  rw [pieces, pieces, htake, linesOf_drop h hlen, h, List.flatMap_cons, cut_of_ne_nil hl hn,
    List.cons_append]
  congr 1
  rw [List.length_take]
  split_ifs with hmin
  · rw [List.drop_eq_nil_of_le (by omega), cut_nil, List.nil_append]
  · rw [min_eq_left (by omega), List.flatMap_cons]

end Eece315.Lines
