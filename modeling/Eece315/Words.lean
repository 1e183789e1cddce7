import Mathlib

/-! Words of a list: the maximal runs of elements that do not satisfy a separator predicate, and
the reader that takes the list apart at one separator after the other. -/
namespace Eece315.Words

variable {α : Type*} {p : α → Bool} {s t w : List α} {x : α}

/-- The maximal runs of elements of `s` that are not separators. -/
def words (p : α → Bool) (s : List α) : List (List α) := (s.splitOnP p).filter (· ≠ [])

/-- A run of at least one element, none of them a separator. -/
def IsWord (p : α → Bool) (w : List α) : Prop := w ≠ [] ∧ ∀ x ∈ w, p x = false

/-- The part before the first separator, and the part behind it if there is one. -/
def splitFirst (p : α → Bool) (s : List α) : List α × Option (List α) :=
  (s.takeWhile fun x => !p x, match s.dropWhile fun x => !p x with
    | [] => none
    | _ :: rest => some rest)

@[simp] lemma words_nil (p : α → Bool) : words p ([] : List α) = [] := by simp [words]

lemma words_append_cons (s t : List α) (hx : p x = true) :
    words p (s ++ x :: t) = words p s ++ words p t := by
  rw [words, List.splitOnP_append_cons s t hx, List.filter_append, words, words]

lemma words_cons (t : List α) (hx : p x = true) : words p (x :: t) = words p t := by
  have h := words_append_cons [] t hx
  rwa [List.nil_append, words_nil, List.nil_append] at h

lemma words_eq_singleton (hw : IsWord p w) : words p w = [w] := by
  rw [words, List.splitOnP_eq_singleton hw.2]
  simp [hw.1]

lemma words_append_word (hw : IsWord p w) (t : List α) (hx : p x = true) :
    words p (w ++ x :: t) = w :: words p t := by
  rw [words_append_cons w t hx, words_eq_singleton hw, List.singleton_append]

lemma isWord_splitFirst (h : (splitFirst p s).1 ≠ []) : IsWord p (splitFirst p s).1 := by
  refine ⟨h, fun x hx => ?_⟩
  simpa using List.mem_takeWhile_imp hx

lemma splitFirst_cases (p : α → Bool) (s : List α) :
    ((splitFirst p s).2 = none ∧ (splitFirst p s).1 = s) ∨
      ∃ x rest, p x = true ∧ (splitFirst p s).2 = some rest ∧
        s = (splitFirst p s).1 ++ x :: rest := by
  have hsplit := List.takeWhile_append_dropWhile (p := fun x => !p x) (l := s)
  cases hd : s.dropWhile fun x => !p x with
  | nil =>
    left
    rw [hd, List.append_nil] at hsplit
    exact ⟨by simp only [splitFirst, hd], hsplit⟩
  | cons x rest =>
    right
    refine ⟨x, rest, ?_, by simp only [splitFirst, hd], ?_⟩
    · have hne : s.dropWhile (fun x => !p x) ≠ [] := by simp [hd]
      simpa [hd] using List.head_dropWhile_not (fun x => !p x) hne
    · rw [hd] at hsplit
      exact hsplit.symm

lemma words_splitFirst (p : α → Bool) (s : List α) :
    words p s = (if (splitFirst p s).1 = [] then [] else [(splitFirst p s).1]) ++
      words p ((splitFirst p s).2.getD []) := by
  rcases splitFirst_cases p s with ⟨hr, hs⟩ | ⟨x, rest, hx, hr, hs⟩
  · rw [hr, Option.getD_none, words_nil, List.append_nil]
    split_ifs with he
    · rw [he] at hs
      rw [← hs, words_nil]
    · have hw := words_eq_singleton (isWord_splitFirst he)
      rwa [hs] at hw ⊢
  · rw [hr, Option.getD_some]
    nth_rewrite 1 [hs]
    split_ifs with he
    · rw [he, List.nil_append, words_cons rest hx, List.nil_append]
    · rw [words_append_word (isWord_splitFirst he) rest hx, List.singleton_append]

lemma length_splitFirst_lt {rest : List α} (h : (splitFirst p s).2 = some rest) :
    rest.length < s.length := by
  rcases splitFirst_cases p s with ⟨hr, -⟩ | ⟨x, r, -, hr, hs⟩
  · rw [hr] at h
    cases h
  · obtain rfl : r = rest := Option.some.inj (hr.symm.trans h)
    have hlen := congrArg List.length hs
    rw [List.length_append, List.length_cons] at hlen
    omega

lemma words_eq_nil_iff : words p s = [] ↔ ∀ x ∈ s, p x = true := by
  induction s with
  | nil => simp
  | cons x s ih =>
    by_cases hx : p x = true
    · rw [words_cons s hx, ih]
      simp [hx]
    · have hne : (splitFirst p (x :: s)).1 ≠ [] := by simp [splitFirst, hx]
      simp [words_splitFirst p (x :: s), hne, hx]

lemma words_eq_cons {ws : List (List α)} (h : words p s = w :: ws) :
    ∃ rest, s.dropWhile p = w ++ rest ∧ words p rest = ws ∧ ∀ x ∈ rest.head?, p x = true := by
  induction s with
  | nil => simp at h
  | cons x s ih =>
    by_cases hx : p x = true
    · rw [words_cons s hx] at h
      rw [List.dropWhile_cons_of_pos hx]
      exact ih h
    · have hne : (splitFirst p (x :: s)).1 ≠ [] := by simp [splitFirst, hx]
      rw [words_splitFirst, if_neg hne, List.singleton_append, List.cons.injEq] at h
      obtain ⟨rfl, rfl⟩ := h
      rw [List.dropWhile_cons_of_neg hx]
      rcases splitFirst_cases p (x :: s) with ⟨hr, hs⟩ | ⟨y, rest, hy, hr, hs⟩
      · exact ⟨[], by rw [List.append_nil, hs], by rw [hr]; rfl, by simp⟩
      · refine ⟨y :: rest, hs, ?_, ?_⟩
        · rw [hr, words_cons rest hy]
          rfl
        · simpa using hy

lemma flatten_words (p : α → Bool) (s : List α) :
    (words p s).flatten = s.filter fun x => !p x := by
  induction hn : s.length using Nat.strong_induction_on generalizing s with
  | _ n ih =>
    have hfirst (h : ∀ x ∈ (splitFirst p s).1, p x = false) :
        (splitFirst p s).1.filter (fun x => !p x) = (splitFirst p s).1 :=
      List.filter_eq_self.mpr fun x hx => by simp [h x hx]
    have hall : ∀ x ∈ (splitFirst p s).1, p x = false := fun x hx => by
      simpa using List.mem_takeWhile_imp hx
    have hhead : (if (splitFirst p s).1 = [] then [] else [(splitFirst p s).1]).flatten =
        (splitFirst p s).1 := by
      split_ifs with he
      · rw [he, List.flatten_nil]
      · rw [List.flatten_singleton]
    rw [words_splitFirst, List.flatten_append, hhead]
    rcases splitFirst_cases p s with ⟨hr, hs⟩ | ⟨x, rest, hx, hr, hs⟩
    · rw [hr, Option.getD_none, words_nil, List.flatten_nil, List.append_nil]
      rw [hs] at hall hfirst ⊢
      exact (hfirst hall).symm
    · rw [hr, Option.getD_some, ih rest.length (hn ▸ length_splitFirst_lt hr) rest rfl]
      have hfilter := congrArg (List.filter fun y => !p y) hs
      rw [List.filter_append, hfirst hall, List.filter_cons_of_neg (by simp [hx])] at hfilter
      exact hfilter.symm

lemma infix_of_mem_words (h : w ∈ words p s) : w <:+: s := by
  induction hn : s.length using Nat.strong_induction_on generalizing s with
  | _ n ih =>
    rw [words_splitFirst, List.mem_append] at h
    rcases h with h | h
    · have hw : w = (splitFirst p s).1 := by
        split_ifs at h
        · cases h
        · exact List.mem_singleton.mp h
      rw [hw]
      exact (List.takeWhile_prefix _).isInfix
    · rcases splitFirst_cases p s with ⟨hr, -⟩ | ⟨x, rest, -, hr, hs⟩
      · rw [hr] at h
        simp at h
      · rw [hr] at h
        have hrest := ih rest.length (hn ▸ length_splitFirst_lt hr) h rfl
        rw [hs]
        exact hrest.trans ⟨(splitFirst p s).1 ++ [x], [], by simp⟩

lemma words_append_of_blank (hs : ∀ x ∈ s, p x = true) (t : List α) :
    words p (s ++ t) = words p t := by
  induction s with
  | nil => rfl
  | cons x s ih =>
    rw [List.cons_append, words_cons _ (hs x List.mem_cons_self)]
    exact ih fun y hy => hs y (List.mem_cons_of_mem x hy)

lemma words_append_blank (s : List α) (ht : ∀ x ∈ t, p x = true) :
    words p (s ++ t) = words p s := by
  cases t with
  | nil => rw [List.append_nil]
  | cons x t =>
    rw [words_append_cons s t (ht x List.mem_cons_self),
      words_eq_nil_iff.mpr fun y hy => ht y (List.mem_cons_of_mem x hy), List.append_nil]

lemma mem_intercalate {sep : List α} {ws : List (List α)} {y : α} (h : y ∈ sep.intercalate ws) :
    y ∈ sep ∨ ∃ w ∈ ws, y ∈ w := by
  induction ws with
  | nil => simp at h
  | cons w ws ih =>
    cases ws with
    | nil => exact .inr ⟨w, List.mem_cons_self, by simpa using h⟩
    | cons v ws =>
      rw [List.intercalate_cons_cons, List.append_assoc, List.mem_append, List.mem_append] at h
      rcases h with h | h | h
      · exact .inr ⟨w, List.mem_cons_self, h⟩
      · exact .inl h
      · rcases ih h with hsep | ⟨u, hu, hy⟩
        · exact .inl hsep
        · exact .inr ⟨u, List.mem_cons_of_mem w hu, hy⟩

lemma words_intercalate {sep : List α} (hne : sep ≠ []) (hsep : ∀ x ∈ sep, p x = true)
    {ws : List (List α)} (hws : ∀ w ∈ ws, IsWord p w) : words p (sep.intercalate ws) = ws := by
  induction ws with
  | nil => simp
  | cons w ws ih =>
    have hw := hws w List.mem_cons_self
    have hrest := ih fun v hv => hws v (List.mem_cons_of_mem w hv)
    cases ws with
    | nil => simpa using words_eq_singleton hw
    | cons v ws =>
      obtain ⟨x, blank, rfl⟩ := List.exists_cons_of_ne_nil hne
      rw [List.intercalate_cons_cons, List.append_assoc, List.cons_append,
        words_append_word hw _ (hsep x List.mem_cons_self),
        words_append_of_blank fun y hy => hsep y (List.mem_cons_of_mem x hy), hrest]

lemma length_intercalate_le (sep : List α) {ws : List (List α)} {n : ℕ}
    (hws : ∀ w ∈ ws, w.length ≤ n) :
    (sep.intercalate ws).length ≤ ws.length * (n + sep.length) := by
  induction ws with
  | nil => simp
  | cons w ws ih =>
    have hw := hws w List.mem_cons_self
    have hrest := ih fun v hv => hws v (List.mem_cons_of_mem w hv)
    cases ws with
    | nil =>
      rw [List.intercalate_singleton, List.length_singleton]
      omega
    | cons v ws =>
      rw [List.intercalate_cons_cons, List.length_append, List.length_append, List.length_cons,
        Nat.succ_mul]
      omega

end Eece315.Words
