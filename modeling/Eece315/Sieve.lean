import Mathlib

/-! A sieve with a state: a list is gone through from front to back, a test that may change the
state takes some of its elements and leaves the others, and both parts keep the order they
had. -/
namespace Eece315.Sieve

variable {σ α : Type*}

/-- The elements that the test took, those it left, and the state behind the last one. -/
structure Sieved (σ α : Type*) where
  taken : List α
  left : List α
  state : σ

/-- `pick` tells of one element whether it is taken, and changes the state. -/
def sieve (pick : σ → α → Bool × σ) (s : σ) : List α → Sieved σ α
  | [] => ⟨[], [], s⟩
  | x :: xs =>
    let (take, s') := pick s x
    let r := sieve pick s' xs
    if take then { r with taken := x :: r.taken } else { r with left := x :: r.left }

variable {pick : σ → α → Bool × σ} {s : σ} {xs ys : List α} {x : α}

@[simp] lemma sieve_nil (pick : σ → α → Bool × σ) (s : σ) : sieve pick s [] = ⟨[], [], s⟩ := rfl

lemma sieve_cons (pick : σ → α → Bool × σ) (s : σ) (x : α) (xs : List α) :
    sieve pick s (x :: xs) =
      if (pick s x).1 then
        ⟨x :: (sieve pick (pick s x).2 xs).taken, (sieve pick (pick s x).2 xs).left,
          (sieve pick (pick s x).2 xs).state⟩
      else
        ⟨(sieve pick (pick s x).2 xs).taken, x :: (sieve pick (pick s x).2 xs).left,
          (sieve pick (pick s x).2 xs).state⟩ := rfl

theorem sieve_append (pick : σ → α → Bool × σ) (s : σ) (xs ys : List α) :
    sieve pick s (xs ++ ys) =
      ⟨(sieve pick s xs).taken ++ (sieve pick (sieve pick s xs).state ys).taken,
        (sieve pick s xs).left ++ (sieve pick (sieve pick s xs).state ys).left,
        (sieve pick (sieve pick s xs).state ys).state⟩ := by
  induction xs generalizing s with
  | nil => rfl
  | cons x xs ih =>
    rw [List.cons_append, sieve_cons, sieve_cons, ih]
    split_ifs <;> rfl

lemma sieve_append_of_taken (h : (pick (sieve pick s xs).state x).1 = true) :
    sieve pick s (xs ++ [x]) =
      ⟨(sieve pick s xs).taken ++ [x], (sieve pick s xs).left,
        (pick (sieve pick s xs).state x).2⟩ := by
  rw [sieve_append, sieve_cons, if_pos h]
  simp

lemma sieve_append_of_left (h : (pick (sieve pick s xs).state x).1 = false) :
    sieve pick s (xs ++ [x]) =
      ⟨(sieve pick s xs).taken, (sieve pick s xs).left ++ [x],
        (pick (sieve pick s xs).state x).2⟩ := by
  rw [sieve_append, sieve_cons, if_neg (by simp [h])]
  simp

theorem taken_sublist (pick : σ → α → Bool × σ) (s : σ) (xs : List α) :
    (sieve pick s xs).taken.Sublist xs := by
  induction xs generalizing s with
  | nil => exact .slnil
  | cons x xs ih =>
    rw [sieve_cons]
    split_ifs
    · exact (ih _).cons_cons x
    · exact (ih _).cons x

theorem left_sublist (pick : σ → α → Bool × σ) (s : σ) (xs : List α) :
    (sieve pick s xs).left.Sublist xs := by
  induction xs generalizing s with
  | nil => exact .slnil
  | cons x xs ih =>
    rw [sieve_cons]
    split_ifs
    · exact (ih _).cons x
    · exact (ih _).cons_cons x

theorem taken_append_left_perm (pick : σ → α → Bool × σ) (s : σ) (xs : List α) :
    ((sieve pick s xs).taken ++ (sieve pick s xs).left).Perm xs := by
  induction xs generalizing s with
  | nil => exact .nil
  | cons x xs ih =>
    rw [sieve_cons]
    split_ifs
    · exact (ih _).cons x
    · exact List.perm_middle.trans ((ih _).cons x)

lemma notMem_left_of_taken (hxs : xs.Nodup) (h : x ∈ (sieve pick s xs).taken) :
    x ∉ (sieve pick s xs).left := by
  have hboth := (taken_append_left_perm pick s xs).nodup_iff.mpr hxs
  intro hl
  exact (List.nodup_append.mp hboth).2.2 x h x hl rfl

theorem left_eq_filter [DecidableEq α] (hxs : xs.Nodup) :
    (sieve pick s xs).left = xs.filter (· ∉ (sieve pick s xs).taken) := by
  induction xs generalizing s with
  | nil => rfl
  | cons x xs ih =>
    obtain ⟨hx, hxs⟩ := List.nodup_cons.mp hxs
    have hnot : x ∉ (sieve pick (pick s x).2 xs).taken := fun h =>
      hx ((taken_sublist pick _ xs).subset h)
    rw [sieve_cons]
    split_ifs
    · rw [List.filter_cons_of_neg (by simp), ih hxs]
      apply List.filter_congr
      intro y hy
      have hne : y ≠ x := fun he => hx (he ▸ hy)
      simp [hne]
    · rw [List.filter_cons_of_pos (by simpa using hnot), ih hxs]

theorem mem_taken_iff (hxs : (xs ++ x :: ys).Nodup) :
    x ∈ (sieve pick s (xs ++ x :: ys)).taken ↔ (pick (sieve pick s xs).state x).1 = true := by
  have hx : x ∉ xs ∧ x ∉ ys := by
    rw [List.nodup_append, List.nodup_cons] at hxs
    exact ⟨fun h => hxs.2.2 x h x List.mem_cons_self rfl, hxs.2.1.1⟩
  have hbefore : x ∉ (sieve pick s xs).taken := fun h => hx.1 ((taken_sublist pick s xs).subset h)
  rw [sieve_append, List.mem_append, or_iff_right hbefore, sieve_cons]
  split_ifs with hp
  · exact iff_of_true List.mem_cons_self hp
  · exact iff_of_false (fun h => hx.2 ((taken_sublist pick _ ys).subset h)) hp

end Eece315.Sieve
