import Eece315.Words

/-! Decimal integers in a text and the readers of the C library for them: `scanf` with `%d`, and
`atoi`. A value that no `long` has is replaced by the nearest one, and its low 32 bits are kept. -/
namespace Eece315.Numerals
open Words

/-- `isspace` in the C locale. -/
def isSpace (c : Char) : Bool := c ∈ [' ', '\t', '\n', '\x0b', '\x0c', '\r']

/-- A decimal integer and its value: at least one digit, with or without a sign. -/
inductive Numeral : List Char → ℤ → Prop
  | unsigned {ds : List Char} (hne : ds ≠ []) (hds : ∀ c ∈ ds, c.isDigit) :
      Numeral ds (Nat.ofDigitChars 10 ds 0)
  | plus {ds : List Char} (hne : ds ≠ []) (hds : ∀ c ∈ ds, c.isDigit) :
      Numeral ('+' :: ds) (Nat.ofDigitChars 10 ds 0)
  | minus {ds : List Char} (hne : ds ≠ []) (hds : ∀ c ∈ ds, c.isDigit) :
      Numeral ('-' :: ds) (-(Nat.ofDigitChars 10 ds 0 : ℤ))

/-- The digits in front and what is behind them. -/
def readDigits (s : List Char) : Option (ℤ × List Char) :=
  let ds := s.takeWhile Char.isDigit
  if ds = [] then none else some (Nat.ofDigitChars 10 ds 0, s.dropWhile Char.isDigit)

def readInteger : List Char → Option (ℤ × List Char)
  | '-' :: s => (readDigits s).map fun p => (-p.1, p.2)
  | '+' :: s => readDigits s
  | s => readDigits s

/-- The `int` that is stored for an integer. -/
def toInt32 (z : ℤ) : BitVec 32 := BitVec.ofInt 32 (max (-2 ^ 63) (min z (2 ^ 63 - 1)))

/-- One conversion `%d`: the `int` stored and the rest of the text. -/
def scan (s : List Char) : Option (BitVec 32 × List Char) :=
  (readInteger (s.dropWhile isSpace)).map fun p => (toInt32 p.1, p.2)

def atoi (s : List Char) : ℤ :=
  match scan s with
  | some (x, _) => x.toInt
  | none => 0

lemma toInt32_toInt (x : BitVec 32) : toInt32 x.toInt = x := by
  have hlow := BitVec.le_toInt x
  have hhigh := BitVec.toInt_lt (x := x)
  rw [toInt32, min_eq_left (by omega), max_eq_right (by omega), BitVec.ofInt_toInt]

lemma toInt_toInt32 {z : ℤ} (hlow : -2 ^ 31 ≤ z) (hhigh : z < 2 ^ 31) : (toInt32 z).toInt = z := by
  rw [toInt32, min_eq_left (by omega), max_eq_right (by omega)]
  exact BitVec.toInt_ofInt_eq_self (by decide) hlow hhigh

variable {ds w s rest : List Char} {z : ℤ}

lemma readDigits_append (hne : ds ≠ []) (hds : ∀ c ∈ ds, c.isDigit)
    (hrest : ∀ c ∈ rest.head?, c.isDigit = false) :
    readDigits (ds ++ rest) = some ((Nat.ofDigitChars 10 ds 0 : ℤ), rest) := by
  have htake : rest.takeWhile Char.isDigit = [] ∧ rest.dropWhile Char.isDigit = rest := by
    cases rest with
    | nil => exact ⟨rfl, rfl⟩
    | cons c rest =>
      have hc := hrest c rfl
      simp [hc]
  rw [readDigits, List.takeWhile_append_of_pos hds, List.dropWhile_append_of_pos hds, htake.1,
    htake.2, List.append_nil, if_neg hne]

lemma readInteger_of_ne (hminus : s.head? ≠ some '-') (hplus : s.head? ≠ some '+') :
    readInteger s = readDigits s := by
  unfold readInteger
  split
  · simp at hminus
  · simp at hplus
  · rfl

lemma readInteger_append (h : Numeral w z) (hrest : ∀ c ∈ rest.head?, c.isDigit = false) :
    readInteger (w ++ rest) = some (z, rest) := by
  cases h with
  | unsigned hne hds =>
    have hhead : ∀ c ∈ (w ++ rest).head?, c.isDigit = true := by
      intro c hc
      rw [List.head?_append_of_ne_nil w hne] at hc
      exact hds c (List.mem_of_mem_head? hc)
    rw [readInteger_of_ne, readDigits_append hne hds hrest]
    · intro he
      exact absurd (hhead _ he) (by decide)
    · intro he
      exact absurd (hhead _ he) (by decide)
  | plus hne hds => rw [List.cons_append, readInteger, readDigits_append hne hds hrest]
  | minus hne hds =>
    rw [List.cons_append, readInteger, readDigits_append hne hds hrest]
    rfl

lemma scan_of_words_eq_nil (h : words isSpace s = []) : scan s = none := by
  have hall := words_eq_nil_iff.mp h
  have hdrop : s.dropWhile isSpace = [] := by
    rw [List.dropWhile_eq_nil_iff]
    exact hall
  rw [scan, hdrop]
  rfl

lemma scan_of_words {ws : List (List Char)} (h : words isSpace s = w :: ws) (hw : Numeral w z) :
    ∃ rest, scan s = some (toInt32 z, rest) ∧ words isSpace rest = ws := by
  obtain ⟨rest, hs, hrest, hhead⟩ := words_eq_cons h
  refine ⟨rest, ?_, hrest⟩
  have hnot : ∀ c ∈ rest.head?, c.isDigit = false := by
    intro c hc
    have hspace := hhead c hc
    simp only [isSpace, List.mem_cons, List.not_mem_nil, or_false, decide_eq_true_eq] at hspace
    rcases hspace with rfl | rfl | rfl | rfl | rfl | rfl <;> rfl
  rw [scan, hs, readInteger_append hw hnot]
  rfl

lemma isDigit_toDigits {n : ℕ} {c : Char} (hc : c ∈ Nat.toDigits 10 n) : c.isDigit :=
  Nat.isDigit_of_mem_toDigits (Nat.succ_pos 9) le_rfl hc

lemma isWord_toDigits (n : ℕ) : IsWord isSpace (Nat.toDigits 10 n) := by
  refine ⟨Nat.toDigits_ne_nil, fun c hc => ?_⟩
  by_contra hspace
  have hdigit := isDigit_toDigits hc
  simp only [isSpace, List.mem_cons, List.not_mem_nil, or_false, decide_eq_false_iff_not,
    not_not] at hspace
  rcases hspace with rfl | rfl | rfl | rfl | rfl | rfl <;> cases hdigit

lemma numeral_toDigits (n : ℕ) : Numeral (Nat.toDigits 10 n) n := by
  have hvalue := Numeral.unsigned Nat.toDigits_ne_nil fun c (hc : c ∈ Nat.toDigits 10 n) =>
    isDigit_toDigits hc
  rwa [Nat.ofDigitChars_ten_toDigits] at hvalue

lemma atoi_toDigits_append (n : ℕ) (hs : ∀ c ∈ s, isSpace c = true) :
    atoi (Nat.toDigits 10 n ++ s) = (toInt32 n).toInt := by
  have hwords : words isSpace (Nat.toDigits 10 n ++ s) = [Nat.toDigits 10 n] := by
    rw [words_append_blank _ hs, words_eq_singleton (isWord_toDigits n)]
  obtain ⟨rest, hscan, -⟩ := scan_of_words hwords (numeral_toDigits n)
  rw [atoi, hscan]

lemma atoi_toDigits {n : ℕ} (hn : n < 2 ^ 31) : atoi (Nat.toDigits 10 n) = n := by
  have hread := atoi_toDigits_append n (s := []) (by simp)
  rw [List.append_nil] at hread
  rw [hread]
  exact toInt_toInt32 (by omega) (by exact_mod_cast hn)

end Eece315.Numerals
