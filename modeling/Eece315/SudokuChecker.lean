import Mathlib
import Eece315.ForkJoin
import Eece315.SudokuGrid

/-! The sudoku checker. The rows, columns and blocks of the grid are dealt to nine structures,
three for each kind, and a thread looks through each; the main thread joins them and merges their
verdicts. In every order of the threads' steps the checker returns, and its answer is whether
the grid is free of conflicts. -/
namespace Eece315.Sudoku

open ForkJoin

abbrev SUDOKU_DEPTH : ℕ := 9
abbrev NUM_ROW_THREADS : ℕ := 3
abbrev NUM_COL_THREADS : ℕ := 3
abbrev NUM_BLOCK_THREADS : ℕ := 3

structure NumberArray where
  elements : List (List ℤ)
  isValid : ℤ
  isTested : ℤ
  deriving DecidableEq, Repr

def NumberArray.arrayCount (a : NumberArray) : ℕ := a.elements.length

/-- `elements[array_count++] = copy`. -/
def NumberArray.add (a : NumberArray) (copy : List ℤ) : NumberArray :=
  { a with elements := a.elements ++ [copy] }

inductive Thread
  | row (i : Fin NUM_ROW_THREADS)
  | column (i : Fin NUM_COL_THREADS)
  | block (i : Fin NUM_BLOCK_THREADS)
  deriving DecidableEq, Repr

def initializeArrays : Thread → NumberArray := fun _ => ⟨[], 1, 0⟩

/-- The units with number `i` go to the structures under the cursors. -/
def allocate (sudokuarray : Grid) (arrays : Thread → NumberArray) (i : Fin 9) :
    Thread → NumberArray :=
  let rowCursor : Fin NUM_ROW_THREADS := ⟨i % NUM_ROW_THREADS, Nat.mod_lt _ (by decide)⟩
  let colCursor : Fin NUM_COL_THREADS := ⟨i % NUM_COL_THREADS, Nat.mod_lt _ (by decide)⟩
  let blockCursor : Fin NUM_BLOCK_THREADS := ⟨i % NUM_BLOCK_THREADS, Nat.mod_lt _ (by decide)⟩
  fun
  | .row j => if j = rowCursor then (arrays (.row j)).add (copyOfRow sudokuarray i)
      else arrays (.row j)
  | .column j => if j = colCursor then (arrays (.column j)).add (copyOfColumn sudokuarray i)
      else arrays (.column j)
  | .block j => if j = blockCursor then (arrays (.block j)).add (copyOfBlock sudokuarray i)
      else arrays (.block j)

def allocated (sudokuarray : Grid) : Thread → NumberArray :=
  (List.finRange 9).foldl (allocate sudokuarray) initializeArrays

/-- Where a thread is in `isValid`: at the head of the outer loop, at the head of the inner loop
over a unit, behind the inner loop, or at the end. A number outside the table of numbers found
is where the thread goes wrong. -/
inductive Worker
  | outer (i : ℕ) (a : NumberArray)
  | inner (i : ℕ) (unit : List ℤ) (j : ℕ) (numbersFound : Fin SUDOKU_DEPTH → ℤ) (a : NumberArray)
  | behind (i : ℕ) (a : NumberArray)
  | finished (a : NumberArray)
  | outside (index : ℤ) (a : NumberArray)

def Worker.testNumberArray : Worker → NumberArray
  | .outer _ a | .inner _ _ _ _ a | .behind _ a | .finished a | .outside _ a => a

/-- The inner loop looks at an element. -/
def lookAt (i : ℕ) (unit : List ℤ) (j : ℕ) (numbersFound : Fin SUDOKU_DEPTH → ℤ) (a : NumberArray)
    (element : ℤ) : Worker :=
  if element = 0 then .inner i unit (j + 1) numbersFound a
  else if h : 0 ≤ element - 1 ∧ element - 1 < SUDOKU_DEPTH then
    let index : Fin SUDOKU_DEPTH := ⟨(element - 1).toNat, by omega⟩
    if numbersFound index = 1 ∧ element ≥ 1 ∧ element ≤ 9 then .behind i { a with isValid := 0 }
    else .inner i unit (j + 1) (Function.update numbersFound index 1) a
  else .outside (element - 1) a

def Worker.next : Worker → Option Worker
  | .outer i a => match a.elements[i]? with
    | some unit => some (.inner i unit 0 (fun _ => 0) a)
    | none => some (.finished { a with isTested := 1 })
  | .inner i unit j numbersFound a =>
    if j < SUDOKU_DEPTH then
      match unit[j]? with
      | some element => some (lookAt i unit j numbersFound a element)
      | none => some (.outside j a)
    else some (.behind i a)
  | .behind i a =>
    if a.isValid = 0 then some (.finished { a with isTested := 1 }) else some (.outer (i + 1) a)
  | .finished _ => none
  | .outside _ _ => none

def Worker.ended : Worker → Bool
  | .finished _ => true
  | _ => false

/-- What the threads run. -/
def isValid : Code Worker where
  next := Worker.next
  ended := Worker.ended
  next_of_ended w h := by
    cases w with
    | finished a => rfl
    | _ => cases h

def max (num1 num2 : ℕ) : ℕ := if num1 ≥ num2 then num1 else num2

def maxThreads : ℕ := max (max NUM_ROW_THREADS NUM_COL_THREADS) NUM_BLOCK_THREADS

def threads : List Thread := (List.range maxThreads).flatMap fun i =>
  (if h : i < NUM_ROW_THREADS then [.row ⟨i, h⟩] else []) ++
  (if h : i < NUM_COL_THREADS then [.column ⟨i, h⟩] else []) ++
  (if h : i < NUM_BLOCK_THREADS then [.block ⟨i, h⟩] else [])

/-- The main thread creates all the threads and joins them. -/
def calls : List (Call Thread) := threads.map .create ++ threads.map .join

/-- The merge of the verdicts, which waits for a structure that is not tested. -/
def merge : List NumberArray → Option ℤ
  | [] => some 1
  | a :: arrays =>
    if a.isTested = 0 then none
    else if a.isValid = 0 then some 0
    else merge arrays

/-- The steps of a test up to some moment. -/
def testRun (arrays : Thread → NumberArray) (schedule : List (Event Thread)) :
    Option (Config Thread Worker) :=
  run isValid calls (fun t => .outer 0 (arrays t)) schedule

/-- The result, if the schedule takes the test to its end. -/
def testNumberArrays (arrays : Thread → NumberArray) (schedule : List (Event Thread)) :
    Option ℤ := do
  let c ← testRun arrays schedule
  match c.pending with
  | [] => merge (threads.map fun t => (c.state t).testNumberArray)
  | _ :: _ => none

def testSudokuString (sudokustring : List ℤ) (schedule : List (Event Thread)) : Option ℤ :=
  if sudokustring.length ≠ 81 then some (-1)
  else testNumberArrays (allocated (decodeSudokuString sudokustring)) schedule

structure Seen (unit : List ℤ) (j : ℕ) (numbersFound : Fin SUDOKU_DEPTH → ℤ) : Prop where
  found : ∀ d, numbersFound d = 1 ↔ (d.val : ℤ) + 1 ∈ unit.take j
  unrepeated : Unrepeated (unit.take j)

section InnerLoop

variable {unit : List ℤ} {j : ℕ} {numbersFound : Fin SUDOKU_DEPTH → ℤ} {element : ℤ}
  {d : Fin SUDOKU_DEPTH}

lemma seen_zero (unit : List ℤ) : Seen unit 0 fun _ => 0 :=
  ⟨by simp, by simp [Unrepeated]⟩

lemma Seen.blank (h : Seen unit j numbersFound) (hj : unit[j]? = some 0) :
    Seen unit (j + 1) numbersFound := by
  refine ⟨fun d => ?_, ?_⟩
  · rw [h.found, List.take_add_one, hj]
    simp
    omega
  · rw [List.take_add_one, hj, Option.toList_some, unrepeated_append_singleton]
    exact ⟨h.unrepeated, fun _ _ ha => ha⟩

lemma Seen.fresh (h : Seen unit j numbersFound) (hj : unit[j]? = some ((d.val : ℤ) + 1))
    (hd : numbersFound d ≠ 1) : Seen unit (j + 1) (Function.update numbersFound d 1) := by
  have hnew : (d.val : ℤ) + 1 ∉ unit.take j := fun hmem => hd ((h.found d).mpr hmem)
  refine ⟨fun d' => ?_, ?_⟩
  · rw [List.take_add_one, hj, Option.toList_some, List.mem_append, List.mem_singleton]
    by_cases hd' : d' = d
    · simp [hd']
    · have hval : d'.val ≠ d.val := fun hval => hd' (Fin.ext hval)
      rw [Function.update_of_ne hd', h.found]
      simp [hval]
  · rw [List.take_add_one, hj, Option.toList_some, unrepeated_append_singleton]
    refine ⟨h.unrepeated, fun a ha heq => ?_⟩
    exact absurd (heq ▸ ha) hnew

lemma Seen.repeated (h : Seen unit j numbersFound) (hj : unit[j]? = some ((d.val : ℤ) + 1))
    (hd : numbersFound d = 1) : ¬ Unrepeated unit := by
  intro hunit
  have hprefix : Unrepeated (unit.take (j + 1)) := hunit.sublist (List.take_sublist _ _)
  rw [List.take_add_one, hj, Option.toList_some, unrepeated_append_singleton] at hprefix
  have hzero := hprefix.2 _ ((h.found d).mp hd) rfl
  omega

end InnerLoop

/-- Nine elements that are blank or a digit. -/
def DigitUnit (unit : List ℤ) : Prop :=
  unit.length = SUDOKU_DEPTH ∧ ∀ element ∈ unit, 0 ≤ element ∧ element ≤ 9

/-- A unit holds a number that is no digit, and nothing is repeated before it. -/
def Reached (units : List (List ℤ)) : Prop :=
  ∃ i unit j element, units[i]? = some unit ∧ unit[j]? = some element ∧
    (element < 0 ∨ 9 < element) ∧ (∀ u ∈ units.take i, Unrepeated u) ∧ Unrepeated (unit.take j)

/-- What a thread knows about the units of its structure. -/
def Sound (units : List (List ℤ)) : Worker → Prop
  | .outer i a => a = ⟨units, 1, 0⟩ ∧ ∀ u ∈ units.take i, Unrepeated u
  | .inner i unit j numbersFound a => a = ⟨units, 1, 0⟩ ∧ units[i]? = some unit ∧
    (∀ u ∈ units.take i, Unrepeated u) ∧ Seen unit j numbersFound
  | .behind i a => a = ⟨units, 1, 0⟩ ∧ (∀ u ∈ units.take (i + 1), Unrepeated u) ∨
    a = ⟨units, 0, 0⟩ ∧ ¬ ∀ u ∈ units, Unrepeated u
  | .finished a => a = ⟨units, 1, 1⟩ ∧ (∀ u ∈ units, Unrepeated u) ∨
    a = ⟨units, 0, 1⟩ ∧ ¬ ∀ u ∈ units, Unrepeated u
  | .outside _ _ => False

section Threads

variable {units : List (List ℤ)} {unit : List ℤ} {i j : ℕ} {w w' : Worker}
  {numbersFound : Fin SUDOKU_DEPTH → ℤ} {element : ℤ}

lemma lookAt_blank (a : NumberArray) :
    lookAt i unit j numbersFound a 0 = .inner i unit (j + 1) numbersFound a := if_pos rfl

lemma lookAt_digit (a : NumberArray) (d : Fin SUDOKU_DEPTH) :
    lookAt i unit j numbersFound a (d.val + 1) =
      if numbersFound d = 1 then .behind i { a with isValid := 0 }
      else .inner i unit (j + 1) (Function.update numbersFound d 1) a := by
  have hd : d.val < 9 := d.isLt
  have hzero : (d.val : ℤ) + 1 ≠ 0 := by omega
  have hindex : 0 ≤ (d.val : ℤ) + 1 - 1 ∧ (d.val : ℤ) + 1 - 1 < SUDOKU_DEPTH := by
    push_cast
    omega
  have hrange : (d.val : ℤ) + 1 ≥ 1 ∧ (d.val : ℤ) + 1 ≤ 9 := by omega
  have heq : (⟨((d.val : ℤ) + 1 - 1).toNat, by omega⟩ : Fin SUDOKU_DEPTH) = d :=
    Fin.ext (by simp)
  simp only [lookAt, hzero, hindex, hrange, heq, if_false, dite_true, and_self, and_true]

lemma lookAt_outside (a : NumberArray) (hzero : element ≠ 0)
    (h : ¬ (0 ≤ element - 1 ∧ element - 1 < SUDOKU_DEPTH)) :
    lookAt i unit j numbersFound a element = .outside (element - 1) a := by
  simp only [lookAt, hzero, h, if_false, dite_false]

lemma element_cases (element : ℤ) : element = 0 ∨ (∃ d : Fin SUDOKU_DEPTH, element = d.val + 1) ∨
    element ≠ 0 ∧ ¬ (0 ≤ element - 1 ∧ element - 1 < SUDOKU_DEPTH) := by
  by_cases hzero : element = 0
  · exact .inl hzero
  · by_cases h : 0 ≤ element - 1 ∧ element - 1 < SUDOKU_DEPTH
    · refine .inr (.inl ⟨⟨(element - 1).toNat, by omega⟩, ?_⟩)
      simp only
      omega
    · exact .inr (.inr ⟨hzero, h⟩)

lemma sound_lookAt (hunit : units[i]? = some unit) (hbefore : ∀ u ∈ units.take i, Unrepeated u)
    (hseen : Seen unit j numbersFound) (hj : unit[j]? = some element) :
    Sound units (lookAt i unit j numbersFound ⟨units, 1, 0⟩ element) ∨ Reached units := by
  rcases element_cases element with rfl | ⟨d, rfl⟩ | ⟨hzero, hnone⟩
  · rw [lookAt_blank]
    exact .inl ⟨rfl, hunit, hbefore, hseen.blank hj⟩
  · rw [lookAt_digit]
    left
    split_ifs with hfound
    · exact Or.inr ⟨rfl, fun hall =>
        hseen.repeated hj hfound (hall unit (List.mem_of_getElem? hunit))⟩
    · exact ⟨rfl, hunit, hbefore, hseen.fresh hj hfound⟩
  · push_cast at hnone
    exact .inr ⟨i, unit, j, element, hunit, hj, by omega, hbefore, hseen.unrepeated⟩

lemma sound_next (hunits : ∀ u ∈ units, u.length = SUDOKU_DEPTH) (h : Sound units w)
    (hnext : w.next = some w') : Sound units w' ∨ Reached units := by
  cases w with
  | outer i a =>
    obtain ⟨rfl, hbefore⟩ := h
    simp only [Worker.next] at hnext
    left
    split at hnext
    · rename_i unit hunit
      cases hnext
      exact ⟨rfl, hunit, hbefore, seen_zero unit⟩
    · rename_i hnone
      cases hnext
      rw [List.take_of_length_le (List.getElem?_eq_none_iff.mp hnone)] at hbefore
      exact .inl ⟨rfl, hbefore⟩
  | inner i unit j numbersFound a =>
    obtain ⟨rfl, hunit, hbefore, hseen⟩ := h
    have hnine := hunits unit (List.mem_of_getElem? hunit)
    simp only [Worker.next] at hnext
    split_ifs at hnext with hj
    · split at hnext
      · rename_i element helement
        cases hnext
        exact sound_lookAt hunit hbefore hseen helement
      · rename_i hnone
        have hlength := List.getElem?_eq_none_iff.mp hnone
        omega
    · cases hnext
      refine .inl (Or.inl ⟨rfl, fun u hu => ?_⟩)
      rw [List.take_add_one, hunit, Option.toList_some, List.mem_append, List.mem_singleton] at hu
      rcases hu with hu | rfl
      · exact hbefore u hu
      · have hall := hseen.unrepeated
        rwa [List.take_of_length_le (by omega)] at hall
  | behind i a =>
    left
    rcases h with ⟨rfl, hbefore⟩ | ⟨rfl, hrepeated⟩
    · cases hnext
      exact ⟨rfl, hbefore⟩
    · cases hnext
      exact Or.inr ⟨rfl, hrepeated⟩
  | finished a => cases hnext
  | outside index a => cases hnext

lemma not_reached_of_digits (hunits : ∀ u ∈ units, DigitUnit u) : ¬ Reached units := by
  rintro ⟨i, unit, j, element, hunit, hj, hnone, -⟩
  have hdigit := (hunits unit (List.mem_of_getElem? hunit)).2 element (List.mem_of_getElem? hj)
  omega

def Worker.size : Worker → ℕ
  | .outer i a => (a.arrayCount - i) * 12 + 1
  | .inner i _ j _ a => (a.arrayCount - (i + 1)) * 12 + (9 - j + 3)
  | .behind i a => (a.arrayCount - (i + 1)) * 12 + 2
  | .finished _ => 0
  | .outside _ _ => 0

lemma size_lookAt (a : NumberArray) (hj : j < SUDOKU_DEPTH) (element : ℤ) :
    (lookAt i unit j numbersFound a element).size <
      (Worker.inner i unit j numbersFound a).size := by
  have hj' : j < 9 := hj
  rcases element_cases element with rfl | ⟨d, rfl⟩ | ⟨hzero, hnone⟩
  · rw [lookAt_blank]
    simp only [Worker.size]
    omega
  · rw [lookAt_digit]
    split_ifs <;> simp only [Worker.size, NumberArray.arrayCount] <;> omega
  · rw [lookAt_outside a hzero hnone]
    simp only [Worker.size]
    omega

lemma size_next (hnext : w.next = some w') : w'.size < w.size := by
  cases w with
  | outer i a =>
    simp only [Worker.next] at hnext
    split at hnext
    · rename_i unit hunit
      cases hnext
      have hi := (List.getElem?_eq_some_iff.mp hunit).1
      simp only [Worker.size, NumberArray.arrayCount]
      omega
    · cases hnext
      simp [Worker.size]
  | inner i unit j numbersFound a =>
    simp only [Worker.next] at hnext
    split_ifs at hnext with hj
    · split at hnext
      · cases hnext
        exact size_lookAt a hj _
      · cases hnext
        simp only [Worker.size]
        omega
    · cases hnext
      simp only [Worker.size]
      omega
  | behind i a =>
    simp only [Worker.next] at hnext
    split_ifs at hnext
    · cases hnext
      simp [Worker.size]
    · cases hnext
      simp only [Worker.size, NumberArray.arrayCount]
      omega
  | finished a => cases hnext
  | outside index a => cases hnext

lemma live_of_sound (h : Sound units w) : w.ended ∨ ∃ w', w.next = some w' := by
  cases w with
  | outer i a =>
    simp only [Worker.next]
    split <;> simp
  | inner i unit j numbersFound a =>
    simp only [Worker.next]
    split_ifs
    · split <;> simp
    · simp
  | behind i a =>
    simp only [Worker.next]
    split_ifs <;> simp
  | finished a => exact .inl rfl
  | outside index a => exact h.elim

end Threads

def dealt (copy : Fin 9 → List ℤ) (cursor : Fin 3) : List (List ℤ) :=
  [copy ⟨cursor, by omega⟩, copy ⟨cursor + 3, by omega⟩, copy ⟨cursor + 6, by omega⟩]

def unitsOf (sudokuarray : Grid) : Thread → List (List ℤ)
  | .row i => dealt (copyOfRow sudokuarray) i
  | .column i => dealt (copyOfColumn sudokuarray) i
  | .block i => dealt (copyOfBlock sudokuarray) i

lemma allocated_eq (g : Grid) (t : Thread) : allocated g t = ⟨unitsOf g t, 1, 0⟩ := by
  rcases t with i | i | i <;> fin_cases i <;> rfl

lemma forall_dealt {copy : Fin 9 → List ℤ} {P : List ℤ → Prop} :
    (∀ cursor, ∀ u ∈ dealt copy cursor, P u) ↔ ∀ i, P (copy i) := by
  constructor
  · intro h i
    refine h ⟨i.val % 3, by omega⟩ (copy i) ?_
    fin_cases i <;> simp [dealt]
  · intro h cursor u hu
    simp only [dealt, List.mem_cons, List.not_mem_nil, or_false] at hu
    rcases hu with rfl | rfl | rfl
    exacts [h _, h _, h _]

lemma forall_unitsOf {g : Grid} {P : List ℤ → Prop} : (∀ t, ∀ u ∈ unitsOf g t, P u) ↔
    ∀ i, P (copyOfRow g i) ∧ P (copyOfColumn g i) ∧ P (copyOfBlock g i) := by
  rw [forall_and, forall_and, ← forall_dealt, ← forall_dealt, ← forall_dealt]
  constructor
  · exact fun h => ⟨fun i => h (.row i), fun i => h (.column i), fun i => h (.block i)⟩
  · rintro ⟨hrow, hcolumn, hblock⟩ (i | i | i)
    exacts [hrow i, hcolumn i, hblock i]

lemma digitUnit_unitsOf {g : Grid} (hg : Digits g) : ∀ t, ∀ u ∈ unitsOf g t, DigitUnit u := by
  refine forall_unitsOf.mpr fun i => ⟨⟨rfl, ?_⟩, ⟨rfl, ?_⟩, ⟨rfl, ?_⟩⟩
  · simpa [copyOfRow] using fun j => hg i j
  · simpa [copyOfColumn] using fun j => hg j i
  · rw [copyOfBlock_eq]
    intro element helement
    obtain ⟨k, rfl⟩ := List.mem_ofFn.mp helement
    exact hg _ _

lemma length_unitsOf (g : Grid) : ∀ t, ∀ u ∈ unitsOf g t, u.length = SUDOKU_DEPTH :=
  forall_unitsOf.mpr fun _ => ⟨rfl, rfl, rfl⟩

lemma mem_threads (t : Thread) : t ∈ threads := by
  rcases t with i | i | i <;> fin_cases i <;> decide

instance : Fintype Thread := ⟨threads.toFinset, fun t => by simpa using mem_threads t⟩

lemma merge_of_valid {arrays : List NumberArray}
    (h : ∀ a ∈ arrays, a.isTested ≠ 0 ∧ a.isValid ≠ 0) : merge arrays = some 1 := by
  induction arrays with
  | nil => rfl
  | cons a arrays ih =>
    obtain ⟨htested, hvalid⟩ := h a List.mem_cons_self
    rw [merge, if_neg htested, if_neg hvalid]
    exact ih fun b hb => h b (List.mem_cons_of_mem a hb)

lemma merge_of_invalid {arrays : List NumberArray} (htested : ∀ a ∈ arrays, a.isTested ≠ 0)
    (h : ∃ a ∈ arrays, a.isValid = 0) : merge arrays = some 0 := by
  induction arrays with
  | nil => simp at h
  | cons a arrays ih =>
    rw [merge, if_neg (htested a List.mem_cons_self)]
    split_ifs with hvalid
    · rfl
    · apply ih fun b hb => htested b (List.mem_cons_of_mem a hb)
      obtain ⟨b, hb, hzero⟩ := h
      rcases List.mem_cons.mp hb with rfl | hb
      · exact absurd hzero hvalid
      · exact ⟨b, hb, hzero⟩

section Runs

variable {g : Grid} {schedule : List (Event Thread)} {c : Config Thread Worker}

lemma sound_start (g : Grid) (t : Thread) : Sound (unitsOf g t) (.outer 0 (allocated g t)) :=
  ⟨allocated_eq g t, by simp⟩

lemma sound_or_reached_run (h : testRun (allocated g) schedule = some c) :
    ∀ t, Sound (unitsOf g t) (c.state t) ∨ Reached (unitsOf g t) := by
  apply inv_run (fun t w => Sound (unitsOf g t) w ∨ Reached (unitsOf g t))
    (fun t => .inl (sound_start g t)) ?_ h
  intro t w w' hw hnext
  rcases hw with hw | hreached
  · exact sound_next (length_unitsOf g t) hw hnext
  · exact .inr hreached

lemma sound_run (hg : Digits g) (h : testRun (allocated g) schedule = some c) (t : Thread) :
    Sound (unitsOf g t) (c.state t) :=
  (sound_or_reached_run h t).resolve_right (not_reached_of_digits (digitUnit_unitsOf hg t))

lemma progress_test (hg : Digits g) (h : testRun (allocated g) schedule = some c)
    (hpending : c.pending ≠ []) : ∃ e d, step isValid c e = some d :=
  progress (paired_creates fun _ ht => .inr ht)
    (fun t => live_of_sound (sound_run hg h t)) h hpending

lemma length_test (h : testRun (allocated g) schedule = some c) : schedule.length ≤ 351 := by
  have hlength := length_run (fun _ _ => size_next) h
  have hcalls : calls.length = 18 := rfl
  have hsize : ∑ t, (Worker.outer 0 (allocated g t)).size = 333 := by
    have hthread : ∀ t, (Worker.outer 0 (allocated g t)).size = 37 := by
      intro t
      rw [allocated_eq]
      rcases t with i | i | i <;> rfl
    rw [Finset.sum_congr rfl fun t _ => hthread t]
    rfl
  omega

lemma tested (hg : Digits g) (h : testRun (allocated g) schedule = some c)
    (hpending : c.pending = []) (t : Thread) :
    (c.state t).testNumberArray.isTested ≠ 0 ∧
      ((c.state t).testNumberArray.isValid = 0 ↔ ¬ ∀ u ∈ unitsOf g t, Unrepeated u) := by
  have hjoin : Call.join t ∈ calls := by simp [calls, mem_threads t]
  have hsound := sound_run hg h t
  rcases joined_run h t hjoin with hmem | hended
  · simp [hpending] at hmem
  · cases hstate : c.state t with
    | finished a =>
      rw [hstate] at hsound
      rcases hsound with ⟨rfl, hall⟩ | ⟨rfl, hsome⟩
      · exact ⟨one_ne_zero, by simpa [Worker.testNumberArray] using hall⟩
      · exact ⟨one_ne_zero, by simpa [Worker.testNumberArray] using hsome⟩
    | _ =>
      rw [hstate] at hended
      cases hended

lemma result_test (hg : Digits g) (h : testRun (allocated g) schedule = some c)
    (hpending : c.pending = []) :
    testNumberArrays (allocated g) schedule = some 1 ∧ ConflictFree g ∨
      testNumberArrays (allocated g) schedule = some 0 ∧ ¬ ConflictFree g := by
  have hresult : testNumberArrays (allocated g) schedule =
      merge (threads.map fun t => (c.state t).testNumberArray) := by
    simp [testNumberArrays, h, hpending]
  have htested := tested hg h hpending
  rw [hresult, conflictFree_iff_unrepeated hg, ← forall_unitsOf]
  by_cases hall : ∀ t, ∀ u ∈ unitsOf g t, Unrepeated u
  · refine .inl ⟨merge_of_valid fun a ha => ?_, hall⟩
    obtain ⟨t, -, rfl⟩ := List.mem_map.mp ha
    exact ⟨(htested t).1, fun hzero => (htested t).2.mp hzero (hall t)⟩
  · refine .inr ⟨merge_of_invalid (fun a ha => ?_) ?_, hall⟩
    · obtain ⟨t, -, rfl⟩ := List.mem_map.mp ha
      exact (htested t).1
    · obtain ⟨t, ht⟩ := not_forall.mp hall
      exact ⟨_, List.mem_map_of_mem (mem_threads t), (htested t).2.mpr ht⟩

lemma digits_decode {s : List ℤ} (hlength : s.length = 81)
    (hdigits : ∀ ch ∈ s, 0x30 ≤ ch ∧ ch ≤ 0x39) : Digits (decodeSudokuString s) := by
  intro i j
  have hi := i.isLt
  have hj := j.isLt
  have hlt : i.val * 9 + j.val < s.length := by omega
  have hch := hdigits _ (List.getElem_mem hlt)
  simp only [decodeSudokuString, List.getD_eq_getElem?_getD, List.getElem?_eq_getElem hlt,
    Option.getD_some]
  omega

lemma getElem?_decode {s : List ℤ} (hlength : s.length = 81) (i j : Fin 9) :
    s[i.val * 9 + j.val]? = some (decodeSudokuString s i j + 0x30) := by
  have hi := i.isLt
  have hj := j.isLt
  have hlt : i.val * 9 + j.val < s.length := by omega
  simp only [decodeSudokuString, List.getD_eq_getElem?_getD, List.getElem?_eq_getElem hlt,
    Option.getD_some, sub_add_cancel]

/-- On 81 digits, in every order of the steps, the test comes to its end and its result is whether
the grid that has the digits row by row is free of conflicts. -/
theorem testSudokuString_exact {s : List ℤ} (hlength : s.length = 81)
    (hdigits : ∀ ch ∈ s, 0x30 ≤ ch ∧ ch ≤ 0x39)
    (h : testRun (allocated (decodeSudokuString s)) schedule = some c) :
    (∀ i j : Fin 9, s[i.val * 9 + j.val]? = some (decodeSudokuString s i j + 0x30)) ∧
    schedule.length ≤ 351 ∧
    (c.pending ≠ [] → ∃ e d, step isValid c e = some d) ∧
    (c.pending = [] →
      testSudokuString s schedule = some 1 ∧ ConflictFree (decodeSudokuString s) ∨
      testSudokuString s schedule = some 0 ∧ ¬ ConflictFree (decodeSudokuString s)) := by
  have hg := digits_decode hlength hdigits
  refine ⟨getElem?_decode hlength, length_test h, progress_test hg h, fun hpending => ?_⟩
  have hstring : testSudokuString s schedule =
      testNumberArrays (allocated (decodeSudokuString s)) schedule := by
    simp [testSudokuString, hlength]
  rw [hstring]
  exact result_test hg h hpending

/-- The grid that `main` tests as an incorrect one, all threads run to their ends. -/
theorem testSudokuString_exact_demo :
    let s := [1, 0, 3, 5, 6, 7, 8, 9, 4, 4, 5, 6, 1, 8, 9, 2, 3, 7, 7, 8, 9, 2, 3, 4, 1, 5, 6,
      2, 1, 4, 3, 5, 6, 7, 8, 9, 3, 6, 5, 7, 9, 8, 4, 1, 2, 8, 9, 7, 4, 1, 2, 3, 6, 5,
      5, 3, 2, 6, 4, 1, 9, 7, 8, 6, 4, 8, 9, 7, 3, 5, 2, 1, 9, 7, 7, 8, 9, 5, 6, 4, 3].map
        fun d : ℤ => d + 0x30
    let schedule := List.replicate 9 .main ++
      (List.zipWith (fun t n => List.replicate n (.thread t)) threads
        [37, 37, 35, 37, 23, 34, 29, 11, 37]).flatten ++ List.replicate 9 .main
    testSudokuString s schedule = some 0 ∧ ¬ ConflictFree (decodeSudokuString s) := by
  intro s schedule
  have hrun : (testRun (allocated (decodeSudokuString s)) schedule).map Config.pending =
      some [] := by
    decide +kernel
  obtain ⟨c, hc, hpending⟩ := Option.map_eq_some_iff.mp hrun
  have hexact := testSudokuString_exact (s := s) (by decide) (by decide +kernel) hc
  rcases hexact.2.2.2 hpending with ⟨-, hfree⟩ | hconflict
  · exact absurd ⟨by decide, by decide⟩
      (hfree (8, 1) (8, 2) (by decide) (by decide) 7 (by decide) (by decide))
  · exact hconflict

end Runs

end Eece315.Sudoku
