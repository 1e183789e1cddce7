import Eece315.DispatcherSystem
import Eece315.Lines
import Eece315.Numerals

/-! `readFile` on the text of its file. `fgets` cuts the text into pieces that fit into the buffer,
`strtok` splits a piece at commas and blanks, and the entries of the array that no token fills are
what `malloc` leaves there. The variable `line` is the buffer and also the result of `strtok`: when
it is null, `fgets` has nowhere to store a piece. -/
namespace Eece315.DispatcherFile
open Lines Words Numerals DispatcherSystem

def FILE_BUFFER : ℕ := 100

def isDelimiter (c : Char) : Bool := c ∈ [',', ' ']

def tokens (s : List Char) : List (List Char) := words isDelimiter s

/-- What `stringToInts` makes of the tokens: each of the first eight fills an entry. -/
def fill (leftover : Args) (ts : List (List Char)) : Args := fun i =>
  (ts[i.val]?.map atoi).getD (leftover i)

/-- With a null pointer `strtok` goes on where it found the end of a string, and finds nothing. -/
def stringToInts (leftover : Args) : Option (List Char) → Args
  | none => leftover
  | some string => fill leftover (tokens string)

/-- The call `strtok(line, "\n")`. The token begins where `line` does: a newline only stands at the
end of a piece. -/
def strtokNewline (line : List Char) : Option (List Char) := (words (· = '\n') line).head?

/-- The file behind the position of the stream, and the variables of `readFile`: `line` is the
string that the variable points to. The other fields are a record of the run: the line of the file
at the position, the line that the buffer was filled from, and for each process that was created
the line and the integers it was created from. -/
structure Reading where
  file : List Char
  line : Option (List Char)
  pid : ℕ
  system : System
  position : ℕ
  origin : ℕ
  log : List (ℕ × Args)

/-- `fgets`, with whether it finds anything. -/
def fgets (r : Reading) : Option (Bool × Reading) :=
  if r.file = [] then some (false, r)
  else if r.line = none then none
  else
    let piece := takeLine '\n' (FILE_BUFFER - 1) r.file
    some (true, { r with
      file := r.file.drop piece.length
      line := some (piece.takeWhile (· ≠ '\x00'))
      position := if '\n' ∈ piece then r.position + 1 else r.position
      origin := r.position })

/-- The body of the loop of `readFile`. -/
def readProcess (leftover : ℕ → Args) (r : Reading) : Option Reading := do
  let line := r.line.bind strtokNewline
  let args := stringToInts (leftover r.pid) line
  let system ← loadProcess r.pid args r.system
  return { r with
    line := line
    pid := r.pid + 1
    system := system
    log := r.log ++ [(r.origin, args)] }

/-- The loop of `readFile`, with at most `n` calls of `fgets`. -/
def readLoop (leftover : ℕ → Args) : ℕ → Reading → Option Reading
  | 0, _ => none
  | n + 1, r => do
    let (found, r) ← fgets r
    if found ∧ r.pid ≤ MAX_PROCESSES then
      let r ← readProcess leftover r
      readLoop leftover n r
    else return r

def startReading (text : List Char) (s : System) : Reading :=
  ⟨text, some [], 1, { s with globals := { s.globals with runtime := 0 } }, 0, 0, []⟩

/-- The first call of `readFile`. Each call of `fgets` but the last takes something from the
file. -/
def readFile (leftover : ℕ → Args) (text : List Char) (s : System) : Option Reading :=
  readLoop leftover (text.length + 1) (startReading text s)

/-- What a line or a piece of one holds, up to its newline or to a NUL. -/
def textOf (line : List Char) : List Char := line.takeWhile fun c => c ≠ '\n' ∧ c ≠ '\x00'

def argsOfLine (line : List Char) : Option Args :=
  let ts := tokens (textOf line)
  if 8 ≤ ts.length then some fun i => atoi (ts.getD i.val []) else none

/-- The lines with at least eight tokens, numbered from `k`, and their integers. -/
def processLines : ℕ → List (List Char) → List (ℕ × Args)
  | _, [] => []
  | k, line :: lines =>
    ((argsOfLine line).map fun args => (k, args)).toList ++ processLines (k + 1) lines

section Pieces

variable {line : List Char} {lines : List (List Char)} {text : List Char} {args leftover : Args}

lemma fill_eq (h : argsOfLine line = some args) : fill leftover (tokens (textOf line)) = args := by
  simp only [argsOfLine] at h
  split_ifs at h with hlen
  rw [← Option.some.inj h]
  funext i
  have hi : i.val < (tokens (textOf line)).length := lt_of_lt_of_le i.isLt hlen
  simp [fill, List.getElem?_eq_getElem hi]

lemma argsOfLine_of_fill (h : ∀ leftover, fill leftover (tokens (textOf line)) = args) :
    argsOfLine line = some args := by
  have hlen : 8 ≤ (tokens (textOf line)).length := by
    by_contra hlt
    have hlast : (tokens (textOf line))[7]? = none := List.getElem?_eq_none (by omega)
    have hzero := congrFun (h fun _ => 0) ⟨7, by omega⟩
    have hone := congrFun (h fun _ => 1) ⟨7, by omega⟩
    rw [← hzero] at hone
    simp [fill, hlast] at hone
  have hsome : argsOfLine line = some fun i => atoi ((tokens (textOf line)).getD i.val []) := by
    simp only [argsOfLine]
    rw [if_pos hlen]
  rw [hsome, ← h args, fill_eq hsome]

lemma textOf_ne_nil (h : argsOfLine line = some args) : textOf line ≠ [] := by
  intro hnil
  simp [argsOfLine, hnil, tokens] at h

lemma strtok_piece (h : linesOf '\n' text = line :: lines) (n : ℕ) :
    strtokNewline ((line.take n).takeWhile (· ≠ '\x00')) =
      if textOf (line.take n) = [] then none else some (textOf (line.take n)) := by
  have hfirst : (splitFirst (· = '\n') ((line.take n).takeWhile (· ≠ '\x00'))).1 =
      textOf (line.take n) := by
    rw [splitFirst, List.takeWhile_takeWhile]
    simp [textOf, and_comm]
  rw [strtokNewline]
  split_ifs with hnil
  · obtain ⟨m, hm, hline⟩ := linesOf_eq_cons h
    cases m with
    | nil =>
      have hall : ∀ c ∈ line, c = '\n' := by
        rcases hline with rfl | ⟨rfl, hne, -⟩
        · simp
        · exact absurd rfl hne
      have hblank : words (· = '\n') ((line.take n).takeWhile (· ≠ '\x00')) = [] := by
        rw [words_eq_nil_iff]
        intro c hc
        exact decide_eq_true (hall c (List.mem_of_mem_take (List.takeWhile_subset _ hc)))
      rw [hblank, List.head?_nil]
    | cons c m =>
      have hc : c ≠ '\n' := by
        rintro rfl
        exact hm List.mem_cons_self
      obtain ⟨rest, hrest⟩ : ∃ rest, line = c :: rest := by
        rcases hline with rfl | ⟨rfl, -⟩
        · exact ⟨m ++ ['\n'], rfl⟩
        · exact ⟨m, rfl⟩
      have hempty : (line.take n).takeWhile (· ≠ '\x00') = [] := by
        rw [hrest] at hnil ⊢
        cases n with
        | zero => rfl
        | succ n =>
          have hnul : c = '\x00' := by
            by_contra hne
            simp [textOf, hc, hne] at hnil
          simp [hnul]
      rw [hempty, words_nil, List.head?_nil]
  · rw [words_splitFirst, hfirst, if_neg hnil]
    rfl

lemma stringToInts_piece (leftover : Args) (piece : List Char) :
    stringToInts leftover (if textOf piece = [] then none else some (textOf piece)) =
      fill leftover (tokens (textOf piece)) := by
  split_ifs with hnil
  · rw [hnil]
    rfl
  · rfl

end Pieces

section Loop

variable {leftover : ℕ → Args} {r r' : Reading} {line : List Char} {lines : List (List Char)}
  {args : Args} {s : System} {n : ℕ}

def Reading.next (r : Reading) (line : List Char) (args : Args) (s : System) : Reading :=
  let piece := line.take (FILE_BUFFER - 1)
  { file := r.file.drop piece.length
    line := if textOf piece = [] then none else some (textOf piece)
    pid := r.pid + 1
    system := s
    position := if '\n' ∈ piece then r.position + 1 else r.position
    origin := r.position
    log := r.log ++ [(r.position, args)] }

def arrayOf (leftover : Args) (line : List Char) : Args :=
  fill leftover (tokens (textOf (line.take (FILE_BUFFER - 1))))

lemma readLoop_nil (h : r.file = []) (n : ℕ) : readLoop leftover (n + 1) r = some r := by
  simp [readLoop, fgets, h]

lemma fgets_line (h : linesOf '\n' r.file = line :: lines) (hline : r.line ≠ none) :
    fgets r = some (true, { r with
      file := r.file.drop (line.take (FILE_BUFFER - 1)).length
      line := some ((line.take (FILE_BUFFER - 1)).takeWhile (· ≠ '\x00'))
      position := if '\n' ∈ line.take (FILE_BUFFER - 1) then r.position + 1 else r.position
      origin := r.position }) := by
  have hfile : r.file ≠ [] := by
    intro hnil
    rw [hnil] at h
    cases h
  rw [fgets, if_neg hfile, if_neg hline, takeLine_eq_take h]

lemma readLoop_line (h : linesOf '\n' r.file = line :: lines) (hline : r.line ≠ none)
    (hpid : r.pid ≤ MAX_PROCESSES) (n : ℕ) :
    readLoop leftover (n + 1) r =
      (loadProcess r.pid (arrayOf (leftover r.pid) line) r.system).bind fun s =>
        readLoop leftover n (r.next line (arrayOf (leftover r.pid) line) s) := by
  rw [readLoop, fgets_line h hline]
  simp only [Option.bind_eq_bind, Option.bind_some, true_and, hpid, if_true, readProcess,
    Option.pure_def, Option.bind_assoc, strtok_piece h, stringToInts_piece]
  rfl

lemma readLoop_full (leftover : ℕ → Args) (hline : r.line ≠ none) (hpid : MAX_PROCESSES < r.pid)
    (n : ℕ) : (readLoop leftover (n + 1) r).map (fun r' => (r'.system, r'.log)) =
      some (r.system, r.log) := by
  cases h : linesOf '\n' r.file with
  | nil => rw [readLoop_nil (linesOf_eq_nil_iff.mp h), Option.map_some]
  | cons line lines =>
    rw [readLoop, fgets_line h hline]
    simp [not_le.mpr hpid]

lemma fgets_log {found : Bool} (h : fgets r = some (found, r')) : r'.log = r.log := by
  rw [fgets] at h
  split_ifs at h <;> cases h <;> rfl

lemma readProcess_log (h : readProcess leftover r = some r') : r.log <+: r'.log := by
  obtain ⟨s, -, hs⟩ := Option.bind_eq_some_iff.mp h
  cases hs
  exact List.prefix_append _ _

lemma readLoop_log (h : readLoop leftover n r = some r') : r.log <+: r'.log := by
  induction n generalizing r with
  | zero => cases h
  | succ n ih =>
    obtain ⟨⟨found, r₁⟩, hfgets, h⟩ := Option.bind_eq_some_iff.mp h
    rw [← fgets_log hfgets]
    dsimp only at h
    split_ifs at h
    · obtain ⟨r₂, hread, h⟩ := Option.bind_eq_some_iff.mp h
      exact (readProcess_log hread).trans (ih h)
    · cases h
      exact List.prefix_rfl

lemma linesOf_next_short (h : linesOf '\n' r.file = line :: lines)
    (hshort : line.length < FILE_BUFFER) : linesOf '\n' (r.next line args s).file = lines := by
  have htake : line.take (FILE_BUFFER - 1) = line := List.take_of_length_le (by omega)
  have hdrop := linesOf_drop h le_rfl
  rw [if_pos rfl] at hdrop
  rwa [Reading.next, htake]

/-- What the buffer does not take in of a longer line is taken for a line of its own. -/
lemma linesOf_next_long (h : linesOf '\n' r.file = line :: lines)
    (hlong : FILE_BUFFER ≤ line.length) :
    linesOf '\n' (r.next line args s).file = line.drop (FILE_BUFFER - 1) :: lines := by
  have hlen : (line.take (FILE_BUFFER - 1)).length = FILE_BUFFER - 1 := by
    rw [List.length_take]
    omega
  have hpos : 0 < FILE_BUFFER := by decide
  have hdrop := linesOf_drop h (k := FILE_BUFFER - 1) (by omega)
  rw [if_neg (by omega)] at hdrop
  rwa [Reading.next, hlen]

lemma position_next_short (h : linesOf '\n' r.file = line :: lines)
    (hshort : line.length < FILE_BUFFER) (hlines : lines ≠ []) :
    (r.next line args s).position = r.position + 1 := by
  have htake : line.take (FILE_BUFFER - 1) = line := List.take_of_length_le (by omega)
  have hmem : '\n' ∈ line := by
    obtain ⟨m, -, rfl | ⟨-, -, hlast⟩⟩ := linesOf_eq_cons h
    · simp
    · exact absurd hlast hlines
  simp only [Reading.next, htake]
  rw [if_pos hmem]

lemma position_next_long (h : linesOf '\n' r.file = line :: lines)
    (hlong : FILE_BUFFER ≤ line.length) : (r.next line args s).position = r.position := by
  have hnot : '\n' ∉ line.take (FILE_BUFFER - 1) := by
    obtain ⟨m, hm, rfl | ⟨rfl, -⟩⟩ := linesOf_eq_cons h
    · rw [List.length_append, List.length_singleton] at hlong
      rw [List.take_append_of_le_length (by omega)]
      exact fun hmem => hm (List.mem_of_mem_take hmem)
    · exact fun hmem => hm (List.mem_of_mem_take hmem)
  simp only [Reading.next]
  rw [if_neg hnot]

lemma line_next (h : argsOfLine (line.take (FILE_BUFFER - 1)) = some args) (args' : Args) :
    (r.next line args' s).line ≠ none := by
  simp [Reading.next, textOf_ne_nil h]

lemma length_next_lt (h : linesOf '\n' r.file = line :: lines) :
    (r.next line args s).file.length < r.file.length := by
  have hline : 0 < line.length := by
    apply List.length_pos_of_ne_nil
    apply linesOf_ne_nil
    rw [h]
    exact List.mem_cons_self
  have hfile : 0 < r.file.length := by
    apply List.length_pos_of_ne_nil
    intro hnil
    rw [hnil] at h
    cases h
  have hbuffer : 1 < FILE_BUFFER := by decide
  simp only [Reading.next, List.length_drop, List.length_take]
  omega

end Loop

end Eece315.DispatcherFile
