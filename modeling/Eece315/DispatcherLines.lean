import Eece315.DispatcherFile
import Eece315.DispatcherGlobals

/-! What `readFile` makes of the lines of its file. A list of processes that is written one to a
line is read back. Any other line among those that are read counts for a process as well: the
lines are read as they stand exactly when all of them have eight tokens and fit into the buffer. -/
namespace Eece315.DispatcherLines
open Lines Words Numerals DispatcherResources DispatcherSystem DispatcherFile DispatcherGlobals

structure Created (s : System) (log : List (ℕ × Args)) : Prop where
  queue : s.processes .dispatcher = List.range' 1 log.length
  pcb : ∀ j k args, log[j]? = some (k, args) → s.globals.pcb (j + 1) = processOf (j + 1) args

/-- Whatever `malloc` leaves, each line with at least eight tokens gives one process with the first
eight of them, up to the greatest number of processes, and no other line gives any. -/
def OneProcessPerLine (text : List Char) : Prop :=
  ∀ leftover, ∃ r, readFile leftover text initSystem = some r ∧
    r.log = (processLines 0 (linesOf '\n' text)).take MAX_PROCESSES ∧ Created r.system r.log

/-- A line that is read as process `pid` has at least eight tokens and fits into the buffer. It may
be longer if no process is read behind it and its first piece has the same eight integers. -/
def Fits (pid : ℕ) (line : List Char) : Prop :=
  ∃ args, argsOfLine line = some args ∧ (line.length < FILE_BUFFER ∨
    pid = MAX_PROCESSES ∧ argsOfLine (line.take (FILE_BUFFER - 1)) = some args)

section Entries

variable {line : List Char} {lines : List (List Char)} {args : Args} {k pid : ℕ}

lemma Fits.piece (h : Fits pid line) :
    ∃ args, argsOfLine line = some args ∧ argsOfLine (line.take (FILE_BUFFER - 1)) = some args := by
  obtain ⟨args, hargs, hshort | ⟨-, hpiece⟩⟩ := h
  · refine ⟨args, hargs, ?_⟩
    rwa [List.take_of_length_le (by omega)]
  · exact ⟨args, hargs, hpiece⟩

lemma processLines_cons (h : argsOfLine line = some args) (k : ℕ) (lines : List (List Char)) :
    processLines k (line :: lines) = (k, args) :: processLines (k + 1) lines := by
  simp [processLines, h]

lemma le_of_mem_processLines {entry : ℕ × Args} (h : entry ∈ processLines k lines) :
    k ≤ entry.1 := by
  induction lines generalizing k with
  | nil => cases h
  | cons line lines ih =>
    rw [processLines, List.mem_append] at h
    rcases h with h | h
    · obtain ⟨args, -, rfl⟩ := Option.map_eq_some_iff.mp (Option.mem_toList.mp h)
      exact le_rfl
    · have hle := ih h
      omega

lemma argsOfLine_of_head (h : (processLines k (line :: lines)).head? = some (k, args)) :
    argsOfLine line = some args := by
  cases hline : argsOfLine line with
  | none =>
    rw [processLines, hline, Option.map_none, Option.toList_none, List.nil_append] at h
    have hle := le_of_mem_processLines (List.mem_of_mem_head? h)
    simp at hle
  | some args' =>
    rw [processLines_cons hline, List.head?_cons] at h
    cases h
    rfl

end Entries

section Loop

lemma processLines_next {r : Reading} {line : List Char} {lines : List (List Char)} {args : Args}
    {s : System} (h : linesOf '\n' r.file = line :: lines) (hshort : line.length < FILE_BUFFER) :
    processLines (r.next line args s).position lines = processLines (r.position + 1) lines := by
  cases lines with
  | nil => rfl
  | cons line' lines => rw [position_next_short h hshort (List.cons_ne_nil _ _)]

variable {leftover : ℕ → Args} {r : Reading} {lines : List (List Char)} {n : ℕ}

lemma readLines_full {pid : ℕ} (h : MAX_PROCESSES < pid) (entries : List Args) (s : System) :
    readLines pid entries s = some s := by
  cases entries with
  | nil => rfl
  | cons args entries => rw [readLines, if_neg (by omega)]

lemma readLoop_fits (leftover : ℕ → Args) (h : linesOf '\n' r.file = lines) (hline : r.line ≠ none)
    (hfits : ∀ j line, lines[j]? = some line → r.pid + j ≤ MAX_PROCESSES → Fits (r.pid + j) line)
    (hn : r.file.length < n) :
    (readLoop leftover n r).map (fun r' => (r'.system, r'.log)) =
      (readLines r.pid ((processLines r.position lines).map Prod.snd) r.system).map fun s =>
        (s, r.log ++ (processLines r.position lines).take (MAX_PROCESSES + 1 - r.pid)) := by
  obtain ⟨n, rfl⟩ : ∃ m, n = m + 1 := ⟨n - 1, by omega⟩
  induction lines generalizing r n with
  | nil =>
    rw [readLoop_nil (linesOf_eq_nil_iff.mp h)]
    simp [processLines, readLines]
  | cons line lines ih =>
    by_cases hpid : r.pid ≤ MAX_PROCESSES
    · have hfit : Fits (r.pid + 0) line := hfits 0 line rfl hpid
      obtain ⟨args, hargs, hpiece⟩ := hfit.piece
      have harray : arrayOf (leftover r.pid) line = args := fill_eq hpiece
      have hroom : MAX_PROCESSES + 1 - r.pid = MAX_PROCESSES + 1 - (r.pid + 1) + 1 := by omega
      rw [readLoop_line h hline hpid, harray, processLines_cons hargs, List.map_cons, readLines,
        if_pos hpid, hroom, List.take_succ_cons]
      cases hload : loadProcess r.pid args r.system with
      | none => rfl
      | some s =>
        have hnext : (r.next line args s).line ≠ none := line_next hpiece args
        have hfewer : (r.next line args s).file.length < r.file.length := length_next_lt h
        obtain ⟨m, rfl⟩ : ∃ m, n = m + 1 := ⟨n - 1, by omega⟩
        have hlog : (r.next line args s).log = r.log ++ [(r.position, args)] := rfl
        by_cases hmax : r.pid = MAX_PROCESSES
        · have hlast : MAX_PROCESSES < r.pid + 1 := by omega
          have hdone : MAX_PROCESSES + 1 - (r.pid + 1) = 0 := by omega
          have hfull := readLoop_full leftover hnext hlast m
          rw [Option.bind_some, hfull, hlog, hdone]
          simp only [Option.bind_eq_bind, Option.bind_some, readLines_full hlast]
          rfl
        · have hshort : line.length < FILE_BUFFER := by
            obtain ⟨-, -, hshort | ⟨he, -⟩⟩ := hfit
            · exact hshort
            · exact absurd he hmax
          have hlater : ∀ j line', lines[j]? = some line' →
              (r.next line args s).pid + j ≤ MAX_PROCESSES →
                Fits ((r.next line args s).pid + j) line' := by
            intro j line' hj hle
            have hpid' : (r.next line args s).pid + j = r.pid + (j + 1) := by
              simp only [Reading.next]
              omega
            rw [hpid'] at hle ⊢
            exact hfits (j + 1) line' hj hle
          have hrest := ih (linesOf_next_short h hshort) hnext hlater m (by omega)
          rw [processLines_next h hshort, hlog] at hrest
          rw [Option.bind_some, hrest]
          simp only [Option.bind_eq_bind, Option.bind_some, List.append_assoc,
            List.singleton_append]
          rfl
    · have hroom : MAX_PROCESSES + 1 - r.pid = 0 := by omega
      rw [readLoop_full leftover hline (by omega), readLines_full (by omega), hroom]
      simp

lemma head_of_readLoop {line : List Char} (h : linesOf '\n' r.file = line :: lines)
    (hline : r.line ≠ none) (hpid : r.pid ≤ MAX_PROCESSES) {entries : List (ℕ × Args)}
    (hread : ∃ n r', readLoop leftover n r = some r' ∧ r'.log = r.log ++ entries) :
    ∃ s n r', entries.head? = some (r.position, arrayOf (leftover r.pid) line) ∧
      loadProcess r.pid (arrayOf (leftover r.pid) line) r.system = some s ∧
      readLoop leftover n (r.next line (arrayOf (leftover r.pid) line) s) = some r' ∧
      r'.log = r.log ++ entries := by
  obtain ⟨n, r', hloop, hlog⟩ := hread
  cases n with
  | zero => cases hloop
  | succ n =>
    rw [readLoop_line h hline hpid] at hloop
    obtain ⟨s, hload, hloop⟩ := Option.bind_eq_some_iff.mp hloop
    refine ⟨s, n, r', ?_, hload, hloop, hlog⟩
    have hmore := readLoop_log hloop
    rw [hlog, Reading.next, List.prefix_append_right_inj] at hmore
    obtain ⟨rest, rfl⟩ := hmore
    rfl

lemma fits_of_readLoop (h : linesOf '\n' r.file = lines) (hline : r.line ≠ none)
    (hread : ∀ leftover, ∃ n r', readLoop leftover n r = some r' ∧
      r'.log = r.log ++ (processLines r.position lines).take (MAX_PROCESSES + 1 - r.pid)) :
    ∀ j line, lines[j]? = some line → r.pid + j ≤ MAX_PROCESSES → Fits (r.pid + j) line := by
  induction lines generalizing r with
  | nil => simp
  | cons line lines ih =>
    intro j line' hj hle
    have hpid : r.pid ≤ MAX_PROCESSES := by omega
    have hroom : MAX_PROCESSES + 1 - r.pid = MAX_PROCESSES + 1 - (r.pid + 1) + 1 := by omega
    have hhead (leftover : ℕ → Args) :
        argsOfLine line = some (arrayOf (leftover r.pid) line) := by
      obtain ⟨s, n, r', hfirst, -⟩ := head_of_readLoop h hline hpid (hread leftover)
      rw [hroom, List.head?_take, if_neg (by omega)] at hfirst
      exact argsOfLine_of_head hfirst
    obtain ⟨args, hargs⟩ : ∃ args, argsOfLine line = some args := ⟨_, hhead fun _ _ => 0⟩
    have harray (left : Args) : arrayOf left line = args :=
      Option.some.inj ((hhead fun _ => left).symm.trans hargs)
    have hpiece : argsOfLine (line.take (FILE_BUFFER - 1)) = some args := argsOfLine_of_fill harray
    -- behind the pass the same holds of the other lines, since it is the same pass for every content
    obtain ⟨s, hrest⟩ : ∃ s, ∀ leftover, ∃ n r', readLoop leftover n (r.next line args s) = some r' ∧
        r'.log = (r.next line args s).log ++
          (processLines (r.position + 1) lines).take (MAX_PROCESSES + 1 - (r.pid + 1)) := by
      obtain ⟨s, -, -, -, hload, -⟩ := head_of_readLoop h hline hpid (hread fun _ _ => 0)
      rw [harray] at hload
      refine ⟨s, fun leftover => ?_⟩
      obtain ⟨s', n, r', -, hload', hloop, hlog⟩ :=
        head_of_readLoop h hline hpid (hread leftover)
      rw [harray] at hload' hloop
      obtain rfl := Option.some.inj (hload.symm.trans hload')
      refine ⟨n, r', hloop, ?_⟩
      rw [hlog, hroom, processLines_cons hargs, List.take_succ_cons]
      simp [Reading.next]
    have hnext : (r.next line args s).line ≠ none := line_next hpiece args
    have hshort (hlt : r.pid < MAX_PROCESSES) : line.length < FILE_BUFFER := by
      by_contra hlong
      obtain ⟨-, -, -, hfirst, -⟩ :=
        head_of_readLoop (linesOf_next_long h (not_lt.mp hlong)) hnext hlt (hrest fun _ _ => 0)
      have hle := le_of_mem_processLines (List.mem_of_mem_take (List.mem_of_mem_head? hfirst))
      rw [position_next_long h (not_lt.mp hlong)] at hle
      exact absurd hle (by simp)
    cases j with
    | zero =>
      cases hj
      refine ⟨args, hargs, ?_⟩
      rcases hpid.lt_or_eq with hlt | he
      · exact .inl (hshort hlt)
      · exact .inr ⟨he, hpiece⟩
    | succ j =>
      have hlt : r.pid < MAX_PROCESSES := by omega
      have hpid' : r.pid + (j + 1) = (r.next line args s).pid + j := by
        simp only [Reading.next]
        omega
      rw [hpid'] at hle ⊢
      apply ih (linesOf_next_short h (hshort hlt)) hnext ?_ j line' hj hle
      intro leftover
      rw [processLines_next h (hshort hlt)]
      exact hrest leftover

end Loop

section Text

variable {text : List Char}

lemma oneProcessPerLine_of_fits
    (h : ∀ k line, (linesOf '\n' text)[k]? = some line → k < MAX_PROCESSES → Fits (k + 1) line) :
    OneProcessPerLine text := by
  intro leftover
  let entries : List (ℕ × Args) := processLines 0 (linesOf '\n' text)
  obtain ⟨s, hs, hqueue, hpcb⟩ := mainLoop_zero_spec (entries.map Prod.snd)
  have hfits : ∀ j line, (linesOf '\n' text)[j]? = some line → 1 + j ≤ MAX_PROCESSES →
      Fits (1 + j) line := by
    intro j line hj hle
    rw [Nat.add_comm]
    exact h j line hj (by omega)
  have hread : (readFile leftover text initSystem).map (fun r => (r.system, r.log)) =
      (mainLoop (entries.map Prod.snd) 0).map fun s => (s, [] ++ entries.take MAX_PROCESSES) :=
    readLoop_fits leftover rfl (by simp [startReading]) hfits (Nat.lt_succ_self _)
  rw [hs, Option.map_some] at hread
  obtain ⟨r, hr, he⟩ := Option.map_eq_some_iff.mp hread
  obtain ⟨rfl, hlog⟩ := Prod.mk.inj he
  refine ⟨r, hr, hlog, ?_, ?_⟩
  · rw [hqueue, hlog, List.nil_append, loaded, List.length_map, List.length_take, min_comm]
  · intro j k args hj
    rw [hlog, List.nil_append, List.getElem?_take] at hj
    split_ifs at hj with hlt
    have hlen : j < entries.length := (List.getElem?_eq_some_iff.mp hj).1
    have hargs : argsOf (entries.map Prod.snd) (j + 1) = args := by
      simp [argsOf, List.getD_eq_getElem?_getD, hj]
    rw [hpcb, hargs]
    rw [mem_loaded_iff, List.length_map]
    omega

lemma fits_of_oneProcessPerLine (h : OneProcessPerLine text) :
    ∀ k line, (linesOf '\n' text)[k]? = some line → k < MAX_PROCESSES → Fits (k + 1) line := by
  intro k line hline hk
  rw [Nat.add_comm]
  apply fits_of_readLoop (r := startReading text initSystem) rfl (by simp [startReading]) ?_ k line
  · exact hline
  · simp only [startReading]
    omega
  · intro leftover
    obtain ⟨r, hread, hlog, -⟩ := h leftover
    exact ⟨_, r, hread, hlog⟩

/-- The lines are read as they stand exactly when each of those that become a process fits. -/
theorem oneProcessPerLine_iff (text : List Char) :
    OneProcessPerLine text ↔
      ∀ k line, (linesOf '\n' text)[k]? = some line → k < MAX_PROCESSES → Fits (k + 1) line :=
  ⟨fits_of_oneProcessPerLine, oneProcessPerLine_of_fits⟩

/-- Of a line with three numbers a process is created, whose other fields nothing has set. -/
theorem oneProcessPerLine_fails : ¬ OneProcessPerLine ['0', ',', ' ', '1', ',', ' ', '2', '\n'] := by
  intro h
  obtain ⟨args, hargs, -⟩ := fits_of_oneProcessPerLine h 0 _ rfl (by decide)
  have hshort : argsOfLine ['0', ',', ' ', '1', ',', ' ', '2', '\n'] = none := by decide
  rw [hshort] at hargs
  cases hargs

end Text

section RoundTrip

/-- The integers of a process in decimal, with a comma and a blank between them. -/
def writeLine (args : Args) : List Char :=
  [',', ' '].intercalate ((List.ofFn args).map fun z => Nat.toDigits 10 z.toNat)

def writeFile (tuples : List Args) : List Char := (tuples.map writeLine).flatMap (· ++ ['\n'])

def fieldsOf (p : PCB) : List ℤ :=
  [p.arrivalTime, p.priority, p.remainingTime, (p.io .memSpace).needed, (p.io .printers).needed,
    (p.io .scanners).needed, (p.io .modems).needed, (p.io .disks).needed]

lemma fieldsOf_processOf (pid : ℕ) (args : Args) :
    fieldsOf (processOf pid args) = List.ofFn args := by
  simp [List.ofFn_succ, fieldsOf, processOf]

def InRange (args : Args) : Prop := ∀ i, 0 ≤ args i ∧ args i ≤ 2147483647

variable {args : Args} {tuples : List Args} {text : List Char}

lemma mem_writeLine {c : Char} (h : c ∈ writeLine args) : c = ',' ∨ c = ' ' ∨ c.isDigit := by
  rcases mem_intercalate h with hc | ⟨w, hw, hc⟩
  · simpa [or_assoc] using Or.inl hc
  · obtain ⟨z, -, rfl⟩ := List.mem_map.mp hw
    exact .inr (.inr (Nat.isDigit_of_mem_toDigits (Nat.succ_pos 9) le_rfl hc))

lemma newline_notMem (args : Args) : '\n' ∉ writeLine args := by
  intro h
  rcases mem_writeLine h with hc | hc | hc <;> cases hc

lemma nul_notMem (args : Args) : '\x00' ∉ writeLine args := by
  intro h
  rcases mem_writeLine h with hc | hc | hc <;> cases hc

lemma textOf_writeLine (args : Args) {final : List Char} (hfinal : final = [] ∨ final = ['\n']) :
    textOf (writeLine args ++ final) = writeLine args := by
  have hline : ∀ c ∈ writeLine args, (decide (c ≠ '\n' ∧ c ≠ '\x00')) = true := by
    intro c hc
    apply decide_eq_true
    exact ⟨ne_of_mem_of_not_mem hc (newline_notMem args), ne_of_mem_of_not_mem hc (nul_notMem args)⟩
  rw [textOf, List.takeWhile_append_of_pos hline]
  rcases hfinal with rfl | rfl <;> simp

lemma tokens_writeLine (args : Args) :
    tokens (writeLine args) = (List.ofFn args).map fun z => Nat.toDigits 10 z.toNat := by
  apply words_intercalate (List.cons_ne_nil _ _) (by simp [isDelimiter])
  intro w hw
  obtain ⟨z, -, rfl⟩ := List.mem_map.mp hw
  refine ⟨Nat.toDigits_ne_nil, fun c hc => ?_⟩
  have hdigit := Nat.isDigit_of_mem_toDigits (Nat.succ_pos 9) le_rfl hc
  by_contra hsep
  simp only [isDelimiter, List.mem_cons, List.not_mem_nil, or_false, decide_eq_false_iff_not,
    not_not] at hsep
  rcases hsep with rfl | rfl <;> cases hdigit

lemma argsOfLine_written (h : InRange args) {final : List Char}
    (hfinal : final = [] ∨ final = ['\n']) : argsOfLine (writeLine args ++ final) = some args := by
  simp only [argsOfLine, textOf_writeLine args hfinal, tokens_writeLine, List.length_map,
    List.length_ofFn, le_refl, if_true, Option.some.injEq]
  funext i
  obtain ⟨hlow, hhigh⟩ := h i
  have hread : atoi (Nat.toDigits 10 (args i).toNat) = args i := by
    rw [atoi_toDigits (by omega), Int.toNat_of_nonneg hlow]
  rw [List.getD_eq_getElem?_getD, List.getElem?_map, List.getElem?_ofFn, dif_pos i.isLt]
  exact hread

lemma length_written (h : InRange args) {final : List Char}
    (hfinal : final = [] ∨ final = ['\n']) : (writeLine args ++ final).length < FILE_BUFFER := by
  have hdigits : ∀ w ∈ (List.ofFn args).map fun z => Nat.toDigits 10 z.toNat, w.length ≤ 10 := by
    intro w hw
    obtain ⟨z, hz, rfl⟩ := List.mem_map.mp hw
    obtain ⟨i, rfl⟩ := (List.mem_ofFn' args z).mp hz
    rw [Nat.length_toDigits_le_iff (by decide) (by decide)]
    have hhigh := (h i).2
    omega
  have hline := length_intercalate_le [',', ' '] hdigits
  rw [← writeLine, List.length_map, List.length_ofFn] at hline
  have hlast : final.length ≤ 1 := by rcases hfinal with rfl | rfl <;> simp
  rw [List.length_append, FILE_BUFFER]
  simp only [List.length_cons, List.length_nil] at hline
  omega

lemma linesOf_written (htext : text = writeFile tuples ∨ text ++ ['\n'] = writeFile tuples) :
    List.Forall₂ (fun line args => ∃ final, (final = [] ∨ final = ['\n']) ∧
      line = writeLine args ++ final) (linesOf '\n' text) tuples := by
  have hwritten (tuples : List Args) :
      List.Forall₂ (fun line args => ∃ final, (final = [] ∨ final = ['\n']) ∧
        line = writeLine args ++ final) ((tuples.map writeLine).map (· ++ ['\n'])) tuples := by
    rw [List.map_map, List.forall₂_map_left_iff, List.forall₂_same]
    exact fun args _ => ⟨['\n'], .inr rfl, rfl⟩
  have hnewline (tuples : List Args) : ∀ l ∈ tuples.map writeLine, '\n' ∉ l := by
    intro l hl
    obtain ⟨args, -, rfl⟩ := List.mem_map.mp hl
    exact newline_notMem args
  rcases htext with rfl | htext
  · have hlines := linesOf_flatMap (hnewline tuples) []
    rw [List.append_nil] at hlines
    rw [writeFile, hlines, linesOf, List.append_nil]
    exact hwritten tuples
  · rcases List.eq_nil_or_concat tuples with rfl | ⟨before, last, rfl⟩
    · simp [writeFile] at htext
    · have hne : writeLine last ≠ [] := by
        intro hnil
        have htokens := congrArg List.length (tokens_writeLine last)
        rw [hnil] at htokens
        simp [tokens] at htokens
      rw [List.concat_eq_append, writeFile, List.map_append, List.flatMap_append,
        List.map_singleton, List.flatMap_singleton, ← List.append_assoc,
        List.append_cancel_right_eq] at htext
      rw [htext, linesOf_flatMap (hnewline before), linesOf_last hne (newline_notMem last),
        List.concat_eq_append]
      apply List.rel_append (hwritten before)
      exact .cons ⟨[], .inl rfl, (List.append_nil _).symm⟩ .nil

lemma processLines_written {lines : List (List Char)} (htuples : ∀ args ∈ tuples, InRange args)
    (h : List.Forall₂ (fun line args => ∃ final, (final = [] ∨ final = ['\n']) ∧
      line = writeLine args ++ final) lines tuples) (k : ℕ) :
    (processLines k lines).map Prod.snd = tuples := by
  induction h generalizing k with
  | nil => rfl
  | @cons line args lines tuples hline _ ih =>
    obtain ⟨final, hfinal, rfl⟩ := hline
    rw [processLines_cons (argsOfLine_written (htuples args List.mem_cons_self) hfinal),
      List.map_cons, ih fun args' h' => htuples args' (List.mem_cons_of_mem args h')]

/-- A list of processes that is written to a file is read back into the dispatcher queue. -/
theorem round_trip (hlen : tuples.length ≤ MAX_PROCESSES) (htuples : ∀ args ∈ tuples, InRange args)
    (htext : text = writeFile tuples ∨ text ++ ['\n'] = writeFile tuples) (leftover : ℕ → Args) :
    ∃ r, readFile leftover text initSystem = some r ∧
      r.system.processes .dispatcher = List.range' 1 tuples.length ∧
      ∀ k args, tuples[k]? = some args → (r.system.globals.pcb (k + 1)).pid = k + 1 ∧
        fieldsOf (r.system.globals.pcb (k + 1)) = List.ofFn args := by
  have hlines := linesOf_written htext
  have hargs := processLines_written htuples hlines 0
  have hentries : (processLines 0 (linesOf '\n' text)).length = tuples.length := by
    rw [← hargs, List.length_map]
  have hfits : ∀ k line, (linesOf '\n' text)[k]? = some line → k < MAX_PROCESSES →
      Fits (k + 1) line := by
    intro k line hline _
    obtain ⟨hk, rfl⟩ := List.getElem?_eq_some_iff.mp hline
    obtain ⟨final, hfinal, hwritten⟩ := hlines.get hk (hlines.length_eq ▸ hk)
    have hrange := htuples _ (List.get_mem tuples ⟨k, hlines.length_eq ▸ hk⟩)
    rw [List.get_eq_getElem] at hwritten
    rw [hwritten]
    exact ⟨_, argsOfLine_written hrange hfinal, .inl (length_written hrange hfinal)⟩
  obtain ⟨r, hread, hlog, hcreated⟩ := oneProcessPerLine_of_fits hfits leftover
  rw [List.take_of_length_le (by omega)] at hlog
  refine ⟨r, hread, ?_, ?_⟩
  · rw [hcreated.queue, hlog, hentries]
  · intro k args hk
    rw [← hargs, List.getElem?_map, ← hlog] at hk
    obtain ⟨⟨j, args'⟩, hj, rfl⟩ := Option.map_eq_some_iff.mp hk
    rw [hcreated.pcb k j args' hj]
    exact ⟨by simp [processOf], fieldsOf_processOf _ _⟩

/-- The small numbers in ascending order, and the greatest number eight times. -/
theorem round_trip_demo :
    ∃ r, readFile (fun _ _ => 0) (writeFile [fun i => i.val, fun _ => 2147483647]) initSystem =
        some r ∧
      r.system.processes .dispatcher = [1, 2] ∧
      fieldsOf (r.system.globals.pcb 1) = [0, 1, 2, 3, 4, 5, 6, 7] := by
  have hrange : ∀ args ∈ [fun i => (i.val : ℤ), fun _ => 2147483647], InRange args := by
    intro args hargs
    rcases List.mem_pair.mp hargs with rfl | rfl
    · intro i
      dsimp only
      omega
    · intro i
      exact ⟨Int.natCast_nonneg 2147483647, le_rfl⟩
  obtain ⟨r, hread, hqueue, hfields⟩ := round_trip (by decide) hrange (.inl rfl) fun _ _ => 0
  exact ⟨r, hread, hqueue, (hfields 0 _ rfl).2.trans (by simp [List.ofFn_succ])⟩

end RoundTrip

end Eece315.DispatcherLines
