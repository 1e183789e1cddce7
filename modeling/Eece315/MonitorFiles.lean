import Mathlib
import Eece315.Lines
import Eece315.Numerals

/-! The readers of `monitor.c` for the files under `/proc`. Each goes through a file line by line
with a buffer of 500 bytes, through a line word by word with `strtok`, and remembers in a flag that
it has met the word it looks for. The local variables that the source leaves unset are arguments
here. -/
namespace Eece315.MonitorFiles
open Lines Words Numerals

def LINE_SIZE : ℕ := 500

/-- What `strtok` finds in the buffer with blanks for delimiters. A newline is no delimiter. -/
def tokens (line : List Char) : List (List Char) := words (· = ' ') (line.takeWhile (· ≠ '\x00'))

variable {S : Type*}

/-- The loop over the tokens with its counter `i`. -/
def scanTokens (body : S → ℕ → List Char → S) : ℕ → List (List Char) → S → S
  | _, [], st => st
  | i, token :: ts, st => scanTokens body (i + 1) ts (body st i token)

/-- The loop over what `fgets` finds, which is left when something was found. -/
def scanLines (body : S → ℕ → List Char → S) (found : S → Bool) : List (List Char) → S → S
  | [], st => st
  | line :: lines, st =>
    let st := scanTokens body 0 (tokens line) st
    if found st then st else scanLines body found lines st

def scanFile (body : S → ℕ → List Char → S) (found : S → Bool) (text : List Char) (st : S) : S :=
  scanLines body found (pieces '\n' (LINE_SIZE - 1) text) st

/-- The variables of the three readers of an entry of `/proc/stat`. -/
structure Entry where
  isLine : Bool
  value : ℤ
  deriving DecidableEq

def Entry.read (key : List Char) (st : Entry) (i : ℕ) (token : List Char) : Entry :=
  let isLine := st.isLine || token = key
  ⟨isLine, if isLine ∧ i = 1 then atoi token else st.value⟩

def readEntry (key : String) (leftover : ℤ) (text : List Char) : ℤ :=
  (scanFile (Entry.read key.toList) Entry.isLine text ⟨false, leftover⟩).value

def getContextSwitches (leftover : ℤ) (text : List Char) : String :=
  let contextSwitches := readEntry "ctxt" leftover text
  s!"Context switches performed by kernel: {contextSwitches}\n"

/-- The time that is given to `ctime`. -/
def getBootTime (leftover : ℤ) (text : List Char) : ℤ := readEntry "btime" leftover text

def getProcessesCreated (leftover : ℤ) (text : List Char) : String :=
  let processes := readEntry "processes" leftover text
  s!"Processes created since boot: {processes}\n"

structure MemInfo where
  isLine1 : Bool
  isLine2 : Bool
  memTotal : ℤ
  memFree : ℤ
  deriving DecidableEq

/-- One key of `readMemInfo`: its flag is taken back when the value has been read. -/
def readValue (key : String) (isLine : Bool) (value : ℤ) (i : ℕ) (token : List Char) : Bool × ℤ :=
  let isLine := isLine || token = key.toList
  if isLine ∧ i = 1 then (false, atoi token) else (isLine, value)

def MemInfo.read (st : MemInfo) (i : ℕ) (token : List Char) : MemInfo :=
  let (isLine1, memTotal) := readValue "MemTotal:" st.isLine1 st.memTotal i token
  let (isLine2, memFree) := readValue "MemFree:" st.isLine2 st.memFree i token
  ⟨isLine1, isLine2, memTotal, memFree⟩

/-- `isLine1`, `memTotal` and `memFree` are not set before the loop. -/
def readMemInfo (isLine1 : Bool) (memTotal memFree : ℤ) (text : List Char) : String :=
  let st := scanFile MemInfo.read MemInfo.isLine2 text ⟨isLine1, false, memTotal, memFree⟩
  let memTotal := st.memTotal
  let memFree := st.memFree
  s!"Total configured memory: {memTotal} kb\n\nMemory currently available: {memFree} kb\n"

structure DiskStats where
  isSdaLine : Bool
  completedReads : ℤ
  completedWrites : ℤ
  mergedReads : ℤ
  mergedWrites : ℤ
  deriving DecidableEq

def DiskStats.read (st : DiskStats) (i : ℕ) (token : List Char) : DiskStats :=
  let st := { st with isSdaLine := st.isSdaLine || (i = 2 ∧ token = "sda".toList) }
  if st.isSdaLine ∧ 2 < i then
    if i - 2 = 1 then { st with completedReads := atoi token }
    else if i - 2 = 2 then { st with mergedReads := atoi token }
    else if i - 2 = 5 then { st with completedWrites := atoi token }
    else if i - 2 = 6 then { st with mergedWrites := atoi token }
    else st
  else st

/-- Of the four counters only `mergedWrites` is set before the loop. -/
def readDiskStats (completedReads completedWrites mergedReads : ℤ) (text : List Char) : String :=
  let st := scanFile DiskStats.read DiskStats.isSdaLine text
    ⟨false, completedReads, completedWrites, mergedReads, 0⟩
  let reads := (BitVec.ofInt 32 (st.completedReads + st.mergedReads)).toInt
  let writes := (BitVec.ofInt 32 (st.completedWrites + st.mergedWrites)).toInt
  s!"Disk read/write requests made on the system: {reads}/{writes}\n"

section Loops

variable {body : S → ℕ → List Char → S} {found : S → Bool} {st : S}

lemma scanLines_append {before after : List (List Char)}
    (hbefore : ∀ line ∈ before, scanTokens body 0 (tokens line) st = st) (hst : found st = false) :
    scanLines body found (before ++ after) st = scanLines body found after st := by
  induction before with
  | nil => rfl
  | cons line before ih =>
    rw [List.cons_append, scanLines, hbefore line List.mem_cons_self]
    simp only [hst, Bool.false_eq_true, if_false]
    exact ih fun l hl => hbefore l (List.mem_cons_of_mem _ hl)

lemma scanLines_found {line : List Char} {lines : List (List Char)}
    (h : found (scanTokens body 0 (tokens line) st) = true) :
    scanLines body found (line :: lines) st = scanTokens body 0 (tokens line) st := by
  rw [scanLines]
  exact if_pos h

end Loops

section Entries

variable {key : List Char} {st : Entry} {ts : List (List Char)} {i : ℕ}

structure IsKey (key : List Char) : Prop where
  nonempty : key ≠ []
  chars : ∀ c ∈ key, c ≠ ' ' ∧ c ≠ '\n' ∧ c ≠ '\x00'

lemma scanTokens_of_notMem (hts : key ∉ ts) (hst : st.isLine = false) :
    scanTokens (Entry.read key) i ts st = st := by
  induction ts generalizing i with
  | nil => rfl
  | cons token ts ih =>
    rw [List.mem_cons, not_or] at hts
    have hsame : Entry.read key st i token = st := by
      obtain ⟨isLine, value⟩ := st
      simp only at hst
      simp [Entry.read, hst, Ne.symm hts.1]
    rw [scanTokens, hsame]
    exact ih hts.2

lemma notMem_tokens {line piece : List Char} (hline : ¬ key <:+: line)
    (hpiece : piece ∈ cut (LINE_SIZE - 1) line) : key ∉ tokens piece := by
  intro hmem
  have hword := infix_of_mem_words hmem
  have hpart := infix_of_mem_cut (by decide) hpiece
  exact hline (hword.trans ((List.takeWhile_prefix _).isInfix.trans hpart))

/-- The line of an entry: the key, a blank and a decimal number. -/
def entryLine (key : List Char) (n : ℕ) : List Char := key ++ ' ' :: Nat.toDigits 10 n

lemma isWord_key (hkey : IsKey key) : IsWord (· = ' ') key :=
  ⟨hkey.nonempty, fun c hc => by simpa using (hkey.chars c hc).1⟩

lemma digit_ne {n : ℕ} {c d : Char} (hc : c ∈ Nat.toDigits 10 n) (hd : d.isDigit = false) :
    c ≠ d := by
  rintro rfl
  rw [isDigit_toDigits hc] at hd
  cases hd

lemma tokens_entryLine (hkey : IsKey key) (n : ℕ) :
    tokens (entryLine key n ++ ['\n']) = [key, Nat.toDigits 10 n ++ ['\n']] := by
  have hnul : (entryLine key n ++ ['\n']).takeWhile (· ≠ '\x00') = entryLine key n ++ ['\n'] := by
    rw [List.takeWhile_eq_self_iff]
    intro c hc
    simp only [entryLine, List.mem_append, List.mem_cons, List.not_mem_nil, or_false] at hc
    rcases hc with (hc | rfl | hc) | rfl
    · simpa using (hkey.chars c hc).2.2
    · decide
    · simpa using digit_ne hc (d := '\x00') (by decide)
    · decide
  have hlast : IsWord (· = ' ') (Nat.toDigits 10 n ++ ['\n']) := by
    refine ⟨by simp, fun c hc => ?_⟩
    rcases List.mem_append.mp hc with hc | hc
    · simpa using digit_ne hc (d := ' ') (by decide)
    · rw [List.mem_singleton.mp hc]
      decide
  rw [tokens, hnul, entryLine, List.append_assoc, List.cons_append,
    words_append_word (isWord_key hkey) _ (by decide), words_eq_singleton hlast]

lemma infix_of_line {line : List Char} (hkey : IsKey key) (h : key <:+: line ++ ['\n']) :
    key <:+: line := by
  rcases List.infix_concat_iff.mp h with hend | hline
  · exfalso
    have hlast := hend.getLast hkey.nonempty
    rw [List.getLast_append_singleton] at hlast
    exact (hkey.chars _ (List.getLast_mem hkey.nonempty)).2.1 hlast
  · exact hline

/-- The text up to the line of the entry, and what follows. -/
def textWith (before : List (List Char)) (line after : List Char) : List Char :=
  before.flatMap (· ++ ['\n']) ++ (line ++ '\n' :: after)

lemma pieces_textWith {before : List (List Char)} {line : List Char}
    (hbefore : ∀ l ∈ before, '\n' ∉ l) (hline : '\n' ∉ line) (hlen : line.length + 1 < LINE_SIZE)
    (after : List Char) :
    pieces '\n' (LINE_SIZE - 1) (textWith before line after) =
      (before.map (· ++ ['\n'])).flatMap (cut (LINE_SIZE - 1)) ++
        (line ++ ['\n']) :: pieces '\n' (LINE_SIZE - 1) after := by
  have hcut : cut (LINE_SIZE - 1) (line ++ ['\n']) = [line ++ ['\n']] := by
    apply cut_of_length_le (by simp)
    rw [List.length_append, List.length_singleton]
    omega
  rw [pieces, textWith, linesOf_flatMap hbefore, linesOf_line hline, List.flatMap_append,
    List.flatMap_cons, hcut, List.singleton_append]
  rfl

/-- Of a file in which no earlier line, however long, has the key in it, the reader of an entry
gets the number behind the key cut down to an `int`, whatever its variable held. -/
lemma readEntry_eq {key : String} {before : List (List Char)} {n : ℕ} (hkey : IsKey key.toList)
    (hbefore : ∀ line ∈ before, '\n' ∉ line ∧ ¬ key.toList <:+: line)
    (hlen : (entryLine key.toList n).length + 1 < LINE_SIZE) (leftover : ℤ) (after : List Char) :
    readEntry key leftover (textWith before (entryLine key.toList n) after) =
      (toInt32 n).toInt := by
  have hline : '\n' ∉ entryLine key.toList n := by
    intro hmem
    simp only [entryLine, List.mem_append, List.mem_cons] at hmem
    rcases hmem with hmem | hmem | hmem
    · exact (hkey.chars _ hmem).2.1 rfl
    · cases hmem
    · exact digit_ne hmem (d := '\n') (by decide) rfl
  have hpieces := pieces_textWith (fun l hl => (hbefore l hl).1) hline hlen after
  have hscan : scanTokens (Entry.read key.toList) 0 (tokens (entryLine key.toList n ++ ['\n']))
      ⟨false, leftover⟩ = ⟨true, (toInt32 n).toInt⟩ := by
    have hvalue : atoi (Nat.toDigits 10 n ++ ['\n']) = (toInt32 n).toInt :=
      atoi_toDigits_append n (by simp [isSpace])
    rw [tokens_entryLine hkey]
    simp [scanTokens, Entry.read, hvalue]
  rw [readEntry, scanFile, hpieces, scanLines_append, scanLines_found, hscan]
  · rw [hscan]
  · intro piece hpiece
    obtain ⟨line, hmem, hcut⟩ := List.mem_flatMap.mp hpiece
    obtain ⟨l, hl, rfl⟩ := List.mem_map.mp hmem
    apply scanTokens_of_notMem _ rfl
    exact notMem_tokens (fun hinfix => (hbefore l hl).2 (infix_of_line hkey hinfix)) hcut
  · rfl

/-- The number in the entry is reported exactly if an `int` has it. -/
theorem readEntry_iff {key : String} {before : List (List Char)} {n : ℕ} (hkey : IsKey key.toList)
    (hbefore : ∀ line ∈ before, '\n' ∉ line ∧ ¬ key.toList <:+: line)
    (hlen : (entryLine key.toList n).length + 1 < LINE_SIZE) (leftover : ℤ) (after : List Char) :
    readEntry key leftover (textWith before (entryLine key.toList n) after) = n ↔ n < 2 ^ 31 := by
  rw [readEntry_eq hkey hbefore hlen]
  constructor
  · intro h
    have hlt := BitVec.toInt_lt (x := toInt32 n)
    omega
  · intro hn
    exact toInt_toInt32 (by omega) (by exact_mod_cast hn)

/-- The interrupts are reported on a line that does not fit into the buffer. -/
theorem readEntry_iff_demo :
    readEntry "btime" 7 (textWith ["intr 1".toList ++ List.replicate 600 '1']
      (entryLine "btime".toList 1384000000) "processes 5\n".toList) = (1384000000 : ℕ) ↔
        1384000000 < 2 ^ 31 := by
  have hchars : "btime".toList = ['b', 't', 'i', 'm', 'e'] := by decide
  have hkey : IsKey "btime".toList := ⟨by decide, by rw [hchars]; simp⟩
  have hlen : (entryLine "btime".toList 1384000000).length + 1 < LINE_SIZE := by decide +kernel
  apply readEntry_iff hkey _ hlen
  intro line hline
  rw [List.mem_singleton.mp hline]
  have hmem {c : Char} (hc : c ∈ "intr 1".toList ++ List.replicate 600 '1') :
      c ∈ "intr 1".toList := by
    rcases List.mem_append.mp hc with hc | hc
    · exact hc
    · rw [List.eq_of_mem_replicate hc]
      decide
  constructor
  · intro hc
    exact absurd (hmem hc) (by decide)
  · intro hinfix
    have hb : 'b' ∈ "btime".toList := by decide
    exact absurd (hmem (List.IsInfix.subset hinfix hb)) (by decide)

end Entries

section Memory

variable {ts : List (List Char)} {line : List Char} {lines : List (List Char)} {key : String}
  {f : Bool} {v total free : ℤ} {t : List Char} {i : ℕ}

lemma pieces_of_short {text : List Char}
    (h : ∀ line ∈ linesOf '\n' text, line.length < LINE_SIZE) :
    pieces '\n' (LINE_SIZE - 1) text = linesOf '\n' text := by
  have hcut : ∀ line ∈ linesOf '\n' text, cut (LINE_SIZE - 1) line = [line] := by
    intro line hline
    have := h line hline
    exact cut_of_length_le (linesOf_ne_nil hline) (by omega)
  rw [pieces, List.flatMap_congr hcut, List.flatMap_singleton']

def valueOf (line : List Char) : ℤ := atoi ((tokens line).getD 1 [])

/-- The number in the last line that begins with a key. -/
def lastValue (key : String) (lines : List (List Char)) : Option ℤ :=
  (lines.filter fun line => (tokens line).head? = some key.toList).getLast?.map valueOf

/-- A line of `/proc/meminfo` fits into the buffer and has two words or more, of which only the
first can be a key. -/
structure Plain (line : List Char) : Prop where
  short : line.length < LINE_SIZE
  two : 2 ≤ (tokens line).length
  total : "MemTotal:".toList ∉ (tokens line).tail
  free : "MemFree:".toList ∉ (tokens line).tail

lemma readValue_zero : readValue key f v 0 t = (f || t = key.toList, v) := by
  simp [readValue]

lemma readValue_one (ht : t ≠ key.toList) :
    readValue key f v 1 t = (false, if f then atoi t else v) := by
  cases f <;> simp [readValue, ht]

lemma readValue_later (ht : t ≠ key.toList) : readValue key false v i t = (false, v) := by
  simp [readValue, ht]

lemma scanTokens_later (htotal : "MemTotal:".toList ∉ ts) (hfree : "MemFree:".toList ∉ ts) :
    scanTokens MemInfo.read i ts ⟨false, false, total, free⟩ = ⟨false, false, total, free⟩ := by
  induction ts generalizing i with
  | nil => rfl
  | cons t ts ih =>
    rw [List.mem_cons, not_or] at htotal hfree
    rw [scanTokens, MemInfo.read, readValue_later (Ne.symm htotal.1),
      readValue_later (Ne.symm hfree.1)]
    exact ih htotal.2 hfree.2

lemma MemInfo.read_zero :
    MemInfo.read ⟨f, false, total, free⟩ 0 t =
      ⟨f || t = "MemTotal:".toList, t = "MemFree:".toList, total, free⟩ := by
  rw [MemInfo.read, readValue_zero, readValue_zero]
  rfl

lemma MemInfo.read_one {f' : Bool} (htotal : t ≠ "MemTotal:".toList)
    (hfree : t ≠ "MemFree:".toList) :
    MemInfo.read ⟨f, f', total, free⟩ 1 t =
      ⟨false, false, if f then atoi t else total, if f' then atoi t else free⟩ := by
  rw [MemInfo.read, readValue_one htotal, readValue_one hfree]

lemma Plain.scanTokens (h : Plain line) (f : Bool) (total free : ℤ) :
    scanTokens MemInfo.read 0 (tokens line) ⟨f, false, total, free⟩ =
      ⟨false, false,
        if f ∨ (tokens line).head? = some "MemTotal:".toList then valueOf line else total,
        if (tokens line).head? = some "MemFree:".toList then valueOf line else free⟩ := by
  obtain ⟨-, htwo, htotal, hfree⟩ := h
  obtain ⟨t₀, t₁, ts, hts⟩ : ∃ t₀ t₁ ts, tokens line = t₀ :: t₁ :: ts := by
    match tokens line, htwo with
    | t₀ :: t₁ :: ts, _ => exact ⟨t₀, t₁, ts, rfl⟩
  rw [hts, List.tail_cons, List.mem_cons, not_or] at htotal hfree
  rw [valueOf, hts, MonitorFiles.scanTokens, MonitorFiles.scanTokens, MemInfo.read_zero,
    MemInfo.read_one (Ne.symm htotal.1) (Ne.symm hfree.1), scanTokens_later htotal.2 hfree.2]
  simp only [Bool.or_eq_true, decide_eq_true_eq, List.head?_cons, Option.some.injEq,
    List.getD_cons_succ, List.getD_cons_zero]

lemma lastValue_cons (key : String) (line : List Char) (lines : List (List Char)) :
    lastValue key (line :: lines) = (lastValue key lines).or
      (if (tokens line).head? = some key.toList then some (valueOf line) else none) := by
  rw [lastValue, lastValue, List.filter_cons]
  split_ifs with hif hkey hkey
  · rw [List.getLast?_cons]
    cases (lines.filter fun line => (tokens line).head? = some key.toList).getLast? <;> rfl
  · exact absurd (of_decide_eq_true hif) hkey
  · exact absurd (decide_eq_true hkey) hif
  · rw [Option.or_none]

lemma lastValue_cons_getD (key : String) (line : List Char) (lines : List (List Char)) :
    (lastValue key (line :: lines)).getD v = (lastValue key lines).getD
      (if (tokens line).head? = some key.toList then valueOf line else v) := by
  rw [lastValue_cons]
  generalize lastValue key lines = last
  cases last with
  | none => by_cases hkey : (tokens line).head? = some key.toList <;> simp only [hkey] <;> rfl
  | some last => rfl

/-- The flag of the free memory is taken back at once, so the whole file is read. -/
lemma scanLines_memInfo (h : ∀ line ∈ lines, Plain line) (total free : ℤ) :
    scanLines MemInfo.read MemInfo.isLine2 lines ⟨false, false, total, free⟩ =
      ⟨false, false, (lastValue "MemTotal:" lines).getD total,
        (lastValue "MemFree:" lines).getD free⟩ := by
  induction lines generalizing total free with
  | nil => rfl
  | cons line lines ih =>
    rw [scanLines, (h line List.mem_cons_self).scanTokens, lastValue_cons_getD,
      lastValue_cons_getD]
    simp only [Bool.false_eq_true, if_false, false_or]
    exact ih (fun l hl => h l (List.mem_cons_of_mem _ hl)) _ _

lemma scanLines_plain (hplain : ∀ line ∈ lines, Plain line)
    (htotal : lastValue "MemTotal:" lines = some total)
    (hfree : lastValue "MemFree:" lines = some free) (isLine1 : Bool) (memTotal memFree : ℤ) :
    scanLines MemInfo.read MemInfo.isLine2 lines ⟨isLine1, false, memTotal, memFree⟩ =
      ⟨false, false, total, free⟩ := by
  cases lines with
  | nil => cases htotal
  | cons line lines =>
    have hrest := scanLines_memInfo fun l hl => hplain l (List.mem_cons_of_mem _ hl)
    have htotal' (v : ℤ) := lastValue_cons_getD (v := v) "MemTotal:" line lines
    have hfree' := lastValue_cons_getD (v := memFree) "MemFree:" line lines
    simp only [htotal, Option.getD_some] at htotal'
    rw [hfree, Option.getD_some] at hfree'
    rw [scanLines, (hplain line List.mem_cons_self).scanTokens]
    simp only [Bool.false_eq_true, if_false, hrest, ← hfree']
    cases isLine1 with
    | false =>
      simp only [Bool.false_eq_true, false_or]
      rw [← htotal' memTotal]
    | true =>
      have hfirst := htotal' (valueOf line)
      rw [ite_self] at hfirst
      simp only [true_or, if_true]
      rw [← hfirst]

/-- If every line is plain, the report on the memory does not depend on the variables that are
left unset, the flag among them: it gives the last number of each key. -/
theorem readMemInfo_eq {text : List Char} (hplain : ∀ line ∈ linesOf '\n' text, Plain line)
    (htotal : lastValue "MemTotal:" (linesOf '\n' text) = some total)
    (hfree : lastValue "MemFree:" (linesOf '\n' text) = some free)
    (isLine1 : Bool) (memTotal memFree : ℤ) :
    readMemInfo isLine1 memTotal memFree text =
      s!"Total configured memory: {total} kb\n\nMemory currently available: {free} kb\n" := by
  have hpieces := pieces_of_short fun line hline => (hplain line hline).short
  have hst : scanFile MemInfo.read MemInfo.isLine2 text ⟨isLine1, false, memTotal, memFree⟩ =
      ⟨false, false, total, free⟩ := by
    rw [scanFile, hpieces, scanLines_plain hplain htotal hfree]
  unfold readMemInfo
  rw [hst]

/-- The total memory stands in the second line here, and the flag is set by chance. -/
theorem readMemInfo_eq_demo :
    readMemInfo true 1 2 "MemFree: 30 kB\nMemTotal: 80 kB\n".toList =
      readMemInfo false 5 6 "MemFree: 30 kB\nMemTotal: 80 kB\n".toList := by
  have hlines : linesOf '\n' "MemFree: 30 kB\nMemTotal: 80 kB\n".toList =
      ["MemFree: 30 kB\n".toList, "MemTotal: 80 kB\n".toList] := by decide +kernel
  have hplain : ∀ line ∈ linesOf '\n' "MemFree: 30 kB\nMemTotal: 80 kB\n".toList, Plain line := by
    rw [hlines, List.forall_mem_cons, List.forall_mem_singleton]
    constructor
    · exact ⟨by decide +kernel, by decide +kernel, by decide +kernel, by decide +kernel⟩
    · exact ⟨by decide +kernel, by decide +kernel, by decide +kernel, by decide +kernel⟩
  have htotal : lastValue "MemTotal:"
      (linesOf '\n' "MemFree: 30 kB\nMemTotal: 80 kB\n".toList) = some 80 := by decide +kernel
  have hfree : lastValue "MemFree:"
      (linesOf '\n' "MemFree: 30 kB\nMemTotal: 80 kB\n".toList) = some 30 := by decide +kernel
  have hset := readMemInfo_eq hplain htotal hfree true 1 2
  exact hset.trans (readMemInfo_eq hplain htotal hfree false 5 6).symm

end Memory

section Disks

/-- What an earlier line of the statistics looks like: it is none of the disk `sda`. -/
structure OtherDisk (line : List Char) : Prop where
  whole : '\n' ∉ line
  short : line.length + 1 < LINE_SIZE
  name : (tokens (line ++ ['\n']))[2]? ≠ some "sda".toList

variable {ts : List (List Char)} {st : DiskStats} {i : ℕ}

lemma DiskStats.read_other {t : List Char} (hst : st.isSdaLine = false)
    (ht : i = 2 → t ≠ "sda".toList) : DiskStats.read st i t = st := by
  obtain ⟨isSdaLine, _, _, _, _⟩ := st
  simp only at hst
  have hname : ¬ (i = 2 ∧ t = "sda".toList) := fun h => ht h.1 h.2
  simp only [DiskStats.read, hst, hname, decide_false, Bool.or_false, Bool.false_eq_true,
    false_and, if_false]

lemma scanTokens_other (hst : st.isSdaLine = false)
    (hts : ∀ j t, ts[j]? = some t → i + j = 2 → t ≠ "sda".toList) :
    scanTokens DiskStats.read i ts st = st := by
  induction ts generalizing i with
  | nil => rfl
  | cons t ts ih =>
    rw [scanTokens, DiskStats.read_other hst fun hi => hts 0 t rfl (by omega)]
    apply ih
    intro j u hj hij
    exact hts (j + 1) u hj (by omega)

lemma OtherDisk.scanTokens {line : List Char} (h : OtherDisk line) (hst : st.isSdaLine = false) :
    scanTokens DiskStats.read 0 (tokens (line ++ ['\n'])) st = st := by
  apply scanTokens_other hst
  intro j t hj hij ht
  have hj2 : j = 2 := by omega
  rw [hj2, ht] at hj
  exact h.name hj

lemma scanTokens_sda {major minor r mr x y w mw : List Char} (hmajor : st.isSdaLine = false) :
    scanTokens DiskStats.read 0
      (major :: minor :: "sda".toList :: r :: mr :: x :: y :: w :: mw :: ts) st =
    scanTokens DiskStats.read 9 ts ⟨true, atoi r, atoi w, atoi mr, atoi mw⟩ := by
  obtain ⟨isSdaLine, _, _, _, _⟩ := st
  simp only at hmajor
  simp [scanTokens, DiskStats.read, hmajor]

lemma scanTokens_rest (hi : 9 ≤ i) : scanTokens DiskStats.read i ts st = st := by
  induction ts generalizing i with
  | nil => rfl
  | cons t ts ih =>
    have hread : DiskStats.read st i t = st := by
      obtain ⟨isSdaLine, _, _, _, _⟩ := st
      have h2 : i ≠ 2 := by omega
      have h3 : i - 2 ≠ 1 := by omega
      have h4 : i - 2 ≠ 2 := by omega
      have h7 : i - 2 ≠ 5 := by omega
      have h8 : i - 2 ≠ 6 := by omega
      simp only [DiskStats.read, h2, h3, h4, h7, h8, false_and, decide_false, Bool.or_false,
        if_false, ite_self]
    rw [scanTokens, hread]
    exact ih (by omega)

/-- What is reported of the first line whose third word is `sda`: the completed requests and the
merged ones together, whatever the variables held that are left unset. -/
theorem readDiskStats_eq {before : List (List Char)} {line : List Char}
    {major minor r mr x y w mw : List Char} (hbefore : ∀ l ∈ before, OtherDisk l)
    (hline : '\n' ∉ line) (hlen : line.length + 1 < LINE_SIZE)
    (htokens : tokens (line ++ ['\n']) =
      major :: minor :: "sda".toList :: r :: mr :: x :: y :: w :: mw :: ts)
    (completedReads completedWrites mergedReads : ℤ) (after : List Char) :
    let reads := (BitVec.ofInt 32 (atoi r + atoi mr)).toInt
    let writes := (BitVec.ofInt 32 (atoi w + atoi mw)).toInt
    readDiskStats completedReads completedWrites mergedReads (textWith before line after) =
      s!"Disk read/write requests made on the system: {reads}/{writes}\n" := by
  have hpieces := pieces_textWith (fun l hl => (hbefore l hl).whole) hline hlen after
  have hscan (st : DiskStats) (hst : st.isSdaLine = false) :
      scanTokens DiskStats.read 0 (tokens (line ++ ['\n'])) st =
        ⟨true, atoi r, atoi w, atoi mr, atoi mw⟩ := by
    rw [htokens, scanTokens_sda hst, scanTokens_rest le_rfl]
  have hst : scanFile DiskStats.read DiskStats.isSdaLine (textWith before line after)
      ⟨false, completedReads, completedWrites, mergedReads, 0⟩ =
        ⟨true, atoi r, atoi w, atoi mr, atoi mw⟩ := by
    rw [scanFile, hpieces, scanLines_append, scanLines_found, hscan _ rfl]
    · rw [hscan _ rfl]
    · intro piece hpiece
      obtain ⟨l, hmem, hcut⟩ := List.mem_flatMap.mp hpiece
      obtain ⟨l, hl, rfl⟩ := List.mem_map.mp hmem
      have hshort := (hbefore l hl).short
      rw [cut_of_length_le (by simp)
        (by rw [List.length_append, List.length_singleton]; omega)] at hcut
      rw [List.mem_singleton.mp hcut]
      exact (hbefore l hl).scanTokens rfl
    · rfl
  unfold readDiskStats
  rw [hst]

theorem readDiskStats_eq_demo :
    readDiskStats 1 2 3 (textWith ["  11  0 sr0 7".toList]
      "   8  0 sda 100 20 3 4 50 6 7".toList []) =
        "Disk read/write requests made on the system: 120/56\n" := by
  have hbefore : ∀ l ∈ ["  11  0 sr0 7".toList], OtherDisk l := by
    rw [List.forall_mem_singleton]
    exact ⟨by decide +kernel, by decide +kernel, by decide +kernel⟩
  have htokens : tokens ("   8  0 sda 100 20 3 4 50 6 7".toList ++ ['\n']) =
      ['8'] :: ['0'] :: "sda".toList :: ['1', '0', '0'] :: ['2', '0'] :: ['3'] :: ['4'] ::
        ['5', '0'] :: ['6'] :: [['7', '\n']] := by decide +kernel
  have hreport := readDiskStats_eq hbefore (by decide +kernel) (by decide +kernel) htokens 1 2 3 []
  exact hreport.trans (by decide +kernel)

end Disks

end Eece315.MonitorFiles
