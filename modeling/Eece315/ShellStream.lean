import Eece315.ShellStdin
import Eece315.StepRuns

/-! The loop of the mini shell over a whole stream. As long as nobody else moves the stream, it
parses one command for each line exactly when no line needs more than one buffer and the buffers
are blank behind the end of the stream. -/
namespace Eece315.ShellStream
open Words Lines StepRuns ShellCommand ShellGrammar ShellDispatch ShellStdin

/-- What an iteration is given: the contents of its new buffer, and the environment. -/
structure Input where
  buffer : List Char
  env : Environment

/-- An iteration with what happens to the standard input around it. -/
structure Turn extends Input, Traffic

/-- The shell with the commands that it has acted on. -/
structure Shell where
  reader : Reader
  stdin : Stdin
  running : Bool
  dispatched : List Command

def start (command : Command) (stdin : List Char) (seekable : Bool) : Shell :=
  ⟨⟨stdin, command, [], []⟩, ⟨if seekable then some stdin else none, 0, false, []⟩, true, []⟩

def iterate (turn : Turn) (sh : Shell) : Option Shell := do
  let (stdin, left) := sh.stdin.settle turn.toTraffic sh.reader.stdin
  let (action, r) ← iteration turn.env turn.buffer { sh.reader with stdin := left }
  return {
    reader := r
    stdin := (stdin.read turn.toTraffic left r.stdin).fork turn.toTraffic action
    running := action ≠ .leave
    dispatched := if action.dispatches then sh.dispatched ++ [r.command] else sh.dispatched }

def step (sh : Shell) (turn : Turn) : Option Shell :=
  if sh.running then iterate turn sh else some sh

def mainLoop (turns : List Turn) (sh : Shell) : Option Shell := turns.foldlM step sh

/-- In every iteration only the shell has moved the stream when it reads its line. -/
def Undisturbed (turns : List Turn) (sh : Shell) : Prop :=
  EveryStep step sh
    (fun sh turn => sh.running = true → sh.stdin.Quiet turn.toTraffic sh.reader.stdin) turns

/-- What `fgets` finds in a stream, one call after the other. -/
def piecesOf (stdin : List Char) : List (List Char) := pieces '\n' (MAX_LINE_LENGTH - 1) stdin

def wordsOf (line : List Char) : List (List Char) := words isSpace line

/-- The command is `exit` or `quit`. -/
def IsExit (ws : List (List Char)) : Prop :=
  ws.head? = some ['e', 'x', 'i', 't'] ∨ ws.head? = some ['q', 'u', 'i', 't']

instance : DecidablePred IsExit := fun _ => inferInstanceAs (Decidable (_ ∨ _))

def nonblank (lines : List (List Char)) : List (List (List Char)) :=
  (lines.map wordsOf).filter (· ≠ [])

def lineWords (stdin : List Char) : List (List (List Char)) := nonblank (linesOf '\n' stdin)

/-- The strings that the shell has parsed so far have the words of `log`, and it has acted on
those with an acceptable name. -/
structure Logged (sh : Shell) (log : List (List (List Char))) : Prop where
  parsed : sh.reader.parsed.map wordsOf = log
  dispatched : List.Forall₂ Carries sh.dispatched
    ((log.filter fun ws => NameFits ws).map request)

/-- After enough iterations the shell has parsed the lines that are not blank, up to the first
`exit` or `quit`, and it never parses anything else. -/
def OneParsePerLine (command : Command) (stdin : List Char) (seekable : Bool)
    (turns : ℕ → Turn) : Prop :=
  ∃ N, ∀ n ≥ N, ∃ sh,
    mainLoop ((List.range n).map turns) (start command stdin seekable) = some sh ∧
      Logged sh (upTo IsExit (lineWords stdin))

/-- A line is parsed as it stands: at most one of the pieces it is read in is not blank, and
neither `argv` nor the command line of a built-in command is overrun. -/
structure Regular (line : List Char) : Prop where
  whole : ((cut (MAX_LINE_LENGTH - 1) line).filter fun piece => wordsOf piece ≠ []).length ≤ 1
  fits : NameFits (wordsOf line) →
    (wordsOf line).length ≤ 62 ∧ BuiltinFits (request (wordsOf line)).args

/-- All lines are regular up to the one at which the shell leaves, which is right, and the buffers
are blank behind the end of the stream unless there is such a line. -/
structure Orderly (stdin : List Char) (turns : ℕ → Turn) : Prop where
  regular : ∀ line ∈ upTo (fun line => Leaves (wordsOf line)) (linesOf '\n' stdin), Regular line
  exits : upTo Leaves (lineWords stdin) = upTo IsExit (lineWords stdin)
  blank : (∃ line ∈ linesOf '\n' stdin, Leaves (wordsOf line)) ∨
    ∀ i ≥ (piecesOf stdin).length,
      ∃ s, cString (turns i).buffer = some s ∧ wordsOf s = []

/-- Whether the shell leaves at a command, if it survives it. -/
def verdict (ws : List (List Char)) : Option Bool :=
  if NameFits ws then
    if ws.length + 1 < MAX_ARGS ∧ BuiltinFits (request ws).args then some (decide (Leaves ws))
    else none
  else some false

/-- What the shell makes of the words it finds in its buffer, one iteration after the other:
whether it still runs, and the words that it parses. -/
def scan : List (Option (List (List Char))) → Option (Bool × List (List (List Char)))
  | [] => some (true, [])
  | none :: _ => none
  | some ws :: found =>
    if ws = [] then scan found
    else match verdict ws with
      | none => none
      | some true => some (false, [ws])
      | some false => (scan found).map fun (running, log) => (running, ws :: log)

/-- The strings in the buffers: the pieces of the stream, and then what the buffers are given
with. -/
def texts : List (List Char) → List Turn → List (Option (List Char))
  | _, [] => []
  | [], turn :: turns => cString turn.buffer :: texts [] turns
  | piece :: pieces, _ :: turns => some piece :: texts pieces turns

section Scan

variable {ws : List (List Char)} {found : List (Option (List (List Char)))}

@[simp] lemma scan_blank (found : List (Option (List (List Char)))) :
    scan (some [] :: found) = scan found := by
  rw [scan, if_pos rfl]

lemma scan_cons (hws : ws ≠ []) (found : List (Option (List (List Char)))) :
    scan (some ws :: found) = match verdict ws with
      | none => none
      | some true => some (false, [ws])
      | some false => (scan found).map fun (running, log) => (running, ws :: log) := by
  rw [scan, if_neg hws]

lemma scan_head (hws : ws ≠ []) {running : Bool} {log : List (List (List Char))}
    (h : scan (some ws :: found) = some (running, log)) : log.head? = some ws := by
  rw [scan_cons hws] at h
  split at h
  · cases h
  · rw [← (Prod.mk.inj (Option.some.inj h)).2, List.head?_cons]
  · obtain ⟨⟨b, l⟩, -, he⟩ := Option.map_eq_some_iff.mp h
    rw [← (Prod.mk.inj he).2, List.head?_cons]

lemma scan_eq_nil_iff (found : List (Option (List (List Char)))) :
    (∃ running, scan found = some (running, [])) ↔ ∀ t ∈ found, t = some [] := by
  induction found with
  | nil => simp [scan]
  | cons t found ih =>
    cases t with
    | none => simp [scan]
    | some ws =>
      by_cases hws : ws = []
      · simp [hws, ih]
      · apply iff_of_false
        · rintro ⟨running, h⟩
          simpa using scan_head hws h
        · intro h
          exact hws (Option.some.inj (h _ List.mem_cons_self))

lemma scan_blanks_append (found : List (Option (List (List Char)))) {ps : List (List Char)}
    (hps : ∀ p ∈ ps, wordsOf p = []) :
    scan (ps.map (fun p => some (wordsOf p)) ++ found) = scan found := by
  induction ps with
  | nil => rfl
  | cons p ps ih =>
    rw [List.map_cons, List.cons_append, hps p List.mem_cons_self, scan_blank]
    exact ih fun q hq => hps q (List.mem_cons_of_mem p hq)

lemma wordsOf_flatten_eq_nil_iff {ps : List (List Char)} :
    wordsOf ps.flatten = [] ↔ ∀ p ∈ ps, wordsOf p = [] := by
  simp only [wordsOf, words_eq_nil_iff, List.mem_flatten]
  constructor
  · intro h p hp c hc
    exact h c ⟨p, hp, hc⟩
  · intro h c hc
    obtain ⟨p, hp, hcp⟩ := hc
    exact h p hp c hcp

lemma scan_whole {ps : List (List Char)} (h : (ps.filter fun p => wordsOf p ≠ []).length ≤ 1)
    (found : List (Option (List (List Char)))) :
    scan (ps.map (fun p => some (wordsOf p)) ++ found) =
      scan (some (wordsOf ps.flatten) :: found) := by
  induction ps with
  | nil => simp [wordsOf]
  | cons p ps ih =>
    rw [List.map_cons, List.cons_append, List.flatten_cons]
    by_cases hp : wordsOf p = []
    · have hwords : wordsOf (p ++ ps.flatten) = wordsOf ps.flatten :=
        words_append_of_blank (words_eq_nil_iff.mp hp) _
      rw [List.filter_cons_of_neg (by simp [hp])] at h
      rw [hp, scan_blank, hwords, ih h]
    · have hblank : ∀ q ∈ ps, wordsOf q = [] := by
        rw [List.filter_cons_of_pos (by simp [hp]), List.length_cons] at h
        have hnil := List.eq_nil_of_length_eq_zero (by omega :
          (ps.filter fun p => wordsOf p ≠ []).length = 0)
        simpa [List.filter_eq_nil_iff] using hnil
      have hwords : wordsOf (p ++ ps.flatten) = wordsOf p :=
        words_append_blank p (words_eq_nil_iff.mp (wordsOf_flatten_eq_nil_iff.mpr hblank))
      rw [hwords, scan_cons hp, scan_cons hp, scan_blanks_append found hblank]

/-- A line of two pieces is broken: what is parsed first has fewer letters. -/
lemma scan_broken {ps : List (List Char)} (h : 1 < (ps.filter fun p => wordsOf p ≠ []).length)
    {running : Bool} {log : List (List (List Char))}
    (hscan : scan (ps.map (fun p => some (wordsOf p)) ++ found) = some (running, log)) :
    log.head? ≠ some (wordsOf ps.flatten) := by
  induction ps with
  | nil => simp at h
  | cons p ps ih =>
    rw [List.map_cons, List.cons_append] at hscan
    rw [List.flatten_cons]
    by_cases hp : wordsOf p = []
    · have hwords : wordsOf (p ++ ps.flatten) = wordsOf ps.flatten :=
        words_append_of_blank (words_eq_nil_iff.mp hp) _
      rw [List.filter_cons_of_neg (by simp [hp])] at h
      rw [hp, scan_blank] at hscan
      rw [hwords]
      exact ih h hscan
    · rw [scan_head hp hscan]
      intro he
      rw [List.filter_cons_of_pos (by simp [hp]), List.length_cons] at h
      obtain ⟨q, hq⟩ := List.exists_mem_of_length_pos (by omega :
        0 < (ps.filter fun p => wordsOf p ≠ []).length)
      rw [List.mem_filter, decide_eq_true_eq] at hq
      have hletters := congrArg List.flatten (Option.some.inj he)
      rw [wordsOf, wordsOf, flatten_words, flatten_words, List.filter_append,
        List.self_eq_append_right, List.filter_eq_nil_iff] at hletters
      apply hq.2
      rw [wordsOf, words_eq_nil_iff]
      intro c hc
      simpa using hletters c (List.mem_flatten_of_mem hq.1 hc)

lemma isExit_imp_leaves (h : IsExit ws) : Leaves ws := by
  rcases h with h | h
  · exact ⟨by simp [NameFits, h, MAX_PROG_LENGTH], _, h, .inl (by decide)⟩
  · exact ⟨by simp [NameFits, h, MAX_PROG_LENGTH], _, h, .inr (by decide)⟩

def lineTexts (line : List Char) : List (Option (List (List Char))) :=
  (cut (MAX_LINE_LENGTH - 1) line).map fun p => some (wordsOf p)

lemma flatten_cut_line (line : List Char) : (cut (MAX_LINE_LENGTH - 1) line).flatten = line :=
  flatten_cut (by decide) line

lemma verdict_eq_some {b : Bool} (h : verdict ws = some b) : b = decide (Leaves ws) := by
  rw [verdict] at h
  split_ifs at h with hfits
  · exact (Option.some.inj h).symm
  · rw [← Option.some.inj h, eq_comm, decide_eq_false_iff_not]
    exact fun hl => hfits hl.1

lemma regular_iff {line : List Char} : Regular line ↔
    ((cut (MAX_LINE_LENGTH - 1) line).filter fun piece => wordsOf piece ≠ []).length ≤ 1 ∧
      verdict (wordsOf line) = some (decide (Leaves (wordsOf line))) := by
  have hverdict : verdict (wordsOf line) = some (decide (Leaves (wordsOf line))) ↔
      (NameFits (wordsOf line) →
        (wordsOf line).length ≤ 62 ∧ BuiltinFits (request (wordsOf line)).args) := by
    by_cases hfits : NameFits (wordsOf line)
    · rw [verdict, if_pos hfits, MAX_ARGS]
      split_ifs with hb
      · exact iff_of_true rfl fun _ => ⟨by omega, hb.2⟩
      · apply iff_of_false (by simp)
        intro h
        have hlen := (h hfits).1
        exact hb ⟨by omega, (h hfits).2⟩
    · have hstay : ¬ Leaves (wordsOf line) := fun h => hfits h.1
      rw [verdict, if_neg hfits]
      simp [hstay, hfits]
  rw [hverdict]
  exact ⟨fun h => ⟨h.whole, h.fits⟩, fun h => ⟨h.1, h.2⟩⟩

lemma regular_of_short {line : List Char} (hne : line ≠ [])
    (hlen : line.length ≤ MAX_LINE_LENGTH - 1) (hwords : (wordsOf line).length ≤ 62)
    (hfits : BuiltinFits (request (wordsOf line)).args) : Regular line := by
  refine ⟨?_, fun _ => ⟨hwords, hfits⟩⟩
  rw [cut_of_length_le hne hlen]
  exact List.length_filter_le _ _

lemma nonblank_cons_of_blank {line : List Char} (h : wordsOf line = [])
    (lines : List (List Char)) : nonblank (line :: lines) = nonblank lines := by
  rw [nonblank, List.map_cons, List.filter_cons_of_neg (by simp [h])]
  rfl

lemma nonblank_cons {line : List Char} (h : wordsOf line ≠ []) (lines : List (List Char)) :
    nonblank (line :: lines) = wordsOf line :: nonblank lines := by
  rw [nonblank, List.map_cons, List.filter_cons_of_pos (by simp [h])]
  rfl

lemma scan_lineTexts_broken {line : List Char} {lines : List (List Char)}
    {found : List (Option (List (List Char)))}
    (hwhole : ¬ ((cut (MAX_LINE_LENGTH - 1) line).filter fun p => wordsOf p ≠ []).length ≤ 1) :
    ¬ ∃ running, scan (lineTexts line ++ found) =
      some (running, upTo IsExit (nonblank (line :: lines))) := by
  rintro ⟨running, h⟩
  have hne : wordsOf line ≠ [] := by
    intro hnil
    rw [← flatten_cut_line line, wordsOf_flatten_eq_nil_iff] at hnil
    apply hwhole
    rw [List.filter_eq_nil_iff.mpr (by simpa using hnil)]
    exact Nat.zero_le 1
  apply scan_broken (not_le.mp hwhole) h
  rw [flatten_cut_line, nonblank_cons hne, upTo]
  split_ifs <;> rfl

lemma scan_lines (lines : List (List Char)) (found : List (Option (List (List Char)))) :
    (∃ running, scan (lines.flatMap lineTexts ++ found) =
      some (running, upTo IsExit (nonblank lines))) ↔
    (∀ line ∈ upTo (fun line => Leaves (wordsOf line)) lines, Regular line) ∧
      upTo Leaves (nonblank lines) = upTo IsExit (nonblank lines) ∧
      ((∃ line ∈ lines, Leaves (wordsOf line)) ∨ ∀ t ∈ found, t = some []) := by
  induction lines with
  | nil => simpa [nonblank, upTo] using scan_eq_nil_iff found
  | cons line lines ih =>
    have hfirst : line ∈ upTo (fun line => Leaves (wordsOf line)) (line :: lines) := by
      rw [upTo]
      split_ifs <;> exact List.mem_cons_self
    rw [List.flatMap_cons, List.append_assoc]
    by_cases hwhole :
        ((cut (MAX_LINE_LENGTH - 1) line).filter fun p => wordsOf p ≠ []).length ≤ 1
    · have hscan := scan_whole hwhole (lines.flatMap lineTexts ++ found)
      rw [flatten_cut_line] at hscan
      rw [lineTexts, hscan]
      by_cases hblank : wordsOf line = []
      · -- a blank line changes nothing
        have hstay : ¬ Leaves (wordsOf line) := by rw [hblank]; decide
        have hregular : Regular line := by
          rw [regular_iff, hblank]
          exact ⟨hwhole, by decide⟩
        rw [hblank, scan_blank, nonblank_cons_of_blank hblank, ih]
        simp [upTo, hstay, hregular]
      · rw [nonblank_cons hblank, scan_cons hblank]
        cases hv : verdict (wordsOf line) with
        | none =>
          apply iff_of_false
          · rintro ⟨running, h⟩
            cases h
          · intro h
            have hregular := (regular_iff.mp (h.1 line hfirst)).2
            rw [hv] at hregular
            cases hregular
        | some b =>
          have hb := verdict_eq_some hv
          have hregular : Regular line := regular_iff.mpr ⟨hwhole, hv.trans (congrArg some hb)⟩
          by_cases hl : Leaves (wordsOf line)
          · rw [hb, decide_eq_true hl]
            simp [upTo, hl, hregular]
          · have hexit : ¬ IsExit (wordsOf line) := fun h => hl (isExit_imp_leaves h)
            have hmap : (∃ running,
                ((scan (lines.flatMap lineTexts ++ found)).map fun (running, log) =>
                  (running, wordsOf line :: log)) =
                some (running, wordsOf line :: upTo IsExit (nonblank lines))) ↔
                ∃ running, scan (lines.flatMap lineTexts ++ found) =
                  some (running, upTo IsExit (nonblank lines)) := by
              simp [Option.map_eq_some_iff]
            rw [hb, decide_eq_false hl, upTo, if_neg hexit, upTo, if_neg hl]
            simp only []
            rw [hmap, ih]
            simp [upTo, hl, hregular]
    · apply iff_of_false
      · exact scan_lineTexts_broken hwhole
      · intro h
        exact hwhole (h.1 line hfirst).whole

end Scan

/-- The loop ends as the scan says. -/
def EndsAs (result : Option Shell) (log : List (List (List Char))) :
    Option (Bool × List (List (List Char))) → Prop
  | none => result = none
  | some (_, l) => ∃ sh, result = some sh ∧ Logged sh (log ++ l)

section Runs

variable {sh sh' : Shell} {turn : Turn} {turns : List Turn} {text stdin s : List Char}
  {log : List (List (List Char))}

lemma texts_cons (hnul : NUL ∉ stdin) (turn : Turn) (turns : List Turn) :
    texts (piecesOf stdin) (turn :: turns) =
      cString (fgets MAX_LINE_LENGTH turn.buffer stdin).1 ::
        texts (piecesOf (fgets MAX_LINE_LENGTH turn.buffer stdin).2) turns := by
  by_cases hs : stdin = []
  · rw [hs]
    rfl
  · have htake : NUL ∉ takeLine '\n' (MAX_LINE_LENGTH - 1) stdin :=
      fun h => hnul (takeLine_subset _ _ _ h)
    rw [piecesOf, pieces_eq_cons hs (by decide), texts, cString_fgets hs, takeWhile_ne_nul htake,
      fgets, if_neg hs]
    rfl

lemma iterate_of_some (hquiet : sh.stdin.Quiet turn.toTraffic sh.reader.stdin) {action : Action}
    {r : Reader} (h : iteration turn.env turn.buffer sh.reader = some (action, r)) :
    ∃ st, iterate turn sh = some ⟨r, st, action ≠ .leave,
      if action.dispatches then sh.dispatched ++ [r.command] else sh.dispatched⟩ := by
  have hsettle : sh.stdin.settle turn.toTraffic sh.reader.stdin =
      ((sh.stdin.settle turn.toTraffic sh.reader.stdin).1, sh.reader.stdin) :=
    Prod.ext rfl hquiet.settle
  rw [iterate, hsettle]
  simp only [Option.bind_eq_bind, h, Option.bind_some]
  exact ⟨_, rfl⟩

lemma iterate_of_none (hquiet : sh.stdin.Quiet turn.toTraffic sh.reader.stdin)
    (h : iteration turn.env turn.buffer sh.reader = none) : iterate turn sh = none := by
  have hsettle : sh.stdin.settle turn.toTraffic sh.reader.stdin =
      ((sh.stdin.settle turn.toTraffic sh.reader.stdin).1, sh.reader.stdin) :=
    Prod.ext rfl hquiet.settle
  rw [iterate, hsettle]
  simp only [Option.bind_eq_bind, h, Option.bind_none]

lemma iteration_of_none (hbuf : fgets MAX_LINE_LENGTH turn.buffer sh.reader.stdin = (text, stdin))
    (hs : cString text = none) : iteration turn.env turn.buffer sh.reader = none := by
  rw [iteration, readCommand_eq hbuf, hs]
  rfl

lemma iterate_of_blank (hquiet : sh.stdin.Quiet turn.toTraffic sh.reader.stdin)
    (hbuf : fgets MAX_LINE_LENGTH turn.buffer sh.reader.stdin = (text, stdin))
    (hs : cString text = some s) (hblank : wordsOf s = []) (hlog : Logged sh log) :
    ∃ sh', iterate turn sh = some sh' ∧ sh'.reader.stdin = stdin ∧ sh'.running = true ∧
      Logged sh' log := by
  have hiter : iteration turn.env turn.buffer sh.reader =
      some (.noCommand, { sh.reader with stdin := stdin }) := by
    rw [iteration, readCommand_of_blank hbuf hs hblank]
    rfl
  obtain ⟨st, hst⟩ := iterate_of_some hquiet hiter
  exact ⟨_, hst, rfl, rfl, hlog.parsed, hlog.dispatched⟩

lemma iterate_of_long (hquiet : sh.stdin.Quiet turn.toTraffic sh.reader.stdin)
    (hbuf : fgets MAX_LINE_LENGTH turn.buffer sh.reader.stdin = (text, stdin))
    (hs : cString text = some s) (hlong : ¬ NameFits (wordsOf s)) (hlog : Logged sh log) :
    ∃ sh', iterate turn sh = some sh' ∧ sh'.reader.stdin = stdin ∧ sh'.running = true ∧
      Logged sh' (log ++ [wordsOf s]) := by
  obtain ⟨c, hread⟩ := readCommand_of_long hbuf hs hlong
  have hiter : iteration turn.env turn.buffer sh.reader = some (.nameTooLong,
      { sh.reader with
        stdin := stdin, command := c, parsed := sh.reader.parsed ++ [s] }) := by
    rw [iteration, hread]
    rfl
  obtain ⟨st, hst⟩ := iterate_of_some hquiet hiter
  refine ⟨_, hst, rfl, rfl, ?_, ?_⟩
  · simp [hlog.parsed]
  · rw [List.filter_append, List.filter_cons_of_neg (by simpa using hlong)]
    simpa [Action.dispatches] using hlog.dispatched

lemma iterate_of_fits (hquiet : sh.stdin.Quiet turn.toTraffic sh.reader.stdin)
    (hbuf : fgets MAX_LINE_LENGTH turn.buffer sh.reader.stdin = (text, stdin))
    (hs : cString text = some s) (hws : wordsOf s ≠ []) (hfits : NameFits (wordsOf s))
    (hlen : (wordsOf s).length + 1 < MAX_ARGS) (hlog : Logged sh log) :
    if BuiltinFits (request (wordsOf s)).args then
      ∃ sh', iterate turn sh = some sh' ∧ sh'.reader.stdin = stdin ∧
        sh'.running = !decide (Leaves (wordsOf s)) ∧ Logged sh' (log ++ [wordsOf s])
    else iterate turn sh = none := by
  obtain ⟨c, k, hread, hcarries⟩ := readCommand_of_fits hbuf hs hws hfits hlen
  have hc : Carries c (request (wordsOf s)) := hcarries
  obtain ⟨name, ws, hcons⟩ := List.exists_cons_of_ne_nil hws
  have hname : name ∈ (request (wordsOf s)).args.head? := by
    rw [request_head, hcons]
    rfl
  have hleaves : act turn.env name (request (wordsOf s)).background = .leave ↔
      Leaves (wordsOf s) := by
    rw [act_eq_leave_iff, Leaves, and_iff_right hfits, hcons]
    simp
  have hiter := iteration_of_parsed turn.env hread hc hname
  split_ifs at hiter ⊢ with hb
  · obtain ⟨st, hst⟩ := iterate_of_some hquiet hiter
    refine ⟨_, hst, rfl, ?_, ?_, ?_⟩
    · simp [hleaves]
    · simp [hlog.parsed]
    · rw [List.filter_append, List.map_append]
      simp only [act_dispatches, if_true]
      apply List.rel_append hlog.dispatched
      simpa [hfits] using hc
  · exact iterate_of_none hquiet hiter

lemma iterate_of_words (hquiet : sh.stdin.Quiet turn.toTraffic sh.reader.stdin)
    (hbuf : fgets MAX_LINE_LENGTH turn.buffer sh.reader.stdin = (text, stdin))
    (hs : cString text = some s) (hws : wordsOf s ≠ []) (hlog : Logged sh log) :
    match verdict (wordsOf s) with
    | none => iterate turn sh = none
    | some leaves => ∃ sh', iterate turn sh = some sh' ∧ sh'.reader.stdin = stdin ∧
        sh'.running = !leaves ∧ Logged sh' (log ++ [wordsOf s]) := by
  by_cases hfits : NameFits (wordsOf s)
  · by_cases hlen : (wordsOf s).length + 1 < MAX_ARGS
    · have hiter := iterate_of_fits hquiet hbuf hs hws hfits hlen hlog
      rw [verdict, if_pos hfits]
      by_cases hb : BuiltinFits (request (wordsOf s)).args
      · rw [if_pos hb] at hiter
        rw [if_pos ⟨hlen, hb⟩]
        exact hiter
      · rw [if_neg hb] at hiter
        rw [if_neg fun h => hb h.2]
        exact hiter
    · rw [verdict, if_pos hfits, if_neg fun h => hlen h.1]
      apply iterate_of_none hquiet
      rw [iteration, readCommand_of_many hbuf hs hfits hlen]
      rfl
  · rw [verdict, if_neg hfits]
    exact iterate_of_long hquiet hbuf hs hfits hlog

lemma fgets_suffix (size : ℕ) (buffer stdin : List Char) :
    (fgets size buffer stdin).2 <:+ stdin := by
  rw [fgets]
  split_ifs
  · exact List.suffix_rfl
  · exact List.drop_suffix _ _

lemma mainLoop_of_stopped (h : sh.running = false) (turns : List Turn) :
    mainLoop turns sh = some sh := by
  induction turns with
  | nil => rfl
  | cons turn turns ih => simpa [mainLoop, step, h] using ih

lemma mainLoop_cons (h : sh.running = true) (turn : Turn) (turns : List Turn) :
    mainLoop (turn :: turns) sh = (iterate turn sh).bind (mainLoop turns) := by
  rw [mainLoop, List.foldlM_cons, step, if_pos h]
  rfl

lemma EndsAs.cons {result : Option Shell} {ws : List (List Char)}
    {found : Option (Bool × List (List (List Char)))} (h : EndsAs result (log ++ [ws]) found) :
    EndsAs result log (found.map fun (running, l) => (running, ws :: l)) := by
  cases found with
  | none => exact h
  | some found =>
    obtain ⟨sh, hresult, hlog⟩ := h
    rw [List.append_assoc, List.singleton_append] at hlog
    exact ⟨sh, hresult, hlog⟩

lemma mainLoop_scan (hquiet : Undisturbed turns sh) (hrun : sh.running = true)
    (hnul : NUL ∉ sh.reader.stdin) (hlog : Logged sh log) : EndsAs (mainLoop turns sh) log
      (scan ((texts (piecesOf sh.reader.stdin) turns).map (Option.map wordsOf))) := by
  induction turns generalizing sh log with
  | nil => exact ⟨sh, rfl, by rwa [List.append_nil]⟩
  | cons turn turns ih =>
    obtain ⟨hfirst, hrest⟩ := everyStep_cons.mp hquiet
    have hstep : step sh turn = iterate turn sh := if_pos hrun
    rw [hstep] at hrest
    obtain ⟨text, stdin, hbuf⟩ : ∃ text stdin,
        fgets MAX_LINE_LENGTH turn.buffer sh.reader.stdin = (text, stdin) := ⟨_, _, rfl⟩
    have hnul' : NUL ∉ stdin := by
      have hrest := fgets_suffix MAX_LINE_LENGTH turn.buffer sh.reader.stdin
      rw [hbuf] at hrest
      exact fun h => hnul (hrest.subset h)
    rw [texts_cons hnul, hbuf, List.map_cons, mainLoop_cons hrun]
    cases hs : cString text with
    | none =>
      rw [iterate_of_none (hfirst hrun) (iteration_of_none hbuf hs)]
      rfl
    | some s =>
      by_cases hws : wordsOf s = []
      · obtain ⟨sh', hiter, hstdin, hrun', hlog'⟩ :=
          iterate_of_blank (hfirst hrun) hbuf hs hws hlog
        have hnext := ih (hrest sh' hiter) hrun' (hstdin.symm ▸ hnul') hlog'
        rw [hstdin] at hnext
        rw [Option.map_some, hws, scan_blank, hiter]
        exact hnext
      · have hiter := iterate_of_words (hfirst hrun) hbuf hs hws hlog
        rw [Option.map_some, scan_cons hws]
        cases hv : verdict (wordsOf s) with
        | none =>
          rw [hv] at hiter
          rw [hiter]
          rfl
        | some leaves =>
          rw [hv] at hiter
          obtain ⟨sh', hiter, hstdin, hrun', hlog'⟩ := hiter
          rw [hiter, Option.bind_some]
          cases leaves with
          | true => exact ⟨sh', mainLoop_of_stopped hrun' turns, hlog'⟩
          | false =>
            have hnext := ih (hrest sh' hiter) hrun' (hstdin.symm ▸ hnul') hlog'
            rw [hstdin] at hnext
            exact hnext.cons

lemma mainLoop_iff {command : Command} {seekable : Bool} (hnul : NUL ∉ stdin)
    (hquiet : Undisturbed turns (start command stdin seekable)) (log : List (List (List Char))) :
    (∃ sh, mainLoop turns (start command stdin seekable) = some sh ∧ Logged sh log) ↔
      ∃ running, scan ((texts (piecesOf stdin) turns).map
        (Option.map wordsOf)) = some (running, log) := by
  have hends : EndsAs (mainLoop turns (start command stdin seekable)) []
      (scan ((texts (piecesOf stdin) turns).map (Option.map wordsOf))) :=
    mainLoop_scan hquiet rfl hnul ⟨rfl, List.Forall₂.nil⟩
  cases hscan : scan ((texts (piecesOf stdin) turns).map
      (Option.map wordsOf)) with
  | none =>
    rw [hscan] at hends
    apply iff_of_false
    · rintro ⟨sh, hsh, -⟩
      cases hends.symm.trans hsh
    · rintro ⟨running, h⟩
      cases h
  | some found =>
    rw [hscan] at hends
    obtain ⟨sh, hsh, hlog⟩ := hends
    rw [List.nil_append] at hlog
    constructor
    · rintro ⟨sh', hsh', hlog'⟩
      obtain rfl : sh = sh' := Option.some.inj (hsh.symm.trans hsh')
      exact ⟨found.1, by rw [← hlog.parsed.symm.trans hlog'.parsed]⟩
    · rintro ⟨running, h⟩
      rw [Option.some.inj h] at hlog
      exact ⟨sh, hsh, hlog⟩

lemma undisturbed_of_execv (h : ∀ turn ∈ turns, turn.programs = id ∧
    (sh.stdin.file = none ∨ turn.execv = true)) (hs : sh.stdin.Settled) :
    Undisturbed turns sh := by
  induction turns generalizing sh with
  | nil => exact everyStep_nil
  | cons turn turns ih =>
    obtain ⟨hid, hexecv⟩ := h turn List.mem_cons_self
    have hrest := fun t ht => h t (List.mem_cons_of_mem turn ht)
    refine everyStep_cons.mpr ⟨fun _ => ⟨fun _ => by rw [hid]; rfl, hs⟩, fun c hc => ?_⟩
    rw [step] at hc
    split_ifs at hc
    · obtain ⟨⟨action, r⟩, -, hc⟩ := Option.bind_eq_some_iff.mp hc
      obtain rfl := Option.some.inj hc
      have hfile := Stdin.settle_file sh.stdin turn.toTraffic sh.reader.stdin
      have hsettled := hs.settle turn.toTraffic sh.reader.stdin
      apply ih
      · rw [Stdin.fork_file]
        exact fun t ht => ⟨(hrest t ht).1, (hrest t ht).2.imp_left hfile.trans⟩
      · apply Stdin.Settled.fork
        · exact hsettled
        · exact hexecv.imp_left hfile.trans
    · obtain rfl := Option.some.inj hc
      exact ih hrest hs

lemma parsed_readCommand {buffer : List Char} {r r' : Reader} {k : ℤ}
    (h : readCommand buffer r = some (k, r')) : r.parsed <+: r'.parsed := by
  obtain ⟨text, stdin, hbuf⟩ : ∃ text stdin,
      fgets MAX_LINE_LENGTH buffer r.stdin = (text, stdin) := ⟨_, _, rfl⟩
  cases hs : cString text with
  | none =>
    rw [readCommand_eq hbuf, hs] at h
    cases h
  | some s =>
    by_cases hws : words isSpace s = []
    · rw [readCommand_of_blank hbuf hs hws] at h
      obtain ⟨-, rfl⟩ := Prod.mk.inj (Option.some.inj h)
      exact List.prefix_rfl
    · by_cases hfits : NameFits (words isSpace s)
      · by_cases hlen : (words isSpace s).length + 1 < MAX_ARGS
        · obtain ⟨c, j, hread, -⟩ := readCommand_of_fits hbuf hs hws hfits hlen
          obtain ⟨-, rfl⟩ := Prod.mk.inj (Option.some.inj (hread.symm.trans h))
          exact List.prefix_append _ _
        · rw [readCommand_of_many hbuf hs hfits hlen] at h
          cases h
      · obtain ⟨c, hread⟩ := readCommand_of_long hbuf hs hfits
        obtain ⟨-, rfl⟩ := Prod.mk.inj (Option.some.inj (hread.symm.trans h))
        exact List.prefix_append _ _

lemma parsed_iteration {env : Environment} {buffer : List Char} {r r' : Reader} {action : Action}
    (h : iteration env buffer r = some (action, r')) : r.parsed <+: r'.parsed := by
  obtain ⟨⟨k, r₁⟩, hread, h⟩ := Option.bind_eq_some_iff.mp h
  have hparsed := parsed_readCommand hread
  simp only at h
  split_ifs at h
  · obtain ⟨-, rfl⟩ := Prod.mk.inj (Option.some.inj h)
    exact hparsed
  · obtain ⟨-, rfl⟩ := Prod.mk.inj (Option.some.inj h)
    exact hparsed
  obtain ⟨external, -, h⟩ := Option.bind_eq_some_iff.mp h
  split_ifs at h
  · obtain ⟨-, rfl⟩ := Prod.mk.inj (Option.some.inj h)
    exact hparsed
  obtain ⟨name, -, h⟩ := Option.bind_eq_some_iff.mp h
  split_ifs at h
  all_goals
    obtain ⟨-, rfl⟩ := Prod.mk.inj (Option.some.inj h)
    exact hparsed

lemma parsed_mainLoop (h : mainLoop turns sh = some sh') :
    sh.reader.parsed <+: sh'.reader.parsed := by
  refine foldlM_induction (motive := fun sh' => sh.reader.parsed <+: sh'.reader.parsed)
    List.prefix_rfl (fun c d turn hc hstep => hc.trans ?_) h
  rw [step] at hstep
  split_ifs at hstep
  · obtain ⟨⟨action, r⟩, hiter, hstep⟩ := Option.bind_eq_some_iff.mp hstep
    obtain rfl := Option.some.inj hstep
    have hparsed := parsed_iteration hiter
    exact hparsed
  · obtain rfl := Option.some.inj hstep
    exact List.prefix_rfl

lemma texts_eq {ps : List (List Char)} (hlen : ps.length ≤ turns.length) :
    texts ps turns =
      ps.map some ++ (turns.drop ps.length).map fun turn => cString turn.buffer := by
  induction turns generalizing ps with
  | nil =>
    obtain rfl := List.eq_nil_of_length_eq_zero (Nat.le_zero.mp hlen)
    rfl
  | cons turn turns ih =>
    cases ps with
    | nil =>
      rw [texts, ih (Nat.zero_le _)]
      rfl
    | cons p ps =>
      rw [texts, ih (Nat.le_of_succ_le_succ hlen)]
      rfl

end Runs

section Lines

variable {command : Command} {stdin : List Char} {turns : ℕ → Turn} {n : ℕ}

def leftover (stdin : List Char) (turns : ℕ → Turn) (n : ℕ) :
    List (Option (List (List Char))) :=
  (((List.range n).map turns).drop (piecesOf stdin).length).map
    fun turn => (cString turn.buffer).map wordsOf

lemma texts_range (hn : (piecesOf stdin).length ≤ n) :
    (texts (piecesOf stdin) ((List.range n).map turns)).map
        (Option.map wordsOf) =
      (linesOf '\n' stdin).flatMap lineTexts ++ leftover stdin turns n := by
  rw [texts_eq (by simpa using hn), List.map_append, List.map_map, List.map_map,
    piecesOf, pieces, List.map_flatMap]
  rfl

lemma leftover_blank_iff : (∀ t ∈ leftover stdin turns n, t = some []) ↔
    ∀ i ≥ (piecesOf stdin).length, i < n →
      ∃ s, cString (turns i).buffer = some s ∧ wordsOf s = [] := by
  have hmem (t : Option (List (List Char))) : t ∈ leftover stdin turns n ↔
      ∃ i, (piecesOf stdin).length ≤ i ∧ i < n ∧
        (cString (turns i).buffer).map wordsOf = t := by
    rw [leftover, List.range_eq_range', ← List.map_drop, List.drop_range', List.map_map,
      List.mem_map]
    simp only [List.mem_range'_1, Function.comp_apply]
    constructor
    · rintro ⟨i, hi, rfl⟩
      exact ⟨i, by omega, by omega, rfl⟩
    · rintro ⟨i, hi, hin, rfl⟩
      exact ⟨i, by omega, rfl⟩
  constructor
  · intro h i hi hin
    exact Option.map_eq_some_iff.mp (h _ ((hmem _).mpr ⟨i, hi, hin, rfl⟩))
  · intro h t ht
    obtain ⟨i, hi, hin, rfl⟩ := (hmem t).mp ht
    exact Option.map_eq_some_iff.mpr (h i hi hin)

lemma undisturbed_range (command : Command) (stdin : List Char) (seekable : Bool)
    (h : ∀ n, (turns n).programs = id ∧ (turns n).execv = true) (n : ℕ) :
    Undisturbed ((List.range n).map turns) (start command stdin seekable) := by
  apply undisturbed_of_execv
  · intro turn hturn
    obtain ⟨i, -, rfl⟩ := List.mem_map.mp hturn
    exact ⟨(h i).1, .inr (h i).2⟩
  · exact .inr fun k hk => absurd hk List.not_mem_nil

lemma ends_iff {command : Command} {seekable : Bool} (hnul : NUL ∉ stdin)
    (hquiet : Undisturbed ((List.range n).map turns) (start command stdin seekable))
    (hn : (piecesOf stdin).length ≤ n) :
    (∃ sh, mainLoop ((List.range n).map turns) (start command stdin seekable) = some sh ∧
      Logged sh (upTo IsExit (lineWords stdin))) ↔
    (∀ line ∈ upTo (fun line => Leaves (wordsOf line)) (linesOf '\n' stdin), Regular line) ∧
      upTo Leaves (lineWords stdin) = upTo IsExit (lineWords stdin) ∧
      ((∃ line ∈ linesOf '\n' stdin, Leaves (wordsOf line)) ∨
        ∀ t ∈ leftover stdin turns n, t = some []) := by
  rw [mainLoop_iff hnul hquiet, texts_range hn]
  exact scan_lines _ _

end Lines

/-- On a stream without NUL that only the shell moves, it parses one command for each line exactly
when the stream is in order. -/
theorem oneParsePerLine_iff (command : Command) (stdin : List Char) (seekable : Bool)
    (turns : ℕ → Turn) (hnul : NUL ∉ stdin)
    (hquiet : ∀ n, Undisturbed ((List.range n).map turns) (start command stdin seekable)) :
    OneParsePerLine command stdin seekable turns ↔ Orderly stdin turns := by
  constructor
  · rintro ⟨N, hN⟩
    have hruns (n : ℕ) := (ends_iff hnul (hquiet _) (le_max_right (max N n) _)).mp
      (hN _ (le_trans (le_max_left N n) (le_max_left _ _)))
    refine ⟨(hruns 0).1, (hruns 0).2.1, ?_⟩
    by_cases hleaves : ∃ line ∈ linesOf '\n' stdin, Leaves (wordsOf line)
    · exact .inl hleaves
    · right
      intro i hi
      have hblank := leftover_blank_iff.mp ((hruns (i + 1)).2.2.resolve_left hleaves)
      apply hblank i hi
      have hle := le_trans (le_max_right N (i + 1))
        (le_max_left _ (piecesOf stdin).length)
      omega
  · intro h
    refine ⟨(piecesOf stdin).length, fun n hn => ?_⟩
    rw [ends_iff hnul (hquiet n) hn]
    refine ⟨h.regular, h.exits, ?_⟩
    rcases h.blank with hleaves | hblank
    · exact .inl hleaves
    · exact .inr (leftover_blank_iff.mpr fun i hi _ => hblank i hi)

/-- The lines "ls" and "exit" of a file are parsed one by one, whatever the buffers hold, if `ls`
can be executed. -/
theorem oneParsePerLine_iff_demo :
    OneParsePerLine ⟨none, 0, fun _ => none, false, none⟩
      ['l', 's', '\n', 'e', 'x', 'i', 't', '\n'] true
      fun _ => ⟨⟨['l', 's', NUL], [], fun _ => some [['l', 's']]⟩, id, [], 5, true⟩ := by
  apply (oneParsePerLine_iff _ _ _ _ (by decide)
    fun n => undisturbed_range _ _ _ (fun _ => ⟨rfl, rfl⟩) n).mpr
  have hlines : upTo (fun line => Leaves (wordsOf line))
      (linesOf '\n' ['l', 's', '\n', 'e', 'x', 'i', 't', '\n']) =
        [['l', 's', '\n'], ['e', 'x', 'i', 't', '\n']] := by decide
  refine ⟨fun line hline => ?_, by decide, .inl ⟨['e', 'x', 'i', 't', '\n'], by decide, by decide⟩⟩
  rw [hlines, List.mem_cons, List.mem_singleton] at hline
  rcases hline with rfl | rfl
  · exact regular_of_short (by decide) (by decide) (by decide) (by decide)
  · exact regular_of_short (by decide) (by decide) (by decide) (by decide)

lemma not_oneParsePerLine_of_long :
    NUL ∉ ['l', 's'] ++ List.replicate 1021 ' ' ++ ['p', 's'] ++ ['\n'] ∧
      ∀ command seekable turns, (∀ n, (turns n).programs = id ∧ (turns n).execv = true) →
        ¬ OneParsePerLine command
          (['l', 's'] ++ List.replicate 1021 ' ' ++ ['p', 's'] ++ ['\n']) seekable turns := by
  have hlen : (List.replicate 1021 ' ').length = 1021 := List.length_replicate
  have hspace : ∀ c ∈ List.replicate 1021 ' ', c = ' ' := fun c => List.eq_of_mem_replicate
  generalize List.replicate 1021 ' ' = blanks at hlen hspace ⊢
  have hnot {c : Char} (hc : c ≠ ' ') : c ∉ blanks := fun h => hc (hspace c h)
  have hnul : NUL ∉ ['l', 's'] ++ blanks ++ ['p', 's'] ++ ['\n'] := by
    simp [NUL, hnot (by decide : '\x00' ≠ ' ')]
  refine ⟨hnul, ?_⟩
  rintro command seekable turns hturns ⟨N, hN⟩
  have hquiet (n : ℕ) := undisturbed_range command
    (['l', 's'] ++ blanks ++ ['p', 's'] ++ ['\n']) seekable hturns n
  have hregular :=
    ((ends_iff hnul (hquiet _) (le_max_right N _)).mp (hN _ (le_max_left N _))).1
  have hnl : '\n' ∉ ['l', 's'] ++ blanks ++ ['p', 's'] := by
    simp [hnot (by decide : '\n' ≠ ' ')]
  have hline := linesOf_singleton hnl
  have hcut : cut (MAX_LINE_LENGTH - 1) (['l', 's'] ++ blanks ++ ['p', 's'] ++ ['\n']) =
      [['l', 's'] ++ blanks, ['p', 's', '\n']] := by
    rw [List.append_assoc, cut_append (by simp [MAX_LINE_LENGTH, hlen]) (by decide)]
    exact congrArg _ (cut_of_length_le (by decide) (by decide))
  have hblank : ∀ c ∈ blanks, isSpace c = true := fun c hc => by rw [hspace c hc]; decide
  have hwords : wordsOf (['l', 's'] ++ blanks) = [['l', 's']] := by
    rw [wordsOf, words_append_blank _ hblank]
    decide
  have hwhole := (hregular _ (by rw [hline, upTo]; split_ifs <;> exact List.mem_cons_self)).whole
  have hfirst : decide (wordsOf (['l', 's'] ++ blanks) ≠ []) = true := by rw [hwords]; decide
  rw [hcut, List.filter_cons_of_pos (p := fun piece => wordsOf piece ≠ []) hfirst,
    List.filter_cons_of_pos (by decide)] at hwhole
  exact absurd hwhole (by simp)

lemma not_oneParsePerLine_of_leftover (command : Command) (env : Environment) (seekable : Bool) :
    ¬ OneParsePerLine command [] seekable
      fun _ => ⟨⟨['l', 's', NUL], env⟩, id, [], 0, true⟩ := by
  rintro ⟨N, hN⟩
  have hnul : NUL ∉ ([] : List Char) := by simp
  let turns : ℕ → Turn := fun _ => ⟨⟨['l', 's', NUL], env⟩, id, [], 0, true⟩
  have hturns : ∀ n, (turns n).programs = id ∧ (turns n).execv = true := fun _ => ⟨rfl, rfl⟩
  have hquiet (n : ℕ) := undisturbed_range command [] seekable hturns n
  have hblank := ((ends_iff hnul (hquiet _) (Nat.zero_le _)).mp (hN _ (Nat.le_succ N))).2.2
  have hempty := leftover_blank_iff.mp (hblank.resolve_left (by simp [linesOf])) N
    (Nat.zero_le N) (Nat.lt_succ_self N)
  obtain ⟨s, hs, hwords⟩ := hempty
  have hls : cString ['l', 's', NUL] = some ['l', 's'] := by decide
  rw [← Option.some.inj (hls.symm.trans hs)] at hwords
  exact absurd hwords (by decide)

lemma not_oneParsePerLine_of_giveBack :
    ¬ OneParsePerLine ⟨none, 0, fun _ => none, false, none⟩
      ['n', 'o', 't', 'e', 's', '\n', 'l', 's', '\n'] true fun n =>
        ⟨⟨[NUL], [], fun _ => some [['n', 'o', 't', 'e', 's'], ['l', 's']]⟩, id,
          if n = 1 then [3] else [], 3, n ≠ 0⟩ := by
  rintro ⟨N, hN⟩
  obtain ⟨sh, hrun, hlog⟩ := hN (3 + N) (Nat.le_add_left N 3)
  rw [List.range_add, List.map_append, mainLoop, List.foldlM_append] at hrun
  obtain ⟨sh₃, hthree, hrest⟩ := Option.bind_eq_some_iff.mp hrun
  have hparsed := (parsed_mainLoop hrest).length_le
  have hcount := congrArg (Option.map fun sh : Shell => sh.reader.parsed.length) hthree
  have hlines : (upTo IsExit (lineWords ['n', 'o', 't', 'e', 's', '\n', 'l', 's', '\n'])).length
      = 2 := by decide
  have hwords := congrArg List.length hlog.parsed
  rw [List.length_map, hlines] at hwords
  have hthird : (3 : ℕ) = sh₃.reader.parsed.length := by
    apply Option.some.inj
    refine Eq.trans ?_ hcount
    decide +kernel
  omega

/-- A command that is longer than the buffer is parsed as two; at the end of the stream a command is
parsed that a buffer happens to hold; and of a file the line "ls" is parsed twice, when the child of
the line before it, which could not be executed, gives it back. -/
theorem oneParsePerLine_fails :
    (NUL ∉ ['l', 's'] ++ List.replicate 1021 ' ' ++ ['p', 's'] ++ ['\n'] ∧
      ∀ command seekable turns, (∀ n, (turns n).programs = id ∧ (turns n).execv = true) →
        ¬ OneParsePerLine command
          (['l', 's'] ++ List.replicate 1021 ' ' ++ ['p', 's'] ++ ['\n']) seekable turns) ∧
    (∀ command env seekable,
      ¬ OneParsePerLine command [] seekable fun _ => ⟨⟨['l', 's', NUL], env⟩, id, [], 0, true⟩) ∧
    ¬ OneParsePerLine ⟨none, 0, fun _ => none, false, none⟩
      ['n', 'o', 't', 'e', 's', '\n', 'l', 's', '\n'] true fun n =>
        ⟨⟨[NUL], [], fun _ => some [['n', 'o', 't', 'e', 's'], ['l', 's']]⟩, id,
          if n = 1 then [3] else [], 3, n ≠ 0⟩ :=
  ⟨not_oneParsePerLine_of_long, not_oneParsePerLine_of_leftover, not_oneParsePerLine_of_giveBack⟩

end Eece315.ShellStream
