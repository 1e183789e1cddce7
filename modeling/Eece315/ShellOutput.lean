import Mathlib
import Eece315.Descriptors
import Eece315.ShellStream

/-! Where the mini shell's output goes: the descriptors that `isExternalCommand` and the child of
`main` move to redirect it, and the buffer of `stdout`. The terminal is one of the files, to which
descriptor 1 leads at the start. -/
namespace Eece315.ShellOutput

open Descriptors ShellCommand ShellGrammar ShellDispatch ShellStdin ShellStream

def ANSI_COLOR_RED : String := "\x1b[31m"
def ANSI_COLOR_RESET : String := "\x1b[0m"
def ANSI_COLOR_YELLOW : String := "\x1b[33m"
def ANSI_COLOR_CYAN : String := "\x1b[36m"
def ANSI_COLOR_GREEN : String := "\x1b[32m"

/-- A file, `none` for the one to which descriptor 1 leads at the start. -/
abbrev File := Option (List Char)

/-- What an iteration finds around the shell: who is logged in where, what `getcwd` gives, what a
command line writes that `system` runs, what the program writes that is executed (or the error of
`execv`), and which file `open` opens by a name, if any. -/
structure World where
  user : String
  hostname : String
  cwd : String
  system : List Char → List Char
  execv : Except String (List Char)
  opens : List Char → Option (List Char)

/-- How `stdout` is buffered: whether lines are written when they end, and whether reading from
`stdin` writes what is pending. Both hold of a terminal. -/
structure Mode where
  lineBuffered : Bool
  flushedByReads : Bool

def interactive : Mode := ⟨true, true⟩
/-- A process with what is pending in the buffer of `stdout`. -/
structure Shell where
  process : Process File Char
  pending : List Char

namespace Shell

variable (mode : Mode) (sh : Shell)

def emit (text : List Char) : Shell := { sh with process := sh.process.write 1 text }

def fflush : Shell := { sh.emit sh.pending with pending := [] }

def printf (text : String) : Shell :=
  let pending := sh.pending ++ text.toList
  if mode.lineBuffered then
    { sh.emit (pending.rdropWhile (· ≠ '\n')) with pending := pending.rtakeWhile (· ≠ '\n') }
  else { sh with pending := pending }

end Shell

def openOutput (w : World) (name : List Char) (p : Process File Char) :
    Option ℕ × Process File Char :=
  match w.opens name with
  | some file => p.openFile (some file)
  | none => (none, p)

/-- The first block of `isExternalCommand`, with the copy of descriptor 1. -/
def redirectOutput (w : World) (name : List Char) (p : Process File Char) :
    Option ℕ × Process File Char :=
  let (fd, p) := openOutput w name p
  p.divert fd 1

def printWorkingDirectory (mode : Mode) (w : World) (sh : Shell) : Shell :=
  let cwd := w.cwd
  sh.printf mode s!"{cwd}\n"

/-- The commands that the shell runs by itself. `cd` writes nothing to descriptor 1. -/
def runBuiltin (mode : Mode) (w : World) (c : Command) (sh : Shell) : Option (Bool × Shell) := do
  let name ← c.name
  if strncmpZero name ['p', 'w', 'd'] 3 then return (true, printWorkingDirectory mode w sh)
  else if strncmpZero name ['c', 'd'] 2 then
    let _ ← changeDirectory (← c.getArgv 1)
    return (true, sh)
  else if strncmpZero name ['e', 'c', 'h', 'o'] 4 then
    let echo ← echoString (← c.getArgv 1)
    return (true, sh.emit (w.system echo))
  else return (false, sh)

def isExternalCommand (mode : Mode) (w : World) (c : Command) (sh : Shell) :
    Option (Bool × Shell) :=
  match c.redirectFileName with
  | none => runBuiltin mode w c sh
  | some file => do
    let (stdoutCopy, p) := redirectOutput w file sh.process
    let (res, sh) ← runBuiltin mode w c { sh with process := p }
    return (res, { sh with process := sh.process.restore stdoutCopy 1 })

def printPrompt (mode : Mode) (w : World) (sh : Shell) : Shell :=
  let user := w.user
  let hostname := w.hostname
  let cwd := w.cwd
  let sh := sh.printf mode s!"EECE315_$HELL<>{user}@{hostname}:"
  let sh := sh.printf mode s!"{ANSI_COLOR_GREEN}{cwd}{ANSI_COLOR_RESET}\n$ "
  sh.fflush

/-- The head of `main`'s loop, up to the return of `fgets`. -/
def awaitCommand (mode : Mode) (w : World) (sh : Shell) : Shell :=
  let sh := sh.printf mode ANSI_COLOR_RESET
  let sh := printPrompt mode w sh
  let sh := sh.printf mode ANSI_COLOR_CYAN
  if mode.flushedByReads then sh.fflush else sh

/-- The child redirects its output for good. -/
def redirectChild (w : World) (c : Command) (p : Process File Char) : Process File Char :=
  match c.redirectFileName with
  | none => p
  | some file =>
    let (fd, p) := openOutput w file p
    (p.dup2 fd 1).close fd

/-- The child, with copies of the descriptors and of what is pending, up to its end. -/
def runChild (mode : Mode) (w : World) (c : Command) (sh : Shell) : Shell :=
  let child := { sh with process := redirectChild w c sh.process }
  match w.execv with
  | .ok output => child.emit output
  | .error strerror =>
    (child.printf mode s!"{ANSI_COLOR_RED}ERROR: {strerror}{ANSI_COLOR_RESET}").fflush

/-- The parent goes on with its own descriptors and buffer, and the files as the child left them. -/
def forkChild (mode : Mode) (w : World) (c : Command) (sh : Shell) : Shell :=
  let child := runChild mode w c sh
  { sh with process := { child.process with table := sh.process.table } }

/-- What follows `readCommand`, by what the iteration does. There is no result for a child in the
background, which may write at any time. -/
def act (mode : Mode) (w : World) (action : Action) (c : Command) (sh : Shell) : Option Shell :=
  match action with
  | .noCommand => some (sh.printf mode
      s!"{ANSI_COLOR_YELLOW}No executable command given.{ANSI_COLOR_RESET}\n")
  | .nameTooLong => some (sh.printf mode
      s!"{ANSI_COLOR_YELLOW}Command name too long.{ANSI_COLOR_RESET}\n")
  | .external => (isExternalCommand mode w c sh).map Prod.snd
  | .leave => do
    let (_, sh) ← isExternalCommand mode w c sh
    let sh := sh.printf mode s!"{ANSI_COLOR_YELLOW}Shell exiting...{ANSI_COLOR_RESET}\n"
    return (sh.printf mode ANSI_COLOR_RESET).fflush
  | .notFound => do
    let (_, sh) ← isExternalCommand mode w c sh
    let name := String.ofList (← c.name)
    return sh.printf mode
      s!"{ANSI_COLOR_RED}ERROR: We couldn't find `{name}` in the PATH. :({ANSI_COLOR_RESET}\n"
  | .start false => do
    let (_, sh) ← isExternalCommand mode w c sh
    return forkChild mode w c sh
  | .start true => none

/-- An iteration that is over: what it found, what it did, and the command it had. -/
structure Entry where
  world : World
  action : Action
  command : Command

/-- The shell with its iterations so far. -/
structure Session where
  reader : Reader
  stdin : Stdin
  shell : Shell
  running : Bool
  log : List Entry

/-- The turn with what the iteration finds of `execv`. -/
def turnIn (w : World) (turn : Turn) : Turn := { turn with execv := w.execv.isOk }

def iterate (mode : Mode) (w : World) (turn : Turn) (s : Session) : Option Session := do
  let shell := awaitCommand mode w s.shell
  let traffic := (turnIn w turn).toTraffic
  let (stdin, left) := s.stdin.settle traffic s.reader.stdin
  let (action, r) ← iteration turn.env turn.buffer { s.reader with stdin := left }
  let shell ← act mode w action r.command shell
  return ⟨r, (stdin.read traffic left r.stdin).fork traffic action, shell, action ≠ .leave,
    s.log ++ [⟨w, action, r.command⟩]⟩

def step (mode : Mode) (s : Session) (turn : World × Turn) : Option Session :=
  if s.running then iterate mode turn.1 turn.2 s else some s

def mainLoop (mode : Mode) (turns : List (World × Turn)) (s : Session) : Option Session :=
  turns.foldlM (step mode) s

/-- The shell as it starts: the standard descriptors lead to the terminal, and others are free. -/
def fresh (files : List Char → List Char) (free : ℕ) : Shell :=
  ⟨⟨fun file => file.elim [] files, [⟨none, 0⟩],
    List.replicate 3 (some 0) ++ List.replicate free none⟩, []⟩

/-- A session whose standard input is a terminal or a pipe. -/
def Session.start (command : Command) (stdin : List Char) (files : List Char → List Char)
    (free : ℕ) : Session :=
  ⟨⟨stdin, command, [], []⟩, ⟨none, 0, false, []⟩, fresh files free, true, []⟩

def printedText (w : World) (c : Command) : List Char :=
  let cwd := w.cwd
  match c.name with
  | none => []
  | some name => if strncmpZero name ['p', 'w', 'd'] 3 then s!"{cwd}\n".toList else []

def systemText (w : World) (c : Command) : List Char :=
  match c.name with
  | none => []
  | some name =>
    if strncmpZero name ['p', 'w', 'd'] 3 ∨ strncmpZero name ['c', 'd'] 2 then []
    else if strncmpZero name ['e', 'c', 'h', 'o'] 4 then
      ((c.getArgv 1).bind echoString).elim [] w.system
    else []

def builtinText (w : World) (c : Command) : List Char := printedText w c ++ systemText w c

/-- The file that the output goes to, if it can be opened. -/
def target (w : World) (c : Command) : Option (List Char) := c.redirectFileName.bind w.opens

section Dispatch

variable {mode : Mode} {w : World} {c : Command} {sh sh' : Shell} {res : Bool}
  {env : Environment} {buffer : List Char} {action : Action} {r r' : Reader} {turn : Turn}
  {s s' : Session}

lemma runBuiltin_fst (mode : Mode) (w : World) (c : Command) (sh : Shell) :
    (runBuiltin mode w c sh).map Prod.fst = ShellDispatch.isExternalCommand c := by
  unfold runBuiltin ShellDispatch.isExternalCommand
  cases c.name with
  | none => rfl
  | some name =>
    simp only [Option.bind_eq_bind, Option.bind_some]
    split_ifs with hpwd hcd hecho
    · rfl
    · cases c.getArgv 1 with
      | none => rfl
      | some dir =>
        simp only [Option.bind_some]
        cases changeDirectory dir <;> rfl
    · cases c.getArgv 1 with
      | none => rfl
      | some str =>
        simp only [Option.bind_some]
        cases echoString str <;> rfl
    · rfl

lemma isExternalCommand_fst (mode : Mode) (w : World) (c : Command) (sh : Shell) :
    (isExternalCommand mode w c sh).map Prod.fst = ShellDispatch.isExternalCommand c := by
  unfold isExternalCommand
  cases c.redirectFileName with
  | none => exact runBuiltin_fst mode w c sh
  | some file =>
    rw [← runBuiltin_fst mode w c { sh with process := (redirectOutput w file sh.process).2 }]
    simp only [Option.bind_eq_bind, Option.map_bind]
    exact (Option.map_eq_bind ..).symm

lemma texts_of_false (h : ShellDispatch.isExternalCommand c = some false) (w : World) :
    printedText w c = [] ∧ systemText w c = [] := by
  obtain ⟨name, hname, hrun⟩ := Option.bind_eq_some_iff.mp h
  simp only [printedText, systemText, hname]
  split_ifs at hrun with hpwd hcd hecho
  · cases hrun
  · simp [Option.bind_eq_some_iff] at hrun
  · simp [Option.bind_eq_some_iff] at hrun
  · simp [hpwd, hcd, hecho]

lemma iteration_cases (h : iteration env buffer r = some (action, r')) :
    action.dispatches = false ∨
    action = .external ∧ ShellDispatch.isExternalCommand r'.command = some true ∨
    ShellDispatch.isExternalCommand r'.command = some false ∧
      ∀ background, action = .start background → background = r'.command.runsInBackground := by
  obtain ⟨⟨readResult, r₁⟩, -, h⟩ := Option.bind_eq_some_iff.mp h
  simp only at h
  split_ifs at h with hnone hlong
  · obtain ⟨rfl, -⟩ := Prod.mk.inj (Option.some.inj h)
    exact .inl rfl
  · obtain ⟨rfl, -⟩ := Prod.mk.inj (Option.some.inj h)
    exact .inl rfl
  obtain ⟨external, hexternal, h⟩ := Option.bind_eq_some_iff.mp h
  cases external with
  | true =>
    obtain ⟨rfl, rfl⟩ := Prod.mk.inj (Option.some.inj h)
    exact .inr (.inl ⟨rfl, hexternal⟩)
  | false =>
    obtain ⟨name, -, h⟩ := Option.bind_eq_some_iff.mp h
    right; right
    split_ifs at h
    all_goals
      obtain ⟨rfl, rfl⟩ := Prod.mk.inj (Option.some.inj h)
      exact ⟨hexternal, by simp⟩

lemma texts_of_iteration (h : iteration env buffer r = some (action, r')) (w : World) :
    action.dispatches = false ∨ action = .external ∨
      printedText w r'.command = [] ∧ systemText w r'.command = [] := by
  rcases iteration_cases h with hnot | ⟨hexternal, -⟩ | ⟨hfalse, -⟩
  · exact .inl hnot
  · exact .inr (.inl hexternal)
  · exact .inr (.inr (texts_of_false hfalse w))

lemma act_isSome (mode : Mode) (w : World) (sh : Shell)
    (h : iteration env buffer r = some (action, r'))
    (hforeground : action ≠ .start true) : (act mode w action r'.command sh).isSome := by
  have hcommand {b : Bool} (hb : ShellDispatch.isExternalCommand r'.command = some b) :
      ∃ sh', isExternalCommand mode w r'.command sh = some (b, sh') := by
    rw [← isExternalCommand_fst mode w r'.command sh] at hb
    obtain ⟨⟨res, sh'⟩, hres, rfl⟩ := Option.map_eq_some_iff.mp hb
    exact ⟨sh', hres⟩
  rcases iteration_cases h with hnot | ⟨rfl, htrue⟩ | ⟨hfalse, -⟩
  · cases action <;> first | rfl | cases hnot
  · obtain ⟨sh', hsh'⟩ := hcommand htrue
    rw [act, hsh']
    rfl
  · obtain ⟨sh', hsh'⟩ := hcommand hfalse
    obtain ⟨name, hname, -⟩ := Option.bind_eq_some_iff.mp hfalse
    cases action with
    | noCommand => rfl
    | nameTooLong => rfl
    | external =>
      rw [act, hsh']
      rfl
    | leave =>
      rw [act, hsh']
      rfl
    | notFound =>
      rw [act, hsh', hname]
      rfl
    | start background =>
      cases background with
      | true => exact absurd rfl hforeground
      | false =>
        rw [act, hsh']
        rfl

/-- What the shell does with its input, whatever it writes. -/
def Session.stream (s : Session) : ShellStream.Shell :=
  ⟨s.reader, s.stdin, s.running, (s.log.filter (·.action.dispatches)).map Entry.command⟩

lemma stream_append (s : Session) (sh : Shell) (r : Reader) (stdin : Stdin) (running : Bool)
    (e : Entry) : Session.stream ⟨r, stdin, sh, running, s.log ++ [e]⟩ = ⟨r, stdin, running,
      if e.action.dispatches then s.stream.dispatched ++ [e.command] else s.stream.dispatched⟩ := by
  rw [Session.stream, List.filter_append, List.map_append]
  split_ifs with he
  · rw [List.filter_singleton, he]
    rfl
  · rw [List.filter_singleton, Bool.eq_false_of_not_eq_true he]
    exact congrArg _ (List.append_nil _)

lemma iterate_stream (hrun : iterate mode w turn s = some s') :
    ShellStream.iterate (turnIn w turn) s.stream = some s'.stream := by
  obtain ⟨⟨action, r⟩, hiter, hrun⟩ := Option.bind_eq_some_iff.mp hrun
  obtain ⟨sh, -, hrun⟩ := Option.bind_eq_some_iff.mp hrun
  obtain rfl := Option.some.inj hrun
  rw [stream_append, ShellStream.iterate]
  exact congrArg (Option.bind · _) hiter

lemma iterate_of_stream {sh' : ShellStream.Shell} (mode : Mode)
    (h : ShellStream.iterate (turnIn w turn) s.stream = some sh')
    (hforeground : ∀ c ∈ sh'.dispatched, c.runsInBackground = false) :
    ∃ s', iterate mode w turn s = some s' ∧ s'.stream = sh' := by
  obtain ⟨⟨action, r⟩, hiter, h⟩ := Option.bind_eq_some_iff.mp h
  obtain rfl := Option.some.inj h
  have hstart : action ≠ .start true := by
    rintro rfl
    rcases iteration_cases hiter with hnot | ⟨he, -⟩ | ⟨-, hback⟩
    · cases hnot
    · cases he
    · have hlast := hforeground r.command (by simp [Action.dispatches])
      exact absurd (hback true rfl) (by simp [hlast])
  obtain ⟨sh, hsh⟩ := Option.isSome_iff_exists.mp
    (act_isSome mode w (awaitCommand mode w s.shell) hiter hstart)
  refine ⟨_, Option.bind_eq_some_iff.mpr ⟨(action, r), hiter, Option.bind_eq_some_iff.mpr
    ⟨sh, hsh, rfl⟩⟩, stream_append ..⟩

lemma mem_dispatched_mainLoop {turns : List Turn} {sh sh' : ShellStream.Shell}
    (h : ShellStream.mainLoop turns sh = some sh') {c : Command} (hc : c ∈ sh.dispatched) :
    c ∈ sh'.dispatched := by
  refine StepRuns.foldlM_induction (motive := fun sh' : ShellStream.Shell => c ∈ sh'.dispatched)
    hc (fun sh₁ sh₂ turn hsh₁ hstep => ?_) h
  rw [ShellStream.step] at hstep
  split_ifs at hstep
  · obtain ⟨⟨action, r⟩, -, hstep⟩ := Option.bind_eq_some_iff.mp hstep
    obtain rfl := Option.some.inj hstep
    simp only
    split_ifs
    · exact List.mem_append_left _ hsh₁
    · exact hsh₁
  · obtain rfl := Option.some.inj hstep
    exact hsh₁

/-- The sessions with output are those without that start nothing in the background. -/
theorem mainLoop_stream_iff (mode : Mode) (turns : List (World × Turn)) (s : Session)
    (sh' : ShellStream.Shell) (hforeground : ∀ c ∈ sh'.dispatched, c.runsInBackground = false) :
    (∃ s', mainLoop mode turns s = some s' ∧ s'.stream = sh') ↔
      ShellStream.mainLoop (turns.map fun turn => turnIn turn.1 turn.2) s.stream = some sh' := by
  induction turns generalizing s with
  | nil => simp [mainLoop, ShellStream.mainLoop]
  | cons turn turns ih =>
    rw [List.map_cons, ShellStream.mainLoop, mainLoop, List.foldlM_cons, List.foldlM_cons, step,
      ShellStream.step]
    have hsame : s.stream.running = s.running := rfl
    rw [hsame]
    split_ifs with hrunning
    · constructor
      · rintro ⟨s', hrun, hs'⟩
        obtain ⟨s₁, hiter, hrun⟩ := Option.bind_eq_some_iff.mp hrun
        exact Option.bind_eq_some_iff.mpr
          ⟨s₁.stream, iterate_stream hiter, (ih s₁).mp ⟨s', hrun, hs'⟩⟩
      · intro h
        obtain ⟨sh₁, hiter, h⟩ := Option.bind_eq_some_iff.mp h
        obtain ⟨s₁, hs₁, rfl⟩ := iterate_of_stream mode hiter
          fun c hc => hforeground c (mem_dispatched_mainLoop h hc)
        obtain ⟨s', hrun, hs'⟩ := (ih s₁).mpr h
        exact ⟨s', Option.bind_eq_some_iff.mpr ⟨s₁, hs₁, hrun⟩, hs'⟩
    · exact ih s

/-- Where a file is opened for the output, the first block of `isExternalCommand` opens it at the
lowest free place. -/
lemma redirect_cases {p q : Process File Char} {stdoutCopy : Option ℕ} {name file : List Char}
    (hopen : w.opens name = some file) (hroom : 0 < p.table.count none)
    (hq : redirectOutput w name p = (stdoutCopy, q)) :
    ∃ a, lowest p.table = some a ∧
      (p.openFile (some file)).2.divert (some a) 1 = (stdoutCopy, q) ∧
      q.files = p.files ∧ q.opened = p.opened ++ [⟨some file, 0⟩] := by
  cases ha : lowest p.table with
  | none => exact absurd (lowest_eq_none.mp ha) hroom.ne'
  | some a =>
    have hdivert : (p.openFile (some file)).2.divert (some a) 1 = (stdoutCopy, q) := by
      rw [← hq, redirectOutput, openOutput, hopen]
      simp only [openFile_of_lowest ha]
    refine ⟨a, rfl, hdivert, ?_, ?_⟩
    · have hfiles := files_divert (p.openFile (some file)).2 (some a) 1
      rw [hdivert, openFile_of_lowest ha] at hfiles
      exact hfiles
    · have hopened := opened_divert (p.openFile (some file)).2 (some a) 1
      rw [hdivert, openFile_of_lowest ha] at hopened
      exact hopened

end Dispatch

end Eece315.ShellOutput
