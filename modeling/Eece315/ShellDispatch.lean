import Eece315.ShellGrammar

/-! What the mini shell does with the command that it has read (`miniShell.c`,
`externalCommands.c`, `lookupPath.c`). The value of `PATH` and the directories are an
environment. -/
namespace Eece315.ShellDispatch
open Words ShellCommand ShellGrammar

def COMMAND_LINE_MAX : ℕ := 256
def MAX_LINE_LEN : ℕ := 80
def MAX_PATH_LEN : ℕ := 1000
def NOT_FOUND : List Char := ['F', 'I', 'L', 'E', 'N', 'O', 'T', 'F', 'O', 'U', 'N', 'D']

/-- The result of `strncmp (s, t, n)` is zero. -/
def strncmpZero (s t : List Char) (n : ℕ) : Bool := s.take n = t.take n

/-- `sprintf` into a buffer of `COMMAND_LINE_MAX` characters. -/
def sprintf (s : List Char) : Option (List Char) :=
  if s.length < COMMAND_LINE_MAX then some s else none

def snprintf (size : ℕ) (s : List Char) : List Char := s.take (size - 1)

def changeDirectory (dir : Option (List Char)) : Option (List Char) :=
  sprintf (['c', 'd', ' '] ++ dir.getD ['~'] ++ [';', ' ', 'p', 'w', 'd'])

def echoString (str : Option (List Char)) : Option (List Char) := do
  sprintf (['e', 'c', 'h', 'o', ' '] ++ (← str))

/-- Whether the command is one of those that the shell runs by itself. -/
def isExternalCommand (c : Command) : Option Bool := do
  let name ← c.name
  if strncmpZero name ['p', 'w', 'd'] 3 then return true
  else if strncmpZero name ['c', 'd'] 2 then
    let _ ← changeDirectory (← c.getArgv 1)
    return true
  else if strncmpZero name ['e', 'c', 'h', 'o'] 4 then
    let _ ← echoString (← c.getArgv 1)
    return true
  else return false

/-- The value of `PATH`, and the names in every directory that can be opened. -/
structure Environment where
  PATH : List Char
  directory : List Char → Option (List (List Char))

def checkFileInDir (env : Environment) (path file : List Char) : Bool :=
  match env.directory path with
  | none => false
  | some names => names.contains file

def lookupPath (env : Environment) (prog : List Char) : List Char :=
  let paths := snprintf MAX_PATH_LEN (env.PATH ++ [':', '.'])
  match (words (· = ':') paths).find? fun path => checkFileInDir env path prog with
  | some path => snprintf MAX_LINE_LEN (path ++ '/' :: prog)
  | none => snprintf MAX_LINE_LEN NOT_FOUND

/-- What an iteration of `main`'s loop does with its line. -/
inductive Action where
  | noCommand
  | nameTooLong
  | external
  | leave
  | notFound
  | start (runsInBackground : Bool)
  deriving DecidableEq

/-- An iteration of `main`'s loop up to the `fork`, on a new buffer of the given contents. -/
def iteration (env : Environment) (buffer : List Char) (r : Reader) :
    Option (Action × Reader) := do
  let (readResult, r) ← readCommand buffer r
  if readResult = -1 then return (.noCommand, r)
  else if readResult = -2 then return (.nameTooLong, r)
  else if ← isExternalCommand r.command then return (.external, r)
  else
    let name ← r.command.name
    if strncmpZero name ['e', 'x', 'i', 't'] 4 ∨ strncmpZero name ['q', 'u', 'i', 't'] 4 then
      return (.leave, r)
    let path := lookupPath env name
    if strncmpZero path NOT_FOUND 12 then return (.notFound, r)
    return (.start r.command.runsInBackground, r)

/-- The shell is past the parser and acts on the command. -/
def Action.dispatches : Action → Bool
  | .noCommand | .nameTooLong => false
  | _ => true

/-- The name of the words makes the shell leave its loop. -/
def Leaves (ws : List (List Char)) : Prop :=
  NameFits ws ∧ ∃ name, name ∈ ws.head? ∧
    (strncmpZero name ['e', 'x', 'i', 't'] 4 ∨ strncmpZero name ['q', 'u', 'i', 't'] 4)

instance (ws : List (List Char)) : Decidable (Leaves ws) := inferInstanceAs (Decidable (_ ∧ _))

/-- The command line of a built-in command fits its buffer. -/
def BuiltinFits (args : List (List Char)) : Prop :=
  ∀ name, name ∈ args.head? →
    (strncmpZero name ['c', 'd'] 2 → ∀ dir, dir ∈ args[1]? → dir.length < 248) ∧
    (strncmpZero name ['e', 'c', 'h', 'o'] 4 → ∃ str, str ∈ args[1]? ∧ str.length < 251)

instance (args : List (List Char)) : Decidable (BuiltinFits args) :=
  inferInstanceAs (Decidable (∀ _, _ → _))

section Dispatch

variable {env : Environment} {buffer name : List Char} {c : Command} {q : Request}
  {r r' : Reader} {ws : List (List Char)}

lemma head_dropLast {α : Type*} {l : List α} (hl : 2 ≤ l.length) : l.dropLast.head? = l.head? := by
  cases l with
  | nil => rfl
  | cons x l =>
    cases l with
    | nil => simp at hl
    | cons y l => rfl

lemma request_head (ws : List (List Char)) : (request ws).args.head? = ws.head? := by
  have hfore : (foreground ws).head? = ws.head? := by
    rw [foreground]
    split_ifs with hb
    · exact head_dropLast hb.1
    · rfl
  rw [request]
  split_ifs with hr
  · have h3 := hr.1
    rw [head_dropLast, head_dropLast (by omega), hfore]
    rw [List.length_dropLast]
    omega
  · exact hfore

lemma changeDirectory_isSome (dir : Option (List Char)) :
    (changeDirectory dir).isSome ↔ ∀ d, d ∈ dir → d.length < 248 := by
  cases dir with
  | none => simp [changeDirectory, sprintf, COMMAND_LINE_MAX]
  | some d =>
    simp only [changeDirectory, sprintf, COMMAND_LINE_MAX, Option.getD_some, List.length_append,
      List.length_cons, List.length_nil, Option.mem_def, Option.some.injEq, forall_eq']
    split_ifs <;> simp <;> omega

lemma echoString_isSome (str : Option (List Char)) :
    (echoString str).isSome ↔ ∃ s, s ∈ str ∧ s.length < 251 := by
  cases str with
  | none => simp [echoString]
  | some s =>
    simp only [echoString, sprintf, COMMAND_LINE_MAX, Option.bind_eq_bind, Option.bind_some,
      List.length_append, List.length_cons, List.length_nil, Option.mem_def, Option.some.injEq,
      exists_eq_left']
    split_ifs <;> simp <;> omega

lemma strncmpZero_head {s t : List Char} {x : Char} {n : ℕ}
    (h : strncmpZero s (x :: t) (n + 1) = true) : s.head? = some x := by
  have htake : s.take (n + 1) = (x :: t).take (n + 1) := of_decide_eq_true h
  cases s with
  | nil => simp at htake
  | cons y s =>
    rw [List.take_succ_cons, List.take_succ_cons] at htake
    rw [(List.cons.inj htake).1, List.head?_cons]

lemma strncmpZero_of_head {s t u : List Char} {x y : Char} {m n : ℕ} (hxy : x ≠ y)
    (h : strncmpZero s (x :: t) (m + 1) = true) : strncmpZero s (y :: u) (n + 1) = false := by
  rw [Bool.eq_false_iff]
  intro hy
  have hhead := (strncmpZero_head h).symm.trans (strncmpZero_head hy)
  exact hxy (Option.some.inj hhead)

def builtin (name : List Char) : Bool :=
  strncmpZero name ['p', 'w', 'd'] 3 || strncmpZero name ['c', 'd'] 2 ||
    strncmpZero name ['e', 'c', 'h', 'o'] 4

lemma getArgv_one (h : Carries c q) (hname : name ∈ q.args.head?) :
    c.getArgv 1 = some q.args[1]? := by
  have hpos : 0 < q.args.length := by
    rw [List.length_pos_iff]
    rintro he
    simp [he] at hname
  rw [Command.getArgv, if_pos (by simp [MAX_ARGS]), h.holds.argv 1 hpos]

lemma isExternalCommand_spec (h : Carries c q) (hname : name ∈ q.args.head?) :
    isExternalCommand c = if BuiltinFits q.args then some (builtin name) else none := by
  have hget := getArgv_one h hname
  have hfits : BuiltinFits q.args ↔
      (strncmpZero name ['c', 'd'] 2 → (changeDirectory q.args[1]?).isSome) ∧
      (strncmpZero name ['e', 'c', 'h', 'o'] 4 → (echoString q.args[1]?).isSome) := by
    rw [changeDirectory_isSome, echoString_isSome, BuiltinFits, hname]
    simp
  rw [isExternalCommand, h.holds.name, hname, hget]
  simp only [Option.bind_eq_bind, Option.bind_some, hfits, builtin]
  by_cases hpwd : strncmpZero name ['p', 'w', 'd'] 3 = true
  · simp [hpwd, strncmpZero_of_head (by decide : 'p' ≠ 'c') hpwd,
      strncmpZero_of_head (by decide : 'p' ≠ 'e') hpwd]
  · by_cases hcd : strncmpZero name ['c', 'd'] 2 = true
    · have hecho := strncmpZero_of_head (u := ['c', 'h', 'o']) (n := 3)
        (by decide : 'c' ≠ 'e') hcd
      cases hdir : changeDirectory q.args[1]? <;> simp [hpwd, hcd, hecho]
    · by_cases hecho : strncmpZero name ['e', 'c', 'h', 'o'] 4 = true
      · cases hstr : echoString q.args[1]? <;> simp [hpwd, hcd, hecho]
      · simp [hpwd, hcd, hecho]

def act (env : Environment) (name : List Char) (background : Bool) : Action :=
  if builtin name then .external
  else if strncmpZero name ['e', 'x', 'i', 't'] 4 ∨ strncmpZero name ['q', 'u', 'i', 't'] 4 then
    .leave
  else if strncmpZero (lookupPath env name) NOT_FOUND 12 then .notFound
  else .start background

lemma act_dispatches (env : Environment) (name : List Char) (background : Bool) :
    (act env name background).dispatches = true := by
  rw [act]
  split_ifs <;> rfl

lemma act_eq_leave_iff {background : Bool} : act env name background = .leave ↔
    strncmpZero name ['e', 'x', 'i', 't'] 4 ∨ strncmpZero name ['q', 'u', 'i', 't'] 4 := by
  have hbuiltin (h : strncmpZero name ['e', 'x', 'i', 't'] 4 ∨
      strncmpZero name ['q', 'u', 'i', 't'] 4) : builtin name = false := by
    have hecho : strncmpZero name ['e', 'c', 'h', 'o'] 4 = false := by
      rcases h with h | h
      · rw [strncmpZero, decide_eq_true_eq] at h
        rw [strncmpZero, h]
        rfl
      · exact strncmpZero_of_head (by decide) h
    rw [builtin, hecho, Bool.or_false, Bool.or_eq_false_iff]
    rcases h with h | h
    · exact ⟨strncmpZero_of_head (by decide) h, strncmpZero_of_head (by decide) h⟩
    · exact ⟨strncmpZero_of_head (by decide) h, strncmpZero_of_head (by decide) h⟩
  rw [act]
  split_ifs with hb hl hn
  · exact iff_of_false (by simp) fun h => by simp [hbuiltin h] at hb
  · exact iff_of_true rfl hl
  · exact iff_of_false (by simp) hl
  · exact iff_of_false (by simp) hl

lemma iteration_of_parsed (env : Environment) (hread : readCommand buffer r = some (1, r'))
    (hc : Carries r'.command q) (hname : name ∈ q.args.head?) :
    iteration env buffer r =
      if BuiltinFits q.args then some (act env name q.background, r') else none := by
  have hone : ¬ (1 : ℤ) = -1 := by decide
  have htwo : ¬ (1 : ℤ) = -2 := by decide
  rw [iteration, hread]
  simp only [Option.bind_eq_bind, Option.bind_some, if_neg hone, if_neg htwo]
  rw [isExternalCommand_spec hc hname, hc.holds.name, hname, ← hc.background]
  by_cases hfits : BuiltinFits q.args
  · simp only [if_pos hfits, Option.bind_some, act]
    by_cases hb : builtin name = true
    · rw [if_pos hb, if_pos hb]
      rfl
    · rw [if_neg hb, if_neg hb]
      split_ifs <;> rfl
  · rw [if_neg hfits, if_neg hfits]
    rfl

lemma iteration_of_line {line rest : List Char} (env : Environment) (buffer : List Char)
    (hline : BeginsWith line rest r.stdin) (hlen : line.length ≤ 1022) (hnul : NUL ∉ line)
    (hwords : words isSpace line = ws) (hname : name ∈ ws.head?) (hfits : NameFits ws)
    (hcount : ws.length ≤ 62) (hbuiltin : BuiltinFits (request ws).args) :
    ∃ r', iteration env buffer r = some (act env name (request ws).background, r') ∧
      r'.stdin = rest := by
  obtain ⟨input, s, hbuf, hs, hsame⟩ := hline.fgets hlen hnul buffer
  rw [hwords] at hsame
  subst hsame
  have hne : words isSpace s ≠ [] := by
    intro he
    simp [he] at hname
  have hfew : (words isSpace s).length + 1 < MAX_ARGS := by
    rw [MAX_ARGS]
    omega
  obtain ⟨c, k, hread, hc⟩ := readCommand_of_fits hbuf hs hne hfits hfew
  have hiter := iteration_of_parsed env hread hc ((request_head _).trans hname)
  rw [if_pos hbuiltin] at hiter
  exact ⟨_, hiter, rfl⟩

end Dispatch

end Eece315.ShellDispatch
