import Eece315.Words
import Eece315.Lines

/-! The command reader of the mini shell (`readCommand.c`). A string is the list of its
characters without the terminating NUL, a `char *` is a string or `NULL`, and a function has no
result where the source has undefined behaviour: an access outside `argv`, a string operation on
`NULL`, or a string that runs off the end of its buffer. -/
namespace Eece315.ShellCommand
open Words Lines

def MAX_ARGS : ℕ := 64
def MAX_PROG_LENGTH : ℕ := 16
def MAX_LINE_LENGTH : ℕ := 1024
def WHITESPACE : List Char := [' ', '\t', '\n']
def NUL : Char := '\x00'

/-- The separators of a line. -/
def isSpace (c : Char) : Bool := WHITESPACE.contains c

/-- The buffer and the stream after `fgets (buffer, size, stream)`, which takes the line as far as
there is room for it and a NUL. At the end of the stream the buffer stays as it is. -/
def fgets (size : ℕ) (buffer stdin : List Char) : List Char × List Char :=
  if stdin = [] then (buffer, stdin)
  else
    let line := takeLine '\n' (size - 1) stdin
    (line ++ NUL :: buffer.drop (line.length + 1), stdin.drop line.length)

/-- The string at the start of a buffer. -/
def cString (buffer : List Char) : Option (List Char) :=
  if NUL ∈ buffer then some (buffer.takeWhile (· ≠ NUL)) else none

/-- The length of the longest prefix of whitespace characters. -/
def strspnWhitespace (s : List Char) : ℕ := (s.takeWhile isSpace).length

/-- `strsep (&input, WHITESPACE)`: the token and the new value of `input`. -/
def strsep : Option (List Char) → Option (List Char) × Option (List Char)
  | none => (none, none)
  | some s => (some (splitFirst isSpace s).1, (splitFirst isSpace s).2)

/-- `struct command_t`. -/
structure Command where
  name : Option (List Char)
  argc : ℕ
  argv : ℕ → Option (List Char)
  runsInBackground : Bool
  redirectFileName : Option (List Char)

namespace Command

def getArgv (c : Command) (i : ℕ) : Option (Option (List Char)) :=
  if i < MAX_ARGS then some (c.argv i) else none

def setArgv (c : Command) (i : ℕ) (arg : Option (List Char)) : Option Command :=
  if i < MAX_ARGS then some { c with argv := Function.update c.argv i arg } else none

end Command

/-- The state of the reader, with the pointers it has given to `free` and the strings it has
given to `parseCommand`. -/
structure Reader where
  stdin : List Char
  command : Command
  freed : List (Option (List Char))
  parsed : List (List Char)

def deleteLastArgument (r : Reader) : Option Reader := do
  let pointer ← r.command.getArgv r.command.argc
  let command := { r.command with argc := r.command.argc - 1 }
  let command ← command.setArgv command.argc none
  return { r with command := command, freed := r.freed ++ [pointer] }

def setRunsInBackground (r : Reader) (flag : Bool) : Reader :=
  { r with command := { r.command with runsInBackground := flag } }

def checkAndSetRunsInBackground (r : Reader) : Option Reader := do
  if r.command.argc < 2 then return setRunsInBackground r false
  let last ← r.command.getArgv (r.command.argc - 1)
  if (← last) ≠ ['&'] then return setRunsInBackground r false
  let r ← deleteLastArgument r
  return setRunsInBackground r true

def setRedirectFileName (r : Reader) (file : Option (List Char)) : Reader :=
  { r with command := { r.command with redirectFileName := file } }

def checkAndSetRedirect (r : Reader) : Option Reader := do
  let r := setRedirectFileName r none
  if r.command.argc < 3 then return r
  let marker ← r.command.getArgv (r.command.argc - 2)
  if (← marker) ≠ ['>'] then return r
  let r := setRedirectFileName r (← r.command.getArgv (r.command.argc - 1))
  let r ← deleteLastArgument r
  deleteLastArgument r

lemma strsep_lt {input : Option (List Char)} {token : List Char} {rest : Option (List Char)}
    (h : strsep input = (some token, rest)) :
    (rest.map fun s => s.length + 1).getD 0 < (input.map fun s => s.length + 1).getD 0 := by
  cases input with
  | none => cases h
  | some s =>
    cases rest with
    | none => simp
    | some r =>
      have hr : (splitFirst isSpace s).2 = some r := congrArg Prod.snd h
      simpa using length_splitFirst_lt hr

/-- The loop of `parseCommand`: the value of `argc` behind it, or nothing if it returns because
the name is too long. -/
def parseLoop (input : Option (List Char)) (argc : ℕ) (c : Command) :
    Option (Option ℕ × Command) :=
  match h : strsep input with
  | (none, _) => do
    let c ← c.setArgv argc none
    return (some argc, c)
  | (some token, rest) => do
    let c ← c.setArgv argc (some token)
    if argc = 0 ∧ MAX_PROG_LENGTH < token.length then return (none, c)
    else if token ≠ [] then do
      let c ← c.setArgv (argc + 1) none
      parseLoop rest (argc + 1) c
    else parseLoop rest argc c
termination_by (input.map fun s => s.length + 1).getD 0
decreasing_by all_goals exact strsep_lt h

def parseCommand (input : List Char) (c : Command) : Option (ℤ × Command) := do
  let (argc, c) ← parseLoop (some input) 0 c
  match argc with
  | none => return (-2, c)
  | some argc =>
    let argc := argc + 1
    let c ← c.setArgv argc none
    let c ← c.setArgv argc none
    return (1, { c with argc := argc - 1, name := c.argv 0 })

/-- The result of `readCommand` on a buffer of the given contents. -/
def readCommand (buffer : List Char) (r : Reader) : Option (ℤ × Reader) := do
  let (buffer, stdin) := fgets MAX_LINE_LENGTH buffer r.stdin
  let r := { r with stdin := stdin }
  let input ← cString buffer
  if strspnWhitespace input = input.length then return (-1, r)
  let (parseRes, command) ← parseCommand input r.command
  let r := { r with command := command, parsed := r.parsed ++ [input] }
  if parseRes = 1 then
    let r ← checkAndSetRunsInBackground r
    let r ← checkAndSetRedirect r
    return (1, r)
  else if parseRes = -2 then return (-2, r)
  else return (-1, r)

section Parse

variable {c : Command} {input : Option (List Char)} {argc n : ℕ}

/-- The strings `ws` and a final `NULL` have been written from index `n` on. -/
def putArgs (argv : ℕ → Option (List Char)) (n : ℕ) (ws : List (List Char)) :
    ℕ → Option (List Char) :=
  fun i => if n ≤ i ∧ i ≤ n + ws.length then ws[i - n]? else argv i

lemma putArgs_nil (argv : ℕ → Option (List Char)) (n : ℕ) :
    putArgs argv n [] = Function.update argv n none := by
  funext i
  by_cases hi : i = n
  · simp [putArgs, hi]
  · have hnot : ¬ (n ≤ i ∧ i ≤ n + ([] : List (List Char)).length) := by
      rw [List.length_nil]
      omega
    rw [putArgs, if_neg hnot, Function.update_of_ne hi]

lemma putArgs_update (argv : ℕ → Option (List Char)) (n : ℕ) (a : Option (List Char))
    (ws : List (List Char)) : putArgs (Function.update argv n a) n ws = putArgs argv n ws := by
  funext i
  rw [putArgs, putArgs]
  split_ifs with hi
  · rfl
  · rw [Function.update_of_ne]
    rintro rfl
    exact hi ⟨le_rfl, Nat.le_add_right _ _⟩

lemma putArgs_cons (argv : ℕ → Option (List Char)) (n : ℕ) (w : List Char)
    (ws : List (List Char)) :
    putArgs (Function.update argv n (some w)) (n + 1) ws = putArgs argv n (w :: ws) := by
  funext i
  rw [putArgs, putArgs, List.length_cons]
  rcases Nat.lt_trichotomy i n with hi | rfl | hi
  · rw [if_neg (by omega), if_neg (by omega), Function.update_of_ne (by omega)]
  · rw [if_neg (by omega), if_pos (by omega), Function.update_self, Nat.sub_self]
    rfl
  · have hsub : i - n = (i - (n + 1)) + 1 := by omega
    by_cases hle : i ≤ n + 1 + ws.length
    · rw [if_pos (by omega), if_pos (by omega), hsub, List.getElem?_cons_succ]
    · rw [if_neg (by omega), if_neg (by omega), Function.update_of_ne (by omega)]

lemma parseLoop_none (argc : ℕ) (c : Command) :
    parseLoop none argc c = (c.setArgv argc none).map fun c => (some argc, c) := by
  rw [parseLoop]
  simp only [strsep]
  cases c.setArgv argc none <;> rfl

lemma parseLoop_some (s : List Char) (argc : ℕ) (c : Command) :
    parseLoop (some s) argc c = (do
      let c ← c.setArgv argc (some (splitFirst isSpace s).1)
      if argc = 0 ∧ MAX_PROG_LENGTH < (splitFirst isSpace s).1.length then return (none, c)
      else if (splitFirst isSpace s).1 ≠ [] then do
        let c ← c.setArgv (argc + 1) none
        parseLoop (splitFirst isSpace s).2 (argc + 1) c
      else parseLoop (splitFirst isSpace s).2 argc c) := by
  rw [parseLoop]
  rfl

/-- The words that a call of `strsep` leaves to be found. -/
def inputWords (input : Option (List Char)) : List (List Char) := words isSpace (input.getD [])

lemma inputWords_some (s : List Char) : inputWords (some s) =
    (if (splitFirst isSpace s).1 = [] then [] else [(splitFirst isSpace s).1]) ++
      inputWords (splitFirst isSpace s).2 := words_splitFirst isSpace s

lemma rest_lt {s : List Char} {m : ℕ} (hm : ((some s).map fun s => s.length + 1).getD 0 = m) :
    ((splitFirst isSpace s).2.map fun s => s.length + 1).getD 0 < m := by
  have hsep : strsep (some s) = (some (splitFirst isSpace s).1, (splitFirst isSpace s).2) := rfl
  rw [← hm]
  exact strsep_lt hsep

/-- The name of the command is acceptable. -/
def NameFits (ws : List (List Char)) : Prop := ∀ w ∈ ws.head?, w.length ≤ MAX_PROG_LENGTH

instance (ws : List (List Char)) : Decidable (NameFits ws) :=
  match ws with
  | [] => isTrue (by simp [NameFits])
  | w :: _ => decidable_of_iff (w.length ≤ MAX_PROG_LENGTH) (by simp [NameFits])

lemma parseLoop_blank {s : List Char} (hblank : (splitFirst isSpace s).1 = []) (argc : ℕ)
    (c : Command) : parseLoop (some s) argc c = if argc < MAX_ARGS then
      parseLoop (splitFirst isSpace s).2 argc
        { c with argv := Function.update c.argv argc (some []) } else none := by
  have hshort : ¬ (argc = 0 ∧ MAX_PROG_LENGTH < ([] : List Char).length) := by simp
  rw [parseLoop_some, hblank, Command.setArgv]
  by_cases hargc : argc < MAX_ARGS
  · rw [if_pos hargc, if_pos hargc]
    simp only [Option.bind_eq_bind, Option.bind_some, hshort, if_false, ne_eq, not_true_eq_false]
  · rw [if_neg hargc, if_neg hargc]
    rfl

lemma parseLoop_word {s : List Char} (hword : (splitFirst isSpace s).1 ≠ [])
    (hfits : ¬ (argc = 0 ∧ MAX_PROG_LENGTH < (splitFirst isSpace s).1.length)) (c : Command) :
    parseLoop (some s) argc c = if argc + 1 < MAX_ARGS then
      parseLoop (splitFirst isSpace s).2 (argc + 1) { c with
        argv := Function.update (Function.update c.argv argc (some (splitFirst isSpace s).1))
          (argc + 1) none } else none := by
  rw [parseLoop_some, Command.setArgv]
  by_cases hargc : argc + 1 < MAX_ARGS
  · rw [if_pos (by omega), if_pos hargc]
    simp only [Option.bind_eq_bind, Option.bind_some, hfits, if_false, ne_eq, hword,
      not_false_eq_true, if_true, Command.setArgv, hargc]
  · rw [if_neg hargc]
    by_cases hlast : argc < MAX_ARGS
    · simp only [if_pos hlast, Option.bind_eq_bind, Option.bind_some, hfits, if_false, ne_eq,
        hword, not_false_eq_true, if_true, Command.setArgv, hargc, Option.bind_none]
    · rw [if_neg hlast]
      rfl

lemma parseLoop_spec (hname : argc = 0 → NameFits (inputWords input)) :
    parseLoop input argc c =
      if argc + (inputWords input).length < MAX_ARGS then
        some (some (argc + (inputWords input).length),
          { c with argv := putArgs c.argv argc (inputWords input) })
      else none := by
  induction hm : (input.map fun s => s.length + 1).getD 0 using Nat.strong_induction_on
    generalizing input argc c with
  | _ m ih =>
    cases input with
    | none =>
      rw [parseLoop_none, Command.setArgv]
      simp only [inputWords, Option.getD_none, words_nil, List.length_nil, add_zero, putArgs_nil]
      split_ifs <;> rfl
    | some s =>
      have hlt := rest_lt hm
      have hwords := inputWords_some s
      by_cases htoken : (splitFirst isSpace s).1 = []
      · rw [if_pos htoken, List.nil_append] at hwords
        rw [hwords] at hname ⊢
        rw [parseLoop_blank htoken, ih _ hlt hname rfl]
        simp only [putArgs_update]
        split_ifs <;> first | rfl | omega
      · rw [if_neg htoken, List.singleton_append] at hwords
        rw [hwords] at hname ⊢
        have hfits : ¬ (argc = 0 ∧ MAX_PROG_LENGTH < (splitFirst isSpace s).1.length) := by
          rintro ⟨h0, hlong⟩
          exact absurd (hname h0 _ rfl) (by omega)
        have hlater : argc + 1 = 0 → NameFits (inputWords (splitFirst isSpace s).2) := by simp
        rw [parseLoop_word htoken hfits, ih _ hlt hlater rfl, putArgs_update, putArgs_cons,
          List.length_cons, add_assoc, add_comm 1 (inputWords _).length]
        split_ifs <;> first | rfl | omega

lemma parseLoop_of_long (hlong : ¬ NameFits (inputWords input)) :
    ∃ c', parseLoop input 0 c = some (none, c') := by
  induction hm : (input.map fun s => s.length + 1).getD 0 using Nat.strong_induction_on
    generalizing input c with
  | _ m ih =>
    cases input with
    | none => simp [inputWords, NameFits] at hlong
    | some s =>
      have hlt := rest_lt hm
      have hwords := inputWords_some s
      have hargv : (0 : ℕ) < MAX_ARGS := by simp [MAX_ARGS]
      by_cases htoken : (splitFirst isSpace s).1 = []
      · rw [if_pos htoken, List.nil_append] at hwords
        rw [hwords] at hlong
        rw [parseLoop_blank htoken, if_pos hargv]
        exact ih _ hlt hlong rfl
      · rw [if_neg htoken, List.singleton_append] at hwords
        rw [hwords] at hlong
        have hname : MAX_PROG_LENGTH < (splitFirst isSpace s).1.length := by
          simpa [NameFits] using hlong
        refine ⟨{ c with argv := Function.update c.argv 0 (some (splitFirst isSpace s).1) }, ?_⟩
        rw [parseLoop_some, Command.setArgv, if_pos hargv]
        simp only [Option.bind_eq_bind, Option.bind_some, hname, and_self, if_true]
        rfl

/-- The command that `parseCommand` makes of the words of its input. -/
def commandOf (ws : List (List Char)) (c : Command) : Command :=
  { c with
    argc := ws.length
    name := ws.head?
    argv := Function.update (putArgs c.argv 0 ws) (ws.length + 1) none }

lemma parseCommand_of_fits {s : List Char} (hfits : NameFits (words isSpace s)) (c : Command) :
    parseCommand s c = if (words isSpace s).length + 1 < MAX_ARGS then
      some (1, commandOf (words isSpace s) c) else none := by
  have hws : inputWords (some s) = words isSpace s := rfl
  have hloop : parseLoop (some s) 0 c = _ := parseLoop_spec fun _ => hfits
  rw [hws, zero_add] at hloop
  rw [parseCommand, hloop]
  by_cases hlen : (words isSpace s).length + 1 < MAX_ARGS
  · have hlt : (words isSpace s).length < MAX_ARGS := by omega
    have hhead : putArgs c.argv 0 (words isSpace s) 0 = (words isSpace s).head? := by
      simp [putArgs, List.head?_eq_getElem?]
    simp only [if_pos hlt, if_pos hlen, Option.bind_eq_bind, Option.bind_some, Command.setArgv,
      Function.update_idem, Nat.add_sub_cancel, commandOf]
    rw [Function.update_of_ne (by omega), hhead]
    rfl
  · rw [if_neg hlen]
    by_cases hlt : (words isSpace s).length < MAX_ARGS
    · simp only [if_pos hlt, Option.bind_eq_bind, Option.bind_some, Command.setArgv, if_neg hlen,
        Option.bind_none]
    · rw [if_neg hlt]
      rfl

lemma parseCommand_of_long {s : List Char} (hlong : ¬ NameFits (words isSpace s)) (c : Command) :
    ∃ c', parseCommand s c = some (-2, c') := by
  obtain ⟨c', hc'⟩ : ∃ c', parseLoop (some s) 0 c = some (none, c') := parseLoop_of_long hlong
  exact ⟨c', by simp [parseCommand, hc']⟩

end Parse

section Commands

variable {r : Reader} {ws : List (List Char)}

/-- The arguments of the command are `ws`, behind which there is a `NULL`. -/
structure Holds (c : Command) (ws : List (List Char)) : Prop where
  argc : c.argc = ws.length
  argv : ∀ i ≤ ws.length, c.argv i = ws[i]?
  name : c.name = ws.head?
  room : ws.length < MAX_ARGS

lemma holds_commandOf (c : Command) (hlen : ws.length + 1 < MAX_ARGS) :
    Holds (commandOf ws c) ws := by
  refine ⟨rfl, fun i hi => ?_, rfl, by omega⟩
  rw [commandOf]
  simp only
  rw [Function.update_of_ne (by omega), putArgs, if_pos (by omega), Nat.sub_zero]

lemma deleteLastArgument_spec (h : Holds r.command ws) (hlen : 2 ≤ ws.length) :
    ∃ c, deleteLastArgument r = some { r with command := c, freed := r.freed ++ [none] } ∧
      Holds c ws.dropLast ∧ c.runsInBackground = r.command.runsInBackground ∧
      c.redirectFileName = r.command.redirectFileName := by
  have hroom := h.room
  have hlast : r.command.argv ws.length = none := by simp [h.argv _ le_rfl]
  refine ⟨{ r.command with
      argc := ws.length - 1
      argv := Function.update r.command.argv (ws.length - 1) none }, ?_, ?_, rfl, rfl⟩
  · have hpred : ws.length - 1 < MAX_ARGS := by omega
    simp only [deleteLastArgument, Command.getArgv, Command.setArgv, h.argc, if_pos hroom,
      if_pos hpred, hlast, Option.bind_eq_bind, Option.bind_some]
    rfl
  · refine ⟨List.length_dropLast.symm, fun i hi => ?_, ?_, ?_⟩
    · rw [List.length_dropLast] at hi
      change Function.update r.command.argv (ws.length - 1) none i = _
      rcases hi.eq_or_lt with rfl | hlt
      · rw [Function.update_self]
        simp
      · rw [Function.update_of_ne (by omega), h.argv i (by omega),
          List.getElem?_dropLast, if_pos hlt]
    · have hhead := h.name
      cases ws with
      | nil => simp at hlen
      | cons w ws =>
        cases ws with
        | nil => simp at hlen
        | cons v ws => simpa using hhead
    · rw [List.length_dropLast]
      omega

end Commands

end Eece315.ShellCommand
