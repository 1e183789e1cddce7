import Eece315.ShellCommand

/-! The grammar of the mini shell. The reader takes a line apart into the request that its words
spell, and gives a request that was written out as a line back unless its words can be taken for
a marker. -/
namespace Eece315.ShellGrammar
open Words Lines ShellCommand

/-- What a line asks for: a command with its arguments, a file for its output, and whether to
wait for it. -/
structure Request where
  args : List (List Char)
  redirect : Option (List Char)
  background : Bool
  deriving DecidableEq

/-- The last of at least two words is the background marker. -/
def EndsInBackground (ws : List (List Char)) : Prop := 2 ≤ ws.length ∧ ws.getLast? = some ['&']

instance (ws : List (List Char)) : Decidable (EndsInBackground ws) :=
  inferInstanceAs (Decidable (_ ∧ _))

/-- The second last of at least three words is the redirection marker. -/
def EndsInRedirect (ws : List (List Char)) : Prop :=
  3 ≤ ws.length ∧ ws[ws.length - 2]? = some ['>']

instance (ws : List (List Char)) : Decidable (EndsInRedirect ws) :=
  inferInstanceAs (Decidable (_ ∧ _))

def foreground (ws : List (List Char)) : List (List Char) :=
  if EndsInBackground ws then ws.dropLast else ws

def request (ws : List (List Char)) : Request :=
  if EndsInRedirect (foreground ws) then
    ⟨(foreground ws).dropLast.dropLast, (foreground ws).getLast?, EndsInBackground ws⟩
  else ⟨foreground ws, none, EndsInBackground ws⟩

structure Carries (c : Command) (q : Request) : Prop where
  holds : Holds c q.args
  redirect : c.redirectFileName = q.redirect
  background : c.runsInBackground = q.background

lemma Carries.unique {c : Command} {q q' : Request} (h : Carries c q) (h' : Carries c q') :
    q = q' := by
  have hlen : q.args.length = q'.args.length := h.holds.argc.symm.trans h'.holds.argc
  have hargs : q.args = q'.args := by
    apply List.ext_getElem?
    intro i
    by_cases hi : i ≤ q.args.length
    · rw [← h.holds.argv i hi, h'.holds.argv i (hlen ▸ hi)]
    · rw [List.getElem?_eq_none (by omega), List.getElem?_eq_none (by omega)]
  cases q
  cases q'
  simp only [Request.mk.injEq]
  exact ⟨hargs, h.redirect.symm.trans h'.redirect, h.background.symm.trans h'.background⟩

section Functions

variable {r : Reader} {ws : List (List Char)}

lemma length_foreground_pos (hne : ws ≠ []) : 1 ≤ (foreground ws).length := by
  have hpos := List.length_pos_of_ne_nil hne
  rw [foreground]
  split_ifs with hbg
  · have h2 := hbg.1
    rw [List.length_dropLast]
    omega
  · exact hpos

lemma request_args_ne_nil (hne : ws ≠ []) : (request ws).args ≠ [] := by
  have hpos := length_foreground_pos hne
  apply List.ne_nil_of_length_pos
  rw [request]
  split_ifs with hr
  · have h3 := hr.1
    rw [List.length_dropLast, List.length_dropLast]
    omega
  · exact hpos

lemma holds_last (h : Holds r.command ws) (hne : ws ≠ []) :
    r.command.getArgv (r.command.argc - 1) = some ws.getLast? := by
  have hpos := List.length_pos_of_ne_nil hne
  have hroom := h.room
  rw [Command.getArgv, h.argc, if_pos (by omega), h.argv _ (by omega), List.getLast?_eq_getElem?]

lemma checkAndSetRunsInBackground_spec (h : Holds r.command ws) :
    ∃ c k, checkAndSetRunsInBackground r =
        some { r with command := c, freed := r.freed ++ List.replicate k none } ∧
      Holds c (foreground ws) ∧ c.runsInBackground = decide (EndsInBackground ws) := by
  have hflag (flag : Bool) : Holds { r.command with runsInBackground := flag } ws :=
    ⟨h.argc, h.argv, h.name, h.room⟩
  by_cases hlen : ws.length < 2
  · have hbg : ¬ EndsInBackground ws := fun hb => absurd hb.1 (by omega)
    refine ⟨{ r.command with runsInBackground := false }, 0, ?_, ?_, ?_⟩
    · simp [checkAndSetRunsInBackground, h.argc, hlen, setRunsInBackground]
    · rw [foreground, if_neg hbg]
      exact hflag false
    · simp [hbg]
  · have hne : ws ≠ [] := by
      rintro rfl
      simp at hlen
    have hlast := holds_last h hne
    obtain ⟨w, hw⟩ : ∃ w, ws.getLast? = some w := ⟨_, List.getLast?_eq_some_getLast hne⟩
    by_cases hamp : w = ['&']
    · have hbg : EndsInBackground ws := ⟨by omega, by rw [hw, hamp]⟩
      obtain ⟨c, hd, hc, -, -⟩ := deleteLastArgument_spec h (by omega)
      refine ⟨{ c with runsInBackground := true }, 1, ?_, ?_, ?_⟩
      · rw [h.argc] at hlast
        simp [checkAndSetRunsInBackground, h.argc, hlen, hlast, hw, hamp, hd, setRunsInBackground]
      · rw [foreground, if_pos hbg]
        exact ⟨hc.argc, hc.argv, hc.name, hc.room⟩
      · simp [hbg]
    · have hbg : ¬ EndsInBackground ws := fun hb => hamp (Option.some.inj (hw.symm.trans hb.2))
      refine ⟨{ r.command with runsInBackground := false }, 0, ?_, ?_, ?_⟩
      · rw [h.argc] at hlast
        simp [checkAndSetRunsInBackground, h.argc, hlen, hlast, hw, hamp, setRunsInBackground]
      · rw [foreground, if_neg hbg]
        exact hflag false
      · simp [hbg]

lemma checkAndSetRedirect_spec (h : Holds r.command ws) :
    ∃ c k, checkAndSetRedirect r =
        some { r with command := c, freed := r.freed ++ List.replicate k none } ∧
      Holds c (if EndsInRedirect ws then ws.dropLast.dropLast else ws) ∧
      c.redirectFileName = (if EndsInRedirect ws then ws.getLast? else none) ∧
      c.runsInBackground = r.command.runsInBackground := by
  have hfile (file : Option (List Char)) : Holds { r.command with redirectFileName := file } ws :=
    ⟨h.argc, h.argv, h.name, h.room⟩
  by_cases hlen : ws.length < 3
  · have hr : ¬ EndsInRedirect ws := fun hb => absurd hb.1 (by omega)
    refine ⟨{ r.command with redirectFileName := none }, 0, ?_, ?_, ?_, rfl⟩
    · simp [checkAndSetRedirect, setRedirectFileName, h.argc, hlen]
    · rw [if_neg hr]
      exact hfile none
    · rw [if_neg hr]
  · have hne : ws ≠ [] := by
      rintro rfl
      simp at hlen
    have hroom := h.room
    have hroom₁ : ws.length - 1 < MAX_ARGS := by omega
    have hroom₂ : ws.length - 2 < MAX_ARGS := by omega
    obtain ⟨w, hw⟩ : ∃ w, ws[ws.length - 2]? = some w := ⟨_, List.getElem?_eq_getElem (by omega)⟩
    have hlast : r.command.argv (ws.length - 1) = ws.getLast? := by
      rw [h.argv _ (by omega), List.getLast?_eq_getElem?]
    have hmarker : r.command.argv (ws.length - 2) = some w := by rw [h.argv _ (by omega), hw]
    by_cases hgt : w = ['>']
    · have hr : EndsInRedirect ws := ⟨by omega, by rw [hw, hgt]⟩
      obtain ⟨c₁, hd₁, hc₁, hbg₁, hfile₁⟩ := deleteLastArgument_spec
        (r := setRedirectFileName r ws.getLast?) (hfile _) (by omega)
      obtain ⟨c₂, hd₂, hc₂, hbg₂, hfile₂⟩ := deleteLastArgument_spec
        (r := { r with command := c₁, freed := r.freed ++ [none] }) hc₁
        (by rw [List.length_dropLast]; omega)
      simp only [setRedirectFileName, h.argc] at hd₁
      simp only [List.append_assoc, List.singleton_append] at hd₂
      refine ⟨c₂, 2, ?_, ?_, ?_, ?_⟩
      · simp [checkAndSetRedirect, setRedirectFileName, Command.getArgv, h.argc, hlen, hroom₁,
          hroom₂, hmarker, hgt, hlast, hd₁, hd₂]
      · rw [if_pos hr]
        exact hc₂
      · rw [if_pos hr, hfile₂]
        exact hfile₁
      · rw [hbg₂]
        exact hbg₁
    · have hr : ¬ EndsInRedirect ws := fun hb => hgt (Option.some.inj (hw.symm.trans hb.2))
      refine ⟨{ r.command with redirectFileName := none }, 0, ?_, ?_, ?_, rfl⟩
      · simp [checkAndSetRedirect, setRedirectFileName, Command.getArgv, h.argc, hlen, hroom₂,
          hmarker, hgt]
      · rw [if_neg hr]
        exact hfile none
      · rw [if_neg hr]

lemma passes_spec (h : Holds r.command ws) :
    ∃ c k, (do checkAndSetRedirect (← checkAndSetRunsInBackground r)) =
        some { r with command := c, freed := r.freed ++ List.replicate k none } ∧
      Carries c (request ws) := by
  obtain ⟨c₁, k₁, he₁, hc₁, hbg₁⟩ := checkAndSetRunsInBackground_spec h
  obtain ⟨c₂, k₂, he₂, hc₂, hfile₂, hbg₂⟩ := checkAndSetRedirect_spec
    (r := { r with command := c₁, freed := r.freed ++ List.replicate k₁ none }) hc₁
  refine ⟨c₂, k₁ + k₂, ?_, ?_⟩
  · rw [he₁, Option.bind_eq_bind, Option.bind_some, he₂]
    simp only [List.append_assoc, List.replicate_append_replicate]
  · rw [request]
    split_ifs at hc₂ hfile₂ ⊢ with hr
    · exact ⟨hc₂, hfile₂, hbg₂.trans hbg₁⟩
    · exact ⟨hc₂, hfile₂, hbg₂.trans hbg₁⟩

end Functions

section Reading

variable {buffer stdin input : List Char} {r : Reader}

lemma strspnWhitespace_eq_length (s : List Char) :
    strspnWhitespace s = s.length ↔ words isSpace s = [] := by
  rw [words_eq_nil_iff, strspnWhitespace]
  constructor
  · intro h x hx
    have hall : s.takeWhile isSpace = s := List.takeWhile_prefix _ |>.eq_of_length h
    exact List.mem_takeWhile_imp (hall.symm ▸ hx)
  · intro h
    rw [List.takeWhile_eq_self_iff.mpr h]

lemma readCommand_eq (hbuf : fgets MAX_LINE_LENGTH buffer r.stdin = (input, stdin)) :
    readCommand buffer r = (cString input).bind fun s =>
      if words isSpace s = [] then some (-1, { r with stdin := stdin })
      else (parseCommand s r.command).bind fun (parseRes, command) =>
        let r := { r with stdin := stdin, command := command, parsed := r.parsed ++ [s] }
        if parseRes = 1 then
          (do checkAndSetRedirect (← checkAndSetRunsInBackground r)).map fun r => (1, r)
        else if parseRes = -2 then some (-2, r) else some (-1, r) := by
  rw [readCommand, hbuf]
  simp only [Option.bind_eq_bind, strspnWhitespace_eq_length]
  congr 1
  funext s
  split_ifs
  · rfl
  · congr 1
    funext ⟨parseRes, command⟩
    simp only []
    split_ifs
    · rw [Option.map_eq_bind, Option.bind_assoc]
      rfl
    · rfl
    · rfl

lemma readCommand_of_blank {s : List Char}
    (hbuf : fgets MAX_LINE_LENGTH buffer r.stdin = (input, stdin)) (hs : cString input = some s)
    (hws : words isSpace s = []) :
    readCommand buffer r = some (-1, { r with stdin := stdin }) := by
  rw [readCommand_eq hbuf, hs, Option.bind_some, if_pos hws]

lemma readCommand_of_long {s : List Char}
    (hbuf : fgets MAX_LINE_LENGTH buffer r.stdin = (input, stdin)) (hs : cString input = some s)
    (hlong : ¬ NameFits (words isSpace s)) :
    ∃ c, readCommand buffer r =
      some (-2, { r with stdin := stdin, command := c, parsed := r.parsed ++ [s] }) := by
  have hws : words isSpace s ≠ [] := by
    intro he
    simp [he, NameFits] at hlong
  obtain ⟨c, hc⟩ := parseCommand_of_long hlong r.command
  refine ⟨c, ?_⟩
  rw [readCommand_eq hbuf, hs, Option.bind_some, if_neg hws, hc]
  rfl

lemma readCommand_of_fits {s : List Char}
    (hbuf : fgets MAX_LINE_LENGTH buffer r.stdin = (input, stdin)) (hs : cString input = some s)
    (hws : words isSpace s ≠ []) (hfits : NameFits (words isSpace s))
    (hlen : (words isSpace s).length + 1 < MAX_ARGS) :
    ∃ c k, readCommand buffer r = some (1, { r with
        stdin := stdin, command := c, freed := r.freed ++ List.replicate k none,
        parsed := r.parsed ++ [s] }) ∧ Carries c (request (words isSpace s)) := by
  obtain ⟨c, k, hpasses, hc⟩ := passes_spec
    (r := { r with
      stdin := stdin, command := commandOf (words isSpace s) r.command,
      parsed := r.parsed ++ [s] }) (holds_commandOf r.command hlen)
  refine ⟨c, k, ?_, hc⟩
  rw [readCommand_eq hbuf, hs, Option.bind_some, if_neg hws, parseCommand_of_fits hfits,
    if_pos hlen, Option.bind_some]
  simp only [if_true]
  rw [hpasses]
  rfl

lemma readCommand_of_many {s : List Char}
    (hbuf : fgets MAX_LINE_LENGTH buffer r.stdin = (input, stdin)) (hs : cString input = some s)
    (hfits : NameFits (words isSpace s)) (hlen : ¬ (words isSpace s).length + 1 < MAX_ARGS) :
    readCommand buffer r = none := by
  have hws : words isSpace s ≠ [] := by
    intro he
    simp [he, MAX_ARGS] at hlen
  rw [readCommand_eq hbuf, hs, Option.bind_some, if_neg hws, parseCommand_of_fits hfits,
    if_neg hlen]
  rfl

end Reading

section Lines

variable {line rest stdin buffer : List Char}

lemma cString_fgets (hstdin : stdin ≠ []) (size : ℕ) (buffer : List Char) :
    cString (fgets size buffer stdin).1 =
      some ((takeLine '\n' (size - 1) stdin).takeWhile (· ≠ NUL)) := by
  rw [fgets, if_neg hstdin, cString, if_pos (by simp)]
  congr 1
  rw [List.takeWhile_append]
  split_ifs with hall
  · rw [List.takeWhile_cons_of_neg (by simp), List.append_nil]
    exact ((List.takeWhile_prefix _).eq_of_length hall).symm
  · rfl

lemma takeWhile_ne_nul {s : List Char} (hs : NUL ∉ s) : s.takeWhile (· ≠ NUL) = s := by
  rw [List.takeWhile_eq_self_iff]
  intro c hc
  simp only [ne_eq, decide_not, Bool.not_eq_eq_eq_not, Bool.not_true, decide_eq_false_iff_not]
  exact fun he => hs (he ▸ hc)

/-- The stream begins with this line, which a newline or the end of the stream ends. -/
def BeginsWith (line rest stdin : List Char) : Prop :=
  '\n' ∉ line ∧ (stdin = line ++ '\n' :: rest ∨ line ≠ [] ∧ stdin = line ∧ rest = [])

lemma BeginsWith.fgets (h : BeginsWith line rest stdin) (hlen : line.length ≤ 1022)
    (hnul : NUL ∉ line) (buffer : List Char) :
    ∃ input s, fgets MAX_LINE_LENGTH buffer stdin = (input, rest) ∧ cString input = some s ∧
      words isSpace s = words isSpace line := by
  obtain ⟨hline, hstdin⟩ := h
  have hsize : MAX_LINE_LENGTH - 1 = 1023 := rfl
  rcases hstdin with rfl | ⟨hne, rfl, rfl⟩
  · have htake := takeLine_line hline (n := 1023) (by omega) rest
    have hne : line ++ '\n' :: rest ≠ [] := by simp
    have hstring := cString_fgets hne MAX_LINE_LENGTH buffer
    have hboth : NUL ∉ line ++ ['\n'] := by
      rw [List.mem_append, not_or]
      exact ⟨hnul, by decide⟩
    rw [hsize, htake, takeWhile_ne_nul hboth] at hstring
    refine ⟨_, _, ?_, hstring, words_append_blank _ (by simp [isSpace, WHITESPACE])⟩
    rw [ShellCommand.fgets, if_neg (by simp), hsize, htake]
    simp
  · have htake := takeLine_last hline (n := 1023) (by omega)
    have hstring := cString_fgets hne MAX_LINE_LENGTH buffer
    rw [hsize, htake, takeWhile_ne_nul hnul] at hstring
    refine ⟨_, _, ?_, hstring, rfl⟩
    rw [ShellCommand.fgets, if_neg hne, hsize, htake]
    simp

end Lines

/-- The result of `readCommand` is right for a line of the given words: its value, the command,
and what it has freed. -/
structure Parses (ws : List (List Char)) (r r' : Reader) (code : ℤ) : Prop where
  codes : code = -1 ∨ code = -2 ∨ code = 1
  blank : code = -1 ↔ ws = []
  long : code = -2 ↔ ∃ w, ws.head? = some w ∧ MAX_PROG_LENGTH < w.length
  command : code = 1 → Carries r'.command (request ws) ∧ 1 ≤ r'.command.argc ∧
    r'.command.name = r'.command.argv 0
  freed : ∃ k, r'.freed = r.freed ++ List.replicate k none

lemma nameFits_iff {ws : List (List Char)} :
    ¬ NameFits ws ↔ ∃ w, ws.head? = some w ∧ MAX_PROG_LENGTH < w.length := by
  simp [NameFits]

lemma parses_of_fgets {buffer stdin input s : List Char} {r : Reader}
    (hbuf : fgets MAX_LINE_LENGTH buffer r.stdin = (input, stdin)) (hs : cString input = some s)
    (hlen : (words isSpace s).length ≤ 62) :
    ∃ code r', readCommand buffer r = some (code, r') ∧ r'.stdin = stdin ∧
      Parses (words isSpace s) r r' code := by
  have hfew : (words isSpace s).length + 1 < MAX_ARGS := by
    rw [MAX_ARGS]
    omega
  by_cases hws : words isSpace s = []
  · refine ⟨-1, _, readCommand_of_blank hbuf hs hws, rfl, .inl rfl, iff_of_true rfl hws, ?_, ?_,
      0, by simp⟩
    · simp [hws]
    · intro h
      omega
  · by_cases hfits : NameFits (words isSpace s)
    · obtain ⟨c, k, hr, hc⟩ := readCommand_of_fits hbuf hs hws hfits hfew
      refine ⟨1, _, hr, rfl, .inr (.inr rfl), iff_of_false (by omega) hws, ?_, fun _ => ?_, k, rfl⟩
      · rw [← nameFits_iff]
        exact iff_of_false (by omega) (not_not.mpr hfits)
      · have hpos := List.length_pos_of_ne_nil (request_args_ne_nil hws)
        refine ⟨hc, hc.holds.argc.symm ▸ hpos, ?_⟩
        rw [hc.holds.name, hc.holds.argv 0 (Nat.zero_le _), List.head?_eq_getElem?]
    · obtain ⟨c, hr⟩ := readCommand_of_long hbuf hs hfits
      refine ⟨-2, _, hr, rfl, .inr (.inl rfl), iff_of_false (by omega) hws,
        iff_of_true rfl (nameFits_iff.mp hfits), ?_, 0, by simp⟩
      intro h
      omega

namespace Request

variable {q : Request}

def base (q : Request) : List (List Char) :=
  match q.redirect with
  | none => q.args
  | some file => q.args ++ [['>'], file]

def written (q : Request) : List (List Char) :=
  if q.background then q.base ++ [['&']] else q.base

def line (q : Request) : List Char := [' '].intercalate q.written

structure Writable (q : Request) : Prop where
  args : q.args ≠ []
  name : NameFits q.args
  words : ∀ w ∈ q.written, IsWord isSpace w ∧ NUL ∉ w
  count : q.written.length ≤ 62
  length : q.line.length ≤ 1022

/-- No word of the request can be taken for a marker. -/
def Unambiguous (q : Request) : Prop :=
  (q.background = false → ¬ EndsInBackground q.written) ∧
    (q.redirect = none → ¬ EndsInRedirect q.args)

/-- Reading the line of the request gives the request back. -/
def ReadsBack (q : Request) : Prop :=
  ∀ rest buffer r, BeginsWith q.line rest r.stdin →
    ∃ r', readCommand buffer r = some (1, r') ∧ Carries r'.command q

lemma length_base_pos (hargs : q.args ≠ []) : 1 ≤ q.base.length := by
  have hpos := List.length_pos_of_ne_nil hargs
  rw [base]
  split
  · exact hpos
  · rw [List.length_append]
    omega

lemma request_of_foreground (hargs : q.args ≠ []) {ws : List (List Char)}
    (hfore : foreground ws = q.base) (hbg : decide (EndsInBackground ws) = q.background) :
    request ws = q ↔ (q.redirect = none → ¬ EndsInRedirect q.args) := by
  have hpos := List.length_pos_of_ne_nil hargs
  obtain ⟨args, redirect, background⟩ := q
  rw [request, hfore, hbg]
  cases redirect with
  | none =>
    by_cases hr : EndsInRedirect args
    · have hlast : args.getLast? ≠ none := by simpa using hargs
      simp [base, hr, hargs]
    · simp [base, hr]
  | some file =>
    have hr : EndsInRedirect (args ++ [['>'], file]) := by
      refine ⟨?_, ?_⟩
      · rw [List.length_append]
        simp only [List.length_cons, List.length_nil]
        simp only at hpos
        omega
      · rw [List.length_append]
        simp
    simp [base, hr]

lemma request_written (hargs : q.args ≠ []) : request q.written = q ↔ Unambiguous q := by
  have hpos := length_base_pos hargs
  cases hb : q.background with
  | true =>
    have hwritten : q.written = q.base ++ [['&']] := if_pos hb
    have hbg : EndsInBackground q.written := by
      rw [hwritten]
      refine ⟨?_, List.getLast?_concat⟩
      rw [List.length_append, List.length_singleton]
      omega
    have hfore : foreground q.written = q.base := by
      rw [foreground, if_pos hbg, hwritten, List.dropLast_concat]
    rw [request_of_foreground hargs hfore (by simp [hbg, hb]), Unambiguous]
    simp [hb]
  | false =>
    have hwritten : q.written = q.base := if_neg (by simp [hb])
    by_cases hbg : EndsInBackground q.written
    · have hne : request q.written ≠ q := by
        intro he
        have hflag := congrArg Request.background he
        rw [request] at hflag
        split_ifs at hflag <;> simp [hbg, hb] at hflag
      exact iff_of_false hne fun hun => hun.1 hb hbg
    · have hfore : foreground q.written = q.base := by rw [foreground, if_neg hbg, hwritten]
      rw [request_of_foreground hargs hfore (by simp [hbg, hb]), Unambiguous]
      simp [hb, hbg]

lemma line_spec (h : Writable q) :
    NUL ∉ q.line ∧ words isSpace q.line = q.written := by
  have hblank : ∀ c ∈ [' '], isSpace c = true := List.forall_mem_singleton.mpr (by decide)
  refine ⟨fun hnul => ?_, words_intercalate (by simp) hblank fun w hw => (h.words w hw).1⟩
  rcases mem_intercalate hnul with hc | ⟨w, hw, hc⟩
  · exact absurd hc (by decide)
  · exact (h.words w hw).2 hc

lemma Writable.newline (h : Writable q) : '\n' ∉ q.line := by
  intro hnl
  rcases mem_intercalate hnl with hc | ⟨w, hw, hc⟩
  · exact absurd hc (by decide)
  · exact absurd ((h.words w hw).1.2 _ hc) (by decide)

lemma Writable.head (h : Writable q) : q.written.head? = q.args.head? := by
  obtain ⟨w, ws, hargs⟩ := List.exists_cons_of_ne_nil h.args
  have hbase : q.base.head? = q.args.head? := by
    rw [base]
    split <;> simp [hargs]
  rw [written]
  split
  · rw [List.head?_append, hbase, hargs]
    rfl
  · exact hbase

lemma readsBack_iff (h : Writable q) : ReadsBack q ↔ Unambiguous q := by
  obtain ⟨hnul, hwords⟩ := line_spec h
  have hne : q.written ≠ [] := by
    intro he
    have hhead := h.head
    rw [he, eq_comm, List.head?_nil, List.head?_eq_none_iff] at hhead
    exact h.args hhead
  have hfits : NameFits q.written := by
    rw [NameFits, h.head]
    exact h.name
  have hread (rest buffer : List Char) (r : Reader) (hr : BeginsWith q.line rest r.stdin) :
      ∃ r', readCommand buffer r = some (1, r') ∧ Carries r'.command (request q.written) := by
    obtain ⟨input, s, hbuf, hs, hws⟩ := hr.fgets h.length hnul buffer
    rw [hwords] at hws
    have hcount := h.count
    obtain ⟨c, k, hread, hc⟩ := readCommand_of_fits hbuf hs (hws ▸ hne) (hws ▸ hfits)
      (by rw [hws, MAX_ARGS]; omega)
    exact ⟨_, hread, hws ▸ hc⟩
  rw [← request_written h.args]
  constructor
  · intro hback
    let r : Reader := ⟨q.line ++ ['\n'], ⟨none, 0, fun _ => none, false, none⟩, [], []⟩
    have hr : BeginsWith q.line [] r.stdin := ⟨h.newline, .inl rfl⟩
    obtain ⟨r₁, h₁, hc₁⟩ := hback [] [] r hr
    obtain ⟨r₂, h₂, hc₂⟩ := hread [] [] r hr
    obtain rfl : r₁ = r₂ := congrArg Prod.snd (Option.some.inj (h₁.symm.trans h₂))
    exact hc₂.unique hc₁
  · intro hq rest buffer r hr
    rw [hq] at hread
    exact hread rest buffer r hr

end Request

/-- A line without NUL that is not too long is parsed by the grammar, and the line of a request
is read as this request exactly when none of its words can be taken for a marker. -/
theorem readCommand_grammar :
    (∀ line rest buffer r, BeginsWith line rest r.stdin → line.length ≤ 1022 → NUL ∉ line →
      (words isSpace line).length ≤ 62 → ∃ code r', readCommand buffer r = some (code, r') ∧
        r'.stdin = rest ∧ Parses (words isSpace line) r r' code) ∧
    ∀ q : Request, q.Writable → (q.ReadsBack ↔ q.Unambiguous) := by
  refine ⟨fun line rest buffer r hline hlen hnul hcount => ?_, fun q hq => ?_⟩
  · obtain ⟨input, s, hbuf, hs, hws⟩ := hline.fgets hlen hnul buffer
    rw [← hws] at hcount ⊢
    exact parses_of_fgets hbuf hs hcount
  · exact Request.readsBack_iff hq

/-- The line "ls > out &", and the request that it stands for. -/
theorem readCommand_grammar_demo :
    (∃ code r', readCommand [] ⟨['l', 's', ' ', '>', ' ', 'o', 'u', 't', ' ', '&', '\n'],
        ⟨none, 0, fun _ => none, false, none⟩, [], []⟩ = some (code, r') ∧ r'.stdin = [] ∧
      Parses (words isSpace ['l', 's', ' ', '>', ' ', 'o', 'u', 't', ' ', '&'])
        ⟨['l', 's', ' ', '>', ' ', 'o', 'u', 't', ' ', '&', '\n'],
          ⟨none, 0, fun _ => none, false, none⟩, [], []⟩ r' code) ∧
    (Request.ReadsBack ⟨[['l', 's']], some ['o', 'u', 't'], true⟩ ↔
      Request.Unambiguous ⟨[['l', 's']], some ['o', 'u', 't'], true⟩) := by
  refine ⟨readCommand_grammar.1 _ [] [] _ ⟨by decide, .inl rfl⟩ (by decide) (by decide)
    (by decide), readCommand_grammar.2 _ ⟨by decide, by decide, ?_, by decide, by decide⟩⟩
  simp [Request.written, Request.base, IsWord, isSpace, WHITESPACE, NUL]

/-- A NUL hides the rest of the line, and "ls &" is read as a background command also where "&"
was meant as an argument. -/
theorem readCommand_fails :
    (¬ ∀ line rest buffer r, BeginsWith line rest r.stdin → line.length ≤ 1022 →
      (words isSpace line).length ≤ 62 → ∃ code r', readCommand buffer r = some (code, r') ∧
        r'.stdin = rest ∧ Parses (words isSpace line) r r' code) ∧
    ¬ ∀ q : Request, q.Writable → q.ReadsBack := by
  constructor
  · intro h
    let r : Reader := ⟨['a', NUL, ' ', 'b', '\n'], ⟨none, 0, fun _ => none, false, none⟩, [], []⟩
    have hs : cString ['a', NUL, ' ', 'b', '\n', NUL] = some ['a'] := by decide
    have hbuf : fgets MAX_LINE_LENGTH [] r.stdin = (['a', NUL, ' ', 'b', '\n', NUL], []) := by
      decide
    obtain ⟨c, k, hr, hc⟩ := readCommand_of_fits hbuf hs (by decide) (by decide) (by decide)
    obtain ⟨code, r', hr', -, hp⟩ := h ['a', NUL, ' ', 'b'] [] [] r ⟨by decide, .inl rfl⟩
      (by decide) (by decide)
    obtain ⟨rfl, rfl⟩ := Prod.mk.inj (Option.some.inj (hr'.symm.trans hr))
    have hsame := (hp.command rfl).1.unique hc
    exact absurd hsame (by decide)
  · intro h
    have hq : Request.Writable ⟨[['l', 's'], ['&']], none, false⟩ := by
      refine ⟨by decide, by decide, ?_, by decide, by decide⟩
      simp [Request.written, Request.base, IsWord, isSpace, WHITESPACE, NUL]
    have hun := (Request.readsBack_iff hq).mp (h _ hq)
    exact hun.1 rfl (by decide)

end Eece315.ShellGrammar
