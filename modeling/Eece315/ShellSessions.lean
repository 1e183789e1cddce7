import Eece315.ShellTerminal
import Eece315.StepRuns

/-! All that the shell leaves in the files and on the terminal in a session, on a terminal and
with its output elsewhere. -/
namespace Eece315.ShellOutput

open Descriptors ShellCommand ShellDispatch ShellStream

def childText (w : World) : List Char :=
  match w.execv with
  | .ok output => output
  | .error strerror => s!"{ANSI_COLOR_RED}ERROR: {strerror}{ANSI_COLOR_RESET}".toList

def written (w : World) (action : Action) (c : Command) : List Char :=
  match action with
  | .external => builtinText w c
  | .start _ => childText w
  | _ => []

def message (action : Action) (c : Command) : List Char :=
  match action with
  | .noCommand =>
    s!"{ANSI_COLOR_YELLOW}No executable command given.{ANSI_COLOR_RESET}\n".toList
  | .nameTooLong => s!"{ANSI_COLOR_YELLOW}Command name too long.{ANSI_COLOR_RESET}\n".toList
  | .leave =>
    s!"{ANSI_COLOR_YELLOW}Shell exiting...{ANSI_COLOR_RESET}\n".toList ++ ANSI_COLOR_RESET.toList
  | .notFound =>
    let name := String.ofList (c.name.getD [])
    s!"{ANSI_COLOR_RED}ERROR: We couldn't find `{name}` in the PATH. :({ANSI_COLOR_RESET}\n".toList
  | _ => []

/-- The files after the command of an iteration. -/
def store (files : List Char → List Char) (e : Entry) : List Char → List Char :=
  put files (target e.world e.command) (written e.world e.action e.command)

/-- What an iteration leaves on the terminal: the prompt, the output of the command unless it goes
to a file, and what the shell says. -/
def shows (e : Entry) : List Char :=
  promptText e.world ++ (rest e.world e.command (written e.world e.action e.command) ++
    message e.action e.command)

section Session

variable {table : List (Option ℕ)} {d : ℕ} {files : List Char → List Char}
  {shown pending : List Char} {sh sh' : Shell} {w : World} {c : Command} {action : Action}
  {turn : Turn} {s s' : Session} {turns : List (World × Turn)}

lemma Idle.isExternalCommand {res : Bool} (h : Idle table d files shown [] sh)
    (hroom : 1 < table.count none)
    (hrun : ShellOutput.isExternalCommand interactive w c sh = some (res, sh')) :
    Idle table d (put files (target w c) (builtinText w c))
      (shown ++ rest w c (builtinText w c)) [] sh' := by
  refine h.command hroom (fun {sh₁ _ _ _ _ _} hleads hpending hbuiltin => ?_) hrun
  rw [← Shell.after, hleads.after_nil hpending, builtinText]
  rcases hleads.runBuiltin hbuiltin with ⟨hprinted, rfl⟩ | ⟨hsystem, text, hline, hprinted, rfl⟩
  · rw [hprinted, List.nil_append]
  · rw [hsystem, List.append_nil, hprinted, hleads.printf_line hpending hline]

lemma Idle.silent {res : Bool} (h : Idle table d files shown [] sh) (hroom : 1 < table.count none)
    (htext : printedText w c = [] ∧ systemText w c = [])
    (hrun : ShellOutput.isExternalCommand interactive w c sh = some (res, sh')) :
    Idle table d files shown [] sh' := by
  have hidle := h.isExternalCommand hroom hrun
  rwa [builtinText, htext.1, htext.2, List.append_nil, put_nil, rest_nil, List.append_nil] at hidle

lemma Idle.forkChild (h : Idle table d files shown [] sh) (hroom : 1 < table.count none) :
    Idle table d (put files (target w c) (childText w)) (shown ++ rest w c (childText w)) []
      (forkChild interactive w c sh) := by
  refine h.fork hroom (fun {p _ _ _} hp hleads => ?_)
  unfold runChild childText
  rw [hp]
  cases w.execv with
  | ok output => rfl
  | error strerror => exact congrArg Shell.process (hleads.prints_all h.pending _)

lemma Idle.printf_line (h : Idle table d files shown [] sh) {text : String}
    (hline : text.toList.getLast? = some '\n') :
    Idle table d files (shown ++ text.toList) [] (sh.printf interactive text) := by
  rw [h.leads.printf_line h.pending hline]
  exact h.emit _

lemma Idle.printf_exit (h : Idle table d files shown [] sh) {text : String}
    (hline : text.toList.getLast? = some '\n') :
    Idle table d files (shown ++ text.toList ++ ANSI_COLOR_RESET.toList) []
      ((sh.printf interactive text).printf interactive ANSI_COLOR_RESET).fflush := by
  have hexit := h.printf_line hline
  rw [hexit.leads.prints_all hexit.pending]
  exact hexit.emit _

lemma Idle.act (h : Idle table d files shown [] sh) (hroom : 1 < table.count none)
    (htext : action.dispatches = false ∨ action = .external ∨
      printedText w c = [] ∧ systemText w c = [])
    (hrun : act interactive w action c sh = some sh') :
    Idle table d (put files (target w c) (written w action c))
      (shown ++ (rest w c (written w action c) ++ message action c)) [] sh' := by
  cases action with
  | noCommand =>
    obtain rfl := Option.some.inj hrun
    simp only [written, put_nil, rest_nil, List.nil_append]
    exact h.printf_line (getLast?_line _)
  | nameTooLong =>
    obtain rfl := Option.some.inj hrun
    simp only [written, put_nil, rest_nil, List.nil_append]
    exact h.printf_line (getLast?_line _)
  | external =>
    obtain ⟨⟨res, sh₁⟩, hexternal, rfl⟩ := Option.map_eq_some_iff.mp hrun
    simp only [message, List.append_nil]
    exact h.isExternalCommand hroom hexternal
  | leave =>
    obtain ⟨⟨res, sh₁⟩, hexternal, hrun⟩ := Option.bind_eq_some_iff.mp hrun
    obtain rfl := Option.some.inj hrun
    simp only [written, put_nil, rest_nil, List.nil_append, message, ← List.append_assoc]
    have hsilent := h.silent hroom (by simpa [Action.dispatches] using htext) hexternal
    exact hsilent.printf_exit (getLast?_line _)
  | notFound =>
    obtain ⟨⟨res, sh₁⟩, hexternal, hrun⟩ := Option.bind_eq_some_iff.mp hrun
    obtain ⟨name, hname, hrun⟩ := Option.bind_eq_some_iff.mp hrun
    obtain rfl := Option.some.inj hrun
    simp only [written, put_nil, rest_nil, List.nil_append, message, hname]
    have hsilent := h.silent hroom (by simpa [Action.dispatches] using htext) hexternal
    exact hsilent.printf_line (getLast?_line _)
  | start background =>
    cases background with
    | true => cases hrun
    | false =>
      obtain ⟨⟨res, sh₁⟩, hexternal, hrun⟩ := Option.bind_eq_some_iff.mp hrun
      obtain rfl := Option.some.inj hrun
      simp only [message, List.append_nil]
      have hsilent := h.silent hroom (by simpa [Action.dispatches] using htext) hexternal
      exact hsilent.forkChild hroom

lemma Idle.iterate (h : Idle table d files shown [] s.shell) (hroom : 1 < table.count none)
    (hrun : iterate interactive w turn s = some s') :
    ∃ e, s'.log = s.log ++ [e] ∧ Idle table d (store files e) (shown ++ shows e) [] s'.shell := by
  obtain ⟨⟨action, r⟩, hiter, hrun⟩ := Option.bind_eq_some_iff.mp hrun
  obtain ⟨sh, hact, hrun⟩ := Option.bind_eq_some_iff.mp hrun
  obtain rfl := Option.some.inj hrun
  refine ⟨⟨w, action, r.command⟩, rfl, ?_⟩
  rw [h.leads.await h.pending] at hact
  rw [shows, ← List.append_assoc]
  exact (h.emit (promptText w)).act hroom (texts_of_iteration hiter w) hact

end Session

section Batch

variable {table : List (Option ℕ)} {d : ℕ} {files : List Char → List Char}
  {shown pending : List Char} {sh sh' : Shell} {w : World} {c : Command} {action : Action}
  {turn : Turn} {s s' : Session} {turns : List (World × Turn)}

lemma Idle.fflush (h : Idle table d files shown pending sh) :
    Idle table d files (shown ++ pending) [] sh.fflush := by
  rw [← h.pending]
  exact (h.emit sh.pending).with_pending []

end Batch

end Eece315.ShellOutput
