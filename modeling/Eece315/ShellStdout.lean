import Eece315.ShellOutput
import Eece315.StepRuns

/-! Where descriptor 1 of the shell leads after a session, for every number of free descriptors. -/
namespace Eece315.ShellOutput

open Descriptors ShellCommand ShellDispatch ShellStream

def redirection (e : Entry) : Option (List Char) :=
  if e.action.dispatches then target e.world e.command else none

/-- The shell leads its output as before, and has no fewer open files. -/
structure Keeps (sh sh' : Shell) : Prop where
  table : sh'.process.table = sh.process.table
  names : sh.process.names <+: sh'.process.names

/-- How redirections change descriptor 1, by the last of them: with just one free descriptor the
shell's own output stays redirected. -/
structure Redirected (last : Option (List Char)) (sh sh' : Shell) : Prop where
  names : sh.process.names <+: sh'.process.names
  kept : sh.process.table.count none ≠ 1 ∨ last = none → sh'.process.table = sh.process.table
  moved : sh.process.table.count none = 1 → ∀ file, last = some file →
    ∃ f ≥ sh.process.names.length, sh'.process.table = sh.process.table.set 1 (some f) ∧
      sh'.process.names[f]? = some (some file)

section Descriptor

variable {mode : Mode} {w : World} {c : Command} {sh sh₁ sh₂ : Shell} {res : Bool} {d : ℕ}
  {action : Action} {last next : Option (List Char)} {turn : Turn} {s s' : Session}
  {turns : List (World × Turn)}

lemma Keeps.refl (sh : Shell) : Keeps sh sh := ⟨rfl, List.prefix_rfl⟩

lemma Keeps.trans (h₁ : Keeps sh sh₁) (h₂ : Keeps sh₁ sh₂) : Keeps sh sh₂ :=
  ⟨h₂.table.trans h₁.table, h₁.names.trans h₂.names⟩

lemma Keeps.emit (sh : Shell) (text : List Char) : Keeps sh (sh.emit text) :=
  ⟨table_write _ 1 text, by rw [Shell.emit, names_write]⟩

lemma Keeps.fflush (sh : Shell) : Keeps sh sh.fflush := by
  have hemit := Keeps.emit sh sh.pending
  exact ⟨hemit.table, hemit.names⟩

lemma Keeps.printf (mode : Mode) (sh : Shell) (text : String) : Keeps sh (sh.printf mode text) := by
  unfold Shell.printf
  simp only
  split_ifs
  · have hemit := Keeps.emit sh ((sh.pending ++ text.toList).rdropWhile (· ≠ '\n'))
    exact ⟨hemit.table, hemit.names⟩
  · exact ⟨rfl, List.prefix_rfl⟩

lemma Keeps.await (mode : Mode) (w : World) (sh : Shell) : Keeps sh (awaitCommand mode w sh) := by
  have hprompt (sh : Shell) : Keeps sh (printPrompt mode w sh) :=
    (Keeps.printf mode sh _).trans ((Keeps.printf mode _ _).trans (Keeps.fflush _))
  have hawait := (Keeps.printf mode sh ANSI_COLOR_RESET).trans
    ((hprompt _).trans (Keeps.printf mode _ ANSI_COLOR_CYAN))
  unfold awaitCommand
  simp only
  split_ifs
  · exact hawait.trans (Keeps.fflush _)
  · exact hawait

lemma Keeps.runBuiltin (hrun : runBuiltin mode w c sh = some (res, sh₁)) : Keeps sh sh₁ := by
  obtain ⟨name, -, hrun⟩ := Option.bind_eq_some_iff.mp hrun
  split_ifs at hrun
  · obtain ⟨-, rfl⟩ := Prod.mk.inj (Option.some.inj hrun)
    exact Keeps.printf mode sh _
  · obtain ⟨dir, -, hrun⟩ := Option.bind_eq_some_iff.mp hrun
    obtain ⟨cd, -, hrun⟩ := Option.bind_eq_some_iff.mp hrun
    obtain ⟨-, rfl⟩ := Prod.mk.inj (Option.some.inj hrun)
    exact Keeps.refl sh
  · obtain ⟨str, -, hrun⟩ := Option.bind_eq_some_iff.mp hrun
    obtain ⟨echo, -, hrun⟩ := Option.bind_eq_some_iff.mp hrun
    obtain ⟨-, rfl⟩ := Prod.mk.inj (Option.some.inj hrun)
    exact Keeps.emit sh _
  · obtain ⟨-, rfl⟩ := Prod.mk.inj (Option.some.inj hrun)
    exact Keeps.refl sh

lemma Keeps.redirected (h : Keeps sh sh₁) : Redirected none sh sh₁ :=
  ⟨h.names, fun _ => h.table, fun _ _ hfile => absurd hfile (by simp)⟩

lemma Redirected.place (hplace : sh.process.table[1]? = some (some d))
    (h : Redirected last sh sh₁) : ∃ f, sh₁.process.table[1]? = some (some f) := by
  by_cases hkept : sh.process.table.count none ≠ 1 ∨ last = none
  · exact ⟨d, by rw [h.kept hkept, hplace]⟩
  · push Not at hkept
    obtain ⟨file, hfile⟩ := Option.ne_none_iff_exists'.mp hkept.2
    obtain ⟨f, -, htable, -⟩ := h.moved hkept.1 file hfile
    obtain ⟨hlt, -⟩ := List.getElem?_eq_some_iff.mp hplace
    exact ⟨f, by rw [htable, List.getElem?_set_self hlt]⟩

lemma Redirected.trans (hplace : sh.process.table[1]? = some (some d))
    (h₁ : Redirected last sh sh₁) (h₂ : Redirected next sh₁ sh₂) :
    Redirected (next.or last) sh sh₂ := by
  refine ⟨h₁.names.trans h₂.names, fun h => ?_, fun hone file hfile => ?_⟩
  · have hfirst : sh₁.process.table = sh.process.table :=
      h₁.kept (h.imp_right fun hnone => (Option.or_eq_none_iff.mp hnone).2)
    rw [h₂.kept (h.imp (by rw [hfirst]; exact id) fun hnone => (Option.or_eq_none_iff.mp hnone).1),
      hfirst]
  have hle := h₁.names.length_le
  cases last with
  | none =>
    have hfirst := h₁.kept (.inr rfl)
    rw [Option.or_none] at hfile
    obtain ⟨f, hf, htable, hname⟩ := h₂.moved (by rwa [hfirst]) file hfile
    exact ⟨f, hle.trans hf, by rw [htable, hfirst], hname⟩
  | some file₁ =>
    obtain ⟨f, hf, htable, hname⟩ := h₁.moved hone file₁ rfl
    cases next with
    | none =>
      obtain rfl := Option.some.inj hfile
      have hlt := (List.getElem?_eq_some_iff.mp hname).1
      refine ⟨f, hf, (h₂.kept (.inr rfl)).trans htable, ?_⟩
      obtain ⟨more, hmore⟩ := h₂.names
      rw [← hmore, List.getElem?_append_left hlt]
      exact hname
    | some file₂ =>
      obtain ⟨hlt, hget⟩ := List.getElem?_eq_some_iff.mp hplace
      have hcount : sh₁.process.table.count none = 1 := by
        rw [htable, List.count_set hlt, hget]
        simpa using hone
      obtain ⟨f₂, hf₂, htable₂, hname₂⟩ := h₂.moved hcount file hfile
      exact ⟨f₂, hle.trans hf₂, by rw [htable₂, htable, List.set_set], hname₂⟩

lemma redirected_of_restore {stdoutCopy : Option ℕ} {name : List Char} {p : Process File Char}
    (hplace : sh.process.table[1]? = some (some d))
    (hp : redirectOutput w name sh.process = (stdoutCopy, p))
    (hkeeps : Keeps { sh with process := p } sh₁) :
    Redirected (w.opens name) sh
      { sh₁ with process := sh₁.process.restore stdoutCopy 1 } := by
  have hnames : (sh₁.process.restore stdoutCopy 1).names = sh₁.process.names := by
    rw [Process.names, opened_restore, Process.names]
  have hdiverted (hnone : sh.process.divert none 1 = (stdoutCopy, p)) :
      Keeps sh { sh₁ with process := sh₁.process.restore stdoutCopy 1 } := by
    have hback := (table_restore_none (q := sh₁.process) hplace (by rw [hnone, hkeeps.table])).2
    rw [hnone] at hback
    have hopened := opened_divert sh.process none 1
    rw [hnone] at hopened
    refine ⟨hback, ?_⟩
    rw [hnames, Process.names, ← hopened]
    exact hkeeps.names
  cases hopen : w.opens name with
  | some file =>
    by_cases hroom : 0 < sh.process.table.count none
    · obtain ⟨a, ha, hdivert, -, hopened⟩ := redirect_cases hopen hroom hp
      have hback := (table_restore_some (q := sh₁.process) hplace ha (by
        rw [hdivert, hkeeps.table])).2
      rw [hdivert] at hback
      have hpnames : p.names = sh.process.names ++ [some file] := by
        rw [Process.names, hopened, List.map_append, Process.names]
        rfl
      have hkept := hkeeps.names
      simp only [hpnames] at hkept
      refine ⟨?_, fun h => ?_, fun hone file' hfile => ?_⟩
      · rw [hnames]
        exact (List.prefix_append _ _).trans hkept
      · exact hback.trans (if_neg (h.resolve_right (Option.some_ne_none file)))
      · obtain rfl := Option.some.inj hfile
        have hlength : sh.process.opened.length = sh.process.names.length := by simp [Process.names]
        refine ⟨sh.process.names.length, le_rfl, ?_, ?_⟩
        · rw [← hlength]
          exact hback.trans (if_pos hone)
        · rw [hnames]
          obtain ⟨more, hmore⟩ := hkept
          rw [← hmore, List.append_assoc, List.getElem?_append_right le_rfl, Nat.sub_self]
          rfl
    · have hfull : lowest sh.process.table = none := lowest_eq_none.mpr (by omega)
      have hnone : sh.process.divert none 1 = (stdoutCopy, p) := by
        rw [← hp, redirectOutput, openOutput, hopen]
        simp only [Process.openFile, hfull]
      have hkept := (hdiverted hnone)
      exact ⟨hkept.names, fun _ => hkept.table, fun hone => absurd hone (by omega)⟩
  | none =>
    have hnone : sh.process.divert none 1 = (stdoutCopy, p) := by
      rw [← hp, redirectOutput, openOutput, hopen]
    exact (hdiverted hnone).redirected

lemma Redirected.isExternalCommand (hplace : sh.process.table[1]? = some (some d))
    (hrun : isExternalCommand mode w c sh = some (res, sh₁)) :
    Redirected (target w c) sh sh₁ := by
  unfold ShellOutput.isExternalCommand at hrun
  unfold target
  cases hfile : c.redirectFileName with
  | none =>
    rw [hfile] at hrun
    exact (Keeps.runBuiltin hrun).redirected
  | some file =>
    rw [hfile] at hrun
    obtain ⟨⟨r, sh₂⟩, hbuiltin, hrestore⟩ := Option.bind_eq_some_iff.mp hrun
    obtain ⟨rfl, rfl⟩ := Prod.mk.inj (Option.some.inj hrestore)
    exact redirected_of_restore hplace rfl (Keeps.runBuiltin hbuiltin)

lemma Keeps.forkChild (mode : Mode) (w : World) (c : Command) (sh : Shell) :
    Keeps sh (forkChild mode w c sh) := by
  refine ⟨rfl, ?_⟩
  have hrun : Keeps { sh with process := redirectChild w c sh.process }
      (runChild mode w c sh) := by
    unfold runChild
    cases w.execv with
    | ok output => exact Keeps.emit _ output
    | error strerror => exact (Keeps.printf mode _ _).trans (Keeps.fflush _)
  refine List.IsPrefix.trans ?_ hrun.names
  unfold redirectChild
  cases c.redirectFileName with
  | none => exact List.prefix_rfl
  | some file =>
    simp only [openOutput]
    split
    · simp only [Process.names, opened_close, opened_dup2]
      rw [Process.openFile]
      split
      · exact List.prefix_rfl
      · rw [List.map_append]
        exact List.prefix_append _ _
    · simp only [Process.names, opened_close, opened_dup2, List.prefix_rfl]

lemma Redirected.act (hplace : sh.process.table[1]? = some (some d))
    (hrun : act mode w action c sh = some sh₁) :
    Redirected (redirection ⟨w, action, c⟩) sh sh₁ := by
  have hthen {res : Bool} {sh' : Shell} (hkeeps : Keeps sh' sh₁)
      (hexternal : ShellOutput.isExternalCommand mode w c sh = some (res, sh')) :
      Redirected (target w c) sh sh₁ := by
    have hcommand := Redirected.isExternalCommand hplace hexternal
    have hredirected := hcommand.trans hplace hkeeps.redirected
    rwa [Option.none_or] at hredirected
  cases action with
  | noCommand =>
    obtain rfl := Option.some.inj hrun
    exact (Keeps.printf mode sh _).redirected
  | nameTooLong =>
    obtain rfl := Option.some.inj hrun
    exact (Keeps.printf mode sh _).redirected
  | external =>
    obtain ⟨⟨res, sh'⟩, hexternal, rfl⟩ := Option.map_eq_some_iff.mp hrun
    exact Redirected.isExternalCommand hplace hexternal
  | leave =>
    obtain ⟨⟨res, sh'⟩, hexternal, hrun⟩ := Option.bind_eq_some_iff.mp hrun
    obtain rfl := Option.some.inj hrun
    exact hthen ((Keeps.printf mode _ _).trans
      ((Keeps.printf mode _ _).trans (Keeps.fflush _))) hexternal
  | notFound =>
    obtain ⟨⟨res, sh'⟩, hexternal, hrun⟩ := Option.bind_eq_some_iff.mp hrun
    obtain ⟨name, -, hrun⟩ := Option.bind_eq_some_iff.mp hrun
    obtain rfl := Option.some.inj hrun
    exact hthen (Keeps.printf mode _ _) hexternal
  | start background =>
    cases background with
    | true => cases hrun
    | false =>
      obtain ⟨⟨res, sh'⟩, hexternal, hrun⟩ := Option.bind_eq_some_iff.mp hrun
      obtain rfl := Option.some.inj hrun
      exact hthen (Keeps.forkChild mode w c _) hexternal

lemma Redirected.iterate (hplace : s.shell.process.table[1]? = some (some d))
    (hrun : iterate mode w turn s = some s') :
    ∃ e, s'.log = s.log ++ [e] ∧ Redirected (redirection e) s.shell s'.shell := by
  obtain ⟨⟨action, r⟩, -, hrun⟩ := Option.bind_eq_some_iff.mp hrun
  obtain ⟨sh, hact, hrun⟩ := Option.bind_eq_some_iff.mp hrun
  obtain rfl := Option.some.inj hrun
  refine ⟨⟨w, action, r.command⟩, rfl, ?_⟩
  have hawait := Keeps.await mode w s.shell
  have hredirected := hawait.redirected.trans hplace
    (Redirected.act (by rw [hawait.table, hplace]) hact)
  rwa [Option.or_none] at hredirected

lemma Redirected.mainLoop (hlog : s.log = [])
    (hplace : s.shell.process.table[1]? = some (some d))
    (hrun : mainLoop mode turns s = some s') :
    Redirected (s'.log.filterMap redirection).getLast? s.shell s'.shell := by
  refine StepRuns.foldlM_induction (motive := fun s' => Redirected
    (s'.log.filterMap redirection).getLast? s.shell s'.shell) ?_ ?_ hrun
  · rw [hlog]
    exact (Keeps.refl _).redirected
  · intro s₁ s₂ turn hlast hstep
    rw [step] at hstep
    split_ifs at hstep
    · obtain ⟨d₁, hplace₁⟩ := hlast.place hplace
      obtain ⟨e, he, hnext⟩ := Redirected.iterate hplace₁ hstep
      have hboth := hlast.trans hplace hnext
      rw [he, List.filterMap_append, List.getLast?_append]
      cases hredirection : redirection e <;> simpa [hredirection] using hboth
    · obtain rfl := Option.some.inj hstep
      exact hlast

end Descriptor

end Eece315.ShellOutput
