import Eece315.ShellOutput

/-! What the shell and its children write from a state between two commands, by what leads where:
the text comes to the end of the terminal, or to the beginning of the file that is opened for it. -/
namespace Eece315.ShellOutput

open Descriptors ShellCommand ShellDispatch

section Emit

variable {sh : Shell} {n offset : ℕ} {name : File} {a b : List Char}

structure Leads (sh : Shell) (n : ℕ) (name : File) (offset : ℕ) : Prop where
  table : sh.process.table[1]? = some (some n)
  opened : sh.process.opened[n]? = some ⟨name, offset⟩
  inside : offset ≤ (sh.process.files name).length

lemma Leads.emit_eq (h : Leads sh n name offset) (a : List Char) :
    sh.emit a = ⟨⟨Function.update sh.process.files name
        (overlay (sh.process.files name) offset a),
      sh.process.opened.set n ⟨name, offset + a.length⟩, sh.process.table⟩, sh.pending⟩ := by
  rw [Shell.emit, Process.write, lookup_of_table h.table]
  simp only [h.opened]

lemma Leads.emit (h : Leads sh n name offset) (a : List Char) :
    Leads (sh.emit a) n name (offset + a.length) := by
  obtain ⟨hlt, -⟩ := List.getElem?_eq_some_iff.mp h.opened
  rw [h.emit_eq]
  refine ⟨h.table, List.getElem?_set_self hlt, ?_⟩
  have hinside := h.inside
  simp only [Function.update_self, overlay, List.length_append, List.length_take,
    List.length_drop]
  omega

lemma Leads.emit_emit (h : Leads sh n name offset) (a b : List Char) :
    (sh.emit a).emit b = sh.emit (a ++ b) := by
  rw [(h.emit a).emit_eq, h.emit_eq, h.emit_eq]
  simp only [Function.update_idem, Function.update_self, List.set_set, List.length_append,
    Nat.add_assoc, overlay_overlay h.inside]

lemma Leads.emit_nil (h : Leads sh n name offset) : sh.emit [] = sh := by
  obtain ⟨hlt, hfile⟩ := List.getElem?_eq_some_iff.mp h.opened
  rw [h.emit_eq, overlay_nil, Function.update_eq_self, List.length_nil, Nat.add_zero, ← hfile,
    List.set_getElem_self]

def Shell.after (sh : Shell) (a b : List Char) : Shell := { sh.emit a with pending := b }

lemma Leads.printf_after (h : Leads sh n name offset) (a b : List Char) (text : String) :
    (sh.after a b).printf interactive text =
      sh.after (a ++ (b ++ text.toList).rdropWhile (· ≠ '\n'))
        ((b ++ text.toList).rtakeWhile (· ≠ '\n')) := by
  rw [Shell.after, Shell.after, ← h.emit_emit]
  rfl

lemma Leads.fflush_after (h : Leads sh n name offset) (a b : List Char) :
    (sh.after a b).fflush = sh.after (a ++ b) [] := by
  rw [Shell.after, Shell.after, ← h.emit_emit]
  rfl

lemma Leads.after_nil (h : Leads sh n name offset) (hpending : sh.pending = []) (a : List Char) :
    sh.after a [] = sh.emit a := by
  rw [Shell.after, ← hpending, h.emit_eq]

lemma Leads.prints (h : Leads sh n name offset) (texts : List String) (a b : List Char) :
    (texts.foldl (·.printf interactive ·) (sh.after a b)).fflush =
      sh.after (a ++ b ++ texts.flatMap String.toList) [] := by
  induction texts generalizing a b with
  | nil => rw [List.foldl_nil, h.fflush_after, List.flatMap_nil, List.append_nil]
  | cons text texts ih =>
    rw [List.foldl_cons, h.printf_after, ih, List.flatMap_cons, List.append_assoc a,
      List.rdropWhile_append_rtakeWhile]
    simp only [List.append_assoc]

/-- What goes before a command up to the end of the prompt. -/
def promptTexts (w : World) : List String :=
  let user := w.user
  let hostname := w.hostname
  let cwd := w.cwd
  [ANSI_COLOR_RESET, s!"EECE315_$HELL<>{user}@{hostname}:",
    s!"{ANSI_COLOR_GREEN}{cwd}{ANSI_COLOR_RESET}\n$ "]

def promptText (w : World) : List Char :=
  (promptTexts w).flatMap String.toList ++ ANSI_COLOR_CYAN.toList

lemma Leads.await (h : Leads sh n name offset) (hpending : sh.pending = []) (w : World) :
    awaitCommand interactive w sh = sh.emit (promptText w) := by
  have hstart : sh = sh.after [] [] := by rw [h.after_nil hpending, h.emit_nil]
  have hprints : awaitCommand interactive w sh =
      ([ANSI_COLOR_CYAN].foldl (·.printf interactive ·)
        ((promptTexts w).foldl (·.printf interactive ·) sh).fflush).fflush := rfl
  have hprompt := h.prints (promptTexts w) [] []
  rw [← hstart] at hprompt
  rw [hprints, hprompt, h.prints, h.after_nil hpending]
  simp [promptText]

lemma getLast?_line (front : String) : (front ++ toString "\n").toList.getLast? = some '\n' := by
  simp [show toString "\n" = "\n" from rfl]

lemma Leads.printf_line (h : Leads sh n name offset) (hpending : sh.pending = []) {text : String}
    (hline : text.toList.getLast? = some '\n') :
    sh.printf interactive text = sh.emit text.toList := by
  obtain ⟨front, hfront⟩ : ∃ front, text.toList = front ++ ['\n'] := by
    obtain ⟨front, hfront⟩ := List.getLast?_eq_some_iff.mp hline
    exact ⟨front, hfront⟩
  have hstart : sh = sh.after [] [] := by rw [h.after_nil hpending, h.emit_nil]
  conv_lhs => rw [hstart]
  rw [h.printf_after, List.nil_append, List.nil_append, hfront,
    List.rdropWhile_concat_neg _ _ _ (by simp), List.rtakeWhile_concat_neg _ _ _ (by simp),
    h.after_nil hpending]

lemma Leads.prints_all (h : Leads sh n name offset) (hpending : sh.pending = []) (text : String) :
    (sh.printf interactive text).fflush = sh.emit text.toList := by
  have hstart : sh = sh.after [] [] := by rw [h.after_nil hpending, h.emit_nil]
  have hprints := h.prints [text] [] []
  rw [← hstart, h.after_nil hpending] at hprints
  simpa using hprints

end Emit

def put (files : List Char → List Char) (target : Option (List Char)) (text : List Char) :
    List Char → List Char :=
  match target with
  | none => files
  | some file => Function.update files file (overlay (files file) 0 text)

structure Idle (table : List (Option ℕ)) (d : ℕ) (files : List Char → List Char)
    (shown pending : List Char) (sh : Shell) : Prop where
  descriptors : sh.process.table = table
  place : table[1]? = some (some d)
  opened : sh.process.opened[d]? = some ⟨none, shown.length⟩
  terminal : sh.process.files none = shown
  others : ∀ file, sh.process.files (some file) = files file
  pending : sh.pending = pending

section Commands

variable {table : List (Option ℕ)} {d : ℕ} {files : List Char → List Char}
  {shown pending : List Char} {mode : Mode} {sh sh' : Shell} {n offset : ℕ} {name : File}
  {w : World} {c : Command} {res : Bool}

lemma Leads.runBuiltin (h : Leads sh n name offset)
    (hrun : runBuiltin mode w c sh = some (res, sh')) :
    printedText w c = [] ∧ sh' = sh.emit (systemText w c) ∨
    systemText w c = [] ∧ ∃ text : String, text.toList.getLast? = some '\n' ∧
      printedText w c = text.toList ∧ sh' = sh.printf mode text := by
  obtain ⟨name, hname, hrun⟩ := Option.bind_eq_some_iff.mp hrun
  simp only [printedText, systemText, hname]
  by_cases hpwd : strncmpZero name ['p', 'w', 'd'] 3
  · rw [if_pos hpwd] at hrun
    obtain ⟨-, rfl⟩ := Prod.mk.inj (Option.some.inj hrun)
    right
    rw [if_pos hpwd, if_pos (Or.inl hpwd)]
    exact ⟨rfl, _, getLast?_line _, rfl, rfl⟩
  left
  rw [if_neg hpwd] at hrun ⊢
  refine ⟨rfl, ?_⟩
  by_cases hcd : strncmpZero name ['c', 'd'] 2
  · rw [if_pos hcd] at hrun
    obtain ⟨dir, -, hrun⟩ := Option.bind_eq_some_iff.mp hrun
    obtain ⟨cd, -, hrun⟩ := Option.bind_eq_some_iff.mp hrun
    obtain ⟨-, rfl⟩ := Prod.mk.inj (Option.some.inj hrun)
    rw [if_pos (Or.inr hcd)]
    exact h.emit_nil.symm
  rw [if_neg hcd] at hrun
  rw [if_neg (by simp [hpwd, hcd])]
  by_cases hecho : strncmpZero name ['e', 'c', 'h', 'o'] 4
  · rw [if_pos hecho] at hrun ⊢
    obtain ⟨str, hstr, hrun⟩ := Option.bind_eq_some_iff.mp hrun
    obtain ⟨echo, hcommand, hrun⟩ := Option.bind_eq_some_iff.mp hrun
    obtain ⟨-, rfl⟩ := Prod.mk.inj (Option.some.inj hrun)
    rw [hstr, Option.bind_some, hcommand]
    rfl
  · rw [if_neg hecho] at hrun ⊢
    obtain ⟨-, rfl⟩ := Prod.mk.inj (Option.some.inj hrun)
    exact h.emit_nil.symm

lemma Idle.leads (h : Idle table d files shown pending sh) : Leads sh d none shown.length :=
  ⟨h.descriptors ▸ h.place, h.opened, h.terminal ▸ le_rfl⟩

lemma Idle.emit (h : Idle table d files shown pending sh) (a : List Char) :
    Idle table d files (shown ++ a) pending (sh.emit a) := by
  obtain ⟨hlt, -⟩ := List.getElem?_eq_some_iff.mp h.opened
  rw [h.leads.emit_eq]
  refine ⟨h.descriptors, h.place, ?_, ?_, ?_, h.pending⟩
  · rw [List.getElem?_set_self hlt, List.length_append]
  · simp only [Function.update_self, h.terminal, overlay_length]
  · intro file
    simp only [Function.update_of_ne (Option.some_ne_none file)]
    exact h.others file

lemma Idle.with_pending (h : Idle table d files shown pending sh) (a : List Char) :
    Idle table d files shown a { sh with pending := a } :=
  ⟨h.descriptors, h.place, h.opened, h.terminal, h.others, rfl⟩

/-- A command of the shell's own whose output goes to a file: the file gets it at its beginning,
and the shell has its terminal back, if there was a second place for the copy. -/
lemma Idle.redirect (h : Idle table d files shown pending sh) (hroom : 1 < table.count none)
    {name file : List Char} (hopen : w.opens name = some file) (text : List Char)
    {p : Process File Char} {stdoutCopy : Option ℕ}
    (hp : redirectOutput w name sh.process = (stdoutCopy, p)) :
    Leads { sh with process := p } sh.process.opened.length (some file) 0 ∧
    Idle table d (put files (some file) text) shown pending
      ⟨(({ sh with process := p } : Shell).emit text).process.restore stdoutCopy 1, pending⟩ := by
  obtain ⟨a, ha, hdivert, hfiles, hopened⟩ :=
    redirect_cases hopen (by rw [h.descriptors]; omega) hp
  have hplace : sh.process.table[1]? = some (some d) := h.descriptors ▸ h.place
  have hleads : Leads { sh with process := p } sh.process.opened.length (some file) 0 := by
    refine ⟨?_, ?_, Nat.zero_le _⟩
    · have hback := (table_restore_some (q := p) hplace ha (by rw [hdivert])).1
      rwa [hdivert] at hback
    · simp [hopened]
  refine ⟨hleads, ?_⟩
  rw [hleads.emit_eq]
  obtain ⟨hlt, -⟩ := List.getElem?_eq_some_iff.mp h.opened
  refine ⟨?_, h.place, ?_, ?_, ?_, rfl⟩
  · have hback := (table_restore_some (q := ⟨Function.update p.files (some file)
      (overlay (p.files (some file)) 0 text), p.opened.set sh.process.opened.length
        ⟨some file, 0 + text.length⟩, p.table⟩) hplace ha (by rw [hdivert])).2
    rw [hdivert, if_neg (by rw [h.descriptors]; omega), h.descriptors] at hback
    exact hback
  · simp only [opened_restore, hopened]
    rw [List.getElem?_set_ne hlt.ne', List.getElem?_append_left hlt]
    exact h.opened
  · simp only [files_restore, hfiles]
    rw [Function.update_of_ne (by simp)]
    exact h.terminal
  · intro file'
    simp only [files_restore, hfiles, put, Function.update_apply, Option.some.injEq, h.others]

lemma Idle.redirect_none (h : Idle table d files shown pending sh) {name : List Char}
    (hopen : w.opens name = none) (text : List Char) {p : Process File Char}
    {stdoutCopy : Option ℕ} (hp : redirectOutput w name sh.process = (stdoutCopy, p)) :
    Leads { sh with process := p } d none shown.length ∧
    Idle table d files (shown ++ text) pending
      ⟨(({ sh with process := p } : Shell).emit text).process.restore stdoutCopy 1, pending⟩ := by
  have hdivert : sh.process.divert none 1 = (stdoutCopy, p) := by
    rw [← hp, redirectOutput, openOutput, hopen]
  have hplace : sh.process.table[1]? = some (some d) := h.descriptors ▸ h.place
  have hfiles : p.files = sh.process.files := by
    have hkept := files_divert sh.process none 1
    rwa [hdivert] at hkept
  have hopened : p.opened = sh.process.opened := by
    have hkept := opened_divert sh.process none 1
    rwa [hdivert] at hkept
  have hleads : Leads { sh with process := p } d none shown.length := by
    have hback := (table_restore_none (q := p) hplace (by rw [hdivert])).1
    rw [hdivert] at hback
    refine ⟨hback, ?_, ?_⟩
    · simp only [hopened, h.opened]
    · simp only [hfiles, h.terminal, le_refl]
  refine ⟨hleads, ?_⟩
  rw [hleads.emit_eq]
  obtain ⟨hlt, -⟩ := List.getElem?_eq_some_iff.mp h.opened
  refine ⟨?_, h.place, ?_, ?_, ?_, rfl⟩
  · have hback := (table_restore_none (q := ⟨Function.update p.files none
      (overlay (p.files none) shown.length text), p.opened.set d ⟨none, shown.length + text.length⟩,
        p.table⟩) hplace (by rw [hdivert])).2
    rw [hdivert, h.descriptors] at hback
    exact hback
  · simp only [opened_restore, hopened]
    rw [List.getElem?_set_self hlt, List.length_append]
  · simp only [files_restore, hfiles, Function.update_self, h.terminal, overlay_length]
  · intro file'
    simp only [files_restore, hfiles, Function.update_of_ne (Option.some_ne_none file'), h.others]

lemma put_nil (files : List Char → List Char) (file : Option (List Char)) :
    put files file [] = files := by
  cases file with
  | none => rfl
  | some file => rw [put, overlay_nil, Function.update_eq_self]

def rest (w : World) (c : Command) (text : List Char) : List Char :=
  if target w c = none then text else []

lemma rest_nil (w : World) (c : Command) : rest w c [] = [] := ite_self []

lemma Idle.command {text pending' : List Char} (h : Idle table d files shown pending sh)
    (hroom : 1 < table.count none)
    (htext : ∀ {sh₁ sh₂ n name offset res}, Leads sh₁ n name offset → sh₁.pending = pending →
      runBuiltin mode w c sh₁ = some (res, sh₂) → sh₂ = { sh₁.emit text with pending := pending' })
    (hrun : isExternalCommand mode w c sh = some (res, sh')) :
    Idle table d (put files (target w c) text) (shown ++ rest w c text) pending' sh' := by
  unfold ShellOutput.isExternalCommand at hrun
  unfold rest
  cases hname : c.redirectFileName with
  | none =>
    rw [hname] at hrun
    have htarget : target w c = none := by rw [target, hname, Option.bind_none]
    rw [htarget, if_pos rfl, htext h.leads h.pending hrun]
    exact (h.emit text).with_pending pending'
  | some name =>
    rw [hname] at hrun
    obtain ⟨⟨r, sh₁⟩, hbuiltin, hrestore⟩ := Option.bind_eq_some_iff.mp hrun
    obtain ⟨rfl, rfl⟩ := Prod.mk.inj (Option.some.inj hrestore)
    have htarget : target w c = w.opens name := by rw [target, hname, Option.bind_some]
    rcases Option.eq_none_or_eq_some (w.opens name) with hopen | ⟨file, hopen⟩
    · obtain ⟨hleads, hidle⟩ := h.redirect_none hopen text rfl
      rw [htext hleads h.pending hbuiltin, htarget.trans hopen, if_pos rfl]
      exact hidle.with_pending pending'
    · obtain ⟨hleads, hidle⟩ := h.redirect hroom hopen text rfl
      rw [htext hleads h.pending hbuiltin, htarget.trans hopen, if_neg (by simp),
        List.append_nil]
      exact hidle.with_pending pending'

lemma redirectChild_some {file : List Char} (h : Idle table d files shown pending sh)
    (hroom : 0 < table.count none) (htarget : target w c = some file) :
    redirectChild w c sh.process = { sh.process with
      opened := sh.process.opened ++ [⟨some file, 0⟩]
      table := sh.process.table.set 1 (some sh.process.opened.length) } := by
  obtain ⟨name, hname, hopen⟩ := Option.bind_eq_some_iff.mp htarget
  cases ha : lowest sh.process.table with
  | none =>
    rw [lowest_eq_none, h.descriptors] at ha
    exact absurd ha hroom.ne'
  | some a =>
    rw [← openFile_over (h.descriptors ▸ h.place) ha, redirectChild, hname]
    simp only [openOutput, hopen, openFile_of_lowest ha]

lemma redirectChild_none (htarget : target w c = none) (p : Process File Char) :
    redirectChild w c p = p := by
  unfold redirectChild
  cases hname : c.redirectFileName with
  | none => rfl
  | some name =>
    rw [target, hname, Option.bind_some] at htarget
    simp only [openOutput, htarget]
    rfl

lemma Idle.fork {text : List Char} (h : Idle table d files shown pending sh)
    (hroom : 1 < table.count none)
    (htext : ∀ {p n name offset}, redirectChild w c sh.process = p →
      Leads { sh with process := p } n name offset →
      (runChild mode w c sh).process = (({ sh with process := p } : Shell).emit text).process) :
    Idle table d (put files (target w c) text) (shown ++ rest w c text) pending
      (forkChild mode w c sh) := by
  have hfork : forkChild mode w c sh = ⟨⟨(runChild mode w c sh).process.files,
      (runChild mode w c sh).process.opened, sh.process.table⟩, sh.pending⟩ := rfl
  rw [hfork]
  unfold rest
  cases htarget : target w c with
  | none =>
    rw [htext (redirectChild_none htarget _) h.leads, h.leads.emit_eq, if_pos rfl]
    have hidle := h.emit text
    rw [h.leads.emit_eq] at hidle
    exact hidle
  | some file =>
    obtain ⟨hlt, -⟩ := List.getElem?_eq_some_iff.mp h.opened
    have hplace : 1 < sh.process.table.length := by
      obtain ⟨hlt1, -⟩ := List.getElem?_eq_some_iff.mp h.place
      rwa [h.descriptors]
    have hleads : Leads { sh with process := { sh.process with
        opened := sh.process.opened ++ [⟨some file, 0⟩]
        table := sh.process.table.set 1 (some sh.process.opened.length) } }
        sh.process.opened.length (some file) 0 :=
      ⟨List.getElem?_set_self hplace, by simp, Nat.zero_le _⟩
    rw [htext (redirectChild_some h (by omega) htarget) hleads, hleads.emit_eq, if_neg (by simp),
      List.append_nil]
    refine ⟨h.descriptors, h.place, ?_, ?_, ?_, h.pending⟩
    · simp only
      rw [List.getElem?_set_ne hlt.ne', List.getElem?_append_left hlt]
      exact h.opened
    · simp only [Function.update_of_ne (Option.some_ne_none file).symm]
      exact h.terminal
    · intro file'
      simp only [put, Function.update_apply, Option.some.injEq, h.others]

end Commands

end Eece315.ShellOutput
