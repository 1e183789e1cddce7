import Eece315.ShellDispatch

/-! The arrays of fixed size behind a line: `argv`, which `parseCommand` fills, and the command
lines that `changeDirectory` and `echoString` build. The line that `fgets` delivers limits neither
the number of its words nor, enough, their lengths. -/
namespace Eece315.ShellBuffers
open Words ShellCommand ShellGrammar ShellDispatch

/-- The string that `fgets` leaves at the start of the buffer. -/
def delivered (buffer : List Char) (r : Reader) : Option (List Char) :=
  cString (fgets MAX_LINE_LENGTH buffer r.stdin).1

/-- The string that the command gives to a built-in command is built in its buffer. An `echo`
without an argument has no string. -/
def BuildsInside (c : Command) : Prop :=
  ∀ name arg, c.name = some name → c.getArgv 1 = some arg →
    (strncmpZero name ['c', 'd'] 2 → (changeDirectory arg).isSome) ∧
    (strncmpZero name ['e', 'c', 'h', 'o'] 4 → ∀ str, arg = some str → (echoString str).isSome)

/-- What is done with the delivered line stays inside the arrays. -/
structure StaysInside (buffer : List Char) (r : Reader) : Prop where
  argv : ∀ input, delivered buffer r = some input → (parseCommand input r.command).isSome
  strings : ∀ r', readCommand buffer r = some (1, r') → BuildsInside r'.command

/-- The second word of a built-in command leaves room in a command line. -/
def StringsFit (args : List (List Char)) : Prop :=
  ∀ name, name ∈ args.head? →
    (strncmpZero name ['c', 'd'] 2 → ∀ dir, dir ∈ args[1]? → dir.length < 248) ∧
    (strncmpZero name ['e', 'c', 'h', 'o'] 4 → ∀ str, str ∈ args[1]? → str.length < 251)

/-- The words are refused for the first one, or are few and short enough. -/
def WordsFit (ws : List (List Char)) : Prop :=
  ¬ NameFits ws ∨ (ws.length + 1 < MAX_ARGS ∧ StringsFit (request ws).args)

section Command

variable {c : Command} {q : Request}

lemma buildsInside_iff (h : Carries c q) : BuildsInside c ↔ StringsFit q.args := by
  rw [BuildsInside, StringsFit, h.holds.name]
  apply forall_congr'
  intro name
  have harg (hname : q.args.head? = some name) : c.getArgv 1 = some q.args[1]? :=
    getArgv_one h hname
  have hstrings : (∀ str, q.args[1]? = some str → (echoString (some str)).isSome) ↔
      ∀ str, str ∈ q.args[1]? → str.length < 251 := by
    simp [echoString_isSome]
  constructor
  · intro hbuilds hname
    rw [← hstrings, ← changeDirectory_isSome]
    exact hbuilds q.args[1]? hname (harg hname)
  · intro hfits arg hname hget
    obtain rfl := Option.some.inj ((harg hname).symm.trans hget)
    rw [hstrings, changeDirectory_isSome]
    exact hfits hname

lemma parseCommand_isSome {input : List Char} (c : Command) :
    (parseCommand input c).isSome ↔
      ¬ NameFits (words isSpace input) ∨ (words isSpace input).length + 1 < MAX_ARGS := by
  by_cases hname : NameFits (words isSpace input)
  · rw [parseCommand_of_fits hname]
    split_ifs with hfew
    · simp [hfew]
    · simp [hfew, hname]
  · obtain ⟨c', hc'⟩ := parseCommand_of_long hname c
    simp [hc', hname]

end Command

section Line

variable {buffer input : List Char} {r : Reader}

lemma strings_iff (hinput : delivered buffer r = some input)
    (hargv : (parseCommand input r.command).isSome) :
    (∀ r', readCommand buffer r = some (1, r') → BuildsInside r'.command) ↔
      WordsFit (words isSpace input) := by
  have hbuf : fgets MAX_LINE_LENGTH buffer r.stdin = _ := Prod.mk.eta.symm
  rw [parseCommand_isSome] at hargv
  by_cases hname : NameFits (words isSpace input)
  · have hfew := hargv.resolve_left (not_not.mpr hname)
    have hwords : WordsFit (words isSpace input) ↔
        StringsFit (request (words isSpace input)).args := by simp [WordsFit, hname, hfew]
    rw [hwords]
    by_cases hblank : words isSpace input = []
    · rw [readCommand_of_blank hbuf hinput hblank, hblank]
      simp [StringsFit, request, foreground, EndsInBackground, EndsInRedirect]
    · obtain ⟨c, k, hread, hc⟩ := readCommand_of_fits hbuf hinput hblank hname hfew
      rw [hread, ← buildsInside_iff hc]
      simp
  · obtain ⟨c, hread⟩ := readCommand_of_long hbuf hinput hname
    rw [hread]
    simp [WordsFit, hname]

/-- The arrays are kept exactly when the words of the line fit. -/
theorem staysInside_iff (buffer : List Char) (r : Reader) :
    StaysInside buffer r ↔
      ∀ input, delivered buffer r = some input → WordsFit (words isSpace input) := by
  constructor
  · intro h input hinput
    exact (strings_iff hinput (h.argv input hinput)).mp h.strings
  · intro h
    have hargv (input : List Char) (hinput : delivered buffer r = some input) :
        (parseCommand input r.command).isSome := by
      rw [parseCommand_isSome]
      exact (h input hinput).imp_right And.left
    refine ⟨hargv, fun r' hread => ?_⟩
    cases hinput : delivered buffer r with
    | none =>
      rw [delivered] at hinput
      rw [readCommand_eq Prod.mk.eta.symm, hinput] at hread
      cases hread
    | some input => exact (strings_iff hinput (hargv input hinput)).mpr (h input hinput) r' hread

/-- A line of 63 letters is within the length of a line, and one word too many for `argv`. -/
theorem staysInside_fails : ¬ ∀ buffer r, StaysInside buffer r := by
  intro h
  let line : List Char := [' '].intercalate (List.replicate 63 ['a'])
  let r : Reader := ⟨line ++ ['\n'], ⟨none, 0, fun _ => none, false, none⟩, [], []⟩
  have hwords : words isSpace line = List.replicate 63 ['a'] := by
    apply words_intercalate (by simp) (List.forall_mem_singleton.mpr (by decide))
    intro w hw
    rw [List.eq_of_mem_replicate hw]
    simp [IsWord, isSpace, WHITESPACE]
  have hletters (c : Char) (hc : c ∈ line) : c = ' ' ∨ c = 'a' := by
    rcases mem_intercalate hc with hc | ⟨w, hw, hc⟩
    · exact .inl (List.mem_singleton.mp hc)
    · rw [List.eq_of_mem_replicate hw] at hc
      exact .inr (List.mem_singleton.mp hc)
  have hnewline : '\n' ∉ line := fun hc => absurd (hletters _ hc) (by decide)
  have hnul : NUL ∉ line := fun hc => absurd (hletters _ hc) (by decide)
  have hline : BeginsWith line [] r.stdin := ⟨hnewline, .inl rfl⟩
  have hlen : line.length ≤ 1022 := by decide +kernel
  obtain ⟨input, s, hbuf, hs, hsame⟩ := hline.fgets hlen hnul []
  have hinput : delivered [] r = some s := by rw [delivered, hbuf, hs]
  have hsome := (h [] r).argv s hinput
  rw [parseCommand_isSome, hsame, hwords] at hsome
  exact absurd hsome (by decide)

end Line

end Eece315.ShellBuffers
