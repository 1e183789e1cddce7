import Eece315.ShellBuffers

/-! Which commands the names stand for. A name is compared with a word only as far as the word
goes, so that a longer name which begins with the word is taken for it. The names that the shell
tells apart are no beginnings of each other: a line is dispatched by its exact name unless the
name is one of the longer ones. -/
namespace Eece315.ShellNames
open Words ShellCommand ShellGrammar ShellDispatch ShellBuffers

def PWD : List Char := ['p', 'w', 'd']
def CD : List Char := ['c', 'd']
def ECHO : List Char := ['e', 'c', 'h', 'o']
def EXIT : List Char := ['e', 'x', 'i', 't']
def QUIT : List Char := ['q', 'u', 'i', 't']

def known : List (List Char) := [PWD, CD, ECHO, EXIT, QUIT]

/-- What a command is taken for. -/
inductive Target where
  | pwd
  | cd (dir : Option (List Char))
  | echo (str : Option (List Char))
  | leave
  | lookup (name : List Char)
  deriving DecidableEq

/-- The comparisons of `isExternalCommand` and then of `main`. -/
def target (c : Command) : Option Target := do
  let name ← c.name
  if strncmpZero name PWD 3 then return .pwd
  else if strncmpZero name CD 2 then return .cd (← c.getArgv 1)
  else if strncmpZero name ECHO 4 then return .echo (← c.getArgv 1)
  else if strncmpZero name EXIT 4 ∨ strncmpZero name QUIT 4 then return .leave
  else return .lookup name

def perform (env : Environment) (background : Bool) : Target → Option Action
  | .pwd => some .external
  | .cd dir => (changeDirectory dir).map fun _ => .external
  | .echo str => (echoString str).map fun _ => .external
  | .leave => some .leave
  | .lookup name =>
    some (if strncmpZero (lookupPath env name) NOT_FOUND 12 then .notFound else .start background)

/-- A command is taken for what its name says, and any other name is looked up. -/
def ByName (c : Command) : Prop :=
  ∃ name, c.name = some name ∧
    (target c = some .pwd ↔ name = PWD) ∧
    ((∃ dir, target c = some (.cd dir)) ↔ name = CD) ∧
    ((∃ str, target c = some (.echo str)) ↔ name = ECHO) ∧
    (target c = some .leave ↔ name = EXIT ∨ name = QUIT) ∧
    (name ∉ known → target c = some (.lookup name))

/-- The name goes on behind a word that the shell knows. -/
def Extends (name : List Char) : Prop := ∃ word ∈ known, word <+: name ∧ name ≠ word

section Names

variable {c : Command} {name : List Char} {arg : Option (List Char)}

lemma strncmpZero_iff_prefix {s t : List Char} {n : ℕ} (hn : t.length = n) :
    strncmpZero s t n = true ↔ t <+: s := by
  rw [strncmpZero, decide_eq_true_eq, ← hn, List.take_length, List.prefix_iff_eq_take]
  exact eq_comm

lemma known_unique {v w : List Char} (hv : v ∈ known) (hw : w ∈ known) (hvn : v <+: name)
    (hwn : w <+: name) : v = w := by
  have hapart : ∀ v ∈ known, ∀ w ∈ known, v <+: w → v = w := by decide
  rcases List.prefix_or_prefix_of_prefix hvn hwn with h | h
  · exact hapart v hv w hw h
  · exact (hapart w hw v hv h).symm

lemma target_eq (hname : c.name = some name) (harg : c.getArgv 1 = some arg) :
    target c = some (if PWD <+: name then .pwd else if CD <+: name then .cd arg
      else if ECHO <+: name then .echo arg else if EXIT <+: name ∨ QUIT <+: name then .leave
      else .lookup name) := by
  have hpwd : strncmpZero name PWD 3 = true ↔ PWD <+: name := strncmpZero_iff_prefix rfl
  have hcd : strncmpZero name CD 2 = true ↔ CD <+: name := strncmpZero_iff_prefix rfl
  have hecho : strncmpZero name ECHO 4 = true ↔ ECHO <+: name := strncmpZero_iff_prefix rfl
  have hexit : strncmpZero name EXIT 4 = true ↔ EXIT <+: name := strncmpZero_iff_prefix rfl
  have hquit : strncmpZero name QUIT 4 = true ↔ QUIT <+: name := strncmpZero_iff_prefix rfl
  rw [target, hname, harg]
  simp only [Option.bind_eq_bind, Option.bind_some, hpwd, hcd, hecho, hexit, hquit]
  split_ifs <;> rfl

lemma target_iff (hname : c.name = some name) (harg : c.getArgv 1 = some arg) :
    (target c = some .pwd ↔ PWD <+: name) ∧
    ((∃ dir, target c = some (.cd dir)) ↔ CD <+: name) ∧
    ((∃ str, target c = some (.echo str)) ↔ ECHO <+: name) ∧
    (target c = some .leave ↔ EXIT <+: name ∨ QUIT <+: name) ∧
    ((∀ word ∈ known, ¬ word <+: name) → target c = some (.lookup name)) := by
  rw [target_eq hname harg]
  by_cases h : ∃ word ∈ known, word <+: name
  · obtain ⟨word, hword, hbegins⟩ := h
    have hothers (w : List Char) (hw : w ∈ known) (hne : w ≠ word) : ¬ w <+: name :=
      fun hwn => hne (known_unique hw hword hwn hbegins)
    have hpwd := hothers PWD (by decide)
    have hcd := hothers CD (by decide)
    have hecho := hothers ECHO (by decide)
    have hexit := hothers EXIT (by decide)
    have hquit := hothers QUIT (by decide)
    have hnone : ¬ ∀ w ∈ known, ¬ w <+: name := fun hall => hall word hword hbegins
    simp only [known, List.mem_cons, List.not_mem_nil, or_false] at hword
    rcases hword with rfl | rfl | rfl | rfl | rfl
    · simp [hbegins, hnone, hcd (by decide), hecho (by decide), hexit (by decide),
        hquit (by decide)]
    · simp [hbegins, hnone, hpwd (by decide), hecho (by decide), hexit (by decide),
        hquit (by decide)]
    · simp [hbegins, hnone, hpwd (by decide), hcd (by decide), hexit (by decide),
        hquit (by decide)]
    · simp [hbegins, hnone, hpwd (by decide), hcd (by decide), hecho (by decide)]
    · simp [hbegins, hnone, hpwd (by decide), hcd (by decide), hecho (by decide)]
  · have hall : ∀ w ∈ known, ¬ w <+: name := by simpa using h
    simp [hall PWD (by decide), hall CD (by decide), hall ECHO (by decide), hall EXIT (by decide),
      hall QUIT (by decide)]

lemma byName_iff_not_extends (hname : c.name = some name) (harg : c.getArgv 1 = some arg) :
    ByName c ↔ ¬ Extends name := by
  obtain ⟨hpwd, hcd, hecho, hleave, hlookup⟩ := target_iff hname harg
  constructor
  · rintro ⟨name', hname', hpwd', hcd', hecho', hleave', -⟩ ⟨word, hword, hbegins, hne⟩
    obtain rfl : name' = name := Option.some.inj (hname'.symm.trans hname)
    simp only [known, List.mem_cons, List.not_mem_nil, or_false] at hword
    rcases hword with rfl | rfl | rfl | rfl | rfl
    · exact hne (hpwd'.mp (hpwd.mpr hbegins))
    · exact hne (hcd'.mp (hcd.mpr hbegins))
    · exact hne (hecho'.mp (hecho.mpr hbegins))
    · rcases hleave'.mp (hleave.mpr (.inl hbegins)) with he | hq
      · exact hne he
      · rw [hq] at hbegins
        exact absurd hbegins (by decide)
    · rcases hleave'.mp (hleave.mpr (.inr hbegins)) with he | hq
      · rw [he] at hbegins
        exact absurd hbegins (by decide)
      · exact hne hq
  · intro h
    have hexact (word : List Char) (hword : word ∈ known) : word <+: name ↔ name = word := by
      constructor
      · intro hbegins
        by_contra hne
        exact h ⟨word, hword, hbegins, hne⟩
      · rintro rfl
        exact List.prefix_rfl
    refine ⟨name, hname, ?_, ?_, ?_, ?_, ?_⟩
    · rw [hpwd, hexact PWD (by decide)]
    · rw [hcd, hexact CD (by decide)]
    · rw [hecho, hexact ECHO (by decide)]
    · rw [hleave, hexact EXIT (by decide), hexact QUIT (by decide)]
    · intro hnot
      apply hlookup
      intro word hword hbegins
      rw [hexact word hword] at hbegins
      exact hnot (hbegins ▸ hword)

end Names

section Dispatch

variable {buffer : List Char} {r r' : Reader}

lemma readCommand_inv (hread : readCommand buffer r = some (1, r')) :
    ∃ input q name, delivered buffer r = some input ∧ (words isSpace input).head? = some name ∧
      Carries r'.command q ∧ name ∈ q.args.head? := by
  have hbuf : fgets MAX_LINE_LENGTH buffer r.stdin = _ := Prod.mk.eta.symm
  cases hinput : delivered buffer r with
  | none =>
    rw [delivered] at hinput
    rw [readCommand_eq hbuf, hinput] at hread
    cases hread
  | some input =>
    by_cases hname : NameFits (words isSpace input)
    · by_cases hblank : words isSpace input = []
      · rw [readCommand_of_blank hbuf hinput hblank] at hread
        cases hread
      · by_cases hfew : (words isSpace input).length + 1 < MAX_ARGS
        · obtain ⟨c, k, hread', hc⟩ := readCommand_of_fits hbuf hinput hblank hname hfew
          rw [hread'] at hread
          cases hread
          have hhead := List.head?_eq_some_head hblank
          exact ⟨input, _, _, rfl, hhead, hc, (request_head _).trans hhead⟩
        · rw [readCommand_of_many hbuf hinput hname hfew] at hread
          cases hread
    · obtain ⟨c, hread'⟩ := readCommand_of_long hbuf hinput hname
      rw [hread'] at hread
      cases hread

lemma iteration_target (env : Environment) (hread : readCommand buffer r = some (1, r')) :
    iteration env buffer r = (target r'.command).bind fun t =>
      (perform env r'.command.runsInBackground t).map fun action => (action, r') := by
  have hone : ¬ (1 : ℤ) = -1 := by decide
  have htwo : ¬ (1 : ℤ) = -2 := by decide
  rw [iteration, hread]
  simp only [Option.bind_eq_bind, Option.bind_some, if_neg hone, if_neg htwo]
  rw [isExternalCommand, target]
  cases hname : r'.command.name with
  | none => rfl
  | some name =>
    simp only [Option.bind_eq_bind, Option.bind_some, PWD, CD, ECHO, EXIT, QUIT]
    by_cases hpwd : strncmpZero name ['p', 'w', 'd'] 3 = true
    · simp [hpwd, perform]
    by_cases hcd : strncmpZero name ['c', 'd'] 2 = true
    · cases r'.command.getArgv 1 with
      | none => simp [hpwd, hcd]
      | some dir => cases hdir : changeDirectory dir <;> simp [hpwd, hcd, hdir, perform]
    by_cases hecho : strncmpZero name ['e', 'c', 'h', 'o'] 4 = true
    · cases r'.command.getArgv 1 with
      | none => simp [hpwd, hcd, hecho]
      | some str => cases hstr : echoString str <;> simp [hpwd, hcd, hecho, hstr, perform]
    by_cases hleave :
        strncmpZero name ['e', 'x', 'i', 't'] 4 ∨ strncmpZero name ['q', 'u', 'i', 't'] 4
    · simp [hpwd, hcd, hecho, hleave, perform]
    · by_cases hfound : strncmpZero (lookupPath env name) NOT_FOUND 12 = true
      · simp [hpwd, hcd, hecho, hleave, hfound, perform]
      · simp [hpwd, hcd, hecho, hleave, hfound, perform]

/-- The shell acts on the target of a line that it has read, and the target is the one that the
name says exactly when the first word of the line does not extend a known word. -/
theorem byName_iff (hread : readCommand buffer r = some (1, r')) :
    (∀ env, iteration env buffer r = (target r'.command).bind fun t =>
      (perform env r'.command.runsInBackground t).map fun action => (action, r')) ∧
    (ByName r'.command ↔ ∀ input name, delivered buffer r = some input →
      (words isSpace input).head? = some name → ¬ Extends name) := by
  obtain ⟨input, q, name, hinput, hhead, hc, hname⟩ := readCommand_inv hread
  have hcommand : r'.command.name = some name := by rw [hc.holds.name, hname]
  constructor
  · exact fun env => iteration_target env hread
  · rw [byName_iff_not_extends hcommand (getArgv_one hc hname)]
    constructor
    · intro h input' name' hinput' hhead'
      obtain rfl : input' = input := Option.some.inj (hinput'.symm.trans hinput)
      obtain rfl : name' = name := Option.some.inj (hhead'.symm.trans hhead)
      exact h
    · intro h
      exact h input name hinput hhead

lemma readCommand_word {w : List Char} (hw : IsWord isSpace w) (hlen : w.length ≤ MAX_PROG_LENGTH)
    (hnul : NUL ∉ w) (hr : r.stdin = w ++ ['\n']) :
    ∃ r' arg, readCommand [] r = some (1, r') ∧ r'.command.name = some w ∧
      r'.command.getArgv 1 = some arg ∧
      ∃ s, delivered [] r = some s ∧ (words isSpace s).head? = some w := by
  have hnewline : '\n' ∉ w := fun hc => absurd (hw.2 _ hc) (by decide)
  have hline : BeginsWith w [] r.stdin := ⟨hnewline, .inl hr⟩
  have hshort : w.length ≤ 1022 := hlen.trans (by decide)
  obtain ⟨input, s, hbuf, hs, hwords⟩ := hline.fgets hshort hnul []
  rw [words_eq_singleton hw] at hwords
  have hne : words isSpace s ≠ [] := by simp [hwords]
  have hfits : NameFits (words isSpace s) := by simpa [NameFits, hwords] using hlen
  have hfew : (words isSpace s).length + 1 < MAX_ARGS := by
    rw [hwords, List.length_singleton]
    decide
  obtain ⟨c, k, hread, hc⟩ := readCommand_of_fits hbuf hs hne hfits hfew
  have hhead : (request (words isSpace s)).args.head? = some w := by
    rw [request_head, hwords, List.head?_cons]
  refine ⟨_, _, hread, hc.holds.name.trans hhead, getArgv_one hc hhead, s, ?_, ?_⟩
  · rw [delivered, hbuf, hs]
  · rw [hwords, List.head?_cons]

/-- The line "ls" is dispatched by its name. -/
theorem byName_iff_demo :
    ∃ r', readCommand [] ⟨['l', 's', '\n'], ⟨none, 0, fun _ => none, false, none⟩, [], []⟩ =
      some (1, r') ∧ ByName r'.command := by
  obtain ⟨r', arg, hread, -, -, s, hinput, hhead⟩ := readCommand_word
    (r := ⟨['l', 's', '\n'], ⟨none, 0, fun _ => none, false, none⟩, [], []⟩)
    (w := ['l', 's']) ⟨by decide, by simp [isSpace, WHITESPACE]⟩ (by decide) (by decide) rfl
  refine ⟨r', hread, (byName_iff hread).2.mpr ?_⟩
  intro input name hinput' hhead'
  obtain rfl : input = s := Option.some.inj (hinput'.symm.trans hinput)
  obtain rfl : name = ['l', 's'] := Option.some.inj (hhead'.symm.trans hhead)
  rintro ⟨word, hword, hbegins, -⟩
  revert hbegins
  revert word
  decide

/-- The line "pwdx" runs the built-in command for "pwd". -/
theorem byName_fails :
    ¬ ∀ buffer r r', readCommand buffer r = some (1, r') → ByName r'.command := by
  intro h
  obtain ⟨r', arg, hread, hname, harg, -⟩ := readCommand_word
    (r := ⟨['p', 'w', 'd', 'x', '\n'], ⟨none, 0, fun _ => none, false, none⟩, [], []⟩)
    (w := ['p', 'w', 'd', 'x']) ⟨by decide, by simp [isSpace, WHITESPACE]⟩ (by decide)
    (by decide) rfl
  obtain ⟨name, hname', hpwd, -⟩ := h _ _ _ hread
  obtain rfl : name = ['p', 'w', 'd', 'x'] := Option.some.inj (hname'.symm.trans hname)
  have htarget := (target_iff hname harg).1.mpr (by decide)
  exact absurd (hpwd.mp htarget) (by decide)

end Dispatch

end Eece315.ShellNames
