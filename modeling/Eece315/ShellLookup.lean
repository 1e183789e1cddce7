import Eece315.ShellDispatch

/-! Which file `lookupPath` names. The directories of `PATH` are searched in a copy of limited
length, and the path of the file is written to a buffer that is shorter still; the file is right
exactly when neither cuts it off. -/
namespace Eece315.ShellLookup
open Words ShellCommand ShellDispatch

/-- `PATH` and the current directory. -/
def searchList (env : Environment) : List Char := env.PATH ++ [':', '.']

/-- The first of the directories in `paths` that lists the name. -/
def firstListing (env : Environment) (prog paths : List Char) : Option (List Char) :=
  (words (· = ':') paths).find? fun path => checkFileInDir env path prog

def pathIn (path prog : List Char) : List Char := path ++ '/' :: prog

structure FindsFile (env : Environment) (prog : List Char) : Prop where
  found : ∀ path, firstListing env prog (searchList env) = some path →
    lookupPath env prog = pathIn path prog
  missing : lookupPath env prog = NOT_FOUND ↔ firstListing env prog (searchList env) = none

/-- The path in `path` just fills the buffer, and begins the one in the different directory
`other`. -/
def Overlays (prog other path : List Char) : Prop :=
  other ≠ path ∧ (pathIn path prog).length + 1 = MAX_LINE_LEN ∧
    pathIn path prog <+: pathIn other prog

/-- The part of the list that is searched has the same first directory with the name as the whole
list, and its path has room; or by chance the path in another directory is cut off to the right
one. -/
def LookupFits (env : Environment) (prog : List Char) : Prop :=
  let kept := firstListing env prog ((searchList env).take (MAX_PATH_LEN - 1))
  let whole := firstListing env prog (searchList env)
  (kept = whole ∧ ∀ path, path ∈ whole → (pathIn path prog).length < MAX_LINE_LEN) ∨
    ∃ other path, other ∈ kept ∧ path ∈ whole ∧ Overlays prog other path

section Buffers

variable {prog path other : List Char}

lemma snprintf_ne_notFound (path prog : List Char) :
    snprintf MAX_LINE_LEN (pathIn path prog) ≠ NOT_FOUND := by
  rcases Nat.lt_or_ge path.length (MAX_LINE_LEN - 1) with hlt | hge
  · intro h
    have hslash : '/' ∈ snprintf MAX_LINE_LEN (pathIn path prog) := by
      rw [snprintf, List.mem_take_iff_getElem]
      refine ⟨path.length, ?_, by simp [pathIn]⟩
      rw [pathIn, List.length_append, List.length_cons]
      omega
    rw [h] at hslash
    exact absurd hslash (by decide)
  · intro h
    have hlen := congrArg List.length h
    rw [snprintf, List.length_take, pathIn, List.length_append, List.length_cons, NOT_FOUND,
      MAX_LINE_LEN] at hlen
    rw [MAX_LINE_LEN] at hge
    simp only [List.length_cons, List.length_nil] at hlen
    omega

lemma snprintf_eq_iff : snprintf MAX_LINE_LEN (pathIn other prog) = pathIn path prog ↔
    (other = path ∧ (pathIn path prog).length < MAX_LINE_LEN) ∨ Overlays prog other path := by
  rw [snprintf, Overlays]
  have hmax : MAX_LINE_LEN - 1 + 1 = MAX_LINE_LEN := rfl
  constructor
  · intro h
    rcases Nat.lt_or_ge (pathIn other prog).length MAX_LINE_LEN with hlt | hge
    · left
      rw [List.take_of_length_le (by omega)] at h
      have hsame : other = path := List.append_cancel_right h
      exact ⟨hsame, hsame ▸ hlt⟩
    · right
      have hlen := congrArg List.length h
      rw [List.length_take] at hlen
      refine ⟨?_, by omega, h ▸ List.take_prefix _ _⟩
      rintro rfl
      omega
  · rintro (⟨rfl, hlt⟩ | ⟨-, hlen, hprefix⟩)
    · exact List.take_of_length_le (by omega)
    · have hsize : MAX_LINE_LEN - 1 = (pathIn path prog).length := by omega
      rw [hsize]
      exact (List.prefix_iff_eq_take.mp hprefix).symm

end Buffers

lemma lookupPath_eq (env : Environment) (prog : List Char) :
    lookupPath env prog =
      match firstListing env prog ((searchList env).take (MAX_PATH_LEN - 1)) with
      | some path => snprintf MAX_LINE_LEN (pathIn path prog)
      | none => NOT_FOUND := rfl

section Lookup

variable {env : Environment} {prog : List Char}

lemma findsFile_of_some {path : List Char}
    (hwhole : firstListing env prog (searchList env) = some path) :
    FindsFile env prog ↔ lookupPath env prog = pathIn path prog := by
  have hslash : pathIn path prog ≠ NOT_FOUND := by
    intro h
    have hmem : '/' ∈ pathIn path prog := by simp [pathIn]
    rw [h] at hmem
    exact absurd hmem (by decide)
  constructor
  · intro h
    exact h.found path hwhole
  · intro h
    refine ⟨fun other hother => ?_, iff_of_false (h ▸ hslash) (by simp [hwhole])⟩
    obtain rfl := Option.some.inj (hwhole.symm.trans hother)
    exact h

lemma findsFile_of_none (hwhole : firstListing env prog (searchList env) = none) :
    FindsFile env prog ↔ lookupPath env prog = NOT_FOUND := by
  constructor
  · intro h
    exact h.missing.mpr hwhole
  · intro h
    exact ⟨by simp [hwhole], iff_of_true h hwhole⟩

/-- A list of a moderate length with directories of moderate names is searched in full. -/
theorem findsFile_of_short (hlen : env.PATH.length + 2 < MAX_PATH_LEN)
    (hdir : ∀ path ∈ words (· = ':') (searchList env),
      (pathIn path prog).length < MAX_LINE_LEN) : FindsFile env prog := by
  have hall : (searchList env).take (MAX_PATH_LEN - 1) = searchList env := by
    apply List.take_of_length_le
    rw [searchList, List.length_append, List.length_cons, List.length_cons, List.length_nil]
    omega
  have hlookup := lookupPath_eq env prog
  rw [hall] at hlookup
  cases hwhole : firstListing env prog (searchList env) with
  | none =>
    rw [hwhole] at hlookup
    exact (findsFile_of_none hwhole).mpr hlookup
  | some path =>
    rw [hwhole] at hlookup
    have hfits := hdir path (List.mem_of_find?_eq_some hwhole)
    exact (findsFile_of_some hwhole).mpr (hlookup.trans (snprintf_eq_iff.mpr (.inl ⟨rfl, hfits⟩)))

/-- The lookup finds the right file exactly when the search list and the path fit. -/
theorem findsFile_iff (env : Environment) (prog : List Char) :
    FindsFile env prog ↔ LookupFits env prog := by
  have hlookup := lookupPath_eq env prog
  rw [LookupFits]
  cases hkept : firstListing env prog ((searchList env).take (MAX_PATH_LEN - 1)) with
  | none =>
    have hresult : lookupPath env prog = NOT_FOUND := by rw [hlookup, hkept]
    cases hwhole : firstListing env prog (searchList env) with
    | none => simp [findsFile_of_none hwhole, hresult]
    | some path =>
      have hmissed : ¬ FindsFile env prog := by
        intro h
        exact absurd (h.missing.mp hresult) (by simp [hwhole])
      simpa using hmissed
  | some other =>
    have hresult : lookupPath env prog = snprintf MAX_LINE_LEN (pathIn other prog) := by
      rw [hlookup, hkept]
    cases hwhole : firstListing env prog (searchList env) with
    | none =>
      rw [findsFile_of_none hwhole, hresult]
      simpa using snprintf_ne_notFound other prog
    | some path =>
      rw [findsFile_of_some hwhole, hresult, snprintf_eq_iff]
      simp

/-- The path of a program in a directory with a name of 79 characters is that of the directory. -/
theorem findsFile_fails : ¬ ∀ (env : Environment) (prog : List Char), prog.length ≤ 16 →
    FindsFile env prog := by
  intro h
  let env : Environment := ⟨List.replicate 79 'a', fun _ => some [['l', 's']]⟩
  have hwhole : firstListing env ['l', 's'] (searchList env) = some (List.replicate 79 'a') := by
    decide
  have hfound := (h env ['l', 's'] (by decide)).found _ hwhole
  have hlen := congrArg List.length hfound
  exact absurd hlen (by decide)

end Lookup

end Eece315.ShellLookup
