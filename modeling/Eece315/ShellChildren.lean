import Eece315.ShellStream
import Eece315.StepRuns

/-! The mini shell and its children. For a command in the foreground the shell calls `wait`, which
takes any child that has terminated; this is the child of the command exactly when no other child
is left. -/
namespace Eece315.ShellChildren
open Words StepRuns ShellCommand ShellGrammar ShellDispatch ShellStream

/-- Where the shell is: at its prompt, in `wait` for a command whose child is given unless `fork`
has failed, or behind its loop. -/
inductive Phase where
  | prompt
  | waiting (child : Option ℕ)
  | left
  deriving DecidableEq

/-- The shell with its children: those that run, and those that have terminated and have not been
waited for. -/
structure State where
  reader : Reader
  phase : Phase
  running : List ℕ
  terminated : List ℕ

inductive Event where
  /-- An iteration of the loop up to `wait`; `fork` returns a new child or fails. -/
  | read (input : Input) (fork : Option ℕ)
  /-- A child terminates. -/
  | exit (child : ℕ)
  /-- `wait` returns a child, or reports that there is none. -/
  | wait (child : Option ℕ)

/-- The shell has forked for the command, and waits unless it runs in the background. -/
def forked (s : State) (background : Bool) (r : Reader) : Option ℕ → Option State
  | none => some { s with reader := r, phase := if background then .prompt else .waiting none }
  | some child =>
    if child ∈ s.running ∨ child ∈ s.terminated then none
    else some { s with
      reader := r
      phase := if background then .prompt else .waiting (some child)
      running := child :: s.running }

def step (s : State) : Event → Option State
  | .read input fork =>
    if s.phase = .prompt then do
      let (action, r) ← iteration input.env input.buffer s.reader
      match action with
      | .leave => some { s with reader := r, phase := .left }
      | .start background => forked s background r fork
      | _ => some { s with reader := r }
    else none
  | .exit child =>
    if child ∈ s.running then
      some { s with running := s.running.erase child, terminated := child :: s.terminated }
    else none
  | .wait result =>
    match s.phase, result with
    | .waiting _, some child =>
      if child ∈ s.terminated then
        some { s with phase := .prompt, terminated := s.terminated.erase child }
      else none
    | .waiting _, none =>
      if s.running = [] ∧ s.terminated = [] then some { s with phase := .prompt } else none
    | _, _ => none

def start (command : Command) (stdin : List Char) : State :=
  ⟨⟨stdin, command, [], []⟩, .prompt, [], []⟩

def run (command : Command) (stdin : List Char) (events : List Event) : Option State :=
  events.foldlM step (start command stdin)

/-- The shell starts a command in the foreground, with the given child. -/
def StartsForeground (s s' : State) (child : ℕ) : Prop :=
  s.phase = .prompt ∧ s'.phase = .waiting (some child)

/-- The loop returns to the prompt behind the command of the given child. -/
def Returns (s s' : State) (child : ℕ) : Prop :=
  s.phase = .waiting (some child) ∧ s'.phase = .prompt

/-- No child is left that has not been waited for. -/
def NoChildren (s : State) : Prop := s.running = [] ∧ s.terminated = []

/-- Whenever the loop returns to the prompt behind a command in the foreground, the child of the
command has terminated. -/
def Waited (command : Command) (stdin : List Char) (events : List Event) : Prop :=
  ∀ before e after, events = before ++ e :: after → ∀ s, run command stdin before = some s →
    ∀ s' child, step s e = some s' → Returns s s' child → child ∉ s'.running

/-- Whenever a command is started in the foreground, no other child is left. -/
def Alone (command : Command) (stdin : List Char) (events : List Event) : Prop :=
  ∀ before e after, events = before ++ e :: after → ∀ s, run command stdin before = some s →
    ∀ s' child, step s e = some s' → StartsForeground s s' child → NoChildren s

/-- Whichever children terminate before the loop returns to the prompt, the given one is among
them. -/
def WaitsFor (s : State) (child : ℕ) : Prop :=
  ∀ (children : List ℕ) s₁ e s₂, (children.map Event.exit).foldlM step s = some s₁ →
    step s₁ e = some s₂ → Returns s₁ s₂ child → child ∉ s₂.running

section Steps

variable {s s' : State} {e : Event} {child : ℕ}

lemma step_read {input : Input} {fork : Option ℕ} (h : step s (.read input fork) = some s') :
    s.phase = .prompt ∧ s'.terminated = s.terminated ∧
      ((s'.running = s.running ∧ ∀ child, s'.phase ≠ .waiting (some child)) ∨
      ∃ child, ∃ background : Bool, child ∉ s.running ∧ child ∉ s.terminated ∧
        s'.running = child :: s.running ∧
        s'.phase = if background then .prompt else .waiting (some child)) := by
  simp only [step] at h
  split_ifs at h with hprompt
  obtain ⟨⟨action, r⟩, -, h⟩ := Option.bind_eq_some_iff.mp h
  refine ⟨hprompt, ?_⟩
  cases action with
  | start background =>
    cases fork with
    | none =>
      obtain rfl := Option.some.inj h
      exact ⟨rfl, .inl ⟨rfl, fun child => by cases background <;> simp⟩⟩
    | some child =>
      change forked s background r (some child) = some s' at h
      by_cases hnew : child ∈ s.running ∨ child ∈ s.terminated
      · rw [forked, if_pos hnew] at h
        cases h
      rw [forked, if_neg hnew] at h
      rw [not_or] at hnew
      obtain rfl := Option.some.inj h
      exact ⟨rfl, .inr ⟨child, background, hnew.1, hnew.2, rfl, rfl⟩⟩
  | leave =>
    obtain rfl := Option.some.inj h
    exact ⟨rfl, .inl ⟨rfl, fun child => by simp⟩⟩
  | noCommand | nameTooLong | external | notFound =>
    obtain rfl := Option.some.inj h
    exact ⟨rfl, .inl ⟨rfl, fun child => by simp [hprompt]⟩⟩

lemma step_start {input : Input} {background : Bool} {r : Reader} (child : ℕ)
    (hprompt : s.phase = .prompt)
    (hr : iteration input.env input.buffer s.reader = some (.start background, r))
    (hrun : child ∉ s.running) (hterm : child ∉ s.terminated) :
    step s (.read input (some child)) = some { s with
      reader := r
      phase := if background then .prompt else .waiting (some child)
      running := child :: s.running } := by
  rw [step, if_pos hprompt, hr]
  change forked s background r (some child) = _
  rw [forked, if_neg (by rw [not_or]; exact ⟨hrun, hterm⟩)]

lemma step_exit (h : step s (.exit child) = some s') : child ∈ s.running ∧
    s' = { s with
      running := s.running.erase child
      terminated := child :: s.terminated } := by
  simp only [step] at h
  split_ifs at h with hrun
  exact ⟨hrun, (Option.some.inj h).symm⟩

lemma step_wait {result : Option ℕ} (h : step s (.wait result) = some s') :
    (∃ awaited, s.phase = .waiting awaited) ∧ s'.phase = .prompt ∧ s'.running = s.running ∧
      ((∃ child ∈ s.terminated, s'.terminated = s.terminated.erase child) ∨ NoChildren s) := by
  cases hphase : s.phase with
  | prompt => simp [step, hphase] at h
  | left => simp [step, hphase] at h
  | waiting awaited =>
    refine ⟨⟨awaited, rfl⟩, ?_⟩
    cases result with
    | none =>
      simp only [step, hphase] at h
      split_ifs at h with hnone
      obtain rfl := Option.some.inj h
      exact ⟨rfl, rfl, .inr hnone⟩
    | some child =>
      simp only [step, hphase] at h
      split_ifs at h with hterm
      obtain rfl := Option.some.inj h
      exact ⟨rfl, rfl, .inl ⟨child, hterm, rfl⟩⟩

lemma Returns.running_eq (h : Returns s s' child) (hs : step s e = some s') :
    s'.running = s.running ∧ (s.terminated ≠ [] ∨ s.running = []) := by
  cases e with
  | read input fork =>
    have hprompt := (step_read hs).1
    rw [h.1] at hprompt
    cases hprompt
  | exit c =>
    obtain ⟨-, rfl⟩ := step_exit hs
    cases h.1.symm.trans h.2
  | wait result =>
    obtain ⟨-, -, hrun, ⟨c, hc, -⟩ | hnone⟩ := step_wait hs
    · exact ⟨hrun, .inl (List.ne_nil_of_mem hc)⟩
    · exact ⟨hrun, .inr hnone.1⟩

lemma StartsForeground.children (h : StartsForeground s s' child) (hs : step s e = some s') :
    s'.running = child :: s.running ∧ s'.terminated = s.terminated ∧ child ∉ s.running := by
  cases e with
  | read input fork =>
    obtain ⟨-, hterm, ⟨-, hphase⟩ | ⟨c, background, hnew, -, hrun, hphase⟩⟩ := step_read hs
    · exact absurd h.2 (hphase child)
    · cases background with
      | true => cases h.2.symm.trans hphase
      | false =>
        obtain rfl : child = c := by simpa using h.2.symm.trans hphase
        exact ⟨hrun, hterm, hnew⟩
  | exit c =>
    obtain ⟨-, rfl⟩ := step_exit hs
    cases h.1.symm.trans h.2
  | wait result =>
    obtain ⟨⟨awaited, hphase⟩, -⟩ := step_wait hs
    cases h.1.symm.trans hphase

def Only (s : State) : Prop :=
  ∀ child, s.phase = .waiting (some child) → s.running ++ s.terminated = [child]

lemma Only.step (h : Only s) (hs : step s e = some s')
    (halone : ∀ s' child, step s e = some s' → StartsForeground s s' child → NoChildren s) :
    Only s' := by
  intro child hphase
  cases e with
  | read input fork =>
    have hprompt := (step_read hs).1
    obtain ⟨hrun, hterm, -⟩ := StartsForeground.children ⟨hprompt, hphase⟩ hs
    obtain ⟨hrun₀, hterm₀⟩ := halone s' child hs ⟨hprompt, hphase⟩
    rw [hrun, hterm, hrun₀, hterm₀]
    rfl
  | exit c =>
    obtain ⟨hmem, rfl⟩ := step_exit hs
    rcases List.append_eq_singleton_iff.mp (h child hphase) with ⟨hrun, -⟩ | ⟨hrun, hterm⟩
    · rw [hrun] at hmem
      cases hmem
    · rw [hrun, List.mem_singleton] at hmem
      rw [hrun, hterm, hmem]
      simp
  | wait result =>
    have hprompt := (step_wait hs).2.1
    rw [hphase] at hprompt
    cases hprompt

lemma Only.returns (h : Only s) (hs : ShellChildren.step s e = some s')
    (hret : Returns s s' child) : child ∉ s'.running := by
  obtain ⟨hrun, hterm⟩ := hret.running_eq hs
  rw [hrun]
  rcases List.append_eq_singleton_iff.mp (h child hret.1) with ⟨hnone, -⟩ | ⟨hone, hnone⟩
  · simp [hnone]
  · rw [hone] at hterm
    simp [hnone] at hterm

lemma Only.exits (h : Only s) {children : List ℕ}
    (hs : (children.map Event.exit).foldlM ShellChildren.step s = some s') : Only s' := by
  induction children generalizing s with
  | nil =>
    obtain rfl : s = s' := by simpa using hs
    exact h
  | cons c children ih =>
    rw [List.map_cons, List.foldlM_cons] at hs
    obtain ⟨s₁, hs₁, hs⟩ := Option.bind_eq_some_iff.mp hs
    apply ih (h.step hs₁ fun s₂ child hs₂ hstart => ?_) hs
    obtain ⟨-, rfl⟩ := step_exit hs₂
    cases hstart.1.symm.trans hstart.2

end Steps

section Runs

variable {command : Command} {stdin : List Char} {events : List Event} {s s' : State} {e : Event}
  {child : ℕ}

lemma waited_of_alone (h : Alone command stdin events) : Waited command stdin events := by
  rintro before e after rfl s hbefore s' child hs hret
  have halone : EveryStep step (start command stdin)
      (fun s e => ∀ s' child, step s e = some s' → StartsForeground s s' child → NoChildren s)
      (before ++ e :: after) := h
  have honly : Only s := EveryStep.induction (fun child hphase => by cases hphase)
    (fun _ _ _ ho ha hs => ho.step hs ha) halone.of_append hbefore
  exact honly.returns hs hret

lemma exists_returns (hstart : StartsForeground s s' child) (hs : step s e = some s')
    (hother : ¬ NoChildren s) : ¬ WaitsFor s' child := by
  obtain ⟨hrun, hterm, hnew⟩ := hstart.children hs
  intro hwaits
  by_cases hzombie : ∃ c, c ∈ s.terminated
  · -- another child has terminated already
    obtain ⟨c, hc⟩ := hzombie
    have hwait : step s' (.wait (some c)) =
        some { s' with phase := .prompt, terminated := s'.terminated.erase c } := by
      simp [step, hstart.2, hterm, hc]
    apply hwaits [] s' _ _ rfl hwait ⟨hstart.2, rfl⟩
    simp [hrun]
  · -- another child terminates before the one of the command
    have hnone : s.terminated = [] := List.eq_nil_iff_forall_not_mem.mpr fun c hc => hzombie ⟨c, hc⟩
    obtain ⟨c, hc⟩ := List.exists_mem_of_ne_nil _ fun h => hother ⟨h, hnone⟩
    have hne : child ≠ c := fun he => hnew (he ▸ hc)
    have hexit : step s' (.exit c) = some { s' with
        running := s'.running.erase c
        terminated := c :: s'.terminated } := by
      simp [step, hrun, hc]
    have hwait : step { s' with running := s'.running.erase c, terminated := c :: s'.terminated }
        (.wait (some c)) = some { s' with
          phase := .prompt
          running := s'.running.erase c
          terminated := s'.terminated } := by
      simp [step, hstart.2]
    apply hwaits [c] _ _ _ (by simpa using hexit) hwait ⟨hstart.2, rfl⟩
    simp [hrun, hne]

lemma waitsFor_of_noChildren (hstart : StartsForeground s s' child) (hs : step s e = some s')
    (hnone : NoChildren s) : WaitsFor s' child := by
  obtain ⟨hrun, hterm, -⟩ := hstart.children hs
  intro children s₁ e₁ s₂ hexits hs₁ hret
  have honly : Only s' := by
    intro c hphase
    obtain rfl : child = c := by simpa using hstart.2.symm.trans hphase
    rw [hrun, hterm, hnone.1, hnone.2]
    rfl
  exact (honly.exits hexits).returns hs₁ hret

end Runs

/-- An iteration in an environment where `ls` is found. -/
def lsInput : Input := ⟨[], [], fun _ => some [['l', 's']]⟩

lemma iteration_ls (rest : List Char) {r : Reader} (hr : r.stdin = 'l' :: 's' :: '\n' :: rest) :
    ∃ r', iteration lsInput.env lsInput.buffer r = some (.start false, r') ∧ r'.stdin = rest := by
  have hline : BeginsWith ['l', 's'] rest r.stdin := ⟨by decide, .inl hr⟩
  have hname : ['l', 's'] ∈ (words isSpace ['l', 's']).head? := rfl
  exact iteration_of_line _ _ hline (by decide) (by decide) rfl hname (by decide) (by decide)
    (by decide)

lemma iteration_ls_background (rest : List Char) {r : Reader}
    (hr : r.stdin = 'l' :: 's' :: ' ' :: '&' :: '\n' :: rest) :
    ∃ r', iteration lsInput.env lsInput.buffer r = some (.start true, r') ∧ r'.stdin = rest := by
  have hline : BeginsWith ['l', 's', ' ', '&'] rest r.stdin := ⟨by decide, .inl hr⟩
  have hname : ['l', 's'] ∈ (words isSpace ['l', 's', ' ', '&']).head? := rfl
  exact iteration_of_line _ _ hline (by decide) (by decide) rfl hname (by decide) (by decide)
    (by decide)

/-- In a run in which no other child is left whenever a command is started in the foreground, all
these commands are waited for; and a command that is started in the foreground next is waited for,
whichever children terminate, exactly when no other child is left. -/
theorem waited_iff (command : Command) (stdin : List Char) (events : List Event) :
    (Alone command stdin events → Waited command stdin events) ∧
    ∀ s e s' child, run command stdin events = some s → step s e = some s' →
      StartsForeground s s' child → (WaitsFor s' child ↔ NoChildren s) :=
  ⟨fun h => waited_of_alone h, fun _ _ _ _ _ hs hstart =>
    ⟨fun h => not_not.mp fun hother => exists_returns hstart hs hother h,
      waitsFor_of_noChildren hstart hs⟩⟩

/-- A session with the one command "ls". -/
theorem waited_iff_demo :
    Waited ⟨none, 0, fun _ => none, false, none⟩ ['l', 's', '\n']
      [.read lsInput (some 1), .exit 1, .wait (some 1)] ∧
    ∃ s', StartsForeground (start ⟨none, 0, fun _ => none, false, none⟩ ['l', 's', '\n']) s' 1 ∧
      WaitsFor s' 1 := by
  obtain ⟨r, hr, -⟩ := iteration_ls []
    (r := (start ⟨none, 0, fun _ => none, false, none⟩ ['l', 's', '\n']).reader) rfl
  have hstep : step (start ⟨none, 0, fun _ => none, false, none⟩ ['l', 's', '\n'])
      (.read lsInput (some 1)) = some ⟨r, .waiting (some 1), [1], []⟩ :=
    step_start 1 rfl hr (by simp [start]) (by simp [start])
  constructor
  · apply (waited_iff _ _ _).1
    intro before e after he s hs s' child hstep hstart
    cases before with
    | nil =>
      obtain rfl := Option.some.inj hs
      exact ⟨rfl, rfl⟩
    | cons e₀ before =>
      have hmem : e ∈ [Event.exit 1, .wait (some 1)] := by
        rw [(List.cons.inj he).2]
        simp
      rw [List.mem_cons, List.mem_singleton] at hmem
      rcases hmem with rfl | rfl
      · obtain ⟨-, rfl⟩ := step_exit hstep
        cases hstart.1.symm.trans hstart.2
      · obtain ⟨⟨awaited, hphase⟩, -⟩ := step_wait hstep
        cases hstart.1.symm.trans hphase
  · exact ⟨_, ⟨rfl, rfl⟩, ((waited_iff _ _ []).2 _ _ _ _ rfl hstep ⟨rfl, rfl⟩).mpr ⟨rfl, rfl⟩⟩

/-- "ls &" terminates while "ls" runs, and `wait` returns its child. -/
theorem waited_fails : ¬ ∀ command stdin events, Waited command stdin events := by
  intro h
  obtain ⟨r₁, hr₁, hrest⟩ := iteration_ls_background ['l', 's', '\n']
    (r := (start ⟨none, 0, fun _ => none, false, none⟩
      ['l', 's', ' ', '&', '\n', 'l', 's', '\n']).reader) rfl
  obtain ⟨r₂, hr₂, -⟩ := iteration_ls [] hrest
  have hrun : run ⟨none, 0, fun _ => none, false, none⟩
      ['l', 's', ' ', '&', '\n', 'l', 's', '\n']
      [.read lsInput (some 1), .read lsInput (some 2), .exit 1] =
        some ⟨r₂, .waiting (some 2), [2], [1]⟩ := by
    have h₁ := step_start 1 rfl hr₁ (by simp [start]) (by simp [start])
    have h₂ := step_start (s := ⟨r₁, .prompt, [1], []⟩) 2 rfl hr₂ (by simp) (by simp)
    simp only [if_true, start] at h₁
    simp only [Bool.false_eq_true, if_false] at h₂
    simp only [run, start, List.foldlM_cons, List.foldlM_nil, Option.bind_eq_bind, h₁, h₂,
      Option.bind_some]
    simp [step]
  have hwait : step ⟨r₂, .waiting (some 2), [2], [1]⟩ (.wait (some 1)) =
      some ⟨r₂, .prompt, [2], []⟩ := by
    simp [step]
  apply h _ _ _ _ _ [] rfl _ hrun _ 2 hwait ⟨rfl, rfl⟩
  simp

end Eece315.ShellChildren
