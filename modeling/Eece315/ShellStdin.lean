import Eece315.ShellDispatch

/-! The standard input of the mini shell, which it shares with its children. A child whose `execv`
has failed calls `exit`, and that moves the offset of a file back by the characters which the child
has in its copy of the buffer; the shell then reads them again. -/
namespace Eece315.ShellStdin
open ShellCommand ShellDispatch

/-- What is known of the standard input besides the characters that are left to read: the contents
of the file, if its offset can be moved; how many of the characters left are in the shell's buffer;
whether the end has been found; and, for each child that could not be executed and has not exited,
how many characters are in its copy of the buffer. -/
structure Stdin where
  file : Option (List Char)
  ahead : ℕ
  ended : Bool
  unread : List ℕ

/-- What happens to the standard input around an iteration: what the programs that run make of the
part that the shell has not buffered, which of the children that could not be executed exit before
the line is read, how much a `read` gets beyond the line, and whether `execv` succeeds. -/
structure Traffic where
  programs : List Char → List Char
  exits : List ℕ
  beyond : ℕ
  execv : Bool

namespace Stdin

/-- What is left to read after the `exit` of a child with `k` characters in its buffer. Nothing
changes if the offset cannot be moved, or not so far, or if the shell has found the end. -/
def giveBack (stdin : Stdin) (left : List Char) (k : ℕ) : List Char :=
  match stdin.file with
  | none => left
  | some content =>
    let offset := content.length + stdin.ahead - left.length
    if k = 0 ∨ offset < k ∨ stdin.ended then left
    else left.take stdin.ahead ++ content.drop (offset - k)

def exit (st : Stdin × List Char) (k : ℕ) : Stdin × List Char :=
  if k ∈ st.1.unread then
    ({ st.1 with unread := st.1.unread.erase k }, st.1.giveBack st.2 k)
  else st

/-- The standard input when the next line is read. -/
def settle (stdin : Stdin) (traffic : Traffic) (left : List Char) : Stdin × List Char :=
  let left := if stdin.ended then left
    else left.take stdin.ahead ++ traffic.programs (left.drop stdin.ahead)
  traffic.exits.foldl exit (stdin, left)

/-- `fgets` has taken a line, so that `rest` is left. It calls `read` if the line is not in the
buffer. -/
def read (stdin : Stdin) (traffic : Traffic) (left rest : List Char) : Stdin :=
  let length := left.length - rest.length
  { stdin with
    ahead := if length ≤ stdin.ahead then stdin.ahead - length
      else min traffic.beyond rest.length
    ended := stdin.ended ||
      (rest = [] && left.getLast? ≠ some '\n' && length < MAX_LINE_LENGTH - 1) }

/-- The child of a command has a copy of the buffer, which is gone if `execv` succeeds. -/
def fork (stdin : Stdin) (traffic : Traffic) (action : Action) : Stdin :=
  match action with
  | .start _ =>
    if traffic.execv then stdin else { stdin with unread := stdin.unread ++ [stdin.ahead] }
  | _ => stdin

/-- The children that could not be executed give nothing back. -/
def Settled (stdin : Stdin) : Prop := stdin.file = none ∨ ∀ k ∈ stdin.unread, k = 0

/-- Only the shell moves the stream before the next line is read: the programs leave alone what is
left, and the children give nothing back. -/
structure Quiet (stdin : Stdin) (traffic : Traffic) (left : List Char) : Prop where
  programs : stdin.ended = false →
    traffic.programs (left.drop stdin.ahead) = left.drop stdin.ahead
  settled : stdin.Settled

variable {stdin : Stdin} {traffic : Traffic} {left : List Char}

lemma giveBack_zero (stdin : Stdin) (left : List Char) : stdin.giveBack left 0 = left := by
  unfold giveBack
  split
  · rfl
  · rw [if_pos (.inl rfl)]

lemma Settled.exit (h : stdin.Settled) (left : List Char) (k : ℕ) :
    (exit (stdin, left) k).1.Settled ∧ (exit (stdin, left) k).2 = left := by
  rw [Stdin.exit]
  split_ifs with hk
  · rcases h with hfile | hzero
    · refine ⟨.inl hfile, ?_⟩
      simp [giveBack, hfile]
    · obtain rfl := hzero k hk
      exact ⟨.inr fun j hj => hzero j (List.mem_of_mem_erase hj), giveBack_zero stdin left⟩
  · exact ⟨h, rfl⟩

lemma Settled.exits (h : stdin.Settled) (left : List Char) (exits : List ℕ) :
    (exits.foldl Stdin.exit (stdin, left)).1.Settled ∧
      (exits.foldl Stdin.exit (stdin, left)).2 = left := by
  induction exits generalizing stdin with
  | nil => exact ⟨h, rfl⟩
  | cons k exits ih =>
    obtain ⟨hsettled, hleft⟩ := h.exit left k
    have hpair : Stdin.exit (stdin, left) k = ((Stdin.exit (stdin, left) k).1, left) :=
      Prod.ext rfl hleft
    rw [List.foldl_cons, hpair]
    exact ih hsettled

lemma Settled.settle (h : stdin.Settled) (traffic : Traffic) (left : List Char) :
    (stdin.settle traffic left).1.Settled := (h.exits _ traffic.exits).1

lemma Quiet.settle (h : stdin.Quiet traffic left) : (stdin.settle traffic left).2 = left := by
  rw [Stdin.settle, (h.settled.exits _ traffic.exits).2]
  split_ifs with hended
  · rfl
  · rw [h.programs (Bool.eq_false_of_not_eq_true hended), List.take_append_drop]

lemma Settled.fork (h : stdin.Settled) (hexecv : stdin.file = none ∨ traffic.execv = true)
    (action : Action) : (stdin.fork traffic action).Settled := by
  cases action with
  | start background =>
    rw [Stdin.fork]
    split_ifs with hsucceeds
    · exact h
    · exact .inl (hexecv.resolve_right hsucceeds)
  | _ => exact h

lemma exit_file (st : Stdin × List Char) (k : ℕ) : (exit st k).1.file = st.1.file := by
  rw [Stdin.exit]
  split_ifs <;> rfl

lemma settle_file (stdin : Stdin) (traffic : Traffic) (left : List Char) :
    (stdin.settle traffic left).1.file = stdin.file :=
  List.foldlRecOn traffic.exits Stdin.exit (motive := fun st => st.1.file = stdin.file) rfl
    fun st hst k _ => (exit_file st k).trans hst

lemma fork_file (stdin : Stdin) (traffic : Traffic) (action : Action) :
    (stdin.fork traffic action).file = stdin.file := by
  cases action with
  | start background =>
    rw [Stdin.fork]
    split_ifs <;> rfl
  | _ => rfl

end Stdin

end Eece315.ShellStdin
