import Mathlib
import Eece315.SocketsPrograms

/-! The receive buffers of the socket programs. Both print what they received with `%s` from a
buffer that `recv` does not end with a NUL, so that a line can go on with what an earlier and
longer piece, or the stack, left behind. -/
namespace Eece315.SocketsBuffers

open StepRuns CallPrograms SocketsPrograms

section Buffer

variable {buffer stack chunk : List Char} {chunks : List (List Char)} {n : ℕ}

lemma getElem?_recvInto (buffer chunk : List Char) (n : ℕ) :
    (recvInto buffer chunk)[n]? = if n < chunk.length then chunk[n]? else buffer[n]? := by
  unfold recvInto
  split_ifs with h
  · exact List.getElem?_append_left h
  · rw [List.getElem?_append_right (not_lt.mp h), List.getElem?_drop]
    congr 1
    omega

lemma getElem?_foldl_recvInto (chunks : List (List Char)) (stack : List Char) (n : ℕ) :
    (chunks.foldl recvInto stack)[n]? =
      match (chunks.filter (n < ·.length)).getLast? with
      | some chunk => chunk[n]?
      | none => stack[n]? := by
  induction chunks using List.reverseRecOn with
  | nil => rfl
  | append_singleton chunks chunk ih =>
    rw [List.foldl_append, List.foldl_cons, List.foldl_nil, getElem?_recvInto,
      List.filter_append]
    by_cases h : n < chunk.length
    · simp [h]
    · simp [h, ih]

lemma nul_foldl_iff (hchunks : ∀ chunk ∈ chunks, '\x00' ∉ chunk) :
    (chunks.foldl recvInto stack)[n]? = some '\x00' ↔
      stack[n]? = some '\x00' ∧ ∀ chunk ∈ chunks, chunk.length ≤ n := by
  rw [getElem?_foldl_recvInto]
  split
  · rename_i chunk hlast
    have hmem := List.mem_filter.mp (List.mem_of_getLast? hlast)
    have hlt : n < chunk.length := by simpa using hmem.2
    constructor
    · intro h
      exact absurd (List.mem_of_getElem? h) (hchunks chunk hmem.1)
    · intro h
      exact absurd (h.2 chunk hmem.1) (not_le.mpr hlt)
  · rename_i hlast
    have hnone : ∀ chunk ∈ chunks, chunk.length ≤ n := by
      simpa [List.filter_eq_nil_iff] using hlast
    exact ⟨fun h => ⟨h, hnone⟩, fun h => h.1⟩

lemma cString_recvInto_iff (hchunk : '\x00' ∉ chunk) :
    cString (recvInto buffer chunk) = some (String.ofList chunk) ↔
      buffer[chunk.length]? = some '\x00' := by
  have hnext : buffer[chunk.length]? = (buffer.drop chunk.length)[0]? := by simp
  have htake : (recvInto buffer chunk).takeWhile (· ≠ '\x00') =
      chunk ++ (buffer.drop chunk.length).takeWhile (· ≠ '\x00') := by
    apply List.takeWhile_append_of_pos
    intro c hc
    exact decide_eq_true fun h => hchunk (h ▸ hc)
  rw [hnext, cString, htake, recvInto]
  rcases buffer.drop chunk.length with _ | ⟨c, rest⟩
  · simp [hchunk]
  · by_cases hc : c = '\x00'
    · simp [hc]
    · simp [hc, hchunk]

end Buffer

def received : Answer → Option (List Char)
  | .data bytes => bytes
  | _ => none

def receive (buffer : List Char) (a : Answer) : List Char :=
  (received a).elim buffer (recvInto buffer)

lemma foldl_receive (answers : List Answer) (buffer : List Char) :
    answers.foldl receive buffer = (answers.filterMap received).foldl recvInto buffer := by
  induction answers generalizing buffer with
  | nil => rfl
  | cons a answers ih =>
    rw [List.foldl_cons, ih]
    cases h : received a <;> simp [receive, h]

lemma client_next_buffer {c c' : Client} {a : Answer} (h : c.next a = some c') :
    c'.recvBuffer = receive c.recvBuffer a := by
  unfold Client.next at h
  split at h <;> (try split_ifs at h) <;> cases h <;> rfl

lemma server_next_buffer {s s' : Server} {a : Answer} (h : s.next a = some s') :
    s'.recvBuffer = receive s.recvBuffer a := by
  unfold Server.next at h
  split at h <;> (try split_ifs at h) <;> cases h <;> rfl

lemma map_line_iff {label : String} {text : Option String} {piece : String} :
    text.map (fun text => s!"{label}{text}\n") = some s!"{label}{piece}\n" ↔
      text = some piece := by
  cases text <;> simp [toString]

section Lines

variable {W : Type*} {env : Environment W Call Answer} {w w' : W} {stack chunk : List Char}
  {answers : List Answer}

lemma client_line {c c' : Client} (hpc : c.pc = .recv) (hne : chunk ≠ [])
    (hnext : c.next (.data (some chunk)) = some c') :
    c'.printed = c.printed ++
      [(cString (recvInto c.recvBuffer chunk)).map fun text => s!"The server says: {text}\n"] := by
  obtain ⟨b, bytes, rfl⟩ := List.exists_cons_of_ne_nil hne
  simp only [Client.next, hpc, Option.some.injEq] at hnext
  rw [← hnext]

lemma server_line {s s' : Server} (hpc : s.pc = .recv) (hne : chunk ≠ [])
    (hnext : s.next (.data (some chunk)) = some s') :
    s'.printed = s.printed ++
      [(cString (recvInto s.recvBuffer chunk)).map fun text => s!"The client says: {text}\n"] := by
  obtain ⟨b, bytes, rfl⟩ := List.exists_cons_of_ne_nil hne
  simp only [Server.next, hpc, Option.some.injEq] at hnext
  rw [← hnext]

/-- In every run of either program, against any peer and network, a piece is printed as it was
received exactly if no earlier piece was longer and the stack has a NUL behind it. -/
theorem says_iff (argv0 : String) (args : List String) (beyond : ℕ → Char)
    (hall : ∀ bytes ∈ answers.filterMap received, '\x00' ∉ bytes) (hne : chunk ≠ [])
    (hchunk : '\x00' ∉ chunk) :
    (∀ c c' : Client,
      Client.program.run env (Client.main argv0 args stack) w answers = some (c, w') →
      c.pc = .recv → c.next (.data (some chunk)) = some c' →
      (c'.printed = c.printed ++ [some s!"The server says: {String.ofList chunk}\n"] ↔
        stack[chunk.length]? = some '\x00' ∧
          ∀ bytes ∈ answers.filterMap received, bytes.length ≤ chunk.length)) ∧
    ∀ s s' : Server,
      (Server.program beyond).run env (Server.main stack) w answers = some (s, w') →
      s.pc = .recv → s.next (.data (some chunk)) = some s' →
      (s'.printed = s.printed ++ [some s!"The client says: {String.ofList chunk}\n"] ↔
        stack[chunk.length]? = some '\x00' ∧
          ∀ bytes ∈ answers.filterMap received, bytes.length ≤ chunk.length) := by
  constructor
  · intro c c' hrun hpc hnext
    have hbuffer := Program.foldl_run Client.recvBuffer receive
      (fun _ _ _ => client_next_buffer) hrun
    have hmain : (Client.main argv0 args stack).recvBuffer = stack := by
      unfold Client.main
      split <;> rfl
    rw [client_line hpc hne hnext, List.append_cancel_left_eq, List.singleton_inj, map_line_iff,
      cString_recvInto_iff hchunk, hbuffer, hmain, foldl_receive, nul_foldl_iff hall]
  · intro s s' hrun hpc hnext
    have hbuffer := Program.foldl_run Server.recvBuffer receive
      (fun _ _ _ => server_next_buffer) hrun
    rw [server_line hpc hne hnext, List.append_cancel_left_eq, List.singleton_inj, map_line_iff,
      cString_recvInto_iff hchunk, hbuffer, foldl_receive]
    exact nul_foldl_iff hall

/-- The second piece is shorter than the first, and its line goes on with the first. -/
theorem says_iff_demo : ∃ (answers : List Answer) (s s' : Server),
    (Server.program fun _ => ' ').run (fun (_ : Unit) _ _ => some ())
      (Server.main (List.replicate BUFFERL '\x00')) () answers = some (s, ()) ∧
    s.next (.data (some ['O'])) = some s' ∧
      s'.printed ≠ s.printed ++ [some ("The client says: " ++ String.ofList ['O'] ++ "\n")] := by
  have hrun : ∃ s : Server, (Server.program fun _ => ' ').run (fun (_ : Unit) _ _ => some ())
      (Server.main (List.replicate BUFFERL '\x00')) ()
      [.code 0, .addresses 0 [1], .socket (some 3), .code 0, .code 0, .code 0, .socket (some 5),
        .data (some ['H', 'i', '!']), .code 3] = some (s, ()) ∧ s.pc = .recv := ⟨_, rfl, rfl⟩
  obtain ⟨s, hs, hpc⟩ := hrun
  obtain ⟨s', hs'⟩ : ∃ s', s.next (.data (some ['O'])) = some s' := by simp [Server.next, hpc]
  have hiff := (says_iff "" [] (fun _ => ' ') (by decide) (by decide) (by decide)).2 s s' hs hpc hs'
  refine ⟨_, s, s', hs, hs', fun hline => ?_⟩
  exact absurd ((hiff.mp hline).2 ['H', 'i', '!'] (by decide)) (by decide)

end Lines

end Eece315.SocketsBuffers
