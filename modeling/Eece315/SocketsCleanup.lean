import Mathlib
import Eece315.SocketsPrograms

/-! What the socket programs hold of Winsock: each start of it, address list and socket. Whatever
Winsock answers, the client gives all of it back, each thing once, and uses nothing that it does
not hold. The server leaves the socket it listens on to the last `WSACleanup`, and after a refused
`accept` it works on with no socket. -/
namespace Eece315.SocketsCleanup

open CallPrograms SocketsPrograms

/-- What a program holds, the sockets that it left to the last `WSACleanup`, those it listens on,
and whether it used something that it did not hold and `accept` refused it a socket. -/
structure Ledger where
  started : ℕ
  /-- A start has just failed, so that its error code can be asked for. -/
  startFailed : Bool
  addresses : Option (List ℕ)
  sockets : List ℕ
  abandoned : List ℕ
  listening : List ℕ
  misused : Bool
  refused : Bool
  deriving DecidableEq, Repr

namespace Ledger

def empty : Ledger := ⟨0, false, none, [], [], [], false, false⟩

variable (l : Ledger)

def Holds (sock : Option ℕ) : Prop := ∃ h ∈ sock, h ∈ l.sockets

instance (sock : Option ℕ) : Decidable (l.Holds sock) :=
  inferInstanceAs (Decidable (∃ h ∈ sock, h ∈ l.sockets))

/-- Winsock has to be started for every call but its start and the `WSAGetLastError` after a start
that has failed. -/
def enter (call : Call) : Ledger :=
  match call with
  | .wsaStartup => l
  | .wsaGetLastError => { l with misused := l.misused || (l.started == 0 && !l.startFailed) }
  | _ => { l with misused := l.misused || l.started == 0 }

/-- The last `WSACleanup` deallocates the sockets that are still open. -/
def cleanup : Ledger :=
  if 1 < l.started then { l with started := l.started - 1 }
  else { l with started := 0, sockets := [], abandoned := l.sockets ++ l.abandoned }

/-- The call reads an address of the list. -/
def read (address : ℕ) : Ledger :=
  { l with misused := l.misused || !(l.addresses.any (address ∈ ·)) }

/-- The call works on a socket, and fails on what is none. -/
def use (sock : Option ℕ) (fails : Bool) : Option Ledger :=
  if l.Holds sock then some l
  else if fails then some { l with misused := true }
  else none

/-- The call hands out a socket that is not in use. -/
def give (sock : Option ℕ) : Option Ledger :=
  match sock with
  | none => some l
  | some h => if h ∈ l.sockets then none else some { l with sockets := h :: l.sockets }

end Ledger

/-- A call that returns 0 or `SOCKET_ERROR`. -/
def Binary (errco : ℤ) : Prop := errco = 0 ∨ errco = SOCKET_ERROR

instance (errco : ℤ) : Decidable (Binary errco) :=
  inferInstanceAs (Decidable (errco = 0 ∨ errco = SOCKET_ERROR))

/-- The answers that Winsock is documented to give, and what they hand out. While it is started,
the error code after a failed call is positive. -/
def answers (l : Ledger) : Call → Answer → Option Ledger
  | .wsaStartup, .code errco =>
    some (if errco = 0 then { l with started := l.started + 1, startFailed := false }
      else { l with startFailed := true })
  | .wsaGetLastError, .code errco =>
    if 0 < l.started → 0 < errco then some { l with startFailed := false } else none
  | .wsaCleanup, .code _ => some l.cleanup
  | .getaddrinfo _ _, .addresses errco result =>
    if errco ≠ 0 then some l
    else if result = [] then none
    else some { l with addresses := some result, misused := l.misused || l.addresses.isSome }
  | .freeaddrinfo, .code _ =>
    some { l with addresses := none, misused := l.misused || l.addresses.isNone }
  | .socket address, .socket sock => (l.read address).give sock
  | .bind sock address, .code errco =>
    if Binary errco then (l.read address).use sock (errco = SOCKET_ERROR) else none
  | .listen sock, .code errco =>
    if Binary errco then
      (l.use sock (errco = SOCKET_ERROR)).map fun l =>
        if errco = 0 then { l with listening := sock.toList ++ l.listening } else l
    else none
  | .accept sock, .socket csock => do
    let l ← l.use sock csock.isNone
    let l ← l.give csock
    pure { l with refused := l.refused || csock.isNone }
  | .connect sock address, .code errco =>
    if Binary errco then (l.read address).use sock (errco = SOCKET_ERROR) else none
  | .send sock bytes, .code errco =>
    if errco = SOCKET_ERROR ∨ 0 ≤ errco ∧ errco ≤ bytes.length then
      l.use sock (errco = SOCKET_ERROR)
    else none
  | .recv sock length, .data received =>
    if ∀ bytes ∈ received, bytes.length ≤ length then l.use sock received.isNone else none
  | .shutdown sock, .code errco =>
    if Binary errco then l.use sock (errco = SOCKET_ERROR) else none
  | .closesocket sock, .code errco =>
    if l.Holds sock then some { l with sockets := l.sockets.filter (some · ≠ sock) }
    else if errco = SOCKET_ERROR then some { l with misused := true }
    else none
  | _, _ => none

def winsock (l : Ledger) (call : Call) (a : Answer) : Option Ledger := answers (l.enter call) call a

/-- What the client holds at each of its calls. -/
def ClientHolds (c : Client) (l : Ledger) : Prop :=
  match c.pc with
  | .startup | .returned _ => l = .empty
  | .startupError => l = { Ledger.empty with startFailed := true }
  | .resolve | .resolveCleanup | .socketCleanup | .notConnected | .cleanup =>
    l = { Ledger.empty with started := 1 }
  | .socket | .socketError | .socketFree => ∃ result, c.ptr <:+ result ∧ c.ptr ≠ [] ∧
      l = { Ledger.empty with started := 1, addresses := some result }
  | .connect | .connectClose => ∃ result h, c.ptr <:+ result ∧ c.ptr ≠ [] ∧ c.sock = some h ∧
      l = { Ledger.empty with started := 1, addresses := some result, sockets := [h] }
  | .free => ∃ result,
      l = { Ledger.empty with started := 1, addresses := some result, sockets := c.sock.toList }
  | .send | .shutdown | .recv | .recvError | .close | .failed .error _ _ => ∃ h,
      c.sock = some h ∧ l = { Ledger.empty with started := 1, sockets := [h] }
  | .failed .close _ _ => 0 < c.errco ∧ ∃ h,
      c.sock = some h ∧ l = { Ledger.empty with started := 1, sockets := [h] }
  | .failed .clean _ _ => 0 < c.errco ∧ l = { Ledger.empty with started := 1 }

variable {l l' : Ledger} {sock : Option ℕ} {fails : Bool} {address : ℕ} {a : Answer}

namespace Ledger

lemma enter_of_started (h : 0 < l.started) (call : Call) : l.enter call = l := by
  have hzero : (l.started == 0) = false := by simpa using h.ne'
  cases call <;> simp only [enter, hzero, Bool.false_and, Bool.or_false]

lemma holds_some {s : ℕ} : l.Holds (some s) ↔ s ∈ l.sockets := by
  simp [Holds]

lemma not_holds_none : ¬ l.Holds none := by
  simp [Holds]

lemma use_of_holds (h : l.Holds sock) : l.use sock fails = some l := if_pos h

lemma read_of_mem {result : List ℕ} (hl : l.addresses = some result) (h : address ∈ result) :
    l.read address = l := by
  have hany : l.addresses.any (address ∈ ·) = true := by simp [hl, h]
  simp only [read, hany, Bool.not_true, Bool.or_false]

lemma give_eq_some (h : l.give sock = some l') :
    (sock = none ∧ l' = l) ∨
      ∃ s, sock = some s ∧ s ∉ l.sockets ∧ l' = { l with sockets := s :: l.sockets } := by
  cases sock with
  | none => exact .inl ⟨rfl, (Option.some.inj h).symm⟩
  | some s =>
    simp only [give] at h
    split_ifs at h with hs
    exact .inr ⟨s, rfl, hs, (Option.some.inj h).symm⟩

end Ledger

section Calls

lemma answers_cleanup (h : answers l .wsaCleanup a = some l') : l' = l.cleanup := by
  cases a <;> cases h
  rfl

lemma answers_free (h : answers l .freeaddrinfo a = some l') :
    l' = { l with addresses := none, misused := l.misused || l.addresses.isNone } := by
  cases a <;> cases h
  rfl

lemma answers_lastError (hl : 0 < l.started) (hstart : l.startFailed = false)
    (h : answers l .wsaGetLastError a = some l') : l' = l ∧ ∀ errco, a = .code errco → 0 < errco := by
  cases a with
  | code errco =>
    simp only [answers] at h
    split_ifs at h with hpos
    obtain rfl := Option.some.inj h
    exact ⟨by rw [← hstart], fun e he => Answer.code.inj he ▸ hpos hl⟩
  | _ => cases h

lemma answers_getaddrinfo {name : Option String} {port : String} {errco : ℤ} {result : List ℕ}
    (h : answers l (.getaddrinfo name port) (.addresses errco result) = some l') :
    (errco ≠ 0 ∧ l' = l) ∨ (errco = 0 ∧ result ≠ [] ∧
      l' = { l with addresses := some result, misused := l.misused || l.addresses.isSome }) := by
  simp only [answers] at h
  split_ifs at h with herr hne
  · exact .inl ⟨herr, (Option.some.inj h).symm⟩
  · exact .inr ⟨not_not.mp herr, hne, (Option.some.inj h).symm⟩

variable {bytes : List Char} {length : ℕ}

lemma answers_send (hl : l.Holds sock) (h : answers l (.send sock bytes) a = some l') :
    l' = l := by
  cases a with
  | code errco =>
    simp only [answers, Ledger.use_of_holds hl] at h
    split_ifs at h
    exact (Option.some.inj h).symm
  | _ => cases h

lemma answers_shutdown (hl : l.Holds sock) (h : answers l (.shutdown sock) a = some l') :
    l' = l := by
  cases a with
  | code errco =>
    simp only [answers, Ledger.use_of_holds hl] at h
    split_ifs at h
    exact (Option.some.inj h).symm
  | _ => cases h

lemma answers_recv (hl : l.Holds sock) (h : answers l (.recv sock length) a = some l') :
    l' = l := by
  cases a with
  | data received =>
    simp only [answers, Ledger.use_of_holds hl] at h
    split_ifs at h
    exact (Option.some.inj h).symm
  | _ => cases h

lemma answers_connect {result : List ℕ} (hl : l.Holds sock) (hresult : l.addresses = some result)
    (hmem : address ∈ result) (h : answers l (.connect sock address) a = some l') : l' = l := by
  cases a with
  | code errco =>
    simp only [answers, Ledger.read_of_mem hresult hmem, Ledger.use_of_holds hl] at h
    split_ifs at h
    exact (Option.some.inj h).symm
  | _ => cases h

lemma answers_bind {result : List ℕ} (hl : l.Holds sock) (hresult : l.addresses = some result)
    (hmem : address ∈ result) (h : answers l (.bind sock address) a = some l') :
    l' = l ∧ ∀ errco, a = .code errco → Binary errco := by
  cases a with
  | code errco =>
    simp only [answers, Ledger.read_of_mem hresult hmem, Ledger.use_of_holds hl] at h
    split_ifs at h with hb
    exact ⟨(Option.some.inj h).symm, fun e he => Answer.code.inj he ▸ hb⟩
  | _ => cases h

lemma answers_close (hl : l.Holds sock) (h : answers l (.closesocket sock) a = some l') :
    l' = { l with sockets := l.sockets.filter (some · ≠ sock) } := by
  cases a with
  | code errco =>
    simp only [answers, if_pos hl] at h
    exact (Option.some.inj h).symm
  | _ => cases h

end Calls

lemma headD_mem_of_suffix {ptr result : List ℕ} (h : ptr <:+ result) (hne : ptr ≠ []) :
    ptr.headD 0 ∈ result := by
  obtain ⟨p, ps, rfl⟩ := List.exists_cons_of_ne_nil hne
  exact h.subset List.mem_cons_self

section Client

variable {c c' : Client} {call : Call}

lemma clientHolds_tryNext {result : List ℕ} (hptr : c.ptr <:+ result) (hsock : c.sock = none) :
    ClientHolds c.tryNext { Ledger.empty with started := 1, addresses := some result } := by
  by_cases hne : c.ptr = []
  · simp only [ClientHolds, Client.tryNext, if_pos hne, hsock]
    exact ⟨result, rfl⟩
  · simp only [ClientHolds, Client.tryNext, if_neg hne]
    exact ⟨result, hptr, hne, rfl⟩

lemma ClientHolds.enter (h : ClientHolds c l) (hcall : c.call = some call) :
    l.enter call = l := by
  obtain ⟨pc, server, port, errco, ptr, sock, recvBuffer, printed⟩ := c
  cases pc with
  | startup =>
    cases hcall
    rfl
  | startupError =>
    cases hcall
    obtain rfl := h
    rfl
  | returned errco => cases hcall
  | failed stage errmsg back =>
    apply Ledger.enter_of_started
    cases stage <;> simp only [ClientHolds] at h <;> grind
  | _ =>
    apply Ledger.enter_of_started
    simp only [ClientHolds] at h
    grind

theorem clientHolds_next (h : ClientHolds c l) (hcall : c.call = some call)
    (henv : winsock l call a = some l') (hnext : c.next a = some c') : ClientHolds c' l' := by
  rw [winsock, h.enter hcall] at henv
  obtain ⟨pc, server, port, errco, ptr, sock, recvBuffer, printed⟩ := c
  cases pc
  case startup =>
    obtain rfl : l = .empty := h
    cases hcall
    cases a <;> simp only [Client.next, reduceCtorEq] at hnext
    cases henv
    cases hnext
    split_ifs <;> rfl
  case startupError =>
    obtain rfl : l = { Ledger.empty with startFailed := true } := h
    cases hcall
    cases a <;> cases hnext
    cases henv
    rfl
  case resolve =>
    obtain rfl : l = { Ledger.empty with started := 1 } := h
    cases hcall
    cases a <;> simp only [Client.next, reduceCtorEq] at hnext
    rcases answers_getaddrinfo henv with ⟨herr, rfl⟩ | ⟨rfl, hne, rfl⟩
    · rw [if_neg herr] at hnext
      cases hnext
      rfl
    · rw [if_pos rfl] at hnext
      cases hnext
      simp only [ClientHolds, Client.tryNext, if_neg hne]
      exact ⟨_, List.suffix_rfl, hne, rfl⟩
  case resolveCleanup | socketCleanup | notConnected | cleanup =>
    obtain rfl : l = { Ledger.empty with started := 1 } := h
    cases hcall
    obtain rfl := answers_cleanup henv
    cases a <;> cases hnext
    rfl
  case socket =>
    obtain ⟨result, hptr, hne, rfl⟩ := h
    cases hcall
    cases a <;> simp only [Client.next, reduceCtorEq] at hnext
    cases hnext
    simp only [answers] at henv
    rw [Ledger.read_of_mem rfl (headD_mem_of_suffix hptr hne)] at henv
    rcases Ledger.give_eq_some henv with ⟨rfl, rfl⟩ | ⟨s, rfl, -, rfl⟩
    · exact ⟨result, hptr, hne, rfl⟩
    · exact ⟨result, s, hptr, hne, rfl, rfl⟩
  case socketError =>
    obtain ⟨result, hptr, hne, rfl⟩ := h
    cases hcall
    obtain ⟨rfl, -⟩ := answers_lastError Nat.one_pos rfl henv
    cases a <;> cases hnext
    exact ⟨result, hptr, hne, rfl⟩
  case socketFree =>
    obtain ⟨result, hptr, hne, rfl⟩ := h
    cases hcall
    obtain rfl := answers_free henv
    cases a <;> cases hnext
    rfl
  case connect =>
    obtain ⟨result, s, hptr, hne, hsock, rfl⟩ := h
    obtain rfl : sock = some s := hsock
    cases hcall
    obtain rfl := answers_connect (Ledger.holds_some.mpr List.mem_cons_self) rfl
      (headD_mem_of_suffix hptr hne) henv
    cases a <;> cases hnext
    split_ifs
    · exact ⟨result, s, hptr, hne, rfl, rfl⟩
    · exact ⟨result, rfl⟩
  case connectClose =>
    obtain ⟨result, s, hptr, hne, hsock, rfl⟩ := h
    obtain rfl : sock = some s := hsock
    cases hcall
    obtain rfl := answers_close (Ledger.holds_some.mpr List.mem_cons_self) henv
    cases a <;> cases hnext
    have hclosed : [s].filter (fun t => some t ≠ some s) = [] := by simp
    simp only [hclosed]
    exact clientHolds_tryNext ((List.tail_suffix ptr).trans hptr) rfl
  case free =>
    obtain ⟨result, rfl⟩ := h
    cases hcall
    obtain rfl := answers_free henv
    cases a <;> simp only [Client.next, reduceCtorEq] at hnext
    rcases sock with _ | s
    · cases hnext
      rfl
    · cases hnext
      exact ⟨s, rfl, rfl⟩
  case send =>
    obtain ⟨s, hsock, rfl⟩ := h
    obtain rfl : sock = some s := hsock
    cases hcall
    obtain rfl := answers_send (Ledger.holds_some.mpr List.mem_cons_self) henv
    cases a <;> cases hnext
    simp only [Client.check]
    split_ifs <;> exact ⟨s, rfl, rfl⟩
  case shutdown =>
    obtain ⟨s, hsock, rfl⟩ := h
    obtain rfl : sock = some s := hsock
    cases hcall
    obtain rfl := answers_shutdown (Ledger.holds_some.mpr List.mem_cons_self) henv
    cases a <;> cases hnext
    simp only [Client.check]
    split_ifs <;> exact ⟨s, rfl, rfl⟩
  case recv =>
    obtain ⟨s, hsock, rfl⟩ := h
    obtain rfl : sock = some s := hsock
    cases hcall
    obtain rfl := answers_recv (Ledger.holds_some.mpr List.mem_cons_self) henv
    rcases a with _ | _ | _ | _ | _ | ⟨b, bytes⟩ <;> cases hnext <;> exact ⟨s, rfl, rfl⟩
  case recvError =>
    obtain ⟨s, hsock, rfl⟩ := h
    cases hcall
    obtain ⟨rfl, -⟩ := answers_lastError Nat.one_pos rfl henv
    cases a <;> cases hnext
    exact ⟨s, hsock, rfl⟩
  case close =>
    obtain ⟨s, hsock, rfl⟩ := h
    obtain rfl : sock = some s := hsock
    cases hcall
    obtain rfl := answers_close (Ledger.holds_some.mpr List.mem_cons_self) henv
    cases a <;> cases hnext
    simp [ClientHolds, Ledger.empty]
  case failed stage errmsg back =>
    cases stage
    case error =>
      obtain ⟨s, hsock, rfl⟩ := h
      cases hcall
      obtain ⟨rfl, hpos⟩ := answers_lastError Nat.one_pos rfl henv
      cases a <;> cases hnext
      exact ⟨hpos _ rfl, s, hsock, rfl⟩
    case close =>
      obtain ⟨hpos, s, hsock, rfl⟩ := h
      obtain rfl : sock = some s := hsock
      cases hcall
      obtain rfl := answers_close (Ledger.holds_some.mpr List.mem_cons_self) henv
      cases a <;> cases hnext
      exact ⟨hpos, by simp [Ledger.empty]⟩
    case clean =>
      obtain ⟨hpos, rfl⟩ := h
      cases hcall
      obtain rfl := answers_cleanup henv
      cases a <;> cases hnext
      simp [ClientHolds, hpos.ne', Ledger.empty, Ledger.cleanup]
  case returned => cases hcall

lemma ClientHolds.misused (h : ClientHolds c l) : l.misused = false := by
  simp only [ClientHolds] at h
  split at h <;> grind [Ledger.empty]

/-- The client, whatever Winsock answers: it calls Winsock only between its start and its cleanup,
but for the error code of a failed start, uses only what it holds, and closes, frees and cleans up
what it was given, each once, on every way to its end. -/
theorem client_gives_back {argv0 : String} {args : List String} {stack : List Char}
    {answers : List Answer}
    (h : Client.program.run winsock (Client.main argv0 args stack) .empty answers = some (c, l)) :
    l.misused = false ∧ ∀ errco, c.pc = .returned errco → l = .empty := by
  have hholds : ClientHolds c l := by
    apply Program.inv_run ClientHolds _ _ h
    · unfold Client.main
      split <;> rfl
    · intro c l call a c' l' hc hcall henv hnext
      exact clientHolds_next hc hcall henv hnext
  refine ⟨hholds.misused, ?_⟩
  intro errco hpc
  simpa only [ClientHolds, hpc] using hholds

/-- The second address answers, and the server's first reply is its last. -/
theorem client_gives_back_demo :
    let run := Client.program.run winsock (Client.main "client" ["127.0.0.1", "25213"] []) .empty
      [.code 0, .addresses 0 [1, 2], .socket (some 7), .code (-1), .code 0, .socket (some 7),
        .code 0, .code 0, .code 21, .code 0, .data (some ['H']), .data (some []), .code 0, .code 0]
    (run.get rfl).1.pc = .returned 0 ∧ (run.get rfl).2 = .empty := by
  intro run
  have hrun : run = some (run.get rfl) := (Option.some_get _).symm
  exact ⟨rfl, (client_gives_back hrun).2 0 rfl⟩

end Client

/-- What the server holds from the moment it listens on `sock`. -/
def listening (sock : ℕ) (sockets : List ℕ) : Ledger :=
  { Ledger.empty with started := 1, sockets := sockets, listening := [sock] }

/-- The server holds the socket of its client besides the one it listens on. -/
def Accepted (csock : Option ℕ) (l : Ledger) : Prop :=
  ∃ sock h, h ≠ sock ∧ csock = some h ∧ l = listening sock [h, sock]

/-- `accept` gave the server no socket, and it has worked on with none or not yet. -/
def Refused (misused : Bool) (l : Ledger) : Prop :=
  ∃ sock, l = { listening sock [sock] with misused := misused, refused := true }

/-- What the server holds when `cleanupAfterFailedSend` starts to work on `sock`. -/
def Failing (sock : Option ℕ) (l : Ledger) : Prop :=
  (∃ h, sock = some h ∧ l = { Ledger.empty with started := 1, sockets := [h] }) ∨
    Accepted sock l ∨ (sock = none ∧ Refused true l)

def Closed (l : Ledger) : Prop :=
  l = { Ledger.empty with started := 1 } ∨ (∃ sock, l = listening sock [sock]) ∨ Refused true l

/-- What the server holds at each of its calls. -/
def ServerHolds (s : Server) (l : Ledger) : Prop :=
  match s.pc with
  | .startup => l = .empty
  | .startupError => l = { Ledger.empty with startFailed := true }
  | .resolve | .resolveCleanup | .socketCleanup => l = { Ledger.empty with started := 1 }
  | .socket | .socketError | .socketFree => s.result ≠ [] ∧
      l = { Ledger.empty with started := 1, addresses := some s.result }
  | .bind | .bindFree | .free => s.result ≠ [] ∧ ∃ h, s.sock = some h ∧
      l = { Ledger.empty with started := 1, addresses := some s.result, sockets := [h] }
  | .listen => ∃ h, s.sock = some h ∧ l = { Ledger.empty with started := 1, sockets := [h] }
  | .accept => ∃ h, s.sock = some h ∧ l = listening h [h]
  | .acceptError => s.csock = none ∧ Refused false l
  | .recv => Accepted s.csock l ∨ (s.csock = none ∧ Refused false l)
  | .send _ | .shutdown | .close => Accepted s.csock l
  | .failed .error sock _ _ => Failing sock l
  | .failed .close sock _ _ => 0 < s.errco ∧ Failing sock l
  | .failed .clean _ _ _ => 0 < s.errco ∧ Closed l
  | .cleanup => Closed l
  | .returned _ => ∃ l₀, Closed l₀ ∧ l = l₀.cleanup

section Server

variable {beyond : ℕ → Char} {s s' : Server} {call : Call}

lemma Accepted.holds {csock : Option ℕ} (h : Accepted csock l) : l.Holds csock := by
  obtain ⟨sock, h, -, rfl, rfl⟩ := h
  exact Ledger.holds_some.mpr List.mem_cons_self

lemma answers_recv_none {length : ℕ} (h : answers l (.recv none length) a = some l') :
    a = .data none ∧ l' = { l with misused := true } := by
  cases a with
  | data received =>
    simp only [answers, Ledger.use, if_neg Ledger.not_holds_none] at h
    split_ifs at h with hlength hnone
    exact ⟨by rw [Option.isNone_iff_eq_none.mp hnone], (Option.some.inj h).symm⟩
  | _ => cases h

lemma answers_listen (hl : l.Holds sock) {errco : ℤ}
    (h : answers l (.listen sock) (.code errco) = some l') :
    (errco = SOCKET_ERROR ∧ l' = l) ∨
      (errco ≠ SOCKET_ERROR ∧ l' = { l with listening := sock.toList ++ l.listening }) := by
  simp only [answers, Ledger.use_of_holds hl, Option.map_some] at h
  split_ifs at h with hb herr
  · exact .inr ⟨by rw [herr]; decide, (Option.some.inj h).symm⟩
  · exact .inl ⟨hb.resolve_left herr, (Option.some.inj h).symm⟩

lemma answers_accept (hl : l.Holds sock) {csock : Option ℕ}
    (h : answers l (.accept sock) (.socket csock) = some l') :
    (csock = none ∧ l' = { l with refused := true }) ∨ ∃ s, csock = some s ∧ s ∉ l.sockets ∧
      l' = { l with sockets := s :: l.sockets } := by
  simp only [answers, Ledger.use_of_holds hl, Option.bind_eq_bind, Option.bind_some] at h
  obtain ⟨l₁, hgive, hl'⟩ := Option.bind_eq_some_iff.mp h
  rcases Ledger.give_eq_some hgive with ⟨rfl, rfl⟩ | ⟨s, rfl, hs, rfl⟩
  · cases hl'
    exact .inl ⟨rfl, by simp⟩
  · cases hl'
    exact .inr ⟨s, rfl, hs, by simp⟩

lemma Failing.close (h : Failing sock l) (henv : answers l (.closesocket sock) a = some l') :
    Closed l' := by
  rcases h with ⟨t, rfl, rfl⟩ | haccepted | ⟨rfl, t, rfl⟩
  · obtain rfl := answers_close (Ledger.holds_some.mpr List.mem_cons_self) henv
    exact .inl (by simp [Ledger.empty])
  · obtain rfl := answers_close haccepted.holds henv
    obtain ⟨t, h, hne, rfl, rfl⟩ := haccepted
    exact .inr (.inl ⟨t, by simp [listening, hne.symm]⟩)
  · cases a with
    | code errco =>
      simp only [answers, if_neg Ledger.not_holds_none] at henv
      split_ifs at henv
      exact .inr (.inr ⟨t, (Option.some.inj henv).symm⟩)
    | _ => cases henv

lemma Failing.started (h : Failing sock l) : 0 < l.started := by
  rcases h with ⟨_, -, rfl⟩ | ⟨_, _, -, -, rfl⟩ | ⟨-, _, rfl⟩ <;> exact Nat.one_pos

lemma Failing.startFailed (h : Failing sock l) : l.startFailed = false := by
  rcases h with ⟨_, -, rfl⟩ | ⟨_, _, -, -, rfl⟩ | ⟨-, _, rfl⟩ <;> rfl

lemma ServerHolds.enter (h : ServerHolds s l) (hcall : s.call beyond = some call) :
    l.enter call = l := by
  obtain ⟨pc, errco, result, sock, csock, recvBuffer, printed⟩ := s
  cases pc with
  | startup =>
    cases hcall
    rfl
  | startupError =>
    cases hcall
    obtain rfl := h
    rfl
  | returned errco => cases hcall
  | failed stage sock errmsg back =>
    apply Ledger.enter_of_started
    cases stage <;> simp only [ServerHolds] at h <;>
      grind [listening, Accepted, Refused, Failing, Closed]
  | _ =>
    apply Ledger.enter_of_started
    simp only [ServerHolds] at h
    grind [listening, Accepted, Refused, Failing, Closed]

theorem serverHolds_next (h : ServerHolds s l) (hcall : s.call beyond = some call)
    (henv : winsock l call a = some l') (hnext : s.next a = some s') : ServerHolds s' l' := by
  rw [winsock, h.enter hcall] at henv
  obtain ⟨pc, errco, result, sock, csock, recvBuffer, printed⟩ := s
  cases pc
  case startup =>
    obtain rfl : l = .empty := h
    cases hcall
    cases a <;> cases hnext
    cases henv
    split_ifs <;> rfl
  case startupError =>
    obtain rfl : l = { Ledger.empty with startFailed := true } := h
    cases hcall
    cases a <;> cases hnext
    cases henv
    exact ⟨_, .inl rfl, rfl⟩
  case resolve =>
    obtain rfl : l = { Ledger.empty with started := 1 } := h
    cases hcall
    cases a <;> simp only [Server.next, reduceCtorEq] at hnext
    rcases answers_getaddrinfo henv with ⟨herr, rfl⟩ | ⟨rfl, hne, rfl⟩
    · rw [if_neg herr] at hnext
      cases hnext
      rfl
    · rw [if_pos rfl] at hnext
      cases hnext
      exact ⟨hne, rfl⟩
  case resolveCleanup | socketCleanup =>
    obtain rfl : l = { Ledger.empty with started := 1 } := h
    cases hcall
    obtain rfl := answers_cleanup henv
    cases a <;> cases hnext
    exact ⟨_, .inl rfl, rfl⟩
  case socket =>
    obtain ⟨hne, rfl⟩ := h
    cases hcall
    cases a <;> simp only [Server.next, reduceCtorEq] at hnext
    cases hnext
    simp only [answers] at henv
    rw [Ledger.read_of_mem rfl (headD_mem_of_suffix List.suffix_rfl hne)] at henv
    rcases Ledger.give_eq_some henv with ⟨rfl, rfl⟩ | ⟨t, rfl, -, rfl⟩
    · exact ⟨hne, rfl⟩
    · exact ⟨hne, t, rfl, rfl⟩
  case socketError =>
    obtain ⟨hne, rfl⟩ := h
    cases hcall
    obtain ⟨rfl, -⟩ := answers_lastError Nat.one_pos rfl henv
    cases a <;> cases hnext
    exact ⟨hne, rfl⟩
  case socketFree =>
    obtain ⟨hne, rfl⟩ := h
    cases hcall
    obtain rfl := answers_free henv
    cases a <;> cases hnext
    rfl
  case bind =>
    obtain ⟨hne, t, ht, rfl⟩ := h
    obtain rfl : sock = some t := ht
    cases hcall
    obtain ⟨rfl, hbinary⟩ := answers_bind (Ledger.holds_some.mpr List.mem_cons_self) rfl
      (headD_mem_of_suffix List.suffix_rfl hne) henv
    cases a <;> simp only [Server.next, reduceCtorEq] at hnext
    rcases hbinary _ rfl with rfl | rfl
    · cases hnext
      exact ⟨hne, t, rfl, rfl⟩
    · cases hnext
      exact ⟨hne, t, rfl, rfl⟩
  case bindFree =>
    obtain ⟨hne, t, ht, rfl⟩ := h
    cases hcall
    obtain rfl := answers_free henv
    cases a <;> cases hnext
    exact .inl ⟨t, ht, rfl⟩
  case free =>
    obtain ⟨hne, t, ht, rfl⟩ := h
    cases hcall
    obtain rfl := answers_free henv
    cases a <;> cases hnext
    exact ⟨t, ht, rfl⟩
  case listen =>
    obtain ⟨t, ht, rfl⟩ := h
    obtain rfl : sock = some t := ht
    cases hcall
    cases a <;> simp only [Server.next, reduceCtorEq] at hnext
    cases hnext
    rcases answers_listen (Ledger.holds_some.mpr List.mem_cons_self) henv with
      ⟨rfl, rfl⟩ | ⟨herr, rfl⟩
    · exact .inl ⟨t, rfl, rfl⟩
    · simp only [Server.check, if_neg herr]
      exact ⟨t, rfl, rfl⟩
  case accept =>
    obtain ⟨t, ht, rfl⟩ := h
    obtain rfl : sock = some t := ht
    cases hcall
    cases a <;> simp only [Server.next, reduceCtorEq] at hnext
    cases hnext
    rcases answers_accept (Ledger.holds_some.mpr List.mem_cons_self) henv with
      ⟨rfl, rfl⟩ | ⟨u, rfl, hu, rfl⟩
    · exact ⟨rfl, t, rfl⟩
    · exact .inl ⟨t, u, by simpa [listening] using hu, rfl, rfl⟩
  case acceptError =>
    obtain ⟨hcsock, t, rfl⟩ := h
    cases hcall
    obtain ⟨rfl, hpos⟩ := answers_lastError Nat.one_pos rfl henv
    cases a <;> cases hnext
    rename_i errco
    have herr : errco ≠ SOCKET_ERROR := by
      rintro rfl
      exact absurd (hpos _ rfl) (by decide)
    simp only [Server.check, if_neg herr]
    exact .inr ⟨hcsock, t, rfl⟩
  case recv =>
    cases hcall
    rcases h with h | ⟨hcsock, t, rfl⟩
    · obtain rfl := answers_recv h.holds henv
      rcases a with _ | _ | _ | _ | _ | ⟨b, bytes⟩ <;> cases hnext
      exacts [.inr (.inl h), h, h]
    · obtain rfl : csock = none := hcsock
      obtain ⟨rfl, rfl⟩ := answers_recv_none henv
      cases hnext
      exact .inr (.inr ⟨rfl, t, rfl⟩)
  case send length =>
    cases hcall
    obtain rfl := answers_send (Accepted.holds h) henv
    cases a <;> cases hnext
    simp only [Server.check]
    split_ifs
    exacts [.inr (.inl h), .inl h]
  case shutdown =>
    cases hcall
    obtain rfl := answers_shutdown (Accepted.holds h) henv
    cases a <;> cases hnext
    simp only [Server.check]
    split_ifs
    exacts [.inr (.inl h), h]
  case close =>
    cases hcall
    have hclosed := Failing.close (.inr (.inl h)) henv
    cases a <;> cases hnext
    exact hclosed
  case cleanup =>
    cases hcall
    obtain rfl := answers_cleanup henv
    cases a <;> cases hnext
    exact ⟨l, h, rfl⟩
  case failed stage sock errmsg back =>
    cases stage
    case error =>
      cases hcall
      obtain ⟨rfl, hpos⟩ := answers_lastError h.started h.startFailed henv
      cases a <;> cases hnext
      exact ⟨hpos _ rfl, h⟩
    case close =>
      obtain ⟨hpos, h⟩ := h
      cases hcall
      have hclosed := h.close henv
      cases a <;> cases hnext
      exact ⟨hpos, hclosed⟩
    case clean =>
      obtain ⟨hpos, h⟩ := h
      cases hcall
      obtain rfl := answers_cleanup henv
      cases a <;> cases hnext
      simp only [ServerHolds, if_pos hpos.ne']
      exact ⟨l, h, rfl⟩
  case returned => cases hcall

lemma ServerHolds.misused (h : ServerHolds s l) : l.misused → l.refused := by
  simp only [ServerHolds] at h
  split at h <;>
    grind [Ledger.empty, Ledger.cleanup, listening, Accepted, Refused, Failing, Closed]

/-- The server, whatever Winsock answers: it works on what it does not hold only after `accept`
refused it a socket, and then does, and the sockets that it leaves to the last `WSACleanup` are
those that it listened on. -/
theorem server_leaves_listening {stack : List Char} {answers : List Answer}
    (h : (Server.program beyond).run winsock (Server.main stack) .empty answers = some (s, l)) :
    (l.misused → l.refused) ∧ ∀ errco, s.pc = .returned errco →
      l.started = 0 ∧ l.addresses = none ∧ l.sockets = [] ∧ l.abandoned = l.listening ∧
        l.misused = l.refused := by
  have hholds : ServerHolds s l := by
    apply Program.inv_run ServerHolds _ _ h
    · rfl
    · intro s l call a s' l' hs hcall henv hnext
      exact serverHolds_next hs hcall henv hnext
  refine ⟨hholds.misused, ?_⟩
  intro errco hpc
  simp only [ServerHolds, hpc] at hholds
  obtain ⟨l₀, hclosed, rfl⟩ := hholds
  rcases hclosed with rfl | ⟨t, rfl⟩ | ⟨t, rfl⟩ <;> exact ⟨rfl, rfl, rfl, rfl, rfl⟩

/-- `accept` refuses, and the server goes on to receive. -/
theorem server_leaves_listening_demo :
    let run := (Server.program fun _ => ' ').run winsock (Server.main []) .empty
      [.code 0, .addresses 0 [1], .socket (some 7), .code 0, .code 0, .code 0, .socket none,
        .code 10054, .data none, .code 10038, .code (-1), .code 0]
    (run.get rfl).1.pc = .returned 10038 ∧ (run.get rfl).2.listening = [7] ∧
      (run.get rfl).2.abandoned = [7] ∧ (run.get rfl).2.misused := by
  intro run
  have hrun : run = some (run.get rfl) := (Option.some_get _).symm
  have hend := (server_leaves_listening hrun).2 10038 rfl
  exact ⟨rfl, rfl, hend.2.2.2.1, hend.2.2.2.2⟩

end Server

end Eece315.SocketsCleanup
