import Mathlib
import Eece315.SocketsPrograms

/-! A session of the socket client and server, from the connection on. Each direction of the
connection is a stream of bytes in order, which `send` may take in part and which `recv` gives in
pieces of any size. The two programs make their calls in any order and any call may fail: what the
client receives is made of replies to what the server received, both programs return within a
bound, and neither is ever left waiting. Where no call fails, the client receives the greeting of
the server exactly if the server received the message of the client in one piece. -/
namespace Eece315.SocketsSession

open StepRuns CallPrograms SocketsPrograms

/-- One direction of a connection: what each `send` put into it and each `recv` took out of it,
and whether its sender has shut it down. -/
structure Stream where
  sent : List (List Char)
  received : List (List Char)
  closed : Bool
  deriving DecidableEq, Repr

namespace Stream

def empty : Stream := ⟨[], [], false⟩

variable (t : Stream)

def push (bytes : List Char) : Stream := { t with sent := t.sent ++ [bytes] }
def take (bytes : List Char) : Stream := { t with received := t.received ++ [bytes] }
def close : Stream := { t with closed := true }

def transit : ℕ := t.sent.flatten.length - t.received.flatten.length

end Stream

structure Connection where
  out : Stream
  inn : Stream
  deriving DecidableEq, Repr

def Connection.empty : Connection := ⟨.empty, .empty⟩

def Connection.flip (w : Connection) : Connection := ⟨w.inn, w.out⟩

/-- A stream socket. `send` takes some of its bytes, `recv` waits for bytes or the end of the
stream; each may fail, and after a failure the error code is positive. -/
def endpoint (w : Connection) : Call → Answer → Option Connection
  | .send _ bytes, .code errco =>
    if errco = SOCKET_ERROR then some w
    else if 0 < errco ∧ errco ≤ bytes.length then
      some { w with out := w.out.push (bytes.take errco.toNat) }
    else none
  | .recv _ _, .data none => some w
  | .recv _ _, .data (some []) =>
    if w.inn.closed ∧ w.inn.received.flatten = w.inn.sent.flatten then some w else none
  | .recv _ length, .data (some bytes) =>
    if bytes.length ≤ length ∧ w.inn.received.flatten ++ bytes <+: w.inn.sent.flatten then
      some { w with inn := w.inn.take bytes }
    else none
  | .shutdown _, .code errco =>
    if errco = SOCKET_ERROR then some w
    else if errco = 0 then some { w with out := w.out.close }
    else none
  | .closesocket _, .code _ => some { w with out := w.out.close }
  | .wsaGetLastError, .code errco => if 0 < errco then some w else none
  | .wsaCleanup, .code _ => some w
  | _, _ => none

/-- The same at the other end. -/
def farEndpoint (w : Connection) (call : Call) (a : Answer) : Option Connection :=
  (endpoint w.flip call a).map .flip

/-- The call does not fail, and `send` takes all that it is given. -/
def smooth : Call → Answer → Bool
  | .send _ bytes, a => a = .code bytes.length
  | .recv _ _, a => a ≠ .data none
  | .shutdown _, a => a = .code 0
  | _, _ => true

def smoothly (env : Environment Connection Call Answer) : Environment Connection Call Answer :=
  fun w call a => if smooth call a then env w call a else none

variable (beyond : ℕ → Char)

/-- The client and the server take turns in any order. -/
def step : Client × Server × Connection → Turn Answer → Option (Client × Server × Connection) :=
  both Client.program (Server.program beyond) endpoint farEndpoint

/-- The same where no call fails. -/
def smoothStep :
    Client × Server × Connection → Turn Answer → Option (Client × Server × Connection) :=
  both Client.program (Server.program beyond) (smoothly endpoint) (smoothly farEndpoint)

/-- Each reply is a beginning of what the server reads from its literal on, of at most as many
bytes as it answers. -/
def Replies (received sent : List (List Char)) : Prop :=
  List.Forall₂ (fun chunk bytes => ∃ k, 0 < k ∧ k ≤ chunk.length ∧
    bytes = (Server.reply beyond chunk.length).take k) received sent

/-- All that the server received is answered but perhaps the last of it. -/
def Answered (received sent : List (List Char)) : Prop :=
  ∃ answered pending, received = answered ++ pending ∧ pending.length ≤ 1 ∧
    Replies beyond answered sent

/-- What holds where the client is, of the stream it sends. -/
def ClientAt (c : Client) (out : Stream) : Prop :=
  match c.pc with
  | .send => out.sent = []
  | .shutdown | .failed .error _ _ => True
  | .failed .close _ _ => 0 < c.errco
  | .failed .clean _ _ => 0 < c.errco ∧ out.closed
  | .recv | .recvError | .close | .cleanup | .returned _ => out.closed
  | _ => False

/-- What holds where the server is, of what it received and sent. -/
def ServerAt (s : Server) (w : Connection) : Prop :=
  match s.pc with
  | .recv | .shutdown => Replies beyond w.out.received w.inn.sent
  | .send length => ∃ answered chunk, w.out.received = answered ++ [chunk] ∧
      chunk.length = length ∧ Replies beyond answered w.inn.sent
  | .failed .error _ _ _ => Answered beyond w.out.received w.inn.sent
  | .failed .close _ _ _ => 0 < s.errco ∧ Answered beyond w.out.received w.inn.sent
  | .failed .clean _ _ _ =>
    0 < s.errco ∧ w.inn.closed ∧ Answered beyond w.out.received w.inn.sent
  | .close | .cleanup | .returned _ =>
    w.inn.closed ∧ Answered beyond w.out.received w.inn.sent
  | _ => False

/-- What was received of a stream was sent, and nothing was received for nothing. -/
structure Stream.Sound (t : Stream) : Prop where
  delivered : t.received.flatten <+: t.sent.flatten
  nonempty : ∀ bytes ∈ t.received, bytes ≠ []

structure Session (c : Client) (s : Server) (w : Connection) : Prop where
  message : w.out.sent = [] ∨ ∃ k, w.out.sent = [Client.message.take k]
  up : w.out.Sound
  down : w.inn.Sound
  client : ClientAt c w.out
  server : ServerAt beyond s w

section Endpoint

variable {w w' : Connection} {sock : Option ℕ} {bytes : List Char} {length : ℕ} {a : Answer}

lemma endpoint_send (h : endpoint w (.send sock bytes) a = some w') :
    (a = .code SOCKET_ERROR ∧ w' = w) ∨ ∃ k : ℕ, 0 < k ∧ k ≤ bytes.length ∧ a = .code k ∧
      w' = { w with out := w.out.push (bytes.take k) } := by
  cases a with
  | code errco =>
    simp only [endpoint] at h
    split_ifs at h with herr hk
    · exact .inl ⟨by rw [herr], (Option.some.inj h).symm⟩
    · lift errco to ℕ using hk.1.le
      exact .inr ⟨errco, by omega, by omega, rfl, (Option.some.inj h).symm⟩
  | _ => cases h

lemma endpoint_recv (h : endpoint w (.recv sock length) a = some w') :
    (a = .data none ∧ w' = w) ∨
    (a = .data (some []) ∧ w.inn.closed ∧ w.inn.received.flatten = w.inn.sent.flatten ∧
      w' = w) ∨
    ∃ b bytes, a = .data (some (b :: bytes)) ∧
      w.inn.received.flatten ++ b :: bytes <+: w.inn.sent.flatten ∧
      w' = { w with inn := w.inn.take (b :: bytes) } := by
  rcases a with _ | _ | _ | _ | _ | ⟨b, bytes⟩ <;> simp only [endpoint, reduceCtorEq] at h
  · exact .inl ⟨rfl, (Option.some.inj h).symm⟩
  · split_ifs at h with hend
    exact .inr (.inl ⟨rfl, hend.1, hend.2, (Option.some.inj h).symm⟩)
  · split_ifs at h with hbytes
    exact .inr (.inr ⟨b, bytes, rfl, hbytes.2, (Option.some.inj h).symm⟩)

lemma endpoint_shutdown (h : endpoint w (.shutdown sock) a = some w') :
    (a = .code SOCKET_ERROR ∧ w' = w) ∨ (a = .code 0 ∧ w' = { w with out := w.out.close }) := by
  cases a with
  | code errco =>
    simp only [endpoint] at h
    split_ifs at h with herr hzero
    · exact .inl ⟨by rw [herr], (Option.some.inj h).symm⟩
    · exact .inr ⟨by rw [hzero], (Option.some.inj h).symm⟩
  | _ => cases h

lemma endpoint_closesocket (h : endpoint w (.closesocket sock) a = some w') :
    (∃ errco, a = .code errco) ∧ w' = { w with out := w.out.close } := by
  cases a <;> cases h
  exact ⟨⟨_, rfl⟩, rfl⟩

lemma endpoint_lastError (h : endpoint w .wsaGetLastError a = some w') :
    (∃ errco, a = .code errco ∧ 0 < errco) ∧ w' = w := by
  cases a with
  | code errco =>
    simp only [endpoint] at h
    split_ifs at h with hpos
    exact ⟨⟨errco, rfl, hpos⟩, (Option.some.inj h).symm⟩
  | _ => cases h

lemma endpoint_cleanup (h : endpoint w .wsaCleanup a = some w') :
    (∃ errco, a = .code errco) ∧ w' = w := by
  cases a <;> cases h
  exact ⟨⟨_, rfl⟩, rfl⟩

end Endpoint

section Streams

variable {beyond} {t : Stream} {bytes : List Char}

lemma Stream.Sound.push (h : t.Sound) : (t.push bytes).Sound :=
  ⟨h.delivered.trans (by simp [Stream.push]), h.nonempty⟩

lemma Stream.Sound.take (h : t.Sound) (hne : bytes ≠ [])
    (hbytes : t.received.flatten ++ bytes <+: t.sent.flatten) : (t.take bytes).Sound := by
  constructor
  · simpa [Stream.take] using hbytes
  · intro r hr
    rcases List.mem_append.mp hr with hr | hr
    · exact h.nonempty r hr
    · rw [List.mem_singleton.mp hr]
      exact hne

lemma Stream.Sound.close (h : t.Sound) : t.close.Sound := ⟨h.delivered, h.nonempty⟩

lemma Replies.answered {received sent : List (List Char)} (h : Replies beyond received sent) :
    Answered beyond received sent :=
  ⟨received, [], by simp, by simp, h⟩

end Streams

inductive ClientMove (c : Client) (w : Connection) (a : Answer) : Client → Connection → Prop
  | sent {c' : Client} {k : ℕ} (hpc : c.pc = .send) (hpos : 0 < k)
      (hk : k ≤ Client.message.length) (ha : a = .code k) (hpc' : c'.pc = .shutdown) :
      ClientMove c w a c' { w with out := w.out.push (Client.message.take k) }
  | shut {c' : Client} (hpc : c.pc = .shutdown) (hpc' : c'.pc = .recv) :
      ClientMove c w a c' { w with out := w.out.close }
  | received {c' : Client} {b : Char} {bytes : List Char} (hpc : c.pc = .recv)
      (hbytes : w.inn.received.flatten ++ b :: bytes <+: w.inn.sent.flatten)
      (hpc' : c'.pc = .recv) : ClientMove c w a c' { w with inn := w.inn.take (b :: bytes) }
  | ended {c' : Client} (hpc : c.pc = .recv) (hclosed : w.inn.closed)
      (hall : w.inn.received.flatten = w.inn.sent.flatten) (hpc' : c'.pc = .close) :
      ClientMove c w a c' w
  | closed {c' : Client} (hpc : c.pc = .close) (hpc' : c'.pc = .cleanup) :
      ClientMove c w a c' { w with out := w.out.close }
  | cleaned {c' : Client} (hpc : c.pc = .cleanup) (hpc' : c'.pc = .returned 0) :
      ClientMove c w a c' w
  | recvFailed {c' : Client} (hpc : c.pc = .recv) (ha : a = .data none)
      (hpc' : c'.pc = .recvError) : ClientMove c w a c' w
  | recvError {c' : Client} (hpc : c.pc = .recvError) (hpc' : c'.pc = .close) :
      ClientMove c w a c' w
  | failed {c' : Client} {errmsg : String} {back : ClientPc} (hpc : c.pc = .send ∨ c.pc = .shutdown)
      (ha : a = .code SOCKET_ERROR) (hpc' : c'.pc = .failed .error errmsg back) :
      ClientMove c w a c' w
  | failedError {c' : Client} {errmsg : String} {back : ClientPc}
      (hpc : c.pc = .failed .error errmsg back) (hpos : 0 < c'.errco)
      (hpc' : c'.pc = .failed .close errmsg back) : ClientMove c w a c' w
  | failedClose {c' : Client} {errmsg : String} {back : ClientPc}
      (hpc : c.pc = .failed .close errmsg back) (herrco : c'.errco = c.errco)
      (hpc' : c'.pc = .failed .clean errmsg back) :
      ClientMove c w a c' { w with out := w.out.close }
  | failedClean {c' : Client} {errmsg : String} {back : ClientPc}
      (hpc : c.pc = .failed .clean errmsg back) (hpc' : c'.pc = .returned c.errco) :
      ClientMove c w a c' w

lemma clientMove {c c' : Client} {w w' : Connection} {call : Call} {a : Answer}
    (hat : ClientAt c w.out) (hcall : c.call = some call) (henv : endpoint w call a = some w')
    (hnext : c.next a = some c') : ClientMove c w a c' w' := by
  obtain ⟨pc, server, port, errco, ptr, sock, recvBuffer, printed⟩ := c
  cases pc
  case send =>
    cases hcall
    rcases endpoint_send henv with ⟨rfl, rfl⟩ | ⟨k, hpos, hk, rfl, rfl⟩
    · cases hnext
      exact .failed (.inl rfl) rfl rfl
    · cases hnext
      exact .sent rfl hpos hk rfl rfl
  case shutdown =>
    cases hcall
    rcases endpoint_shutdown henv with ⟨rfl, rfl⟩ | ⟨rfl, rfl⟩
    · cases hnext
      exact .failed (.inr rfl) rfl rfl
    · cases hnext
      exact .shut rfl rfl
  case recv =>
    cases hcall
    rcases endpoint_recv henv with ⟨rfl, rfl⟩ | ⟨rfl, hclosed, hall, rfl⟩ |
      ⟨b, bytes, rfl, hbytes, rfl⟩
    · cases hnext
      exact .recvFailed rfl rfl rfl
    · cases hnext
      exact .ended rfl hclosed hall rfl
    · cases hnext
      exact .received rfl hbytes rfl
  case recvError =>
    cases hcall
    obtain ⟨⟨e, rfl, -⟩, rfl⟩ := endpoint_lastError henv
    cases hnext
    exact .recvError rfl rfl
  case close =>
    cases hcall
    obtain ⟨⟨e, rfl⟩, rfl⟩ := endpoint_closesocket henv
    cases hnext
    exact .closed rfl rfl
  case cleanup =>
    cases hcall
    obtain ⟨⟨e, rfl⟩, rfl⟩ := endpoint_cleanup henv
    cases hnext
    exact .cleaned rfl rfl
  case failed stage errmsg back =>
    cases stage
    case error =>
      cases hcall
      obtain ⟨⟨e, rfl, hpos⟩, rfl⟩ := endpoint_lastError henv
      cases hnext
      exact .failedError rfl hpos rfl
    case close =>
      cases hcall
      obtain ⟨⟨e, rfl⟩, rfl⟩ := endpoint_closesocket henv
      cases hnext
      exact .failedClose rfl rfl rfl
    case clean =>
      cases hcall
      obtain ⟨⟨e, rfl⟩, rfl⟩ := endpoint_cleanup henv
      cases hnext
      exact .failedClean rfl (if_pos hat.1.ne')
  case returned => cases hcall
  all_goals exact hat.elim

variable {beyond : ℕ → Char}

lemma reply_length (n : ℕ) : (Server.reply beyond n).length = n := by
  simp only [Server.reply, List.length_append, List.length_take, List.length_map,
    List.length_range]
  omega

inductive ServerMove (beyond : ℕ → Char) (s : Server) (w : Connection) (a : Answer) :
    Server → Connection → Prop
  | received {s' : Server} {b : Char} {bytes : List Char} (hpc : s.pc = .recv)
      (hbytes : w.out.received.flatten ++ b :: bytes <+: w.out.sent.flatten)
      (hpc' : s'.pc = .send (b :: bytes).length) :
      ServerMove beyond s w a s' { w with out := w.out.take (b :: bytes) }
  | ended {s' : Server} (hpc : s.pc = .recv) (hclosed : w.out.closed)
      (hall : w.out.received.flatten = w.out.sent.flatten) (hpc' : s'.pc = .shutdown) :
      ServerMove beyond s w a s' w
  | replied {s' : Server} {k n : ℕ} (hpc : s.pc = .send n) (hpos : 0 < k) (hk : k ≤ n)
      (ha : a = .code k) (hpc' : s'.pc = .recv) :
      ServerMove beyond s w a s' { w with inn := w.inn.push ((Server.reply beyond n).take k) }
  | shut {s' : Server} (hpc : s.pc = .shutdown) (hpc' : s'.pc = .close) :
      ServerMove beyond s w a s' { w with inn := w.inn.close }
  | closed {s' : Server} (hpc : s.pc = .close) (hpc' : s'.pc = .cleanup) :
      ServerMove beyond s w a s' { w with inn := w.inn.close }
  | cleaned {s' : Server} (hpc : s.pc = .cleanup) (hpc' : s'.pc = .returned 0) :
      ServerMove beyond s w a s' w
  | failed {s' : Server} {sock : Option ℕ} {errmsg : String} {back : ServerPc}
      (hpc : s.pc = .recv ∧ a = .data none ∨
        (s.pc = .shutdown ∨ ∃ n, s.pc = .send n) ∧ a = .code SOCKET_ERROR)
      (hpc' : s'.pc = .failed .error sock errmsg back) : ServerMove beyond s w a s' w
  | failedError {s' : Server} {sock : Option ℕ} {errmsg : String} {back : ServerPc}
      (hpc : s.pc = .failed .error sock errmsg back) (hpos : 0 < s'.errco)
      (hpc' : s'.pc = .failed .close sock errmsg back) : ServerMove beyond s w a s' w
  | failedClose {s' : Server} {sock : Option ℕ} {errmsg : String} {back : ServerPc}
      (hpc : s.pc = .failed .close sock errmsg back) (herrco : s'.errco = s.errco)
      (hpc' : s'.pc = .failed .clean sock errmsg back) :
      ServerMove beyond s w a s' { w with inn := w.inn.close }
  | failedClean {s' : Server} {sock : Option ℕ} {errmsg : String} {back : ServerPc}
      (hpc : s.pc = .failed .clean sock errmsg back) (hpc' : s'.pc = .returned s.errco) :
      ServerMove beyond s w a s' w

lemma serverMove {s s' : Server} {w w' : Connection} {call : Call} {a : Answer}
    (hat : ServerAt beyond s w) (hcall : s.call beyond = some call)
    (hfar : farEndpoint w call a = some w') (hnext : s.next a = some s') :
    ServerMove beyond s w a s' w' := by
  obtain ⟨w₁, henv, rfl⟩ := Option.map_eq_some_iff.mp hfar
  obtain ⟨pc, errco, result, sock, csock, recvBuffer, printed⟩ := s
  cases pc
  case recv =>
    cases hcall
    rcases endpoint_recv henv with ⟨rfl, rfl⟩ | ⟨rfl, hclosed, hall, rfl⟩ |
      ⟨b, bytes, rfl, hbytes, rfl⟩
    · cases hnext
      exact .failed (.inl ⟨rfl, rfl⟩) rfl
    · cases hnext
      exact .ended rfl hclosed hall rfl
    · cases hnext
      exact .received rfl hbytes rfl
  case send n =>
    cases hcall
    rcases endpoint_send henv with ⟨rfl, rfl⟩ | ⟨k, hpos, hk, rfl, rfl⟩
    · cases hnext
      exact .failed (.inr ⟨.inr ⟨n, rfl⟩, rfl⟩) rfl
    · cases hnext
      exact .replied rfl hpos (by simpa [reply_length] using hk) rfl rfl
  case shutdown =>
    cases hcall
    rcases endpoint_shutdown henv with ⟨rfl, rfl⟩ | ⟨rfl, rfl⟩
    · cases hnext
      exact .failed (.inr ⟨.inl rfl, rfl⟩) rfl
    · cases hnext
      exact .shut rfl rfl
  case close =>
    cases hcall
    obtain ⟨⟨e, rfl⟩, rfl⟩ := endpoint_closesocket henv
    cases hnext
    exact .closed rfl rfl
  case cleanup =>
    cases hcall
    obtain ⟨⟨e, rfl⟩, rfl⟩ := endpoint_cleanup henv
    cases hnext
    exact .cleaned rfl rfl
  case failed stage sock errmsg back =>
    cases stage
    case error =>
      cases hcall
      obtain ⟨⟨e, rfl, hpos⟩, rfl⟩ := endpoint_lastError henv
      cases hnext
      exact .failedError rfl hpos rfl
    case close =>
      cases hcall
      obtain ⟨⟨e, rfl⟩, rfl⟩ := endpoint_closesocket henv
      cases hnext
      exact .failedClose rfl rfl rfl
    case clean =>
      cases hcall
      obtain ⟨⟨e, rfl⟩, rfl⟩ := endpoint_cleanup henv
      cases hnext
      exact .failedClean rfl (if_pos hat.1.ne')
  case returned => cases hcall
  all_goals exact hat.elim

section Invariant

variable {c c' : Client} {s s' : Server} {w w' : Connection} {a : Answer}

lemma ServerAt.congr (h : ServerAt beyond s w) (hreceived : w'.out.received = w.out.received)
    (hinn : w'.inn.sent = w.inn.sent) (hclosed : w'.inn.closed = w.inn.closed) :
    ServerAt beyond s w' := by
  simpa only [ServerAt, hreceived, hinn, hclosed] using h

lemma ClientAt.congr {out out' : Stream} (h : ClientAt c out) (hsent : out'.sent = out.sent)
    (hclosed : out'.closed = out.closed) : ClientAt c out' := by
  simpa only [ClientAt, hsent, hclosed] using h

lemma Session.client_move (h : Session beyond c s w) (hmove : ClientMove c w a c' w') :
    Session beyond c' s w' := by
  obtain ⟨hmessage, hup, hdown, hclient, hserver⟩ := h
  cases hmove with
  | @sent k hpc hpos hk ha hpc' =>
    have hnone : w.out.sent = [] := by simpa only [ClientAt, hpc] using hclient
    exact ⟨.inr ⟨k, by simp [Stream.push, hnone]⟩, hup.push, hdown,
      by simp only [ClientAt, hpc'], hserver.congr rfl rfl rfl⟩
  | shut hpc hpc' =>
    exact ⟨hmessage, hup.close, hdown, by simp only [ClientAt, hpc', Stream.close],
      hserver.congr rfl rfl rfl⟩
  | received hpc hbytes hpc' =>
    exact ⟨hmessage, hup, hdown.take (List.cons_ne_nil _ _) hbytes,
      by simpa only [ClientAt, hpc, hpc'] using hclient, hserver.congr rfl rfl rfl⟩
  | ended hpc hclosed hall hpc' =>
    exact ⟨hmessage, hup, hdown, by simpa only [ClientAt, hpc, hpc'] using hclient, hserver⟩
  | closed hpc hpc' =>
    exact ⟨hmessage, hup.close, hdown, by simp only [ClientAt, hpc', Stream.close],
      hserver.congr rfl rfl rfl⟩
  | cleaned hpc hpc' =>
    exact ⟨hmessage, hup, hdown, by simpa only [ClientAt, hpc, hpc'] using hclient, hserver⟩
  | recvFailed hpc ha hpc' =>
    exact ⟨hmessage, hup, hdown, by simpa only [ClientAt, hpc, hpc'] using hclient, hserver⟩
  | recvError hpc hpc' =>
    exact ⟨hmessage, hup, hdown, by simpa only [ClientAt, hpc, hpc'] using hclient, hserver⟩
  | failed hpc ha hpc' =>
    exact ⟨hmessage, hup, hdown, by simp only [ClientAt, hpc'], hserver⟩
  | failedError hpc hpos hpc' =>
    exact ⟨hmessage, hup, hdown, by simpa only [ClientAt, hpc'] using hpos, hserver⟩
  | failedClose hpc herrco hpc' =>
    have hpos : 0 < c.errco := by simpa only [ClientAt, hpc] using hclient
    exact ⟨hmessage, hup.close, hdown,
      by simpa only [ClientAt, hpc', Stream.close, herrco, and_true] using hpos,
      hserver.congr rfl rfl rfl⟩
  | failedClean hpc hpc' =>
    have hclosed : 0 < c.errco ∧ w.out.closed := by simpa only [ClientAt, hpc] using hclient
    exact ⟨hmessage, hup, hdown, by simpa only [ClientAt, hpc'] using hclosed.2, hserver⟩

lemma Session.server_move (h : Session beyond c s w) (hmove : ServerMove beyond s w a s' w') :
    Session beyond c s' w' := by
  obtain ⟨hmessage, hup, hdown, hclient, hserver⟩ := h
  cases hmove with
  | @received b bytes hpc hbytes hpc' =>
    have hreplies : Replies beyond w.out.received w.inn.sent := by
      simpa only [ServerAt, hpc] using hserver
    refine ⟨hmessage, hup.take (List.cons_ne_nil _ _) hbytes, hdown, hclient.congr rfl rfl, ?_⟩
    simp only [ServerAt, hpc']
    exact ⟨_, b :: bytes, rfl, rfl, hreplies⟩
  | ended hpc hclosed hall hpc' =>
    exact ⟨hmessage, hup, hdown, hclient, by simpa only [ServerAt, hpc, hpc'] using hserver⟩
  | @replied k n hpc hpos hk ha hpc' =>
    obtain ⟨answered, chunk, hchunk, rfl, hreplies⟩ : ∃ answered chunk,
        w.out.received = answered ++ [chunk] ∧ chunk.length = n ∧
          Replies beyond answered w.inn.sent := by
      simpa only [ServerAt, hpc] using hserver
    refine ⟨hmessage, hup, hdown.push, hclient, ?_⟩
    simp only [ServerAt, hpc', Stream.push, hchunk]
    exact List.rel_append hreplies (.cons ⟨k, hpos, hk, rfl⟩ .nil)
  | shut hpc hpc' =>
    have hreplies : Replies beyond w.out.received w.inn.sent := by
      simpa only [ServerAt, hpc] using hserver
    refine ⟨hmessage, hup, hdown.close, hclient, ?_⟩
    simp only [ServerAt, hpc', Stream.close, true_and]
    exact hreplies.answered
  | closed hpc hpc' =>
    have hanswered : w.inn.closed ∧ Answered beyond w.out.received w.inn.sent := by
      simpa only [ServerAt, hpc] using hserver
    refine ⟨hmessage, hup, hdown.close, hclient, ?_⟩
    simp only [ServerAt, hpc', Stream.close, true_and]
    exact hanswered.2
  | cleaned hpc hpc' =>
    exact ⟨hmessage, hup, hdown, hclient, by simpa only [ServerAt, hpc, hpc'] using hserver⟩
  | failed hpc hpc' =>
    refine ⟨hmessage, hup, hdown, hclient, ?_⟩
    simp only [ServerAt, hpc']
    rcases hpc with ⟨hpc, -⟩ | ⟨hpc | ⟨n, hpc⟩, -⟩ <;> simp only [ServerAt, hpc] at hserver
    · exact hserver.answered
    · exact hserver.answered
    · obtain ⟨answered, chunk, hchunk, -, hreplies⟩ := hserver
      exact ⟨answered, [chunk], hchunk, le_rfl, hreplies⟩
  | failedError hpc hpos hpc' =>
    refine ⟨hmessage, hup, hdown, hclient, ?_⟩
    simp only [ServerAt, hpc] at hserver
    simpa only [ServerAt, hpc'] using ⟨hpos, hserver⟩
  | failedClose hpc herrco hpc' =>
    refine ⟨hmessage, hup, hdown.close, hclient, ?_⟩
    simp only [ServerAt, hpc] at hserver
    simp only [ServerAt, hpc', Stream.close, herrco]
    exact ⟨hserver.1, trivial, hserver.2⟩
  | failedClean hpc hpc' =>
    refine ⟨hmessage, hup, hdown, hclient, ?_⟩
    simp only [ServerAt, hpc] at hserver
    simpa only [ServerAt, hpc'] using hserver.2

end Invariant

section Size

/-- What the client has left to do, the bytes it sends counted for what they cause. -/
def clientLeft : ClientPc → ℕ
  | .send => 3 * Client.message.length + 12
  | .shutdown => 11
  | .recv => 10
  | .recvError => 9
  | .failed .error _ _ => 8
  | .failed .close _ _ => 7
  | .failed .clean _ _ => 6
  | .close => 5
  | .cleanup => 4
  | _ => 0

def serverLeft : ServerPc → ℕ
  | .send n => 2 * n + 9
  | .recv => 9
  | .shutdown => 8
  | .failed .error _ _ _ => 7
  | .failed .close _ _ _ => 6
  | .failed .clean _ _ _ => 5
  | .close => 4
  | .cleanup => 3
  | _ => 0

def size (c : Client) (s : Server) (w : Connection) : ℕ :=
  clientLeft c.pc + serverLeft s.pc + 3 * w.out.transit + w.inn.transit

variable {t : Stream} {bytes : List Char}

lemma Stream.Sound.transit_push (h : t.Sound) :
    (t.push bytes).transit = t.transit + bytes.length := by
  have hle := h.delivered.length_le
  simp only [Stream.transit, Stream.push, List.flatten_append, List.flatten_singleton,
    List.length_append]
  omega

lemma Stream.transit_take (hbytes : t.received.flatten ++ bytes <+: t.sent.flatten) :
    (t.take bytes).transit + bytes.length = t.transit := by
  have hle := hbytes.length_le
  simp only [Stream.transit, Stream.take, List.flatten_append, List.flatten_singleton,
    List.length_append] at hle ⊢
  omega

@[simp] lemma Stream.transit_close : t.close.transit = t.transit := rfl

variable {c c' : Client} {s s' : Server} {w w' : Connection} {a : Answer}

lemma size_client_move (h : Session beyond c s w) (hmove : ClientMove c w a c' w') :
    size c' s w' < size c s w := by
  cases hmove with
  | @sent k hpc hpos hk ha hpc' =>
    simp only [size, hpc, hpc', clientLeft, h.up.transit_push, List.length_take]
    omega
  | received hpc hbytes hpc' =>
    have htake := Stream.transit_take hbytes
    simp only [size, hpc, hpc', clientLeft, List.length_cons] at htake ⊢
    omega
  | failed hpc ha hpc' =>
    rcases hpc with hpc | hpc <;> simp only [size, hpc, hpc', clientLeft] <;> omega
  | _ => simp_all only [size, clientLeft, Stream.transit_close]; omega

lemma size_server_move (h : Session beyond c s w) (hmove : ServerMove beyond s w a s' w') :
    size c s' w' < size c s w := by
  cases hmove with
  | received hpc hbytes hpc' =>
    have htake := Stream.transit_take hbytes
    simp only [size, hpc, hpc', serverLeft, List.length_cons] at htake ⊢
    omega
  | @replied k n hpc hpos hk ha hpc' =>
    simp only [size, hpc, hpc', serverLeft, h.down.transit_push, List.length_take,
      reply_length]
    omega
  | failed hpc hpc' =>
    rcases hpc with ⟨hpc, -⟩ | ⟨hpc | ⟨n, hpc⟩, -⟩ <;>
      simp only [size, hpc, hpc', serverLeft] <;> omega
  | _ => simp_all only [size, serverLeft, Stream.transit_close]; omega

end Size

/-- A client and a server at the start of their session. -/
def connected : Client × Server × Connection :=
  (⟨.send, "::1", DEFAULT_PORT, 0, [], some 7, [], []⟩, ⟨.recv, 0, [], some 3, some 5, [], []⟩,
    .empty)

section Runs

variable {c : Client} {s : Server} {w : Connection} {d : Client × Server × Connection}
  {turns : List (Turn Answer)}

lemma session_start (hc : c.pc = .send) (hs : s.pc = .recv) :
    Session beyond c s .empty := by
  have hsound : Stream.empty.Sound := ⟨List.nil_prefix, by simp [Stream.empty]⟩
  exact ⟨.inl rfl, hsound, hsound, by simp [ClientAt, hc, Connection.empty, Stream.empty],
    by simp [ServerAt, hs, Connection.empty, Stream.empty, Replies]⟩

lemma session_step {d' : Client × Server × Connection} {turn : Turn Answer}
    (h : Session beyond d.1 d.2.1 d.2.2) (hstep : step beyond d turn = some d') :
    Session beyond d'.1 d'.2.1 d'.2.2 ∧
      size d'.1 d'.2.1 d'.2.2 < size d.1 d.2.1 d.2.2 := by
  rcases both_cases hstep with ⟨call, a, hcall, henv, hnext, heq⟩ |
    ⟨call, a, hcall, henv, hnext, heq⟩
  · have hmove := clientMove h.client hcall henv hnext
    rw [heq]
    exact ⟨h.client_move hmove, size_client_move h hmove⟩
  · have hmove := serverMove h.server hcall henv hnext
    rw [heq]
    exact ⟨h.server_move hmove, size_server_move h hmove⟩

theorem session_run (hc : c.pc = .send) (hs : s.pc = .recv)
    (h : turns.foldlM (step beyond) (c, s, .empty) = some d) :
    Session beyond d.1 d.2.1 d.2.2 ∧
      turns.length + size d.1 d.2.1 d.2.2 ≤ size c s .empty :=
  foldlM_length_le_of_inv (motive := fun d => Session beyond d.1 d.2.1 d.2.2)
    (fun d => size d.1 d.2.1 d.2.2) (session_start hc hs) (fun _ _ _ => session_step) h

def text : List Char := "Hello! I am a server!".toList

lemma reply_of_le {n : ℕ} (h : n ≤ text.length) : Server.reply beyond n = text.take n := by
  have hgreeting : Server.greeting = text ++ ['\x00'] := rfl
  have hbeyond : n - Server.greeting.length = 0 := by
    rw [hgreeting, List.length_append]
    omega
  rw [Server.reply, hbeyond, hgreeting, List.take_append_of_le_length h]
  simp

lemma text_length : text.length = 21 := by decide

lemma message_length : Client.message.length = 21 := by decide

lemma Replies.greets {received sent : List (List Char)} (h : Replies beyond received sent)
    (hall : ∀ chunk ∈ received, chunk.length ≤ text.length) :
    List.Forall₂ (fun chunk bytes => ∃ k, 0 < k ∧ k ≤ chunk.length ∧ bytes = text.take k)
      received sent := by
  induction h with
  | nil => exact .nil
  | @cons chunk bytes received sent hfirst _ ih =>
    obtain ⟨k, hpos, hk, rfl⟩ := hfirst
    apply List.Forall₂.cons _ (ih fun x hx => hall x (List.mem_cons_of_mem _ hx))
    refine ⟨k, hpos, hk, ?_⟩
    rw [reply_of_le (hall chunk List.mem_cons_self), List.take_take, Nat.min_eq_left hk]

lemma Session.received_message (h : Session beyond c s w) :
    w.out.received.flatten <+: Client.message := by
  apply h.up.delivered.trans
  rcases h.message with hnone | ⟨k, hk⟩
  · simp [hnone]
  · simpa [hk] using List.take_prefix k Client.message

lemma Session.chunk_le (h : Session beyond c s w) {chunk : List Char}
    (hchunk : chunk ∈ w.out.received) : chunk.length ≤ text.length := by
  have hle := h.received_message.length_le
  have hmem := (List.sublist_flatten_of_mem hchunk).length_le
  rw [message_length] at hle
  rw [text_length]
  omega

lemma Session.answered (h : Session beyond c s w) :
    Answered beyond w.out.received w.inn.sent := by
  have hserver := h.server
  unfold ServerAt at hserver
  split at hserver
  · exact Replies.answered hserver
  · exact Replies.answered hserver
  · obtain ⟨answered, chunk, hchunk, -, hreplies⟩ := hserver
    exact ⟨answered, [chunk], hchunk, le_rfl, hreplies⟩
  · exact hserver
  · exact hserver.2
  · exact hserver.2.2
  · exact hserver.2
  · exact hserver.2
  · exact hserver.2
  · exact hserver.elim

/-- However the bytes are cut up and whatever fails, the server receives a beginning of the
client's message, and the client a beginning of the server's replies: one for each piece that the
server received, of no more bytes than the piece, from the start of the greeting. -/
theorem received_replies (hc : c.pc = .send) (hs : s.pc = .recv)
    (h : turns.foldlM (step beyond) (c, s, .empty) = some d) :
    d.2.2.out.received.flatten <+: Client.message ∧
      d.2.2.inn.received.flatten <+: d.2.2.inn.sent.flatten ∧
      ∃ answered pending, d.2.2.out.received = answered ++ pending ∧ pending.length ≤ 1 ∧
        List.Forall₂ (fun chunk bytes => ∃ k, 0 < k ∧ k ≤ chunk.length ∧ bytes = text.take k)
          answered d.2.2.inn.sent := by
  have hsession := (session_run hc hs h).1
  refine ⟨hsession.received_message, hsession.down.delivered, ?_⟩
  obtain ⟨answered, pending, hreceived, hpending, hreplies⟩ := hsession.answered
  refine ⟨answered, pending, hreceived, hpending, ?_⟩
  apply hreplies.greets
  intro chunk hchunk
  apply hsession.chunk_le
  rw [hreceived]
  exact List.mem_append_left _ hchunk

lemma Stream.Sound.ready {t : Stream} (h : t.Sound) :
    t.received.flatten = t.sent.flatten ∨ ∃ b, t.received.flatten ++ [b] <+: t.sent.flatten := by
  obtain ⟨rest, hrest⟩ := h.delivered
  cases rest with
  | nil => exact .inl (by rw [← hrest, List.append_nil])
  | cons b rest => exact .inr ⟨b, rest, by rw [← hrest, List.append_assoc, List.singleton_append]⟩

section Ready

variable {sock : Option ℕ} {bytes : List Char} {call : Call} {a : Answer} {w' : Connection}

lemma smoothly_send (hne : bytes ≠ []) :
    smoothly endpoint w (.send sock bytes) (.code bytes.length) =
      some { w with out := w.out.push bytes } := by
  have hpos : 0 < bytes.length := List.length_pos_of_ne_nil hne
  have herr : (bytes.length : ℤ) ≠ SOCKET_ERROR := by
    unfold SOCKET_ERROR
    omega
  simp [smoothly, smooth, endpoint, herr, hpos]

lemma smoothly_recv_end (hclosed : w.inn.closed)
    (hall : w.inn.received.flatten = w.inn.sent.flatten) :
    smoothly endpoint w (.recv sock BUFFERL) (.data (some [])) = some w := by
  simp [smoothly, smooth, endpoint, hclosed, hall]

lemma smoothly_recv {b : Char} (hb : w.inn.received.flatten ++ [b] <+: w.inn.sent.flatten) :
    smoothly endpoint w (.recv sock BUFFERL) (.data (some [b])) =
      some { w with inn := w.inn.take [b] } := by
  simp [smoothly, smooth, endpoint, hb, BUFFERL]

lemma smoothly_far (h : smoothly endpoint w.flip call a = some w') :
    smoothly farEndpoint w call a = some w'.flip := by
  unfold smoothly at h ⊢
  split_ifs at h ⊢ with hsmooth
  simp [farEndpoint, h]

end Ready

lemma Session.client_ready (h : Session beyond c s w) :
    (∃ turn d, smoothStep beyond (c, s, w) turn = some d) ∨
      (c.pc = .recv ∧ w.inn.closed = false) ∨ ∃ errco, c.pc = .returned errco := by
  obtain ⟨-, -, hdown, hclient, -⟩ := h
  obtain ⟨pc, server, port, errco, ptr, sock, recvBuffer, printed⟩ := c
  cases pc
  case send =>
    exact .inl ⟨.left (.code Client.message.length), _,
      both_left rfl (smoothly_send (by decide)) rfl⟩
  case shutdown => exact .inl ⟨.left (.code 0), _, both_left rfl rfl rfl⟩
  case recv =>
    rcases hdown.ready with hall | ⟨b, hb⟩
    · cases hclosed : w.inn.closed
      · exact .inr (.inl ⟨rfl, rfl⟩)
      · exact .inl ⟨.left (.data (some [])), _, both_left rfl (smoothly_recv_end hclosed hall) rfl⟩
    · exact .inl ⟨.left (.data (some [b])), _, both_left rfl (smoothly_recv hb) rfl⟩
  case recvError => exact .inl ⟨.left (.code 1), _, both_left rfl rfl rfl⟩
  case close | cleanup => exact .inl ⟨.left (.code 0), _, both_left rfl rfl rfl⟩
  case failed stage errmsg back =>
    cases stage
    case error => exact .inl ⟨.left (.code 1), _, both_left rfl rfl rfl⟩
    case close | clean => exact .inl ⟨.left (.code 0), _, both_left rfl rfl rfl⟩
  case returned errco => exact .inr (.inr ⟨errco, rfl⟩)
  all_goals exact hclient.elim

lemma Session.server_ready (h : Session beyond c s w) :
    (∃ turn d, smoothStep beyond (c, s, w) turn = some d) ∨
      (s.pc = .recv ∧ w.out.closed = false) ∨ ∃ errco, s.pc = .returned errco := by
  obtain ⟨-, hup, -, -, hserver⟩ := h
  obtain ⟨pc, errco, result, sock, csock, recvBuffer, printed⟩ := s
  cases pc
  case recv =>
    rcases hup.ready with hall | ⟨b, hb⟩
    · cases hclosed : w.out.closed
      · exact .inr (.inl ⟨rfl, rfl⟩)
      · exact .inl ⟨.right (.data (some [])), _,
          both_right rfl (smoothly_far (smoothly_recv_end hclosed hall)) rfl⟩
    · exact .inl ⟨.right (.data (some [b])), _,
        both_right rfl (smoothly_far (smoothly_recv hb)) rfl⟩
  case send n =>
    obtain ⟨answered, chunk, hchunk, rfl, -⟩ := hserver
    have hne : chunk ≠ [] := hup.nonempty chunk (by rw [hchunk]; simp)
    have hreply : Server.reply beyond chunk.length ≠ [] := by
      rw [← List.length_pos_iff, reply_length]
      exact List.length_pos_of_ne_nil hne
    exact .inl ⟨.right (.code _), _, both_right rfl (smoothly_far (smoothly_send hreply)) rfl⟩
  case shutdown | close | cleanup => exact .inl ⟨.right (.code 0), _, both_right rfl rfl rfl⟩
  case failed stage sock errmsg back =>
    cases stage
    case error => exact .inl ⟨.right (.code 1), _, both_right rfl rfl rfl⟩
    case close | clean => exact .inl ⟨.right (.code 0), _, both_right rfl rfl rfl⟩
  case returned errco => exact .inr (.inr ⟨errco, rfl⟩)
  all_goals exact hserver.elim

/-- The server receives the message in two pieces and cuts its first reply short, and receiving
fails for the client. -/
theorem received_replies_demo : ∃ (turns : List (Turn Answer)) (d : Client × Server × Connection),
    turns.foldlM (step fun _ => ' ') connected = some d ∧ d.2.2.inn.sent = [['H', 'e']] ∧
      d.2.2.inn.received.flatten <+: d.2.2.inn.sent.flatten := by
  have hrun : (List.foldlM (step fun _ => ' ') connected
      [.left (.code 21), .right (.data (some "Hello!".toList)), .right (.code 2),
        .left (.code 0), .right (.data (some " I am a client!".toList)),
        .left (.data (some ['H'])), .left (.data none)]).map (fun d => d.2.2.inn.sent) =
      some [['H', 'e']] := by decide +kernel
  obtain ⟨d, hd, hsent⟩ := Option.map_eq_some_iff.mp hrun
  exact ⟨_, d, hd, hsent, (received_replies rfl rfl hd).2.1⟩

lemma Session.returned_of_stuck (h : Session beyond d.1 d.2.1 d.2.2)
    (hstuck : ∀ turn, smoothStep beyond d turn = none) :
    ∃ m n, d.1.pc = .returned m ∧ d.2.1.pc = .returned n := by
  have hnone : ¬ ∃ turn d', smoothStep beyond d turn = some d' := by
    rintro ⟨turn, d', hd'⟩
    rw [hstuck turn] at hd'
    cases hd'
  have hclient := h.client
  have hserver := h.server
  have hserver_open := h.server_ready.resolve_left hnone
  rcases h.client_ready.resolve_left hnone with ⟨hpc, hopen⟩ | ⟨m, hm⟩
  · -- the client has shut down its side, so that the server does not wait for it
    have hclosed : d.2.2.out.closed := by simpa only [ClientAt, hpc] using hclient
    rcases hserver_open with ⟨-, hopen'⟩ | ⟨n, hn⟩
    · simp [hclosed] at hopen'
    · simp only [ServerAt, hn] at hserver
      simp [hserver.1] at hopen
  · have hclosed : d.2.2.out.closed := by simpa only [ClientAt, hm] using hclient
    rcases hserver_open with ⟨-, hopen'⟩ | ⟨n, hn⟩
    · simp [hclosed] at hopen'
    · exact ⟨m, n, hm, hn⟩

/-- Whatever was cut up and failed before, there are no more than 84 calls in a session, and until
both programs have returned one of them can make its next call without a failure. -/
theorem both_return (hc : c.pc = .send) (hs : s.pc = .recv)
    (h : turns.foldlM (step beyond) (c, s, .empty) = some d) :
    turns.length ≤ 84 ∧ ((∀ turn, smoothStep beyond d turn = none) →
      ∃ m n, d.1.pc = .returned m ∧ d.2.1.pc = .returned n) := by
  obtain ⟨hsession, hlength⟩ := session_run hc hs h
  have hsize : size c s .empty = 84 := by
    simp [size, hc, hs, clientLeft, serverLeft, message_length, Connection.empty,
      Stream.transit, Stream.empty]
  exact ⟨by omega, hsession.returned_of_stuck⟩

lemma stuck_of_returned {m n : ℤ} (hm : d.1.pc = .returned m) (hn : d.2.1.pc = .returned n)
    (turn : Turn Answer) : smoothStep beyond d turn = none := by
  cases turn <;>
    simp [smoothStep, both, Program.step, Client.program, Client.call, Server.program,
      Server.call, hm, hn]

/-- The client fails to send and the server finds its stream at its end. -/
theorem both_return_demo : ∃ (turns : List (Turn Answer)) (d : Client × Server × Connection),
    turns.foldlM (step fun _ => ' ') connected = some d ∧ turns.length ≤ 84 ∧
      ∃ m n, d.1.pc = .returned m ∧ d.2.1.pc = .returned n := by
  have hrun : (List.foldlM (step fun _ => ' ') connected
      [.left (.code (-1)), .left (.code 10054), .left (.code 0), .left (.code 0),
        .right (.data (some [])), .right (.code 0), .right (.code 0), .right (.code 0)]).map
      (fun d => (d.1.pc, d.2.1.pc)) = some (.returned 10054, .returned 0) := by decide +kernel
  obtain ⟨d, hd, hpcs⟩ := Option.map_eq_some_iff.mp hrun
  obtain ⟨hm, hn⟩ := Prod.mk.inj hpcs
  obtain ⟨hlength, hend⟩ := both_return rfl rfl hd
  exact ⟨_, d, hd, hlength, hend (stuck_of_returned hm hn)⟩

end Runs

section Smooth

/-- What the server sends for what it received, where no call fails. -/
def replies (beyond : ℕ → Char) (received : List (List Char)) : List (List Char) :=
  received.map fun chunk => Server.reply beyond chunk.length

/-- What holds where the client is, if no call fails. -/
def WholeClient (c : Client) (w : Connection) : Prop :=
  match c.pc with
  | .send => w.out.sent = [] ∧ w.out.closed = false
  | .shutdown => w.out.sent = [Client.message] ∧ w.out.closed = false
  | .recv => w.out.sent = [Client.message] ∧ w.out.closed
  | .close | .cleanup | .returned 0 => w.out.sent = [Client.message] ∧ w.out.closed ∧
      w.inn.closed ∧ w.inn.received.flatten = w.inn.sent.flatten
  | _ => False

/-- What holds where the server is, if no call fails. -/
def WholeServer (beyond : ℕ → Char) (s : Server) (w : Connection) : Prop :=
  match s.pc with
  | .recv => w.inn.closed = false ∧ w.inn.sent = replies beyond w.out.received
  | .send n => w.inn.closed = false ∧ ∃ answered chunk, w.out.received = answered ++ [chunk] ∧
      chunk.length = n ∧ w.inn.sent = replies beyond answered
  | .shutdown => w.inn.closed = false ∧ w.inn.sent = replies beyond w.out.received ∧
      w.out.closed ∧ w.out.received.flatten = w.out.sent.flatten
  | .close | .cleanup | .returned 0 => w.inn.closed ∧
      w.inn.sent = replies beyond w.out.received ∧ w.out.closed ∧
      w.out.received.flatten = w.out.sent.flatten
  | _ => False

variable {c c' : Client} {s s' : Server} {w w' : Connection} {call : Call} {a : Answer}
  {d : Client × Server × Connection} {turns : List (Turn Answer)}

lemma smoothly_eq_some {env : Environment Connection Call Answer}
    (h : smoothly env w call a = some w') : smooth call a ∧ env w call a = some w' := by
  unfold smoothly at h
  split_ifs at h with hsmooth
  exact ⟨hsmooth, h⟩

lemma WholeServer.of_open (h : WholeServer beyond s w) (hopen : w.out.closed = false)
    (hreceived : w'.out.received = w.out.received) (hinn : w'.inn = w.inn) :
    WholeServer beyond s w' := by
  unfold WholeServer at h ⊢
  split <;> simp_all

lemma WholeServer.congr (h : WholeServer beyond s w) (hout : w'.out = w.out)
    (hsent : w'.inn.sent = w.inn.sent) (hclosed : w'.inn.closed = w.inn.closed) :
    WholeServer beyond s w' := by
  simpa only [WholeServer, hout, hsent, hclosed] using h

lemma WholeClient.of_open (h : WholeClient c w) (hopen : w.inn.closed = false)
    (hsent : w'.out.sent = w.out.sent) (hclosed : w'.out.closed = w.out.closed) :
    WholeClient c w' := by
  unfold WholeClient at h ⊢
  split <;> simp_all

lemma WholeClient.congr (h : WholeClient c w) (hsent : w'.out.sent = w.out.sent)
    (hclosed : w'.out.closed = w.out.closed) (hinn : w'.inn = w.inn) : WholeClient c w' := by
  simpa only [WholeClient, hsent, hclosed, hinn] using h

lemma Stream.close_of_closed {t : Stream} (h : t.closed) : t.close = t := by
  cases t
  simp_all [Stream.close]

lemma whole_client_move (hclient : WholeClient c w) (hserver : WholeServer beyond s w)
    (hcall : c.call = some call) (hsmooth : smooth call a) (hmove : ClientMove c w a c' w') :
    WholeClient c' w' ∧ WholeServer beyond s w' := by
  cases hmove with
  | @sent k hpc hpos hk ha hpc' =>
    obtain ⟨hnone, hopen⟩ : w.out.sent = [] ∧ w.out.closed = false := by
      simpa only [WholeClient, hpc] using hclient
    obtain rfl : .send c.sock Client.message = call := by
      simpa only [Client.call, hpc, Option.some.injEq] using hcall
    obtain rfl : k = Client.message.length := by simpa [smooth, ha] using hsmooth
    refine ⟨?_, hserver.of_open hopen rfl rfl⟩
    simp only [WholeClient, hpc', Stream.push, hnone, List.take_length]
    exact ⟨rfl, hopen⟩
  | shut hpc hpc' =>
    obtain ⟨hsent, hopen⟩ : w.out.sent = [Client.message] ∧ w.out.closed = false := by
      simpa only [WholeClient, hpc] using hclient
    refine ⟨?_, hserver.of_open hopen rfl rfl⟩
    simp only [WholeClient, hpc', Stream.close, and_true]
    exact hsent
  | received hpc hbytes hpc' =>
    refine ⟨?_, hserver.congr rfl rfl rfl⟩
    simpa only [WholeClient, hpc, hpc'] using hclient
  | ended hpc hclosed hall hpc' =>
    refine ⟨?_, hserver⟩
    simp only [WholeClient, hpc, hpc'] at hclient ⊢
    exact ⟨hclient.1, hclient.2, hclosed, hall⟩
  | closed hpc hpc' =>
    simp only [WholeClient, hpc] at hclient
    rw [Stream.close_of_closed hclient.2.1]
    exact ⟨by simpa only [WholeClient, hpc'] using hclient, hserver⟩
  | cleaned hpc hpc' =>
    exact ⟨by simpa only [WholeClient, hpc, hpc'] using hclient, hserver⟩
  | recvFailed hpc ha hpc' =>
    obtain rfl : .recv c.sock BUFFERL = call := by
      simpa only [Client.call, hpc, Option.some.injEq] using hcall
    simp [smooth, ha] at hsmooth
  | failed hpc ha hpc' =>
    rcases hpc with hpc | hpc
    · obtain rfl : .send c.sock Client.message = call := by
        simpa only [Client.call, hpc, Option.some.injEq] using hcall
      simp [smooth, ha, SOCKET_ERROR, message_length] at hsmooth
    · obtain rfl : .shutdown c.sock = call := by
        simpa only [Client.call, hpc, Option.some.injEq] using hcall
      simp [smooth, ha, SOCKET_ERROR] at hsmooth
  | recvError hpc | failedError hpc | failedClose hpc | failedClean hpc =>
    simp only [WholeClient, hpc] at hclient

lemma whole_server_move (hclient : WholeClient c w) (hserver : WholeServer beyond s w)
    (hcall : s.call beyond = some call) (hsmooth : smooth call a)
    (hmove : ServerMove beyond s w a s' w') :
    WholeClient c w' ∧ WholeServer beyond s' w' := by
  cases hmove with
  | @received b bytes hpc hbytes hpc' =>
    refine ⟨hclient.congr rfl rfl rfl, ?_⟩
    simp only [WholeServer, hpc, hpc'] at hserver ⊢
    exact ⟨hserver.1, w.out.received, b :: bytes, rfl, rfl, hserver.2⟩
  | ended hpc hclosed hall hpc' =>
    refine ⟨hclient, ?_⟩
    simp only [WholeServer, hpc, hpc'] at hserver ⊢
    exact ⟨hserver.1, hserver.2, hclosed, hall⟩
  | @replied k n hpc hpos hk ha hpc' =>
    obtain ⟨hopen, answered, chunk, hchunk, rfl, hsent⟩ : w.inn.closed = false ∧
        ∃ answered chunk, w.out.received = answered ++ [chunk] ∧ chunk.length = n ∧
          w.inn.sent = replies beyond answered := by
      simpa only [WholeServer, hpc] using hserver
    obtain rfl : .send s.csock (Server.reply beyond chunk.length) = call := by
      simpa only [Server.call, hpc, Option.some.injEq] using hcall
    obtain rfl : k = chunk.length := by simpa [smooth, ha, reply_length] using hsmooth
    refine ⟨hclient.of_open hopen rfl rfl, ?_⟩
    simp only [WholeServer, hpc', Stream.push, hchunk, hsent, replies, List.map_append,
      List.map_cons, List.map_nil]
    rw [List.take_of_length_le (reply_length _).le]
    exact ⟨hopen, rfl⟩
  | shut hpc hpc' =>
    simp only [WholeServer, hpc] at hserver
    refine ⟨hclient.of_open hserver.1 rfl rfl, ?_⟩
    simpa only [WholeServer, hpc', Stream.close, true_and] using hserver.2
  | closed hpc hpc' =>
    simp only [WholeServer, hpc] at hserver
    rw [Stream.close_of_closed hserver.1]
    exact ⟨hclient, by simpa only [WholeServer, hpc'] using hserver⟩
  | cleaned hpc hpc' =>
    exact ⟨hclient, by simpa only [WholeServer, hpc, hpc'] using hserver⟩
  | failed hpc hpc' =>
    rcases hpc with ⟨hpc, rfl⟩ | ⟨hpc | ⟨n, hpc⟩, rfl⟩
    · obtain rfl : .recv s.csock BUFFERL = call := by
        simpa only [Server.call, hpc, Option.some.injEq] using hcall
      simp [smooth] at hsmooth
    · obtain rfl : .shutdown s.csock = call := by
        simpa only [Server.call, hpc, Option.some.injEq] using hcall
      simp [smooth, SOCKET_ERROR] at hsmooth
    · obtain rfl : .send s.csock (Server.reply beyond n) = call := by
        simpa only [Server.call, hpc, Option.some.injEq] using hcall
      simp [smooth, SOCKET_ERROR] at hsmooth
  | failedError hpc | failedClose hpc | failedClean hpc =>
    simp only [WholeServer, hpc] at hserver

theorem smooth_run (hc : c.pc = .send) (hs : s.pc = .recv)
    (h : turns.foldlM (smoothStep beyond) (c, s, .empty) = some d) :
    Session beyond d.1 d.2.1 d.2.2 ∧ WholeClient d.1 d.2.2 ∧ WholeServer beyond d.2.1 d.2.2 := by
  apply both_induction (motive := fun c s w => Session beyond c s w ∧ WholeClient c w ∧
    WholeServer beyond s w) ⟨session_start hc hs, _, _⟩ _ _ h
  · simp [WholeClient, hc, Connection.empty, Stream.empty]
  · simp [WholeServer, hs, Connection.empty, Stream.empty, replies]
  · rintro c s w call a c' w' ⟨hsession, hclient, hserver⟩ hcall henv hnext
    obtain ⟨hsmooth, henv⟩ := smoothly_eq_some henv
    have hmove := clientMove hsession.client hcall henv hnext
    exact ⟨hsession.client_move hmove, whole_client_move hclient hserver hcall hsmooth hmove⟩
  · rintro c s w call a s' w' ⟨hsession, hclient, hserver⟩ hcall henv hnext
    obtain ⟨hsmooth, henv⟩ := smoothly_eq_some henv
    have hmove := serverMove hsession.server hcall henv hnext
    exact ⟨hsession.server_move hmove, whole_server_move hclient hserver hcall hsmooth hmove⟩

lemma text_ne_of_two {m n : ℕ} {rest : List Char} (hm : 0 < m) (hn : 0 < n) :
    text.take m ++ (text.take n ++ rest) ≠ text := by
  intro heq
  have hdrop : text.take n ++ rest = text.drop m :=
    List.append_cancel_left (heq.trans (List.take_append_drop m text).symm)
  have htext : text = 'H' :: text.tail := by decide
  have hmem : 'H' ∈ text.drop m := by
    rw [← hdrop, htext, ← Nat.succ_pred_eq_of_pos hn]
    simp
  have htail : 'H' ∈ text.tail := by
    rw [← List.drop_one]
    exact (List.drop_suffix_drop_left text hm).subset hmem
  exact absurd htail (by decide)

/-- Where no call fails and all is sent at once, both programs end well, the server has received
the message and the client a beginning of the greeting for each piece of it. These make up the
greeting exactly if the server received the message in one piece. -/
theorem greeting_whole_iff (hc : c.pc = .send) (hs : s.pc = .recv)
    (h : turns.foldlM (smoothStep beyond) (c, s, .empty) = some d)
    (hstuck : ∀ turn, smoothStep beyond d turn = none) :
    d.1.pc = .returned 0 ∧ d.2.1.pc = .returned 0 ∧
      d.2.2.out.received.flatten = Client.message ∧
      d.2.2.inn.received.flatten =
        (d.2.2.out.received.map fun chunk => text.take chunk.length).flatten ∧
      (d.2.2.inn.received.flatten = text ↔ d.2.2.out.received = [Client.message]) := by
  obtain ⟨hsession, hclient, hserver⟩ := smooth_run hc hs h
  obtain ⟨m, n, hm, hn⟩ := hsession.returned_of_stuck hstuck
  obtain ⟨rfl, hsent, -, -, hdown⟩ : m = 0 ∧ d.2.2.out.sent = [Client.message] ∧
      d.2.2.out.closed ∧ d.2.2.inn.closed ∧
      d.2.2.inn.received.flatten = d.2.2.inn.sent.flatten := by
    simp only [WholeClient, hm] at hclient
    split at hclient <;> simp_all
  obtain ⟨rfl, hreplies, hup⟩ : n = 0 ∧ d.2.2.inn.sent = replies beyond d.2.2.out.received ∧
      d.2.2.out.received.flatten = d.2.2.out.sent.flatten := by
    simp only [WholeServer, hn] at hserver
    split at hserver <;> simp_all
  have hmessage : d.2.2.out.received.flatten = Client.message := by
    rw [hup, hsent, List.flatten_singleton]
  have hgreet : d.2.2.inn.received.flatten =
      (d.2.2.out.received.map fun chunk => text.take chunk.length).flatten := by
    rw [hdown, hreplies, replies]
    congr 1
    apply List.map_congr_left
    intro chunk hchunk
    exact reply_of_le (hsession.chunk_le hchunk)
  refine ⟨hm, hn, hmessage, hgreet, ?_⟩
  rw [hgreet]
  constructor
  · intro heq
    rcases hchunks : d.2.2.out.received with _ | ⟨chunk, _ | ⟨chunk', chunks⟩⟩ <;>
      rw [hchunks] at heq hmessage
    · exact absurd heq (by decide)
    · rw [← hmessage, List.flatten_singleton]
    · -- the reply to a second piece begins the greeting again
      have hne := hsession.up.nonempty
      rw [hchunks] at hne
      have hpos := List.length_pos_of_ne_nil (hne chunk (by simp))
      have hpos' := List.length_pos_of_ne_nil (hne chunk' (by simp))
      simp only [List.map_cons, List.flatten_cons] at heq
      exact absurd heq (text_ne_of_two hpos hpos')
  · intro hone
    rw [hone]
    decide

/-- The server receives the message in two pieces, and the client twice the start of the
greeting. -/
theorem greeting_whole_iff_demo : ∃ (turns : List (Turn Answer)) (d : Client × Server × Connection),
    turns.foldlM (smoothStep fun _ => ' ') connected = some d ∧
      d.2.2.out.received.length = 2 ∧ d.2.2.inn.received.flatten ≠ text := by
  have hrun : (List.foldlM (smoothStep fun _ => ' ') connected
      [.left (.code 21), .left (.code 0), .right (.data (some "Hello!".toList)),
        .right (.code 6), .right (.data (some " I am a client!".toList)), .right (.code 15),
        .right (.data (some [])), .right (.code 0), .right (.code 0), .right (.code 0),
        .left (.data (some "Hello!Hello! I am a s".toList)), .left (.data (some [])),
        .left (.code 0), .left (.code 0)]).map
      (fun d => (d.1.pc, d.2.1.pc, d.2.2.out.received.length)) =
      some (.returned 0, .returned 0, 2) := by decide +kernel
  obtain ⟨d, hd, hend⟩ := Option.map_eq_some_iff.mp hrun
  simp only [Prod.mk.injEq] at hend
  obtain ⟨hm, hn, hlength⟩ := hend
  obtain ⟨-, -, -, -, hiff⟩ := greeting_whole_iff rfl rfl hd (stuck_of_returned hm hn)
  refine ⟨_, d, hd, hlength, fun htext => ?_⟩
  rw [hiff.mp htext] at hlength
  cases hlength

end Smooth

end Eece315.SocketsSession
