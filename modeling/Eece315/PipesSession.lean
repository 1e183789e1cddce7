import Mathlib
import Eece315.PipesMoves

/-! The protocol over the named pipe: the client asks, the server hears it and replies, the client
hears the reply. The two programs make their calls in any order and some calls may fail. A session
goes through phases, which say where each program may be and what lies in the pipe. -/
namespace Eece315.PipesSession

open StepRuns CallPrograms PipesPrograms PipesMoves

/-- How far the exchange of the messages has come. The reply is lost when the server disconnects
before the client has read it. -/
inductive Phase
  | absent
  | listening
  | attached
  | asked
  | heard
  | replied
  | answered
  | lost
  deriving DecidableEq, Repr

/-- What is printed of a message. -/
def messageFrom (sender msg : String) : Option String := some s!"Message from {sender}: {msg}\n"

def heard : Option String := messageFrom "client" CLIENT_MSG

def answer : Option String := messageFrom "server" SERVER_MSG

def Holding {Pc : Type} (p : Party Pc) (msg : String) : Prop :=
  SocketsPrograms.cString p.recv_buf = some msg

/-- Where the server may be in a phase, and what it has read and printed. -/
def ServerAt (phase : Phase) (s : Server) : Prop :=
  match s.pc with
  | .create | .createError => phase = .absent ∧ s.printed = []
  | .connect | .read => phase ∈ [.listening, .attached, .asked] ∧ s.printed = []
  | .print => phase = .heard ∧ s.printed = [] ∧ Holding s CLIENT_MSG
  | .write | .writeError => phase = .heard ∧ s.printed = [heard]
  | .flush | .disconnect => phase ∈ [.replied, .answered] ∧ s.printed = [heard]
  | .close => phase ∈ [.replied, .answered, .lost] ∧ s.printed = [heard]
  | .exit code | .returned code =>
    (code = 0 ∧ phase ∈ [.replied, .answered, .lost] ∧ s.printed = [heard]) ∨
    (code = 1 ∧ phase = .absent ∧ s.printed.count heard = 0) ∨
    code = 1 ∧ phase = .heard ∧ s.printed.count heard = 1

def ClientAt (phase : Phase) (c : Client) : Prop :=
  match c.pc with
  | .wait | .waitError => phase ∈ [.absent, .listening] ∧ c.printed = []
  | .create | .createError => phase = .listening ∧ c.printed = []
  | .write | .writeError => phase = .attached ∧ c.printed = []
  | .flush | .read => phase ∈ [.asked, .heard, .replied, .lost] ∧ c.printed = []
  | .print => phase = .answered ∧ c.printed = [] ∧ Holding c SERVER_MSG
  | .close => phase = .answered ∧ c.printed = [answer] ∧ Holding c SERVER_MSG
  | .exit code | .returned code =>
    (code = 0 ∧ phase = .answered ∧ c.printed = [answer] ∧ Holding c SERVER_MSG) ∨
    code = 1 ∧ phase ∈ [.absent, .listening, .attached] ∧ c.printed.count answer = 0

def PipeAt (phase : Phase) (w : Pipe) : Prop :=
  match phase with
  | .absent => w.link = .absent
  | .listening => w.link = .listening ∧ w.name = SERV_PIPE ∧ w.near.sent = [] ∧ w.far.sent = []
  | .attached | .heard => w.link = .attached ∧ w.near.sent = [] ∧ w.far.sent = []
  | .asked => w.link = .attached ∧ w.near.sent = [] ∧ w.far.sent = [toSend CLIENT_MSG]
  | .replied => w.link = .attached ∧ w.near.sent = [toSend SERVER_MSG] ∧ w.far.sent = []
  | .answered => w.link ≠ .absent ∧ w.near.sent = [] ∧ w.far.sent = []
  | .lost => w.link = .disconnected ∧ w.near.sent = [] ∧ w.far.sent = []

/-- The server has a handle from its creation on until it closes it. -/
def ServerHolds (s : Server) : Prop :=
  s.pc ∈ [.connect, .read, .print, .write, .writeError, .flush, .disconnect, .close]

def ClientHolds (c : Client) : Prop := c.pc ∈ [.write, .writeError, .flush, .read, .print, .close]

structure At (phase : Phase) (s : Server) (c : Client) (w : Pipe) : Prop where
  server : ServerAt phase s
  client : ClientAt phase c
  pipe : PipeAt phase w
  near : ServerHolds s → w.near.isOpen
  far : ClientHolds c → w.far.isOpen

section Lines

variable {Pc : Type} {msg : String}

lemma holding_receive (hmsg : '\x00' ∉ msg.toList) (p : Party Pc) (pc : Pc) :
    Holding (p.receive (toSend msg) pc) msg := by
  have htake : (SocketsPrograms.recvInto p.recv_buf (toSend msg)).takeWhile (· ≠ '\x00') =
      msg.toList := by
    rw [SocketsPrograms.recvInto, toSend, List.append_assoc, List.takeWhile_append_of_pos]
    · simp
    · intro c hc
      have hne : c ≠ '\x00' := fun heq => hmsg (heq ▸ hc)
      simpa using hne
  rw [Holding, Party.receive, SocketsPrograms.cString,
    if_pos (by simp [SocketsPrograms.recvInto, toSend]), htake, String.ofList_toList]

lemma printed_printMessage {p : Party Pc} (h : Holding p msg) (hprinted : p.printed = [])
    (sender : String) (pc : Pc) :
    (p.printMessage sender pc).printed = [messageFrom sender msg] := by
  have hbuffer : SocketsPrograms.cString p.recv_buf = some msg := h
  simp only [Party.printMessage, hprinted, hbuffer, Option.map_some, messageFrom, List.nil_append]

lemma toString_self (t : String) : toString t = t := rfl

lemma error_ne {line : String} (hline : line.toList.head? ≠ some 'M') (sender : String) :
    messageFrom sender msg ≠ some line := by
  intro h
  apply hline
  rw [← Option.some.inj h]
  simp [toString_self "Message from "]

lemma count_print {line sender : String} (hline : line.toList.head? ≠ some 'M') (p : Party Pc)
    (pc : Pc) : (p.print line pc).printed.count (messageFrom sender msg) =
      p.printed.count (messageFrom sender msg) := by
  rw [Party.print, List.count_append, List.count_singleton,
    if_neg (by simpa using (error_ne hline sender).symm), Nat.add_zero]

end Lines

section Steps

variable {may : Call → Bool} {phase phase' : Phase} {s s' : Server} {c c' : Client} {w w' : Pipe}

lemma ClientAt.listen (h : ClientAt .absent c) : ClientAt .listening c := by
  obtain ⟨pc, recv_buf, printed⟩ := c
  cases pc <;> simp_all [ClientAt]

lemma ClientAt.not_holds (h : ClientAt phase c) (hp : phase ∈ [.absent, .listening]) :
    ¬ ClientHolds c := by
  obtain ⟨pc, recv_buf, printed⟩ := c
  fin_cases hp <;> cases pc <;> simp_all [ClientAt, ClientHolds]

lemma ClientAt.onward (h : ClientAt phase c) (hp : phase ∈ [.asked, .heard, .replied, .lost])
    (hp' : phase' ∈ [.asked, .heard, .replied, .lost]) : ClientAt phase' c := by
  obtain ⟨pc, recv_buf, printed⟩ := c
  cases pc
  case flush => exact ⟨hp', h.2⟩
  case read => exact ⟨hp', h.2⟩
  all_goals
    simp only [ClientAt] at h
    fin_cases hp <;> simp at h

lemma ClientAt.holds (h : ClientAt phase c) (hp : phase ∈ [.asked, .heard, .replied, .lost]) :
    ClientHolds c := by
  obtain ⟨pc, recv_buf, printed⟩ := c
  fin_cases hp <;> cases pc <;> simp_all [ClientAt, ClientHolds]

lemma ServerAt.wait (h : ServerAt phase s) (hp : phase ∈ [.listening, .attached, .asked])
    (hp' : phase' ∈ [.listening, .attached, .asked]) : ServerAt phase' s := by
  obtain ⟨pc, recv_buf, printed⟩ := s
  cases pc
  case connect => exact ⟨hp', h.2⟩
  case read => exact ⟨hp', h.2⟩
  all_goals
    simp only [ServerAt] at h
    fin_cases hp <;> simp at h

lemma ServerAt.answered (h : ServerAt .replied s) : ServerAt .answered s := by
  obtain ⟨pc, recv_buf, printed⟩ := s
  cases pc <;> simp_all [ServerAt]

lemma At.server_stay (h : At phase s c w) (hserver : ServerAt phase s')
    (hholds : ServerHolds s' → ServerHolds s) : At phase s' c w :=
  ⟨hserver, h.client, h.pipe, fun hs => h.near (hholds hs), h.far⟩

lemma At.server_close (h : At phase s c w) (hserver : ServerAt phase s')
    (hholds : ¬ ServerHolds s') (hp : phase ∉ [.listening, .attached, .asked]) :
    At phase s' c w.close := by
  refine ⟨hserver, h.client, ?_, fun hs => absurd hs hholds, h.far⟩
  have hpipe := h.pipe
  cases phase <;> exact hpipe

lemma At.server_move (h : At phase s c w) (hmove : ServerMove may s w s' w') :
    ∃ phase', At phase' s' c w' := by
  have hserver := h.server
  obtain ⟨pc, recv_buf, printed⟩ := s
  cases hmove with
  | created hpc hlink =>
    obtain rfl : pc = .create := hpc
    obtain ⟨rfl, rfl⟩ := hserver
    refine ⟨.listening, ⟨by simp, rfl⟩, h.client.listen, ⟨rfl, rfl, rfl, rfl⟩, fun _ => rfl, ?_⟩
    exact fun hholds => absurd hholds (h.client.not_holds (by simp))
  | createFailed hpc hmay =>
    obtain rfl : pc = .create := hpc
    exact ⟨phase, h.server_stay hserver (by simp [ServerHolds, Party.goto])⟩
  | createError hpc errco =>
    obtain rfl : pc = .createError := hpc
    obtain ⟨rfl, rfl⟩ := hserver
    refine ⟨.absent, h.server_stay (.inr (.inl ⟨rfl, rfl, ?_⟩))
      (by simp [ServerHolds, Party.print])⟩
    rw [heard, count_print (by simp [toString_self]), List.count_nil]
  | connected hpc hlink =>
    obtain rfl : pc = .connect := hpc
    exact ⟨phase, h.server_stay hserver (by simp [ServerHolds])⟩
  | readFailed hpc hread => exact ⟨phase, h⟩
  | heard hpc m rest hlink hsent =>
    obtain rfl : pc = .read := hpc
    obtain ⟨hphase, rfl⟩ := hserver
    have hpipe := h.pipe
    obtain rfl : phase = .asked := by
      fin_cases hphase
      · exact absurd (hlink.symm.trans hpipe.1) (by simp)
      · exact absurd (hsent.symm.trans hpipe.2.2) (by simp)
      · rfl
    obtain ⟨rfl, rfl⟩ := List.cons.inj (hsent.symm.trans hpipe.2.2)
    refine ⟨.heard, ⟨rfl, rfl, holding_receive (by decide) _ _⟩,
      h.client.onward (by simp) (by simp), ⟨hlink, hpipe.2.1, rfl⟩,
      fun _ => h.near (by simp [ServerHolds]), h.far⟩
  | printed hpc =>
    obtain rfl : pc = .print := hpc
    obtain ⟨rfl, hprinted, hholding⟩ := hserver
    exact ⟨.heard, h.server_stay ⟨rfl, printed_printMessage hholding hprinted _ _⟩
      (by simp [ServerHolds])⟩
  | wrote hpc hwrite =>
    obtain rfl : pc = .write := hpc
    obtain ⟨rfl, rfl⟩ := hserver
    have hpipe := h.pipe
    refine ⟨.replied, ⟨by simp, rfl⟩, h.client.onward (by simp) (by simp),
      ⟨hpipe.1, ?_, hpipe.2.2⟩, fun _ => h.near (by simp [ServerHolds]), h.far⟩
    rw [Pipe.push, hpipe.2.1, List.nil_append]
  | writeFailed hpc hwrite =>
    obtain rfl : pc = .write := hpc
    exact ⟨phase, h.server_stay hserver (by simp [ServerHolds])⟩
  | writeError hpc errco =>
    obtain rfl : pc = .writeError := hpc
    obtain ⟨rfl, rfl⟩ := hserver
    refine ⟨.heard, h.server_stay (.inr (.inr ⟨rfl, rfl, ?_⟩)) (by simp [ServerHolds])⟩
    rw [heard, count_print (by simp [toString_self]), ← heard, List.count_singleton_self]
  | flushed hpc hflush =>
    obtain rfl : pc = .flush := hpc
    exact ⟨phase, h.server_stay hserver (by simp [ServerHolds])⟩
  | disconnected hpc =>
    obtain rfl : pc = .disconnect := hpc
    obtain ⟨hphase, rfl⟩ := hserver
    have hnear : ServerHolds ⟨.disconnect, recv_buf, [heard]⟩ := by simp [ServerHolds]
    fin_cases hphase
    · exact ⟨.lost, ⟨by simp, rfl⟩, h.client.onward (by simp) (by simp), ⟨rfl, rfl, rfl⟩,
        fun _ => h.near hnear, h.far⟩
    · exact ⟨.answered, ⟨by simp, rfl⟩, h.client, ⟨by simp [Pipe.disconnect], rfl, rfl⟩,
        fun _ => h.near hnear, h.far⟩
  | disconnectFailed hpc =>
    obtain rfl : pc = .disconnect := hpc
    obtain ⟨hphase, rfl⟩ := hserver
    refine ⟨phase, h.server_stay ⟨?_, rfl⟩ (by simp [ServerHolds])⟩
    fin_cases hphase <;> simp
  | closed hpc =>
    obtain rfl : pc = .close := hpc
    refine ⟨phase, h.server_close (.inl ⟨rfl, hserver⟩) (by simp [ServerHolds, Party.goto]) ?_⟩
    obtain ⟨hphase, -⟩ := hserver
    fin_cases hphase <;> simp
  | closeFailed hpc =>
    obtain rfl : pc = .close := hpc
    exact ⟨phase, h.server_stay (.inl ⟨rfl, hserver⟩) (by simp [ServerHolds])⟩
  | exited code hpc =>
    obtain rfl : pc = .exit code := hpc
    refine ⟨phase, h.server_close hserver (by simp [ServerHolds, Party.goto]) ?_⟩
    rcases hserver with ⟨-, hphase, -⟩ | ⟨-, rfl, -⟩ | ⟨-, rfl, -⟩
    · fin_cases hphase <;> simp
    · simp
    · simp

lemma At.client_stay (h : At phase s c w) (hclient : ClientAt phase c')
    (hholds : ClientHolds c' → ClientHolds c) : At phase s c' w :=
  ⟨h.server, hclient, h.pipe, h.near, fun hc => h.far (hholds hc)⟩

lemma At.client_close (h : At phase s c w) (hclient : ClientAt phase c')
    (hholds : ¬ ClientHolds c') : At phase s c' w.flip.close.flip := by
  refine ⟨h.server, hclient, ?_, h.near, fun hc => absurd hc hholds⟩
  have hpipe := h.pipe
  cases phase <;> exact hpipe

lemma At.client_move (h : At phase s c w) (hmove : ClientMove may c w c' w') :
    ∃ phase', At phase' s c' w' := by
  have hclient := h.client
  obtain ⟨pc, recv_buf, printed⟩ := c
  cases hmove with
  | waited hpc havailable =>
    obtain rfl : pc = .wait := hpc
    obtain ⟨hphase, rfl⟩ := hclient
    obtain rfl : phase = .listening := by
      fin_cases hphase
      · exact absurd (havailable.1.symm.trans h.pipe) (by simp)
      · rfl
    exact ⟨.listening, h.client_stay ⟨rfl, rfl⟩ (by simp [ClientHolds, Party.goto])⟩
  | waitFailed hpc havailable =>
    obtain rfl : pc = .wait := hpc
    exact ⟨phase, h.client_stay hclient (by simp [ClientHolds, Party.goto])⟩
  | waitError hpc errco =>
    obtain rfl : pc = .waitError := hpc
    obtain ⟨hphase, rfl⟩ := hclient
    refine ⟨phase, h.client_stay (.inr ⟨rfl, ?_, ?_⟩) (by simp [ClientHolds, Party.print])⟩
    · fin_cases hphase <;> simp
    · rw [answer, count_print (by simp [toString_self]), List.count_nil]
  | created hpc havailable =>
    obtain rfl : pc = .create := hpc
    obtain ⟨rfl, rfl⟩ := hclient
    exact ⟨.attached, h.server.wait (by simp) (by simp), ⟨rfl, rfl⟩, ⟨rfl, h.pipe.2.2.1, rfl⟩,
      h.near, fun _ => rfl⟩
  | createFailed hpc havailable =>
    obtain rfl : pc = .create := hpc
    exact ⟨phase, h.client_stay hclient (by simp [ClientHolds, Party.goto])⟩
  | createError hpc errco =>
    obtain rfl : pc = .createError := hpc
    obtain ⟨rfl, rfl⟩ := hclient
    refine ⟨.listening, h.client_stay (.inr ⟨rfl, by simp, ?_⟩)
      (by simp [ClientHolds, Party.print])⟩
    rw [answer, count_print (by simp [toString_self]), List.count_nil]
  | wrote hpc hwrite =>
    obtain rfl : pc = .write := hpc
    obtain ⟨rfl, rfl⟩ := hclient
    have hpipe := h.pipe
    refine ⟨.asked, h.server.wait (by simp) (by simp), ⟨by simp, rfl⟩,
      ⟨hpipe.1, hpipe.2.1, ?_⟩, h.near, fun _ => h.far (by simp [ClientHolds])⟩
    simp only [Pipe.flip, Pipe.push, hpipe.2.2, List.nil_append]
  | writeFailed hpc hwrite =>
    obtain rfl : pc = .write := hpc
    exact ⟨phase, h.client_stay hclient (by simp [ClientHolds])⟩
  | writeError hpc errco =>
    obtain rfl : pc = .writeError := hpc
    obtain ⟨rfl, rfl⟩ := hclient
    refine ⟨.attached, h.client_stay (.inr ⟨rfl, by simp, ?_⟩) (by simp [ClientHolds])⟩
    rw [answer, count_print (by simp [toString_self]), List.count_nil]
  | flushed hpc hflush =>
    obtain rfl : pc = .flush := hpc
    exact ⟨phase, h.client_stay hclient (by simp [ClientHolds])⟩
  | readFailed hpc hread => exact ⟨phase, h⟩
  | heard hpc m rest hlink hsent =>
    obtain rfl : pc = .read := hpc
    obtain ⟨hphase, rfl⟩ := hclient
    have hpipe := h.pipe
    obtain rfl : phase = .replied := by
      fin_cases hphase
      · exact absurd (hsent.symm.trans hpipe.2.1) (by simp)
      · exact absurd (hsent.symm.trans hpipe.2.1) (by simp)
      · rfl
      · exact absurd (hsent.symm.trans hpipe.2.1) (by simp)
    obtain ⟨rfl, rfl⟩ := List.cons.inj (hsent.symm.trans hpipe.2.1)
    refine ⟨.answered, h.server.answered, ⟨rfl, rfl, holding_receive (by decide) _ _⟩,
      ⟨?_, rfl, hpipe.2.2⟩, h.near, fun _ => h.far (by simp [ClientHolds])⟩
    simp [Pipe.flip, Pipe.pull, hlink]
  | printed hpc =>
    obtain rfl : pc = .print := hpc
    obtain ⟨rfl, hprinted, hholding⟩ := hclient
    exact ⟨.answered, h.client_stay ⟨rfl, printed_printMessage hholding hprinted _ _, hholding⟩
      (by simp [ClientHolds])⟩
  | closed hpc =>
    obtain rfl : pc = .close := hpc
    exact ⟨phase, h.client_close (.inl ⟨rfl, hclient⟩) (by simp [ClientHolds, Party.goto])⟩
  | closeFailed hpc =>
    obtain rfl : pc = .close := hpc
    exact ⟨phase, h.client_stay (.inl ⟨rfl, hclient⟩) (by simp [ClientHolds])⟩
  | exited code hpc =>
    obtain rfl : pc = .exit code := hpc
    exact ⟨phase, h.client_close hclient (by simp [ClientHolds, Party.goto])⟩

end Steps

def start (stack stack' : List Char) : Server × Client × Pipe :=
  (Server.main stack, Client.main stack', .absent)

section Runs

variable {may : Call → Bool} {phase : Phase} {s s' : Server} {c c' : Client} {w w' : Pipe}
  {stack stack' : List Char} {turns : List (Turn Answer)} {d : Server × Client × Pipe}

lemma at_start (stack stack' : List Char) :
    At .absent (Server.main stack) (Client.main stack') .absent :=
  ⟨⟨rfl, rfl⟩, ⟨by simp, rfl⟩, rfl, by simp [ServerHolds, Server.main],
    by simp [ClientHolds, Client.main]⟩

theorem at_run (h : turns.foldlM (step may) (start stack stack') = some d) :
    ∃ phase, At phase d.1 d.2.1 d.2.2 := by
  apply both_induction (motive := fun s c w => ∃ phase, At phase s c w) ⟨_, at_start _ _⟩ _ _ h
  · intro s c w call a s' w' hat hcall henv hnext
    exact hat.choose_spec.server_move (serverMove hcall henv hnext)
  · intro s c w call a c' w' hat hcall henv hnext
    exact hat.choose_spec.client_move (clientMove hcall henv hnext)

lemma ServerAt.count (h : ServerAt phase s) : s.printed.count heard ≤
    if phase ∈ [.heard, .replied, .answered, .lost] then 1 else 0 := by
  obtain ⟨pc, recv_buf, printed⟩ := s
  cases pc
  case exit code | returned code =>
    rcases h with ⟨-, hphase, rfl⟩ | ⟨-, rfl, hcount⟩ | ⟨-, rfl, hcount⟩
    · fin_cases hphase <;> simp
    · simpa using hcount
    · simpa using hcount.le
  case print =>
    obtain ⟨rfl, rfl, -⟩ := h
    simp
  all_goals
    obtain ⟨hphase, rfl⟩ := h
    first
      | subst hphase
        simp
      | fin_cases hphase <;> simp

lemma ServerAt.printed_answered (h : ServerAt .answered s) :
    s.printed = [heard] ∧ s.pc ≠ .returned 1 := by
  obtain ⟨pc, recv_buf, printed⟩ := s
  cases pc <;> simp_all [ServerAt]

lemma ClientAt.count (h : ClientAt phase c) : c.printed.count answer ≤
    if phase = .answered then 1 else 0 := by
  obtain ⟨pc, recv_buf, printed⟩ := c
  cases pc
  case exit code | returned code =>
    rcases h with ⟨-, rfl, rfl, -⟩ | ⟨-, hphase, hcount⟩
    · simp
    · fin_cases hphase <;> simpa using hcount
  case print | close =>
    obtain ⟨rfl, rfl, -⟩ := h
    simp
  all_goals
    obtain ⟨hphase, rfl⟩ := h
    first
      | subst hphase
        simp
      | fin_cases hphase <;> simp

/-- Whichever calls fail: the server that returns 0 has printed the message of the client and
nothing else, the client that returns 0 has printed the reply to it, and if one of them returns 1
the other has no message after all, or never gets the reply. -/
theorem handshake (h : turns.foldlM (step may) (start stack stack') = some d) :
    (d.1.pc = .returned 0 → d.1.printed = [heard] ∧ d.2.1.pc ≠ .returned 1) ∧
      (d.2.1.pc = .returned 0 →
        d.2.1.printed = [answer] ∧ d.1.printed = [heard] ∧ d.1.pc ≠ .returned 1) ∧
      (d.2.1.pc = .returned 1 → heard ∉ d.1.printed) ∧
      (d.1.pc = .returned 1 → answer ∉ d.2.1.printed) ∧
      d.1.printed.count heard ≤ 1 ∧ d.2.1.printed.count answer ≤ 1 := by
  obtain ⟨phase, hserver, hclient, -⟩ := at_run h
  have hheard := hserver.count
  have hanswer := hclient.count
  refine ⟨?_, ?_, ?_, ?_, ?_, ?_⟩
  · intro hs
    simp only [ServerAt, hs] at hserver
    obtain ⟨hphase, hprinted⟩ : phase ∈ [.replied, .answered, .lost] ∧ d.1.printed = [heard] := by
      simpa using hserver
    refine ⟨hprinted, fun hc => ?_⟩
    simp only [ClientAt, hc] at hclient
    fin_cases hphase <;> simp at hclient
  · intro hc
    simp only [ClientAt, hc] at hclient
    obtain ⟨rfl, hprinted, -⟩ : phase = .answered ∧ d.2.1.printed = [answer] ∧ _ := by
      simpa using hclient
    exact ⟨hprinted, hserver.printed_answered⟩
  · intro hc
    simp only [ClientAt, hc] at hclient
    rw [← List.count_eq_zero]
    obtain ⟨hphase, -⟩ : phase ∈ [.absent, .listening, .attached] ∧ _ := by simpa using hclient
    fin_cases hphase <;> exact Nat.le_zero.mp hheard
  · intro hs
    simp only [ServerAt, hs] at hserver
    rw [← List.count_eq_zero]
    rcases hserver with ⟨h0, -⟩ | ⟨-, rfl, -⟩ | ⟨-, rfl, -⟩
    · cases h0
    · exact Nat.le_zero.mp hanswer
    · exact Nat.le_zero.mp hanswer
  · apply hheard.trans
    split_ifs <;> omega
  · apply hanswer.trans
    split_ifs <;> omega

/-- The client cannot write, and the server reads on and on. -/
theorem handshake_demo : ∃ (turns : List (Turn Answer)) (d : Server × Client × Pipe),
    turns.foldlM (step fun _ => true) (start [] []) = some d ∧ d.2.1.pc = .returned 1 ∧
      d.1.pc = .read ∧ heard ∉ d.1.printed := by
  have hrun : (List.foldlM (step fun _ => true) (start [] [])
      [.left (.success true), .right (.success true), .right (.success true),
        .left (.success true), .right (.success false), .right (.code 232),
        .left (.message none), .right (.success true), .left (.message none)]).map
      (fun d => (d.1.pc, d.2.1.pc)) = some (.read, .returned 1) := by decide +kernel
  obtain ⟨d, hd, hend⟩ := Option.map_eq_some_iff.mp hrun
  obtain ⟨hs, hc⟩ := Prod.mk.inj hend
  exact ⟨_, d, hd, hc, hs, (handshake hd).2.2.1 hc⟩

/-- The client is past its read. -/
def Finished (c : Client) : Prop := c.pc ∈ [.print, .close, .exit 0, .returned 0]

lemma ClientAt.finished (h : ClientAt .answered c) : Finished c ∧ Holding c SERVER_MSG := by
  obtain ⟨pc, recv_buf, printed⟩ := c
  cases pc <;> simp_all [ClientAt, Finished, Holding]

lemma At.flushed (h : At phase s c w) (hpc : s.pc = .flush)
    (hflush : w.near.sent = [] ∨ ¬ w.Writable) : Finished c ∧ Holding c SERVER_MSG := by
  obtain ⟨hphase, -⟩ : phase ∈ [.replied, .answered] ∧ s.printed = [heard] := by
    simpa only [ServerAt, hpc] using h.server
  fin_cases hphase
  · obtain ⟨hlink, hnear, -⟩ := h.pipe
    rcases hflush with hsent | hwrite
    · exact absurd (hnear.symm.trans hsent) (by simp)
    · exact absurd ⟨hlink, h.far (h.client.holds (by simp))⟩ hwrite
  · exact h.client.finished

lemma Finished.move (h : Finished c) (hholding : Holding c SERVER_MSG)
    (hmove : ClientMove may c w c' w') : Finished c' ∧ Holding c' SERVER_MSG := by
  obtain ⟨pc, recv_buf, printed⟩ := c
  cases hmove with
  | printed hpc => exact ⟨by simp [Finished, Party.printMessage], hholding⟩
  | closed hpc => exact ⟨by simp [Finished, Party.goto], hholding⟩
  | closeFailed hpc => exact ⟨by simp [Finished, Party.goto], hholding⟩
  | exited code hpc =>
    obtain rfl : pc = .exit code := hpc
    obtain rfl : code = 0 := by simpa [Finished] using h
    exact ⟨by simp [Finished, Party.goto], hholding⟩
  | _ => simp_all [Finished]

/-- If no flush fails of itself, then the server disconnects only when the client has read the
reply, whatever else may fail. -/
theorem reply_delivered (hmay : may .flushFileBuffers = false)
    (h : turns.foldlM (step may) (start stack stack') = some d)
    (hs : d.1.pc ∈ [.disconnect, .close, .exit 0, .returned 0]) :
    Finished d.2.1 ∧ Holding d.2.1 SERVER_MSG := by
  have hrun := both_induction (motive := fun s c w => (∃ phase, At phase s c w) ∧
      (s.pc ∈ [.disconnect, .close, .exit 0, .returned 0] →
        Finished c ∧ Holding c SERVER_MSG))
    ⟨⟨_, at_start stack stack'⟩, by simp [start, Server.main]⟩ ?_ ?_ h
  · exact hrun.2 hs
  · rintro s c w call a s' w' ⟨⟨phase, hat⟩, hanswer⟩ hcall henv hnext
    have hmove := serverMove hcall henv hnext
    refine ⟨hat.server_move hmove, ?_⟩
    cases hmove with
    | flushed hpc hflush =>
      exact fun _ => hat.flushed hpc (hflush.resolve_right (by simp [hmay]))
    | disconnected hpc => exact fun _ => hanswer (by simp [hpc])
    | disconnectFailed hpc => exact fun _ => hanswer (by simp [hpc])
    | closed hpc => exact fun _ => hanswer (by simp [hpc])
    | closeFailed hpc => exact fun _ => hanswer (by simp [hpc])
    | exited code hpc =>
      intro hcode
      apply hanswer
      simpa [Party.goto, hpc] using hcode
    | readFailed hpc hread => exact hanswer
    | _ =>
      exact fun hpc' => absurd hpc'
        (by simp [Party.goto, Party.print, Party.receive, Party.printMessage])
  · rintro s c w call a c' w' ⟨⟨phase, hat⟩, hanswer⟩ hcall henv hnext
    have hmove := clientMove hcall henv hnext
    refine ⟨hat.client_move hmove, fun hpc => ?_⟩
    obtain ⟨hfinished, hholding⟩ := hanswer hpc
    exact hfinished.move hholding hmove

/-- The server comes to the disconnect before the client has printed the reply. -/
theorem reply_delivered_demo : ∃ (turns : List (Turn Answer)) (d : Server × Client × Pipe),
    turns.foldlM (step fun call => call = .connectNamedPipe) (start [] []) = some d ∧
      d.1.pc = .disconnect ∧ d.2.1.printed = [] ∧ Finished d.2.1 ∧
      Holding d.2.1 SERVER_MSG := by
  have hrun : (List.foldlM (step fun call => call = .connectNamedPipe) (start [] [])
      [.left (.success true), .right (.success true), .left (.success false),
        .left (.message none), .right (.success true), .right (.success true),
        .left (.message (some (toSend CLIENT_MSG))), .left (.success true),
        .left (.success true), .right (.success true),
        .right (.message (some (toSend SERVER_MSG))), .left (.success true)]).map
      (fun d => (d.1.pc, d.2.1.printed)) = some (.disconnect, []) := by decide +kernel
  obtain ⟨d, hd, hend⟩ := Option.map_eq_some_iff.mp hrun
  obtain ⟨hs, hprinted⟩ := Prod.mk.inj hend
  exact ⟨_, d, hd, hs, hprinted, reply_delivered (by decide) hd (by simp [hs])⟩

/-- Where the flush fails, the reply can be lost. -/
example : ((List.foldlM (step fun call => call = .flushFileBuffers) (start [] [])
    [.left (.success true), .right (.success true), .right (.success true),
      .left (.success true), .right (.success true), .left (.message (some (toSend CLIENT_MSG))),
      .left (.success true), .left (.success true), .left (.success false),
      .left (.success true)]).map fun d =>
        (d.1.pc, d.2.1.pc, d.2.2.link, d.2.2.near.sent)) =
    some (.close, .flush, .disconnected, []) := by decide +kernel

end Runs

end Eece315.PipesSession
