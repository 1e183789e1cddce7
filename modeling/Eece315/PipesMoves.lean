import Mathlib
import Eece315.PipesPrograms

/-! What the calls of the client and of the server of the named pipe do, one case for each call and
outcome. The pipe is seen from the end of the server. -/
namespace Eece315.PipesMoves

open CallPrograms PipesPrograms

section Ends

variable {may : Call → Bool} {env : Environment Pipe Call Answer} {p p' : Pipe} {call : Call}
  {a : Answer} {bytes : List Char} {size : ℕ} {code : ℤ}

lemma failing_cases (h : failing may env p call a = some p') :
    (a.Failure ∧ may call ∧ p' = p) ∨ env p call a = some p' := by
  rw [failing] at h
  split_ifs at h with hfail
  · exact .inl ⟨hfail.1, hfail.2, (Option.some.inj h).symm⟩
  · exact .inr h

lemma transfer_read (h : p.transfer (.readFile size) a = some p') :
    (a = .message none ∧ ¬ p.Readable ∧ p' = p) ∨ ∃ m rest, a = .message (some m) ∧
      p.link = .attached ∧ p.far.sent = m :: rest ∧ p' = p.pull rest := by
  rcases a with (_ | _) | (_ | bytes) | _ <;> simp only [Pipe.transfer, reduceCtorEq] at h
  · split_ifs at h with hread
    exact .inl ⟨rfl, hread, (Option.some.inj h).symm⟩
  · split at h
    · cases h
    · rename_i m rest hsent
      split_ifs at h with hm
      obtain ⟨hlink, rfl, -⟩ := hm
      exact .inr ⟨m, rest, rfl, hlink, hsent, (Option.some.inj h).symm⟩

lemma transfer_write (h : p.transfer (.writeFile bytes) a = some p') :
    (a = .success true ∧ p.Writable ∧ p' = p.push bytes) ∨
      a = .success false ∧ ¬ p.Writable ∧ p' = p := by
  rcases a with (_ | _) | _ | _ <;> simp only [Pipe.transfer, reduceCtorEq] at h
  · split_ifs at h with hwrite
    exact .inr ⟨rfl, hwrite, (Option.some.inj h).symm⟩
  · split_ifs at h with hwrite
    exact .inl ⟨rfl, hwrite, (Option.some.inj h).symm⟩

lemma transfer_flush (h : p.transfer .flushFileBuffers a = some p') :
    (∃ done, a = .success done) ∧ (p.near.sent = [] ∨ ¬ p.Writable) ∧ p' = p := by
  rcases a with (_ | _) | _ | _ <;> simp only [Pipe.transfer, reduceCtorEq] at h
  · split_ifs at h with hwrite
    exact ⟨⟨false, rfl⟩, .inr hwrite, (Option.some.inj h).symm⟩
  · split_ifs at h with hsent
    exact ⟨⟨true, rfl⟩, .inl hsent.2, (Option.some.inj h).symm⟩

lemma transfer_close (h : p.transfer .closeHandle a = some p') :
    a = .success true ∧ p' = p.close := by
  rcases a with (_ | _) | _ | _ <;> cases h
  exact ⟨rfl, rfl⟩

lemma transfer_exit (h : p.transfer (.exitProcess code) a = some p') :
    a = .success true ∧ p' = p.close := by
  rcases a with (_ | _) | _ | _ <;> cases h
  exact ⟨rfl, rfl⟩

lemma transfer_printf (h : p.transfer .printf a = some p') : a = .success true ∧ p' = p := by
  rcases a with (_ | _) | _ | _ <;> cases h
  exact ⟨rfl, rfl⟩

lemma transfer_error (h : p.transfer .getLastError a = some p') :
    (∃ errco, a = .code errco) ∧ p' = p := by
  rcases a with (_ | _) | _ | errco <;> cases h
  exact ⟨⟨errco, rfl⟩, rfl⟩

end Ends

/-- What a call of the server does. -/
inductive ServerMove (may : Call → Bool) (s : Server) (w : Pipe) : Server → Pipe → Prop
  | created (hpc : s.pc = .create) (hlink : w.link = .absent) :
      ServerMove may s w (s.goto .connect) (.create SERV_PIPE)
  | createFailed (hpc : s.pc = .create) (hmay : may (.createNamedPipe SERV_PIPE)) :
      ServerMove may s w (s.goto .createError) w
  | createError (hpc : s.pc = .createError) (errco : ℤ) : ServerMove may s w
      (s.print s!"Pipe creation failed; Error code: {errco}\n" (.exit 1)) w
  | connected (hpc : s.pc = .connect) (hlink : w.link = .attached ∨ may .connectNamedPipe) :
      ServerMove may s w (s.goto .read) w
  | readFailed (hpc : s.pc = .read) (hread : ¬ w.Readable ∨ may (.readFile MESG_BUFFER_SIZE)) :
      ServerMove may s w s w
  | heard (hpc : s.pc = .read) (m : List Char) (rest : List (List Char))
      (hlink : w.link = .attached) (hsent : w.far.sent = m :: rest) :
      ServerMove may s w (s.receive m .print) (w.pull rest)
  | printed (hpc : s.pc = .print) : ServerMove may s w (s.printMessage "client" .write) w
  | wrote (hpc : s.pc = .write) (hwrite : w.Writable) :
      ServerMove may s w (s.goto .flush) (w.push (toSend SERVER_MSG))
  | writeFailed (hpc : s.pc = .write)
      (hwrite : ¬ w.Writable ∨ may (.writeFile (toSend SERVER_MSG))) :
      ServerMove may s w (s.goto .writeError) w
  | writeError (hpc : s.pc = .writeError) (errco : ℤ) : ServerMove may s w
      (s.print s!"Failed to write to the pipe; Error code: {errco}\n" (.exit 1)) w
  | flushed (hpc : s.pc = .flush)
      (hflush : (w.near.sent = [] ∨ ¬ w.Writable) ∨ may .flushFileBuffers) :
      ServerMove may s w (s.goto .disconnect) w
  | disconnected (hpc : s.pc = .disconnect) : ServerMove may s w (s.goto .close) w.disconnect
  | disconnectFailed (hpc : s.pc = .disconnect) : ServerMove may s w (s.goto .close) w
  | closed (hpc : s.pc = .close) : ServerMove may s w (s.goto (.exit 0)) w.close
  | closeFailed (hpc : s.pc = .close) : ServerMove may s w (s.goto (.exit 0)) w
  | exited (code : ℤ) (hpc : s.pc = .exit code) :
      ServerMove may s w (s.goto (.returned code)) w.close

section Server

variable {may : Call → Bool} {s s' : Server} {w w' : Pipe} {call : Call} {a : Answer}

lemma serverMove (hcall : s.call = some call)
    (henv : failing may Pipe.serverEnd w call a = some w') (hnext : s.next a = some s') :
    ServerMove may s w s' w' := by
  obtain ⟨pc, recv_buf, printed⟩ := s
  have hcases := failing_cases henv
  cases pc
  case create =>
    cases hcall
    rcases a with (_ | _) | _ | _ <;> cases hnext
    · rcases hcases with ⟨-, hmay, rfl⟩ | h
      · exact .createFailed rfl hmay
      · cases h
    · rcases hcases with ⟨hfail, -⟩ | h
      · cases hfail
      · simp only [Pipe.serverEnd] at h
        split_ifs at h with hlink
        obtain rfl := Option.some.inj h
        exact .created rfl hlink
  case createError =>
    cases hcall
    rcases a with _ | _ | errco <;> cases hnext
    rcases hcases with ⟨hfail, -⟩ | h
    · cases hfail
    · obtain ⟨-, rfl⟩ := transfer_error (p := w) (a := .code errco) h
      exact .createError rfl errco
  case connect =>
    cases hcall
    rcases a with done | _ | _ <;> cases hnext
    rcases hcases with ⟨-, hmay, rfl⟩ | h
    · exact .connected rfl (.inr hmay)
    · simp only [Pipe.serverEnd] at h
      split_ifs at h with hlink
      obtain rfl := Option.some.inj h
      exact .connected rfl (.inl hlink)
  case read =>
    cases hcall
    rcases hcases with ⟨hfail, hmay, rfl⟩ | h
    · rcases a with _ | (_ | _) | _
      · cases hnext
      · cases hnext
        exact .readFailed rfl (.inr hmay)
      · cases hfail
      · cases hnext
    · rcases transfer_read (p := w) h with ⟨rfl, hread, rfl⟩ | ⟨m, rest, rfl, hlink, hsent, rfl⟩
      · cases hnext
        exact .readFailed rfl (.inl hread)
      · cases hnext
        exact .heard rfl m rest hlink hsent
  case print =>
    cases hcall
    rcases a with (_ | _) | _ | _ <;> cases hnext
    rcases hcases with ⟨hfail, -⟩ | h
    · cases hfail
    · obtain ⟨-, rfl⟩ := transfer_printf (p := w) (a := .success true) h
      exact .printed rfl
  case write =>
    cases hcall
    rcases hcases with ⟨hfail, hmay, rfl⟩ | h
    · rcases a with (_ | _) | _ | _
      · cases hnext
        exact .writeFailed rfl (.inr hmay)
      · cases hfail
      · cases hnext
      · cases hnext
    · rcases transfer_write (p := w) h with ⟨rfl, hwrite, rfl⟩ | ⟨rfl, hwrite, rfl⟩
      · cases hnext
        exact .wrote rfl hwrite
      · cases hnext
        exact .writeFailed rfl (.inl hwrite)
  case writeError =>
    cases hcall
    rcases a with _ | _ | errco <;> cases hnext
    rcases hcases with ⟨hfail, -⟩ | h
    · cases hfail
    · obtain ⟨-, rfl⟩ := transfer_error (p := w) (a := .code errco) h
      exact .writeError rfl errco
  case flush =>
    cases hcall
    rcases a with done | _ | _ <;> cases hnext
    rcases hcases with ⟨-, hmay, rfl⟩ | h
    · exact .flushed rfl (.inr hmay)
    · obtain ⟨-, hflush, rfl⟩ := transfer_flush (p := w) h
      exact .flushed rfl (.inl hflush)
  case disconnect =>
    cases hcall
    rcases a with (_ | _) | _ | _ <;> cases hnext
    · rcases hcases with ⟨-, -, rfl⟩ | h
      · exact .disconnectFailed rfl
      · simp only [Pipe.serverEnd] at h
        split_ifs at h with hlink
        obtain rfl := Option.some.inj h
        exact .disconnectFailed rfl
    · rcases hcases with ⟨hfail, -⟩ | h
      · cases hfail
      · simp only [Pipe.serverEnd] at h
        split_ifs at h with hlink
        obtain rfl := Option.some.inj h
        exact .disconnected rfl
  case close =>
    cases hcall
    rcases a with done | _ | _ <;> cases hnext
    rcases hcases with ⟨-, -, rfl⟩ | h
    · exact .closeFailed rfl
    · obtain ⟨-, rfl⟩ := transfer_close (p := w) h
      exact .closed rfl
  case exit code =>
    cases hcall
    rcases a with (_ | _) | _ | _ <;> cases hnext
    rcases hcases with ⟨hfail, -⟩ | h
    · cases hfail
    · have hexit : w.transfer (.exitProcess code) (.success true) = some w' := h
      obtain ⟨-, rfl⟩ := transfer_exit hexit
      exact .exited code rfl
  case returned => cases hcall

lemma server_next_none (h : s.next (.message none) = some s') : s' = s := by
  obtain ⟨pc, recv_buf, printed⟩ := s
  cases pc <;> cases h
  rfl

end Server

inductive ClientMove (may : Call → Bool) (c : Client) (w : Pipe) : Client → Pipe → Prop
  | waited (hpc : c.pc = .wait) (havailable : w.Available SERV_PIPE) :
      ClientMove may c w (c.goto .create) w
  | waitFailed (hpc : c.pc = .wait)
      (havailable : ¬ w.Available SERV_PIPE ∨ may (.waitNamedPipe SERV_PIPE)) :
      ClientMove may c w (c.goto .waitError) w
  | waitError (hpc : c.pc = .waitError) (errco : ℤ) : ClientMove may c w
      (c.print s!"Error code {errco} happened while waiting for the pipe. :(\n" (.exit 1)) w
  | created (hpc : c.pc = .create) (havailable : w.Available SERV_PIPE) :
      ClientMove may c w (c.goto .write) w.attach
  | createFailed (hpc : c.pc = .create)
      (havailable : ¬ w.Available SERV_PIPE ∨ may (.createFile SERV_PIPE)) :
      ClientMove may c w (c.goto .createError) w
  | createError (hpc : c.pc = .createError) (errco : ℤ) : ClientMove may c w
      (c.print s!"Error code {errco} happened during CreateFile. :(\n" (.exit 1)) w
  | wrote (hpc : c.pc = .write) (hwrite : w.flip.Writable) :
      ClientMove may c w (c.goto .flush) (w.flip.push (toSend CLIENT_MSG)).flip
  | writeFailed (hpc : c.pc = .write)
      (hwrite : ¬ w.flip.Writable ∨ may (.writeFile (toSend CLIENT_MSG))) :
      ClientMove may c w (c.goto .writeError) w
  | writeError (hpc : c.pc = .writeError) (errco : ℤ) : ClientMove may c w
      (c.print s!"Failed to write to the pipe; Error code: {errco}\n" (.exit 1)) w
  | flushed (hpc : c.pc = .flush)
      (hflush : (w.far.sent = [] ∨ ¬ w.flip.Writable) ∨ may .flushFileBuffers) :
      ClientMove may c w (c.goto .read) w
  | readFailed (hpc : c.pc = .read)
      (hread : ¬ w.flip.Readable ∨ may (.readFile MESG_BUFFER_SIZE)) : ClientMove may c w c w
  | heard (hpc : c.pc = .read) (m : List Char) (rest : List (List Char))
      (hlink : w.link = .attached) (hsent : w.near.sent = m :: rest) :
      ClientMove may c w (c.receive m .print) (w.flip.pull rest).flip
  | printed (hpc : c.pc = .print) : ClientMove may c w (c.printMessage "server" .close) w
  | closed (hpc : c.pc = .close) : ClientMove may c w (c.goto (.exit 0)) w.flip.close.flip
  | closeFailed (hpc : c.pc = .close) : ClientMove may c w (c.goto (.exit 0)) w
  | exited (code : ℤ) (hpc : c.pc = .exit code) :
      ClientMove may c w (c.goto (.returned code)) w.flip.close.flip

section Client

variable {may : Call → Bool} {c c' : Client} {w w' : Pipe} {call : Call} {a : Answer}

lemma clientEnd_transfer (h : w.clientEnd call a = some w')
    (hcall : w.clientEnd call a = (w.flip.transfer call a).map .flip) :
    w.flip.transfer call a = some w'.flip := by
  obtain ⟨p, hp, rfl⟩ := Option.map_eq_some_iff.mp (hcall ▸ h)
  exact hp

lemma clientMove (hcall : c.call = some call)
    (henv : failing may Pipe.clientEnd w call a = some w') (hnext : c.next a = some c') :
    ClientMove may c w c' w' := by
  obtain ⟨pc, recv_buf, printed⟩ := c
  have hcases := failing_cases henv
  cases pc
  case wait =>
    cases hcall
    rcases a with done | _ | _ <;> cases hnext
    rcases hcases with ⟨hfail, hmay, rfl⟩ | h
    · obtain rfl : done = false := by simpa [Answer.Failure] using hfail
      exact .waitFailed rfl (.inr hmay)
    · simp only [Pipe.clientEnd] at h
      split_ifs at h with hdone
      obtain rfl := Option.some.inj h
      cases done with
      | false => exact .waitFailed rfl (.inl (by simpa using hdone))
      | true => exact .waited rfl (by simpa using hdone)
  case waitError =>
    cases hcall
    rcases a with _ | _ | errco <;> cases hnext
    rcases hcases with ⟨hfail, -⟩ | h
    · cases hfail
    · obtain ⟨-, hw⟩ := transfer_error (clientEnd_transfer h rfl)
      obtain rfl : w' = w := congrArg Pipe.flip hw
      exact .waitError rfl errco
  case create =>
    cases hcall
    rcases a with (_ | _) | _ | _ <;> cases hnext
    · rcases hcases with ⟨-, hmay, rfl⟩ | h
      · exact .createFailed rfl (.inr hmay)
      · simp only [Pipe.clientEnd] at h
        split_ifs at h with havailable
        obtain rfl := Option.some.inj h
        exact .createFailed rfl (.inl havailable)
    · rcases hcases with ⟨hfail, -⟩ | h
      · cases hfail
      · simp only [Pipe.clientEnd] at h
        split_ifs at h with havailable
        obtain rfl := Option.some.inj h
        exact .created rfl havailable
  case createError =>
    cases hcall
    rcases a with _ | _ | errco <;> cases hnext
    rcases hcases with ⟨hfail, -⟩ | h
    · cases hfail
    · obtain ⟨-, hw⟩ := transfer_error (clientEnd_transfer h rfl)
      obtain rfl : w' = w := congrArg Pipe.flip hw
      exact .createError rfl errco
  case write =>
    cases hcall
    rcases hcases with ⟨hfail, hmay, rfl⟩ | h
    · rcases a with (_ | _) | _ | _
      · cases hnext
        exact .writeFailed rfl (.inr hmay)
      · cases hfail
      · cases hnext
      · cases hnext
    · rcases transfer_write (clientEnd_transfer h rfl) with ⟨rfl, hwrite, hw⟩ | ⟨rfl, hwrite, hw⟩
      · obtain rfl : w' = _ := congrArg Pipe.flip hw
        cases hnext
        exact .wrote rfl hwrite
      · obtain rfl : w' = w := congrArg Pipe.flip hw
        cases hnext
        exact .writeFailed rfl (.inl hwrite)
  case writeError =>
    cases hcall
    rcases a with _ | _ | errco <;> cases hnext
    rcases hcases with ⟨hfail, -⟩ | h
    · cases hfail
    · obtain ⟨-, hw⟩ := transfer_error (clientEnd_transfer h rfl)
      obtain rfl : w' = w := congrArg Pipe.flip hw
      exact .writeError rfl errco
  case flush =>
    cases hcall
    rcases a with done | _ | _ <;> cases hnext
    rcases hcases with ⟨-, hmay, rfl⟩ | h
    · exact .flushed rfl (.inr hmay)
    · obtain ⟨-, hflush, hw⟩ := transfer_flush (clientEnd_transfer h rfl)
      obtain rfl : w' = w := congrArg Pipe.flip hw
      exact .flushed rfl (.inl hflush)
  case read =>
    cases hcall
    rcases hcases with ⟨hfail, hmay, rfl⟩ | h
    · rcases a with _ | (_ | _) | _
      · cases hnext
      · cases hnext
        exact .readFailed rfl (.inr hmay)
      · cases hfail
      · cases hnext
    · rcases transfer_read (clientEnd_transfer h rfl) with ⟨rfl, hread, hw⟩ |
        ⟨m, rest, rfl, hlink, hsent, hw⟩
      · obtain rfl : w' = w := congrArg Pipe.flip hw
        cases hnext
        exact .readFailed rfl (.inl hread)
      · obtain rfl : w' = _ := congrArg Pipe.flip hw
        cases hnext
        exact .heard rfl m rest hlink hsent
  case print =>
    cases hcall
    rcases a with (_ | _) | _ | _ <;> cases hnext
    rcases hcases with ⟨hfail, -⟩ | h
    · cases hfail
    · obtain ⟨-, hw⟩ := transfer_printf (clientEnd_transfer h rfl)
      obtain rfl : w' = w := congrArg Pipe.flip hw
      exact .printed rfl
  case close =>
    cases hcall
    rcases a with done | _ | _ <;> cases hnext
    rcases hcases with ⟨-, -, rfl⟩ | h
    · exact .closeFailed rfl
    · obtain ⟨-, hw⟩ := transfer_close (clientEnd_transfer h rfl)
      obtain rfl : w' = _ := congrArg Pipe.flip hw
      exact .closed rfl
  case exit code =>
    cases hcall
    rcases a with (_ | _) | _ | _ <;> cases hnext
    rcases hcases with ⟨hfail, -⟩ | h
    · cases hfail
    · obtain ⟨-, hw⟩ := transfer_exit (clientEnd_transfer h rfl)
      obtain rfl : w' = _ := congrArg Pipe.flip hw
      exact .exited code rfl
  case returned => cases hcall

lemma client_next_none (h : c.next (.message none) = some c') : c' = c := by
  obtain ⟨pc, recv_buf, printed⟩ := c
  cases pc <;> cases h
  rfl

end Client

end Eece315.PipesMoves
