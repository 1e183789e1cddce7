import Mathlib
import Eece315.PipesSession

/-! Sessions over the named pipe in which no call fails of itself. If the server comes first, both
programs return 0 after a bounded number of calls in any order, and no read of theirs has failed.
If the client comes first, it gives up, and the server waits for another one. -/
namespace Eece315.PipesCompletion

open StepRuns CallPrograms PipesPrograms PipesMoves PipesSession

def reliable (_ : Call) : Bool := false

/-- Where the client is when the server has created the pipe and all goes well. -/
def Smooth (s : Server) (c : Client) (w : Pipe) : Prop :=
  match s.pc with
  | .connect => (c.pc = .wait ∨ c.pc = .create) ∨ c.pc = .write ∨ c.pc = .flush
  | .read => c.pc = .write ∨ c.pc = .flush
  | .print | .write => c.pc = .flush ∨ c.pc = .read
  | .flush => (c.pc = .flush ∨ c.pc = .read) ∨ Finished c ∧ w.link = .attached
  | .disconnect => Finished c ∧ w.link = .attached
  | .close => Finished c
  | .exit code | .returned code => code = 0 ∧ Finished c
  | _ => False

/-- The client has come before the pipe. -/
def TooEarly (s : Server) (c : Client) (w : Pipe) : Prop :=
  s.pc ∈ [.create, .connect] ∧ c.pc ∈ [.waitError, .exit 1, .returned 1] ∧ w.link ≠ .attached

/-- The calls that a program has left if its reads do not fail. -/
def serverLeft : ServerPc → ℕ
  | .create => 9
  | .connect => 8
  | .read => 7
  | .print => 6
  | .write => 5
  | .flush => 4
  | .disconnect => 3
  | .close | .createError | .writeError => 2
  | .exit _ => 1
  | .returned _ => 0

def clientLeft : ClientPc → ℕ
  | .wait => 8
  | .create => 7
  | .write => 6
  | .flush => 5
  | .read => 4
  | .print => 3
  | .close | .waitError | .createError | .writeError => 2
  | .exit _ => 1
  | .returned _ => 0

section Moves

variable {phase : Phase} {s s' : Server} {c c' : Client} {w w' : Pipe}

structure Talking (s : Server) (c : Client) : Prop where
  server : s.pc ∈ [.connect, .read, .print, .write, .flush]
  client : c.pc ∈ [.write, .flush, .read]

lemma Talking.serverHolds (h : Talking s c) : ServerHolds s := by
  obtain ⟨hs, -⟩ := h
  simp only [ServerHolds, List.mem_cons, List.not_mem_nil, or_false] at hs ⊢
  tauto

lemma Talking.clientHolds (h : Talking s c) : ClientHolds c := by
  obtain ⟨-, hc⟩ := h
  simp only [ClientHolds, List.mem_cons, List.not_mem_nil, or_false] at hc ⊢
  tauto

lemma Talking.link (ht : Talking s c) (h : At phase s c w) : w.link = .attached := by
  have hpipe := h.pipe
  cases phase
  case absent => exact absurd ht.clientHolds (h.client.not_holds (by simp))
  case listening => exact absurd ht.clientHolds (h.client.not_holds (by simp))
  case answered =>
    have hclient := h.client
    obtain ⟨-, hc⟩ := ht
    obtain ⟨pc, recv_buf, printed⟩ := c
    cases pc <;> simp_all [ClientAt]
  case lost =>
    have hserver := h.server
    obtain ⟨hs, -⟩ := ht
    obtain ⟨pc, recv_buf, printed⟩ := s
    cases pc <;> simp_all [ServerAt]
  all_goals exact hpipe.1

lemma Talking.writable (ht : Talking s c) (h : At phase s c w) : w.Writable :=
  ⟨ht.link h, h.far ht.clientHolds⟩

lemma Talking.flip_writable (ht : Talking s c) (h : At phase s c w) : w.flip.Writable := by
  have hlink := ht.link h
  exact ⟨hlink, h.near ht.serverHolds⟩

lemma readable_of_writable (h : w.Writable) : w.Readable := ⟨h.1, .inr h.2⟩

lemma link_ne (h : At phase s c w) (hc : c.pc = .wait ∨ c.pc = .create) : w.link ≠ .attached := by
  have hclient := h.client
  have hpipe := h.pipe
  intro hlink
  rcases hc with hc | hc
  · obtain ⟨hphase, -⟩ : phase ∈ [.absent, .listening] ∧ c.printed = [] := by
      simpa only [ClientAt, hc] using hclient
    fin_cases hphase
    · exact absurd (hpipe.symm.trans hlink) (by simp)
    · exact absurd (hpipe.1.symm.trans hlink) (by simp)
  · obtain ⟨rfl, -⟩ : phase = .listening ∧ c.printed = [] := by
      simpa only [ClientAt, hc] using hclient
    exact absurd (hpipe.1.symm.trans hlink) (by simp)

lemma smooth_server_move (h : At phase s c w) (hsmooth : Smooth s c w)
    (hmove : ServerMove reliable s w s' w') :
    Smooth s' c w' ∧ serverLeft s'.pc < serverLeft s.pc := by
  obtain ⟨pc, recv_buf, printed⟩ := s
  cases hmove with
  | created hpc hlink =>
    obtain rfl : pc = .create := hpc
    exact hsmooth.elim
  | createFailed hpc hmay => cases hmay
  | createError hpc errco =>
    obtain rfl : pc = .createError := hpc
    exact hsmooth.elim
  | connected hpc hlink =>
    obtain rfl : pc = .connect := hpc
    have hattached := hlink.resolve_right (by simp [reliable])
    exact ⟨hsmooth.resolve_left fun hc => link_ne h hc hattached, by simp [serverLeft, Party.goto]⟩
  | readFailed hpc hread =>
    obtain rfl : pc = .read := hpc
    have ht : Talking ⟨.read, recv_buf, printed⟩ c :=
      ⟨by simp, by rcases hsmooth with hc | hc <;> simp [hc]⟩
    exact absurd (readable_of_writable (ht.writable h)) (hread.resolve_right (by simp [reliable]))
  | heard hpc m rest hlink hsent =>
    obtain rfl : pc = .read := hpc
    refine ⟨.inl (hsmooth.resolve_left fun hc => ?_), by simp [serverLeft, Party.receive]⟩
    -- nothing was written before the client has written
    obtain ⟨rfl, -⟩ : phase = .attached ∧ c.printed = [] := by
      simpa only [ClientAt, hc] using h.client
    exact absurd (hsent.symm.trans h.pipe.2.2) (by simp)
  | printed hpc =>
    obtain rfl : pc = .print := hpc
    exact ⟨hsmooth, by simp [serverLeft, Party.printMessage]⟩
  | wrote hpc hwrite =>
    obtain rfl : pc = .write := hpc
    exact ⟨.inl hsmooth, by simp [serverLeft, Party.goto]⟩
  | writeFailed hpc hwrite =>
    obtain rfl : pc = .write := hpc
    have ht : Talking ⟨.write, recv_buf, printed⟩ c :=
      ⟨by simp, by rcases hsmooth with hc | hc <;> simp [hc]⟩
    exact absurd (ht.writable h) (hwrite.resolve_right (by simp [reliable]))
  | writeError hpc errco =>
    obtain rfl : pc = .writeError := hpc
    exact hsmooth.elim
  | flushed hpc hflush =>
    obtain rfl : pc = .flush := hpc
    refine ⟨hsmooth.resolve_left fun hc => ?_, by simp [serverLeft, Party.goto]⟩
    obtain ⟨hfinished, -⟩ := h.flushed rfl (hflush.resolve_right (by simp [reliable]))
    rcases hc with hc | hc <;> simp [Finished, hc] at hfinished
  | disconnected hpc =>
    obtain rfl : pc = .disconnect := hpc
    exact ⟨hsmooth.1, by simp [serverLeft, Party.goto]⟩
  | disconnectFailed hpc =>
    obtain rfl : pc = .disconnect := hpc
    exact ⟨hsmooth.1, by simp [serverLeft, Party.goto]⟩
  | closed hpc =>
    obtain rfl : pc = .close := hpc
    exact ⟨⟨rfl, hsmooth⟩, by simp [serverLeft, Party.goto]⟩
  | closeFailed hpc =>
    obtain rfl : pc = .close := hpc
    exact ⟨⟨rfl, hsmooth⟩, by simp [serverLeft, Party.goto]⟩
  | exited code hpc =>
    obtain rfl : pc = .exit code := hpc
    exact ⟨hsmooth, by simp [serverLeft, Party.goto]⟩

lemma listening_of (h : At phase s c w) (hs : s.pc = .connect)
    (hc : c.pc = .wait ∨ c.pc = .create) : w.Available SERV_PIPE := by
  obtain ⟨hphase, -⟩ : phase ∈ [.listening, .attached, .asked] ∧ s.printed = [] := by
    simpa only [ServerAt, hs] using h.server
  obtain rfl : phase = .listening := by
    have hlink := link_ne h hc
    have hpipe := h.pipe
    fin_cases hphase
    · rfl
    · exact absurd hpipe.1 hlink
    · exact absurd hpipe.1 hlink
  exact ⟨h.pipe.1, h.near (by simp [ServerHolds, hs]), h.pipe.2.1⟩

lemma phase_asked (h : At phase s c w) (hs : s.pc = .connect ∨ s.pc = .read)
    (hc : c.pc = .flush) : phase = .asked := by
  have hserver : phase ∈ [.listening, .attached, .asked] ∧ s.printed = [] := by
    rcases hs with hs | hs <;> simpa only [ServerAt, hs] using h.server
  have hclient : phase ∈ [.asked, .heard, .replied, .lost] ∧ c.printed = [] := by
    simpa only [ClientAt, hc] using h.client
  cases phase <;> simp_all

lemma Smooth.connect_or (h : Smooth s c w) (hc : c.pc = .wait ∨ c.pc = .create) :
    s.pc = .connect := by
  obtain ⟨pc, recv_buf, printed⟩ := s
  cases pc <;> rcases hc with hc | hc <;> simp_all [Smooth, Finished]

lemma Smooth.no_error (h : Smooth s c w) : c.pc ∉ [.waitError, .createError, .writeError] := by
  obtain ⟨pc, recv_buf, printed⟩ := s
  simp only [List.mem_cons, List.not_mem_nil, or_false]
  rintro (hc | hc | hc) <;> cases pc <;> simp_all [Smooth, Finished]

lemma Smooth.of_exit {code : ℤ} (h : Smooth s c w) (hc : c.pc = .exit code) : code = 0 := by
  obtain ⟨pc, recv_buf, printed⟩ := s
  cases pc <;> simp_all [Smooth, Finished]

lemma Smooth.of_write (h : Smooth s c w) (hc : c.pc = .write) : s.pc = .connect ∨ s.pc = .read := by
  obtain ⟨pc, recv_buf, printed⟩ := s
  cases pc <;> simp_all [Smooth, Finished]

lemma Smooth.of_flush (h : Smooth s c w) (hc : c.pc = .flush) :
    (s.pc = .connect ∨ s.pc = .read) ∨ (s.pc = .print ∨ s.pc = .write) ∨ s.pc = .flush := by
  obtain ⟨pc, recv_buf, printed⟩ := s
  cases pc <;> simp_all [Smooth, Finished]

lemma Smooth.of_read (h : Smooth s c w) (hc : c.pc = .read) :
    (s.pc = .print ∨ s.pc = .write) ∨ s.pc = .flush := by
  obtain ⟨pc, recv_buf, printed⟩ := s
  cases pc <;> simp_all [Smooth, Finished]

lemma Smooth.finished (h : Smooth s c w) (hc : Finished c) (hc' : Finished c')
    (hlink : w'.link = w.link) : Smooth s c' w' := by
  have hne : c.pc ∉ [.wait, .create, .write, .flush, .read] := by
    simp only [Finished, List.mem_cons, List.not_mem_nil, or_false] at hc
    rcases hc with hc | hc | hc | hc <;> simp [hc]
  obtain ⟨pc, recv_buf, printed⟩ := s
  cases pc <;> simp_all [Smooth]

lemma smooth_client_move (h : At phase s c w) (hsmooth : Smooth s c w)
    (hmove : ClientMove reliable c w c' w') :
    Smooth s c' w' ∧ clientLeft c'.pc < clientLeft c.pc := by
  obtain ⟨pc, recv_buf, printed⟩ := c
  cases hmove with
  | waited hpc havailable =>
    obtain rfl : pc = .wait := hpc
    have hs := hsmooth.connect_or (.inl rfl)
    refine ⟨?_, by simp [clientLeft, Party.goto]⟩
    simp [Smooth, hs, Party.goto]
  | waitFailed hpc havailable =>
    obtain rfl : pc = .wait := hpc
    have hs := hsmooth.connect_or (.inl rfl)
    exact absurd (listening_of h hs (.inl rfl)) (havailable.resolve_right (by simp [reliable]))
  | waitError hpc errco => exact absurd (by simp_all) hsmooth.no_error
  | created hpc havailable =>
    obtain rfl : pc = .create := hpc
    have hs := hsmooth.connect_or (.inr rfl)
    refine ⟨?_, by simp [clientLeft, Party.goto]⟩
    simp [Smooth, hs, Party.goto]
  | createFailed hpc havailable =>
    obtain rfl : pc = .create := hpc
    have hs := hsmooth.connect_or (.inr rfl)
    exact absurd (listening_of h hs (.inr rfl)) (havailable.resolve_right (by simp [reliable]))
  | createError hpc errco => exact absurd (by simp_all) hsmooth.no_error
  | wrote hpc hwrite =>
    obtain rfl : pc = .write := hpc
    refine ⟨?_, by simp [clientLeft, Party.goto]⟩
    rcases hsmooth.of_write rfl with hs | hs <;> simp [Smooth, hs, Party.goto]
  | writeFailed hpc hwrite =>
    obtain rfl : pc = .write := hpc
    have ht : Talking s ⟨.write, recv_buf, printed⟩ :=
      ⟨by rcases hsmooth.of_write rfl with hs | hs <;> simp [hs], by simp⟩
    exact absurd (ht.flip_writable h) (hwrite.resolve_right (by simp [reliable]))
  | writeError hpc errco => exact absurd (by simp_all) hsmooth.no_error
  | flushed hpc hflush =>
    obtain rfl : pc = .flush := hpc
    refine ⟨?_, by simp [clientLeft, Party.goto]⟩
    rcases hsmooth.of_flush rfl with hs | (hs | hs) | hs
    · -- the message of the client is not yet read
      have ht : Talking s ⟨.flush, recv_buf, printed⟩ :=
        ⟨by rcases hs with hs | hs <;> simp [hs], by simp⟩
      have hsent := (hflush.resolve_right (by simp [reliable])).resolve_right
        (not_not_intro (ht.flip_writable h))
      obtain rfl : phase = .asked := phase_asked h hs rfl
      exact absurd (h.pipe.2.2.symm.trans hsent) (by simp)
    · simp [Smooth, hs, Party.goto]
    · simp [Smooth, hs, Party.goto]
    · simp [Smooth, hs, Party.goto]
  | readFailed hpc hread =>
    obtain rfl : pc = .read := hpc
    have ht : Talking s ⟨.read, recv_buf, printed⟩ :=
      ⟨by rcases hsmooth.of_read rfl with (hs | hs) | hs <;> simp [hs], by simp⟩
    exact absurd (readable_of_writable (ht.flip_writable h))
      (hread.resolve_right (by simp [reliable]))
  | heard hpc m rest hlink hsent =>
    obtain rfl : pc = .read := hpc
    refine ⟨?_, by simp [clientLeft, Party.receive]⟩
    rcases hsmooth.of_read rfl with hs | hs
    · obtain rfl : phase = .heard := by
        rcases hs with hs | hs <;> exact (by simpa only [ServerAt, hs] using h.server : _ ∧ _).1
      exact absurd (hsent.symm.trans h.pipe.2.1) (by simp)
    · simp only [Smooth, hs]
      exact .inr ⟨by simp [Finished, Party.receive], hlink⟩
  | printed hpc =>
    obtain rfl : pc = .print := hpc
    exact ⟨hsmooth.finished (by simp [Finished]) (by simp [Finished, Party.printMessage]) rfl,
      by simp [clientLeft, Party.printMessage]⟩
  | closed hpc =>
    obtain rfl : pc = .close := hpc
    exact ⟨hsmooth.finished (by simp [Finished]) (by simp [Finished, Party.goto]) rfl,
      by simp [clientLeft, Party.goto]⟩
  | closeFailed hpc =>
    obtain rfl : pc = .close := hpc
    exact ⟨hsmooth.finished (by simp [Finished]) (by simp [Finished, Party.goto]) rfl,
      by simp [clientLeft, Party.goto]⟩
  | exited code hpc =>
    obtain rfl : pc = .exit code := hpc
    obtain rfl := hsmooth.of_exit rfl
    exact ⟨hsmooth.finished (by simp [Finished]) (by simp [Finished, Party.goto]) rfl,
      by simp [clientLeft, Party.goto]⟩

lemma early_server_move (hearly : TooEarly s c w) (hmove : ServerMove reliable s w s' w') :
    TooEarly s' c w' ∧ serverLeft s'.pc < serverLeft s.pc := by
  obtain ⟨pc, recv_buf, printed⟩ := s
  obtain ⟨hs, hc, hlink⟩ := hearly
  cases hmove with
  | created hpc hlink' =>
    obtain rfl : pc = .create := hpc
    exact ⟨⟨by simp [Party.goto], hc, by simp [Pipe.create]⟩, by simp [serverLeft, Party.goto]⟩
  | createFailed hpc hmay => cases hmay
  | connected hpc hlink' =>
    exact absurd (hlink'.resolve_right (by simp [reliable])) hlink
  | _ => simp_all

lemma early_client_move (hearly : TooEarly s c w) (hmove : ClientMove reliable c w c' w') :
    TooEarly s c' w' ∧ clientLeft c'.pc < clientLeft c.pc := by
  obtain ⟨pc, recv_buf, printed⟩ := c
  obtain ⟨hs, hc, hlink⟩ := hearly
  cases hmove with
  | waitError hpc errco =>
    obtain rfl : pc = .waitError := hpc
    exact ⟨⟨hs, by simp [Party.print], hlink⟩, by simp [clientLeft, Party.print]⟩
  | exited code hpc =>
    obtain rfl : pc = .exit code := hpc
    obtain rfl : code = 1 := by simpa using hc
    exact ⟨⟨hs, by simp [Party.goto], hlink⟩, by simp [clientLeft, Party.goto]⟩
  | _ => simp_all

end Moves

section Runs

variable {phase : Phase} {s : Server} {c : Client} {w : Pipe} {stack stack' : List Char}
  {turns : List (Turn Answer)} {d : Server × Client × Pipe}

lemma failing_reliable (env : Environment Pipe Call Answer) : failing reliable env = env := by
  funext p call a
  simp [failing, reliable]

def OnTime (d : Server × Client × Pipe) : Prop :=
  (∃ phase, At phase d.1 d.2.1 d.2.2) ∧ Smooth d.1 d.2.1 d.2.2

def left (d : Server × Client × Pipe) : ℕ := serverLeft d.1.pc + clientLeft d.2.1.pc

lemma onTime_step {d d' : Server × Client × Pipe} {turn : Turn Answer} (h : OnTime d)
    (hs : step reliable d turn = some d') : OnTime d' ∧ left d' < left d := by
  obtain ⟨⟨phase, hat⟩, hsmooth⟩ := h
  rcases both_cases hs with ⟨call, a, hcall, henv, hnext, heq⟩ | ⟨call, a, hcall, henv, hnext, heq⟩
  · have hmove := serverMove hcall henv hnext
    obtain ⟨hsmooth', hlt⟩ := smooth_server_move hat hsmooth hmove
    rw [OnTime, left, heq]
    exact ⟨⟨hat.server_move hmove, hsmooth'⟩, Nat.add_lt_add_right hlt _⟩
  · have hmove := clientMove hcall henv hnext
    obtain ⟨hsmooth', hlt⟩ := smooth_client_move hat hsmooth hmove
    rw [OnTime, left, heq]
    exact ⟨⟨hat.client_move hmove, hsmooth'⟩, Nat.add_lt_add_left hlt _⟩

lemma early_step {d d' : Server × Client × Pipe} {turn : Turn Answer}
    (h : TooEarly d.1 d.2.1 d.2.2) (hs : step reliable d turn = some d') :
    TooEarly d'.1 d'.2.1 d'.2.2 ∧ left d' < left d := by
  rcases both_cases hs with ⟨call, a, hcall, henv, hnext, heq⟩ | ⟨call, a, hcall, henv, hnext, heq⟩
  · obtain ⟨hearly, hlt⟩ := early_server_move h (serverMove hcall henv hnext)
    rw [left, heq]
    exact ⟨hearly, Nat.add_lt_add_right hlt _⟩
  · obtain ⟨hearly, hlt⟩ := early_client_move h (clientMove hcall henv hnext)
    rw [left, heq]
    exact ⟨hearly, Nat.add_lt_add_left hlt _⟩

lemma server_turn {s' : Server} {w' : Pipe} {call : Call} {a : Answer} (hcall : s.call = some call)
    (henv : w.serverEnd call a = some w') (hnext : s.next a = some s') :
    ∃ turn d, step reliable (s, c, w) turn = some d := by
  refine ⟨.left a, (s', c, w'), both_left hcall ?_ hnext⟩
  rw [failing_reliable]
  exact henv

lemma client_turn {c' : Client} {w' : Pipe} {call : Call} {a : Answer} (hcall : c.call = some call)
    (henv : w.clientEnd call a = some w') (hnext : c.next a = some c') :
    ∃ turn d, step reliable (s, c, w) turn = some d := by
  refine ⟨.right a, (s, c', w'), both_right hcall ?_ hnext⟩
  rw [failing_reliable]
  exact henv

lemma phase_answered (h : At phase s c w) (hc : Finished c) : phase = .answered := by
  have hclient := h.client
  obtain ⟨pc, recv_buf, printed⟩ := c
  cases pc <;> simp_all [ClientAt, Finished]

lemma phase_replied (h : At phase s c w) (hs : s.pc = .flush) (hc : c.pc = .flush ∨ c.pc = .read) :
    phase = .replied := by
  have hserver : phase ∈ [.replied, .answered] ∧ s.printed = [heard] := by
    simpa only [ServerAt, hs] using h.server
  have hclient : phase ∈ [.asked, .heard, .replied, .lost] ∧ c.printed = [] := by
    rcases hc with hc | hc <;> simpa only [ClientAt, hc] using h.client
  cases phase <;> simp_all

lemma transfer_message {bytes : List Char} (hlink : w.link = .attached)
    (hsent : w.far.sent = [bytes]) (hsize : bytes.length ≤ MESG_BUFFER_SIZE) :
    w.transfer (.readFile MESG_BUFFER_SIZE) (.message (some bytes)) = some (w.pull []) := by
  simp [Pipe.transfer, hsent, hlink, hsize]

lemma finished_turn (hc : Finished c) (hdone : c.pc ≠ .returned 0) :
    ∃ turn d, step reliable (s, c, w) turn = some d := by
  obtain ⟨pc, recv_buf, printed⟩ := c
  simp only [Finished, List.mem_cons, List.not_mem_nil, or_false] at hc
  rcases hc with hc | hc | hc | hc
  · obtain rfl : pc = .print := hc
    exact client_turn rfl (a := .success true) rfl rfl
  · obtain rfl : pc = .close := hc
    exact client_turn rfl (a := .success true) rfl rfl
  · obtain rfl : pc = .exit 0 := hc
    exact client_turn rfl (a := .success true) rfl rfl
  · exact absurd hc hdone

lemma smooth_progress (h : At phase s c w) (hsmooth : Smooth s c w)
    (hdone : ¬ (s.pc = .returned 0 ∧ c.pc = .returned 0)) :
    ∃ turn d, step reliable (s, c, w) turn = some d := by
  obtain ⟨pc, recv_buf, printed⟩ := s
  obtain ⟨pc', recv_buf', printed'⟩ := c
  cases pc
  case connect =>
    rcases hsmooth with hc | hc
    · have havailable := listening_of h rfl hc
      rcases hc with hc | hc
      · obtain rfl : pc' = .wait := hc
        exact client_turn rfl (a := .success true) (if_pos (by simpa using havailable)) rfl
      · obtain rfl : pc' = .create := hc
        exact client_turn rfl (a := .success true) (if_pos havailable) rfl
    · have ht : Talking ⟨.connect, recv_buf, printed⟩ ⟨pc', recv_buf', printed'⟩ :=
        ⟨by simp, by rcases hc with hc | hc <;> simp_all⟩
      exact server_turn rfl (a := .success true) (if_pos (ht.link h)) rfl
  case read =>
    have ht : Talking ⟨.read, recv_buf, printed⟩ ⟨pc', recv_buf', printed'⟩ :=
      ⟨by simp, by rcases hsmooth with hc | hc <;> simp_all⟩
    rcases hsmooth with hc | hc
    · obtain rfl : pc' = .write := hc
      have hwrite : w.flip.transfer (.writeFile (toSend CLIENT_MSG)) (.success true) =
          some (w.flip.push (toSend CLIENT_MSG)) := if_pos (ht.flip_writable h)
      exact client_turn rfl (a := .success true) (congrArg (Option.map Pipe.flip) hwrite) rfl
    · obtain rfl := phase_asked h (.inr rfl) hc
      obtain ⟨hlink, -, hsent⟩ := h.pipe
      exact server_turn rfl (a := .message (some (toSend CLIENT_MSG)))
        (transfer_message hlink hsent (by decide)) rfl
  case print => exact server_turn rfl (a := .success true) rfl rfl
  case write =>
    have ht : Talking ⟨.write, recv_buf, printed⟩ ⟨pc', recv_buf', printed'⟩ :=
      ⟨by simp, by rcases hsmooth with hc | hc <;> simp_all⟩
    exact server_turn rfl (a := .success true) (if_pos (ht.writable h)) rfl
  case flush =>
    rcases hsmooth with hc | ⟨hc, hlink⟩
    · obtain rfl := phase_replied h rfl hc
      obtain ⟨hlink, hnear, hfar⟩ := h.pipe
      rcases hc with hc | hc
      · obtain rfl : pc' = .flush := hc
        have hflush : w.flip.transfer .flushFileBuffers (.success true) = some w.flip :=
          if_pos ⟨hlink, hfar⟩
        exact client_turn rfl (a := .success true) (congrArg (Option.map Pipe.flip) hflush) rfl
      · obtain rfl : pc' = .read := hc
        have hread : w.flip.transfer (.readFile MESG_BUFFER_SIZE)
            (.message (some (toSend SERVER_MSG))) = some (w.flip.pull []) :=
          transfer_message hlink hnear (by decide)
        exact client_turn rfl (a := .message (some (toSend SERVER_MSG)))
          (congrArg (Option.map Pipe.flip) hread) rfl
    · obtain rfl := phase_answered h hc
      exact server_turn rfl (a := .success true) (if_pos ⟨hlink, h.pipe.2.1⟩) rfl
  case disconnect => exact server_turn rfl (a := .success true) (if_pos hsmooth.2) rfl
  case close => exact server_turn rfl (a := .success true) rfl rfl
  case exit code => exact server_turn rfl (a := .success true) rfl rfl
  case returned code =>
    obtain ⟨rfl, hc⟩ := hsmooth
    exact finished_turn hc fun hpc => hdone ⟨rfl, hpc⟩
  all_goals exact hsmooth.elim

lemma early_progress (h : At phase s c w) (hearly : TooEarly s c w)
    (hdone : ¬ (s.pc = .connect ∧ c.pc = .returned 1)) :
    ∃ turn d, step reliable (s, c, w) turn = some d := by
  obtain ⟨hs, hc, -⟩ := hearly
  simp only [List.mem_cons, List.not_mem_nil, or_false] at hs hc
  obtain ⟨pc, recv_buf, printed⟩ := s
  obtain ⟨pc', recv_buf', printed'⟩ := c
  rcases hs with hs | hs
  · obtain rfl : pc = .create := hs
    obtain ⟨rfl, -⟩ := h.server
    exact server_turn rfl (a := .success true) (if_pos h.pipe) rfl
  · rcases hc with hc | hc | hc
    · obtain rfl : pc' = .waitError := hc
      exact client_turn rfl (a := .code 0) rfl rfl
    · obtain rfl : pc' = .exit 1 := hc
      exact client_turn rfl (a := .success true) rfl rfl
    · exact absurd ⟨hs, hc⟩ hdone

lemma step_returned {m n : ℤ} (hs : d.1.pc = .returned m) (hc : d.2.1.pc = .returned n)
    (turn : Turn Answer) : step reliable d turn = none := by
  cases turn <;> simp [step, both, Program.step, Server.program, Server.call, Client.program,
    Client.call, hs, hc]

lemma printed_returned (h : At phase s c w) (hc : c.pc = .returned 0) :
    s.printed = [heard] ∧ c.printed = [answer] := by
  obtain rfl := phase_answered h (by simp [Finished, hc])
  have hclient : c.printed = [answer] ∧ Holding c SERVER_MSG := by
    simpa [ClientAt, hc] using h.client
  exact ⟨h.server.printed_answered.1, hclient.1⟩

def Underway (stack stack' : List Char) (d : Server × Client × Pipe) : Prop :=
  d = start stack stack' ∨ OnTime d ∨ TooEarly d.1 d.2.1 d.2.2

lemma first_step {turn : Turn Answer} (h : step reliable (start stack stack') turn = some d) :
    left d < left (start stack stack') ∧ ((∃ a, turn = .left a) ∧ OnTime d ∨
      (∃ a, turn = .right a) ∧ TooEarly d.1 d.2.1 d.2.2) := by
  obtain ⟨s', c', w'⟩ := d
  have hat := at_start stack stack'
  cases turn with
  | left a =>
    obtain ⟨⟨s₁, w₁⟩, hstep, hd⟩ := Option.map_eq_some_iff.mp h
    obtain ⟨call, hcall, henv, hnext⟩ := Program.step_eq_some.mp hstep
    have hmove := serverMove (s := Server.main stack) hcall henv hnext
    have hat' := hat.server_move hmove
    cases hd
    cases hmove with
    | created hpc hlink =>
      refine ⟨by simp [left, serverLeft, clientLeft, Party.goto, start, Client.main, Server.main],
        .inl ⟨⟨a, rfl⟩, hat', ?_⟩⟩
      simp [Smooth, Party.goto, start, Client.main]
    | createFailed hpc hmay => cases hmay
    | _ => simp_all [start, Server.main]
  | right a =>
    obtain ⟨⟨c₁, w₁⟩, hstep, hd⟩ := Option.map_eq_some_iff.mp h
    obtain ⟨call, hcall, henv, hnext⟩ := Program.step_eq_some.mp hstep
    have hmove := clientMove (c := Client.main stack') hcall henv hnext
    cases hd
    cases hmove with
    | waited hpc havailable => cases havailable.1
    | waitFailed hpc havailable =>
      refine ⟨by simp [left, serverLeft, clientLeft, Party.goto, start, Client.main, Server.main],
        .inr ⟨⟨a, rfl⟩, ?_⟩⟩
      simp [TooEarly, Party.goto, start, Server.main, Pipe.absent]
    | _ => simp_all [start, Client.main]

lemma underway_step {d d' : Server × Client × Pipe} {turn : Turn Answer}
    (h : Underway stack stack' d) (hs : step reliable d turn = some d') :
    Underway stack stack' d' ∧ left d' < left d := by
  rcases h with rfl | htime | hearly
  · obtain ⟨hlt, ⟨-, htime⟩ | ⟨-, hearly⟩⟩ := first_step hs
    · exact ⟨.inr (.inl htime), hlt⟩
    · exact ⟨.inr (.inr hearly), hlt⟩
  · obtain ⟨htime', hlt⟩ := onTime_step htime hs
    exact ⟨.inr (.inl htime'), hlt⟩
  · obtain ⟨hearly', hlt⟩ := early_step hearly hs
    exact ⟨.inr (.inr hearly'), hlt⟩

/-- The turns that are a read that has failed. -/
def FailedRead (turn : Turn Answer) : Prop :=
  turn = .left (.message none) ∨ turn = .right (.message none)

lemma not_failedRead {d d' : Server × Client × Pipe} {turn : Turn Answer}
    (hs : step reliable d turn = some d') (hlt : left d' < left d) : ¬ FailedRead turn := by
  rintro (rfl | rfl)
  · obtain ⟨⟨s', w'⟩, hstep, rfl⟩ := Option.map_eq_some_iff.mp hs
    obtain ⟨call, hcall, henv, hnext⟩ := Program.step_eq_some.mp hstep
    have hsame : s' = d.1 := server_next_none hnext
    rw [left, left, hsame] at hlt
    exact absurd hlt (lt_irrefl _)
  · obtain ⟨⟨c', w'⟩, hstep, rfl⟩ := Option.map_eq_some_iff.mp hs
    obtain ⟨call, hcall, henv, hnext⟩ := Program.step_eq_some.mp hstep
    have hsame : c' = d.2.1 := client_next_none hnext
    rw [left, left, hsame] at hlt
    exact absurd hlt (lt_irrefl _)

/-- If no call fails of itself, a session makes at most 17 calls, none of which is a read that has
failed, and goes on until it comes to one of two ends. In the one both programs return 0 and have
printed the message of the other; in the other one the client came before the pipe was made, gave
up and left the server waiting. -/
theorem both_return_or_early (h : turns.foldlM (step reliable) (start stack stack') = some d) :
    turns.length ≤ 17 ∧ (∀ turn ∈ turns, ¬ FailedRead turn) ∧
      ((∃ turn d', step reliable d turn = some d') ∨
        ((∃ a rest, turns = .left a :: rest) ∧ d.1.pc = .returned 0 ∧ d.2.1.pc = .returned 0 ∧
          d.1.printed = [heard] ∧ d.2.1.printed = [answer]) ∨
        (∃ a rest, turns = .right a :: rest) ∧ d.1.pc = .connect ∧ d.2.1.pc = .returned 1) := by
  obtain ⟨-, hlen⟩ := foldlM_length_le_of_inv (motive := Underway stack stack') left (.inl rfl)
    (fun _ _ _ hd hs => underway_step hd hs) h
  refine ⟨Nat.le_of_add_right_le hlen, ?_, ?_⟩
  · apply foldlM_forall_of_inv (motive := Underway stack stack')
      (Q := fun turn => ¬ FailedRead turn) (.inl rfl) _ h
    intro c d turn hc hs
    obtain ⟨hd, hlt⟩ := underway_step hc hs
    exact ⟨hd, not_failedRead hs hlt⟩
  by_cases hno : ∃ turn d', step reliable d turn = some d'
  · exact .inl hno
  obtain ⟨phase, hat⟩ := at_run h
  cases turns with
  | nil =>
    cases h
    exact absurd (server_turn rfl (a := .success true) rfl rfl) hno
  | cons turn rest =>
    rw [List.foldlM_cons] at h
    obtain ⟨d₁, hfirst, hrest⟩ := Option.bind_eq_some_iff.mp h
    obtain ⟨-, ⟨⟨a, rfl⟩, htime⟩ | ⟨⟨a, rfl⟩, hearly⟩⟩ := first_step hfirst
    · obtain ⟨-, hsmooth⟩ := foldlM_induction (motive := OnTime) htime
        (fun _ _ _ ht hs => (onTime_step ht hs).1) hrest
      have hend : d.1.pc = .returned 0 ∧ d.2.1.pc = .returned 0 := by
        by_contra hdone
        exact hno (smooth_progress hat hsmooth hdone)
      exact .inr (.inl ⟨⟨a, rest, rfl⟩, hend.1, hend.2, printed_returned hat hend.2⟩)
    · have hearly' := foldlM_induction (motive := fun d => TooEarly d.1 d.2.1 d.2.2) hearly
        (fun _ _ _ ht hs => (early_step ht hs).1) hrest
      have hend : d.1.pc = .connect ∧ d.2.1.pc = .returned 1 := by
        by_contra hdone
        exact hno (early_progress hat hearly' hdone)
      exact .inr (.inr ⟨⟨a, rest, rfl⟩, hend⟩)

theorem both_return_or_early_demo : ∃ (turns : List (Turn Answer)) (d : Server × Client × Pipe),
    turns.foldlM (step reliable) (start [] []) = some d ∧ turns.length = 17 ∧
      d.1.printed = [heard] ∧ d.2.1.printed = [answer] := by
  have hrun : (List.foldlM (step reliable) (start [] [])
      [.left (.success true), .right (.success true), .right (.success true),
        .left (.success true), .right (.success true),
        .left (.message (some (toSend CLIENT_MSG))), .right (.success true),
        .left (.success true), .left (.success true),
        .right (.message (some (toSend SERVER_MSG))), .left (.success true),
        .left (.success true), .right (.success true), .left (.success true),
        .right (.success true), .left (.success true), .right (.success true)]).map
      (fun d => (d.1.pc, d.2.1.pc)) = some (.returned 0, .returned 0) := by decide +kernel
  obtain ⟨d, hd, hend⟩ := Option.map_eq_some_iff.mp hrun
  obtain ⟨hs, hc⟩ := Prod.mk.inj hend
  obtain ⟨-, -, ⟨turn, d', hstep⟩ | ⟨-, -, -, hprinted⟩ | ⟨-, hconnect, -⟩⟩ :=
    both_return_or_early hd
  · rw [step_returned hs hc turn] at hstep
    cases hstep
  · exact ⟨_, d, hd, rfl, hprinted⟩
  · exact absurd (hs.symm.trans hconnect) (by decide)

end Runs

end Eece315.PipesCompletion
