import Mathlib
import Eece315.SocketsPrograms

/-! The client and the server of the named pipe as programs that call Windows, and the pipe as it
is documented: an instance that one client may open, with a queue of messages in each direction. A
program is at one call after the other, the last of which is the exit of its process, which closes
the handle that it may still hold. The `printf` behind a `ReadFile` is a call of its own, since the
other program may go on as soon as the message is read. -/
namespace Eece315.PipesPrograms

open CallPrograms SocketsPrograms

def SERV_PIPE : String := "\\\\.\\pipe\\serv_pipe"

def MESG_BUFFER_SIZE : ℕ := 256

def SERVER_MSG : String := "Hello! I am a server!"

def CLIENT_MSG : String := "Hello! I am a client!"

/-- Each program has one handle, which is not named. -/
inductive Call
  | createNamedPipe (name : String)
  | connectNamedPipe
  | disconnectNamedPipe
  | waitNamedPipe (name : String)
  | createFile (name : String)
  | readFile (size : ℕ)
  | writeFile (bytes : List Char)
  | flushFileBuffers
  | closeHandle
  | getLastError
  | printf
  | exitProcess (code : ℤ)
  deriving DecidableEq, Repr

inductive Answer
  | success (done : Bool)
  /-- The message that was read, `none` if `ReadFile` returned `FALSE`. -/
  | message (bytes : Option (List Char))
  | code (errco : ℤ)
  deriving DecidableEq, Repr

/-- What is written of a message: its bytes and the NUL. -/
def toSend (msg : String) : List Char := msg.toList ++ ['\x00']

/-- The variables of either program that are read again. -/
structure Party (Pc : Type) where
  pc : Pc
  recv_buf : List Char
  /-- What was printed, `none` where `printf` read beyond the buffer. -/
  printed : List (Option String)

namespace Party

variable {Pc : Type} (p : Party Pc)

def goto (pc : Pc) : Party Pc := { p with pc := pc }

def print (line : String) (pc : Pc) : Party Pc :=
  { p with
    pc := pc
    printed := p.printed ++ [some line] }

def receive (bytes : List Char) (pc : Pc) : Party Pc :=
  { p with
    pc := pc
    recv_buf := recvInto p.recv_buf bytes }

def printMessage (sender : String) (pc : Pc) : Party Pc :=
  { p with
    pc := pc
    printed := p.printed ++
      [(cString p.recv_buf).map fun text => s!"Message from {sender}: {text}\n"] }

end Party

inductive ServerPc
  | create
  | createError
  | connect
  | read
  | print
  | write
  | writeError
  | flush
  | disconnect
  | close
  | exit (code : ℤ)
  | returned (code : ℤ)
  deriving DecidableEq, Repr

abbrev Server := Party ServerPc

namespace Server

/-- `main` up to its first call. The buffer holds what was on the stack. -/
def main (stack : List Char) : Server := ⟨.create, stack, []⟩

variable (s : Server)

def call : Option Call :=
  match s.pc with
  | .create => some (.createNamedPipe SERV_PIPE)
  | .createError => some .getLastError
  | .connect => some .connectNamedPipe
  | .read => some (.readFile MESG_BUFFER_SIZE)
  | .print => some .printf
  | .write => some (.writeFile (toSend SERVER_MSG))
  | .writeError => some .getLastError
  | .flush => some .flushFileBuffers
  | .disconnect => some .disconnectNamedPipe
  | .close => some .closeHandle
  | .exit code => some (.exitProcess code)
  | .returned _ => none

/-- The answers of `ConnectNamedPipe` and of the last three calls are not looked at. -/
def next (a : Answer) : Option Server :=
  match s.pc, a with
  | .create, .success done => some (s.goto (if done then .connect else .createError))
  | .createError, .code errco =>
    some (s.print s!"Pipe creation failed; Error code: {errco}\n" (.exit 1))
  | .connect, .success _ => some (s.goto .read)
  | .read, .message none => some s
  | .read, .message (some bytes) => some (s.receive bytes .print)
  | .print, .success true => some (s.printMessage "client" .write)
  | .write, .success done => some (s.goto (if done then .flush else .writeError))
  | .writeError, .code errco =>
    some (s.print s!"Failed to write to the pipe; Error code: {errco}\n" (.exit 1))
  | .flush, .success _ => some (s.goto .disconnect)
  | .disconnect, .success _ => some (s.goto .close)
  | .close, .success _ => some (s.goto (.exit 0))
  | .exit code, .success true => some (s.goto (.returned code))
  | _, _ => none

def program : Program Server Call Answer := ⟨call, next⟩

end Server

inductive ClientPc
  | wait
  | waitError
  | create
  | createError
  | write
  | writeError
  | flush
  | read
  | print
  | close
  | exit (code : ℤ)
  | returned (code : ℤ)
  deriving DecidableEq, Repr

abbrev Client := Party ClientPc

namespace Client

def main (stack : List Char) : Client := ⟨.wait, stack, []⟩

variable (c : Client)

def call : Option Call :=
  match c.pc with
  | .wait => some (.waitNamedPipe SERV_PIPE)
  | .waitError => some .getLastError
  | .create => some (.createFile SERV_PIPE)
  | .createError => some .getLastError
  | .write => some (.writeFile (toSend CLIENT_MSG))
  | .writeError => some .getLastError
  | .flush => some .flushFileBuffers
  | .read => some (.readFile MESG_BUFFER_SIZE)
  | .print => some .printf
  | .close => some .closeHandle
  | .exit code => some (.exitProcess code)
  | .returned _ => none

def next (a : Answer) : Option Client :=
  match c.pc, a with
  | .wait, .success done => some (c.goto (if done then .create else .waitError))
  | .waitError, .code errco =>
    some (c.print s!"Error code {errco} happened while waiting for the pipe. :(\n" (.exit 1))
  | .create, .success done => some (c.goto (if done then .write else .createError))
  | .createError, .code errco =>
    some (c.print s!"Error code {errco} happened during CreateFile. :(\n" (.exit 1))
  | .write, .success done => some (c.goto (if done then .flush else .writeError))
  | .writeError, .code errco =>
    some (c.print s!"Failed to write to the pipe; Error code: {errco}\n" (.exit 1))
  | .flush, .success _ => some (c.goto .read)
  | .read, .message none => some c
  | .read, .message (some bytes) => some (c.receive bytes .print)
  | .print, .success true => some (c.printMessage "server" .close)
  | .close, .success _ => some (c.goto (.exit 0))
  | .exit code, .success true => some (c.goto (.returned code))
  | _, _ => none

def program : Program Client Call Answer := ⟨call, next⟩

end Client

inductive Link
  | absent
  | listening
  | attached
  | disconnected
  deriving DecidableEq, Repr

/-- One end of the pipe: whether its handle is open, and the messages written at it that are not
yet read at the other. -/
structure End where
  isOpen : Bool
  sent : List (List Char)
  deriving DecidableEq, Repr

/-- The instance of the pipe, as the end sees it that is near. -/
structure Pipe where
  name : String
  link : Link
  near : End
  far : End
  deriving DecidableEq, Repr

namespace Pipe

/-- There is no pipe before the server has made one. -/
def absent : Pipe := ⟨"", .absent, ⟨false, []⟩, ⟨false, []⟩⟩

variable (p : Pipe)

def flip : Pipe := ⟨p.name, p.link, p.far, p.near⟩
def create (name : String) : Pipe := ⟨name, .listening, ⟨true, []⟩, ⟨false, []⟩⟩
def attach : Pipe := { p with link := .attached, far := ⟨true, []⟩ }
def push (bytes : List Char) : Pipe := { p with near := ⟨p.near.isOpen, p.near.sent ++ [bytes]⟩ }
def pull (rest : List (List Char)) : Pipe := { p with far := ⟨p.far.isOpen, rest⟩ }
def close : Pipe := { p with near := ⟨false, p.near.sent⟩ }

/-- What was not read is discarded. -/
def disconnect : Pipe :=
  ⟨p.name, .disconnected, ⟨p.near.isOpen, []⟩, ⟨p.far.isOpen, []⟩⟩

def Available (name : String) : Prop := p.link = .listening ∧ p.near.isOpen ∧ p.name = name

/-- There may be something to read, now or later. -/
def Readable : Prop := p.link = .attached ∧ (p.far.sent ≠ [] ∨ p.far.isOpen)

def Writable : Prop := p.link = .attached ∧ p.far.isOpen

instance (name : String) : Decidable (p.Available name) := by
  unfold Available
  infer_instance

instance : Decidable p.Readable := by
  unfold Readable
  infer_instance

instance : Decidable p.Writable := by
  unfold Writable
  infer_instance

/-- The calls of both ends. `ReadFile` waits for a message as long as there may be one, and
`FlushFileBuffers` until all that was written is read. -/
def transfer : Call → Answer → Option Pipe
  | .readFile _, .message none => if p.Readable then none else some p
  | .readFile size, .message (some bytes) =>
    match p.far.sent with
    | [] => none
    | m :: rest =>
      if p.link = .attached ∧ m = bytes ∧ bytes.length ≤ size then some (p.pull rest) else none
  | .writeFile bytes, .success true => if p.Writable then some (p.push bytes) else none
  | .writeFile _, .success false => if p.Writable then none else some p
  | .flushFileBuffers, .success true =>
    if p.link = .attached ∧ p.near.sent = [] then some p else none
  | .flushFileBuffers, .success false => if p.Writable then none else some p
  | .closeHandle, .success true => some p.close
  | .getLastError, .code _ => some p
  | .printf, .success true => some p
  | .exitProcess _, .success true => some p.close
  | _, _ => none

/-- The calls of the server. `ConnectNamedPipe` waits for a client; it also fails if one has come
before it. -/
def serverEnd : Call → Answer → Option Pipe
  | .createNamedPipe name, .success true => if p.link = .absent then some (create name) else none
  | .connectNamedPipe, .success _ => if p.link = .attached then some p else none
  | .disconnectNamedPipe, .success true =>
    if p.link = .attached then some p.disconnect else none
  | .disconnectNamedPipe, .success false => if p.link = .attached then none else some p
  | call, a => p.transfer call a

/-- The calls of the client. `WaitNamedPipe` does not wait if there is no pipe. -/
def clientEnd : Call → Answer → Option Pipe
  | .waitNamedPipe name, .success done => if done = p.Available name then some p else none
  | .createFile name, .success true => if p.Available name then some p.attach else none
  | .createFile name, .success false => if p.Available name then none else some p
  | call, a => (p.flip.transfer call a).map flip

end Pipe

def Answer.Failure : Answer → Bool
  | .success done => !done
  | .message bytes => bytes.isNone
  | .code _ => false

/-- Some calls may also fail for reasons of their own; they do nothing then. -/
def failing (may : Call → Bool) (env : Environment Pipe Call Answer) :
    Environment Pipe Call Answer :=
  fun p call a => if a.Failure ∧ may call then some p else env p call a

/-- The server and the client take turns in any order. -/
def step (may : Call → Bool) :
    Server × Client × Pipe → Turn Answer → Option (Server × Client × Pipe) :=
  both Server.program Client.program (failing may Pipe.serverEnd) (failing may Pipe.clientEnd)

end Eece315.PipesPrograms
