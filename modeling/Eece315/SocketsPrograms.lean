import Mathlib
import Eece315.CallPrograms

/-! The socket client and server as programs that call Winsock. The machines stop at every call;
what lies between two calls of the source is one step of theirs. A socket is the handle that
Winsock gave out, `none` where the source has `INVALID_SOCKET`. -/
namespace Eece315.SocketsPrograms

open CallPrograms

def BUFFERL : ℕ := 80

def DEFAULT_PORT : String := "25213"

def SOCKET_ERROR : ℤ := -1

/-- The calls of both programs with what they pass. An address is an element of the list that
`getaddrinfo` gives; the functions that are called with parts of one name it. -/
inductive Call
  | wsaStartup
  | wsaGetLastError
  | wsaCleanup
  | getaddrinfo (name : Option String) (port : String)
  | freeaddrinfo
  | socket (address : ℕ)
  | bind (sock : Option ℕ) (address : ℕ)
  | listen (sock : Option ℕ)
  | accept (sock : Option ℕ)
  | connect (sock : Option ℕ) (address : ℕ)
  | send (sock : Option ℕ) (bytes : List Char)
  | recv (sock : Option ℕ) (length : ℕ)
  | shutdown (sock : Option ℕ)
  | closesocket (sock : Option ℕ)
  deriving DecidableEq, Repr

inductive Answer
  | code (errco : ℤ)
  | socket (sock : Option ℕ)
  | addresses (errco : ℤ) (result : List ℕ)
  /-- The bytes received, `none` for `SOCKET_ERROR`. -/
  | data (received : Option (List Char))
  deriving DecidableEq, Repr

/-- What `recv` leaves in a buffer. -/
def recvInto (buffer bytes : List Char) : List Char := bytes ++ buffer.drop bytes.length

/-- What `%s` prints of a buffer, `none` when it reads beyond it. -/
def cString (buffer : List Char) : Option String :=
  if '\x00' ∈ buffer then some (String.ofList (buffer.takeWhile (· ≠ '\x00'))) else none

/-- The calls of `cleanupAfterFailedSend` after an error. -/
inductive Cleanup
  | error
  | close
  | clean
  deriving DecidableEq, Repr

def Cleanup.call (sock : Option ℕ) : Cleanup → Call
  | .error => .wsaGetLastError
  | .close => .closesocket sock
  | .clean => .wsaCleanup

def failure (errmsg : String) (errco : ℤ) : String := s!"{errmsg}; error code: {errco}\n"

/-- The call at which the client is. -/
inductive ClientPc
  | startup
  | startupError
  | resolve
  | resolveCleanup
  | socket
  | socketError
  | socketFree
  | socketCleanup
  | connect
  | connectClose
  | free
  | notConnected
  | send
  | shutdown
  | recv
  | recvError
  | close
  | cleanup
  | failed (stage : Cleanup) (errmsg : String) (back : ClientPc)
  | returned (errco : ℤ)
  deriving DecidableEq, Repr

structure Client where
  pc : ClientPc
  server : String
  port : String
  errco : ℤ
  ptr : List ℕ
  sock : Option ℕ
  recvBuffer : List Char
  /-- What was printed, `none` where `printf` read beyond the buffer. -/
  printed : List (Option String)

namespace Client

def message : List Char := "Hello! I am a client!".toList

/-- `main` up to its first call. The buffer holds what was on the stack. -/
def main (argv0 : String) (args : List String) (stack : List Char) : Client :=
  match args with
  | [server, port] => ⟨.startup, server, port, 0, [], none, stack, []⟩
  | _ => ⟨.returned 1, "", "", 0, [], none, stack,
      [some s!"USAGE: {argv0} server-address server-port\n",
        some s!"e.g., {argv0} 127.0.0.1 25213\n"]⟩

variable (c : Client)

def print (line : String) : Client := { c with printed := c.printed ++ [some line] }

/-- The head of the loop over the addresses. -/
def tryNext : Client := { c with pc := if c.ptr = [] then .free else .socket }

/-- `errco = cleanupAfterFailedSend(errco, &sock, errmsg); if (errco) return errco;`, which goes
on at `back`. -/
def check (errco : ℤ) (errmsg : String) (back : ClientPc) : Client :=
  { c with pc := if errco = SOCKET_ERROR then .failed .error errmsg back else back }

def call : Option Call :=
  match c.pc with
  | .startup => some .wsaStartup
  | .startupError => some .wsaGetLastError
  | .resolve => some (.getaddrinfo (some c.server) c.port)
  | .resolveCleanup => some .wsaCleanup
  | .socket => some (.socket (c.ptr.headD 0))
  | .socketError => some .wsaGetLastError
  | .socketFree => some .freeaddrinfo
  | .socketCleanup => some .wsaCleanup
  | .connect => some (.connect c.sock (c.ptr.headD 0))
  | .connectClose => some (.closesocket c.sock)
  | .free => some .freeaddrinfo
  | .notConnected => some .wsaCleanup
  | .send => some (.send c.sock message)
  | .shutdown => some (.shutdown c.sock)
  | .recv => some (.recv c.sock BUFFERL)
  | .recvError => some .wsaGetLastError
  | .close => some (.closesocket c.sock)
  | .cleanup => some .wsaCleanup
  | .failed stage _ _ => some (stage.call c.sock)
  | .returned _ => none

def next (a : Answer) : Option Client :=
  match c.pc, a with
  | .startup, .code errco =>
    some { c with pc := if errco = 0 then .resolve else .startupError }
  | .startupError, .code errco =>
    some { c.print s!"Initializing Winsock failed with error code: {errco}\n" with
      pc := .returned errco }
  | .resolve, .addresses errco result =>
    if errco = 0 then some { c with ptr := result }.tryNext
    else some { c.print
        s!"Resolving the server address and port failed with error code: {errco}\n" with
      pc := .resolveCleanup
      errco := errco }
  | .resolveCleanup, .code _ => some { c with pc := .returned c.errco }
  | .socket, .socket sock =>
    some { c with
      sock := sock
      pc := if sock = none then .socketError else .connect }
  | .socketError, .code errco =>
    some { c.print s!"Could not create a SOCKET; error code: {errco}\n" with
      pc := .socketFree
      errco := errco }
  | .socketFree, .code _ => some { c with pc := .socketCleanup }
  | .socketCleanup, .code _ => some { c with pc := .returned c.errco }
  | .connect, .code errco =>
    some { c with pc := if errco = SOCKET_ERROR then .connectClose else .free }
  | .connectClose, .code _ => some { c with sock := none, ptr := c.ptr.tail }.tryNext
  | .free, .code _ =>
    if c.sock = none then
      some { c.print s!"We weren't able to connect to the server at {c.server}:{c.port} :(\n" with
        pc := .notConnected }
    else some { c with pc := .send }
  | .notConnected, .code _ => some { c with pc := .returned 1 }
  | .send, .code errco => some (c.check errco "We couldn't send the message" .shutdown)
  | .shutdown, .code errco =>
    some (c.check errco "We couldn't shutdown the connection for sending" .recv)
  | .recv, .data (some []) => some { c.print "Connection closed\n" with pc := .close }
  | .recv, .data (some bytes) =>
    let buffer := recvInto c.recvBuffer bytes
    some { c with
      recvBuffer := buffer
      printed := c.printed ++ [(cString buffer).map fun text => s!"The server says: {text}\n"] }
  | .recv, .data none => some { c with pc := .recvError }
  | .recvError, .code errco =>
    some { c.print s!"Receiving message from the server failed; error code: {errco}\n" with
      pc := .close }
  | .close, .code _ => some { c with pc := .cleanup }
  | .cleanup, .code _ => some { c with pc := .returned 0 }
  | .failed .error errmsg back, .code errco =>
    some { c.print (failure errmsg errco) with
      pc := .failed .close errmsg back
      errco := errco }
  | .failed .close errmsg back, .code _ => some { c with pc := .failed .clean errmsg back }
  | .failed .clean _ back, .code _ =>
    some { c with pc := if c.errco ≠ 0 then .returned c.errco else back }
  | _, _ => none

def program : Program Client Call Answer := ⟨call, next⟩

end Client

/-- The call at which the server is. `cleanupAfterFailedSend` closes the socket it was passed. -/
inductive ServerPc
  | startup
  | startupError
  | resolve
  | resolveCleanup
  | socket
  | socketError
  | socketFree
  | socketCleanup
  | bind
  | bindFree
  | free
  | listen
  | accept
  | acceptError
  | recv
  | send (length : ℕ)
  | shutdown
  | close
  | cleanup
  | failed (stage : Cleanup) (sock : Option ℕ) (errmsg : String) (back : ServerPc)
  | returned (errco : ℤ)
  deriving DecidableEq, Repr

structure Server where
  pc : ServerPc
  errco : ℤ
  result : List ℕ
  sock : Option ℕ
  csock : Option ℕ
  recvBuffer : List Char
  printed : List (Option String)

namespace Server

/-- The literal that the server sends from, with its NUL. -/
def greeting : List Char := "Hello! I am a server!".toList ++ ['\x00']

def main (stack : List Char) : Server := ⟨.startup, 0, [], none, none, stack, []⟩

/-- The bytes that `send` reads from the literal on. `beyond` is what the memory holds after it. -/
def reply (beyond : ℕ → Char) (length : ℕ) : List Char :=
  greeting.take length ++ (List.range (length - greeting.length)).map beyond

variable (beyond : ℕ → Char) (s : Server)

def print (line : String) : Server := { s with printed := s.printed ++ [some line] }

/-- `errco = cleanupAfterFailedSend(errco, &sock, errmsg); if (errco) return errco;`, which goes
on at `back`. -/
def check (errco : ℤ) (sock : Option ℕ) (errmsg : String) (back : ServerPc) : Server :=
  { s with pc := if errco = SOCKET_ERROR then .failed .error sock errmsg back else back }

def call : Option Call :=
  match s.pc with
  | .startup => some .wsaStartup
  | .startupError => some .wsaGetLastError
  | .resolve => some (.getaddrinfo none DEFAULT_PORT)
  | .resolveCleanup => some .wsaCleanup
  | .socket => some (.socket (s.result.headD 0))
  | .socketError => some .wsaGetLastError
  | .socketFree => some .freeaddrinfo
  | .socketCleanup => some .wsaCleanup
  | .bind => some (.bind s.sock (s.result.headD 0))
  | .bindFree => some .freeaddrinfo
  | .free => some .freeaddrinfo
  | .listen => some (.listen s.sock)
  | .accept => some (.accept s.sock)
  | .acceptError => some .wsaGetLastError
  | .recv => some (.recv s.csock BUFFERL)
  | .send length => some (.send s.csock (reply beyond length))
  | .shutdown => some (.shutdown s.csock)
  | .close => some (.closesocket s.csock)
  | .cleanup => some .wsaCleanup
  | .failed stage sock _ _ => some (stage.call sock)
  | .returned _ => none

def next (a : Answer) : Option Server :=
  match s.pc, a with
  | .startup, .code errco =>
    some { s with pc := if errco = 0 then .resolve else .startupError }
  | .startupError, .code errco =>
    some { s.print s!"Initializing Winsock failed with error code: {errco}\n" with
      pc := .returned errco }
  | .resolve, .addresses errco result =>
    if errco = 0 then some { s with result := result, pc := .socket }
    else
      let msg := "Failed to resolve address and port to be used by the server with error code"
      some { s.print s!"{msg}: {errco}\n" with
        pc := .resolveCleanup
        errco := errco }
  | .resolveCleanup, .code _ => some { s with pc := .returned s.errco }
  | .socket, .socket sock =>
    some { s with
      sock := sock
      pc := if sock = none then .socketError else .bind }
  | .socketError, .code errco =>
    some { s.print s!"We couldn't initialize the socket with error code: {errco}\n" with
      pc := .socketFree
      errco := errco }
  | .socketFree, .code _ => some { s with pc := .socketCleanup }
  | .socketCleanup, .code _ => some { s with pc := .returned s.errco }
  | .bind, .code errco =>
    if errco = SOCKET_ERROR then some { s with pc := .bindFree }
    else if errco ≠ 0 then some { s with pc := .returned errco }
    else some { s with pc := .free }
  | .bindFree, .code _ =>
    some { s with pc := .failed .error s.sock "We couldn't bind the socket" .free }
  | .free, .code _ =>
    some { s.print s!"Successfully bound on localhost:{DEFAULT_PORT}\n" with pc := .listen }
  | .listen, .code errco => some (s.check errco s.sock "Listen failed" .accept)
  | .accept, .socket csock =>
    some { s with
      csock := csock
      pc := if csock = none then .acceptError else .recv }
  | .acceptError, .code errco => some (s.check errco s.sock "Accept from client failed" .recv)
  | .recv, .data (some []) => some { s.print "Closing connection . . . \n" with pc := .shutdown }
  | .recv, .data (some bytes) =>
    let buffer := recvInto s.recvBuffer bytes
    some { s with
      pc := .send bytes.length
      recvBuffer := buffer
      printed := s.printed ++ [(cString buffer).map fun text => s!"The client says: {text}\n"] }
  | .recv, .data none =>
    some (s.check SOCKET_ERROR s.csock "Failed to receive message from client" .shutdown)
  | .send _, .code errco =>
    some (s.check errco s.csock "Couldn't send a reply to the client" .recv)
  | .shutdown, .code errco => some (s.check errco s.csock "Failed to shutdown socket" .close)
  | .close, .code _ => some { s with pc := .cleanup }
  | .cleanup, .code _ => some { s with pc := .returned 0 }
  | .failed .error sock errmsg back, .code errco =>
    some { s.print (failure errmsg errco) with
      pc := .failed .close sock errmsg back
      errco := errco }
  | .failed .close sock errmsg back, .code _ =>
    some { s with pc := .failed .clean sock errmsg back }
  | .failed .clean _ _ back, .code _ =>
    some { s with pc := if s.errco ≠ 0 then .returned s.errco else back }
  | _, _ => none

def program : Program Server Call Answer := ⟨call beyond, next⟩

end Server

end Eece315.SocketsPrograms
