import Rebocap.Bridge.BothWays

/-!
# The bridge, call by call

The main thread accepts one driver after the other. For each it opens the pipe, starts the thread
that reads the pipe, and is itself the thread that reads the socket. Either of the two ends the
session, and the main thread waits for the other one before it closes the handles.

* `Process.mainStep` — the loop of `main`, with `open_pipe`, `sock_to_pipe` and `end_session`
* `Process.readerStep` — `pipe_to_sock`, with `end_session`
-/

namespace Rebocap.Bridge

open Lib Rebocap.Net

/-! ## Where the threads are -/

/-- Where the main thread is, with its locals. -/
inductive Main where
  | accept
  /-- Before `CreateFileA` in `open_pipe`. -/
  | createFile
  | setMode
  | waitNamedPipe
  | select
  /-- Before the `recv` of `open_pipe`, which looks whether the driver is still there. -/
  | peek
  | sleep
  | createThread
  /-- Before `!s->closing` in `sock_to_pipe`. -/
  | top
  /-- In `recv_all` for the header, `got` has been received. -/
  | recvHead (got : Bytes)
  | recvBody (head got : Bytes)
  | writeFile (buf : Bytes)
  /-- Before `GetOverlappedResult`. -/
  | writeResult (buf : Bytes)
  /-- Before `InterlockedExchange` in `end_session`. -/
  | exchange
  | shutdown
  | cancel
  /-- Before `WaitForSingleObject`. -/
  | wait
  /-- Before the `CancelIoEx` of that loop. -/
  | cancelAgain
  | closeThread
  | closePipe
  | closeSock
deriving DecidableEq

/-- Where the thread is that reads the pipe. -/
inductive Reader where
  /-- Before `!s->closing` in `pipe_to_sock`. -/
  | top
  | readFile
  | readResult
  | send (message : Bytes)
  | exchange
  | shutdown
  | cancel
  /-- There is no such thread: it has returned, or was never started. -/
  | done
deriving DecidableEq

/-- The overlapped operation of a `pipe_io`. -/
inductive Io where
  | idle
  | pending
  /-- `CancelIoEx` found it pending. -/
  | cancelled
deriving DecidableEq

/-- `CancelIoEx` cancels what is pending, and nothing that begins later. -/
def Io.cancel : Io → Io
  | .pending => .cancelled
  | .idle => .idle
  | .cancelled => .cancelled

structure Process where
  main : Main := .accept
  reader : Reader := .done
  closing : Bool := false
  /-- The handles that are open. -/
  sock : Bool := false
  pipe : Bool := false
  thread : Bool := false
  /-- `CreateThread` has failed, so that `thread` is NULL in `main`. -/
  noThread : Bool := false
  /-- `shutdown` was called on the socket. -/
  shut : Bool := false
  readIo : Io := .idle
  writeIo : Io := .idle
  /-- What the session has received from the socket, and the buffers passed to `WriteFile`. -/
  received : Bytes := []
  wrote : List Bytes := []
  /-- The messages that it has read from the pipe, and what `send` took of them. -/
  read : List Bytes := []
  sent : List Bytes := []

/-! ## What the system answers -/

inductive CreateFile where
  | opened
  | busy
  | failed

inductive RecvAnswer where
  | blocked
  | bytes (chunk : Bytes)
  /-- It returns 0 or an error. -/
  | ended

/-- The outcome of an overlapped operation. -/
inductive IoAnswer (α : Type) where
  | pending
  | failed
  | done (result : α)

inductive SendAnswer where
  | blocked
  /-- It takes the first `n` bytes, none if it fails. -/
  | took (n : Nat)

/-- The answers to the calls of the main thread, each for when it makes this call. -/
structure MainAnswer where
  accepted : Bool
  createFile : CreateFile
  /-- `select` finds the socket readable. -/
  ready : Bool
  /-- `recv` finds data. -/
  peeked : Bool
  /-- `CreateThread` does not fail. -/
  created : Bool
  recv : RecvAnswer
  /-- `WriteFile` is not refused at once. -/
  started : Bool
  written : IoAnswer Nat

/-- The answers to the calls of the other thread. -/
structure ReaderAnswer where
  /-- `ReadFile` is not refused at once. -/
  started : Bool
  message : IoAnswer Bytes
  send : SendAnswer

/-- `GetOverlappedResult`: an operation that was cancelled may have been completed before. -/
def overlappedResult {α : Type} (io : Io) : IoAnswer α → IoAnswer α
  | .pending => if io = .cancelled then .failed else .pending
  | .failed => .failed
  | .done result => .done result

namespace Process

def gotoMain (p : Main) (s : Process) : Process := { s with main := p }

def gotoReader (p : Reader) (s : Process) : Process := { s with reader := p }

/-- `CancelIoEx(s->pipe, NULL)`. -/
def cancelIo (s : Process) : Process :=
  { s with readIo := s.readIo.cancel, writeIo := s.writeIo.cancel }

/-! ## The main thread -/

/-- A call of `recv` in `recv_all`, for at most `len` bytes: no other number can be returned. After
`shutdown` it does not block. -/
def recvOutcome (len : Nat) (s : Process) : RecvAnswer → RecvAnswer
  | .blocked => if s.shut then .ended else .blocked
  | .bytes chunk => if chunk ≠ [] ∧ chunk.length ≤ len then .bytes chunk else .ended
  | .ended => .ended

/-- The body is received up to `got`. -/
def bodyPlace (head got : Bytes) : Main :=
  if got.length < leValue head then .recvBody head got else .writeFile (head ++ got)

/-- The header is received up to `got`. -/
def headPlace (got : Bytes) : Main :=
  if got.length < 4 then .recvHead got
  else if leValue got > maxPayload then .exchange
  else bodyPlace got []

def mainStep (a : MainAnswer) (s : Process) : Process :=
  match s.main with
  | .accept =>
    if a.accepted then
      { s with
        main := .createFile
        closing := false
        sock := true
        shut := false
        received := []
        wrote := []
        read := []
        sent := [] }
    else s
  | .createFile =>
    match a.createFile with
    | .opened => { s with pipe := true, main := .setMode }
    | .busy => s.gotoMain .waitNamedPipe
    | .failed => s.gotoMain .select
  | .setMode => s.gotoMain .createThread -- a failure is only logged
  | .waitNamedPipe => s.gotoMain .createFile
  | .select => s.gotoMain (if a.ready then .peek else .createFile)
  | .peek => s.gotoMain (if a.peeked then .sleep else .closeSock)
  | .sleep => s.gotoMain .createFile
  | .createThread =>
    if a.created then { s with thread := true, noThread := false, reader := .top, main := .top }
    else { s with noThread := true, main := .top }
  | .top => s.gotoMain (if s.closing then .exchange else .recvHead [])
  | .recvHead got =>
    match s.recvOutcome (4 - got.length) a.recv with
    | .blocked => s
    | .ended => s.gotoMain .exchange
    | .bytes chunk => { s with received := s.received ++ chunk, main := headPlace (got ++ chunk) }
  | .recvBody head got =>
    match s.recvOutcome (leValue head - got.length) a.recv with
    | .blocked => s
    | .ended => s.gotoMain .exchange
    | .bytes chunk =>
      { s with received := s.received ++ chunk, main := bodyPlace head (got ++ chunk) }
  | .writeFile buf =>
    let s := { s with wrote := s.wrote ++ [buf] }
    if a.started then { s with writeIo := .pending, main := .writeResult buf }
    else s.gotoMain .exchange
  | .writeResult buf =>
    match overlappedResult s.writeIo a.written with
    | .pending => s
    | .failed => { s with writeIo := .idle, main := .exchange }
    | .done n => { s with writeIo := .idle, main := if n = buf.length then .top else .exchange }
  | .exchange =>
    if s.closing then s.gotoMain .wait else { s with closing := true, main := .shutdown }
  | .shutdown => { s with shut := true, main := .cancel }
  | .cancel => s.cancelIo.gotoMain .wait
  | .wait =>
    -- on NULL it fails at once, and `CloseHandle` does nothing
    s.gotoMain (if s.thread ∧ s.reader ≠ .done then .cancelAgain else .closeThread)
  | .cancelAgain => s.cancelIo.gotoMain .wait
  | .closeThread => { s with thread := false, main := .closePipe }
  | .closePipe => { s with pipe := false, main := .closeSock }
  | .closeSock => { s with sock := false, main := .accept }

/-! ## The other thread -/

def readerStep (a : ReaderAnswer) (s : Process) : Process :=
  match s.reader with
  | .top => s.gotoReader (if s.closing then .exchange else .readFile)
  | .readFile =>
    if a.started then { s with readIo := .pending, reader := .readResult }
    else s.gotoReader .exchange
  | .readResult =>
    match overlappedResult s.readIo a.message with
    | .pending => s
    | .failed => { s with readIo := .idle, reader := .exchange }
    | .done message =>
      -- `ERROR_MORE_DATA`
      if message.length > pipeBuffer then { s with readIo := .idle, reader := .exchange }
      else
        { s with
          readIo := .idle
          read := s.read ++ [message]
          reader := if WellHeaded message then .send message else .top }
  | .send message =>
    match a.send with
    | .blocked => if s.shut then s.gotoReader .exchange else s
    | .took n =>
      { s with
        sent := s.sent ++ [message.take n]
        reader := if message.length ≤ n then .top else .exchange }
  | .exchange =>
    if s.closing then s.gotoReader .done else { s with closing := true, reader := .shutdown }
  | .shutdown => { s with shut := true, reader := .cancel }
  | .cancel => s.cancelIo.gotoReader .done
  | .done => s

/-! ## Both -/

inductive Event where
  | main (a : MainAnswer)
  | reader (a : ReaderAnswer)

def step : Event → Process → Process
  | .main a, s => s.mainStep a
  | .reader a, s => s.readerStep a

end Process

end Rebocap.Bridge
