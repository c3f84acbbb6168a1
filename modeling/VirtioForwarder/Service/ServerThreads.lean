import VirtioForwarder.Library.Program
import VirtioForwarder.Service.Server

/-! The life of a ZeroMQ server: `zmq_server_start` and `zmq_server_stop` on the main thread
and `zmq_thread` on the thread that they create, over two pipes, the `struct zmq_server` on
the heap, the service, and the ZeroMQ socket with its context. Loops have a bound on their
rounds, over which all results quantify.
-/

namespace VirtioForwarder.ZmqServer

open Program

/-- The ends of the ready pipe and of the quit pipe, under the names that `close_fd` is given.
-/
inductive PipeEnd
  | readyFd
  | sendReadyFd
  | quitFd
  | sendQuitFd
  deriving DecidableEq, Repr

/-- The other end of the pipe. -/
def PipeEnd.peer : PipeEnd → PipeEnd
  | .readyFd => .sendReadyFd
  | .sendReadyFd => .readyFd
  | .quitFd => .sendQuitFd
  | .sendQuitFd => .quitFd

/-- What is opened and closed. -/
inductive Resource
  | pipe (fd : PipeEnd)
  | context
  | socket
  deriving DecidableEq, Repr

/-- `struct zmq_server` without the thread, the endpoint and the service; -1 is `none`. -/
structure Fields where
  readyFd : Option PipeEnd
  sendQuitFd : Option PipeEnd
  contextSendReadyFd : Option PipeEnd
  contextQuitFd : Option PipeEnd
  deriving DecidableEq, Repr

/-- The descriptors of `struct zmq_server` that are closed through a pointer. -/
inductive FdField
  | readyFd
  | sendQuitFd
  deriving DecidableEq, Repr

def FdField.read (fields : Fields) : FdField → Option PipeEnd
  | .readyFd => fields.readyFd
  | .sendQuitFd => fields.sendQuitFd

def FdField.clear (fields : Fields) : FdField → Fields
  | .readyFd => { fields with readyFd := none }
  | .sendQuitFd => { fields with sendQuitFd := none }

/-- A heap block. -/
inductive Block
  | absent
  | live
  | freed
  deriving DecidableEq, Repr

/-- What the two threads share. `released` counts the calls of `zmq_service_release`, `handle`
tells whether the caller's variable points to the server. Three fields are only recorded: the
main thread has given up on the thread, a resource was used while it was not open, and freed
memory was used.
-/
structure State where
  isOpen : Resource → Bool
  pending : PipeEnd → Nat
  server : Block
  fields : Fields
  released : Nat
  created : Bool
  began : Bool
  bound : Bool
  exited : Option Int
  handle : Bool
  gaveUp : Bool
  misused : Bool
  badMemory : Bool

/-- Accesses to memory and calls of the system and of ZeroMQ. -/
inductive Instr
  | useService
  | callocServer
  | useServer
  | writeServer (update : Fields → Fields)
  | takeFd (field : FdField)
  | freeServer
  | releaseService
  | pipe2 (readEnd writeEnd : PipeEnd)
  | poll (fd : PipeEnd)
  | read (fd : PipeEnd)
  | write (fd : PipeEnd)
  | close (fd : PipeEnd)
  | pthreadCreate
  | pthreadJoin
  | threadBegin
  | threadExit (rc : Int)
  | zmqCtxNew
  | zmqSocket
  | zmqSetsockopt
  | zmqBind
  | zmqPoll
  | zmqRecv
  | handleRequest
  | zmqSend
  | zmqClose
  | zmqCtxDestroy
  | setHandle (server : Bool)

/-- What a call returns. -/
inductive Answer
  | ok
  | eof
  | again
  | timeout
  | interrupted
  | peerClosed
  | size (bytes : Nat)
  | fail
  deriving DecidableEq, Repr

/-- What a program reads: the server's fields and the exit status of the thread. -/
structure View where
  fields : Fields
  exited : Option Int

/-- Why a program has not come to its end: a loop goes on, or an assertion has failed. -/
inductive Stuck
  | looping
  | assertion
  deriving DecidableEq, Repr

/-- What an operation returns. -/
inductive Result
  | idle
  | started (server : Bool)
  | stopped (rc : Int)
  | exited (rc : Int)
  deriving DecidableEq, Repr

abbrev ServerProg := Prog Instr Answer View Stuck

-----------------------------------------------------------------------------------------
-- What the accesses do
-----------------------------------------------------------------------------------------

namespace State

/-- The service is read or written. -/
def touchService (s : State) : State :=
  { s with badMemory := s.badMemory || s.released ≠ 0 }

/-- The server is read or written. -/
def touchServer (s : State) : State :=
  { s with badMemory := s.badMemory || s.server ≠ .live }

/-- A resource is used. -/
def use (s : State) (resource : Resource) : State :=
  { s with misused := s.misused || !s.isOpen resource }

def setOpen (s : State) (resource : Resource) (status : Bool) : State :=
  { s with isOpen := Function.update s.isOpen resource status }

def setPending (s : State) (fd : PipeEnd) (bytes : Nat) : State :=
  { s with pending := Function.update s.pending fd bytes }

/-- The main thread will not wait for the thread any more. -/
def giveUp (s : State) : State := { s with gaveUp := true }

section Updates

variable (s : State)

@[simp]
theorem setOpen_same (resource : Resource) (status : Bool)
    : (s.setOpen resource status).isOpen resource = status :=
  Function.update_self ..

theorem setOpen_other {resource other : Resource} (status : Bool) (h : other ≠ resource)
    : (s.setOpen resource status).isOpen other = s.isOpen other :=
  Function.update_of_ne h ..

@[simp]
theorem setPending_same (fd : PipeEnd) (bytes : Nat)
    : (s.setPending fd bytes).pending fd = bytes :=
  Function.update_self ..

theorem setPending_other {fd other : PipeEnd} (bytes : Nat) (h : other ≠ fd)
    : (s.setPending fd bytes).pending other = s.pending other :=
  Function.update_of_ne h ..

/-- Using what is open is no misuse. -/
theorem use_eq {s : State} {resource : Resource} (isOpen : s.isOpen resource = true)
    : s.use resource = s := by
  simp [use, isOpen]

end Updates

end State

/-- The effect of an access. Only failures that the main thread does not retry make it give up.
-/
def Instr.exec (i : Instr) (answer : Answer) (s : State) : State :=
  match i with
  | .useService => s.touchService
  | .callocServer =>
      if answer = .ok then { s with server := .live, fields := ⟨none, none, none, none⟩ } else s
  | .useServer => s.touchServer
  | .writeServer update => { s.touchServer with fields := update s.fields }
  | .takeFd field => { s.touchServer with fields := field.clear s.fields }
  | .freeServer => { s.touchServer with server := .freed }
  | .releaseService => { s.touchService with released := s.released + 1 }
  | .pipe2 readEnd writeEnd =>
      if answer = .ok then
        ((s.setOpen (.pipe readEnd) true).setOpen (.pipe writeEnd) true).setPending readEnd 0
      else s
  | .poll fd =>
      if answer = .ok ∨ answer = .interrupted then s.use (.pipe fd)
      else (s.use (.pipe fd)).giveUp
  | .read fd =>
      if answer = .ok then (s.use (.pipe fd)).setPending fd (s.pending fd - 1)
      else if answer = .again ∨ fd = .quitFd then s.use (.pipe fd)
      else (s.use (.pipe fd)).giveUp
  | .write fd =>
      if answer = .ok then (s.use (.pipe fd)).setPending fd.peer (s.pending fd.peer + 1)
      else if answer = .fail ∧ fd = .sendQuitFd then (s.use (.pipe fd)).giveUp
      else s.use (.pipe fd)
  | .close fd => (s.use (.pipe fd)).setOpen (.pipe fd) false
  | .pthreadCreate => if answer = .ok then { s.touchServer with created := true } else s.touchServer
  | .pthreadJoin => if answer = .ok then s.touchServer else s.touchServer.giveUp
  | .threadBegin => { s with began := true }
  | .threadExit rc => { s with exited := some rc }
  | .zmqCtxNew => if answer = .ok then s.setOpen .context true else s
  | .zmqSocket =>
      if answer = .ok then (s.use .context).setOpen .socket true else s.use .context
  | .zmqBind => if answer = .ok then { s.use .socket with bound := true } else s.use .socket
  | .zmqSetsockopt | .zmqPoll | .zmqRecv | .zmqSend => s.use .socket
  | .handleRequest => s.touchService
  | .zmqClose => (s.use .socket).setOpen .socket false
  | .zmqCtxDestroy =>
      if answer = .interrupted then s.use .context
      else (s.use .context).setOpen .context false
  | .setHandle server => { s with handle := server }

/-- What a call can return. A read fails with `EAGAIN` on an open empty pipe and returns 0 on a
closed one; a join waits for the thread; a context is destroyed once its socket is closed.
`SIGPIPE` is ignored.
-/
def Instr.answers (s : State) : Instr → Answer → Bool
  | .poll fd, answer =>
      answer = .timeout || answer = .interrupted || answer = .fail
        || answer = .ok && (0 < s.pending fd || !s.isOpen (.pipe fd.peer))
  | .read fd, answer =>
      answer = .fail
        || answer = .ok && 0 < s.pending fd
        || answer = .eof && s.pending fd = 0 && !s.isOpen (.pipe fd.peer)
        || answer = .again && s.pending fd = 0 && s.isOpen (.pipe fd.peer)
  | .write fd, answer =>
      answer = .interrupted || answer = .fail
        || answer = .ok && s.isOpen (.pipe fd.peer)
        || answer = .peerClosed && !s.isOpen (.pipe fd.peer)
  | .pthreadJoin, answer => answer = .fail || answer = .ok && s.exited.isSome
  | .zmqPoll, answer =>
      answer = .ok || answer = .timeout || answer = .interrupted || answer = .fail
  | .zmqRecv, .size _ => true
  | .zmqRecv, answer => answer = .interrupted || answer = .fail
  | .zmqSend, answer => answer = .ok || answer = .interrupted || answer = .fail
  | .zmqClose, answer => answer = .ok || answer = .fail && !s.isOpen .socket
  | .zmqCtxDestroy, answer =>
      answer = .interrupted
        || answer = .ok && !s.isOpen .socket
        || answer = .fail && !s.isOpen .context
  | .callocServer, answer | .pipe2 .., answer | .close _, answer | .pthreadCreate, answer
  | .zmqCtxNew, answer | .zmqSocket, answer | .zmqSetsockopt, answer | .zmqBind, answer =>
      answer = .ok || answer = .fail
  | _, answer => answer = .ok

-----------------------------------------------------------------------------------------
-- The functions
-----------------------------------------------------------------------------------------

/-- A call whose return value does not matter. -/
def call (i : Instr) : ServerProg Unit := .perform i fun _ _ => ()

/-- A call that only succeeds or fails. -/
def succeeds (i : Instr) : ServerProg Bool := .perform i fun answer _ => answer = .ok

/-- A call with its return value. -/
def ask (i : Instr) : ServerProg Answer := .perform i fun answer _ => answer

/-- A read of `struct zmq_server`. -/
def readServer : ServerProg Fields := .perform .useServer fun _ view => view.fields

/-- `close_fd` on a local variable. -/
def closeFd : Option PipeEnd → ServerProg Bool
  | none => return true
  | some fd => succeeds (.close fd)

/-- `close_fd` on a field of the server. -/
def closeServerFd (field : FdField) : ServerProg Bool := do
  let fd ← .perform (.takeFd field) fun _ view => field.read view.fields
  closeFd fd

/-- `close_zmq_socket`; the argument tells whether the variable is not `NULL`. -/
def closeZmqSocket (zmqS : Bool) : ServerProg Bool :=
  if zmqS then succeeds .zmqClose else return true

/-- `destroy_zmq_ctx`. -/
def destroyZmqCtx (zmqCtx : Bool) : Nat → ServerProg Bool
  | 0 => .fail .looping
  | fuel + 1 => do
      if ¬ zmqCtx then return true
      match ← ask .zmqCtxDestroy with
      | .interrupted => destroyZmqCtx zmqCtx fuel
      | .ok => return true
      | _ => return false

/-- `send_event`: a closed pipe is logged and counts as sent. -/
def sendEvent (fd : PipeEnd) : Nat → ServerProg Bool
  | 0 => .fail .looping
  | fuel + 1 => do
      match ← ask (.write fd) with
      | .interrupted => sendEvent fd fuel
      | .fail => return false
      | _ => return true

/-- `receive_event`, with `*n_read` if it returns true: 1, 0, or -1 for `EAGAIN`. -/
def receiveEvent (fd : PipeEnd) : ServerProg (Option Int) := do
  match ← ask (.read fd) with
  | .ok => return some 1
  | .eof => return some 0
  | .again => return some (-1)
  | _ => return none

/-- What `init_zmq` leaves in `*zmq_ctx` and `*zmq_s`, and what it returns. -/
structure ZmqHandles where
  ok : Bool
  zmqCtx : Bool
  zmqS : Bool

/-- The loop over the socket options. -/
def setsockopts : Nat → ServerProg Bool
  | 0 => return true
  | left + 1 => do
      if ← succeeds .zmqSetsockopt then setsockopts left else return false

/-- `init_zmq`. -/
def initZmq : ServerProg ZmqHandles := do
  if ← succeeds .zmqCtxNew then
    if ← succeeds .zmqSocket then
      call .useService
      if ← setsockopts 4 then
        return ⟨← succeeds .zmqBind, true, true⟩
      else return ⟨false, true, true⟩
    else return ⟨false, true, false⟩
  else return ⟨false, false, false⟩

/-- The local variables of `zmq_thread_loop` that are closed at its end. -/
structure LoopVars where
  zmqCtx : Bool
  zmqS : Bool
  sendReadyFd : Option PipeEnd
  quitFd : Option PipeEnd

/-- The label `error_exit` of `zmq_thread_loop`. -/
def loopErrorExit (fuel : Nat) (vars : LoopVars) : ServerProg Int := do
  let _ ← closeZmqSocket vars.zmqS
  let _ ← destroyZmqCtx vars.zmqCtx fuel
  let _ ← closeFd vars.quitFd
  let _ ← closeFd vars.sendReadyFd
  return 1

/-- `zmq_thread_loop` after the quit event. -/
def loopQuit (fuel : Nat) (vars : LoopVars) : ServerProg Int := do
  if ← closeZmqSocket vars.zmqS then
    if ← destroyZmqCtx vars.zmqCtx fuel then
      if ← closeFd vars.quitFd then
        if ← closeFd vars.sendReadyFd then return 0
        else loopErrorExit fuel { vars with
          zmqS := false, zmqCtx := false, quitFd := none, sendReadyFd := none }
      else loopErrorExit fuel { vars with zmqS := false, zmqCtx := false, quitFd := none }
    else loopErrorExit fuel { vars with zmqS := false, zmqCtx := false }
  else loopErrorExit fuel { vars with zmqS := false }

/-- The loop around `zmq_send`. -/
def sendResponse : Nat → ServerProg Bool
  | 0 => .fail .looping
  | fuel + 1 => do
      match ← ask .zmqSend with
      | .interrupted => sendResponse fuel
      | .ok => return true
      | _ => return false

/-- A request in one round of the loop: received, handled and answered. -/
def serveRequest (service : ZmqService) (fuel : Nat) : ServerProg Bool := do
  call .useService
  match ← ask .zmqRecv with
  | .interrupted => return true
  | .size cbRequest =>
      if cbRequest ≤ service.maxRequestCb.toNat then
        call .handleRequest
        sendResponse fuel
      else .fail .assertion
  | _ => return false

/-- The rounds of `zmq_thread_loop`. -/
def loopRounds (service : ZmqService) (vars : LoopVars) (quit : PipeEnd)
    : Nat → ServerProg Int
  | 0 => .fail .looping
  | fuel + 1 => do
      match ← receiveEvent quit with
      | none => loopErrorExit fuel vars
      | some nRead =>
          if 0 ≤ nRead then loopQuit fuel vars
          else
            match ← ask .zmqPoll with
            | .interrupted | .timeout => loopRounds service vars quit fuel
            | .ok =>
                if ← serveRequest service fuel then loopRounds service vars quit fuel
                else loopErrorExit fuel vars
            | _ => loopErrorExit fuel vars

/-- `zmq_thread_loop`. -/
def zmqThreadLoop (service : ZmqService) (fuel : Nat) (sendReady quit : PipeEnd)
    : ServerProg Int := do
  let zmq ← initZmq
  let vars : LoopVars := ⟨zmq.zmqCtx, zmq.zmqS, some sendReady, some quit⟩
  if zmq.ok then
    if ← sendEvent sendReady fuel then loopRounds service vars quit fuel
    else loopErrorExit fuel vars
  else loopErrorExit fuel vars

/-- `zmq_thread`. The context holds descriptors since before the thread was created. -/
def zmqThread (service : ZmqService) (fuel : Nat) : ServerProg Result := do
  call .threadBegin
  call .useServer
  call .useService
  let fields ← readServer
  match fields.contextSendReadyFd, fields.contextQuitFd with
  | some sendReady, some quit =>
      let rc ← zmqThreadLoop service fuel sendReady quit
      call .useServer
      call .useService
      call (.threadExit rc)
      return .exited rc
  | _, _ => .fail .assertion

/-- The loop around `poll` in `wait_for_thread_ready`. -/
def pollReady (fd : PipeEnd) : Nat → ServerProg Answer
  | 0 => .fail .looping
  | fuel + 1 => do
      match ← ask (.poll fd) with
      | .interrupted => pollReady fd fuel
      | answer => return answer

/-- `wait_for_thread_ready`; its messages name the service. -/
def waitForThreadReady (fd : PipeEnd) (fuel : Nat) : ServerProg Bool := do
  match ← pollReady fd fuel with
  | .ok =>
      let nRead ← receiveEvent fd
      call .useService
      return nRead.any (· ≠ 0)
  | .timeout => call .useService; return false
  | _ => return false

/-- The array `pipes` of `zmq_server_start`. -/
structure Pipes where
  readyFd : Option PipeEnd
  sendReadyFd : Option PipeEnd
  quitFd : Option PipeEnd
  sendQuitFd : Option PipeEnd

/-- The end of `zmq_server_start` at its label `error_exit`. -/
def startRelease (pipes : Pipes) : ServerProg Bool := do
  let _ ← closeFd pipes.readyFd
  let _ ← closeFd pipes.sendReadyFd
  let _ ← closeFd pipes.quitFd
  let _ ← closeFd pipes.sendQuitFd
  call .useService
  call .releaseService
  return false

/-- The label `error_exit` of `zmq_server_start`. -/
def startErrorExit (server : Bool) (pipes : Pipes) : ServerProg Bool := do
  if server then
    let _ ← closeServerFd .readyFd
    let _ ← closeServerFd .sendQuitFd
    call .freeServer
  startRelease pipes

/-- `zmq_server_start`; `calloc` leaves zeros, which are overwritten before they are read. -/
def zmqServerStart (fuel : Nat) : ServerProg Bool := do
  call .useService
  if ← succeeds .callocServer then
    call (.writeServer fun fields => { fields with readyFd := none, sendQuitFd := none })
    if ← succeeds (.pipe2 .readyFd .sendReadyFd) then
      if ← succeeds (.pipe2 .quitFd .sendQuitFd) then
        call (.writeServer fun fields =>
          { fields with readyFd := some .readyFd, sendQuitFd := some .sendQuitFd })
        call (.writeServer fun fields =>
          { fields with contextSendReadyFd := some .sendReadyFd, contextQuitFd := some .quitFd })
        if ← succeeds .pthreadCreate then
          let fields ← readServer
          call .useService
          match fields.readyFd with
          | some fd =>
              if ← waitForThreadReady fd fuel then return true
              else startErrorExit true ⟨none, none, none, none⟩
          | none => .fail .assertion
        else startErrorExit true ⟨none, some .sendReadyFd, some .quitFd, none⟩
      else startErrorExit true ⟨some .readyFd, some .sendReadyFd, none, none⟩
    else startErrorExit true ⟨none, none, none, none⟩
  else startErrorExit false ⟨none, none, none, none⟩

/-- The end of `zmq_server_stop`, on its way out and at its label `error_exit`. -/
def stopRelease (rc : Int) : ServerProg Int := do
  call .useServer
  call .releaseService
  call .freeServer
  return rc

/-- The label `error_exit` of `zmq_server_stop`. -/
def stopErrorExit : ServerProg Int := do
  let _ ← closeServerFd .readyFd
  let _ ← closeServerFd .sendQuitFd
  stopRelease 1

/-- `zmq_server_stop`. -/
def zmqServerStop (fuel : Nat) : ServerProg Int := do
  call .useServer
  call .useService
  let fields ← readServer
  match fields.sendQuitFd with
  | some fd =>
      if ← sendEvent fd fuel then
        let joined ← .perform .pthreadJoin fun answer view =>
          if answer = .ok then view.exited else none
        match joined with
        | some retval =>
            if ← closeServerFd .readyFd then
              if ← closeServerFd .sendQuitFd then stopRelease retval
              else stopErrorExit
            else stopErrorExit
        | none => stopErrorExit
      else stopErrorExit
  | none => .fail .assertion

-----------------------------------------------------------------------------------------
-- The two threads
-----------------------------------------------------------------------------------------

/-- The main thread, and the one that `zmq_server_start` creates. -/
inductive Thread
  | main
  | server
  deriving DecidableEq, Repr

/-- What the threads run: the caller keeps what `zmq_server_start` returns in a variable, and
clears it after `zmq_server_stop`.
-/
inductive Op
  | start
  | stop
  | thread
  deriving DecidableEq, Repr

def Op.code (service : ZmqService) (fuel : Nat) : Op → ServerProg Result
  | .start => do
      let server ← zmqServerStart fuel
      call (.setHandle server)
      return .started server
  | .stop => do
      let rc ← zmqServerStop fuel
      call (.setHandle false)
      return .stopped rc
  | .thread => zmqThread service fuel

/-- One server with its two threads; nothing else touches what they share. -/
def serverSystem (service : ZmqService) (fuel : Nat)
    : System Op Instr Answer View Stuck State Empty Result where
  exec _ := Instr.exec
  obs s := ⟨s.fields, s.exited⟩
  env event := nomatch event
  code := Op.code service fuel

/-- The caller starts its server once and stops it if it has one, the thread runs once it is
created. Runs go on after a use of freed memory, which is taken to keep its content.
-/
def serverPolicy : Policy Thread Op Instr Answer State where
  instr _ i answer s := i.answers s answer = true
  call thread op s :=
    match thread, op with
    | .main, .start => s.server = .absent ∧ s.released = 0
    | .main, .stop => s.handle = true
    | .server, .thread => s.created = true ∧ s.began = false
    | _, _ => False

/-- Before the start: the service exists, the server does not. -/
def State.initial : State where
  isOpen _ := false
  pending _ := 0
  server := .absent
  fields := ⟨none, none, none, none⟩
  released := 0
  created := false
  began := false
  bound := false
  exited := none
  handle := false
  gaveUp := false
  misused := false
  badMemory := false

/-- Nobody runs yet. -/
def atRest : Config Thread Op Instr Answer View Stuck State Result :=
  .idle .initial .start .idle

end VirtioForwarder.ZmqServer
