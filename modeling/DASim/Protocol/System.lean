import DASim.Client.Access
import DASim.Protocol.Wire

/-!
# The threads of the manager and of its clients

The manager accepts connections in one thread, serves page faults in another, and
has a third kind of thread that serves the requests of one client.  All but the
first one change the tables of the manager, and they do so under `m_mutex`.  A
client process has threads of its own.  In a call of the library a thread holds
`damanager_mutex` of its process while it sends requests and waits for answers.

`System` is the manager with its threads, the client processes with theirs, and
what is between them: the sockets, the userfaultfd and the eventfd that tells the
threads of the manager to end.  A `Move` is one step of one thread, and moves come
in any order.  A thread that has to wait has no move.

* A process connects once.  `damanager_socket` starts as -1, is then a descriptor,
  and is -2 for good after `close`.  So a process stands for its connection.
* The name a process binds its socket to is made of its process id.  While the
  socket is open, no other process with the same id can connect.
* A socket keeps the order and the limits of messages (`SOCK_SEQPACKET`).  The
  first message of a process is its id.
* If the process closes its end, `poll` reports `POLLHUP` with everything else, and
  the thread of the client ends without reading on.
* A thread that touches a page it has no access to is stopped, and a message about
  it can be read from the userfaultfd.  It goes on when a range with its address is
  woken, and then the message is gone too.
* What a thread does between locking and unlocking `m_mutex` is one move.
  `DASim.Protocol.Serial` has it in several moves.
* `accept` can fail, for want of descriptors or memory.  The connection then stays where
  it is, and the next `poll` reports it again.
-/

namespace DASim

/-! ## Polling and the eventfd -/

/-- The events `poll` reports for a descriptor: `POLLIN`, and any other one. -/
structure Revents where
  pollin : Bool := false
  other : Bool := false
deriving DecidableEq, Repr

def Revents.any (r : Revents) : Bool := r.pollin || r.other

/-- What one call of `poll` comes back with. -/
inductive PollResult where
  /-- -1, and `errno` is `EINTR`. -/
  | interrupted
  /-- -1, with any other error. -/
  | failed
  /-- 0. -/
  | timedOut
  /-- The events of the two descriptors. -/
  | ready (main shutdown : Revents)
deriving DecidableEq, Repr

/-- What `poll_or_shutdown` returns: -1, -2, 0 and 1. -/
inductive PollStatus where
  | error
  | shutdown
  | timeout
  | ready
deriving DecidableEq, Repr

/-- `poll_or_shutdown`, given what the calls of `poll` come back with.  It is still
waiting if it returns none. -/
def pollOrShutdown (timeout : Int) : List PollResult → Option PollStatus
  | [] => none
  | .interrupted :: results => pollOrShutdown timeout results
  | .failed :: _ => some .error
  | .timedOut :: results =>
      if timeout < 0 then pollOrShutdown timeout results else some .timeout
  | .ready main shutdown :: _ =>
      if shutdown.any then if shutdown.other then some .error else some .shutdown
      else if main.other then some .error
      else some .ready

/-- An interrupted or timed out `poll` is tried again. -/
theorem pollOrShutdown_retry {noise : List PollResult} (results : List PollResult)
    (h : ∀ r ∈ noise, r = .interrupted ∨ r = .timedOut) :
    pollOrShutdown (-1) (noise ++ results) = pollOrShutdown (-1) results := by
  induction noise with
  | nil => rfl
  | cons r noise ih =>
      have hrest := ih fun r' hr' => h r' (List.mem_cons_of_mem _ hr')
      rcases h r List.mem_cons_self with rfl | rfl
      · exact hrest
      · exact hrest

/-- `write` on an eventfd.  It takes a number of eight bytes, and the counter has to
stay below its maximum. -/
def eventfdWrite (bytes value counter : Nat) : Option Nat :=
  if bytes < 8 then none
  else if counter + value ≤ 2 ^ 64 - 2 then some (counter + value)
  else none

/-- `shutdown_manager`: whether it succeeds, and the counter after it.  It writes an
`int`. -/
def shutdownManager (counter : Nat) : Bool × Nat :=
  match eventfdWrite 4 1 counter with
  | none => (false, counter)
  | some counter => (true, counter)

/-- The write in the destructor of `client_manager`. -/
def raiseShutdown (counter : Nat) : Nat :=
  (eventfdWrite 8 0xfffffffffffffffe counter).getD counter

/-! ## Client processes -/

/-- `damanager_socket`. -/
inductive LibSocket where
  /-- -1. -/
  | unopened
  | opened
  /-- -2. -/
  | closed
deriving DecidableEq, Repr

/-- What a thread calls the library for: `damemory_init`, `damemory_close`, or a
call that sends requests. -/
inductive LibEntry (β : Type) where
  | init
  | close
  | call (p : Program β)

/-- Where a thread of a process is.  A call is kept with the state the manager was
in when it was made, which no step reads. -/
inductive LibThread (β : Type) where
  /-- Not in the library. -/
  | outside
  /-- At the lock of `damanager_mutex`. -/
  | entering (start : Damanager) (entry : LibEntry β)
  /-- In `init`, connected, before it sends the process id. -/
  | introducing
  /-- In a call of which the rest is to be done. -/
  | inside (start : Damanager) (call rest : Program β)
  /-- In `read`, after a request was sent. -/
  | awaiting (start : Damanager) (call : Program β) (query : CallParams)
      (next : Except Errno CallResult → Program β)
  /-- Back from a call. -/
  | returned (start : Damanager) (call : Program β) (value : β)

/-- The thread has locked `damanager_mutex`. -/
def LibThread.holds {β : Type} : LibThread β → Bool
  | .introducing => true
  | .inside .. => true
  | .awaiting .. => true
  | _ => false

/-- The thread can make a call. -/
def LibThread.idle {β : Type} : LibThread β → Bool
  | .outside => true
  | .returned .. => true
  | _ => false

/-- A message to the manager. -/
inductive Packet where
  | pid (pid : Int)
  | params (params : CallParams)
deriving DecidableEq, Repr

/-- The first four bytes of a message, as an `int`. -/
def Packet.head : Packet → Int
  | .pid n => n
  | .params q => q.code

/-- A client process with its end of the connection. -/
structure Process (β : Type) where
  pid : Int
  socket : LibSocket := .unopened
  -- the thread that has locked `damanager_mutex`
  mutex : Option Nat := none
  threads : Nat → LibThread β := fun _ => .outside
  exited : Bool := false
  -- what is in the socket, either way, and whether the manager closed its end
  up : List Packet := []
  down : List (Except Errno CallResult) := []
  shut : Bool := false

namespace Process

variable {β : Type}

/-- The process has an open socket. -/
def online (p : Process β) : Bool := p.socket = .opened && !p.exited

/-- The process has closed its socket, or has ended. -/
def hungUp (p : Process β) : Bool := p.socket = .closed || p.exited

def setThread (p : Process β) (t : Nat) (x : LibThread β) : Process β :=
  { p with threads := Function.update p.threads t x }

/-- A thread leaves the library. -/
def release (p : Process β) (t : Nat) (x : LibThread β) : Process β :=
  { p.setThread t x with mutex := none }

/-- The process ends, by itself, by `DASIM_FATAL` or by a signal. -/
def exit (p : Process β) : Process β :=
  { p with threads := fun _ => .outside, mutex := none, exited := true }

end Process

/-! ## The threads of the manager -/

/-- Where the thread of a client is in `handle_calls`. -/
inductive HandlerState where
  | polling
  /-- A request was read. -/
  | received (params : CallParams)
  /-- In `handle_call`, with `m_mutex` locked. -/
  | locked (params : CallParams)
  /-- The result is to be written. -/
  | answered (answer : Except Errno CallResult)
  /-- After the loop. -/
  | leaving
  /-- In the clean-up, with `m_mutex` locked. -/
  | cleaning
  /-- `m_state` is 2. -/
  | ended
deriving DecidableEq, Repr

/-- `client`, as far as its thread goes: the process at the other end of
`m_socket`, and where the thread is. -/
structure Handler where
  proc : Nat
  state : HandlerState
deriving DecidableEq, Repr

/-- Where the thread of `accept_clients` is. -/
inductive AcceptState where
  | polling
  /-- A connection was accepted, and its process id is to be read. -/
  | reading (proc : Nat)
  /-- It waits for the thread of an old client with that process id. -/
  | joining (proc : Nat) (pid : Int)
  | ended
deriving DecidableEq, Repr

/-- Where the thread of `handle_userfaults` is. -/
inductive UserfaultState where
  | polling
  /-- There was a message. -/
  | ready
  /-- In `handle_userfault`, with `m_mutex` locked. -/
  | locked
  /-- The same, after the message was read. -/
  | serving (addr : UInt64) (flags : PagefaultFlags)
  | ended
deriving DecidableEq, Repr

/-- Where `main` is. -/
inductive MainState where
  | polling
  /-- In the destructor of `client_manager`, which joins the two threads. -/
  | joinAccept
  | joinUserfault
  /-- `m_clients.clear()`. -/
  | clearing
  | done
deriving DecidableEq, Repr

/-- Who has locked `m_mutex`. -/
inductive Holder where
  | handler (pid : Int)
  | userfault
deriving DecidableEq, Repr

/-- A thread of a process that is stopped by a page fault. -/
structure Waiter where
  proc : Nat
  addr : UInt64
  flags : PagefaultFlags
  -- whether the message about it was read
  read : Bool := false
deriving DecidableEq, Repr

/-- The manager and its clients. -/
structure System (β : Type) where
  manager : Damanager
  -- `m_mutex` and the counter behind `m_shutdown_eventfd`
  mutex : Option Holder
  eventfd : Nat
  -- connections that were not accepted yet
  backlog : List Nat
  accept : AcceptState
  userfault : UserfaultState
  main : MainState
  -- `m_clients`
  handlers : OrdMap Int Handler
  waiters : List Waiter
  -- the names sockets are bound to, as process ids
  names : OrdMap Int Nat
  procs : Nat → Process β

/-- Why a thread does not go on: it has to wait, or the manager broke down. -/
inductive Halt where
  | blocked
  | fault (fault : Fault)
deriving DecidableEq, Repr

/-- A step of the manager that can break down. -/
def orHalt {α : Type} : Except Fault α → Except Halt α
  | .error f => .error (.fault f)
  | .ok a => .ok a

namespace System

variable {β : Type}

/-- The manager has started, and no process has done anything. -/
def init (nrPagesRam nrPagesSwap : Nat) (files : OrdMap Nat PersFile) (pids : Nat → Int) :
    System β where
  manager := .init nrPagesRam nrPagesSwap files
  mutex := none
  eventfd := 0
  backlog := []
  accept := .polling
  userfault := .polling
  main := .polling
  handlers := .empty
  waiters := []
  names := .empty
  procs := fun n => { pid := pids n }

def setProc (n : Nat) (p : Process β) (s : System β) : System β :=
  { s with procs := Function.update s.procs n p }

def setHandler (pid : Int) (h : Handler) (s : System β) : System β :=
  { s with handlers := s.handlers.insert pid h }

/-- The name of a process that has an open socket becomes free. -/
def unbind (n : Nat) (s : System β) : System β :=
  if (s.procs n).online then { s with names := s.names.erase (s.procs n).pid } else s

/-- A process ends, and with it those of its threads that are stopped by faults. -/
def exit (n : Nat) (s : System β) : System β :=
  { (s.unbind n).setProc n (s.procs n).exit with
    waiters := s.waiters.filter fun w => w.proc ≠ n }

/-- The manager closes its end of a connection. -/
def shut (n : Nat) (s : System β) : System β := s.setProc n { s.procs n with shut := true }

/-! ## Steps of a client process -/

/-- A thread calls the library. -/
def enter (n t : Nat) (entry : LibEntry β) (s : System β) : Except Halt (System β) :=
  let p := s.procs n
  if !p.exited && (p.threads t).idle then
    .ok (s.setProc n (p.setThread t (.entering s.manager entry)))
  else .error .blocked

/-- `connect_damanager_socket`.  It ends the process if the name is taken or if the
manager does not listen any more. -/
def connect (n t : Nat) (s : System β) : System β :=
  let p := s.procs n
  if s.names.contains p.pid || s.main = .done then s.exit n
  else
    { s.setProc n { p.setThread t .introducing with mutex := some t, socket := .opened } with
      names := s.names.insert p.pid n
      backlog := s.backlog ++ [n] }

/-- A thread locks `damanager_mutex`, and goes on to where it waits again. -/
def acquire (n t : Nat) (s : System β) : Except Halt (System β) :=
  let p := s.procs n
  match p.mutex, p.threads t with
  | none, .entering start (.call call) =>
      .ok (s.setProc n { p.setThread t (.inside start call call) with mutex := some t })
  | none, .entering _ .init =>
      if p.socket = .unopened then .ok (s.connect n t)
      else .ok (s.setProc n (p.setThread t .outside))
  | none, .entering _ .close =>
      if p.socket = .opened then
        .ok ((s.unbind n).setProc n { p.setThread t .outside with socket := .closed })
      else .ok (s.setProc n (p.setThread t .outside))
  | _, _ => .error .blocked

/-- The end of `init`: the process id is sent. -/
def introduce (n t : Nat) (s : System β) : Except Halt (System β) :=
  let p := s.procs n
  match p.threads t with
  | .introducing =>
      if p.shut then .ok (s.exit n)
      else .ok (s.setProc n { p.release t .outside with up := p.up ++ [.pid p.pid] })
  | _ => .error .blocked

/-- The `write` of `call_manager`.  It fails if there is no open socket, or if the
manager has closed its end. -/
def send (n t : Nat) (s : System β) : Except Halt (System β) :=
  let p := s.procs n
  match p.threads t with
  | .inside start call (.ask query next) =>
      if p.online && !p.shut then
        .ok (s.setProc n { p.setThread t (.awaiting start call query next) with
          up := p.up ++ [.params query] })
      else .ok (s.exit n)
  | _ => .error .blocked

/-- The `read` of `call_manager`. -/
def receive (n t : Nat) (s : System β) : Except Halt (System β) :=
  let p := s.procs n
  match p.threads t, p.down with
  | .awaiting start call _ next, answer :: down =>
      .ok (s.setProc n { p.setThread t (.inside start call (next answer)) with down := down })
  | .awaiting .., [] => if p.shut then .ok (s.exit n) else .error .blocked
  | _, _ => .error .blocked

/-- A call returns, or ends the process. -/
def leave (n t : Nat) (s : System β) : Except Halt (System β) :=
  let p := s.procs n
  match p.threads t with
  | .inside start call (.done value) => .ok (s.setProc n (p.release t (.returned start call value)))
  | .inside _ _ .stop => .ok (s.exit n)
  | _ => .error .blocked

/-- A thread of a process is stopped by a page fault. -/
def fault (n : Nat) (addr : UInt64) (flags : PagefaultFlags) (s : System β) :
    Except Halt (System β) :=
  if (s.procs n).exited then .error .blocked
  else .ok { s with waiters := s.waiters ++ [⟨n, addr, flags, false⟩] }

/-! ## Steps of the manager -/

/-- What `poll_or_shutdown` returns to a thread whose other descriptor has the given
events, unless `poll` fails.  Calls of `poll` that are interrupted make no difference
(`pollOrShutdown_retry`). -/
def poll (fail : Bool) (main : Revents) (s : System β) : Option PollStatus :=
  if fail then pollOrShutdown (-1) [.failed]
  else if main.any || 0 < s.eventfd then pollOrShutdown (-1) [.ready main ⟨0 < s.eventfd, false⟩]
  else none

/-- A step of the loop of `accept_clients` up to the `read` of `accept_client`, if
`accept` does not fail. -/
def acceptPoll (fail : Bool) (s : System β) : Except Halt (System β) :=
  match s.accept, s.poll fail ⟨!s.backlog.isEmpty, false⟩, s.backlog with
  | .polling, some .ready, n :: backlog =>
      .ok { s with accept := .reading n, backlog := backlog }
  | .polling, some .ready, [] => .error .blocked
  | .polling, some _, _ =>
      .ok { s with accept := .ended, eventfd := (shutdownManager s.eventfd).2 }
  | _, _, _ => .error .blocked

/-- A step of that loop in which `accept` fails: `accept_client` returns, and the
connection is still there at the next `poll`. -/
def acceptRefused (s : System β) : Except Halt (System β) :=
  match s.accept, s.poll false ⟨!s.backlog.isEmpty, false⟩ with
  | .polling, some .ready => .ok s
  | _, _ => .error .blocked

/-- The `read` of `accept_client`.  The socket blocks.  If there is no process id
any more, the connection is given up. -/
def acceptRead (s : System β) : Except Halt (System β) :=
  match s.accept with
  | .reading n =>
      match (s.procs n).up with
      | packet :: up =>
          .ok { s.setProc n { s.procs n with up := up } with accept := .joining n packet.head }
      | [] => if (s.procs n).hungUp then .ok { s with accept := .polling } else .error .blocked
  | _ => .error .blocked

/-- The rest of `accept_client`: an old client with the process id is destroyed,
and the thread of the new one is started. -/
def acceptJoin (s : System β) : Except Halt (System β) :=
  match s.accept with
  | .joining n pid =>
      match s.handlers.find? pid with
      | none => start n pid s
      | some ⟨m, .ended⟩ => start n pid (s.shut m)
      | some _ => .error .blocked
  | _ => .error .blocked
where
  start (n : Nat) (pid : Int) (s : System β) : Except Halt (System β) := do
    let manager ← orHalt ((Action.connect pid).exec s.manager)
    return { s.setHandler pid ⟨n, .polling⟩ with manager := manager, accept := .polling }

/-- A step of the loop of `handle_calls` up to the call of `handle_call`. -/
def handlerPoll (pid : Int) (fail : Bool) (s : System β) : Except Halt (System β) :=
  match s.handlers.find? pid with
  | some ⟨n, .polling⟩ =>
      let p := s.procs n
      match s.poll fail ⟨!p.up.isEmpty || p.hungUp, p.hungUp⟩, p.up with
      | some .ready, .params params :: up =>
          .ok ((s.setProc n { p with up := up }).setHandler pid ⟨n, .received params⟩)
      | some _, _ => .ok (s.setHandler pid ⟨n, .leaving⟩)
      | none, _ => .error .blocked
  | _ => .error .blocked

/-- The thread of a client locks `m_mutex`. -/
def handlerLock (pid : Int) (s : System β) : Except Halt (System β) :=
  match s.mutex, s.handlers.find? pid with
  | none, some ⟨n, .received params⟩ =>
      .ok { s.setHandler pid ⟨n, .locked params⟩ with mutex := some (.handler pid) }
  | none, some ⟨n, .leaving⟩ =>
      .ok { s.setHandler pid ⟨n, .cleaning⟩ with mutex := some (.handler pid) }
  | _, _ => .error .blocked

/-- `handle_call`. -/
def handlerServe (pid : Int) (env : CallEnv) (s : System β) : Except Halt (System β) :=
  match s.handlers.find? pid, s.manager.clients.find? pid with
  | some ⟨n, .locked params⟩, some c => do
      let (answer, manager) ← orHalt (s.manager.handleCall pid c params env)
      return { s.setHandler pid ⟨n, .answered answer⟩ with manager := manager, mutex := none }
  | _, _ => .error .blocked

/-- The `write` of `handle_calls`. -/
def handlerReply (pid : Int) (s : System β) : Except Halt (System β) :=
  match s.handlers.find? pid with
  | some ⟨n, .answered answer⟩ =>
      let p := s.procs n
      if p.hungUp then .ok (s.setHandler pid ⟨n, .leaving⟩)
      else .ok ((s.setProc n { p with down := p.down ++ [answer] }).setHandler pid ⟨n, .polling⟩)
  | _ => .error .blocked

/-- The clean-up of `handle_calls`. -/
def handlerClean (pid : Int) (env : Nat → CallEnv) (s : System β) : Except Halt (System β) :=
  match s.handlers.find? pid with
  | some ⟨n, .cleaning⟩ => do
      let manager ← orHalt ((Action.disconnect pid env).exec s.manager)
      return { s.setHandler pid ⟨n, .ended⟩ with manager := manager, mutex := none }
  | _ => .error .blocked

/-- There is a message in the userfaultfd. -/
def faulted (s : System β) : Bool := s.waiters.any fun w => !w.read

/-- A step of the loop of `handle_userfaults` up to the lock. -/
def userfaultPoll (fail : Bool) (s : System β) : Except Halt (System β) :=
  match s.userfault, s.poll fail ⟨s.faulted, false⟩ with
  | .polling, some .ready => .ok { s with userfault := .ready }
  | .polling, some _ =>
      .ok { s with userfault := .ended, eventfd := (shutdownManager s.eventfd).2 }
  | _, _ => .error .blocked

/-- The thread of `handle_userfaults` locks `m_mutex`. -/
def userfaultLock (s : System β) : Except Halt (System β) :=
  match s.mutex, s.userfault with
  | none, .ready => .ok { s with userfault := .locked, mutex := some .userfault }
  | _, _ => .error .blocked

/-- The `read` of `handle_userfault`, which takes the message about one of the
threads that are stopped.  It fails if there is none. -/
def userfaultRead (i : Nat) (s : System β) : Except Halt (System β) :=
  match s.userfault, s.waiters[i]? with
  | .locked, some w =>
      if w.read then .error .blocked
      else .ok { s with
        userfault := .serving w.addr w.flags
        waiters := s.waiters.set i { w with read := true } }
  | .locked, none =>
      if s.faulted then .error .blocked
      else .ok { s with userfault := .polling, mutex := none }
  | _, _ => .error .blocked

/-- The rest of `handle_userfault`. -/
def userfaultServe (env : Env) (s : System β) : Except Halt (System β) :=
  match s.userfault with
  | .serving addr flags => do
      let (wake, cm) ← orHalt (s.manager.toClientManager.handleUserfault addr flags env)
      return { s with
        manager := { s.manager with toClientManager := cm }
        userfault := .polling
        mutex := none
        waiters := s.waiters.filter fun w => !wake.covers w.addr }
  | _ => .error .blocked

/-- `main` gets a signal, calls `shutdown_manager`, and destroys the client
manager. -/
def mainSignal (s : System β) : Except Halt (System β) :=
  match s.main with
  | .polling =>
      .ok { s with
        main := .joinAccept
        eventfd := raiseShutdown (shutdownManager s.eventfd).2 }
  | _ => .error .blocked

/-- The joins in the destructor, and the end of the process. -/
def mainJoin (s : System β) : Except Halt (System β) :=
  match s.main, s.accept, s.userfault, s.handlers.entries with
  | .joinAccept, .ended, _, _ => .ok { s with main := .joinUserfault }
  | .joinUserfault, _, .ended, _ => .ok { s with main := .clearing }
  | .clearing, _, _, [] =>
      .ok { s with main := .done, procs := fun n => { s.procs n with shut := true } }
  | _, _, _, _ => .error .blocked

/-- `m_clients.clear()` destroys a client. -/
def mainClear (pid : Int) (s : System β) : Except Halt (System β) :=
  match s.main, s.handlers.find? pid with
  | .clearing, some ⟨n, .ended⟩ => .ok { s.shut n with handlers := s.handlers.erase pid }
  | _, _ => .error .blocked

end System

/-! ## Moves -/

/-- A step of one thread. -/
inductive Move (β : Type) where
  | enter (n t : Nat) (entry : LibEntry β)
  | acquire (n t : Nat)
  | introduce (n t : Nat)
  | send (n t : Nat)
  | receive (n t : Nat)
  | leave (n t : Nat)
  | exit (n : Nat)
  | fault (n : Nat) (addr : UInt64) (flags : PagefaultFlags)
  | store (st : Store)
  | acceptPoll (fail : Bool)
  | acceptRefused
  | acceptRead
  | acceptJoin
  | handlerPoll (pid : Int) (fail : Bool)
  | handlerLock (pid : Int)
  | handlerServe (pid : Int) (env : CallEnv)
  | handlerReply (pid : Int)
  | handlerClean (pid : Int) (env : Nat → CallEnv)
  | userfaultPoll (fail : Bool)
  | userfaultLock
  | userfaultRead (i : Nat)
  | userfaultServe (env : Env)
  | mainSignal
  | mainJoin
  | mainClear (pid : Int)

/-- The next state, if the thread does not have to wait. -/
def Move.exec {β : Type} : Move β → System β → Except Halt (System β)
  | .enter n t entry, s => s.enter n t entry
  | .acquire n t, s => s.acquire n t
  | .introduce n t, s => s.introduce n t
  | .send n t, s => s.send n t
  | .receive n t, s => s.receive n t
  | .leave n t, s => s.leave n t
  | .exit n, s => .ok (s.exit n)
  | .fault n addr flags, s => s.fault n addr flags
  | .store st, s =>
      .ok { s with manager := { s.manager with buffer := s.manager.buffer.clientStore st } }
  | .acceptPoll fail, s => s.acceptPoll fail
  | .acceptRefused, s => s.acceptRefused
  | .acceptRead, s => s.acceptRead
  | .acceptJoin, s => s.acceptJoin
  | .handlerPoll pid fail, s => s.handlerPoll pid fail
  | .handlerLock pid, s => s.handlerLock pid
  | .handlerServe pid env, s => s.handlerServe pid env
  | .handlerReply pid, s => s.handlerReply pid
  | .handlerClean pid env, s => s.handlerClean pid env
  | .userfaultPoll fail, s => s.userfaultPoll fail
  | .userfaultLock, s => s.userfaultLock
  | .userfaultRead i, s => s.userfaultRead i
  | .userfaultServe env, s => s.userfaultServe env
  | .mainSignal, s => s.mainSignal
  | .mainJoin, s => s.mainJoin
  | .mainClear pid, s => s.mainClear pid

/-- The states the threads can bring about. -/
def System.Reachable {β : Type} (nrPagesRam nrPagesSwap : Nat) (files : OrdMap Nat PersFile)
    (pids : Nat → Int) : System β → Prop :=
  Runs Move.exec (fun _ _ => True) (.init nrPagesRam nrPagesSwap files pids)

end DASim
