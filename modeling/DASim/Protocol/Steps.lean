import DASim.Protocol.System

/-!
# What one step of a thread does

`System.Step` has one constructor for each thing a thread can do, with what it needs
and with the state after it.  Every move is one of them (`Move.exec_step`).  The
invariants of the system are proved over these constructors and never unfold a move.
-/

namespace DASim

/-! ## Polling -/

/-- An `int` is too short for an eventfd. -/
@[simp]
theorem shutdownManager_eq (counter : Nat) : shutdownManager counter = (false, counter) := rfl

namespace System

variable {β : Type}

theorem poll_eq_ready {s : System β} {fail : Bool} {main : Revents}
    (h : s.poll fail main = some .ready) :
    fail = false ∧ s.eventfd = 0 ∧ main.pollin = true ∧ main.other = false := by
  unfold poll at h
  split at h
  next => cases h
  next hfail =>
    split at h
    next hany =>
      simp only [pollOrShutdown, Revents.any, Bool.or_false] at h
      split at h
      next => cases h
      next hfd =>
        split at h
        next => cases h
        next hother =>
          have hfd : s.eventfd = 0 := by simpa using hfd
          refine ⟨by simpa using hfail, hfd, ?_, by simpa using hother⟩
          simpa [Revents.any, hfd, hother] using hany
    next => cases h

/-- Otherwise `poll` failed, the threads are to end, or the descriptor has another
event. -/
theorem poll_eq_some {s : System β} {fail : Bool} {main : Revents} {status : PollStatus}
    (h : s.poll fail main = some status) (hne : status ≠ .ready) :
    (fail = true ∨ 0 < s.eventfd) ∨ main.other = true := by
  unfold poll at h
  split at h
  next hfail => exact Or.inl (Or.inl hfail)
  next =>
    split at h
    next =>
      simp only [pollOrShutdown, Revents.any, Bool.or_false] at h
      split at h
      next hfd => exact Or.inl (Or.inr (by simpa using hfd))
      next =>
        split at h
        next hother => exact Or.inr hother
        next => exact absurd (Option.some.inj h).symm hne
    next => cases h

end System

/-! ## Steps -/

section Steps

variable {β : Type}

/-- Who takes a step. -/
inductive Actor where
  /-- A thread of a client process. -/
  | client
  /-- The main thread, which gets a signal. -/
  | signal
  /-- A thread of the manager, and whether a `poll` of it failed. -/
  | manager (fail : Bool)
  /-- The thread that accepts connections, whose `accept` fails. -/
  | refused
deriving DecidableEq, Repr

/-- What one step of one thread does. -/
inductive System.Step : System β → Actor → System β → Prop where
  -- a thread of a process
  | enter {s : System β} {n t : Nat} {entry : LibEntry β} : (s.procs n).exited = false →
      ((s.procs n).threads t).idle = true →
      Step s .client (s.setProc n ((s.procs n).setThread t (.entering s.manager entry)))
  | call {s : System β} {n t : Nat} {start : Damanager} {call : Program β} :
      (s.procs n).mutex = none → (s.procs n).threads t = .entering start (.call call) →
      Step s .client (s.setProc n
        { (s.procs n).setThread t (.inside start call call) with mutex := some t })
  | connect {s : System β} {n t : Nat} {start : Damanager} : (s.procs n).mutex = none →
      (s.procs n).threads t = .entering start .init → (s.procs n).socket = .unopened →
      s.names.find? (s.procs n).pid = none →
      Step s .client { s.setProc n { (s.procs n).setThread t .introducing with
          mutex := some t
          socket := .opened } with
        names := s.names.insert (s.procs n).pid n
        backlog := s.backlog ++ [n] }
  | skip {s : System β} {n t : Nat} {start : Damanager} {entry : LibEntry β} :
      (s.procs n).mutex = none → (s.procs n).threads t = .entering start entry →
      Step s .client (s.setProc n ((s.procs n).setThread t .outside))
  | close {s : System β} {n t : Nat} {start : Damanager} {entry : LibEntry β} :
      (s.procs n).mutex = none → (s.procs n).threads t = .entering start entry →
      Step s .client ((s.unbind n).setProc n
        { (s.procs n).setThread t .outside with socket := .closed })
  | introduce {s : System β} {n t : Nat} : (s.procs n).threads t = .introducing →
      Step s .client (s.setProc n { (s.procs n).release t .outside with
        up := (s.procs n).up ++ [.pid (s.procs n).pid] })
  | send {s : System β} {n t : Nat} {start : Damanager} {call : Program β} {query : CallParams}
      {next : Except Errno CallResult → Program β} :
      (s.procs n).threads t = .inside start call (.ask query next) →
      (s.procs n).online = true →
      Step s .client (s.setProc n { (s.procs n).setThread t (.awaiting start call query next) with
        up := (s.procs n).up ++ [.params query] })
  | receive {s : System β} {n t : Nat} {start : Damanager} {call : Program β} {query : CallParams}
      {next : Except Errno CallResult → Program β} {answer : Except Errno CallResult}
      {down : List (Except Errno CallResult)} :
      (s.procs n).threads t = .awaiting start call query next →
      (s.procs n).down = answer :: down →
      Step s .client (s.setProc n
        { (s.procs n).setThread t (.inside start call (next answer)) with down := down })
  | leave {s : System β} {n t : Nat} {start : Damanager} {call : Program β} {value : β} :
      (s.procs n).threads t = .inside start call (.done value) →
      Step s .client (s.setProc n ((s.procs n).release t (.returned start call value)))
  | exit {s : System β} {n : Nat} : Step s .client (s.exit n)
  | fault {s : System β} {n : Nat} {addr : UInt64} {flags : PagefaultFlags} :
      Step s .client { s with waiters := s.waiters ++ [⟨n, addr, flags, false⟩] }
  | store {s : System β} {st : Store} :
      Step s .client
        { s with manager := { s.manager with buffer := s.manager.buffer.clientStore st } }
  -- the thread that accepts connections
  | accept {s : System β} {n : Nat} {backlog : List Nat} : s.accept = .polling →
      s.eventfd = 0 → s.backlog = n :: backlog →
      Step s (.manager false) { s with accept := .reading n, backlog := backlog }
  | acceptEnd {s : System β} {fail : Bool} : s.accept = .polling →
      (fail = true ∨ 0 < s.eventfd) → Step s (.manager fail) { s with accept := .ended }
  | refuse {s : System β} : s.accept = .polling → s.eventfd = 0 → Step s .refused s
  | greet {s : System β} {n : Nat} {packet : Packet} {up : List Packet} :
      s.accept = .reading n → (s.procs n).up = packet :: up →
      Step s (.manager false)
        { s.setProc n { s.procs n with up := up } with accept := .joining n packet.head }
  | giveUp {s : System β} {n : Nat} : s.accept = .reading n → (s.procs n).up = [] →
      (s.procs n).hungUp = true →
      Step s (.manager false) { s with accept := .polling }
  | start {s : System β} {n : Nat} {pid : Int} {manager : Damanager} :
      s.accept = .joining n pid → s.handlers.find? pid = none →
      (Action.connect pid).exec s.manager = .ok manager →
      Step s (.manager false)
        { s.setHandler pid ⟨n, .polling⟩ with manager := manager, accept := .polling }
  | restart {s : System β} {n m : Nat} {pid : Int} {manager : Damanager} :
      s.accept = .joining n pid → s.handlers.find? pid = some ⟨m, .ended⟩ →
      (Action.connect pid).exec s.manager = .ok manager →
      Step s (.manager false) { (s.shut m).setHandler pid ⟨n, .polling⟩ with
        manager := manager
        accept := .polling }
  -- the thread of a client
  | read {s : System β} {pid : Int} {n : Nat} {params : CallParams} {up : List Packet} :
      s.handlers.find? pid = some ⟨n, .polling⟩ → s.eventfd = 0 → (s.procs n).hungUp = false →
      (s.procs n).up = .params params :: up →
      Step s (.manager false)
        ((s.setProc n { s.procs n with up := up }).setHandler pid ⟨n, .received params⟩)
  | quit {s : System β} {pid : Int} {n : Nat} {fail : Bool} :
      s.handlers.find? pid = some ⟨n, .polling⟩ →
      ((fail = true ∨ 0 < s.eventfd) ∨ (s.procs n).hungUp = true ∨
        ∃ k up, (s.procs n).up = .pid k :: up) →
      Step s (.manager fail) (s.setHandler pid ⟨n, .leaving⟩)
  | lock {s : System β} {pid : Int} {n : Nat} {params : CallParams} : s.mutex = none →
      s.handlers.find? pid = some ⟨n, .received params⟩ →
      Step s (.manager false)
        { s.setHandler pid ⟨n, .locked params⟩ with mutex := some (.handler pid) }
  | serve {s : System β} {pid : Int} {n : Nat} {params : CallParams} {c : Client} {env : CallEnv}
      {answer : Except Errno CallResult} {manager : Damanager} :
      s.handlers.find? pid = some ⟨n, .locked params⟩ → s.manager.clients.find? pid = some c →
      s.manager.handleCall pid c params env = .ok (answer, manager) →
      Step s (.manager false)
        { s.setHandler pid ⟨n, .answered answer⟩ with manager := manager, mutex := none }
  | reply {s : System β} {pid : Int} {n : Nat} {answer : Except Errno CallResult} :
      s.handlers.find? pid = some ⟨n, .answered answer⟩ → (s.procs n).hungUp = false →
      Step s (.manager false)
        ((s.setProc n { s.procs n with down := (s.procs n).down ++ [answer] }).setHandler pid
          ⟨n, .polling⟩)
  | unheard {s : System β} {pid : Int} {n : Nat} {answer : Except Errno CallResult} :
      s.handlers.find? pid = some ⟨n, .answered answer⟩ → (s.procs n).hungUp = true →
      Step s (.manager false) (s.setHandler pid ⟨n, .leaving⟩)
  | lockClean {s : System β} {pid : Int} {n : Nat} : s.mutex = none →
      s.handlers.find? pid = some ⟨n, .leaving⟩ →
      Step s (.manager false) { s.setHandler pid ⟨n, .cleaning⟩ with mutex := some (.handler pid) }
  | clean {s : System β} {pid : Int} {n : Nat} {env : Nat → CallEnv} {manager : Damanager} :
      s.handlers.find? pid = some ⟨n, .cleaning⟩ →
      (Action.disconnect pid env).exec s.manager = .ok manager →
      Step s (.manager false)
        { s.setHandler pid ⟨n, .ended⟩ with manager := manager, mutex := none }
  -- the thread that serves page faults
  | ready {s : System β} : s.userfault = .polling → s.eventfd = 0 → s.faulted = true →
      Step s (.manager false) { s with userfault := .ready }
  | userfaultEnd {s : System β} {fail : Bool} : s.userfault = .polling →
      (fail = true ∨ 0 < s.eventfd) → Step s (.manager fail) { s with userfault := .ended }
  | lockFault {s : System β} : s.mutex = none → s.userfault = .ready →
      Step s (.manager false) { s with userfault := .locked, mutex := some .userfault }
  | readFault {s : System β} {i : Nat} {w : Waiter} : s.userfault = .locked →
      s.waiters[i]? = some w → w.read = false →
      Step s (.manager false) { s with
        userfault := .serving w.addr w.flags
        waiters := s.waiters.set i { w with read := true } }
  | noFault {s : System β} : s.userfault = .locked → s.faulted = false →
      Step s (.manager false) { s with userfault := .polling, mutex := none }
  | serveFault {s : System β} {addr : UInt64} {flags : PagefaultFlags} {env : Env} {wake : Wake}
      {cm : ClientManager} : s.userfault = .serving addr flags →
      s.manager.toClientManager.handleUserfault addr flags env = .ok (wake, cm) →
      Step s (.manager false) { s with
        manager := { s.manager with toClientManager := cm }
        userfault := .polling
        mutex := none
        waiters := s.waiters.filter fun w => !wake.covers w.addr }
  -- the main thread
  | signal {s : System β} : s.main = .polling →
      Step s .signal { s with main := .joinAccept, eventfd := raiseShutdown s.eventfd }
  | joinAccept {s : System β} : s.main = .joinAccept → s.accept = .ended →
      Step s (.manager false) { s with main := .joinUserfault }
  | joinUserfault {s : System β} : s.main = .joinUserfault → s.userfault = .ended →
      Step s (.manager false) { s with main := .clearing }
  | clear {s : System β} {pid : Int} {n : Nat} : s.main = .clearing →
      s.handlers.find? pid = some ⟨n, .ended⟩ →
      Step s (.manager false) { s.shut n with handlers := s.handlers.erase pid }
  | finish {s : System β} : s.main = .clearing → s.handlers.entries = [] →
      Step s (.manager false)
        { s with main := .done, procs := fun n => { s.procs n with shut := true } }

/-! ## Moves are steps -/

theorem ok_of_orHalt {α : Type} {x : Except Fault α} {a : α} (h : orHalt x = .ok a) :
    x = .ok a := by
  cases x with
  | error f => cases h
  | ok b =>
      cases h
      rfl

variable {s s' : System β} {n t : Nat} {pid : Int}

namespace System

theorem acquire_step (h : s.acquire n t = .ok s') : s.Step .client s' := by
  unfold acquire at h
  dsimp only at h
  split at h
  next start call hmutex hthread =>
    cases h
    exact .call hmutex hthread
  next start hmutex hthread =>
    split at h
    next hsocket =>
      cases h
      unfold connect
      dsimp only
      split
      next => exact .exit
      next hname =>
        simp only [Bool.or_eq_true, not_or, Bool.not_eq_true] at hname
        exact .connect hmutex hthread hsocket (OrdMap.contains_eq_false.mp hname.1)
    next =>
      cases h
      exact .skip hmutex hthread
  next start hmutex hthread =>
    split at h
    next =>
      cases h
      exact .close hmutex hthread
    next =>
      cases h
      exact .skip hmutex hthread
  next => cases h

theorem introduce_step (h : s.introduce n t = .ok s') : s.Step .client s' := by
  unfold introduce at h
  dsimp only at h
  split at h
  next hthread =>
    split at h
    next =>
      cases h
      exact .exit
    next =>
      cases h
      exact .introduce hthread
  next => cases h

theorem send_step (h : s.send n t = .ok s') : s.Step .client s' := by
  unfold send at h
  dsimp only at h
  split at h
  next start call query next hthread =>
    split at h
    next honline =>
      cases h
      exact .send hthread (by simp_all)
    next =>
      cases h
      exact .exit
  next => cases h

theorem receive_step (h : s.receive n t = .ok s') : s.Step .client s' := by
  unfold receive at h
  dsimp only at h
  split at h
  next start call query next answer down hthread hdown =>
    cases h
    exact .receive hthread hdown
  next =>
    split at h
    next =>
      cases h
      exact .exit
    next => cases h
  next => cases h

theorem leave_step (h : s.leave n t = .ok s') : s.Step .client s' := by
  unfold leave at h
  dsimp only at h
  split at h
  next start call value hthread =>
    cases h
    exact .leave hthread
  next =>
    cases h
    exact .exit
  next => cases h

theorem acceptPoll_step {fail : Bool} (h : s.acceptPoll fail = .ok s') :
    s.Step (.manager fail) s' := by
  unfold acceptPoll at h
  split at h
  next n backlog haccept hpoll hbacklog =>
    cases h
    obtain ⟨rfl, hfd, -⟩ := poll_eq_ready hpoll
    exact .accept haccept hfd hbacklog
  next => cases h
  next status haccept hpoll hcons hnil =>
    cases h
    refine .acceptEnd haccept ((poll_eq_some hpoll fun hready => ?_).resolve_right (by simp))
    cases hbacklog : s.backlog with
    | nil => exact hnil hbacklog hready
    | cons n backlog => exact hcons n backlog hbacklog hready
  next => cases h

theorem acceptRefused_step (h : s.acceptRefused = .ok s') : s.Step .refused s' := by
  unfold acceptRefused at h
  split at h
  next haccept hpoll =>
    cases h
    exact .refuse haccept (poll_eq_ready hpoll).2.1
  next => cases h

theorem acceptRead_step (h : s.acceptRead = .ok s') : s.Step (.manager false) s' := by
  unfold acceptRead at h
  split at h
  next n haccept =>
    split at h
    next packet up hup =>
      cases h
      exact .greet haccept hup
    next hup =>
      split at h
      next hhung =>
        cases h
        exact .giveUp haccept hup hhung
      next => cases h
  next => cases h

theorem acceptJoin_step (h : s.acceptJoin = .ok s') : s.Step (.manager false) s' := by
  unfold acceptJoin at h
  split at h
  next n pid haccept =>
    split at h
    next hold =>
      obtain ⟨manager, hconnect, h⟩ := ok_of_bind h
      cases h
      exact .start haccept hold (ok_of_orHalt hconnect)
    next m hold =>
      obtain ⟨manager, hconnect, h⟩ := ok_of_bind h
      cases h
      exact .restart haccept hold (ok_of_orHalt hconnect)
    next => cases h
  next => cases h

theorem handlerPoll_step {fail : Bool} (h : s.handlerPoll pid fail = .ok s') :
    s.Step (.manager fail) s' := by
  unfold handlerPoll at h
  split at h
  next n hfind =>
    dsimp only at h
    split at h
    next params up hpoll hup =>
      cases h
      obtain ⟨rfl, hfd, -, hhung⟩ := poll_eq_ready hpoll
      exact .read hfind hfd hhung hup
    next status hpoll hup =>
      cases h
      refine .quit hfind ?_
      by_cases hready : status = .ready
      · obtain ⟨-, -, hin, hhung⟩ := poll_eq_ready (hready ▸ hpoll)
        cases hups : (s.procs n).up with
        | nil => simp_all
        | cons packet up =>
            cases packet with
            | pid k => exact Or.inr (Or.inr ⟨k, up, rfl⟩)
            | params q => exact (hup q up hups hready).elim
      · exact (poll_eq_some hpoll hready).imp_right Or.inl
    next => cases h
  next => cases h

theorem handlerLock_step (h : s.handlerLock pid = .ok s') : s.Step (.manager false) s' := by
  unfold handlerLock at h
  split at h
  next n params hmutex hfind =>
    cases h
    exact .lock hmutex hfind
  next n hmutex hfind =>
    cases h
    exact .lockClean hmutex hfind
  next => cases h

theorem handlerServe_step {env : CallEnv} (h : s.handlerServe pid env = .ok s') :
    s.Step (.manager false) s' := by
  unfold handlerServe at h
  split at h
  next n params c hfind hclient =>
    obtain ⟨⟨answer, manager⟩, hcall, h⟩ := ok_of_bind h
    cases h
    exact .serve hfind hclient (ok_of_orHalt hcall)
  next => cases h

theorem handlerReply_step (h : s.handlerReply pid = .ok s') : s.Step (.manager false) s' := by
  unfold handlerReply at h
  split at h
  next n answer hfind =>
    dsimp only at h
    split at h
    next hhung =>
      cases h
      exact .unheard hfind hhung
    next hhung =>
      cases h
      exact .reply hfind (by simpa using hhung)
  next => cases h

theorem handlerClean_step {env : Nat → CallEnv} (h : s.handlerClean pid env = .ok s') :
    s.Step (.manager false) s' := by
  unfold handlerClean at h
  split at h
  next n hfind =>
    obtain ⟨manager, hdisconnect, h⟩ := ok_of_bind h
    cases h
    exact .clean hfind (ok_of_orHalt hdisconnect)
  next => cases h

theorem userfaultPoll_step {fail : Bool} (h : s.userfaultPoll fail = .ok s') :
    s.Step (.manager fail) s' := by
  unfold userfaultPoll at h
  split at h
  next huserfault hpoll =>
    cases h
    obtain ⟨rfl, hfd, hfaulted, -⟩ := poll_eq_ready hpoll
    exact .ready huserfault hfd hfaulted
  next status hne huserfault hpoll =>
    cases h
    exact .userfaultEnd huserfault ((poll_eq_some hpoll hne).resolve_right (by simp))
  next => cases h

theorem userfaultLock_step (h : s.userfaultLock = .ok s') : s.Step (.manager false) s' := by
  unfold userfaultLock at h
  split at h
  next hmutex huserfault =>
    cases h
    exact .lockFault hmutex huserfault
  next => cases h

theorem userfaultRead_step {i : Nat} (h : s.userfaultRead i = .ok s') :
    s.Step (.manager false) s' := by
  unfold userfaultRead at h
  split at h
  next w huserfault hw =>
    split at h
    next => cases h
    next hread =>
      cases h
      exact .readFault huserfault hw (by simpa using hread)
  next huserfault _ =>
    split at h
    next => cases h
    next hfaulted =>
      cases h
      exact .noFault huserfault (by simpa using hfaulted)
  next => cases h

theorem userfaultServe_step {env : Env} (h : s.userfaultServe env = .ok s') :
    s.Step (.manager false) s' := by
  unfold userfaultServe at h
  split at h
  next addr flags huserfault =>
    obtain ⟨⟨wake, cm⟩, hfault, h⟩ := ok_of_bind h
    cases h
    exact .serveFault huserfault (ok_of_orHalt hfault)
  next => cases h

theorem mainJoin_step (h : s.mainJoin = .ok s') : s.Step (.manager false) s' := by
  unfold mainJoin at h
  split at h
  next hmain haccept =>
    cases h
    exact .joinAccept hmain haccept
  next hmain huserfault =>
    cases h
    exact .joinUserfault hmain huserfault
  next hmain hhandlers =>
    cases h
    exact .finish hmain hhandlers
  next => cases h

theorem mainClear_step (h : s.mainClear pid = .ok s') : s.Step (.manager false) s' := by
  unfold mainClear at h
  split at h
  next n hmain hfind =>
    cases h
    exact .clear hmain hfind
  next => cases h

end System

/-- Who makes a move. -/
def Move.actor : Move β → Actor
  | .enter .. | .acquire .. | .introduce .. | .send .. | .receive .. | .leave .. => .client
  | .exit _ | .fault .. | .store _ => .client
  | .acceptPoll fail | .handlerPoll _ fail | .userfaultPoll fail => .manager fail
  | .mainSignal => .signal
  | .acceptRefused => .refused
  | _ => .manager false

/-- Every move is a step. -/
theorem Move.exec_step {move : Move β} (h : move.exec s = .ok s') : s.Step move.actor s' := by
  cases move with
  | enter n t entry =>
      rw [exec, System.enter] at h
      split at h
      next hidle =>
        cases h
        simp only [Bool.and_eq_true, Bool.not_eq_true'] at hidle
        exact .enter hidle.1 hidle.2
      next => cases h
  | acquire n t => exact System.acquire_step h
  | introduce n t => exact System.introduce_step h
  | send n t => exact System.send_step h
  | receive n t => exact System.receive_step h
  | leave n t => exact System.leave_step h
  | exit n =>
      cases h
      exact .exit
  | fault n addr flags =>
      rw [exec, System.fault] at h
      split at h
      next => cases h
      next =>
        cases h
        exact .fault
  | store st =>
      cases h
      exact .store
  | acceptPoll fail => exact System.acceptPoll_step h
  | acceptRefused => exact System.acceptRefused_step h
  | acceptRead => exact System.acceptRead_step h
  | acceptJoin => exact System.acceptJoin_step h
  | handlerPoll pid fail => exact System.handlerPoll_step h
  | handlerLock pid => exact System.handlerLock_step h
  | handlerServe pid env => exact System.handlerServe_step h
  | handlerReply pid => exact System.handlerReply_step h
  | handlerClean pid env => exact System.handlerClean_step h
  | userfaultPoll fail => exact System.userfaultPoll_step h
  | userfaultLock => exact System.userfaultLock_step h
  | userfaultRead i => exact System.userfaultRead_step h
  | userfaultServe env => exact System.userfaultServe_step h
  | mainSignal =>
      rw [exec, System.mainSignal] at h
      split at h
      next hmain =>
        cases h
        exact .signal hmain
      next => cases h
  | mainJoin => exact System.mainJoin_step h
  | mainClear pid => exact System.mainClear_step h

/-- What the start has and every step keeps, all reachable states have. -/
theorem System.Reachable.invariant {P : System β → Prop} {nrPagesRam nrPagesSwap : Nat}
    {files : OrdMap Nat PersFile} {pids : Nat → Int}
    (h : System.Reachable nrPagesRam nrPagesSwap files pids s)
    (hinit : P (.init nrPagesRam nrPagesSwap files pids))
    (hstep : ∀ {a : Actor} {s s' : System β}, P s → s.Step a s' → P s') : P s :=
  Runs.invariant h hinit fun _ _ _ hs _ hexec => hstep hs (Move.exec_step hexec)

end Steps

end DASim
