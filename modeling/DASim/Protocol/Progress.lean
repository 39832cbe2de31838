import DASim.Protocol.Threads

/-!
# The manager comes to rest

Every step of a thread of the manager lowers `System.work`.  So the manager comes to
rest if the clients do nothing (`Step.work_lt`).  Calls of `accept` that fail are not
counted, as they can go on for ever while a connection waits.  A state is at rest if no
thread of the manager can go on (`System.AtRest`), and then nothing is left undone.

* Every thread that waits for an answer has it in its socket, and no thread is stopped
  by a page fault (`all_served_at_rest`).  There is one exception.  The `read` of the
  process id blocks, so a process that has connected and has not sent its id keeps all
  processes that connected after it waiting.
* After a signal the number of steps is bounded whatever the clients do
  (`System.remaining`), since `poll` reports the shutdown before anything else.  When
  none is left, the manager has ended (`shutdown_ends`), with the same exception.

This is for runs in which no `poll` fails.  The thread whose `poll` fails ends, and
that does not tell the other ones to end: `shutdown_manager` writes four bytes to an
eventfd, which has no effect (`eventfd_untouched`).
-/

namespace DASim

section Progress

variable {β : Type}

/-! ## What is left to do -/

def HandlerState.work : HandlerState → Nat
  | .received _ => 7
  | .locked _ => 6
  | .answered _ => 5
  | .polling => 4
  | .leaving => 3
  | .cleaning => 2
  | .ended => 1

def AcceptState.work : AcceptState → Nat
  | .polling => 2
  | .reading _ => 1
  | .joining _ _ => 0
  | .ended => 0

def UserfaultState.work (faulted : Bool) : UserfaultState → Nat
  | .serving _ _ => 9
  | .polling => if faulted then 8 else 1
  | .ready => 7
  | .locked => 6
  | .ended => 0

def MainState.work : MainState → Nat
  | .polling => 4
  | .joinAccept => 3
  | .joinUserfault => 2
  | .clearing => 1
  | .done => 0

namespace System

/-- The messages in a socket. -/
def sent (s : System β) (n : Nat) : Nat := (s.procs n).up.length

/-- The work for the connections that wait. -/
def queueWork (s : System β) : Nat := (s.queue.map fun n => 7 + 4 * s.sent n).sum

/-- The work for the clients. -/
def handlerWork (s : System β) : Nat :=
  s.handlers.sum fun _ h => h.state.work + 4 * s.sent h.proc

/-- A bound for the number of steps the threads of the manager can take. -/
def work (s : System β) : Nat :=
  s.accept.work + s.queueWork + s.handlerWork + s.userfault.work s.faulted +
    10 * s.waiters.countP (fun w => !w.read) + s.main.work

variable {s s' : System β} {n m : Nat} {pid : Int}

theorem queueWork_le (hsent : ∀ n, s'.sent n ≤ s.sent n) (hqueue : s'.queue = s.queue) :
    s'.queueWork ≤ s.queueWork := by
  rw [queueWork, hqueue]
  exact List.sum_le_sum fun n _ => by have := hsent n; omega

theorem handlerWork_le (hsent : ∀ n, s'.sent n ≤ s.sent n) (hhandlers : s'.handlers = s.handlers) :
    s'.handlerWork ≤ s.handlerWork := by
  rw [handlerWork, hhandlers]
  exact s.handlers.sum_le_sum fun _ h => by have := hsent h.proc; omega

/-- The work for one client and for the others. -/
theorem handlerWork_of_find? {h : Handler} (hfind : s.handlers.find? pid = some h) :
    s.handlerWork = h.state.work + 4 * s.sent h.proc +
      (s.handlers.erase pid).sum fun _ h => h.state.work + 4 * s.sent h.proc :=
  OrdMap.sum_of_find? _ hfind

theorem handlerWork_insert {h : Handler} (hsent : ∀ n, s'.sent n ≤ s.sent n)
    (hhandlers : s'.handlers = s.handlers.insert pid h) :
    s'.handlerWork ≤ h.state.work + 4 * s'.sent h.proc +
      (s.handlers.erase pid).sum fun _ h => h.state.work + 4 * s.sent h.proc := by
  rw [handlerWork, hhandlers, OrdMap.sum_insert]
  have := (s.handlers.erase pid).sum_le_sum (f := fun _ h => h.state.work + 4 * s'.sent h.proc)
    (g := fun _ h => h.state.work + 4 * s.sent h.proc) fun _ h => by
      have := hsent h.proc
      omega
  omega

/-- The thread of a client goes on. -/
theorem work_handler {x y : HandlerState} (hfind : s.handlers.find? pid = some ⟨m, x⟩)
    (hsent : ∀ n, s'.sent n ≤ s.sent n) (hwork : y.work + 4 * s'.sent m < x.work + 4 * s.sent m)
    (hhandlers : s'.handlers = s.handlers.insert pid ⟨m, y⟩) (haccept : s'.accept = s.accept)
    (hbacklog : s'.backlog = s.backlog) (huser : s'.userfault = s.userfault)
    (hwaiters : s'.waiters = s.waiters) (hmain : s'.main = s.main) : s'.work < s.work := by
  have hqueue := queueWork_le hsent (by rw [queue, queue, haccept, hbacklog])
  have hnew := handlerWork_insert hsent hhandlers
  have hold := handlerWork_of_find? hfind
  rw [work, work, haccept, faulted, faulted, huser, hwaiters, hmain]
  dsimp only at hnew hold
  omega

/-- The thread of the page faults goes on. -/
theorem work_userfault
    (hwork : s'.userfault.work s'.faulted + 10 * s'.waiters.countP (fun w => !w.read) <
      s.userfault.work s.faulted + 10 * s.waiters.countP (fun w => !w.read))
    (hprocs : s'.procs = s.procs) (hhandlers : s'.handlers = s.handlers)
    (haccept : s'.accept = s.accept) (hbacklog : s'.backlog = s.backlog)
    (hmain : s'.main = s.main) : s'.work < s.work := by
  have hsent : ∀ n, s'.sent n ≤ s.sent n := fun n => by rw [sent, sent, hprocs]
  have hqueue := queueWork_le hsent (by rw [queue, queue, haccept, hbacklog])
  have hhandler := handlerWork_le hsent hhandlers
  rw [work, work, haccept, hmain]
  omega

/-- The thread that accepts connections or the main thread goes on. -/
theorem work_frame (hsent : ∀ n, s'.sent n ≤ s.sent n) (hqueue : s'.queue = s.queue)
    (hhandlers : s'.handlers = s.handlers)
    (hwork : s'.accept.work + s'.main.work < s.accept.work + s.main.work)
    (huser : s'.userfault = s.userfault) (hwaiters : s'.waiters = s.waiters) :
    s'.work < s.work := by
  have hq := queueWork_le hsent hqueue
  have hh := handlerWork_le hsent hhandlers
  rw [work, work, faulted, faulted, huser, hwaiters]
  omega

/-- The first connection that waits is taken out. -/
theorem queueWork_pop (hsent : ∀ n, s'.sent n ≤ s.sent n) (hcurrent : s.accept.current = [n])
    (hpolling : s'.accept = .polling) (hbacklog : s'.backlog = s.backlog) :
    s'.queueWork + 7 + 4 * s.sent n ≤ s.queueWork := by
  rw [queueWork, queueWork, queue, queue, hcurrent, hpolling, hbacklog]
  have hrest := List.sum_le_sum (l := s.backlog) (f := fun n => 7 + 4 * s'.sent n)
    (g := fun n => 7 + 4 * s.sent n) fun n _ => by have := hsent n; omega
  simp only [AcceptState.current, List.nil_append, List.cons_append, List.map_cons, List.sum_cons]
  omega

theorem work_start (hsent : ∀ n, s'.sent n = s.sent n) (hacc : s.accept = .joining n pid)
    (hpolling : s'.accept = .polling) (hbacklog : s'.backlog = s.backlog)
    (hhandlers : s'.handlers = s.handlers.insert pid ⟨n, .polling⟩)
    (huser : s'.userfault = s.userfault) (hwaiters : s'.waiters = s.waiters)
    (hmain : s'.main = s.main) : s'.work < s.work := by
  have hle : ∀ n, s'.sent n ≤ s.sent n := fun n => (hsent n).le
  have hqueue := queueWork_pop hle (by rw [hacc]; rfl) hpolling hbacklog
  have hnew := handlerWork_insert hle hhandlers
  have hold : ((s.handlers.erase pid).sum fun _ h => h.state.work + 4 * s.sent h.proc) ≤
      s.handlerWork := s.handlers.sum_erase_le pid _
  have hn := hsent n
  have hpoll : HandlerState.polling.work = 4 := rfl
  rw [work, work, faulted, faulted, hpolling, hacc, huser, hwaiters, hmain]
  simp only [AcceptState.work, hpoll] at hnew ⊢
  omega

theorem sent_setProc {p : Process β} (n : Nat) (hup : p.up.length ≤ s.sent m) :
    (s.setProc m p).sent n ≤ s.sent n := by
  by_cases hn : n = m
  · rw [hn, sent, procs_setProc_self]
    exact hup
  · rw [sent, procs_setProc_ne p hn]
    rfl

theorem sent_shut (n : Nat) : (s.shut m).sent n = s.sent n := by
  by_cases hn : n = m
  · rw [hn, sent, shut, procs_setProc_self]
    rfl
  · rw [sent, shut, procs_setProc_ne _ hn]
    rfl

theorem countP_set_read {waiters : List Waiter} {i : Nat} {w : Waiter}
    (hw : waiters[i]? = some w) (hread : w.read = false) :
    (waiters.set i { w with read := true }).countP (fun w => !w.read) + 1 =
      waiters.countP fun w => !w.read := by
  obtain ⟨hi, rfl⟩ := List.getElem?_eq_some_iff.mp hw
  rw [List.countP_set hi]
  have hpos : 0 < waiters.countP fun w => !w.read :=
    List.countP_pos_iff.mpr ⟨waiters[i], List.getElem_mem hi, by simp [hread]⟩
  simp [hread]
  omega

/-- Every step of a thread of the manager lowers the work. -/
theorem Step.work_lt {fail : Bool} (hstep : s.Step (.manager fail) s') : s'.work < s.work := by
  have hsame : ∀ n, s.sent n ≤ s.sent n := fun _ => le_rfl
  cases hstep with
  | accept hacc _ hback =>
      refine work_frame hsame ?_ rfl ?_ rfl rfl
      · rw [queue, queue, hacc, hback]
        rfl
      · rw [hacc]
        simp [AcceptState.work]
  | acceptEnd hacc =>
      refine work_frame hsame ?_ rfl ?_ rfl rfl
      · rw [queue, queue, hacc]
        rfl
      · rw [hacc]
        simp [AcceptState.work]
  | @greet n packet up hacc hup =>
      refine work_frame (fun k => sent_setProc k ?_) ?_ rfl ?_ rfl rfl
      · rw [sent, hup]
        exact Nat.le_succ _
      · rw [queue, queue, hacc]
        rfl
      · rw [hacc]
        simp [AcceptState.work, setProc]
  | giveUp hacc _ _ =>
      have hqueue : queueWork { s with accept := .polling } + 7 + 4 * s.sent _ ≤ s.queueWork :=
        queueWork_pop hsame (by rw [hacc]; rfl) rfl rfl
      have hwork : handlerWork { s with accept := .polling } = s.handlerWork := rfl
      have hfaulted : faulted { s with accept := .polling } = s.faulted := rfl
      rw [work, work, hacc, hwork, hfaulted]
      simp only [AcceptState.work]
      omega
  | start hacc => exact work_start (fun _ => rfl) hacc rfl rfl rfl rfl rfl rfl
  | restart hacc => exact work_start sent_shut hacc rfl rfl rfl rfl rfl rfl
  | @read pid n params up hfind _ _ hup =>
      refine work_handler hfind (fun k => sent_setProc k ?_) ?_ rfl rfl rfl rfl rfl rfl
      · rw [sent, hup]
        exact Nat.le_succ _
      · simp only [sent, setHandler, procs_setProc_self, hup, HandlerState.work, List.length_cons]
        omega
  | quit hfind | unheard hfind | lock _ hfind | lockClean _ hfind | serve hfind | clean hfind =>
      refine work_handler hfind hsame ?_ rfl rfl rfl rfl rfl rfl
      simp [HandlerState.work, sent, setHandler]
  | @reply pid n answer hfind =>
      refine work_handler hfind (fun k => sent_setProc k le_rfl) ?_ rfl rfl rfl rfl rfl rfl
      simp only [sent, setHandler, procs_setProc_self, HandlerState.work]
      omega
  | ready huser _ hfaulted =>
      refine work_userfault ?_ rfl rfl rfl rfl rfl
      rw [huser, hfaulted]
      simp [UserfaultState.work]
  | userfaultEnd huser =>
      refine work_userfault ?_ rfl rfl rfl rfl rfl
      rw [huser]
      simp only [UserfaultState.work]
      split <;> omega
  | lockFault _ huser =>
      refine work_userfault ?_ rfl rfl rfl rfl rfl
      rw [huser]
      simp [UserfaultState.work]
  | readFault huser hw hread =>
      refine work_userfault ?_ rfl rfl rfl rfl rfl
      have hcount := countP_set_read hw hread
      rw [huser]
      simp only [UserfaultState.work]
      omega
  | noFault huser hfaulted =>
      refine work_userfault ?_ rfl rfl rfl rfl rfl
      have hfaulted' : faulted { s with userfault := .polling, mutex := none } = false := hfaulted
      rw [huser, hfaulted']
      simp [UserfaultState.work]
  | @serveFault addr flags env wake cm huser =>
      refine work_userfault ?_ rfl rfl rfl rfl rfl
      have hcount : (s.waiters.filter fun w => !wake.covers w.addr).countP (fun w => !w.read) ≤
          s.waiters.countP fun w => !w.read := List.filter_sublist.countP_le
      rw [huser]
      simp only [UserfaultState.work]
      split <;> omega
  | joinAccept hmain | joinUserfault hmain | finish hmain =>
      refine work_frame hsame rfl rfl ?_ rfl rfl
      rw [hmain]
      simp [MainState.work]
  | @clear pid n _ hfind =>
      have hqueue : queueWork { s.shut n with handlers := s.handlers.erase pid } ≤ s.queueWork :=
        queueWork_le (fun k => (sent_shut k).le) rfl
      have hold := handlerWork_of_find? hfind
      have hnew : handlerWork { s.shut n with handlers := s.handlers.erase pid } =
          (s.handlers.erase pid).sum fun _ h => h.state.work + 4 * s.sent h.proc := by
        show (s.handlers.erase pid).sum (fun _ h => h.state.work + 4 * (s.shut n).sent h.proc) = _
        simp only [sent_shut]
      have hended : HandlerState.ended.work = 1 := rfl
      have hfaulted : faulted { s.shut n with handlers := s.handlers.erase pid } = s.faulted := rfl
      rw [work, work, hnew, hfaulted]
      simp only [shut, setProc, hended] at hqueue hold ⊢
      omega

end System

/-! ## What is left to do after a signal -/

/-- A thread that accepts a connection may still have to start one for the client. -/
def AcceptState.remaining : AcceptState → Nat
  | .reading _ => 7
  | .joining _ _ => 6
  | .polling => 1
  | .ended => 0

def UserfaultState.remaining : UserfaultState → Nat
  | .ready => 4
  | .locked => 3
  | .serving _ _ => 2
  | .polling => 1
  | .ended => 0

/-- The step is one of the manager. -/
def Actor.isManager : Actor → Bool
  | .manager _ => true
  | .refused => true
  | _ => false

namespace System

variable {s s' : System β} {m n : Nat} {pid : Int}

/-- A bound for the number of steps the threads of the manager can take once the
eventfd is raised. -/
def remaining (s : System β) : Nat :=
  s.accept.remaining + (s.handlers.sum fun _ h => h.state.work) + s.userfault.remaining +
    s.main.work

theorem remaining_congr (haccept : s'.accept = s.accept) (hhandlers : s'.handlers = s.handlers)
    (huser : s'.userfault = s.userfault) (hmain : s'.main = s.main) :
    s'.remaining = s.remaining := by
  rw [remaining, remaining, haccept, hhandlers, huser, hmain]

/-- One of the three threads that are there from the start goes on. -/
theorem remaining_thread (hhandlers : s'.handlers = s.handlers)
    (hlt : s'.accept.remaining + s'.userfault.remaining + s'.main.work <
      s.accept.remaining + s.userfault.remaining + s.main.work) : s'.remaining < s.remaining := by
  rw [remaining, remaining, hhandlers]
  omega

/-- The thread of a client goes on. -/
theorem remaining_handler {x y : HandlerState} (hfind : s.handlers.find? pid = some ⟨m, x⟩)
    (hlt : y.work < x.work) (hhandlers : s'.handlers = s.handlers.insert pid ⟨m, y⟩)
    (haccept : s'.accept = s.accept) (huser : s'.userfault = s.userfault)
    (hmain : s'.main = s.main) : s'.remaining < s.remaining := by
  have hold := OrdMap.sum_of_find? (fun _ h => h.state.work) hfind
  rw [remaining, remaining, hhandlers, OrdMap.sum_insert, hold, haccept, huser, hmain]
  dsimp only
  omega

/-- The thread of a new client is started. -/
theorem remaining_start (hacc : s.accept = .joining n pid) (hpolling : s'.accept = .polling)
    (hhandlers : s'.handlers = s.handlers.insert pid ⟨n, .polling⟩)
    (huser : s'.userfault = s.userfault) (hmain : s'.main = s.main) :
    s'.remaining < s.remaining := by
  have hold := s.handlers.sum_erase_le pid fun _ h => h.state.work
  have hpoll : HandlerState.polling.work = 4 := rfl
  rw [remaining, remaining, hhandlers, OrdMap.sum_insert, hpolling, hacc, huser, hmain]
  simp only [AcceptState.remaining, hpoll]
  omega

/-- Once the eventfd is raised, every step of a thread of the manager lowers what is
left to do, and the steps of the clients keep it. -/
theorem Step.remaining_lt {a : Actor} (hstep : s.Step a s') (hfd : s.eventfd ≠ 0)
    (ha : a ≠ .signal) : s'.remaining + (if a.isManager then 1 else 0) ≤ s.remaining := by
  cases hstep with
  | accept _ hzero | refuse _ hzero | read _ hzero | ready _ hzero => exact absurd hzero hfd
  | acceptEnd hacc | greet hacc | giveUp hacc =>
      refine remaining_thread rfl ?_
      rw [hacc]
      simp [AcceptState.remaining, setProc]
  | start hacc | restart hacc => exact remaining_start hacc rfl rfl rfl rfl
  | quit hfind | lock _ hfind | serve hfind | reply hfind | unheard hfind | lockClean _ hfind
  | clean hfind => exact remaining_handler hfind (by simp [HandlerState.work]) rfl rfl rfl rfl
  | userfaultEnd huser | lockFault _ huser | readFault huser | noFault huser | serveFault huser =>
      refine remaining_thread rfl ?_
      rw [huser]
      simp [UserfaultState.remaining]
  | joinAccept hmain | joinUserfault hmain | finish hmain =>
      refine remaining_thread rfl ?_
      rw [hmain]
      simp [MainState.work]
  | @clear pid n _ hfind =>
      have hold := OrdMap.sum_of_find? (fun _ h => h.state.work) hfind
      have hended : HandlerState.ended.work = 1 := rfl
      simp only [remaining, shut, setProc, hold, hended, Actor.isManager, if_true]
      omega
  | signal => exact absurd rfl ha
  | @exit n | @close n =>
      obtain ⟨names, heq⟩ := unbind_eq (s := s) n
      refine (remaining_congr ?_ ?_ ?_ ?_).le <;> simp [System.exit, heq, setProc]
  | _ => exact (remaining_congr rfl rfl rfl rfl).le

end System

/-! ## Page faults -/

namespace System

variable {s s' : System β} {a : Actor} {nrPagesRam nrPagesSwap : Nat}
  {files : OrdMap Nat PersFile} {pids : Nat → Int}

/-- A thread whose message was read is served now. -/
def Woken (s : System β) : Prop :=
  ∀ w ∈ s.waiters, w.read = true → ∃ flags, s.userfault = .serving w.addr flags

/-- No message is under way while the thread of the page faults is not serving. -/
theorem Woken.unread (h : s.Woken) (huser : ∀ addr flags, s.userfault ≠ .serving addr flags)
    {w : Waiter} (hw : w ∈ s.waiters) : w.read = false := by
  by_contra hread
  obtain ⟨flags, hserving⟩ := h w hw (by simpa using hread)
  exact huser w.addr flags hserving

theorem Woken.same (h : s.Woken) (hwaiters : ∀ w ∈ s'.waiters, w ∈ s.waiters)
    (huser : s'.userfault = s.userfault) : s'.Woken := by
  intro w hw hread
  rw [huser]
  exact h w (hwaiters w hw) hread

/-- The thread of the page faults goes on without a message. -/
theorem Woken.idle (h : s.Woken) (huser : ∀ addr flags, s.userfault ≠ .serving addr flags)
    (hwaiters : s'.waiters = s.waiters) : s'.Woken := by
  intro w hw hread
  rw [hwaiters] at hw
  rw [h.unread huser hw] at hread
  cases hread

theorem Woken.step (h : s.Woken) (ha : s.manager.Agrees) (hstep : s.Step a s') : s'.Woken := by
  cases hstep with
  | fault =>
      intro w hw hread
      rcases List.mem_append.mp hw with hw | hw
      · exact h w hw hread
      · rw [List.mem_singleton.mp hw] at hread
        cases hread
  | @exit n =>
      obtain ⟨names, heq⟩ := unbind_eq (s := s) n
      refine h.same (fun w hw => List.mem_of_mem_filter hw) ?_
      simp [exit, heq, setProc]
  | @close n =>
      obtain ⟨names, heq⟩ := unbind_eq (s := s) n
      exact h.same (by simp [heq, setProc]) (by simp [heq, setProc])
  | ready huser | userfaultEnd huser | lockFault _ huser | noFault huser =>
      exact h.idle (by simp [huser]) rfl
  | @readFault i w huser hw _ =>
      intro v hv hread
      rcases List.mem_or_eq_of_mem_set hv with hv | rfl
      · rw [h.unread (by simp [huser]) hv] at hread
        cases hread
      · exact ⟨w.flags, rfl⟩
  | @serveFault addr flags env wake cm huser hfault =>
      intro w hw hread
      obtain ⟨hw, hcovers⟩ := List.mem_filter.mp hw
      obtain ⟨flags', hserving⟩ := h w hw hread
      rw [huser] at hserving
      cases hserving
      rw [ClientManager.handleUserfault_covers ha hfault] at hcovers
      cases hcovers
  | _ => exact h.same (fun _ hw => hw) rfl

theorem Reachable.woken (h : Reachable nrPagesRam nrPagesSwap files pids s) : s.Woken :=
  And.right (h.invariant (P := fun s => s.Ok nrPagesRam nrPagesSwap files ∧ s.Woken)
    ⟨init_ok, fun _ hw => by cases hw⟩ fun hs hstep =>
      ⟨hs.1.step hstep, hs.2.step hs.1.manager.intact.agrees hstep⟩)

/-! ## The end of the threads -/

/-- How far the main thread is. -/
structure Phased (s : System β) : Prop where
  eventfd : s.eventfd = if s.main = .polling then 0 else 2 ^ 64 - 2
  accept : s.main ≠ .polling → s.main ≠ .joinAccept → s.accept = .ended
  userfault : s.main = .clearing ∨ s.main = .done → s.userfault = .ended
  handlers : s.main = .done → s.handlers.entries = []

theorem Phased.eventfd_ne_zero (h : s.Phased) (hmain : s.main ≠ .polling) : s.eventfd ≠ 0 := by
  rw [h.eventfd, if_neg hmain]
  decide

/-- A step of another thread. -/
theorem Phased.frame (h : s.Phased) (heventfd : s'.eventfd = s.eventfd) (hmain : s'.main = s.main)
    (haccept : s.accept = .ended → s'.accept = .ended)
    (huser : s.userfault = .ended → s'.userfault = .ended)
    (hhandlers : s.main = .done → s.handlers.entries = [] → s'.handlers.entries = []) :
    s'.Phased where
  eventfd := by rw [heventfd, hmain, h.eventfd]
  accept := by
    rw [hmain]
    exact fun hp hj => haccept (h.accept hp hj)
  userfault := by
    rw [hmain]
    exact fun hm => huser (h.userfault hm)
  handlers := by
    rw [hmain]
    exact fun hm => hhandlers hm (h.handlers hm)

theorem entries_ne_nil {h : Handler} {pid : Int} (hfind : s.handlers.find? pid = some h) :
    s.handlers.entries ≠ [] := by
  intro hnil
  have hmem := OrdMap.find?_eq_some.mp hfind
  rw [hnil] at hmem
  cases hmem

/-- No client is added after the thread that accepts connections has ended. -/
theorem Phased.not_done {n : Nat} {pid : Int} (h : s.Phased) (hacc : s.accept = .joining n pid) :
    s.main ≠ .done := by
  intro hmain
  have hended := h.accept (by simp [hmain]) (by simp [hmain])
  rw [hacc] at hended
  cases hended

theorem Phased.step (h : s.Phased) (hstep : s.Step a s') : s'.Phased := by
  cases hstep with
  | accept hacc | acceptEnd hacc | greet hacc | giveUp hacc =>
      exact h.frame rfl rfl (by simp [hacc]) (fun hu => hu) fun _ hnil => hnil
  | start hacc | restart hacc =>
      exact h.frame rfl rfl (by simp [hacc]) (fun hu => hu) fun hm => absurd hm (h.not_done hacc)
  | read hfind | quit hfind | lock _ hfind | serve hfind | reply hfind | unheard hfind
  | lockClean _ hfind | clean hfind =>
      exact h.frame rfl rfl (fun ha => ha) (fun hu => hu) fun _ hnil =>
        absurd hnil (entries_ne_nil hfind)
  | ready huser | userfaultEnd huser | lockFault _ huser | readFault huser | noFault huser
  | serveFault huser =>
      exact h.frame rfl rfl (fun ha => ha) (by simp [huser]) fun _ hnil => hnil
  | signal hmain =>
      refine ⟨?_, fun _ hj => absurd rfl hj, fun hm => by simp at hm, fun hm => by cases hm⟩
      have heventfd : s.eventfd = 0 := by rw [h.eventfd, if_pos hmain]
      rw [heventfd]
      rfl
  | joinAccept hmain hacc =>
      have heventfd := h.eventfd
      rw [hmain] at heventfd
      exact ⟨heventfd, fun _ _ => hacc, fun hm => by simp at hm, fun hm => by cases hm⟩
  | joinUserfault hmain huser =>
      have heventfd := h.eventfd
      rw [hmain] at heventfd
      exact ⟨heventfd, fun _ _ => h.accept (by simp [hmain]) (by simp [hmain]), fun _ => huser,
        fun hm => by cases hm⟩
  | clear hmain =>
      exact h.frame rfl rfl (fun ha => ha) (fun hu => hu) fun hm => by simp [hmain] at hm
  | finish hmain hnil =>
      have heventfd := h.eventfd
      rw [hmain] at heventfd
      exact ⟨heventfd, fun _ _ => h.accept (by simp [hmain]) (by simp [hmain]),
        fun _ => h.userfault (Or.inl hmain), fun _ => hnil⟩
  | @exit n | @close n =>
      obtain ⟨names, heq⟩ := unbind_eq (s := s) n
      refine h.frame ?_ ?_ ?_ ?_ ?_ <;> simp [exit, heq, setProc]
  | _ => exact h.frame rfl rfl (fun ha => ha) (fun hu => hu) fun _ hnil => hnil

theorem Reachable.phased (h : Reachable nrPagesRam nrPagesSwap files pids s) : s.Phased :=
  h.invariant ⟨rfl, fun hp => absurd rfl hp, fun hm => by simp [init] at hm, fun hm => by cases hm⟩
    fun hs hstep => hs.step hstep

/-- The runs in which no `poll` fails. -/
def Steady (nrPagesRam nrPagesSwap : Nat) (files : OrdMap Nat PersFile) (pids : Nat → Int) :
    System β → Prop :=
  Runs Move.exec (fun _ move => move.actor ≠ .manager true)
    (.init nrPagesRam nrPagesSwap files pids)

theorem Steady.reachable (h : Steady nrPagesRam nrPagesSwap files pids s) :
    Reachable nrPagesRam nrPagesSwap files pids s := h.mono fun _ _ _ => trivial

/-- As long as the main thread waits for a signal, the other ones do their work. -/
def Attended (s : System β) : Prop :=
  s.main = .polling → s.accept ≠ .ended ∧ s.userfault ≠ .ended ∧ ∀ n, (s.conn n).Served

theorem Step.polling (hstep : s.Step a s') (hmain : s'.main = .polling) : s.main = .polling := by
  cases hstep with
  | signal | joinAccept | joinUserfault | finish => cases hmain
  | @exit n | @close n =>
      obtain ⟨names, heq⟩ := unbind_eq (s := s) n
      simpa [System.exit, heq, setProc] using hmain
  | _ => exact hmain

theorem Attended.step (h : s.Attended) (hok : s.Ok nrPagesRam nrPagesSwap files)
    (hphased : s.Phased) (hstep : s.Step a s') (ha : a ≠ .manager true) : s'.Attended := by
  intro hmain'
  have hmain := hstep.polling hmain'
  have hfd : s.eventfd = 0 := by rw [hphased.eventfd, if_pos hmain]
  have hwell : ¬ (a = .manager true ∨ 0 < s.eventfd) := by
    rw [hfd]
    simpa using ha
  obtain ⟨haccept, huser, hserved⟩ := h hmain
  have hfollows := hstep.follows hok.registry hok.staffed
  refine ⟨?_, ?_, fun n => (hfollows n).served hwell (hok.conns n) (hserved n)⟩
  · cases hstep with
    | acceptEnd _ hwhy => exact fun _ => hwell (hwhy.imp_left fun hf => by rw [hf])
    | accept | greet | giveUp | start | restart => simp
    | @exit n | @close n =>
        obtain ⟨names, heq⟩ := unbind_eq (s := s) n
        simpa [exit, heq, setProc] using haccept
    | _ => exact haccept
  · cases hstep with
    | userfaultEnd _ hwhy => exact fun _ => hwell (hwhy.imp_left fun hf => by rw [hf])
    | ready | lockFault | readFault | noFault | serveFault => simp
    | @exit n | @close n =>
        obtain ⟨names, heq⟩ := unbind_eq (s := s) n
        simpa [exit, heq, setProc] using huser
    | _ => exact huser

theorem Steady.attended (h : Steady nrPagesRam nrPagesSwap files pids s) : s.Attended := by
  refine And.right (h.invariant
    (P := fun s => Reachable nrPagesRam nrPagesSwap files pids s ∧ s.Attended)
    ⟨Runs.refl, fun _ => ⟨by simp [init], by simp [init], fun n hn => ?_⟩⟩
    fun s move s' hs hguard hexec => ?_)
  · rw [conn_init] at hn
    cases hn.1
  · exact ⟨hs.1.tail trivial hexec,
      hs.2.step hs.1.ok hs.1.phased (Move.exec_step hexec) hguard⟩

/-! ## States at rest -/

/-- No thread of the manager can go on, and none breaks down. -/
def AtRest (s : System β) : Prop :=
  ∀ move : Move β, move.actor = .manager false → move.exec s = .error .blocked

theorem orHalt_bind_ne {α γ : Type} {x : Except Fault α} {f : α → γ} :
    (orHalt x >>= fun y => (.ok (f y) : Except Halt γ)) ≠ .error .blocked := by
  cases x with
  | error e => exact fun h => by cases h
  | ok y => exact fun h => by cases h

/-- A thread waits in `poll` only if there is nothing to do. -/
theorem poll_eq_none {main : Revents} (h : s.poll false main = none) :
    main.any = false ∧ s.eventfd = 0 := by
  unfold poll at h
  simp only [Bool.false_eq_true, if_false] at h
  split at h
  next =>
    simp only [pollOrShutdown] at h
    split at h
    · split at h <;> cases h
    · split at h <;> cases h
  next hnone => simpa using hnone

namespace AtRest

variable {n : Nat} {pid : Int}

/-- The thread of the page faults is not between lock and unlock. -/
theorem userfault_ne_locked (h : s.AtRest) : s.userfault ≠ .locked := by
  intro huser
  by_cases hfaulted : s.faulted = true
  · obtain ⟨w, hw, hread⟩ := List.any_eq_true.mp hfaulted
    obtain ⟨i, hi, rfl⟩ := List.getElem_of_mem hw
    have hmove := h (.userfaultRead i) rfl
    rw [Move.exec, userfaultRead, huser, List.getElem?_eq_getElem hi] at hmove
    simp_all
  · have hmove := h (.userfaultRead s.waiters.length) rfl
    rw [Move.exec, userfaultRead, huser, List.getElem?_eq_none le_rfl] at hmove
    simp_all

theorem unlocked (h : s.AtRest) (hok : s.Ok nrPagesRam nrPagesSwap files) : s.mutex = none := by
  cases hm : s.mutex with
  | none => rfl
  | some holder =>
      exfalso
      cases holder with
      | handler pid =>
          obtain ⟨⟨n, x⟩, hfind, hlocks⟩ := (hok.locked.handlers pid).mp hm
          cases x with
          | locked params =>
              have hserve := h (.handlerServe pid {}) rfl
              obtain ⟨mappings, hc⟩ := (hok.staffed pid).mpr ⟨_, hfind, rfl⟩
              rw [Move.exec, handlerServe, hfind, hc] at hserve
              exact orHalt_bind_ne hserve
          | cleaning =>
              have hclean := h (.handlerClean pid fun _ => {}) rfl
              rw [Move.exec, handlerClean, hfind] at hclean
              exact orHalt_bind_ne hclean
          | polling | received | answered | leaving | ended => cases hlocks
      | userfault =>
          have hlocks := hok.locked.userfault.mp hm
          cases huser : s.userfault with
          | locked => exact h.userfault_ne_locked huser
          | serving addr flags =>
              have hserve := h (.userfaultServe {}) rfl
              rw [Move.exec, userfaultServe, huser] at hserve
              exact orHalt_bind_ne hserve
          | polling | ready | ended =>
              rw [huser] at hlocks
              cases hlocks

/-- The thread of a client waits for a message, or it has ended. -/
theorem handler (h : s.AtRest) (hok : s.Ok nrPagesRam nrPagesSwap files) {x : HandlerState}
    (hfind : s.handlers.find? pid = some ⟨n, x⟩) :
    x = .ended ∨ x = .polling ∧ s.eventfd = 0 ∧ (s.procs n).up = [] ∧
      (s.procs n).hungUp = false := by
  have hfree := h.unlocked hok
  cases x with
  | polling =>
      right
      have hpoll := h (.handlerPoll pid false) rfl
      rw [Move.exec, handlerPoll, hfind] at hpoll
      dsimp only at hpoll
      split at hpoll
      next => cases hpoll
      next => cases hpoll
      next hnone =>
        obtain ⟨hany, hfd⟩ := poll_eq_none hnone
        refine ⟨rfl, hfd, ?_, ?_⟩
        · simp_all [Revents.any]
        · simp_all [Revents.any]
  | received params =>
      have hlock := h (.handlerLock pid) rfl
      rw [Move.exec, handlerLock, hfree, hfind] at hlock
      cases hlock
  | leaving =>
      have hlock := h (.handlerLock pid) rfl
      rw [Move.exec, handlerLock, hfree, hfind] at hlock
      cases hlock
  | answered a =>
      have hreply := h (.handlerReply pid) rfl
      rw [Move.exec, handlerReply, hfind] at hreply
      dsimp only at hreply
      split at hreply <;> cases hreply
  | locked | cleaning =>
      have hm := (hok.locked.handlers pid).mpr ⟨_, hfind, rfl⟩
      rw [hfree] at hm
      cases hm
  | ended => exact Or.inl rfl

theorem userfault (h : s.AtRest) (hok : s.Ok nrPagesRam nrPagesSwap files) :
    s.userfault = .ended ∨ s.userfault = .polling ∧ s.eventfd = 0 ∧ s.faulted = false := by
  have hfree := h.unlocked hok
  cases huser : s.userfault with
  | polling =>
      right
      have hpoll := h (.userfaultPoll false) rfl
      rw [Move.exec, userfaultPoll, huser] at hpoll
      split at hpoll
      next => cases hpoll
      next => cases hpoll
      next _ _ hnone =>
        cases hp : s.poll false ⟨s.faulted, false⟩ with
        | none =>
            obtain ⟨hany, hfd⟩ := poll_eq_none hp
            exact ⟨rfl, hfd, by simpa [Revents.any] using hany⟩
        | some status => exact absurd hp (hnone status rfl)
  | ready =>
      have hlock := h .userfaultLock rfl
      rw [Move.exec, userfaultLock, hfree, huser] at hlock
      cases hlock
  | locked => exact absurd huser h.userfault_ne_locked
  | serving addr flags =>
      have hm := hok.locked.userfault.mpr (by rw [huser]; rfl)
      rw [hfree] at hm
      cases hm
  | ended => exact Or.inl rfl

/-- The thread that accepts connections has ended, waits for one, or waits for a
process to send its id. -/
theorem accept (h : s.AtRest) (hok : s.Ok nrPagesRam nrPagesSwap files) :
    s.accept = .ended ∨ s.accept = .polling ∧ s.eventfd = 0 ∧ s.backlog = [] ∨
      ∃ m t, s.accept = .reading m ∧ (s.procs m).up = [] ∧
        (s.procs m).threads t = .introducing := by
  cases hacc : s.accept with
  | polling =>
      right; left
      have hpoll := h (.acceptPoll false) rfl
      rw [Move.exec, acceptPoll, hacc] at hpoll
      split at hpoll
      next => cases hpoll
      next hready hnil =>
        obtain ⟨-, -, hin, -⟩ := poll_eq_ready hready
        simp [hnil] at hin
      next => cases hpoll
      next hsome _ _ =>
        cases hp : s.poll false ⟨!s.backlog.isEmpty, false⟩ with
        | none =>
            obtain ⟨hany, hfd⟩ := poll_eq_none hp
            exact ⟨rfl, hfd, by simpa [Revents.any] using hany⟩
        | some status => exact (hsome status rfl hp).elim
  | reading m =>
      right; right
      have hread := h .acceptRead rfl
      rw [Move.exec, acceptRead, hacc] at hread
      dsimp only at hread
      split at hread
      next => cases hread
      next hup =>
        split at hread
        next => cases hread
        next hhung =>
          have hplace : s.place m = .unread := place_eq_unread.mpr ⟨by rw [hacc]; rfl, by
            rw [queue, hacc]
            exact List.mem_cons_self⟩
          rcases (hok.conns m).silent hplace hup with hexited | ⟨t, ht⟩
          · have hexited : (s.procs m).exited = true := hexited
            simp [Process.hungUp, hexited] at hhung
          · exact ⟨m, t, rfl, hup, ht⟩
  | joining n pid =>
      -- the thread of the old client would have ended
      exfalso
      have hjoin := h .acceptJoin rfl
      rw [Move.exec, acceptJoin, hacc] at hjoin
      dsimp only at hjoin
      split at hjoin
      next => exact orHalt_bind_ne hjoin
      next => exact orHalt_bind_ne hjoin
      next c hended hc =>
        obtain rfl := hok.registry.joining n pid hacc
        obtain ⟨m, x⟩ := c
        have hqueue : n ∈ s.queue := mem_queue_of_joins (by rw [hacc]; simp [AcceptState.joins])
        have hhung := hok.registry.hungUp hqueue hc
        rcases h.handler hok hc with rfl | ⟨-, -, -, hhung'⟩
        · exact hended m rfl
        · rw [hhung'] at hhung
          cases hhung
  | ended => exact Or.inl rfl

end AtRest

/-- The threads of the manager wait in `poll`, and there is nothing to do. -/
structure Idle (s : System β) : Prop where
  accept : s.accept = .polling
  backlog : s.backlog = []
  userfault : s.userfault = .polling
  waiters : s.waiters = []
  main : s.main = .polling
  eventfd : s.eventfd = 0
  handlers : ∀ pid h, s.handlers.find? pid = some h →
    h.state = .polling ∧ (s.procs h.proc).up = [] ∧ (s.procs h.proc).hungUp = false

theorem Idle.poll (h : s.Idle) : s.poll false {} = none := by
  simp [System.poll, Revents.any, h.eventfd]

theorem Idle.atRest (h : s.Idle) : s.AtRest := by
  intro move hactor
  have hpoll := h.poll
  cases move with
  | enter | acquire | introduce | send | receive | leave | exit | fault | store | mainSignal
  | acceptRefused => cases hactor
  | acceptPoll fail =>
      cases hactor
      simp [Move.exec, acceptPoll, h.accept, h.backlog, hpoll]
  | acceptRead => simp [Move.exec, acceptRead, h.accept]
  | acceptJoin => simp [Move.exec, acceptJoin, h.accept]
  | handlerPoll pid fail =>
      cases hactor
      rw [Move.exec, handlerPoll]
      split
      next n hfind =>
        obtain ⟨-, hup, hhung⟩ := h.handlers pid _ hfind
        dsimp only at hup hhung ⊢
        simp [hup, hhung, hpoll]
      next => rfl
  | handlerLock pid =>
      rw [Move.exec, handlerLock]
      split
      next hfind => cases (h.handlers pid _ hfind).1
      next hfind => cases (h.handlers pid _ hfind).1
      next => rfl
  | handlerServe pid env =>
      rw [Move.exec, handlerServe]
      split
      next hfind _ => cases (h.handlers pid _ hfind).1
      next => rfl
  | handlerReply pid =>
      rw [Move.exec, handlerReply]
      split
      next hfind => cases (h.handlers pid _ hfind).1
      next => rfl
  | handlerClean pid env =>
      rw [Move.exec, handlerClean]
      split
      next hfind => cases (h.handlers pid _ hfind).1
      next => rfl
  | userfaultPoll fail =>
      cases hactor
      simp [Move.exec, userfaultPoll, h.userfault, faulted, h.waiters, hpoll]
  | userfaultLock => simp [Move.exec, userfaultLock, h.userfault]
  | userfaultRead i => simp [Move.exec, userfaultRead, h.userfault]
  | userfaultServe env => simp [Move.exec, userfaultServe, h.userfault]
  | mainJoin => simp [Move.exec, mainJoin, h.main]
  | mainClear pid => simp [Move.exec, mainClear, h.main]

/-- The manager has ended. -/
theorem atRest_of_done (haccept : s.accept = .ended) (huser : s.userfault = .ended)
    (hmain : s.main = .done) (hhandlers : s.handlers.entries = []) : s.AtRest := by
  have hnone : ∀ pid h, s.handlers.find? pid ≠ some h := fun pid h hfind =>
    entries_ne_nil hfind hhandlers
  intro move hactor
  cases move with
  | enter | acquire | introduce | send | receive | leave | exit | fault | store | mainSignal
  | acceptRefused => cases hactor
  | acceptPoll => simp [Move.exec, acceptPoll, haccept]
  | acceptRead => simp [Move.exec, acceptRead, haccept]
  | acceptJoin => simp [Move.exec, acceptJoin, haccept]
  | handlerPoll => simp [Move.exec, handlerPoll, Option.eq_none_iff_forall_ne_some.mpr (hnone _)]
  | handlerLock => simp [Move.exec, handlerLock, Option.eq_none_iff_forall_ne_some.mpr (hnone _)]
  | handlerServe => simp [Move.exec, handlerServe, Option.eq_none_iff_forall_ne_some.mpr (hnone _)]
  | handlerReply => simp [Move.exec, handlerReply, Option.eq_none_iff_forall_ne_some.mpr (hnone _)]
  | handlerClean => simp [Move.exec, handlerClean, Option.eq_none_iff_forall_ne_some.mpr (hnone _)]
  | userfaultPoll => simp [Move.exec, userfaultPoll, huser]
  | userfaultLock => simp [Move.exec, userfaultLock, huser]
  | userfaultRead => simp [Move.exec, userfaultRead, huser]
  | userfaultServe => simp [Move.exec, userfaultServe, huser]
  | mainJoin => simp [Move.exec, mainJoin, hmain]
  | mainClear => simp [Move.exec, mainClear, hmain]

end System

/-! ## The results -/

section Results

variable {s : System β} {nrPagesRam nrPagesSwap : Nat} {files : OrdMap Nat PersFile}
  {pids : Nat → Int}

/-- The threads of the manager come to rest: if the clients do nothing, they take at
most `work` steps, in any order and whether or not `poll` fails.  Calls of `accept` that
fail do not count. -/
theorem manager_comes_to_rest {γ : Type} {out : System β → Move β → List γ} {t : System β}
    {moves : List (Move β)} {outs : List γ}
    (h : Trace Move.exec (fun _ move => move.actor.isManager) out s moves outs t) :
    moves.countP (fun move => move.actor ≠ .refused) + t.work ≤ s.work := by
  induction h with
  | nil => simp
  | @cons s s₁ t move moves outs hactor hexec _ ih =>
      have hstep := Move.exec_step hexec
      cases hmove : move.actor with
      | client | signal => simp [hmove, Actor.isManager] at hactor
      | manager fail =>
          rw [hmove] at hstep
          have hlt := hstep.work_lt
          rw [List.countP_cons_of_pos (by simp [hmove])]
          omega
      | refused =>
          rw [hmove] at hstep
          cases hstep
          rw [List.countP_cons_of_neg (by simp [hmove])]
          exact ih

/-- A connection waits.  It is refused twice, then `poll` fails in both threads. -/
def refusedTwice : List (Move Status) :=
  [.acceptRefused, .acceptRefused, .acceptPoll true, .userfaultPoll true]

theorem manager_comes_to_rest_refusing : ∃ (s t : System Status) (outs : List Unit),
    System.Reachable 2 1 .empty (fun n => 7 + n) s ∧
      Trace Move.exec (fun _ move => move.actor.isManager) (fun _ _ => []) s refusedTwice outs t ∧
      2 + t.work ≤ s.work := by
  have hrun : reaches Move.exec (fun _ _ => true)
      (reaches Move.exec (fun _ move => move.actor.isManager) (fun _ => true) refusedTwice)
      [.enter 0 1 .init, .acquire 0 1] (.init 2 1 .empty fun n => 7 + n) = true := by
    decide +kernel
  obtain ⟨s, hs, hrefused⟩ : ∃ s, System.Reachable 2 1 .empty (fun n => 7 + n) s ∧ _ :=
    Runs.of_reaches hrun fun _ _ _ _ => trivial
  obtain ⟨outs, t, htrace, -⟩ : ∃ outs t,
      Trace Move.exec (fun _ move => move.actor.isManager)
        (fun _ _ => ([] : List Unit)) s _ outs t ∧ _ :=
    Trace.of_reaches hrefused fun _ _ _ hmove => hmove
  exact ⟨s, t, outs, hs, htrace, manager_comes_to_rest htrace⟩

theorem exchanged_delivered {q : CallParams} {down : List (Except Errno CallResult)}
    (h : Exchanged (some q) [] (some .polling) down) : ∃ answer, down = [answer] := by
  cases h with
  | delivered => exact ⟨_, rfl⟩

/-- At rest, everything is served.  No thread is stopped by a page fault, and every
thread that waits for an answer has it in its socket.  The exception are connections
behind one whose process has not sent its id. -/
theorem all_served_at_rest (h : System.Steady nrPagesRam nrPagesSwap files pids s)
    (hmain : s.main = .polling) (hrest : s.AtRest) :
    s.waiters = [] ∧
      ∀ n t start call query next,
        (s.procs n).threads t = .awaiting start call query next →
          (∃ answer, (s.procs n).down = [answer]) ∨
            n ∈ s.backlog ∧ ∃ m t', s.accept = .reading m ∧
              (s.procs m).threads t' = .introducing := by
  have hok := h.reachable.ok
  obtain ⟨haccept, huser, hserved⟩ := h.attended hmain
  constructor
  · rcases hrest.userfault hok with hended | ⟨hpolling, -, hfaulted⟩
    · exact absurd hended huser
    · refine List.eq_nil_iff_forall_not_mem.mpr fun w hw => ?_
      have hread := h.reachable.woken.unread (by simp [hpolling]) hw
      exact List.any_eq_false.mp hfaulted w hw (by simp [hread])
  · intro n t start call query next ht
    have honline := (hok.conns n).online_of_awaiting ht
    by_cases hn : n ∈ s.queue
    · right
      have hholds : ((s.procs n).threads t).holds = true := by rw [ht]; rfl
      rcases hrest.accept hok with hended | ⟨hpolling, -, hnil⟩ | ⟨m, t', hreading, hup, ht'⟩
      · exact absurd hended haccept
      · rw [System.queue, hpolling, hnil] at hn
        cases hn
      · have hplace : s.place n = .unread :=
          System.place_eq_unread.mpr ⟨by rw [hreading]; rfl, hn⟩
        have hother : (s.procs n).threads t ≠ .introducing := by simp [ht]
        have hsent := (hok.conns n).not_silent hholds hother hplace
        rw [System.queue, hreading] at hn
        rcases List.mem_cons.mp hn with rfl | hn
        · exact absurd hup hsent
        · exact ⟨hn, m, t', hreading, ht'⟩
    · left
      obtain ⟨x, hx, hserves⟩ := hserved n ⟨honline, System.place_eq_away.mpr hn⟩
      have hfind := System.seat_eq_some.mp hx
      rcases hrest.handler hok hfind with rfl | ⟨rfl, -, hup, -⟩
      · cases hserves
      · have hex := (hok.conns n).exchange honline
        rw [(hok.conns n).asked_awaiting ht, hx, show (s.conn n).proc.up = [] from hup] at hex
        exact exchanged_delivered hex

/-- A client asks for a size, and the manager answers. -/
def oneCall : List (Move Status) :=
  session 0 ++
    [.enter 0 3 (.call (getSize 5)), .acquire 0 3, .send 0 3, .handlerPoll 7 false,
     .handlerLock 7, .handlerServe 7 {}, .handlerReply 7]

/-- The request a thread waits for the answer of. -/
def LibThread.query : LibThread β → Option CallParams
  | .awaiting _ _ query _ => some query
  | _ => none

theorem LibThread.query_eq_some {x : LibThread β} {query : CallParams} (h : x.query = some query) :
    ∃ start call next, x = .awaiting start call query next := by
  cases x with
  | awaiting start call query' next =>
      cases h
      exact ⟨start, call, next, rfl⟩
  | _ => cases h

theorem all_served_at_rest_oneCall : ∃ s : System Status, s.AtRest ∧
    (s.procs 0).threads 3 ≠ .outside ∧ ∃ answer, (s.procs 0).down = [answer] := by
  have hrun : reaches Move.exec (fun _ move => move.actor ≠ .manager true)
      (fun s => (((s.procs 0).threads 3).query = some (.getSize 5) ∧ s.handlers.entries =
          [(7, ⟨0, .polling⟩)]) ∧ ((s.procs 0).up = [] ∧ (s.procs 0).hungUp = false) ∧
        s.accept = .polling ∧ s.backlog = [] ∧ s.userfault = .polling ∧ s.waiters = [] ∧
        s.main = .polling ∧ s.eventfd = 0)
      oneCall (.init 2 1 .empty fun n => 7 + n) = true := by
    decide +kernel
  obtain ⟨s, hs, htest⟩ : ∃ s, System.Steady 2 1 .empty (fun n => 7 + n) s ∧ _ :=
    Runs.of_reaches hrun fun _ _ _ hmove => of_decide_eq_true hmove
  obtain ⟨⟨hquery, hentries⟩, ⟨hup, hhung⟩, haccept, hbacklog, huser, hwaiters, hmain, hfd⟩ :=
    of_decide_eq_true htest
  have hrest : s.AtRest := System.Idle.atRest
    { accept := haccept
      backlog := hbacklog
      userfault := huser
      waiters := hwaiters
      main := hmain
      eventfd := hfd
      handlers := fun pid h hfind => by
        have hmem := OrdMap.find?_eq_some.mp hfind
        rw [hentries, List.mem_singleton] at hmem
        cases hmem
        exact ⟨rfl, hup, hhung⟩ }
  obtain ⟨start, call, next, ht⟩ := LibThread.query_eq_some hquery
  refine ⟨s, hrest, by simp [ht], ?_⟩
  refine ((all_served_at_rest hs hmain hrest).2 0 3 start call _ next ht).resolve_right ?_
  rw [hbacklog]
  exact fun h => by cases h.1

/-- After a signal, a manager at rest has ended, and no client is left. -/
theorem System.AtRest.ended (hrest : s.AtRest)
    (h : System.Reachable nrPagesRam nrPagesSwap files pids s) (hmain : s.main ≠ .polling) :
    (s.main = .done ∧ s.accept = .ended ∧ s.userfault = .ended ∧ s.handlers.entries = [] ∧
        ∀ pid c, s.manager.clients.find? pid = some c → c.running = false) ∨
      s.main = .joinAccept ∧ ∃ m t, s.accept = .reading m ∧
        (s.procs m).threads t = .introducing := by
  have hok := h.ok
  have hphased := h.phased
  have hfd := hphased.eventfd_ne_zero hmain
  have huser : s.userfault = .ended :=
    (hrest.userfault hok).resolve_right fun hpoll => hfd hpoll.2.1
  have hhandlers : ∀ pid c, s.handlers.find? pid = some c → c.state = .ended := fun pid c hc =>
    (hrest.handler hok (n := c.proc) hc).resolve_right fun hpoll => hfd hpoll.2.1
  have hjoin := hrest .mainJoin rfl
  rw [Move.exec, System.mainJoin] at hjoin
  rcases hrest.accept hok with hacc | ⟨-, hzero, -⟩ | ⟨m, t, hreading, -, ht⟩
  · left
    have hdone : s.main = .done := by
      cases hm : s.main with
      | polling => exact absurd hm hmain
      | joinAccept => simp [hm, hacc] at hjoin
      | joinUserfault => simp [hm, huser] at hjoin
      | clearing =>
          cases hentries : s.handlers.entries with
          | nil => simp [hm, hentries] at hjoin
          | cons e entries =>
              obtain ⟨pid, n, x⟩ := e
              have hfind : s.handlers.find? pid = some ⟨n, x⟩ :=
                OrdMap.find?_eq_some.mpr (by rw [hentries]; exact List.mem_cons_self)
              obtain rfl : x = .ended := hhandlers pid _ hfind
              have hclear := hrest (.mainClear pid) rfl
              rw [Move.exec, System.mainClear, hm, hfind] at hclear
              cases hclear
      | done => rfl
    refine ⟨hdone, hacc, huser, hphased.handlers hdone, fun pid c hc => ?_⟩
    obtain ⟨mappings, running⟩ := c
    cases running with
    | false => rfl
    | true =>
        obtain ⟨h', hfind, -⟩ := (hok.staffed pid).mp ⟨mappings, hc⟩
        exact absurd (hphased.handlers hdone) (System.entries_ne_nil hfind)
  · exact absurd hzero hfd
  · right
    refine ⟨?_, m, t, hreading, ht⟩
    by_contra hm
    have hended := hphased.accept hmain hm
    rw [hreading] at hended
    cases hended

/-- After a signal the manager ends.  Whatever the clients do, its threads take at most
`remaining` steps, and when they cannot go on the manager has ended and no client is left.
The exception is a connection whose process has not sent its id: the thread that accepts
connections waits for it and cannot be joined. -/
theorem shutdown_ends {γ : Type} {out : System β → Move β → List γ} {t : System β}
    {moves : List (Move β)} {outs : List γ}
    (h : System.Reachable nrPagesRam nrPagesSwap files pids s) (hmain : s.main ≠ .polling)
    (htrace : Trace Move.exec (fun _ _ => True) out s moves outs t) :
    moves.countP (fun move => move.actor.isManager) + t.remaining ≤ s.remaining ∧
      (t.AtRest →
        (t.main = .done ∧ t.accept = .ended ∧ t.userfault = .ended ∧ t.handlers.entries = [] ∧
            ∀ pid c, t.manager.clients.find? pid = some c → c.running = false) ∨
          t.main = .joinAccept ∧ ∃ m k, t.accept = .reading m ∧
            (t.procs m).threads k = .introducing) := by
  induction htrace with
  | nil => exact ⟨by simp, fun hrest => hrest.ended h hmain⟩
  | @cons s s₁ t move moves outs _ hexec _ ih =>
      have hstep := Move.exec_step hexec
      have hfd : s.eventfd ≠ 0 := h.phased.eventfd_ne_zero hmain
      have hsignal : move.actor ≠ .signal := fun hsignal => by
        rw [hsignal] at hstep
        cases hstep with
        | signal hpolling => exact hmain hpolling
      have hlt := hstep.remaining_lt hfd hsignal
      obtain ⟨hcount, hend⟩ := ih (h.tail trivial hexec) fun hpolling =>
        hmain (hstep.polling hpolling)
      refine ⟨?_, hend⟩
      rw [List.countP_cons]
      omega

/-- The manager gets a signal while a client is connected. -/
def signalled : List (Move Status) := session 0 ++ [.mainSignal]

/-- It ends, and the client's other thread begins a call meanwhile. -/
def stopped : List (Move Status) :=
  [.handlerPoll 7 false, .userfaultPoll false, .enter 0 3 (.call (getSize 5)), .acceptPoll false,
   .mainJoin, .mainJoin, .handlerLock 7, .handlerClean 7 fun _ => {}, .mainClear 7, .mainJoin]

theorem shutdown_ends_stopped : ∃ (s t : System Status) (outs : List Unit),
    Trace Move.exec (fun _ _ => True) (fun _ _ => []) s stopped outs t ∧ 9 ≤ s.remaining ∧
      t.AtRest ∧ t.main = .done ∧ (t.manager.clients.find? 7).isSome = true ∧
      ∀ pid c, t.manager.clients.find? pid = some c → c.running = false := by
  have hrun : reaches Move.exec (fun _ _ => true)
      (fun s => s.main ≠ .polling ∧ reaches Move.exec (fun _ _ => true)
        (fun t => (t.accept = .ended ∧ t.userfault = .ended ∧ t.main = .done ∧
          t.handlers.entries = []) ∧ (t.manager.clients.find? 7).isSome = true) stopped s = true)
      signalled (.init 2 1 .empty fun n => 7 + n) = true := by
    decide +kernel
  obtain ⟨s, hs, htest⟩ : ∃ s, System.Reachable 2 1 .empty (fun n => 7 + n) s ∧ _ :=
    Runs.of_reaches hrun fun _ _ _ _ => trivial
  obtain ⟨hmain, hstopped⟩ := of_decide_eq_true htest
  obtain ⟨outs, t, htrace, htest⟩ : ∃ outs t,
      Trace Move.exec (fun _ _ => True) (fun _ _ => ([] : List Unit)) s stopped outs t ∧ _ :=
    Trace.of_reaches hstopped fun _ _ _ _ => trivial
  obtain ⟨⟨haccept, huser, hdone, hhandlers⟩, hclient⟩ := of_decide_eq_true htest
  have hrest := System.atRest_of_done haccept huser hdone hhandlers
  obtain ⟨hcount, hend⟩ := shutdown_ends hs hmain htrace
  have hnine : stopped.countP (fun move => move.actor.isManager) = 9 := rfl
  refine ⟨s, t, outs, htrace, by omega, hrest, hdone, hclient, ?_⟩
  rcases hend hrest with ⟨-, -, -, -, hclients⟩ | ⟨hjoin, -⟩
  · exact hclients
  · rw [hdone] at hjoin
    cases hjoin

/-- The counter behind the eventfd is raised by the main thread only.  The threads that
end call `shutdown_manager`, but that has no effect. -/
theorem eventfd_untouched (h : System.Reachable nrPagesRam nrPagesSwap files pids s) :
    s.eventfd = if s.main = .polling then 0 else 2 ^ 64 - 2 := h.phased.eventfd

/-- The thread that accepts connections has ended because its `poll` failed. -/
theorem eventfd_untouched_failing : ∃ s : System Status, s.accept = .ended ∧ s.eventfd = 0 := by
  have hrun : reaches Move.exec (fun _ _ => true)
      (fun s => s.accept = .ended ∧ s.main = .polling)
      [.acceptPoll true] (System.init 2 1 .empty fun n => 7 + n : System Status) = true := by
    decide +kernel
  obtain ⟨s, hs, htest⟩ : ∃ s, System.Reachable 2 1 .empty (fun n => 7 + n) s ∧ _ :=
    Runs.of_reaches hrun fun _ _ _ _ => trivial
  obtain ⟨haccept, hmain⟩ := of_decide_eq_true htest
  exact ⟨s, haccept, by rw [eventfd_untouched hs, if_pos hmain]⟩

/-- No wake-up is lost.  A stopped thread whose message was read is being served, and
when that is done it goes on. -/
theorem no_wakeup_lost {w : Waiter} (h : System.Reachable nrPagesRam nrPagesSwap files pids s)
    (hw : w ∈ s.waiters) (hread : w.read = true) :
    (∃ flags, s.userfault = .serving w.addr flags) ∧
      ∀ env s', (Move.userfaultServe env).exec s = .ok s' → w ∉ s'.waiters := by
  obtain ⟨flags, huser⟩ := h.woken w hw hread
  refine ⟨⟨flags, huser⟩, fun env s' hexec hmem => ?_⟩
  have hs' : System.Reachable nrPagesRam nrPagesSwap files pids s' := Runs.tail h trivial hexec
  have hwoken := hs'.woken w hmem hread
  rw [Move.exec, System.userfaultServe, huser] at hexec
  obtain ⟨⟨wake, cm⟩, -, hexec⟩ := ok_of_bind hexec
  cases hexec
  obtain ⟨flags', hserving⟩ := hwoken
  cases hserving

/-- A client allocates a region and is stopped by a fault in it. -/
def faultInRegion : List (Move HandleStatus) :=
  session 0 ++
    [.enter 0 3 (.call (damemoryAlloc 1 pageSize false
       { mmap := .ok 0x10000000, xpmemGet := some 1 })),
     .acquire 0 3, .send 0 3, .handlerPoll 7 false, .handlerLock 7,
     .handlerServe 7 { create := { reserve := some 0x40000000 } }, .handlerReply 7, .receive 0 3,
     .leave 0 3, .fault 0 0x40001000 {}, .userfaultPoll false, .userfaultLock, .userfaultRead 0]

theorem no_wakeup_lost_read : ∃ (s : System HandleStatus) (flags : PagefaultFlags),
    (s.manager.faultTarget 0x40001000).isSome = true ∧
      s.waiters = [⟨0, 0x40001000, {}, true⟩] ∧ s.userfault = .serving 0x40001000 flags := by
  have hrun : reaches Move.exec (fun _ _ => true)
      (fun s => (s.manager.faultTarget 0x40001000).isSome = true ∧
        s.waiters = [⟨0, 0x40001000, {}, true⟩])
      faultInRegion (.init 2 1 .empty fun n => 7 + n) = true := by
    decide +kernel
  obtain ⟨s, hs, htest⟩ : ∃ s, System.Reachable 2 1 .empty (fun n => 7 + n) s ∧ _ :=
    Runs.of_reaches hrun fun _ _ _ _ => trivial
  obtain ⟨htarget, hwaiters⟩ := of_decide_eq_true htest
  obtain ⟨⟨flags, huser⟩, -⟩ := no_wakeup_lost hs
    (by rw [hwaiters]; exact List.mem_singleton.mpr rfl) rfl
  exact ⟨s, flags, htarget, hwaiters, huser⟩

end Results

end Progress

end DASim
