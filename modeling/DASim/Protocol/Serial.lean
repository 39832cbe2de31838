import DASim.Client.Sections
import DASim.Protocol.Threads

/-!
# Threads that move while another one has the lock

A request, a clean-up and a page fault are one move of `System`.  In a `SplitSystem` a
thread that has locked `m_mutex` begins a section, makes its accesses in moves of their
own, and unlocks when it is through.  All other threads move in between, clients store to
their memory, and new clients connect.  No access looks at `m_mutex`: a thread waits for it
only in `handlerLock` and `userfaultLock`, as in `System`.

The sections still come one after the other (`threads_act_in_turn`).  `Serial` are the
states that whole sections lead to, with nothing of another section in between.
-/

namespace DASim

section Serial

variable {β : Type}

/-! ## Moves -/

/-- What a section ends with. -/
inductive Outcome where
  | answered (answer : Except Errno CallResult)
  | cleaned
  | woken (wake : Wake)

/-- A system some threads of which are in a section. -/
structure SplitSystem (β : Type) where
  sys : System β
  -- what is left of the section of a thread
  sections : Holder → Option (Section Outcome)

namespace SplitSystem

def init (nrPagesRam nrPagesSwap : Nat) (files : OrdMap Nat PersFile) (pids : Nat → Int) :
    SplitSystem β where
  sys := .init nrPagesRam nrPagesSwap files pids
  sections := fun _ => none

/-- A thread begins a section. -/
def start (holder : Holder) (p : Section Outcome) (s : SplitSystem β) :
    Except Halt (SplitSystem β) :=
  match s.sections holder with
  | none => .ok { s with sections := Function.update s.sections holder (some p) }
  | some _ => .error .blocked

/-- The thread of a client begins `handle_call`. -/
def callStart (pid : Int) (env : CallEnv) (s : SplitSystem β) : Except Halt (SplitSystem β) :=
  match s.sys.handlers.find? pid with
  | some ⟨_, .locked params⟩ =>
      s.start (.handler pid) (.answered <$> Section.handleCall pid env params)
  | _ => .error .blocked

/-- The thread of a client begins the clean-up. -/
def cleanStart (pid : Int) (env : Nat → CallEnv) (s : SplitSystem β) :
    Except Halt (SplitSystem β) :=
  match s.sys.handlers.find? pid with
  | some ⟨_, .cleaning⟩ => s.start (.handler pid) ((fun _ => .cleaned) <$> Section.clean pid env)
  | _ => .error .blocked

/-- `handle_userfault` goes on with the message it has read. -/
def faultStart (env : Env) (s : SplitSystem β) : Except Halt (SplitSystem β) :=
  match s.sys.userfault with
  | .serving addr flags => s.start .userfault (.woken <$> Section.handleUserfault addr flags env)
  | _ => .error .blocked

/-- The next access of a section. -/
def access (holder : Holder) (s : SplitSystem β) : Except Halt (SplitSystem β) :=
  match s.sections holder with
  | some (.ask q next) => do
      let (r, manager) ← orHalt (q.exec s.sys.manager)
      return {
        sys := { s.sys with manager := manager }
        sections := Function.update s.sections holder (some (next r)) }
  | _ => .error .blocked

/-- What a thread does when its section is at its end: it unlocks `m_mutex`.  After the
clean-up it stores to `m_state` outside of the lock and ends, which is the same move here. -/
def leave (holder : Holder) (outcome : Outcome) (sys : System β) : Except Halt (System β) :=
  match holder, outcome with
  | .handler pid, .answered answer =>
      match sys.handlers.find? pid with
      | some ⟨n, .locked _⟩ =>
          .ok { sys.setHandler pid ⟨n, .answered answer⟩ with mutex := none }
      | _ => .error .blocked
  | .handler pid, .cleaned =>
      match sys.handlers.find? pid with
      | some ⟨n, .cleaning⟩ =>
          .ok { sys.setHandler pid ⟨n, .ended⟩ with
            manager := sys.manager.endClient pid
            mutex := none }
      | _ => .error .blocked
  | .userfault, .woken wake =>
      match sys.userfault with
      | .serving .. =>
          .ok { sys with
            userfault := .polling
            mutex := none
            waiters := sys.waiters.filter fun w => !wake.covers w.addr }
      | _ => .error .blocked
  | _, _ => .error .blocked

def unlock (holder : Holder) (s : SplitSystem β) : Except Halt (SplitSystem β) :=
  match s.sections holder with
  | some (.done outcome) => do
      let sys ← leave holder outcome s.sys
      return { sys := sys, sections := Function.update s.sections holder none }
  | _ => .error .blocked

end SplitSystem

/-- The moves of `System` that are a whole section. -/
def Move.whole : Move β → Bool
  | .handlerServe .. => true
  | .handlerClean .. => true
  | .userfaultServe _ => true
  | _ => false

/-- The other moves that change the manager: a client stores, or a new one is there. -/
def Move.disturbs : Move β → Bool
  | .store _ => true
  | .acceptJoin => true
  | _ => false

/-- A step of one thread. -/
inductive SplitMove (β : Type) where
  | move (m : Move β)
  | callStart (pid : Int) (env : CallEnv)
  | cleanStart (pid : Int) (env : Nat → CallEnv)
  | faultStart (env : Env)
  | access (holder : Holder)
  | unlock (holder : Holder)

namespace SplitMove

def exec : SplitMove β → SplitSystem β → Except Halt (SplitSystem β)
  | .move m, s =>
      if m.whole then .error .blocked
      else do
        let sys ← m.exec s.sys
        return { s with sys := sys }
  | .callStart pid env, s => s.callStart pid env
  | .cleanStart pid env, s => s.cleanStart pid env
  | .faultStart env, s => s.faultStart env
  | .access holder, s => s.access holder
  | .unlock holder, s => s.unlock holder

/-- The move does not disturb a section. -/
def calm (s : SplitSystem β) : SplitMove β → Bool
  | .move m => s.sys.mutex.isNone || !m.disturbs
  | _ => true

end SplitMove

/-- The states the threads can bring about, with or without moves that disturb a
section. -/
def SplitSystem.Reachable (calm : Bool) (nrPagesRam nrPagesSwap : Nat)
    (files : OrdMap Nat PersFile) (pids : Nat → Int) : SplitSystem β → Prop :=
  Runs SplitMove.exec (fun s move => calm = true → move.calm s = true)
    (.init nrPagesRam nrPagesSwap files pids)

/-! ## Sections one after the other -/

/-- A client stores, or a process connects. -/
def Action.outside : Action → Bool
  | .store _ => true
  | .connect _ => true
  | _ => false

/-- What comes between the accesses of a section. -/
abbrev Damanager.Between (calm : Bool) : Damanager → Damanager → Prop :=
  Runs Action.exec fun _ action => calm = false ∧ action.outside = true

theorem Damanager.Between.eq {s t : Damanager} (h : s.Between true t) : t = s :=
  Runs.invariant (P := fun u => u = s) h rfl fun _ _ _ _ hguard _ => by cases hguard.1

def LockedAccess.Serves (q : LockedAccess) (s : Damanager) (r : Answer) (t : Damanager) : Prop :=
  q.exec s = .ok (r, t)

/-- A section that a thread can begin. -/
inductive Section.Begins (s : Damanager) : Holder → Section Outcome → Prop where
  | call {pid : Int} {mappings : OrdMap Nat Nat} {params : CallParams} {env : CallEnv} :
      s.clients.find? pid = some ⟨mappings, true⟩ →
      Begins s (.handler pid) (.answered <$> Section.handleCall pid env params)
  | clean {pid : Int} {mappings : OrdMap Nat Nat} {env : Nat → CallEnv} :
      s.clients.find? pid = some ⟨mappings, true⟩ →
      Begins s (.handler pid) ((fun _ => .cleaned) <$> Section.clean pid env)
  | fault {addr : UInt64} {flags : PagefaultFlags} {env : Env} :
      Begins s .userfault (.woken <$> Section.handleUserfault addr flags env)

/-- The manager after the end of a section. -/
def Outcome.close (holder : Holder) (outcome : Outcome) (s : Damanager) : Damanager :=
  match holder, outcome with
  | .handler pid, .cleaned => s.endClient pid
  | _, _ => s

/-- States that are reached by whole sections.  A section ends before the next one
begins. -/
inductive Damanager.Serial (calm : Bool) (nrPagesRam nrPagesSwap : Nat)
    (files : OrdMap Nat PersFile) : Damanager → Prop where
  | init : Serial calm nrPagesRam nrPagesSwap files (.init nrPagesRam nrPagesSwap files)
  | outside {s t : Damanager} {action : Action} : Serial calm nrPagesRam nrPagesSwap files s →
      action.outside = true → action.exec s = .ok t →
      Serial calm nrPagesRam nrPagesSwap files t
  | whole {s t u : Damanager} {holder : Holder} {p : Section Outcome} {outcome : Outcome}
      {log : List (Exchange Damanager LockedAccess Answer)} :
      Serial calm nrPagesRam nrPagesSwap files s → p.Begins s holder →
      Talks (Between calm) LockedAccess.Serves p s log (some outcome) t → Between calm t u →
      Serial calm nrPagesRam nrPagesSwap files (outcome.close holder u)

variable {s t : Damanager}

theorem Section.eval_of_talks {α : Type} {p : Section α}
    {log : List (Exchange Damanager LockedAccess Answer)} {a : α}
    (h : Talks (Damanager.Between true) LockedAccess.Serves p s log (some a) t) :
    p.eval LockedAccess.serve s = some (a, t) := by
  refine h.eval_alone Damanager.Between.eq fun {q s r s'} hserve => ?_
  rw [LockedAccess.serve, show q.exec s = .ok (r, s') from hserve]
  rfl

/-- A section with nothing in between is one action of the manager. -/
theorem Section.Begins.exec {holder : Holder} {p : Section Outcome} {outcome : Outcome}
    {log : List (Exchange Damanager LockedAccess Answer)} (hp : p.Begins s holder)
    (h : Talks (Damanager.Between true) LockedAccess.Serves p s log (some outcome) t) :
    ∃ action : Action, action.exec s = .ok (outcome.close holder t) := by
  cases hp with
  | @call pid mappings params env hc =>
      obtain ⟨answer, htalk, houtcome⟩ := h.of_map
      obtain ⟨answer, rfl, rfl⟩ := Option.map_eq_some_iff.mp houtcome.symm
      have heval := Section.eval_of_talks htalk
      rw [Section.handleCall_eval hc] at heval
      refine ⟨.call pid params env, ?_⟩
      rw [Action.exec, hc]
      dsimp only
      rw [eq_ok_of_toOption heval]
      rfl
  | @clean pid mappings env hc =>
      obtain ⟨_, htalk, houtcome⟩ := h.of_map
      obtain ⟨_, rfl, rfl⟩ := Option.map_eq_some_iff.mp houtcome.symm
      refine ⟨.disconnect pid env, eq_ok_of_toOption ?_⟩
      rw [← Section.clean_eval env hc, Section.eval_of_talks htalk]
      rfl
  | @fault addr flags env =>
      obtain ⟨wake, htalk, houtcome⟩ := h.of_map
      obtain ⟨wake, rfl, rfl⟩ := Option.map_eq_some_iff.mp houtcome.symm
      have heval := Section.eval_of_talks htalk
      rw [Section.handleUserfault_eval addr flags env] at heval
      obtain ⟨⟨_, cm⟩, hfault, heq⟩ := Option.map_eq_some_iff.mp heval
      cases heq
      refine ⟨.userfault addr flags env, ?_⟩
      rw [Action.exec, eq_ok_of_toOption hfault]
      rfl

/-- Sections with nothing in between are a run of the manager. -/
theorem Damanager.Serial.reachable {nrPagesRam nrPagesSwap : Nat} {files : OrdMap Nat PersFile}
    (h : s.Serial true nrPagesRam nrPagesSwap files) :
    s.Reachable nrPagesRam nrPagesSwap files := by
  induction h with
  | init => exact Runs.refl
  | outside _ _ hexec ih => exact Runs.tail ih trivial hexec
  | whole _ hbegins htalk hend ih =>
      cases hend.eq
      obtain ⟨action, hexec⟩ := hbegins.exec htalk
      exact Runs.tail ih trivial hexec

/-! ## What other moves leave alone -/

namespace System

/-- The thread is where it can begin a section. -/
def Inside (s : System β) : Holder → Prop
  | .handler pid => s.In HandlerState.locks pid
  | .userfault => ∃ addr flags, s.userfault = .serving addr flags

variable {s s' : System β} {holder : Holder} {pid : Int} {m : Move β}

theorem Inside.mutex (h : s.Inside holder) (hlocked : s.Locked) : s.mutex = some holder := by
  cases holder with
  | handler pid => exact (hlocked.handlers pid).mpr h
  | userfault =>
      obtain ⟨addr, flags, huser⟩ := h
      exact hlocked.userfault.mpr (by rw [huser]; rfl)

theorem Inside.congr (h : s.Inside holder) (hhandlers : s'.handlers = s.handlers)
    (huser : s'.userfault = s.userfault) : s'.Inside holder := by
  cases holder with
  | handler pid => exact (in_congr hhandlers).mpr h
  | userfault =>
      obtain ⟨addr, flags, hserving⟩ := h
      exact ⟨addr, flags, huser.trans hserving⟩

/-- A move of another thread: who is in a section stays there, and the manager changes
only if the move disturbs it. -/
structure Keeps (disturbs : Bool) (s s' : System β) : Prop where
  inside : ∀ holder, s.Inside holder → s'.Inside holder
  manager : s'.manager = s.manager ∨ disturbs = true ∧
    ∃ action : Action, action.outside = true ∧ action.exec s.manager = .ok s'.manager

namespace Keeps

variable {disturbs : Bool}

theorem same (hmanager : s'.manager = s.manager) (hhandlers : s'.handlers = s.handlers)
    (huser : s'.userfault = s.userfault) : Keeps disturbs s s' where
  inside := fun _ hin => hin.congr hhandlers huser
  manager := Or.inl hmanager

/-- The thread of a client moves or starts, and is not in a section. -/
theorem handler {y : Handler} (hidle : ¬ s.In HandlerState.locks pid)
    (hmanager : s'.manager = s.manager ∨ disturbs = true ∧
      ∃ action : Action, action.outside = true ∧ action.exec s.manager = .ok s'.manager)
    (hhandlers : s'.handlers = s.handlers.insert pid y) (huser : s'.userfault = s.userfault) :
    Keeps disturbs s s' where
  inside
    | .handler pid' => fun hin => by
        refine (in_congr (s := s.setHandler pid y) hhandlers).mpr (in_setHandler.mpr ?_)
        split
        next heq =>
          subst heq
          exact absurd hin hidle
        next => exact hin
    | .userfault => fun ⟨addr, flags, hserving⟩ => ⟨addr, flags, huser.trans hserving⟩
  manager := hmanager

/-- The thread of page faults moves, and is not in a section. -/
theorem fault (hidle : ¬ s.Inside .userfault) (hmanager : s'.manager = s.manager)
    (hhandlers : s'.handlers = s.handlers) : Keeps disturbs s s' where
  inside
    | .handler _ => (in_congr hhandlers).mpr
    | .userfault => fun hin => absurd hin hidle
  manager := Or.inl hmanager

end Keeps

variable {n t : Nat}

theorem exit_keeps : Keeps false s (s.exit n) := by
  obtain ⟨names, heq⟩ := unbind_eq (s := s) n
  exact .same (by simp [exit, heq, setProc]) (by simp [exit, heq, setProc])
    (by simp [exit, heq, setProc])

theorem connect_keeps : Keeps false s (s.connect n t) := by
  unfold connect
  dsimp only
  split
  next => exact exit_keeps
  next => exact .same rfl rfl rfl

theorem acquire_keeps (h : s.acquire n t = .ok s') : Keeps false s s' := by
  unfold acquire at h
  dsimp only at h
  split at h
  next =>
    cases h
    exact .same rfl rfl rfl
  next =>
    split at h
    next =>
      cases h
      exact connect_keeps
    next =>
      cases h
      exact .same rfl rfl rfl
  next =>
    split at h
    next =>
      cases h
      obtain ⟨names, heq⟩ := unbind_eq (s := s) n
      rw [heq]
      exact .same rfl rfl rfl
    next =>
      cases h
      exact .same rfl rfl rfl
  next => cases h

theorem acceptJoin_keeps (h : s.acceptJoin = .ok s') : Keeps true s s' := by
  unfold acceptJoin at h
  split at h
  next n pid _ =>
    split at h
    next hfind =>
      obtain ⟨manager, hconnect, h⟩ := ok_of_bind h
      cases h
      refine .handler (fun hin => ?_) (Or.inr ⟨rfl, .connect pid, rfl, ok_of_orHalt hconnect⟩)
        rfl rfl
      obtain ⟨_, hfind', -⟩ := hin
      rw [hfind] at hfind'
      cases hfind'
    next m hfind =>
      obtain ⟨manager, hconnect, h⟩ := ok_of_bind h
      cases h
      refine .handler (fun hin => ?_) (Or.inr ⟨rfl, .connect pid, rfl, ok_of_orHalt hconnect⟩)
        rfl rfl
      rw [in_iff hfind] at hin
      cases hin
    next => cases h
  next => cases h

theorem handlerPoll_keeps {fail : Bool} (h : s.handlerPoll pid fail = .ok s') :
    Keeps false s s' := by
  unfold handlerPoll at h
  split at h
  next n hfind =>
    have hidle : ¬ s.In HandlerState.locks pid := by simp [in_iff hfind, HandlerState.locks]
    dsimp only at h
    split at h
    next =>
      cases h
      exact .handler hidle (Or.inl rfl) rfl rfl
    next =>
      cases h
      exact .handler hidle (Or.inl rfl) rfl rfl
    next => cases h
  next => cases h

theorem handlerLock_keeps (h : s.handlerLock pid = .ok s') : Keeps false s s' := by
  unfold handlerLock at h
  split at h
  next hfind =>
    cases h
    exact .handler (by simp [in_iff hfind, HandlerState.locks]) (Or.inl rfl) rfl rfl
  next hfind =>
    cases h
    exact .handler (by simp [in_iff hfind, HandlerState.locks]) (Or.inl rfl) rfl rfl
  next => cases h

theorem handlerReply_keeps (h : s.handlerReply pid = .ok s') : Keeps false s s' := by
  unfold handlerReply at h
  split at h
  next hfind =>
    have hidle : ¬ s.In HandlerState.locks pid := by simp [in_iff hfind, HandlerState.locks]
    dsimp only at h
    split at h
    next =>
      cases h
      exact .handler hidle (Or.inl rfl) rfl rfl
    next =>
      cases h
      exact .handler hidle (Or.inl rfl) rfl rfl
  next => cases h

theorem userfaultPoll_keeps {fail : Bool} (h : s.userfaultPoll fail = .ok s') :
    Keeps false s s' := by
  unfold userfaultPoll at h
  split at h
  next huser _ =>
    cases h
    exact .fault (by simp [Inside, huser]) rfl rfl
  next huser _ =>
    cases h
    exact .fault (by simp [Inside, huser]) rfl rfl
  next => cases h

theorem userfaultLock_keeps (h : s.userfaultLock = .ok s') : Keeps false s s' := by
  unfold userfaultLock at h
  split at h
  next huser =>
    cases h
    exact .fault (by simp [Inside, huser]) rfl rfl
  next => cases h

theorem userfaultRead_keeps {i : Nat} (h : s.userfaultRead i = .ok s') : Keeps false s s' := by
  unfold userfaultRead at h
  split at h
  next huser _ =>
    split at h
    next => cases h
    next =>
      cases h
      exact .fault (by simp [Inside, huser]) rfl rfl
  next huser _ =>
    split at h
    next => cases h
    next =>
      cases h
      exact .fault (by simp [Inside, huser]) rfl rfl
  next => cases h

theorem mainClear_keeps (h : s.mainClear pid = .ok s') : Keeps false s s' := by
  unfold mainClear at h
  split at h
  next hfind =>
    cases h
    exact
      { inside := fun
          | .handler _ => (in_erase rfl hfind).mpr
          | .userfault => id
        manager := Or.inl rfl }
  next => cases h

end System

theorem Move.exec_keeps {s s' : System β} {m : Move β} (hm : m.whole = false)
    (h : m.exec s = .ok s') : System.Keeps m.disturbs s s' := by
  cases m with
  | handlerServe | handlerClean | userfaultServe => cases hm
  | acquire n t => exact System.acquire_keeps h
  | exit n =>
      cases h
      exact System.exit_keeps
  | store st =>
      cases h
      exact { inside := fun | .handler _ => id | .userfault => id
              manager := Or.inr ⟨rfl, .store st, rfl, rfl⟩ }
  | acceptJoin => exact System.acceptJoin_keeps h
  | handlerPoll pid fail => exact System.handlerPoll_keeps h
  | handlerLock pid => exact System.handlerLock_keeps h
  | handlerReply pid => exact System.handlerReply_keeps h
  | userfaultPoll fail => exact System.userfaultPoll_keeps h
  | userfaultLock => exact System.userfaultLock_keeps h
  | userfaultRead i => exact System.userfaultRead_keeps h
  | mainClear pid => exact System.mainClear_keeps h
  | _ =>
      simp only [exec, System.enter, System.introduce, System.send, System.receive, System.leave,
        System.fault, System.acceptPoll, System.acceptRefused, System.acceptRead,
        System.mainSignal, System.mainJoin] at h
      repeat' split at h
      all_goals cases h
      all_goals first | exact .same rfl rfl rfl | exact System.exit_keeps

/-! ## Who is in a section has the lock -/

namespace SplitSystem

variable {s s' : SplitSystem β} {holder : Holder} {p : Section Outcome} {calm : Bool}
  {nrPagesRam nrPagesSwap : Nat} {files : OrdMap Nat PersFile} {pids : Nat → Int}

/-- A section that was begun in a serial state has come to the present state. -/
def UnderWay (calm : Bool) (nrPagesRam nrPagesSwap : Nat) (files : OrdMap Nat PersFile)
    (holder : Holder) (rest : Section Outcome) (t : Damanager) : Prop :=
  ∃ (s₀ : Damanager) (call : Section Outcome) (s₁ : Damanager),
    s₀.Serial calm nrPagesRam nrPagesSwap files ∧ call.Begins s₀ holder ∧
    Resumes (Damanager.Between calm) LockedAccess.Serves call s₀ rest s₁ ∧ s₁.Between calm t

/-- What holds in every order of moves. -/
structure Orderly (calm : Bool) (nrPagesRam nrPagesSwap : Nat) (files : OrdMap Nat PersFile)
    (s : SplitSystem β) : Prop where
  locked : s.sys.Locked
  staffed : s.sys.Staffed
  inside : ∀ {holder rest}, s.sections holder = some rest → s.sys.Inside holder
  idle : (∀ holder, s.sections holder = none) →
    s.sys.manager.Serial calm nrPagesRam nrPagesSwap files
  underWay : ∀ {holder rest}, s.sections holder = some rest →
    UnderWay calm nrPagesRam nrPagesSwap files holder rest s.sys.manager

namespace Orderly

variable (h : s.Orderly calm nrPagesRam nrPagesSwap files)
include h

theorem mutex {rest : Section Outcome} (hrest : s.sections holder = some rest) :
    s.sys.mutex = some holder := (h.inside hrest).mutex h.locked

/-- While a thread is in a section, no other one is. -/
theorem alone {other : Holder} (hin : s.sys.Inside holder) (hne : other ≠ holder) :
    s.sections other = none := by
  cases hrest : s.sections other with
  | none => rfl
  | some rest =>
      have hmutex := h.mutex hrest
      rw [hin.mutex h.locked] at hmutex
      exact absurd (Option.some.inj hmutex).symm hne

theorem serial_of_mutex (hmutex : s.sys.mutex = none) :
    s.sys.manager.Serial calm nrPagesRam nrPagesSwap files := by
  refine h.idle fun holder => ?_
  cases hrest : s.sections holder with
  | none => rfl
  | some rest =>
      rw [h.mutex hrest] at hmutex
      cases hmutex

theorem move {m : Move β} (hcalm : calm = true → (SplitMove.move m).calm s = true)
    (hm : m.whole = false) {sys : System β} (hexec : m.exec s.sys = .ok sys) :
    Orderly calm nrPagesRam nrPagesSwap files { s with sys := sys } := by
  have hkeeps := Move.exec_keeps hm hexec
  have hstep := Move.exec_step hexec
  refine ⟨h.locked.step hstep, h.staffed.step hstep, fun hrest => hkeeps.inside _ (h.inside hrest),
    fun hidle => ?_, fun {holder rest} hrest => ?_⟩
  · rcases hkeeps.manager with heq | ⟨-, action, houtside, hact⟩
    · show sys.manager.Serial calm nrPagesRam nrPagesSwap files
      rw [heq]
      exact h.idle hidle
    · exact .outside (h.idle hidle) houtside hact
  · obtain ⟨s₀, call, s₁, hserial, hbegins, hresumes, hbetween⟩ := h.underWay hrest
    refine ⟨s₀, call, s₁, hserial, hbegins, hresumes, ?_⟩
    rcases hkeeps.manager with heq | ⟨hdisturbs, action, houtside, hact⟩
    · show s₁.Between calm sys.manager
      rw [heq]
      exact hbetween
    · refine hbetween.tail ⟨?_, houtside⟩ hact
      -- the lock is taken, so a calm run has no such move here
      cases calm with
      | false => rfl
      | true =>
          have hmove := hcalm rfl
          rw [SplitMove.calm, h.mutex hrest, hdisturbs] at hmove
          cases hmove

/-- The only thread that can be in a section comes to a section, goes on in it or
leaves it. -/
theorem update {sys : System β} {rest : Option (Section Outcome)}
    (hin : s.sys.Inside holder) (hlocked : sys.Locked) (hstaffed : sys.Staffed)
    (hidle : rest = none → sys.manager.Serial calm nrPagesRam nrPagesSwap files)
    (hrest : ∀ p, rest = some p →
      sys.Inside holder ∧ UnderWay calm nrPagesRam nrPagesSwap files holder p sys.manager) :
    Orderly calm nrPagesRam nrPagesSwap files
      { sys := sys, sections := Function.update s.sections holder rest } := by
  have hsections : ∀ {other p}, Function.update s.sections holder rest other = some p →
      other = holder ∧ rest = some p := by
    intro other p hp
    by_cases hne : other = holder
    · rw [hne, Function.update_self] at hp
      exact ⟨hne, hp⟩
    · rw [Function.update_of_ne hne, h.alone hin hne] at hp
      cases hp
  refine ⟨hlocked, hstaffed, fun hp => ?_, fun hnone => hidle ?_, fun hp => ?_⟩
  · obtain ⟨rfl, hrest'⟩ := hsections hp
    exact (hrest _ hrest').1
  · have hself : Function.update s.sections holder rest holder = none := hnone holder
    rwa [Function.update_self] at hself
  · obtain ⟨rfl, hrest'⟩ := hsections hp
    exact (hrest _ hrest').2

theorem start (hin : s.sys.Inside holder) (hbegins : p.Begins s.sys.manager holder)
    (hexec : s.start holder p = .ok s') : s'.Orderly calm nrPagesRam nrPagesSwap files := by
  unfold SplitSystem.start at hexec
  split at hexec
  next hnone =>
    cases hexec
    have hserial : s.sys.manager.Serial calm nrPagesRam nrPagesSwap files := by
      refine h.idle fun other => ?_
      by_cases hne : other = holder
      · rw [hne, hnone]
      · exact h.alone hin hne
    refine h.update hin h.locked h.staffed (fun hrest => by cases hrest) fun p hp => ⟨hin, ?_⟩
    cases hp
    exact ⟨_, _, _, hserial, hbegins, .refl _ _, Runs.refl⟩
  next => cases hexec

theorem access (hexec : s.access holder = .ok s') :
    s'.Orderly calm nrPagesRam nrPagesSwap files := by
  unfold SplitSystem.access at hexec
  split at hexec
  next q next hsection =>
    obtain ⟨⟨r, manager⟩, hserve, hexec⟩ := ok_of_bind hexec
    have hserve := ok_of_orHalt hserve
    cases hexec
    have hin := h.inside hsection
    obtain ⟨s₀, call, s₁, hserial, hbegins, hresumes, hbetween⟩ := h.underWay hsection
    refine h.update hin (h.locked.same rfl rfl rfl) (fun pid => ?_) (fun hrest => by cases hrest)
      fun p hp => ⟨?_, ?_⟩
    · exact (LockedAccess.exec_running hserve pid).trans (h.staffed pid)
    · exact hin.congr rfl rfl
    · cases hp
      exact ⟨s₀, call, manager, hserial, hbegins, hresumes.ask hbetween hserve, Runs.refl⟩
  next => cases hexec

/-- What is left of a section is its end. -/
theorem serial_of_done {outcome : Outcome} (hsection : s.sections holder = some (.done outcome)) :
    (outcome.close holder s.sys.manager).Serial calm nrPagesRam nrPagesSwap files := by
  obtain ⟨s₀, call, s₁, hserial, hbegins, hresumes, hbetween⟩ := h.underWay hsection
  obtain ⟨log, htalk⟩ := hresumes.done
  exact .whole hserial hbegins htalk hbetween

theorem unlock (hexec : s.unlock holder = .ok s') :
    s'.Orderly calm nrPagesRam nrPagesSwap files := by
  unfold SplitSystem.unlock at hexec
  split at hexec
  next outcome hsection =>
    obtain ⟨sys, hleave, hexec⟩ := ok_of_bind hexec
    cases hexec
    have hin := h.inside hsection
    have hserial := h.serial_of_done hsection
    unfold leave at hleave
    split at hleave
    next pid answer =>
      split at hleave
      next n params hfind =>
        cases hleave
        exact h.update hin (h.locked.handler hfind rfl (fun hy => by cases hy) rfl rfl)
          (h.staffed.keep hfind rfl rfl rfl rfl) (fun _ => hserial) fun p hp => by cases hp
      next => cases hleave
    next pid =>
      split at hleave
      next n hfind =>
        cases hleave
        exact h.update hin (h.locked.handler hfind rfl (fun hy => by cases hy) rfl rfl)
          (h.staffed.change rfl rfl rfl) (fun _ => hserial) fun p hp => by cases hp
      next => cases hleave
    next wake =>
      split at hleave
      next addr flags huser =>
        cases hleave
        exact h.update hin (h.locked.fault (by rw [huser]; rfl) (fun hy => by cases hy) rfl)
          (h.staffed.same rfl rfl) (fun _ => hserial) fun p hp => by cases hp
      next => cases hleave
    next => cases hleave
  next => cases hexec

theorem exec {move : SplitMove β} (hcalm : calm = true → move.calm s = true)
    (hexec : move.exec s = .ok s') : s'.Orderly calm nrPagesRam nrPagesSwap files := by
  cases move with
  | move m =>
      rw [SplitMove.exec] at hexec
      split at hexec
      next => cases hexec
      next hm =>
        obtain ⟨sys, hmove, hexec⟩ := ok_of_bind hexec
        cases hexec
        exact h.move hcalm (by simpa using hm) hmove
  | callStart pid env =>
      rw [SplitMove.exec, callStart] at hexec
      split at hexec
      next n params hfind =>
        obtain ⟨mappings, hc⟩ := (h.staffed pid).mpr ((System.in_iff hfind).mpr rfl)
        have hin : s.sys.Inside (.handler pid) := (System.in_iff hfind).mpr rfl
        exact h.start hin (.call hc) hexec
      next => cases hexec
  | cleanStart pid env =>
      rw [SplitMove.exec, cleanStart] at hexec
      split at hexec
      next n hfind =>
        obtain ⟨mappings, hc⟩ := (h.staffed pid).mpr ((System.in_iff hfind).mpr rfl)
        have hin : s.sys.Inside (.handler pid) := (System.in_iff hfind).mpr rfl
        exact h.start hin (.clean hc) hexec
      next => cases hexec
  | faultStart env =>
      rw [SplitMove.exec, faultStart] at hexec
      split at hexec
      next addr flags huser =>
        have hin : s.sys.Inside .userfault := ⟨addr, flags, huser⟩
        exact h.start hin .fault hexec
      next => cases hexec
  | access holder => exact h.access hexec
  | unlock holder => exact h.unlock hexec

end Orderly

theorem Reachable.orderly (h : Reachable calm nrPagesRam nrPagesSwap files pids s) :
    s.Orderly calm nrPagesRam nrPagesSwap files :=
  Runs.invariant h
    { locked := System.init_ok.locked
      staffed := System.init_ok.staffed
      inside := fun hrest => by cases hrest
      idle := fun _ => .init
      underWay := fun hrest => by cases hrest }
    fun _ _ _ hs hcalm hexec => hs.exec hcalm hexec

end SplitSystem

/-! ## The result -/

/-- Threads that work on the tables step by step do so in turn.  A thread that is in a
section has locked `m_mutex`, and the section goes on from a state that whole sections led
to.  When the lock is free, so is the present state.  If clients did not store or connect
meanwhile, this is a state the manager reaches by whole actions. -/
theorem threads_act_in_turn {s : SplitSystem β} {calm : Bool} {nrPagesRam nrPagesSwap : Nat}
    {files : OrdMap Nat PersFile} {pids : Nat → Int}
    (h : SplitSystem.Reachable calm nrPagesRam nrPagesSwap files pids s) :
    (∀ holder rest, s.sections holder = some rest → s.sys.mutex = some holder ∧
        SplitSystem.UnderWay calm nrPagesRam nrPagesSwap files holder rest s.sys.manager) ∧
      (s.sys.mutex = none → s.sys.manager.Serial calm nrPagesRam nrPagesSwap files) ∧
      (calm = true → s.sys.mutex = none →
        s.sys.manager.Reachable nrPagesRam nrPagesSwap files) := by
  have horderly := h.orderly
  refine ⟨fun holder rest hrest => ⟨horderly.mutex hrest, horderly.underWay hrest⟩,
    fun hmutex => horderly.serial_of_mutex hmutex, fun hcalm hmutex => ?_⟩
  subst hcalm
  exact (horderly.serial_of_mutex hmutex).reachable

/-- One process asks for a new region and another one for its size, and both requests are
read.  The thread of the first one locks `m_mutex`. -/
def bothAsked : List (Move (Except Errno CallResult)) :=
  session 0 ++ session 1 ++
    [.enter 0 3 (.call (.request (.alloc 5 0x1000 pageSize false))), .acquire 0 3, .send 0 3,
     .handlerPoll 7 false, .enter 1 4 (.call (.request (.getSize 5))), .acquire 1 4, .send 1 4,
     .handlerPoll 8 false, .handlerLock 7]

/-- The first request is served up to its last access, and a client stores meanwhile. -/
def halfAllocated : List (SplitMove (Except Errno CallResult)) :=
  bothAsked.map .move ++
    [.callStart 7 { create := { reserve := some 0x40000000 } }, .access (.handler 7),
     .access (.handler 7), .access (.handler 7), .access (.handler 7),
     .move (.store ⟨(5, 0), ⟨0, pageSize_pos⟩, 1⟩), .access (.handler 7)]

/-- The first request is served. -/
def allocated : List (SplitMove (Except Errno CallResult)) :=
  bothAsked.map .move ++
    [.callStart 7 { create := { reserve := some 0x40000000 } }, .access (.handler 7),
     .access (.handler 7), .access (.handler 7), .access (.handler 7), .access (.handler 7),
     .access (.handler 7), .unlock (.handler 7)]

/-- The region is in the tables of the manager and not yet among the mappings of its
client. -/
theorem threads_act_in_turn_allocated :
    (∃ (s : SplitSystem (Except Errno CallResult)) (rest : Section Outcome),
      s.sys.manager.regions.contains 5 = true ∧ (s.sys.manager.client 7).mappings.size = 0 ∧
        s.sys.handlers.find? 8 = some ⟨1, .received (.getSize 5)⟩ ∧
        s.sys.mutex = some (.handler 7) ∧
        SplitSystem.UnderWay false 2 1 .empty (.handler 7) rest s.sys.manager) ∧
      ∃ s : SplitSystem (Except Errno CallResult), (s.sys.manager.client 7).mappings.size = 1 ∧
        s.sys.manager.Serial true 2 1 .empty ∧ s.sys.manager.Reachable 2 1 .empty := by
  refine ⟨?_, ?_⟩
  · have hrun : reaches SplitMove.exec (fun _ _ => true)
        (fun s => (s.sections (.handler 7)).isSome ∧ s.sys.manager.regions.contains 5 = true ∧
          (s.sys.manager.client 7).mappings.size = 0 ∧
          s.sys.handlers.find? 8 = some ⟨1, .received (.getSize 5)⟩)
        halfAllocated (.init 2 1 .empty fun n => 7 + n) = true := by
      decide +kernel
    obtain ⟨s, hs, htest⟩ : ∃ s, SplitSystem.Reachable false 2 1 .empty (fun n => 7 + n) s ∧ _ :=
      Runs.of_reaches hrun fun _ _ _ _ hcalm => by cases hcalm
    obtain ⟨hsection, hregion, hmappings, hwaits⟩ := of_decide_eq_true htest
    obtain ⟨rest, hrest⟩ := Option.isSome_iff_exists.mp hsection
    obtain ⟨hmutex, hway⟩ := (threads_act_in_turn hs).1 _ _ hrest
    exact ⟨s, rest, hregion, hmappings, hwaits, hmutex, hway⟩
  · have hrun : reaches SplitMove.exec (fun s move => move.calm s)
        (fun s => s.sys.mutex = none ∧ (s.sys.manager.client 7).mappings.size = 1)
        allocated (.init 2 1 .empty fun n => 7 + n) = true := by
      decide +kernel
    obtain ⟨s, hs, htest⟩ : ∃ s, SplitSystem.Reachable true 2 1 .empty (fun n => 7 + n) s ∧ _ :=
      Runs.of_reaches hrun fun _ _ _ hcalm _ => hcalm
    obtain ⟨hmutex, hmappings⟩ := of_decide_eq_true htest
    obtain ⟨-, hserial, hreach⟩ := threads_act_in_turn hs
    exact ⟨s, hmappings, hserial hmutex, hreach rfl hmutex⟩

end Serial

end DASim
