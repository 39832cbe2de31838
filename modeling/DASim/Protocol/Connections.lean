import DASim.Protocol.Steps

/-!
# A process, its connection and the thread that serves it

`Conn` is what there is of one process: the process with what is in its socket, where
the thread that serves it is, and whether its connection waits to be accepted.
`Conn.Step` are the steps a connection can take, and `Conn.Ok` is what they keep.

* One thread of a process at a time is in the library.
* The first message to the manager is the process id, and it is sent before any
  request.
* While a request is under way, it is in one place: in the socket, with the thread of
  the manager, or its answer is there or in the socket.  `Exchanged` lists the places.
* What is left of a call continues the dialogue of the call with the manager.  The
  requests that were answered are in its log, and the manager served no other request
  of the process since the first of them.
-/

namespace DASim

/-! ## Connections -/

/-- Whether a connection waits to be accepted. -/
inductive Place where
  /-- It was not made yet, it has a thread, or it was given up. -/
  | away
  /-- The process id is to be read. -/
  | unread
  /-- The thread that accepts connections has read the process id. -/
  | joining
deriving DecidableEq, Repr

/-- A process, the thread that serves it and the place of its connection. -/
structure Conn (β : Type) where
  proc : Process β
  handler : Option HandlerState
  place : Place

section Conn

variable {β : Type}

/-- The requests in a socket. -/
def requests (up : List Packet) : List CallParams := up.filterMap fun
  | .params params => some params
  | .pid _ => none

@[simp]
theorem requests_append (up up' : List Packet) :
    requests (up ++ up') = requests up ++ requests up' := List.filterMap_append

@[simp]
theorem requests_pid (pid : Int) (up : List Packet) : requests (.pid pid :: up) = requests up := rfl

@[simp]
theorem requests_params (params : CallParams) (up : List Packet) :
    requests (.params params :: up) = params :: requests up := rfl

/-- The request a process waits for the answer of. -/
def Process.asked (p : Process β) : Option CallParams :=
  match p.mutex with
  | none => none
  | some t =>
      match p.threads t with
      | .awaiting _ _ query _ => some query
      | _ => none

/-- The thread of a client has no request and no answer. -/
def HandlerState.quiet : Option HandlerState → Bool
  | some (.received _) => false
  | some (.locked _) => false
  | some (.answered _) => false
  | _ => true

/-- Where a request is, or its answer: the request that was asked, the requests in the
socket, the thread that serves them, and the answers in the socket. -/
inductive Exchanged : Option CallParams → List CallParams → Option HandlerState →
    List (Except Errno CallResult) → Prop where
  | nothing {h} : HandlerState.quiet h = true → Exchanged none [] h []
  | sent {q h} : HandlerState.quiet h = true → Exchanged (some q) [q] h []
  | received {q} : Exchanged (some q) [] (some (.received q)) []
  | locked {q} : Exchanged (some q) [] (some (.locked q)) []
  | answered {q a} : Exchanged (some q) [] (some (.answered a)) []
  | delivered {q h a} : HandlerState.quiet h = true → Exchanged (some q) [] h [a]

/-- The thread of a client goes on with its requests. -/
def HandlerState.serves : HandlerState → Bool
  | .polling => true
  | .received _ => true
  | .locked _ => true
  | .answered _ => true
  | _ => false

/-- The state in which the call of a thread began. -/
def LibThread.start : LibThread β → Option Damanager
  | .entering start _ => some start
  | .inside start _ _ => some start
  | .awaiting start _ _ _ => some start
  | .returned start _ _ => some start
  | _ => none

/-! ## Calls in progress -/

/-- Any number of steps of the manager. -/
abbrev Damanager.Reach : Damanager → Damanager → Prop := Runs Action.exec fun _ _ => True

/-- The step is not a request of the process. -/
def Action.NotBy (pid : Int) (action : Action) : Prop := ∀ params env, action ≠ .call pid params env

/-- Any number of steps of the manager, none of which is a request of the process. -/
abbrev Damanager.Passes (pid : Int) : Damanager → Damanager → Prop :=
  Runs Action.exec fun _ action => action.NotBy pid

/-- A call of the library is over.  It was a dialogue with the manager that took place
between the begin of the call and now. -/
def Returned (pid : Int) (now start : Damanager) (call : Program β) (value : β) : Prop :=
  ∃ s log t, start.Reach s ∧
    Damanager.Talk (fun _ action => action.NotBy pid) pid call s log (some value) t ∧ t.Reach now

/-- A call of the library is under way, with some of its requests answered. -/
def InProgress (pid : Int) (now start : Damanager) (call rest : Program β) : Prop :=
  ∃ s s₁, start.Reach s ∧ Resumes (Damanager.Passes pid) (Damanager.Answers pid) call s rest s₁ ∧
    Damanager.Passes pid s₁ now

namespace Conn

/-- The answer that is on its way to the process. -/
def answer (c : Conn β) : Option (Except Errno CallResult) :=
  match c.handler with
  | some (.answered a) => some a
  | _ => c.proc.down.head?

/-- The connection is served by its own thread, or by none. -/
def seated (c : Conn β) : Prop := c.proc.online = true ∧ c.place = .away

/-- What is left of a call.  Before the first answer that is all of it. -/
def Story (c : Conn β) (now start : Damanager) (call rest : Program β) : Prop :=
  start.Reach now ∧ (rest = call ∨ c.seated ∧ InProgress c.proc.pid now start call rest)

/-- What is known of a thread. -/
def Told (c : Conn β) (now : Damanager) : LibThread β → Prop
  | .outside => True
  | .entering start _ => start.Reach now
  | .introducing => True
  | .inside start call rest => c.Story now start call rest
  | .awaiting start call query next =>
      match c.answer with
      | none => c.Story now start call (.ask query next)
      | some a => c.Story now start call (next a)
  | .returned start call value => Returned c.proc.pid now start call value

/-- The lock is held by the thread that is in the library, if there is one. -/
def Guarded (threads : Nat → LibThread β) (mutex : Option Nat) : Prop :=
  ∀ t, (threads t).holds = true ↔ mutex = some t

/-- The invariant of a connection. -/
structure Ok (c : Conn β) (now : Damanager) : Prop where
  mutex : Guarded c.proc.threads c.proc.mutex
  exited : c.proc.exited = true → ∀ t, c.proc.threads t = .outside
  unopened : c.proc.socket = .unopened → c.proc.up = [] ∧ c.proc.down = [] ∧ c.handler = none
  queued : c.place ≠ .away → c.proc.socket ≠ .unopened ∧ c.handler = none ∧ c.proc.down = []
  -- the first message is the process id, and nothing else is sent before
  introducing : ∀ t, c.proc.threads t = .introducing →
    c.place = .unread ∧ c.proc.up = [] ∧ c.proc.online = true
  silent : c.place = .unread → c.proc.up = [] →
    c.proc.exited = true ∨ ∃ t, c.proc.threads t = .introducing
  greeting : c.place = .unread → ∀ packet up, c.proc.up = packet :: up →
    packet = .pid c.proc.pid ∧ ∀ pid, .pid pid ∉ up
  plain : c.place ≠ .unread → ∀ pid, .pid pid ∉ c.proc.up
  -- a request is in one place
  awaiting : ∀ q, c.proc.asked = some q → c.proc.online = true
  exchange : c.proc.online = true →
    Exchanged c.proc.asked (requests c.proc.up) c.handler c.proc.down
  told : ∀ t, c.Told now (c.proc.threads t)

/-- The manager takes no step, or one that is not a request of the process.  As long
as the connection waits, another process with the same id may be served. -/
def Lets (c : Conn β) (now now' : Damanager) : Prop :=
  now' = now ∨ ∃ action : Action, action.exec now = .ok now' ∧
    (c.seated → action.NotBy c.proc.pid)

/-- The steps of a connection, with the state of the manager.  The thread that serves
it stops when the manager is `broken`. -/
inductive Step (broken : Prop) : Damanager → Conn β → Damanager → Conn β → Prop where
  | same {now now' : Damanager} {c : Conn β} : c.Lets now now' → Step broken now c now' c
  | enter {now : Damanager} {c : Conn β} {t : Nat} {entry : LibEntry β} :
      c.proc.exited = false → (c.proc.threads t).idle = true →
      Step broken now c now { c with proc := c.proc.setThread t (.entering now entry) }
  | call {now start : Damanager} {c : Conn β} {t : Nat} {call : Program β} :
      c.proc.mutex = none → c.proc.threads t = .entering start (.call call) →
      Step broken now c now
        { c with proc := { c.proc.setThread t (.inside start call call) with mutex := some t } }
  | connect {now start : Damanager} {c : Conn β} {t : Nat} : c.proc.mutex = none →
      c.proc.threads t = .entering start .init → c.proc.socket = .unopened →
      Step broken now c now { c with
        proc := { c.proc.setThread t .introducing with mutex := some t, socket := .opened }
        place := .unread }
  | skip {now start : Damanager} {c : Conn β} {t : Nat} {entry : LibEntry β} :
      c.proc.mutex = none → c.proc.threads t = .entering start entry →
      Step broken now c now { c with proc := c.proc.setThread t .outside }
  | close {now start : Damanager} {c : Conn β} {t : Nat} {entry : LibEntry β} :
      c.proc.mutex = none → c.proc.threads t = .entering start entry →
      Step broken now c now
        { c with proc := { c.proc.setThread t .outside with socket := .closed } }
  | introduce {now : Damanager} {c : Conn β} {t : Nat} : c.proc.threads t = .introducing →
      Step broken now c now { c with
        proc := { c.proc.release t .outside with up := c.proc.up ++ [.pid c.proc.pid] } }
  | send {now start : Damanager} {c : Conn β} {t : Nat} {call : Program β} {query : CallParams}
      {next : Except Errno CallResult → Program β} :
      c.proc.threads t = .inside start call (.ask query next) → c.proc.online = true →
      Step broken now c now { c with
        proc := { c.proc.setThread t (.awaiting start call query next) with
          up := c.proc.up ++ [.params query] } }
  | receive {now start : Damanager} {c : Conn β} {t : Nat} {call : Program β} {query : CallParams}
      {next : Except Errno CallResult → Program β} {answer : Except Errno CallResult}
      {down : List (Except Errno CallResult)} :
      c.proc.threads t = .awaiting start call query next → c.proc.down = answer :: down →
      Step broken now c now { c with
        proc := { c.proc.setThread t (.inside start call (next answer)) with down := down } }
  | leave {now start : Damanager} {c : Conn β} {t : Nat} {call : Program β} {value : β} :
      c.proc.threads t = .inside start call (.done value) →
      Step broken now c now { c with proc := c.proc.release t (.returned start call value) }
  | exit {now : Damanager} {c : Conn β} : Step broken now c now { c with proc := c.proc.exit }
  | shut {now : Damanager} {c : Conn β} :
      Step broken now c now { c with proc := { c.proc with shut := true } }
  | drop {now now' : Damanager} {c : Conn β} : c.Lets now now' → c.handler = some .ended →
      Step broken now c now' { c with proc := { c.proc with shut := true }, handler := none }
  | greet {now : Damanager} {c : Conn β} {packet : Packet} {up : List Packet} :
      c.place = .unread → c.proc.up = packet :: up →
      Step broken now c now { c with proc := { c.proc with up := up }, place := .joining }
  | giveUp {now : Damanager} {c : Conn β} : c.place = .unread → c.proc.up = [] →
      c.proc.hungUp = true →
      Step broken now c now { c with place := .away }
  | start {now now' : Damanager} {c : Conn β} : c.Lets now now' → c.place = .joining →
      Step broken now c now' { c with handler := some .polling, place := .away }
  | read {now : Damanager} {c : Conn β} {params : CallParams} {up : List Packet} :
      c.handler = some .polling → c.proc.up = .params params :: up →
      Step broken now c now
        { c with proc := { c.proc with up := up }, handler := some (.received params) }
  | quit {now : Damanager} {c : Conn β} : c.handler = some .polling →
      (broken ∨ c.proc.hungUp = true ∨ ∃ k up, c.proc.up = .pid k :: up) →
      Step broken now c now { c with handler := some .leaving }
  | lock {now : Damanager} {c : Conn β} {params : CallParams} :
      c.handler = some (.received params) →
      Step broken now c now { c with handler := some (.locked params) }
  | serve {now now' : Damanager} {c : Conn β} {params : CallParams}
      {answer : Except Errno CallResult} : c.handler = some (.locked params) →
      Damanager.Answers c.proc.pid params now answer now' → now.Reach now' →
      Step broken now c now' { c with handler := some (.answered answer) }
  | reply {now : Damanager} {c : Conn β} {answer : Except Errno CallResult} :
      c.handler = some (.answered answer) → c.proc.hungUp = false →
      Step broken now c now { c with
        proc := { c.proc with down := c.proc.down ++ [answer] }
        handler := some .polling }
  | unheard {now : Damanager} {c : Conn β} {answer : Except Errno CallResult} :
      c.handler = some (.answered answer) → c.proc.hungUp = true →
      Step broken now c now { c with handler := some .leaving }
  | lockClean {now : Damanager} {c : Conn β} : c.handler = some .leaving →
      Step broken now c now { c with handler := some .cleaning }
  | clean {now now' : Damanager} {c : Conn β} : c.Lets now now' → c.handler = some .cleaning →
      Step broken now c now' { c with handler := some .ended }

/-! ## Threads -/

section Threads

variable {c c' : Conn β} {now now' start : Damanager} {call rest : Program β} {t : Nat}
  {x : LibThread β}

theorem Lets.refl (c : Conn β) (now : Damanager) : c.Lets now now := Or.inl rfl

theorem Lets.reach (h : c.Lets now now') : now.Reach now' := by
  rcases h with rfl | ⟨action, hexec, -⟩
  · exact Runs.refl
  · exact Runs.single trivial hexec

theorem Lets.passes (h : c.Lets now now') (hc : c.seated) :
    Damanager.Passes c.proc.pid now now' := by
  rcases h with rfl | ⟨action, hexec, hby⟩
  · exact Runs.refl
  · exact Runs.single (hby hc) hexec

theorem Story.mono (h : c.Story now start call rest) (hpid : c'.proc.pid = c.proc.pid)
    (hseated : c.seated → c'.seated) (hlets : c.Lets now now') :
    c'.Story now' start call rest := by
  obtain ⟨hreach, hcase⟩ := h
  refine ⟨hreach.trans hlets.reach, hcase.imp_right ?_⟩
  rintro ⟨hc, s, s₁, hs, hresumes, hpasses⟩
  rw [InProgress, hpid]
  exact ⟨hseated hc, s, s₁, hs, hresumes, hpasses.trans (hlets.passes hc)⟩

/-- A thread that is not in the library. -/
theorem Told.outside (h : c.Told now x) (hx : x.holds = false)
    (hpid : c'.proc.pid = c.proc.pid) (hreach : now.Reach now') : c'.Told now' x := by
  cases x with
  | outside => trivial
  | entering start entry => exact Runs.trans h hreach
  | introducing => trivial
  | inside => cases hx
  | awaiting => cases hx
  | returned start call value =>
      obtain ⟨s, log, t, hs, htalk, ht⟩ := h
      rw [Told, hpid]
      exact ⟨s, log, t, hs, htalk, ht.trans hreach⟩

/-- A thread is not disturbed by a step that leaves the answer alone. -/
theorem Told.mono (h : c.Told now x) (hpid : c'.proc.pid = c.proc.pid)
    (hseated : c.seated → c'.seated) (hanswer : c'.answer = c.answer) (hlets : c.Lets now now') :
    c'.Told now' x := by
  cases x with
  | inside start call rest => exact Story.mono h hpid hseated hlets
  | awaiting start call query next =>
      rw [Told, hanswer]
      rw [Told] at h
      cases ha : c.answer with
      | none =>
          rw [ha] at h
          exact h.mono hpid hseated hlets
      | some a =>
          rw [ha] at h
          exact h.mono hpid hseated hlets
  | introducing => trivial
  | outside | entering | returned => exact Told.outside h rfl hpid hlets.reach

/-! ## The lock of the library -/

theorem Ok.holder (h : c.Ok now) (hx : (c.proc.threads t).holds = true) :
    c.proc.mutex = some t := (h.mutex t).mp hx

theorem Ok.free (h : c.Ok now) (hm : c.proc.mutex = none) (t : Nat) :
    (c.proc.threads t).holds = false := by
  by_contra hx
  have := h.holder (by simpa using hx)
  rw [hm] at this
  cases this

/-- Only the thread that has the lock sends or waits. -/
theorem Ok.sole (h : c.Ok now) {t' : Nat} (hx : (c.proc.threads t).holds = true) (hne : t' ≠ t) :
    (c.proc.threads t').holds = false := by
  by_contra hx'
  have hholder := h.holder (t := t') (by simpa using hx')
  rw [h.holder hx] at hholder
  exact hne (Option.some.inj hholder).symm

/-- A process with a thread that runs is not at an end. -/
theorem Ok.alive (h : c.Ok now) (hx : c.proc.threads t ≠ .outside) : c.proc.exited = false := by
  by_contra hex
  exact hx (h.exited (by simpa using hex) t)

theorem Guarded.update {threads : Nat → LibThread β} {mutex mutex' : Option Nat}
    (h : Guarded threads mutex) (hx : x.holds = true ↔ mutex' = some t)
    (hother : ∀ t', t' ≠ t → (mutex = some t' ↔ mutex' = some t')) :
    Guarded (Function.update threads t x) mutex' := by
  intro t'
  by_cases ht' : t' = t
  · rw [ht', Function.update_self]
    exact hx
  · rw [Function.update_of_ne ht', h t']
    exact hother t' ht'

/-- The lock is free, and one thread takes it. -/
theorem Ok.acquire (h : c.Ok now) (hm : c.proc.mutex = none) (hx : x.holds = true) :
    Guarded (Function.update c.proc.threads t x) (some t) := by
  refine h.mutex.update (by simp [hx]) fun t' ht' => ?_
  rw [hm]
  simp [Ne.symm ht']

/-- The thread that has the lock lets it go. -/
theorem Ok.release (h : c.Ok now) (hold : (c.proc.threads t).holds = true)
    (hx : x.holds = false) : Guarded (Function.update c.proc.threads t x) none := by
  refine h.mutex.update (by simp [hx]) fun t' ht' => ?_
  rw [h.holder hold]
  simp [Ne.symm ht']

/-- The thread that has the lock keeps it. -/
theorem Ok.keep (h : c.Ok now) (hold : (c.proc.threads t).holds = true) (hx : x.holds = true) :
    Guarded (Function.update c.proc.threads t x) c.proc.mutex :=
  h.mutex.update (by simp [hx, h.holder hold]) fun _ _ => Iff.rfl

/-- A thread that does not have the lock goes on without it. -/
theorem Ok.idle (h : c.Ok now) (hold : (c.proc.threads t).holds = false) (hx : x.holds = false) :
    Guarded (Function.update c.proc.threads t x) c.proc.mutex := by
  refine h.mutex.update ?_ fun _ _ => Iff.rfl
  rw [← h.mutex t, hold, hx]

theorem asked_of_holder {p : Process β} (hm : p.mutex = some t) :
    p.asked = match p.threads t with
      | .awaiting _ _ query _ => some query
      | _ => none := by
  rw [Process.asked, hm]

theorem asked_of_free {p : Process β} (hm : p.mutex = none) : p.asked = none := by
  rw [Process.asked, hm]

theorem Ok.asked_idle (h : c.Ok now) (hold : (c.proc.threads t).holds = false) :
    (c.proc.setThread t x).asked = c.proc.asked := by
  cases hm : c.proc.mutex with
  | none => rw [asked_of_free hm, asked_of_free (p := c.proc.setThread t x) hm]
  | some t' =>
      have hne : t' ≠ t := by
        rintro rfl
        rw [(h.mutex t').mpr hm] at hold
        cases hold
      rw [asked_of_holder hm, asked_of_holder (p := c.proc.setThread t x) hm]
      simp only [Process.setThread, Function.update_of_ne hne]

theorem asked_keep {p : Process β} (hm : p.mutex = some t) :
    (p.setThread t x).asked = match x with
      | .awaiting _ _ query _ => some query
      | _ => none := by
  rw [asked_of_holder (p := p.setThread t x) hm]
  simp only [Process.setThread, Function.update_self]

/-- The thread that is in the library has sent the process id, if it is not about
to. -/
theorem Ok.not_silent (h : c.Ok now) (hx : (c.proc.threads t).holds = true)
    (hi : c.proc.threads t ≠ .introducing) (hplace : c.place = .unread) : c.proc.up ≠ [] := by
  intro hup
  rcases h.silent hplace hup with hex | ⟨t', ht'⟩
  · rw [h.exited hex t] at hx
    cases hx
  · have hne : t' ≠ t := by
      rintro rfl
      exact hi ht'
    have hidle := h.sole hx hne
    rw [ht'] at hidle
    cases hidle

/-- A thread that waits for an answer has asked for it. -/
theorem Ok.asked_awaiting (h : c.Ok now) {query : CallParams}
    {next : Except Errno CallResult → Program β}
    (hx : c.proc.threads t = .awaiting start call query next) : c.proc.asked = some query := by
  rw [asked_of_holder (h.holder (by rw [hx]; rfl)), hx]

theorem Ok.asked_inside (h : c.Ok now) (hx : c.proc.threads t = .inside start call rest) :
    c.proc.asked = none := by
  rw [asked_of_holder (h.holder (by rw [hx]; rfl)), hx]

/-- What a process has asked for is what one of its threads waits for. -/
theorem Ok.asked_eq_some (h : c.Ok now) {query : CallParams} :
    c.proc.asked = some query ↔
      ∃ t start call next, c.proc.threads t = .awaiting start call query next := by
  constructor
  · intro hq
    cases hm : c.proc.mutex with
    | none =>
        rw [asked_of_free hm] at hq
        cases hq
    | some t =>
        rw [asked_of_holder hm] at hq
        split at hq
        next start call query' next hx =>
          cases hq
          exact ⟨t, start, call, next, hx⟩
        next => cases hq
  · rintro ⟨t, start, call, next, hx⟩
    exact h.asked_awaiting hx

/-- A connection that has a thread does not wait. -/
theorem Ok.away (h : c.Ok now) {y : HandlerState} (hy : c.handler = some y) : c.place = .away := by
  by_contra hplace
  rw [(h.queued hplace).2.1] at hy
  cases hy

/-- A connection that has a thread is open, unless the process hung up. -/
theorem Ok.online (h : c.Ok now) {y : HandlerState} (hy : c.handler = some y)
    (hhung : c.proc.hungUp = false) : c.proc.online = true := by
  have hsocket : c.proc.socket ≠ .unopened := by
    intro hs
    rw [(h.unopened hs).2.2] at hy
    cases hy
  unfold Process.online
  unfold Process.hungUp at hhung
  cases hs : c.proc.socket with
  | unopened => exact absurd hs hsocket
  | opened => simpa [hs] using hhung
  | closed => simp [hs] at hhung

theorem not_online {p : Process β} (h : p.hungUp = true) : p.online = false := by
  unfold Process.hungUp at h
  unfold Process.online
  cases hs : p.socket with
  | unopened => rfl
  | opened => simpa [hs] using h
  | closed => rfl

/-- A thread that waits for an answer is on an open connection. -/
theorem Ok.online_of_awaiting (h : c.Ok now) {query : CallParams}
    {next : Except Errno CallResult → Program β}
    (hx : c.proc.threads t = .awaiting start call query next) : c.proc.online = true :=
  h.awaiting query (h.asked_awaiting hx)

end Threads

/-! ## Steps of the process -/

section Process

variable {c : Conn β} {now start : Damanager} {call rest : Program β} {t : Nat} {x : LibThread β}

theorem told_update {c' : Conn β} {threads : Nat → LibThread β} (hx : c'.Told now x)
    (hother : ∀ t', t' ≠ t → c'.Told now (threads t')) :
    ∀ t', c'.Told now (Function.update threads t x t') :=
  (Function.forall_update_iff threads fun _ y => c'.Told now y).mpr ⟨hx, hother⟩

theorem introducing_update {threads : Nat → LibThread β} {P : Prop} (hx : x = .introducing → P)
    (hother : ∀ t', t' ≠ t → threads t' = .introducing → P) :
    ∀ t', Function.update threads t x t' = .introducing → P :=
  (Function.forall_update_iff threads fun _ y => y = .introducing → P).mpr ⟨hx, hother⟩

/-- A thread goes on outside of the library. -/
theorem Ok.move (h : c.Ok now) (hold : (c.proc.threads t).holds = false) (hx : x.holds = false)
    (halive : c.proc.exited = false) (htold : c.Told now x) :
    Ok { c with proc := c.proc.setThread t x } now where
  mutex := h.idle hold hx
  exited := fun hex => absurd hex (by simp [Process.setThread, halive])
  unopened := h.unopened
  queued := h.queued
  introducing := by
    refine introducing_update (fun hi => ?_) fun t' _ => h.introducing t'
    rw [hi] at hx
    cases hx
  silent := by
    intro hplace hup
    refine (h.silent hplace hup).imp_right ?_
    rintro ⟨t', ht'⟩
    have hne : t' ≠ t := by
      rintro rfl
      rw [ht'] at hold
      cases hold
    exact ⟨t', (Function.update_of_ne hne _ _).trans ht'⟩
  greeting := h.greeting
  plain := h.plain
  awaiting := by
    intro q hq
    exact h.awaiting q ((h.asked_idle hold).symm.trans hq)
  exchange := by
    intro honline
    have hasked := h.asked_idle (x := x) hold
    show Exchanged (c.proc.setThread t x).asked _ _ _
    rw [hasked]
    exact h.exchange honline
  told := by
    have hmono : ∀ {y : LibThread β}, c.Told now y →
        Told { c with proc := c.proc.setThread t x } now y :=
      fun hy => hy.mono rfl (fun hc => hc) rfl (Lets.refl c now)
    exact told_update (hmono htold) fun t' _ => hmono (h.told t')

/-- No thread is about to send the process id while the lock is free. -/
theorem Ok.no_introducing (h : c.Ok now) (hm : c.proc.mutex = none) (t : Nat) :
    c.proc.threads t ≠ .introducing := by
  intro hi
  have hfree := h.free hm t
  rw [hi] at hfree
  cases hfree

theorem Ok.inside (h : c.Ok now) (hm : c.proc.mutex = none)
    (ht : c.proc.threads t = .entering start (.call call)) :
    Ok { c with proc := { c.proc.setThread t (.inside start call call) with mutex := some t } }
      now where
  mutex := h.acquire hm rfl
  exited := fun hex => absurd hex (by simp [Process.setThread, h.alive (t := t) (by simp [ht])])
  unopened := h.unopened
  queued := h.queued
  introducing := introducing_update (fun hi => by cases hi) fun t' _ => h.introducing t'
  silent := by
    intro hplace hup
    refine (h.silent hplace hup).imp_right ?_
    rintro ⟨t', ht'⟩
    exact absurd ht' (h.no_introducing hm t')
  greeting := h.greeting
  plain := h.plain
  awaiting := by
    intro q hq
    rw [Process.asked] at hq
    simp [Process.setThread] at hq
  exchange := by
    intro honline
    have hex := h.exchange honline
    rw [asked_of_free hm] at hex
    rw [Process.asked]
    simpa [Process.setThread] using hex
  told := by
    have htold := h.told t
    rw [ht] at htold
    exact told_update ⟨htold, Or.inl rfl⟩ fun t' _ =>
      (h.told t').outside (h.free hm t') rfl Runs.refl

theorem Ok.connect (h : c.Ok now) (hm : c.proc.mutex = none)
    (ht : c.proc.threads t = .entering start .init) (hs : c.proc.socket = .unopened) :
    Ok { c with
      proc := { c.proc.setThread t .introducing with mutex := some t, socket := .opened }
      place := .unread } now := by
  obtain ⟨hup, hdown, hhandler⟩ := h.unopened hs
  have halive := h.alive (t := t) (by simp [ht])
  exact {
    mutex := h.acquire hm rfl
    exited := fun hex => absurd hex (by simp [Process.setThread, halive])
    unopened := fun hs' => by cases hs'
    queued := fun _ => ⟨by simp, hhandler, hdown⟩
    introducing := by
      refine introducing_update (fun _ => ⟨rfl, hup, ?_⟩) fun t' _ hi =>
        absurd hi (h.no_introducing hm t')
      simp [Process.online, Process.setThread, halive]
    silent := fun _ _ => Or.inr ⟨t, Function.update_self ..⟩
    greeting := by
      intro _ packet up hcons
      rw [show c.proc.up = packet :: up from hcons] at hup
      cases hup
    plain := fun hplace => absurd rfl hplace
    awaiting := by
      intro q hq
      rw [Process.asked] at hq
      simp [Process.setThread] at hq
    exchange := by
      intro _
      rw [Process.asked]
      simp only [Process.setThread, Function.update_self, hup, hdown, hhandler]
      exact .nothing rfl
    told := told_update trivial fun t' _ => (h.told t').outside (h.free hm t') rfl Runs.refl }

theorem Ok.close (h : c.Ok now) {entry : LibEntry β} (hm : c.proc.mutex = none)
    (ht : c.proc.threads t = .entering start entry) :
    Ok { c with proc := { c.proc.setThread t .outside with socket := .closed } } now where
  mutex := h.idle (h.free hm t) rfl
  exited := fun hex => absurd hex (by simp [Process.setThread, h.alive (t := t) (by simp [ht])])
  unopened := fun hs => by cases hs
  queued := fun hplace => ⟨by simp, (h.queued hplace).2⟩
  introducing := introducing_update (fun hi => by cases hi) fun t' _ hi =>
    absurd hi (h.no_introducing hm t')
  silent := by
    intro hplace hup
    refine (h.silent hplace hup).imp_right ?_
    rintro ⟨t', ht'⟩
    exact absurd ht' (h.no_introducing hm t')
  greeting := h.greeting
  plain := h.plain
  awaiting := by
    intro q hq
    rw [asked_of_free (p := { c.proc.setThread t .outside with socket := .closed }) hm] at hq
    cases hq
  exchange := fun honline => by simp [Process.online] at honline
  told := told_update trivial fun t' _ => (h.told t').outside (h.free hm t') rfl Runs.refl

theorem Ok.introduce (h : c.Ok now) (ht : c.proc.threads t = .introducing) :
    Ok { c with proc := { c.proc.release t .outside with up := c.proc.up ++ [.pid c.proc.pid] } }
      now := by
  obtain ⟨hplace, hup, honline⟩ := h.introducing t ht
  have hold : (c.proc.threads t).holds = true := by rw [ht]; rfl
  exact {
    mutex := h.release hold rfl
    exited := fun hex =>
      absurd hex (by simp [Process.release, Process.setThread, h.alive (t := t) (by simp [ht])])
    unopened := fun hs => by
      rw [Process.online, show c.proc.socket = .unopened from hs] at honline
      cases honline
    queued := h.queued
    introducing := by
      refine introducing_update (fun hi => by cases hi) fun t' hne hi => ?_
      have hidle := h.sole hold hne
      rw [hi] at hidle
      cases hidle
    silent := fun _ hnil => absurd hnil (by simp)
    greeting := by
      intro _ packet up hcons
      simp only [hup, List.nil_append, List.cons.injEq] at hcons
      exact ⟨hcons.1.symm, by simp [← hcons.2]⟩
    plain := fun hne => absurd hplace hne
    awaiting := fun q hq => by cases hq
    exchange := by
      intro _
      have hex := h.exchange honline
      rw [asked_of_holder (h.holder hold), ht, hup] at hex
      rw [hup]
      exact hex
    told := told_update trivial fun t' hne =>
      (h.told t').outside (h.sole hold hne) rfl Runs.refl }

/-- There is nothing under way while the process asks for nothing. -/
theorem exchanged_none {reqs : List CallParams} {y : Option HandlerState}
    {down : List (Except Errno CallResult)} (h : Exchanged none reqs y down) :
    reqs = [] ∧ HandlerState.quiet y = true ∧ down = [] := by
  cases h with
  | nothing hquiet => exact ⟨rfl, hquiet, rfl⟩

/-- The thread of the manager has no answer if it has nothing to do. -/
theorem answer_of_quiet (h : HandlerState.quiet c.handler = true) :
    c.answer = c.proc.down.head? := by
  unfold answer
  split
  next a ha =>
    rw [ha] at h
    cases h
  next => rfl

theorem told_unanswered {c' : Conn β} {query : CallParams}
    {next : Except Errno CallResult → Program β} (ha : c'.answer = none)
    (h : c'.Story now start call (.ask query next)) :
    c'.Told now (.awaiting start call query next) := by
  rw [Told, ha]
  exact h

theorem Ok.send (h : c.Ok now) {query : CallParams} {next : Except Errno CallResult → Program β}
    (ht : c.proc.threads t = .inside start call (.ask query next))
    (honline : c.proc.online = true) :
    Ok { c with
      proc := { c.proc.setThread t (.awaiting start call query next) with
        up := c.proc.up ++ [.params query] } } now := by
  have hold : (c.proc.threads t).holds = true := by rw [ht]; rfl
  have hex := h.exchange honline
  rw [h.asked_inside ht] at hex
  obtain ⟨hreqs, hquiet, hdown⟩ := exchanged_none hex
  exact {
    mutex := h.keep hold rfl
    exited := fun hexit =>
      absurd hexit (by simp [Process.setThread, h.alive (t := t) (by simp [ht])])
    unopened := fun hs => by
      rw [Process.online, show c.proc.socket = .unopened from hs] at honline
      cases honline
    queued := h.queued
    introducing := by
      refine introducing_update (fun hi => by cases hi) fun t' hne hi => ?_
      have hidle := h.sole hold hne
      rw [hi] at hidle
      cases hidle
    silent := fun _ hnil => absurd hnil (by simp)
    greeting := by
      intro hplace packet up hcons
      have hup := h.not_silent hold (by simp [ht]) hplace
      obtain ⟨packet', up', hup'⟩ := List.exists_cons_of_ne_nil hup
      simp only [hup', List.cons_append, List.cons.injEq] at hcons
      obtain ⟨hpid, hrest⟩ := h.greeting hplace packet' up' hup'
      refine ⟨hcons.1 ▸ hpid, fun pid => ?_⟩
      simp [← hcons.2, hrest pid]
    plain := fun hplace pid => by simp [h.plain hplace pid]
    awaiting := fun _ _ => honline
    exchange := by
      intro _
      have hasked := asked_keep (p := c.proc) (x := .awaiting start call query next) (h.holder hold)
      show Exchanged (c.proc.setThread t (.awaiting start call query next)).asked _ _ c.proc.down
      rw [hasked, requests_append, hreqs, hdown]
      exact .sent hquiet
    told := by
      refine told_update ?_ fun t' hne => (h.told t').outside (h.sole hold hne) rfl Runs.refl
      have htold := h.told t
      rw [ht] at htold
      exact told_unanswered ((answer_of_quiet hquiet).trans (congrArg List.head? hdown))
        (Story.mono htold rfl (fun hc => hc) (Lets.refl c now)) }

theorem Ok.receive (h : c.Ok now) {query : CallParams} {next : Except Errno CallResult → Program β}
    {answer : Except Errno CallResult} {down : List (Except Errno CallResult)}
    (ht : c.proc.threads t = .awaiting start call query next)
    (hdown : c.proc.down = answer :: down) :
    Ok { c with
      proc := { c.proc.setThread t (.inside start call (next answer)) with down := down } }
      now := by
  have hold : (c.proc.threads t).holds = true := by rw [ht]; rfl
  have honline := h.online_of_awaiting ht
  have hex := h.exchange honline
  rw [h.asked_awaiting ht, hdown] at hex
  obtain ⟨hreqs, hquiet, rfl⟩ : requests c.proc.up = [] ∧ HandlerState.quiet c.handler = true ∧
      down = [] := by
    generalize requests c.proc.up = reqs, c.handler = y at hex
    cases hex with
    | delivered hquiet => exact ⟨rfl, hquiet, rfl⟩
  exact {
    mutex := h.keep hold rfl
    exited := fun hexit =>
      absurd hexit (by simp [Process.setThread, h.alive (t := t) (by simp [ht])])
    unopened := fun hs => by
      rw [Process.online, show c.proc.socket = .unopened from hs] at honline
      cases honline
    queued := fun hplace => by
      have := (h.queued hplace).2.2
      rw [hdown] at this
      cases this
    introducing := by
      refine introducing_update (fun hi => by cases hi) fun t' hne hi => ?_
      have hidle := h.sole hold hne
      rw [hi] at hidle
      cases hidle
    silent := fun hplace hup => absurd hup (h.not_silent hold (by simp [ht]) hplace)
    greeting := h.greeting
    plain := h.plain
    awaiting := fun _ _ => honline
    exchange := by
      intro _
      have hasked := asked_keep (p := c.proc) (x := .inside start call (next answer))
        (h.holder hold)
      show Exchanged (c.proc.setThread t (.inside start call (next answer))).asked
        (requests c.proc.up) c.handler []
      rw [hasked, hreqs]
      exact .nothing hquiet
    told := by
      refine told_update ?_ fun t' hne => (h.told t').outside (h.sole hold hne) rfl Runs.refl
      have htold := h.told t
      rw [ht, Told, answer_of_quiet hquiet, hdown] at htold
      exact htold.mono rfl (fun hc => hc) (Lets.refl c now) }

/-- A call that has nothing left to do was a dialogue. -/
theorem Story.returned {value : β} (h : c.Story now start call (.done value)) :
    Returned c.proc.pid now start call value := by
  obtain ⟨hreach, rfl | ⟨-, s, s₁, hs, hresumes, hpasses⟩⟩ := h
  · exact ⟨now, [], now, hreach, .done, Runs.refl⟩
  · obtain ⟨log, htalk⟩ := hresumes.done
    exact ⟨s, log, s₁, hs, htalk, hpasses.mono fun _ _ _ => trivial⟩

theorem Ok.leave (h : c.Ok now) {value : β}
    (ht : c.proc.threads t = .inside start call (.done value)) :
    Ok { c with proc := c.proc.release t (.returned start call value) } now := by
  have hold : (c.proc.threads t).holds = true := by rw [ht]; rfl
  exact {
    mutex := h.release hold rfl
    exited := fun hexit => absurd hexit
      (by simp [Process.release, Process.setThread, h.alive (t := t) (by simp [ht])])
    unopened := h.unopened
    queued := h.queued
    introducing := introducing_update (fun hi => by cases hi) fun t' _ => h.introducing t'
    silent := fun hplace hup => absurd hup (h.not_silent hold (by simp [ht]) hplace)
    greeting := h.greeting
    plain := h.plain
    awaiting := fun q hq => by cases hq
    exchange := by
      intro honline
      have hex := h.exchange honline
      rw [h.asked_inside ht] at hex
      exact hex
    told := by
      refine told_update ?_ fun t' hne => (h.told t').outside (h.sole hold hne) rfl Runs.refl
      have htold := h.told t
      rw [ht] at htold
      exact htold.returned }

theorem Ok.exit (h : c.Ok now) : Ok { c with proc := c.proc.exit } now where
  mutex := fun t => by simp [Process.exit, LibThread.holds]
  exited := fun _ _ => rfl
  unopened := h.unopened
  queued := h.queued
  introducing := fun t ht => by cases ht
  silent := fun _ _ => Or.inl rfl
  greeting := h.greeting
  plain := h.plain
  awaiting := fun q hq => by cases hq
  exchange := fun honline => by simp [Process.online, Process.exit] at honline
  told := fun _ => trivial

theorem Ok.shut (h : c.Ok now) : Ok { c with proc := { c.proc with shut := true } } now where
  mutex := h.mutex
  exited := h.exited
  unopened := h.unopened
  queued := h.queued
  introducing := h.introducing
  silent := h.silent
  greeting := h.greeting
  plain := h.plain
  awaiting := h.awaiting
  exchange := h.exchange
  told := fun t => (h.told t).mono rfl (fun hc => hc) rfl (Lets.refl c now)

end Process

/-! ## Steps of the manager -/

section Manager

variable {c c' : Conn β} {now now' start : Damanager} {call rest : Program β} {t : Nat}
  {x : HandlerState} {query : CallParams} {next : Except Errno CallResult → Program β}
  {a : Except Errno CallResult}

theorem Ok.same (h : c.Ok now) (hlets : c.Lets now now') : c.Ok now' where
  mutex := h.mutex
  exited := h.exited
  unopened := h.unopened
  queued := h.queued
  introducing := h.introducing
  silent := h.silent
  greeting := h.greeting
  plain := h.plain
  awaiting := h.awaiting
  exchange := h.exchange
  told := fun t => (h.told t).mono rfl (fun hc => hc) rfl hlets

theorem exchanged_quiet {asked : Option CallParams} {reqs : List CallParams}
    {y y' : Option HandlerState} {down : List (Except Errno CallResult)}
    (h : Exchanged asked reqs y down) (hy : HandlerState.quiet y = true)
    (hy' : HandlerState.quiet y' = true) : Exchanged asked reqs y' down := by
  cases h with
  | nothing => exact .nothing hy'
  | sent => exact .sent hy'
  | received | locked | answered => cases hy
  | delivered => exact .delivered hy'

/-- The thread of the manager goes on. -/
theorem Ok.advance (h : c.Ok now) {y : Option HandlerState} (up : List Packet)
    (down : List (Except Errno CallResult)) (hx : c.handler = some x)
    (hup : ∀ packet ∈ up, packet ∈ c.proc.up)
    (hex : c.proc.online = true → Exchanged c.proc.asked (requests up) y down)
    (htold : ∀ t, Told { c with proc := { c.proc with up := up, down := down }, handler := y } now'
      (c.proc.threads t)) :
    Ok { c with proc := { c.proc with up := up, down := down }, handler := y } now' := by
  have haway := h.away hx
  exact {
    mutex := h.mutex
    exited := h.exited
    unopened := fun hs => by
      rw [(h.unopened hs).2.2] at hx
      cases hx
    queued := fun hplace => absurd haway hplace
    introducing := fun t ht => by
      rw [(h.introducing t ht).1] at haway
      cases haway
    silent := fun hplace => by cases haway.symm.trans hplace
    greeting := fun hplace => by cases haway.symm.trans hplace
    plain := fun hplace pid hmem => h.plain hplace pid (hup _ hmem)
    awaiting := h.awaiting
    exchange := hex
    told := htold }

/-- The thread of the manager goes on with nothing to do, or ends. -/
theorem Ok.quiet (h : c.Ok now) {y : Option HandlerState} (hx : c.handler = some x)
    (hquiet : HandlerState.quiet (some x) = true) (hy : HandlerState.quiet y = true)
    (hlets : c.Lets now now') : Ok { c with handler := y } now' := by
  rw [← hx] at hquiet
  refine h.advance c.proc.up c.proc.down hx (fun _ hmem => hmem)
    (fun honline => exchanged_quiet (h.exchange honline) hquiet hy) fun t => ?_
  exact (h.told t).mono rfl (fun hc => hc)
    ((answer_of_quiet (c := ⟨c.proc, y, c.place⟩) hy).trans (answer_of_quiet hquiet).symm) hlets

theorem Ok.drop (h : c.Ok now) (hlets : c.Lets now now') (hx : c.handler = some .ended) :
    Ok { c with proc := { c.proc with shut := true }, handler := none } now' :=
  (h.quiet (y := none) hx rfl rfl hlets).shut

theorem Ok.greet (h : c.Ok now) {packet : Packet} {up : List Packet} (hplace : c.place = .unread)
    (hup : c.proc.up = packet :: up) :
    Ok { c with proc := { c.proc with up := up }, place := .joining } now := by
  obtain ⟨hpacket, hrest⟩ := h.greeting hplace packet up hup
  obtain ⟨hsocket, hhandler, hdown⟩ := h.queued (by simp [hplace])
  exact {
    mutex := h.mutex
    exited := h.exited
    unopened := fun hs => absurd hs hsocket
    queued := fun _ => ⟨hsocket, hhandler, hdown⟩
    introducing := fun t ht => by
      have hnil := (h.introducing t ht).2.1
      rw [hup] at hnil
      cases hnil
    silent := fun hp => by cases hp
    greeting := fun hp => by cases hp
    plain := fun _ => hrest
    awaiting := h.awaiting
    exchange := fun honline => by
      have hex := h.exchange honline
      rw [hup, hpacket, requests_pid] at hex
      exact hex
    told := by
      intro t
      refine (h.told t).mono rfl (fun hc => ?_) rfl (Lets.refl c now)
      rw [hc.2] at hplace
      cases hplace }

theorem Ok.giveUp (h : c.Ok now) (hplace : c.place = .unread) (hup : c.proc.up = [])
    (hhung : c.proc.hungUp = true) : Ok { c with place := .away } now := by
  have honline := not_online hhung
  exact {
    mutex := h.mutex
    exited := h.exited
    unopened := h.unopened
    queued := fun hp => absurd rfl hp
    introducing := fun t ht => by
      rw [(h.introducing t ht).2.2] at honline
      cases honline
    silent := fun hp => by cases hp
    greeting := fun hp => by cases hp
    plain := fun _ pid => by simp [hup]
    awaiting := h.awaiting
    exchange := h.exchange
    told := by
      intro t
      refine (h.told t).mono rfl (fun hc => ?_) rfl (Lets.refl c now)
      rw [hc.2] at hplace
      cases hplace }

theorem Ok.seat (h : c.Ok now) (hlets : c.Lets now now') (hplace : c.place = .joining) :
    Ok { c with handler := some .polling, place := .away } now' := by
  obtain ⟨hsocket, hhandler, hdown⟩ := h.queued (by simp [hplace])
  exact {
    mutex := h.mutex
    exited := h.exited
    unopened := fun hs => absurd hs hsocket
    queued := fun hp => absurd rfl hp
    introducing := fun t ht => by
      rw [(h.introducing t ht).1] at hplace
      cases hplace
    silent := fun hp => by cases hp
    greeting := fun hp => by cases hp
    plain := fun _ => h.plain (by simp [hplace])
    awaiting := h.awaiting
    exchange := fun honline =>
      exchanged_quiet (h.exchange honline) (by rw [hhandler]; rfl) rfl
    told := by
      intro t
      refine (h.told t).mono rfl (fun hc => ?_) ?_ hlets
      · rw [hc.2] at hplace
        cases hplace
      · simp only [answer, hhandler] }

theorem Ok.read (h : c.Ok now) {params : CallParams} {up : List Packet}
    (hx : c.handler = some .polling) (hup : c.proc.up = .params params :: up) :
    Ok { c with proc := { c.proc with up := up }, handler := some (.received params) } now := by
  refine h.advance up c.proc.down hx (fun packet hmem => by simp [hup, hmem])
    (fun honline => ?_) fun t => ?_
  · have hex := h.exchange honline
    rw [hx, hup, requests_params] at hex
    generalize c.proc.asked = asked, requests up = reqs, c.proc.down = down at hex ⊢
    cases hex with
    | sent => exact .received
  · refine (h.told t).mono rfl (fun hc => hc) ?_ (Lets.refl c now)
    simp only [answer, hx]

theorem Ok.lock (h : c.Ok now) {params : CallParams} (hx : c.handler = some (.received params)) :
    Ok { c with handler := some (.locked params) } now := by
  refine h.advance c.proc.up c.proc.down hx (fun _ hmem => hmem)
    (fun honline => ?_) fun t => ?_
  · have hex := h.exchange honline
    rw [hx] at hex
    generalize c.proc.asked = asked, requests c.proc.up = reqs, c.proc.down = down at hex ⊢
    cases hex with
    | received => exact .locked
    | nothing hquiet | sent hquiet | delivered hquiet => cases hquiet
  · refine (h.told t).mono rfl (fun hc => hc) ?_ (Lets.refl c now)
    simp only [answer, hx]

/-- The request that comes next in a call is served. -/
theorem Story.ask (h : c.Story now start call (.ask query next)) (hpid : c'.proc.pid = c.proc.pid)
    (hseated : c'.seated) (hserve : Damanager.Answers c.proc.pid query now a now')
    (hreach : now.Reach now') : c'.Story now' start call (next a) := by
  obtain ⟨hstart, hcase⟩ := h
  refine ⟨hstart.trans hreach, Or.inr ⟨hseated, ?_⟩⟩
  rw [InProgress, hpid]
  rcases hcase with rfl | ⟨-, s, s₁, hs, hresumes, hpasses⟩
  · exact ⟨now, now', hstart, (Resumes.refl _ now).ask Runs.refl hserve, Runs.refl⟩
  · exact ⟨s, now', hs, hresumes.ask hpasses hserve, Runs.refl⟩

/-- The request a thread of the manager serves is the one the process waits for, unless
the process hung up before. -/
theorem Ok.asked_locked (h : c.Ok now) {params : CallParams}
    (hx : c.handler = some (.locked params)) (honline : c.proc.online = true) :
    c.proc.asked = some params ∧ requests c.proc.up = [] ∧ c.proc.down = [] := by
  have hex := h.exchange honline
  rw [hx] at hex
  generalize c.proc.asked = asked, requests c.proc.up = reqs, c.proc.down = down at hex ⊢
  cases hex with
  | locked => exact ⟨rfl, rfl, rfl⟩
  | nothing hquiet | sent hquiet | delivered hquiet => cases hquiet

theorem Ok.asked_answered (h : c.Ok now) (hx : c.handler = some (.answered a))
    (honline : c.proc.online = true) :
    (∃ q, c.proc.asked = some q) ∧ requests c.proc.up = [] ∧ c.proc.down = [] := by
  have hex := h.exchange honline
  rw [hx] at hex
  generalize c.proc.asked = asked, requests c.proc.up = reqs, c.proc.down = down at hex ⊢
  cases hex with
  | answered => exact ⟨⟨_, rfl⟩, rfl, rfl⟩
  | nothing hquiet | sent hquiet | delivered hquiet => cases hquiet

theorem Ok.serve (h : c.Ok now) {params : CallParams} (hx : c.handler = some (.locked params))
    (hserve : Damanager.Answers c.proc.pid params now a now') (hreach : now.Reach now') :
    Ok { c with handler := some (.answered a) } now' := by
  refine h.advance c.proc.up c.proc.down hx (fun _ hmem => hmem)
    (fun honline => ?_) fun t => ?_
  · obtain ⟨hasked, hreqs, hdown⟩ := h.asked_locked hx honline
    rw [hasked, hreqs, hdown]
    exact .answered
  · have htold := h.told t
    cases ht : c.proc.threads t with
    | introducing => trivial
    | outside | entering | returned =>
        rw [ht] at htold
        exact htold.outside rfl rfl hreach
    | inside start call rest =>
        rw [ht] at htold
        -- no thread is at work between two requests, so this one has not begun
        obtain ⟨hstart, rfl | ⟨⟨honline, -⟩, -⟩⟩ := htold
        · exact ⟨hstart.trans hreach, Or.inl rfl⟩
        · have hasked := (h.asked_locked hx honline).1
          rw [h.asked_inside ht] at hasked
          cases hasked
    | awaiting start call query next =>
        have honline := h.online_of_awaiting ht
        obtain ⟨hasked, -, hdown⟩ := h.asked_locked hx honline
        rw [h.asked_awaiting ht] at hasked
        cases hasked
        have hanswer : c.answer = none := by simp [answer, hx, hdown]
        rw [ht, Told, hanswer] at htold
        exact Story.ask htold rfl ⟨honline, h.away hx⟩ hserve hreach

theorem Ok.reply (h : c.Ok now) (hx : c.handler = some (.answered a))
    (hhung : c.proc.hungUp = false) :
    Ok { c with
      proc := { c.proc with down := c.proc.down ++ [a] }
      handler := some .polling } now := by
  obtain ⟨⟨q, hasked⟩, hreqs, hdown⟩ := h.asked_answered hx (h.online hx hhung)
  refine h.advance c.proc.up (c.proc.down ++ [a]) hx (fun _ hmem => hmem) (fun _ => ?_)
    fun t => ?_
  · rw [hasked, hreqs, hdown]
    exact .delivered rfl
  · refine (h.told t).mono rfl (fun hc => hc) ?_ (Lets.refl c now)
    simp only [answer, hx, hdown, List.nil_append, List.head?_cons]

theorem Ok.unheard (h : c.Ok now) (hx : c.handler = some (.answered a))
    (hhung : c.proc.hungUp = true) : Ok { c with handler := some .leaving } now := by
  have hoffline := not_online hhung
  refine h.advance c.proc.up c.proc.down hx (fun _ hmem => hmem)
    (fun honline => ?_) fun t => ?_
  · rw [hoffline] at honline
    cases honline
  · have htold := h.told t
    cases ht : c.proc.threads t with
    | introducing => trivial
    | outside | entering | returned =>
        rw [ht] at htold
        exact htold.outside rfl rfl Runs.refl
    | inside start call rest =>
        rw [ht] at htold
        exact Story.mono htold rfl (fun hc => hc) (Lets.refl c now)
    | awaiting start call query next =>
        rw [h.online_of_awaiting ht] at hoffline
        cases hoffline

/-- Every step of a connection keeps the invariant. -/
theorem Step.ok {broken : Prop} (hstep : Step broken now c now' c') (h : c.Ok now) :
    c'.Ok now' := by
  cases hstep with
  | same hlets => exact h.same hlets
  | enter halive hidle =>
      refine h.move ?_ rfl halive Runs.refl
      revert hidle
      cases c.proc.threads _ <;> simp [LibThread.idle, LibThread.holds]
  | call hm ht => exact h.inside hm ht
  | connect hm ht hs => exact h.connect hm ht hs
  | skip hm ht =>
      have halive := h.alive (by rw [ht]; simp)
      exact h.move (h.free hm _) rfl halive trivial
  | close hm ht => exact h.close hm ht
  | introduce ht => exact h.introduce ht
  | send ht honline => exact h.send ht honline
  | receive ht hdown => exact h.receive ht hdown
  | leave ht => exact h.leave ht
  | exit => exact h.exit
  | shut => exact h.shut
  | drop hlets hx => exact h.drop hlets hx
  | greet hplace hup => exact h.greet hplace hup
  | giveUp hplace hup hhung => exact h.giveUp hplace hup hhung
  | start hlets hplace => exact h.seat hlets hplace
  | read hx hup => exact h.read hx hup
  | quit hx => exact h.quiet hx rfl rfl (Lets.refl c now)
  | lock hx => exact h.lock hx
  | serve hx hserve hreach => exact h.serve hx hserve hreach
  | reply hx hhung => exact h.reply hx hhung
  | unheard hx hhung => exact h.unheard hx hhung
  | lockClean hx => exact h.quiet hx rfl rfl (Lets.refl c now)
  | clean hlets hx => exact h.quiet hx rfl rfl hlets

end Manager

/-! ## Steps and the manager -/

section Steps

variable {c c' : Conn β} {now now' : Damanager} {broken : Prop}

/-- The manager takes some steps. -/
theorem Step.reach (hstep : Step broken now c now' c') : now.Reach now' := by
  cases hstep with
  | same hlets | drop hlets | start hlets | clean hlets => exact hlets.reach
  | serve _ _ hreach => exact hreach
  | _ => exact Runs.refl

/-- An open connection that does not wait is served. -/
def Served (c : Conn β) : Prop := c.seated → ∃ x, c.handler = some x ∧ x.serves = true

theorem Served.not_seated (h : c.Served) {x : HandlerState} (hx : c.handler = some x)
    (hserves : x.serves = false) : ¬ c.seated := by
  intro hc
  obtain ⟨y, hy, hserves'⟩ := h hc
  rw [hx] at hy
  cases hy
  rw [hserves] at hserves'
  cases hserves'

/-- As long as the manager is not broken, it only stops to serve a process that hung
up. -/
theorem Step.served (hstep : Step broken now c now' c') (hbroken : ¬ broken) (hok : c.Ok now)
    (h : c.Served) : c'.Served := by
  cases hstep with
  | same | enter | call | skip | shut => exact h
  | introduce | send | receive | leave => exact h
  | connect => exact fun hc => by cases hc.2
  | close => exact fun hc => by simp [seated, Process.online] at hc
  | exit => exact fun hc => by simp [seated, Process.online, Process.exit] at hc
  | drop _ hx => exact fun hc => absurd hc (h.not_seated hx rfl)
  | greet => exact fun hc => by cases hc.2
  | giveUp _ _ hhung =>
      intro hc
      have honline := hc.1
      rw [not_online hhung] at honline
      cases honline
  | start => exact fun _ => ⟨_, rfl, rfl⟩
  | read | lock | serve | reply => exact fun _ => ⟨_, rfl, rfl⟩
  | quit hx hwhy =>
      intro hc
      rcases hwhy with hbroken' | hhung | ⟨k, up, hup⟩
      · exact absurd hbroken' hbroken
      · have honline := hc.1
        rw [not_online hhung] at honline
        cases honline
      · have hplain := hok.plain (by rw [hok.away hx]; simp) k
        rw [hup] at hplain
        exact absurd List.mem_cons_self hplain
  | unheard _ hhung =>
      intro hc
      have honline := hc.1
      rw [not_online hhung] at honline
      cases honline
  | lockClean hx => exact fun hc => absurd hc (h.not_seated hx rfl)
  | clean _ hx => exact fun hc => absurd hc (h.not_seated hx rfl)

theorem start_update {threads : Nat → LibThread β} {t t' : Nat} {x : LibThread β}
    {start : Damanager} (h : (Function.update threads t x t').start = some start) :
    x.start = some start ∨ (threads t').start = some start := by
  by_cases ht : t' = t
  · rw [ht, Function.update_self] at h
    exact Or.inl h
  · rw [Function.update_of_ne ht] at h
    exact Or.inr h

/-- A call begins now, or it had begun before. -/
theorem Step.begun (hstep : Step broken now c now' c') {t : Nat} {start : Damanager}
    (h : (c'.proc.threads t).start = some start) :
    start = now ∨ ∃ t', (c.proc.threads t').start = some start := by
  cases hstep with
  | enter =>
      rcases start_update h with hx | hx
      · exact Or.inl (Option.some.inj hx).symm
      · exact Or.inr ⟨_, hx⟩
  | call _ ht | send ht | receive ht | leave ht =>
      rcases start_update h with hx | hx
      · exact Or.inr ⟨_, by rw [ht]; exact hx⟩
      · exact Or.inr ⟨_, hx⟩
  | connect | skip | close | introduce =>
      rcases start_update h with hx | hx
      · cases hx
      · exact Or.inr ⟨_, hx⟩
  | exit => cases h
  | _ => exact Or.inr ⟨t, h⟩

end Steps

end Conn

end Conn

end DASim
