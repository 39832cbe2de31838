import DASim.Protocol.Registry

/-!
# What holds in every order of steps

A step of the system is one step for every connection (`Step.follows`), so what the
connections keep holds in all reachable states.

* A call of the library is a dialogue with the manager, although other processes are
  served meanwhile (`calls_are_dialogues`).
* The tables are changed by one thread at a time (`one_thread_inside`).
-/

namespace DASim

section Threads

variable {β : Type}

/-- The thread has not come to its end. -/
def HandlerState.runs : HandlerState → Bool
  | .ended => false
  | _ => true

/-- The thread has locked `m_mutex`. -/
def HandlerState.locks : HandlerState → Bool
  | .locked _ => true
  | .cleaning => true
  | _ => false

def UserfaultState.locks : UserfaultState → Bool
  | .locked => true
  | .serving .. => true
  | _ => false

namespace System

/-- The thread of a client is in one of the states. -/
def In (s : System β) (P : HandlerState → Bool) (pid : Int) : Prop :=
  ∃ h, s.handlers.find? pid = some h ∧ P h.state = true

/-- A client is served as long as its thread runs. -/
def Staffed (s : System β) : Prop :=
  ∀ pid, (∃ mappings, s.manager.clients.find? pid = some ⟨mappings, true⟩) ↔
    s.In HandlerState.runs pid

/-- `m_mutex` is locked by the thread that works on the tables. -/
structure Locked (s : System β) : Prop where
  handlers : ∀ pid, s.mutex = some (.handler pid) ↔ s.In HandlerState.locks pid
  userfault : s.mutex = some .userfault ↔ s.userfault.locks = true

variable {s s' : System β} {m n : Nat} {pid : Int} {broken : Prop} {a : Actor}

/-! ## Steps of every connection -/

theorem seat_setProc {p : Process β} (hpid : p.pid = (s.procs m).pid) (n : Nat) :
    (s.setProc m p).seat n = s.seat n := by
  have hpids : ((s.setProc m p).procs n).pid = (s.procs n).pid := by
    by_cases hn : n = m
    · rw [hn, procs_setProc_self, hpid]
    · rw [procs_setProc_ne p hn]
  unfold seat
  rw [hpids]
  rfl

theorem conn_setProc {p : Process β} (hpid : p.pid = (s.procs m).pid) :
    (s.setProc m p).conn = Function.update s.conn m { s.conn m with proc := p } := by
  funext n
  by_cases hn : n = m
  · subst hn
    rw [Function.update_self, conn, seat_setProc hpid, procs_setProc_self]
    rfl
  · rw [Function.update_of_ne hn, conn, seat_setProc hpid, procs_setProc_ne p hn]
    rfl

theorem conn_unbind (n : Nat) : (s.unbind n).conn = s.conn := by
  unfold unbind
  split <;> rfl

theorem conn_setHandler {x y : HandlerState} (hr : s.Registry)
    (hfind : s.handlers.find? pid = some ⟨m, x⟩) :
    (s.setHandler pid ⟨m, y⟩).conn =
      Function.update s.conn m { s.conn m with handler := some y } := by
  obtain ⟨rfl, -⟩ := hr.handled pid _ hfind
  funext n
  have hplace : (s.setHandler (s.procs m).pid ⟨m, y⟩).place n = s.place n := rfl
  by_cases hn : n = m
  · subst hn
    have hseat : (s.setHandler (s.procs n).pid ⟨n, y⟩).seat n = some y := by
      rw [seat_eq_some, setHandler, OrdMap.find?_insert, if_pos rfl]
    rw [Function.update_self, conn, hseat, hplace]
    rfl
  · rw [Function.update_of_ne hn]
    have hseat : (s.setHandler (s.procs m).pid ⟨m, y⟩).seat n = s.seat n := by
      refine seat_congr rfl fun z => ?_
      rw [setHandler, OrdMap.find?_insert]
      split
      next hpid =>
        rw [hpid, hfind]
        simp [Ne.symm hn]
      next => rfl
    rw [conn, hseat, hplace]
    rfl

/-- The connection is served by the thread of its client. -/
theorem conn_handler {x : HandlerState} (hr : s.Registry)
    (hfind : s.handlers.find? pid = some ⟨m, x⟩) : (s.conn m).handler = some x := by
  obtain ⟨rfl, -⟩ := hr.handled pid _ hfind
  exact seat_eq_some.mpr hfind

/-- Every connection takes a step. -/
def Follows (broken : Prop) (s s' : System β) : Prop :=
  ∀ n, Conn.Step broken s.manager (s.conn n) s'.manager (s'.conn n)

/-- One connection takes a step, and the others let the manager take it. -/
theorem follows_update {c' : Conn β} (hconn : s'.conn = Function.update s.conn m c')
    (hstep : Conn.Step broken s.manager (s.conn m) s'.manager c')
    (hother : ∀ n, n ≠ m → (s.conn n).Lets s.manager s'.manager) : s.Follows broken s' := by
  intro n
  rw [hconn]
  by_cases hn : n = m
  · subst hn
    rw [Function.update_self]
    exact hstep
  · rw [Function.update_of_ne hn]
    exact .same (hother n hn)

theorem follows_same (hconn : s'.conn = s.conn)
    (hlets : ∀ n, (s.conn n).Lets s.manager s'.manager) : s.Follows broken s' := by
  intro n
  rw [hconn]
  exact .same (hlets n)

/-- A step of the manager that is no request. -/
theorem lets_action {c : Conn β} {now now' : Damanager} {action : Action}
    (hexec : action.exec now = .ok now') (hcall : ∀ pid params env, action ≠ .call pid params env) :
    c.Lets now now' :=
  Or.inr ⟨action, hexec, fun _ params env => hcall _ params env⟩

/-- The first connection that waits gets a thread. -/
theorem conn_start_self (hr : s.Registry) (hacc : s.accept = .joining n pid)
    (hprocs : s'.procs n = s.procs n) (haccept : s'.accept = .polling)
    (hbacklog : s'.backlog = s.backlog)
    (hhandlers : s'.handlers = s.handlers.insert pid ⟨n, .polling⟩) :
    s'.conn n = { s.conn n with handler := some .polling, place := .away } := by
  obtain rfl := hr.joining n pid hacc
  have hplace : s'.place n = .away := by
    have hnodup := hr.nodup
    rw [queue, hacc] at hnodup
    rw [place_eq_away, queue, haccept, hbacklog]
    exact (List.nodup_cons.mp hnodup).1
  have hseat : s'.seat n = some .polling := by
    rw [seat_eq_some, hprocs, hhandlers, OrdMap.find?_insert, if_pos rfl]
  rw [conn, hseat, hplace, hprocs]
  rfl

/-- An open connection that has a thread, or needs none, is the only one the clients
know by its process id. -/
theorem seated_proc {h : Handler} (hr : s.Registry) (hn : (s.conn n).seated)
    (hfind : s.handlers.find? (s.procs n).pid = some h) : h.proc = n :=
  (hr.seated n hn.1 (place_eq_away.mp hn.2)).2 h hfind

/-- The thread of a new client is started.  The thread of an old one has come to its
end. -/
theorem follows_start (hr : s.Registry) (hacc : s.accept = .joining n pid)
    (hold : ∀ m x, s.handlers.find? pid = some ⟨m, x⟩ →
      x = .ended ∧ s'.procs m = { s.procs m with shut := true })
    (hprocs : ∀ k, (∀ x, s.handlers.find? pid ≠ some ⟨k, x⟩) → s'.procs k = s.procs k)
    (hexec : (Action.connect pid).exec s.manager = .ok s'.manager) (haccept : s'.accept = .polling)
    (hbacklog : s'.backlog = s.backlog)
    (hhandlers : s'.handlers = s.handlers.insert pid ⟨n, .polling⟩) : s.Follows broken s' := by
  intro k
  have hlets : ∀ c : Conn β, c.Lets s.manager s'.manager := fun c =>
    lets_action hexec fun _ _ _ h => by cases h
  have hjoins : s.accept.joins n = true := by rw [hacc]; simp [AcceptState.joins]
  have hn : ∀ x, s.handlers.find? pid ≠ some ⟨n, x⟩ := fun x hx =>
    (hr.handled pid _ hx).2.2 (mem_queue_of_joins hjoins)
  by_cases hk : k = n
  · subst hk
    rw [conn_start_self hr hacc (hprocs k hn) haccept hbacklog hhandlers]
    exact .start (hlets _) (place_eq_joining.mpr hjoins)
  have hplace : s'.place k = s.place k := by
    refine place_congr ?_ ?_
    · rw [haccept, hacc]
      simp [AcceptState.joins, Ne.symm hk]
    · rw [queue, queue, haccept, hacc, hbacklog]
      simp [AcceptState.current, hk]
  by_cases hkold : ∃ x, s.handlers.find? pid = some ⟨k, x⟩
  · obtain ⟨x, hx⟩ := hkold
    obtain ⟨rfl, hproc⟩ := hold k x hx
    obtain ⟨hpid, -⟩ := hr.handled pid _ hx
    have hseat : s'.seat k = none := by
      refine Option.eq_none_iff_forall_ne_some.mpr fun y hy => ?_
      rw [seat_eq_some, hproc, hhandlers, OrdMap.find?_insert, if_pos hpid] at hy
      cases hy
      exact hk rfl
    have hconn : s'.conn k =
        { s.conn k with proc := { s.procs k with shut := true }, handler := none } := by
      rw [conn, hseat, hplace, hproc]
      rfl
    rw [hconn]
    exact .drop (hlets _) (conn_handler hr hx)
  · have hkold : ∀ x, s.handlers.find? pid ≠ some ⟨k, x⟩ := fun x hx => hkold ⟨x, hx⟩
    have hseat : s'.seat k = s.seat k := by
      refine seat_congr (by rw [hprocs k hkold]) fun x => ?_
      rw [hhandlers, OrdMap.find?_insert]
      split
      next hpid => simpa [Ne.symm hk, hpid] using hkold x
      next => rfl
    have hconn : s'.conn k = s.conn k := by
      rw [conn, hprocs k hkold, hseat, hplace]
      rfl
    rw [hconn]
    exact .same (hlets _)

/-- A connection is made.  It did not wait before. -/
theorem conn_connect {p : Process β} {names : OrdMap Int Nat} (hpid : p.pid = (s.procs m).pid)
    (hm : m ∉ s.queue) :
    conn { s.setProc m p with names := names, backlog := s.backlog ++ [m] } =
      Function.update s.conn m { s.conn m with proc := p, place := .unread } := by
  have hjoins : s.accept.joins m = false := by
    by_contra hj
    exact hm (mem_queue_of_joins (by simpa using hj))
  funext n
  by_cases hn : n = m
  · subst hn
    have hplace : place { s.setProc n p with names := names, backlog := s.backlog ++ [n] } n =
        .unread := place_eq_unread.mpr ⟨hjoins, by simp [queue]⟩
    have hseat := seat_setProc hpid n
    rw [Function.update_self, conn, hplace]
    show (⟨(s.setProc n p).procs n, (s.setProc n p).seat n, .unread⟩ : Conn β) = _
    rw [hseat, procs_setProc_self]
    rfl
  · have hplace : place { s.setProc m p with names := names, backlog := s.backlog ++ [m] } n =
        s.place n := place_congr rfl (by simp [queue, setProc, hn])
    have hseat := seat_setProc hpid n
    rw [Function.update_of_ne hn, conn, hplace]
    show (⟨(s.setProc m p).procs n, (s.setProc m p).seat n, s.place n⟩ : Conn β) = _
    rw [hseat, procs_setProc_ne p hn]
    rfl

/-- A request is an action of the manager. -/
theorem call_exec {params : CallParams} {env : CallEnv} {c : Client} {now now' : Damanager}
    {answer : Except Errno CallResult} (hc : now.clients.find? pid = some c)
    (hrunning : c.running = true) (hcall : now.handleCall pid c params env = .ok (answer, now')) :
    (Action.call pid params env).exec now = .ok now' := by
  obtain ⟨mappings, running⟩ := c
  cases hrunning
  rw [Action.exec, hc]
  show now.handleCall pid ⟨mappings, true⟩ params env >>= _ = _
  rw [hcall]
  rfl

/-- A step of one process. -/
theorem follows_setProc {p : Process β} (hpid : p.pid = (s.procs m).pid)
    (hstep : Conn.Step broken s.manager (s.conn m) s.manager { s.conn m with proc := p }) :
    s.Follows broken (s.setProc m p) :=
  follows_update (conn_setProc hpid) hstep fun _ _ => Conn.Lets.refl _ _

/-- A step of the thread of a client. -/
theorem follows_setHandler {x y : HandlerState} (hr : s.Registry)
    (hfind : s.handlers.find? pid = some ⟨m, x⟩)
    (hconn : s'.conn = (s.setHandler pid ⟨m, y⟩).conn)
    (hstep : Conn.Step broken s.manager (s.conn m) s'.manager { s.conn m with handler := some y })
    (hother : ∀ n, n ≠ m → (s.conn n).Lets s.manager s'.manager) : s.Follows broken s' :=
  follows_update (hconn.trans (conn_setHandler hr hfind)) hstep hother

/-- A step of the thread of a client that reads or writes its socket. -/
theorem follows_socket {x y : HandlerState} {p : Process β} (hr : s.Registry)
    (hfind : s.handlers.find? pid = some ⟨m, x⟩) (hp : p.Same (s.procs m))
    (hstep : Conn.Step broken s.manager (s.conn m) s.manager ⟨p, some y, (s.conn m).place⟩) :
    s.Follows broken ((s.setProc m p).setHandler pid ⟨m, y⟩) := by
  have hconn : ((s.setProc m p).setHandler pid ⟨m, y⟩).conn =
      Function.update s.conn m ⟨p, some y, (s.conn m).place⟩ := by
    rw [conn_setHandler (hr.setProc hp) hfind, conn_setProc hp.1, Function.update_idem,
      Function.update_self]
  exact follows_update hconn hstep fun _ _ => Conn.Lets.refl _ _

/-- Requests of one process are not requests of another one that has an open
connection. -/
theorem lets_call {params : CallParams} {env : CallEnv} {h : Handler} {now' : Damanager}
    (hr : s.Registry) (hfind : s.handlers.find? pid = some h)
    (hexec : (Action.call pid params env).exec s.manager = .ok now') (n : Nat) (hn : n ≠ h.proc) :
    (s.conn n).Lets s.manager now' := by
  refine Or.inr ⟨_, hexec, fun hseated params' env' heq => ?_⟩
  cases heq
  exact hn (seated_proc hr hseated hfind).symm

/-- The client of a thread that has not come to its end is served. -/
theorem Staffed.running {h : Handler} {c : Client} (hstaff : s.Staffed)
    (hfind : s.handlers.find? pid = some h) (hruns : h.state.runs = true)
    (hc : s.manager.clients.find? pid = some c) : c.running = true := by
  obtain ⟨mappings, hc'⟩ := (hstaff pid).mpr ⟨h, hfind, hruns⟩
  rw [hc'] at hc
  cases hc
  rfl

/-- The process id of a connection is read, and no other one is looked at. -/
theorem follows_greet {packet : Packet} {up : List Packet} (hacc : s.accept = .reading m)
    (hup : (s.procs m).up = packet :: up) :
    s.Follows broken
      { s.setProc m { s.procs m with up := up } with accept := .joining m packet.head } := by
  have hplace : ∀ n, n ≠ m → place
      { s.setProc m { s.procs m with up := up } with accept := .joining m packet.head } n =
        s.place n := by
    intro n hn
    refine place_congr ?_ ?_
    · rw [hacc]
      simp [AcceptState.joins, Ne.symm hn]
    · simp [queue, setProc, hacc, AcceptState.current]
  have hunread : s.place m = .unread := place_eq_unread.mpr ⟨by rw [hacc]; rfl, by
    rw [queue, hacc]
    exact List.mem_cons_self⟩
  have hconn : conn
      { s.setProc m { s.procs m with up := up } with accept := .joining m packet.head } =
      Function.update s.conn m
        { s.conn m with proc := { s.procs m with up := up }, place := .joining } := by
    funext n
    have hseat := seat_setProc (s := s) (m := m) (p := { s.procs m with up := up }) rfl n
    by_cases hn : n = m
    · subst hn
      rw [Function.update_self, conn, place_eq_joining.mpr (by simp [AcceptState.joins])]
      show (⟨(s.setProc n _).procs n, (s.setProc n _).seat n, .joining⟩ : Conn β) = _
      rw [hseat, procs_setProc_self]
      rfl
    · rw [Function.update_of_ne hn, conn, hplace n hn]
      show (⟨(s.setProc m _).procs n, (s.setProc m _).seat n, s.place n⟩ : Conn β) = _
      rw [hseat, procs_setProc_ne _ hn]
      rfl
  exact follows_update hconn (.greet hunread hup) fun _ _ => Conn.Lets.refl _ _

theorem follows_giveUp (hr : s.Registry) (hacc : s.accept = .reading m)
    (hup : (s.procs m).up = []) (hhung : (s.procs m).hungUp = true) :
    s.Follows broken { s with accept := .polling } := by
  have hqueue : s.queue = m :: s.backlog := by
    rw [queue, hacc]
    rfl
  have hnodup := hr.nodup
  rw [hqueue, List.nodup_cons] at hnodup
  have hunread : s.place m = .unread := place_eq_unread.mpr ⟨by rw [hacc]; rfl, by simp [hqueue]⟩
  have hconn : conn { s with accept := .polling } =
      Function.update s.conn m { s.conn m with place := .away } := by
    funext n
    by_cases hn : n = m
    · subst hn
      have haway : place { s with accept := .polling } n = .away := place_eq_away.mpr hnodup.1
      rw [Function.update_self, conn, haway]
      rfl
    · have hplace : place { s with accept := .polling } n = s.place n := by
        refine place_congr ?_ ?_
        · rw [hacc]
          rfl
        · rw [hqueue]
          simp [queue, AcceptState.current, hn]
      rw [Function.update_of_ne hn, conn, hplace]
      rfl
  exact follows_update hconn (.giveUp hunread hup hhung) fun _ _ => Conn.Lets.refl _ _

theorem follows_clear (hr : s.Registry) (hfind : s.handlers.find? pid = some ⟨m, .ended⟩) :
    s.Follows broken { s.shut m with handlers := s.handlers.erase pid } := by
  obtain ⟨rfl, -⟩ := hr.handled pid _ hfind
  have hconn : conn { s.shut m with handlers := s.handlers.erase (s.procs m).pid } =
      Function.update s.conn m
        { s.conn m with proc := { s.procs m with shut := true }, handler := none } := by
    funext n
    by_cases hn : n = m
    · subst hn
      have hseat : seat { s.shut n with handlers := s.handlers.erase (s.procs n).pid } n =
          none := by
        refine Option.eq_none_iff_forall_ne_some.mpr fun x hx => ?_
        rw [seat_eq_some] at hx
        simp [shut, setProc] at hx
      rw [Function.update_self, conn, hseat]
      show (⟨(s.setProc n _).procs n, none, s.place n⟩ : Conn β) = _
      rw [procs_setProc_self]
      rfl
    · have hproc : (s.shut m).procs n = s.procs n := procs_setProc_ne _ hn
      have hseat : seat { s.shut m with handlers := s.handlers.erase (s.procs m).pid } n =
          s.seat n := by
        refine seat_congr (congrArg Process.pid hproc) fun x => ?_
        show (s.handlers.erase (s.procs m).pid).find? _ = _ ↔ _
        rw [OrdMap.find?_erase]
        split
        next hpid =>
          rw [hpid, hfind]
          simp [Ne.symm hn]
        next => rfl
      rw [Function.update_of_ne hn, conn, hseat]
      show (⟨(s.shut m).procs n, s.seat n, s.place n⟩ : Conn β) = _
      rw [hproc]
      rfl
  exact follows_update hconn (.drop (Conn.Lets.refl _ _) (conn_handler hr hfind))
    fun _ _ => Conn.Lets.refl _ _

/-- The process closes its socket, or ends. -/
theorem follows_hangUp {p : Process β} (hpid : p.pid = (s.procs m).pid)
    (hstep : Conn.Step broken s.manager (s.conn m) s.manager { s.conn m with proc := p }) :
    s.Follows broken ((s.unbind m).setProc m p) := by
  have hprocs : (s.unbind m).procs = s.procs := by
    unfold unbind
    split <;> rfl
  have hmanager : (s.unbind m).manager = s.manager := by
    unfold unbind
    split <;> rfl
  refine follows_update (m := m) ?_ (by rw [setProc, hmanager]; exact hstep) fun n _ => ?_
  · rw [conn_setProc (by rw [hprocs]; exact hpid), conn_unbind]
  · rw [setProc, hmanager]
    exact Conn.Lets.refl _ _

/-- A step of the system is a step of every connection. -/
theorem Step.follows (hstep : s.Step a s') (hr : s.Registry) (hstaff : s.Staffed) :
    s.Follows (a = .manager true ∨ 0 < s.eventfd) s' := by
  have hstay : ∀ {m : Nat} n, n ≠ m → (s.conn n).Lets s.manager s.manager :=
    fun _ _ => Conn.Lets.refl _ _
  cases hstep with
  | enter halive hidle => exact follows_setProc rfl (.enter halive hidle)
  | call hm ht => exact follows_setProc rfl (.call hm ht)
  | connect hm ht hs _ =>
      exact follows_update (conn_connect rfl fun hmem => hr.connected _ hmem hs)
        (.connect hm ht hs) hstay
  | skip hm ht => exact follows_setProc rfl (.skip hm ht)
  | close hm ht => exact follows_hangUp rfl (.close hm ht)
  | introduce ht => exact follows_setProc rfl (.introduce ht)
  | send ht honline => exact follows_setProc rfl (.send ht honline)
  | receive ht hdown => exact follows_setProc rfl (.receive ht hdown)
  | leave ht => exact follows_setProc rfl (.leave ht)
  | @exit m =>
      intro n
      exact follows_hangUp (m := m) (p := (s.procs m).exit) rfl .exit n
  | fault | refuse => exact follows_same rfl fun _ => Conn.Lets.refl _ _
  | @store st =>
      have hexec : (Action.store st).exec s.manager = .ok _ := rfl
      refine follows_same rfl fun _ => lets_action hexec fun _ _ _ h => ?_
      cases h
  | accept hacc _ hback =>
      refine follows_same (funext fun k => conn_congr rfl rfl (place_congr ?_ ?_))
        fun _ => Conn.Lets.refl _ _
      · rw [hacc]
        rfl
      · simp [queue, hacc, hback, AcceptState.current]
  | acceptEnd hacc =>
      refine follows_same (funext fun k => conn_congr rfl rfl (place_congr ?_ ?_))
        fun _ => Conn.Lets.refl _ _
      · rw [hacc]
        rfl
      · simp [queue, hacc, AcceptState.current]
  | greet hacc hup => exact follows_greet hacc hup
  | giveUp hacc hup hhung => exact follows_giveUp hr hacc hup hhung
  | start hacc hfind hexec =>
      refine follows_start hr hacc (fun m x hx => ?_) (fun _ _ => rfl) hexec rfl rfl rfl
      rw [hfind] at hx
      cases hx
  | restart hacc hfind hexec =>
      refine follows_start hr hacc (fun m x hx => ?_) (fun k hk => ?_) hexec rfl rfl rfl
      · rw [hfind] at hx
        cases hx
        exact ⟨rfl, procs_setProc_self _⟩
      · refine procs_setProc_ne _ ?_
        rintro rfl
        exact hk _ hfind
  | read hfind _ _ hup =>
      exact follows_socket hr hfind ⟨rfl, rfl, rfl⟩ (.read (conn_handler hr hfind) hup)
  | @quit pid n fail hfind hwhy =>
      exact follows_setHandler hr hfind rfl
        (.quit (conn_handler hr hfind) (hwhy.imp_left (Or.imp_left fun hf => by rw [hf]))) hstay
  | lock _ hfind => exact follows_setHandler hr hfind rfl (.lock (conn_handler hr hfind)) hstay
  | @serve pid m params c env answer manager hfind hc hcall =>
      have hrunning := hstaff.running hfind rfl hc
      have hexec := call_exec hc hrunning hcall
      obtain ⟨rfl, -⟩ := hr.handled pid _ hfind
      obtain ⟨mappings, running⟩ := c
      cases hrunning
      exact follows_setHandler hr hfind rfl
        (.serve (conn_handler hr hfind) ⟨mappings, env, hc, hcall⟩ (Runs.single trivial hexec))
        (lets_call hr hfind hexec)
  | reply hfind hhung =>
      exact follows_socket hr hfind ⟨rfl, rfl, rfl⟩ (.reply (conn_handler hr hfind) hhung)
  | unheard hfind hhung =>
      exact follows_setHandler hr hfind rfl (.unheard (conn_handler hr hfind) hhung) hstay
  | lockClean _ hfind =>
      exact follows_setHandler hr hfind rfl (.lockClean (conn_handler hr hfind)) hstay
  | clean hfind hexec =>
      have hlets : ∀ c : Conn β, c.Lets s.manager _ := fun c =>
        lets_action hexec fun _ _ _ h => by cases h
      exact follows_setHandler hr hfind rfl (.clean (hlets _) (conn_handler hr hfind))
        fun _ _ => hlets _
  | @serveFault addr flags env wake cm _ hfault =>
      have hexec : (Action.userfault addr flags env).exec s.manager = .ok
          { s.manager with toClientManager := cm } := by
        rw [Action.exec, hfault]
        rfl
      exact follows_same rfl fun _ => lets_action hexec fun _ _ _ h => by cases h
  | ready | userfaultEnd | lockFault | readFault | noFault | signal | joinAccept
  | joinUserfault =>
      exact follows_same (conn_eq rfl rfl rfl rfl) fun _ => Conn.Lets.refl _ _
  | clear _ hfind => exact follows_clear hr hfind
  | finish => exact fun _ => .shut

/-! ## Clients and the lock of the manager -/

theorem in_setHandler {P : HandlerState → Bool} {h : Handler} {pid' : Int} :
    (s.setHandler pid h).In P pid' ↔
      if pid' = pid then P h.state = true else s.In P pid' := by
  rw [In, setHandler]
  simp only [OrdMap.find?_insert]
  split <;> simp [In]

theorem in_iff {P : HandlerState → Bool} {h : Handler} (hfind : s.handlers.find? pid = some h) :
    s.In P pid ↔ P h.state = true := by
  simp [In, hfind]

/-- A client whose thread has come to its end is taken out. -/
theorem in_erase {P : HandlerState → Bool} {pid' : Int} (hP : P .ended = false)
    (hfind : s.handlers.find? pid = some ⟨n, .ended⟩) :
    In { s.shut n with handlers := s.handlers.erase pid } P pid' ↔ s.In P pid' := by
  simp only [In, OrdMap.find?_erase]
  split
  next heq => simp [heq, hfind, hP]
  next => rfl

theorem in_congr {P : HandlerState → Bool} (hhandlers : s'.handlers = s.handlers) :
    s'.In P pid ↔ s.In P pid := by
  rw [In, hhandlers]
  rfl

/-- A request changes the mappings of its client, or no client. -/
theorem clients_cases (params : CallParams) (pid : Int) (c : Client) (granted : Bool)
    (clients : OrdMap Int Client) :
    params.clients pid c granted clients = clients ∨
      ∃ mappings, params.clients pid c granted clients =
        clients.insert pid { c with mappings := mappings } := by
  cases params with
  | alloc | map | unmap =>
      simp only [CallParams.clients]
      split
      · exact Or.inr ⟨_, rfl⟩
      · exact Or.inl rfl
  | anchor | unanchor | getSize | persist | advise | unknown => exact Or.inl rfl

theorem unbind_eq (n : Nat) : ∃ names, s.unbind n = { s with names := names } := by
  unfold unbind
  split
  · exact ⟨_, rfl⟩
  · exact ⟨s.names, rfl⟩

namespace Staffed

/-- A step of the thread of a client that has not come to its end. -/
theorem keep {x : HandlerState} {y : Handler} (h : s.Staffed)
    (hfind : s.handlers.find? pid = some ⟨m, x⟩) (hx : x.runs = true) (hy : y.state.runs = true)
    (hclients : s'.manager.clients = s.manager.clients)
    (hhandlers : s'.handlers = s.handlers.insert pid y) : s'.Staffed := by
  intro pid'
  rw [hclients, h pid', in_congr (s := s.setHandler pid y) hhandlers, in_setHandler]
  split
  next heq =>
    rw [heq, in_iff hfind]
    simp [hx, hy]
  next => rfl

theorem same (h : s.Staffed) (hclients : s'.manager.clients = s.manager.clients)
    (hhandlers : s'.handlers = s.handlers) : s'.Staffed := by
  intro pid
  rw [hclients, h pid, in_congr hhandlers]

/-- The client and its thread change together. -/
theorem change {c : Client} {y : Handler} (h : s.Staffed)
    (hclients : s'.manager.clients = s.manager.clients.insert pid c)
    (hhandlers : s'.handlers = s.handlers.insert pid y) (hy : y.state.runs = c.running) :
    s'.Staffed := by
  intro pid'
  rw [hclients, in_congr (s := s.setHandler pid y) hhandlers, in_setHandler, OrdMap.find?_insert]
  split
  next heq =>
    rw [hy]
    obtain ⟨mappings, running⟩ := c
    simp
  next => exact h pid'

theorem start {y : Handler} (h : s.Staffed) (hidle : ¬ s.In HandlerState.runs pid)
    (hexec : (Action.connect pid).exec s.manager = .ok s'.manager)
    (hhandlers : s'.handlers = s.handlers.insert pid y) (hy : y.state.runs = true) :
    s'.Staffed := by
  rcases Damanager.connect_cases hexec with ⟨mappings, hc, -⟩ | ⟨-, heq⟩
  · exact absurd ((h pid).mp ⟨mappings, hc⟩) hidle
  · exact h.change (by rw [heq]) hhandlers hy

theorem step (h : s.Staffed) (hstep : s.Step a s') : s'.Staffed := by
  cases hstep with
  | start hacc hfind hexec =>
      refine h.start (fun hin => ?_) hexec rfl rfl
      obtain ⟨h', hfind', -⟩ := hin
      rw [hfind] at hfind'
      cases hfind'
  | restart hacc hfind hexec =>
      refine h.start (fun hin => ?_) hexec rfl rfl
      rw [in_iff hfind] at hin
      cases hin
  | read hfind | quit hfind | reply hfind | unheard hfind | lock _ hfind | lockClean _ hfind =>
      exact h.keep hfind rfl rfl rfl rfl
  | @serve pid n params c env answer manager hfind hc hcall =>
      have hrunning := h.running hfind rfl hc
      have hclients := Damanager.handleCall_clients hcall
      rcases clients_cases params pid c answer.isOk s.manager.clients with heq | ⟨mappings, heq⟩
      · exact h.keep hfind rfl rfl (hclients.trans heq) rfl
      · exact h.change (hclients.trans heq) rfl hrunning.symm
  | @clean pid n env manager hfind hexec =>
      rcases Damanager.disconnect_cases hexec with ⟨mappings, cm, -, -, rfl⟩ | ⟨hc, -⟩
      · exact h.change rfl rfl rfl
      · obtain ⟨mappings, hrun⟩ := (h pid).mpr ((in_iff hfind).mpr rfl)
        exact absurd hrun (hc mappings)
  | @clear pid n _ hfind =>
      intro pid'
      rw [in_erase rfl hfind]
      exact h pid'
  | @exit n | @close n =>
      obtain ⟨names, heq⟩ := unbind_eq (s := s) n
      exact h.same (by simp [exit, heq, setProc]) (by simp [exit, heq, setProc])
  | _ => exact h.same rfl rfl

end Staffed

namespace Locked

/-- The thread of a client goes on, with or without the lock. -/
theorem handler {x : HandlerState} {y : Handler} (h : s.Locked)
    (hfind : s.handlers.find? pid = some ⟨m, x⟩)
    (hmutex : s'.mutex = if x.locks = y.state.locks then s.mutex
      else if y.state.locks then some (.handler pid) else none)
    (hfree : y.state.locks = true → x.locks = true ∨ s.mutex = none)
    (hhandlers : s'.handlers = s.handlers.insert pid y) (huser : s'.userfault = s.userfault) :
    s'.Locked := by
  have hx := h.handlers pid
  rw [in_iff hfind] at hx
  have hin : ∀ pid', s'.In HandlerState.locks pid' ↔
      if pid' = pid then y.state.locks = true else s.In HandlerState.locks pid' := fun pid' => by
    rw [in_congr (s := s.setHandler pid y) hhandlers, in_setHandler]
  refine ⟨fun pid' => ?_, ?_⟩
  · rw [hin]
    split
    next heq =>
      subst heq
      rw [hmutex]
      cases hxl : x.locks <;> cases hyl : y.state.locks <;> simp_all
    next hne =>
      rw [← h.handlers pid', hmutex]
      cases hxl : x.locks <;> cases hyl : y.state.locks <;> simp_all [Ne.symm hne]
  · rw [huser, ← h.userfault, hmutex]
    cases hxl : x.locks <;> cases hyl : y.state.locks <;> simp_all

/-- The thread of page faults goes on, with or without the lock. -/
theorem fault (h : s.Locked)
    (hmutex : s'.mutex = if s.userfault.locks = s'.userfault.locks then s.mutex
      else if s'.userfault.locks then some .userfault else none)
    (hfree : s'.userfault.locks = true → s.userfault.locks = true ∨ s.mutex = none)
    (hhandlers : s'.handlers = s.handlers) : s'.Locked := by
  have hx := h.userfault
  refine ⟨fun pid => ?_, ?_⟩
  · rw [in_congr hhandlers, ← h.handlers pid, hmutex]
    cases hxl : s.userfault.locks <;> cases hyl : s'.userfault.locks <;> simp_all
  · rw [hmutex]
    cases hxl : s.userfault.locks <;> cases hyl : s'.userfault.locks <;> simp_all

theorem same (h : s.Locked) (hmutex : s'.mutex = s.mutex) (hhandlers : s'.handlers = s.handlers)
    (huser : s'.userfault = s.userfault) : s'.Locked := by
  refine ⟨fun pid => ?_, ?_⟩
  · rw [hmutex, h.handlers pid, in_congr hhandlers]
  · rw [hmutex, h.userfault, huser]

/-- A new thread does not have the lock, and neither had the old one. -/
theorem start {y : Handler} (h : s.Locked) (hidle : ¬ s.In HandlerState.locks pid)
    (hmutex : s'.mutex = s.mutex) (hhandlers : s'.handlers = s.handlers.insert pid y)
    (hy : y.state.locks = false) (huser : s'.userfault = s.userfault) : s'.Locked := by
  refine ⟨fun pid' => ?_, ?_⟩
  · rw [hmutex, h.handlers pid', in_congr (s := s.setHandler pid y) hhandlers, in_setHandler]
    split
    next heq => simp [heq, hidle, hy]
    next => rfl
  · rw [hmutex, h.userfault, huser]

theorem step (h : s.Locked) (hstep : s.Step a s') : s'.Locked := by
  cases hstep with
  | start hacc hfind hexec =>
      refine h.start (fun hin => ?_) rfl rfl rfl rfl
      obtain ⟨h', hfind', -⟩ := hin
      rw [hfind] at hfind'
      cases hfind'
  | restart hacc hfind hexec =>
      refine h.start (fun hin => ?_) rfl rfl rfl rfl
      rw [in_iff hfind] at hin
      cases hin
  | read hfind | quit hfind | reply hfind | unheard hfind | serve hfind | clean hfind =>
      exact h.handler hfind rfl (fun hy => by cases hy) rfl rfl
  | lock hfree hfind | lockClean hfree hfind =>
      exact h.handler hfind rfl (fun _ => Or.inr hfree) rfl rfl
  | @clear pid n _ hfind =>
      refine ⟨fun pid' => ?_, h.userfault⟩
      rw [in_erase rfl hfind]
      exact h.handlers pid'
  | ready huser | userfaultEnd huser =>
      exact h.fault (by rw [huser]; rfl) (fun hy => by cases hy) rfl
  | lockFault hfree huser => exact h.fault (by rw [huser]; rfl) (fun _ => Or.inr hfree) rfl
  | readFault huser => exact h.fault (by rw [huser]; rfl) (fun _ => Or.inl (by rw [huser]; rfl)) rfl
  | noFault huser | serveFault huser =>
      exact h.fault (by rw [huser]; rfl) (fun hy => by cases hy) rfl
  | @exit n | @close n =>
      obtain ⟨names, heq⟩ := unbind_eq (s := s) n
      exact h.same (by simp [exit, heq, setProc]) (by simp [exit, heq, setProc])
        (by simp [exit, heq, setProc])
  | _ => exact h.same rfl rfl rfl

end Locked

/-! ## All reachable states -/

/-- What holds in every order of steps. -/
structure Ok (nrPagesRam nrPagesSwap : Nat) (files : OrdMap Nat PersFile) (s : System β) :
    Prop where
  registry : s.Registry
  staffed : s.Staffed
  locked : s.Locked
  conns : ∀ n, (s.conn n).Ok s.manager
  manager : Damanager.Reachable nrPagesRam nrPagesSwap files s.manager
  begun : ∀ n t start, ((s.procs n).threads t).start = some start →
    Damanager.Reachable nrPagesRam nrPagesSwap files start

variable {nrPagesRam nrPagesSwap : Nat} {files : OrdMap Nat PersFile} {pids : Nat → Int}

theorem conn_init (n : Nat) :
    conn (.init nrPagesRam nrPagesSwap files pids : System β) n =
      ⟨{ pid := pids n }, none, .away⟩ := rfl

theorem init_ok :
    Ok nrPagesRam nrPagesSwap files (.init nrPagesRam nrPagesSwap files pids : System β) where
  registry :=
    { names := fun _ _ => by simp [init, Process.online, OrdMap.empty, OrdMap.find?]
      nodup := List.nodup_nil
      connected := fun _ hmem => by cases hmem
      order := List.Pairwise.nil
      joining := fun _ _ hacc => by cases hacc
      handled := fun _ _ hfind => by cases hfind
      seated := fun _ honline => by simp [init, Process.online] at honline }
  staffed := fun _ => ⟨fun ⟨_, hc⟩ => (by cases hc), fun ⟨_, hfind, _⟩ => by cases hfind⟩
  locked :=
    { handlers := fun _ => ⟨fun hm => (by cases hm), fun ⟨_, hfind, _⟩ => by cases hfind⟩
      userfault := ⟨fun hm => (by cases hm), fun hl => by cases hl⟩ }
  conns := fun n => by
    rw [conn_init]
    exact
      { mutex := fun _ => by simp [LibThread.holds]
        exited := fun _ _ => rfl
        unopened := fun _ => ⟨rfl, rfl, rfl⟩
        queued := fun hplace => absurd rfl hplace
        introducing := fun _ ht => by cases ht
        silent := fun hplace => by cases hplace
        greeting := fun hplace => by cases hplace
        plain := fun _ _ hmem => by cases hmem
        awaiting := fun _ hq => by cases hq
        exchange := fun _ => .nothing rfl
        told := fun _ => trivial }
  manager := Runs.refl
  begun := fun _ _ _ h => by cases h

theorem Ok.step (h : s.Ok nrPagesRam nrPagesSwap files) (hstep : s.Step a s') :
    s'.Ok nrPagesRam nrPagesSwap files := by
  have hfollows := hstep.follows h.registry h.staffed
  exact
    { registry := h.registry.step h.conns hstep
      staffed := h.staffed.step hstep
      locked := h.locked.step hstep
      conns := fun n => (hfollows n).ok (h.conns n)
      manager := h.manager.trans (hfollows 0).reach
      begun := fun n t start hstart => by
        rcases (hfollows n).begun hstart with rfl | ⟨t', ht'⟩
        · exact h.manager
        · exact h.begun n t' start ht' }

theorem Reachable.ok (h : Reachable nrPagesRam nrPagesSwap files pids s) :
    s.Ok nrPagesRam nrPagesSwap files :=
  h.invariant init_ok fun hs hstep => hs.step hstep

end System

/-! ## The results -/

section Results

variable {s : System β} {nrPagesRam nrPagesSwap : Nat} {files : OrdMap Nat PersFile}
  {pids : Nat → Int}

/-- A call of the library that has returned was a dialogue with the manager.  It began
after the call was made and was over before the call returned, and meanwhile the
manager served no other request of the process. -/
theorem calls_are_dialogues {n t : Nat} {start : Damanager} {call : Program β} {value : β}
    (h : System.Reachable nrPagesRam nrPagesSwap files pids s)
    (ht : (s.procs n).threads t = .returned start call value) :
    Damanager.Reachable nrPagesRam nrPagesSwap files start ∧
      ∃ s₀ log s₁, start.Reach s₀ ∧
        Damanager.Talk (fun _ action => action.NotBy (s.procs n).pid) (s.procs n).pid call s₀ log
          (some value) s₁ ∧
        s₁.Reach s.manager := by
  refine ⟨h.ok.begun n t start (by rw [ht]; rfl), ?_⟩
  have htold := (h.ok.conns n).told t
  rw [show (s.conn n).proc.threads t = _ from ht] at htold
  exact htold

/-- A process connects and gets a thread. -/
def session {β : Type} (n : Nat) : List (Move β) :=
  [.enter n 0 .init, .acquire n 0, .introduce n 0, .acceptPoll false, .acceptRead, .acceptJoin]

/-- Two processes connect, and both ask for the size of a region.  The second one is
served while the first one waits. -/
def twoCalls : List (Move Status) :=
  session 0 ++ session 1 ++
    [.enter 0 3 (.call (getSize 5)), .acquire 0 3, .send 0 3, .handlerPoll 7 false,
     .enter 1 4 (.call (getSize 6)), .acquire 1 4, .send 1 4, .handlerPoll 8 false,
     .handlerLock 8, .handlerServe 8 {}, .handlerLock 7, .handlerServe 7 {}, .handlerReply 7,
     .receive 0 3, .leave 0 3]

/-- The value a call returned. -/
def LibThread.value : LibThread β → Option β
  | .returned _ _ value => some value
  | _ => none

theorem LibThread.value_eq_some {x : LibThread β} {value : β} (h : x.value = some value) :
    ∃ start call, x = .returned start call value := by
  cases x with
  | returned start call value' =>
      cases h
      exact ⟨start, call, rfl⟩
  | _ => cases h

theorem calls_are_dialogues_getSize : ∃ (s : System Status) (start s₀ : Damanager)
    (call : Program Status) (log : _) (s₁ : Damanager),
      Damanager.Talk (fun _ action => action.NotBy 7) 7 call s₀ log (some ⟨0, some .enoent⟩) s₁ ∧
        start.Reach s₀ ∧ s₁.Reach s.manager := by
  have hrun : reaches Move.exec (fun _ _ => true)
      (fun s => ((s.procs 0).threads 3).value = some (⟨0, some .enoent⟩ : Status) ∧
        (s.procs 0).pid = 7)
      twoCalls (.init 2 1 .empty fun n => 7 + n) = true := by
    decide +kernel
  obtain ⟨s, hs, htest⟩ := Runs.of_reaches hrun fun _ _ _ _ => trivial
  obtain ⟨hvalue, hpid⟩ : ((s.procs 0).threads 3).value = some (⟨0, some .enoent⟩ : Status) ∧
      (s.procs 0).pid = 7 := by simpa using htest
  obtain ⟨start, call, ht⟩ := LibThread.value_eq_some hvalue
  obtain ⟨-, s₀, log, s₁, hbegin, htalk, hend⟩ := calls_are_dialogues hs ht
  rw [hpid] at htalk
  exact ⟨s, start, s₀, call, log, s₁, htalk, hbegin, hend⟩

/-- One thread of a process is in the library at a time.  One thread of the manager is
in `handle_call`, in the clean-up or in `handle_userfault` at a time. -/
theorem one_thread_inside (h : System.Reachable nrPagesRam nrPagesSwap files pids s) :
    (∀ n t t', ((s.procs n).threads t).holds = true → ((s.procs n).threads t').holds = true →
        t = t') ∧
      (∀ pid pid', s.In HandlerState.locks pid → s.In HandlerState.locks pid' → pid = pid') ∧
      ∀ pid, s.In HandlerState.locks pid → s.userfault.locks = false := by
  have hlocked := h.ok.locked
  refine ⟨fun n t t' ht ht' => ?_, fun pid pid' hpid hpid' => ?_, fun pid hpid => ?_⟩
  · have hm := (h.ok.conns n).holder ht
    rw [(h.ok.conns n).holder ht'] at hm
    exact (Option.some.inj hm).symm
  · have hm := (hlocked.handlers pid).mpr hpid
    rw [(hlocked.handlers pid').mpr hpid'] at hm
    cases hm
    rfl
  · by_contra huser
    have hm := (hlocked.handlers pid).mpr hpid
    rw [hlocked.userfault.mpr (by simpa using huser)] at hm
    cases hm

/-- The thread of a client is in `handle_call`, and a thread of the process waits. -/
theorem one_thread_inside_twoCalls : ∃ s : System Status,
    ((s.procs 1).threads 4).holds = true ∧ s.In HandlerState.locks 8 ∧
      (∀ t, ((s.procs 1).threads t).holds = true → t = 4) ∧ s.userfault.locks = false := by
  have hrun : reaches Move.exec (fun _ _ => true)
      (fun s => ((s.procs 1).threads 4).holds = true ∧
        s.handlers.find? 8 = some ⟨1, .locked (.getSize 6)⟩)
      (twoCalls.take 21) (.init 2 1 .empty fun n => 7 + n) = true := by
    decide +kernel
  obtain ⟨s, hs, htest⟩ := Runs.of_reaches hrun fun _ _ _ _ => trivial
  obtain ⟨hholds, hfind⟩ : ((s.procs 1).threads 4).holds = true ∧
      s.handlers.find? 8 = some ⟨1, .locked (.getSize 6)⟩ := by simpa using htest
  have hin : s.In HandlerState.locks 8 := ⟨_, hfind, rfl⟩
  obtain ⟨hlib, -, huser⟩ := one_thread_inside hs
  exact ⟨s, hholds, hin, fun t ht => hlib 1 t 4 ht hholds, huser 8 hin⟩

/-- The requests of a process that were sent and not answered yet. -/
def System.pending (s : System β) (n : Nat) : List CallParams :=
  requests (s.procs n).up ++
    match s.seat n with
    | some (.received q) => [q]
    | some (.locked q) => [q]
    | _ => []

/-- The answers that were not read yet. -/
def System.answers (s : System β) (n : Nat) : List (Except Errno CallResult) :=
  (match s.seat n with
    | some (.answered a) => [a]
    | _ => []) ++ (s.procs n).down

/-- The number of requests and answers under way. -/
def System.underWay (s : System β) (n : Nat) : Nat := (s.pending n).length + (s.answers n).length

theorem underWay_eq {n : Nat} (h : System.Reachable nrPagesRam nrPagesSwap files pids s)
    (honline : (s.procs n).online = true) :
    s.underWay n = (if (s.procs n).asked.isSome then 1 else 0) ∧
      ∀ q ∈ s.pending n, (s.procs n).asked = some q := by
  have hex : Exchanged (s.procs n).asked (requests (s.procs n).up) (s.seat n) (s.procs n).down :=
    (h.ok.conns n).exchange honline
  unfold System.underWay System.pending System.answers
  generalize (s.procs n).asked = asked, requests (s.procs n).up = reqs, s.seat n = x,
    (s.procs n).down = down at hex ⊢
  cases hex with
  | received | locked | answered => simp
  | nothing hq | sent hq | delivered hq =>
      rcases x with _ | x
      · simp
      · cases x with
        | received | locked | answered => cases hq
        | polling | leaving | cleaning | ended => simp

/-- No request and no answer is lost, doubled or mixed up.  For a process with an open
connection at most one of them is under way, there is one if and only if a thread of
the process waits, and a request is the one that thread waits for. -/
theorem one_request_under_way {n : Nat}
    (h : System.Reachable nrPagesRam nrPagesSwap files pids s)
    (honline : (s.procs n).online = true) :
    s.underWay n ≤ 1 ∧
      (s.underWay n = 1 ↔
        ∃ q t start call next, (s.procs n).threads t = .awaiting start call q next) ∧
      ∀ q ∈ s.pending n,
        ∃ t start call next, (s.procs n).threads t = .awaiting start call q next := by
  have hasked : ∀ {q}, (s.procs n).asked = some q ↔
      ∃ t start call next, (s.procs n).threads t = .awaiting start call q next :=
    (h.ok.conns n).asked_eq_some
  obtain ⟨hlen, hpending⟩ := underWay_eq h honline
  refine ⟨?_, ?_, fun q hq => hasked.mp (hpending q hq)⟩
  · rw [hlen]
    split <;> omega
  · simp only [hlen, ← hasked]
    cases (s.procs n).asked <;> simp

/-- The request of the first process was read, and the second one has its answer on the
way. -/
theorem one_request_under_way_twoCalls : ∃ s : System Status,
    s.pending 0 = [.getSize 5] ∧ s.underWay 1 = 1 ∧
      (∃ t start call next, (s.procs 0).threads t = .awaiting start call (.getSize 5) next) ∧
      ∃ q t start call next, (s.procs 1).threads t = .awaiting start call q next := by
  have hrun : reaches Move.exec (fun _ _ => true)
      (fun s => ((s.procs 0).online = true ∧ (s.procs 1).online = true) ∧
        s.pending 0 = [.getSize 5] ∧ s.pending 1 = [] ∧ s.answers 1 = [.error .enoent])
      (twoCalls.take 22) (.init 2 1 .empty fun n => 7 + n) = true := by
    decide +kernel
  obtain ⟨s, hs, htest⟩ := Runs.of_reaches hrun fun _ _ _ _ => trivial
  obtain ⟨⟨h₀, h₁⟩, hpending, hnone, hanswers⟩ := of_decide_eq_true htest
  have hone : s.underWay 1 = 1 := by rw [System.underWay, hnone, hanswers]; rfl
  refine ⟨s, hpending, hone, ?_, (one_request_under_way hs h₁).2.1.mp hone⟩
  exact (one_request_under_way hs h₀).2.2 _ (by rw [hpending]; exact List.mem_cons_self)

/-- The process ids tell the clients apart, although an id can be used again.  No two
open connections have the same id.  As long as a connection waits, a client of the
manager with its id is one that has hung up, and after that the client with its id is
its own. -/
theorem connections_keep_apart (h : System.Reachable nrPagesRam nrPagesSwap files pids s) :
    (∀ m n, (s.procs m).online = true → (s.procs n).online = true →
        (s.procs m).pid = (s.procs n).pid → m = n) ∧
      (∀ n ∈ s.queue, ∀ c, s.handlers.find? (s.procs n).pid = some c →
        (s.procs c.proc).hungUp = true) ∧
      ∀ n, (s.procs n).online = true → n ∉ s.queue →
        ∀ c, s.handlers.find? (s.procs n).pid = some c → c.proc = n := by
  have hr := h.ok.registry
  refine ⟨fun m n hm hn hpid => ?_, fun n hn c hc => hr.hungUp hn hc,
    fun n honline hn c hc => (hr.seated n honline hn).2 c hc⟩
  have hname := (hr.names _ m).mpr ⟨hm, hpid⟩
  rw [(hr.names _ n).mpr ⟨hn, rfl⟩] at hname
  exact (Option.some.inj hname).symm

/-- A process ends, and another one with its id connects. -/
theorem connections_keep_apart_reused : ∃ s : System Status,
    1 ∈ s.queue ∧ (s.procs 1).pid = 7 ∧ s.handlers.find? 7 = some ⟨0, .polling⟩ ∧
      (s.procs 0).hungUp = true := by
  have hrun : reaches Move.exec (fun _ _ => true)
      (fun s : System Status =>
        1 ∈ s.queue ∧ (s.procs 1).pid = 7 ∧ s.handlers.find? 7 = some ⟨0, .polling⟩)
      (session 0 ++ [Move.exit 0] ++ (session 1).take 3) (.init 2 1 .empty fun _ => 7) = true := by
    decide +kernel
  obtain ⟨s, hs, htest⟩ := Runs.of_reaches hrun fun _ _ _ _ => trivial
  obtain ⟨hqueue, hpid, hfind⟩ := of_decide_eq_true htest
  exact ⟨s, hqueue, hpid, hfind,
    (connections_keep_apart hs).2.1 1 hqueue ⟨0, .polling⟩ (by rw [hpid]; exact hfind)⟩

end Results

end Threads

end DASim
