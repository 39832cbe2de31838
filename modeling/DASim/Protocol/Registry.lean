import DASim.Protocol.Connections

/-!
# Names, connections and clients

`Registry` is about the names of sockets, the connections that wait and the clients of
the manager.  A process id may be used again by another process, so there can be a
thread of an old client with the same id.  Connections are accepted in the order they
were made in, and a name is free only after its socket was closed.  So the old client
is always the one that is waited for, and an open connection is never served by a
thread that belongs to another process.
-/

namespace DASim

section Registry

variable {β : Type}

/-! ## Connections that wait -/

/-- The connection that was accepted last and has no thread yet. -/
def AcceptState.current : AcceptState → List Nat
  | .reading n => [n]
  | .joining n _ => [n]
  | _ => []

/-- The process id of the connection was read. -/
def AcceptState.joins (n : Nat) : AcceptState → Bool
  | .joining m _ => m = n
  | _ => false

namespace System

/-- The connections that wait for a thread, in order. -/
def queue (s : System β) : List Nat := s.accept.current ++ s.backlog

/-- The thread that serves a process. -/
def seat (s : System β) (n : Nat) : Option HandlerState :=
  match s.handlers.find? (s.procs n).pid with
  | some h => if h.proc = n then some h.state else none
  | none => none

def place (s : System β) (n : Nat) : Place :=
  if s.accept.joins n then .joining else if n ∈ s.queue then .unread else .away

def conn (s : System β) (n : Nat) : Conn β := ⟨s.procs n, s.seat n, s.place n⟩

/-- The connections, the names and the clients fit. -/
structure Registry (s : System β) : Prop where
  names : ∀ pid n, s.names.find? pid = some n ↔
    (s.procs n).online = true ∧ (s.procs n).pid = pid
  nodup : s.queue.Nodup
  connected : ∀ n ∈ s.queue, (s.procs n).socket ≠ .unopened
  -- a process that connects has an id that no open connection has
  order : s.queue.Pairwise fun m n =>
    (s.procs m).online = true → (s.procs m).pid ≠ (s.procs n).pid
  joining : ∀ n pid, s.accept = .joining n pid → pid = (s.procs n).pid
  handled : ∀ pid h, s.handlers.find? pid = some h →
    (s.procs h.proc).pid = pid ∧ (s.procs h.proc).socket ≠ .unopened ∧ h.proc ∉ s.queue
  -- an open connection that does not wait has no other thread to wait for
  seated : ∀ n, (s.procs n).online = true → n ∉ s.queue →
    (∀ m ∈ s.queue, (s.procs m).pid ≠ (s.procs n).pid) ∧
      ∀ h, s.handlers.find? (s.procs n).pid = some h → h.proc = n

end System

/-! ## Where a connection is -/

/-- What the registry looks at of a process. -/
def Process.Same (p q : Process β) : Prop :=
  p.pid = q.pid ∧ p.socket = q.socket ∧ p.exited = q.exited

theorem Process.Same.online {p q : Process β} (h : p.Same q) : p.online = q.online := by
  obtain ⟨-, hsocket, hexited⟩ := h
  rw [Process.online, hsocket, hexited]
  rfl

namespace System

variable {s s' : System β} {m n : Nat} {pid : Int}

theorem mem_queue_of_joins (h : s.accept.joins n = true) : n ∈ s.queue := by
  unfold AcceptState.joins at h
  split at h
  next m pid hacc =>
    have hm : m = n := by simpa using h
    rw [queue, hacc, hm]
    exact List.mem_append_left _ (List.mem_singleton.mpr rfl)
  next => cases h

theorem place_eq_away : s.place n = .away ↔ n ∉ s.queue := by
  unfold place
  split
  next hjoins => simpa using mem_queue_of_joins hjoins
  next =>
    split
    next hmem => simpa using hmem
    next hmem => simpa using hmem

theorem place_eq_unread : s.place n = .unread ↔ s.accept.joins n = false ∧ n ∈ s.queue := by
  unfold place
  split
  next hjoins => simp [hjoins]
  next hjoins =>
    split
    next hmem => simpa [hmem] using hjoins
    next hmem => simp [hmem]

theorem place_eq_joining : s.place n = .joining ↔ s.accept.joins n = true := by
  unfold place
  split
  next hjoins => simp [hjoins]
  next hjoins => split <;> simp [hjoins]

theorem place_congr (hjoins : s'.accept.joins n = s.accept.joins n)
    (hqueue : n ∈ s'.queue ↔ n ∈ s.queue) : s'.place n = s.place n := by
  unfold place
  rw [hjoins]
  simp only [hqueue]

theorem seat_eq_some {x : HandlerState} :
    s.seat n = some x ↔ s.handlers.find? (s.procs n).pid = some ⟨n, x⟩ := by
  unfold seat
  split
  next h hfind =>
    obtain ⟨m, y⟩ := h
    by_cases hm : m = n <;> simp [hfind, hm]
  next hfind => simp [hfind]

theorem seat_congr (hpid : (s'.procs n).pid = (s.procs n).pid)
    (h : ∀ x, s'.handlers.find? (s.procs n).pid = some ⟨n, x⟩ ↔
      s.handlers.find? (s.procs n).pid = some ⟨n, x⟩) : s'.seat n = s.seat n := by
  refine Option.ext fun x => ?_
  rw [seat_eq_some, seat_eq_some, hpid]
  exact h x

theorem conn_congr (hproc : s'.procs n = s.procs n)
    (hseat : s'.handlers.find? (s.procs n).pid = s.handlers.find? (s.procs n).pid)
    (hplace : s'.place n = s.place n) : s'.conn n = s.conn n := by
  unfold conn seat
  rw [hproc, hseat, hplace]

theorem conn_eq (hprocs : s'.procs = s.procs) (hhandlers : s'.handlers = s.handlers)
    (haccept : s'.accept = s.accept) (hbacklog : s'.backlog = s.backlog) : s'.conn = s.conn := by
  funext n
  refine conn_congr (by rw [hprocs]) (by rw [hhandlers]) (place_congr (by rw [haccept]) ?_)
  rw [queue, queue, haccept, hbacklog]

/-! ## Names, connections and clients -/

@[simp]
theorem procs_setProc_self (p : Process β) : (s.setProc m p).procs m = p :=
  Function.update_self ..

theorem procs_setProc_ne (p : Process β) (hn : n ≠ m) : (s.setProc m p).procs n = s.procs n :=
  Function.update_of_ne hn ..

theorem same_setProc {p : Process β} (h : p.Same (s.procs m)) (n : Nat) :
    ((s.setProc m p).procs n).Same (s.procs n) := by
  by_cases hn : n = m
  · subst hn
    simpa [setProc] using h
  · simp [setProc, Function.update_of_ne hn, Process.Same]

namespace Registry

/-- A step that leaves the names, the queue and the processes behind the clients
alone. -/
theorem frame (h : s.Registry) (hprocs : ∀ n, (s'.procs n).Same (s.procs n))
    (hnames : s'.names = s.names) (hqueue : s'.queue = s.queue)
    (hjoining : ∀ n pid, s'.accept = .joining n pid → pid = (s.procs n).pid)
    (hhandlers : ∀ pid h', s'.handlers.find? pid = some h' →
      ∃ h, s.handlers.find? pid = some h ∧ h.proc = h'.proc) : s'.Registry where
  names := fun pid n => by
    rw [hnames, (hprocs n).online, (hprocs n).1]
    exact h.names pid n
  nodup := hqueue ▸ h.nodup
  connected := fun n hmem => by
    rw [(hprocs n).2.1]
    exact h.connected n (hqueue ▸ hmem)
  order := by
    rw [hqueue]
    refine h.order.imp fun {m n} hne honline => ?_
    rw [(hprocs m).1, (hprocs n).1]
    exact hne ((hprocs m).online ▸ honline)
  joining := fun n pid hacc => (hjoining n pid hacc).trans (hprocs n).1.symm
  handled := fun pid h' hfind => by
    obtain ⟨h₀, hfind₀, hproc⟩ := hhandlers pid h' hfind
    obtain ⟨hpid, hsocket, hmem⟩ := h.handled pid h₀ hfind₀
    rw [← hproc, (hprocs _).1, (hprocs _).2.1, hqueue]
    exact ⟨hpid, hsocket, hmem⟩
  seated := fun n honline hmem => by
    rw [(hprocs n).online] at honline
    rw [hqueue] at hmem
    obtain ⟨hother, hown⟩ := h.seated n honline hmem
    rw [hqueue, (hprocs n).1]
    refine ⟨fun m hm => ?_, fun h' hfind => ?_⟩
    · rw [(hprocs m).1]
      exact hother m hm
    · obtain ⟨h₀, hfind₀, hproc⟩ := hhandlers _ h' hfind
      exact hproc ▸ hown h₀ hfind₀

theorem unchanged (h : s.Registry) (hprocs : s'.procs = s.procs) (hnames : s'.names = s.names)
    (haccept : s'.accept = s.accept) (hbacklog : s'.backlog = s.backlog)
    (hhandlers : s'.handlers = s.handlers) : s'.Registry := by
  refine h.frame (fun _ => ?_) hnames ?_ (fun n pid hacc => h.joining n pid (haccept ▸ hacc))
    fun _ h' hfind => ⟨h', hhandlers ▸ hfind, rfl⟩
  · rw [hprocs]
    exact ⟨rfl, rfl, rfl⟩
  · rw [queue, queue, haccept, hbacklog]

/-- A step of one process that leaves its socket alone. -/
theorem setProc (h : s.Registry) {p : Process β} (hp : p.Same (s.procs m)) :
    (s.setProc m p).Registry :=
  h.frame (same_setProc hp) rfl rfl h.joining fun _ h' hfind => ⟨h', hfind, rfl⟩

/-- A step of the thread of a client. -/
theorem setHandler (h : s.Registry) {x y : HandlerState}
    (hfind : s.handlers.find? pid = some ⟨m, x⟩) : (s.setHandler pid ⟨m, y⟩).Registry := by
  refine h.frame (fun _ => ⟨rfl, rfl, rfl⟩) rfl rfl h.joining fun pid' h' hfind' => ?_
  rw [System.setHandler, OrdMap.find?_insert] at hfind'
  split at hfind'
  next heq =>
    cases hfind'
    exact ⟨⟨m, x⟩, heq ▸ hfind, rfl⟩
  next => exact ⟨h', hfind', rfl⟩

/-- A client whose process id a waiting connection has belongs to a process that hung
up. -/
theorem hungUp (h : s.Registry) {c : Handler} (hn : n ∈ s.queue)
    (hfind : s.handlers.find? (s.procs n).pid = some c) : (s.procs c.proc).hungUp = true := by
  obtain ⟨hpid, hsocket, hmem⟩ := h.handled _ c hfind
  by_contra hhung
  have honline : (s.procs c.proc).online = true := by
    simp only [Process.hungUp, Process.online] at hhung ⊢
    cases hs : (s.procs c.proc).socket <;> simp_all
  exact (h.seated c.proc honline hmem).1 n hn hpid.symm

/-- The process closes its socket, or ends. -/
theorem hangUp (h : s.Registry) {p : Process β} (hpid : p.pid = (s.procs m).pid)
    (hsocket : p.socket = .unopened → (s.procs m).socket = .unopened)
    (hp : p.online = false) : ((s.unbind m).setProc m p).Registry := by
  have hproc : ∀ n, (((s.unbind m).setProc m p).procs n).pid = (s.procs n).pid ∧
      ((((s.unbind m).setProc m p).procs n).online = true ↔
        n ≠ m ∧ (s.procs n).online = true) ∧
      ((((s.unbind m).setProc m p).procs n).socket = .unopened →
        (s.procs n).socket = .unopened) := by
    intro n
    by_cases hn : n = m
    · subst hn
      simpa [System.setProc, hpid, hp] using hsocket
    · rw [System.setProc, System.unbind]
      split <;> simp [hn]
  have hqueue : ((s.unbind m).setProc m p).queue = s.queue := by
    rw [System.setProc, System.unbind]
    split <;> rfl
  have hhandlers : ((s.unbind m).setProc m p).handlers = s.handlers := by
    rw [System.setProc, System.unbind]
    split <;> rfl
  have haccept : ((s.unbind m).setProc m p).accept = s.accept := by
    rw [System.setProc, System.unbind]
    split <;> rfl
  have hnames : ∀ pid n, ((s.unbind m).setProc m p).names.find? pid = some n ↔
      n ≠ m ∧ s.names.find? pid = some n := by
    intro pid n
    rw [System.setProc, System.unbind]
    have hfind := h.names (s.procs m).pid m
    split
    next honline =>
      simp only [OrdMap.find?_erase]
      split
      next heq =>
        simp only [heq, hfind.mpr ⟨honline, rfl⟩]
        simp [eq_comm]
      next hne =>
        refine ⟨fun hn => ⟨?_, hn⟩, fun hn => hn.2⟩
        rintro rfl
        exact hne ((h.names pid n).mp hn).2.symm
    next honline =>
      refine ⟨fun hn => ⟨?_, hn⟩, fun hn => hn.2⟩
      rintro rfl
      exact honline ((h.names pid n).mp hn).1
  exact {
    names := fun pid n => by
      rw [hnames, (hproc n).1, (hproc n).2.1, h.names, and_assoc]
    nodup := hqueue ▸ h.nodup
    connected := fun n hmem hs => h.connected n (hqueue ▸ hmem) ((hproc n).2.2 hs)
    order := by
      rw [hqueue]
      refine h.order.imp fun {m n} hne honline => ?_
      rw [(hproc m).1, (hproc n).1]
      exact hne ((hproc m).2.1.mp honline).2
    joining := fun n pid hacc => (h.joining n pid (haccept ▸ hacc)).trans (hproc n).1.symm
    handled := fun pid h' hfind => by
      obtain ⟨hpid', hs, hmem⟩ := h.handled pid h' (hhandlers ▸ hfind)
      rw [(hproc _).1, hqueue]
      exact ⟨hpid', fun hs' => hs ((hproc _).2.2 hs'), hmem⟩
    seated := fun n honline hmem => by
      obtain ⟨hother, hown⟩ := h.seated n ((hproc n).2.1.mp honline).2 (hqueue ▸ hmem)
      rw [hqueue, (hproc n).1, hhandlers]
      refine ⟨fun k hk => ?_, hown⟩
      rw [(hproc k).1]
      exact hother k hk }

/-- A process connects.  Its name is free, so no open connection has its id. -/
theorem connect (h : s.Registry) {p : Process β} (hpid : p.pid = (s.procs m).pid)
    (hunopened : (s.procs m).socket = .unopened) (hsocket : p.socket = .opened)
    (hexited : p.exited = false) (hname : s.names.find? (s.procs m).pid = none) :
    Registry { s.setProc m p with
      names := s.names.insert (s.procs m).pid m
      backlog := s.backlog ++ [m] } := by
  have hm : m ∉ s.queue := fun hmem => h.connected m hmem hunopened
  have hfree : ∀ n, (s.procs n).online = true → (s.procs n).pid ≠ (s.procs m).pid := by
    intro n honline heq
    rw [(h.names _ n).mpr ⟨honline, heq⟩] at hname
    cases hname
  have hself : (s.setProc m p).procs m = p := Function.update_self ..
  have hother : ∀ {n}, n ≠ m → (s.setProc m p).procs n = s.procs n := fun hn =>
    Function.update_of_ne hn ..
  have hpids : ∀ n, ((s.setProc m p).procs n).pid = (s.procs n).pid := by
    intro n
    by_cases hn : n = m
    · rw [hn, hself, hpid]
    · rw [hother hn]
  have hqueue : queue { s.setProc m p with
      names := s.names.insert (s.procs m).pid m
      backlog := s.backlog ++ [m] } = s.queue ++ [m] := (List.append_assoc ..).symm
  exact {
    names := fun pid n => by
      show (s.names.insert (s.procs m).pid m).find? pid = some n ↔
        ((s.setProc m p).procs n).online = true ∧ ((s.setProc m p).procs n).pid = pid
      rw [OrdMap.find?_insert, hpids]
      by_cases hn : n = m
      · subst hn
        rw [hself]
        simp only [Process.online, hsocket, hexited, decide_true, Bool.not_false, Bool.and_self,
          true_and]
        split
        next heq => simp [heq]
        next hne =>
          rw [h.names]
          simp [Process.online, hunopened, Ne.symm hne]
      · rw [hother hn]
        split
        next heq =>
          constructor
          · intro hmn
            exact absurd (Option.some.inj hmn).symm hn
          · rintro ⟨honline, hp⟩
            exact absurd (hp.trans heq) (hfree n honline)
        next => exact h.names pid n
    nodup := by
      rw [hqueue]
      exact List.nodup_append.mpr ⟨h.nodup, List.nodup_singleton m, fun a ha b hb => by
        rintro rfl
        exact hm (List.mem_singleton.mp hb ▸ ha)⟩
    connected := fun n hmem => by
      rw [hqueue, List.mem_append, List.mem_singleton] at hmem
      show ((s.setProc m p).procs n).socket ≠ .unopened
      by_cases hn : n = m
      · rw [hn, hself, hsocket]
        simp
      · rw [hother hn]
        exact h.connected n (hmem.resolve_right hn)
    order := by
      rw [hqueue]
      refine List.pairwise_append.mpr ⟨?_, List.pairwise_singleton _ _, fun a ha b hb honline => ?_⟩
      · refine h.order.imp_of_mem fun {a b} ha hb hne honline => ?_
        have hane : a ≠ m := fun heq => hm (heq ▸ ha)
        show ((s.setProc m p).procs a).pid ≠ ((s.setProc m p).procs b).pid
        rw [hpids, hpids]
        exact hne (hother hane ▸ honline)
      · have hane : a ≠ m := fun heq => hm (heq ▸ ha)
        show ((s.setProc m p).procs a).pid ≠ ((s.setProc m p).procs b).pid
        rw [hpids, hpids, List.mem_singleton.mp hb]
        exact hfree a (hother hane ▸ honline)
    joining := fun n pid hacc => (h.joining n pid hacc).trans (hpids n).symm
    handled := fun pid h' hfind => by
      obtain ⟨hpid', hs, hmem⟩ := h.handled pid h' hfind
      have hne : h'.proc ≠ m := fun heq => hs (heq ▸ hunopened)
      show ((s.setProc m p).procs h'.proc).pid = pid ∧
        ((s.setProc m p).procs h'.proc).socket ≠ .unopened ∧ _
      rw [hother hne, hqueue]
      exact ⟨hpid', hs, by simp [hmem, hne]⟩
    seated := fun n honline hmem => by
      rw [hqueue] at hmem ⊢
      simp only [List.mem_append, List.mem_singleton, not_or] at hmem
      have honline : (s.procs n).online = true := hother hmem.2 ▸ honline
      obtain ⟨hdiff, hown⟩ := h.seated n honline hmem.1
      show (∀ k ∈ s.queue ++ [m], ((s.setProc m p).procs k).pid ≠ ((s.setProc m p).procs n).pid) ∧
        ∀ h', s.handlers.find? ((s.setProc m p).procs n).pid = some h' → h'.proc = n
      rw [hpids]
      refine ⟨fun k hk => ?_, hown⟩
      rw [hpids]
      rcases List.mem_append.mp hk with hk | hk
      · exact hdiff k hk
      · rw [List.mem_singleton.mp hk]
        exact (hfree n honline).symm }

/-- The first of the connections that wait gets a thread, or is given up. -/
theorem pop (h : s.Registry) (hcurrent : s.accept.current = [n])
    (hprocs : ∀ n, (s'.procs n).Same (s.procs n)) (hnames : s'.names = s.names)
    (haccept : s'.accept = .polling) (hbacklog : s'.backlog = s.backlog)
    (hnew : ∀ pid h', s'.handlers.find? pid = some h' →
      s.handlers.find? pid = some h' ∨ h'.proc = n ∧ pid = (s.procs n).pid)
    (hself : (s.procs n).online = true →
      ∀ h', s'.handlers.find? (s.procs n).pid = some h' → h'.proc = n) : s'.Registry := by
  have hqueue : s.queue = n :: s'.queue := by
    rw [queue, queue, hcurrent, haccept, hbacklog]
    rfl
  have hnodup := h.nodup
  have horder := h.order
  rw [hqueue, List.nodup_cons] at hnodup
  rw [hqueue, List.pairwise_cons] at horder
  have hback : ∀ k, k ∈ s'.queue → k ∈ s.queue := fun k hk => hqueue ▸ List.mem_cons_of_mem n hk
  exact {
    names := fun pid k => by
      rw [hnames, (hprocs k).online, (hprocs k).1]
      exact h.names pid k
    nodup := hnodup.2
    connected := fun k hk => by
      rw [(hprocs k).2.1]
      exact h.connected k (hback k hk)
    order := by
      refine horder.2.imp fun {a b} hne honline => ?_
      rw [(hprocs a).1, (hprocs b).1]
      exact hne ((hprocs a).online ▸ honline)
    joining := fun k pid hacc => by
      rw [haccept] at hacc
      cases hacc
    handled := fun pid h' hfind => by
      rw [(hprocs _).1, (hprocs _).2.1]
      rcases hnew pid h' hfind with hold | ⟨hproc, hpid⟩
      · obtain ⟨hpid, hsocket, hmem⟩ := h.handled pid h' hold
        exact ⟨hpid, hsocket, fun hk => hmem (hback _ hk)⟩
      · rw [hproc]
        exact ⟨hpid.symm, h.connected n (hqueue ▸ List.mem_cons_self), hnodup.1⟩
    seated := fun k honline hmem => by
      rw [(hprocs k).online] at honline
      rw [(hprocs k).1]
      by_cases hk : k = n
      · subst hk
        refine ⟨fun a ha => ?_, hself honline⟩
        rw [(hprocs a).1]
        exact (horder.1 a ha honline).symm
      · obtain ⟨hother, hown⟩ := h.seated k honline (by simp [hqueue, hk, hmem])
        refine ⟨fun a ha => ?_, fun h' hfind => ?_⟩
        · rw [(hprocs a).1]
          exact hother a (hback a ha)
        · rcases hnew _ h' hfind with hold | ⟨-, hpid⟩
          · exact hown h' hold
          · exact absurd hpid.symm (hother n (hqueue ▸ List.mem_cons_self)) }

/-- The thread of a new client is started. -/
theorem seatFirst (h : s.Registry) (haccept : s.accept = .joining n pid)
    (hprocs : ∀ n, (s'.procs n).Same (s.procs n)) (hnames : s'.names = s.names)
    (hpolling : s'.accept = .polling) (hbacklog : s'.backlog = s.backlog)
    (hhandlers : s'.handlers = s.handlers.insert pid ⟨n, .polling⟩) : s'.Registry := by
  obtain rfl := h.joining n pid haccept
  refine h.pop (by rw [haccept]; rfl) hprocs hnames hpolling hbacklog (fun pid h' hfind => ?_) ?_
  · rw [hhandlers, OrdMap.find?_insert] at hfind
    split at hfind
    next heq =>
      cases hfind
      exact Or.inr ⟨rfl, heq⟩
    next => exact Or.inl hfind
  · intro _ h' hfind
    rw [hhandlers, OrdMap.find?_insert, if_pos rfl] at hfind
    cases hfind
    rfl

/-- Every step keeps the registry. -/
theorem step {a : Actor} (h : s.Registry) (hok : ∀ n, (s.conn n).Ok s.manager)
    (hstep : s.Step a s') : s'.Registry := by
  cases hstep with
  | enter | call | skip | introduce | send | receive | leave => exact h.setProc ⟨rfl, rfl, rfl⟩
  | connect hm ht hs hname =>
      exact h.connect rfl hs rfl ((hok _).alive (t := _) (by rw [conn, ht]; simp)) hname
  | close hm ht => exact h.hangUp rfl (fun hs => by cases hs) rfl
  | @exit n =>
      have hoffline : (s.procs n).exit.online = false := by simp [Process.online, Process.exit]
      exact (h.hangUp (p := (s.procs n).exit) rfl (fun hs => hs) hoffline).unchanged
        rfl rfl rfl rfl rfl
  | accept hacc _ hback =>
      refine h.frame (fun _ => ⟨rfl, rfl, rfl⟩) rfl ?_ (fun _ _ hj => by cases hj)
        fun _ h' hfind => ⟨h', hfind, rfl⟩
      rw [queue, queue, hacc, hback]
      rfl
  | acceptEnd hacc =>
      refine h.frame (fun _ => ⟨rfl, rfl, rfl⟩) rfl ?_ (fun _ _ hj => by cases hj)
        fun _ h' hfind => ⟨h', hfind, rfl⟩
      rw [queue, queue, hacc]
      rfl
  | refuse => exact h
  | @greet n packet up hacc hup =>
      refine h.frame (same_setProc ⟨rfl, rfl, rfl⟩) rfl ?_ (fun k pid hj => ?_)
        fun _ h' hfind => ⟨h', hfind, rfl⟩
      · rw [queue, queue, hacc]
        rfl
      · cases hj
        have hplace : s.place n = .unread := place_eq_unread.mpr ⟨by rw [hacc]; rfl, by
          rw [queue, hacc]
          exact List.mem_cons_self⟩
        rw [((hok n).greeting hplace packet up hup).1]
        rfl
  | giveUp hacc _ hhung =>
      refine h.pop (by rw [hacc]; rfl) (fun _ => ⟨rfl, rfl, rfl⟩) rfl rfl rfl
        (fun _ _ hfind => Or.inl hfind) fun honline => ?_
      rw [Conn.not_online hhung] at honline
      cases honline
  | start hacc => exact h.seatFirst hacc (fun _ => ⟨rfl, rfl, rfl⟩) rfl rfl rfl rfl
  | restart hacc => exact h.seatFirst hacc (same_setProc ⟨rfl, rfl, rfl⟩) rfl rfl rfl rfl
  | @read pid n params up hfind =>
      exact (h.setProc (p := { s.procs n with up := up }) ⟨rfl, rfl, rfl⟩).setHandler hfind
  | @reply pid n answer hfind =>
      have hsame : Process.Same { s.procs n with down := (s.procs n).down ++ [answer] }
          (s.procs n) := ⟨rfl, rfl, rfl⟩
      exact (h.setProc hsame).setHandler hfind
  | quit hfind | unheard hfind => exact h.setHandler hfind
  | lock _ hfind | lockClean _ hfind | serve hfind | clean hfind =>
      exact (h.setHandler hfind).unchanged rfl rfl rfl rfl rfl
  | clear _ hfind =>
      refine h.frame (same_setProc ⟨rfl, rfl, rfl⟩) rfl rfl h.joining fun pid' h' hfind' => ?_
      rw [OrdMap.find?_erase] at hfind'
      split at hfind'
      next => cases hfind'
      next => exact ⟨h', hfind', rfl⟩
  | fault | store | ready | userfaultEnd | lockFault | readFault | noFault | serveFault | signal
  | joinAccept | joinUserfault => exact h.unchanged rfl rfl rfl rfl rfl
  | finish =>
      exact h.frame (fun _ => ⟨rfl, rfl, rfl⟩) rfl rfl h.joining fun _ h' hfind => ⟨h', hfind, rfl⟩

end Registry

end System

end Registry

end DASim
