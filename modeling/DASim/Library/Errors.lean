import DASim.Client.Persist
import DASim.Demo.File

/-!
# Errors the library reports

A call of the library fails with -1 or with an invalid handle, and leaves the
error in `errno`.  It should do so whenever the manager answers one of its
requests with an error.  All calls do, but one: `damemory_persist` returns 0 for a
request that was refused.  So `demoSync` and `demoClose` acknowledge data that was
not persisted.
-/

namespace DASim

/-! ## What a call reports -/

/-- A call of the library that can be refused. -/
inductive LibCall where
  | alloc (id size : Nat) (persistent : Bool)
  | map (id : Nat)
  | unmap (handle : Handle)
  | anchor (id : Nat)
  | unanchor (id : Nat)
  | persist (handle : Handle) (off size : Nat)
  | advise (id : Nat)

/-- What the caller sees of a call: whether it failed, and the error code. -/
structure Report where
  failed : Bool
  errno : Option Errno
deriving DecidableEq, Repr

def HandleStatus.report (h : HandleStatus) : Report := ⟨!h.handle.valid, h.errno⟩

def Status.report (r : Status) : Report := ⟨r.value = -1, r.errno⟩

/-- The call, with what the caller sees of it. -/
def LibCall.program (k : Kernel) : LibCall → Program Report
  | .alloc id size persistent => HandleStatus.report <$> damemoryAlloc id size persistent k
  | .map id => HandleStatus.report <$> damemoryMap id k
  | .unmap handle => Status.report <$> damemoryUnmap handle k
  | .anchor id => Status.report <$> damemoryAnchor id
  | .unanchor id => Status.report <$> damemoryUnanchor id
  | .persist handle off size => Status.report <$> damemoryPersist handle off size
  | .advise id => Status.report <$> damemoryAdvise id

/-- The errors in the answers. -/
def errors {σ : Type} (log : List (Exchange σ CallParams (Except Errno CallResult))) : List Errno :=
  log.filterMap fun x => errorOf x.answer

/-- A call that had an error for an answer returns and reports it, and a call that
reports success had none. -/
structure Reports {σ : Type} (log : List (Exchange σ CallParams (Except Errno CallResult)))
    (o : Option Report) : Prop where
  error : ∀ e ∈ errors log, ∃ r, o = some r ∧ r.failed = true ∧ r.errno = some e
  success : ∀ r, o = some r → r.failed = false → errors log = []

section Programs

variable {σ : Type} {moves : σ → σ → Prop}
  {serve : CallParams → σ → Except Errno CallResult → σ → Prop} {s t : σ} {q : CallParams}
  {log : List (Exchange σ CallParams (Except Errno CallResult))} {k : Kernel}

theorem errors_cons {x : Exchange σ CallParams (Except Errno CallResult)}
    (h : errorOf x.answer = none) : errors (x :: log) = errors log :=
  List.filterMap_cons_none h

theorem reports_of_granted (h : errors log = []) (o : Option Report) : Reports log o :=
  ⟨fun _ he => absurd (h ▸ he) List.not_mem_nil, fun _ _ _ => h⟩

theorem reports_of_refused {e : Errno} (h : errors log = [e]) :
    Reports log (some ⟨true, some e⟩) := by
  refine ⟨fun e' he' => ?_, fun r hr hok => ?_⟩
  · rw [h, List.mem_singleton] at he'
    exact ⟨_, rfl, rfl, congrArg some he'.symm⟩
  · cases hr
    cases hok

/-- A request that is refused is reported.  If it is granted, the rest of the
program has to report its own errors. -/
theorem reports_request {α : Type} {next : Except Errno CallResult → Program α}
    {report : α → Report} {o : Option α} (h : Talks moves serve (.ask q next) s log o t)
    (hrefused : ∀ e, ∃ a, next (.error e) = .done a ∧ report a = ⟨true, some e⟩)
    (hgranted : ∀ {result s₁ rest}, Talks moves serve (next (.ok result)) s₁ rest o t →
      Reports rest (o.map report)) : Reports log (o.map report) := by
  obtain ⟨s₁, answer, s₂, rest, -, -, hrest, rfl⟩ := Talks.ask_iff.mp h
  cases answer with
  | error e =>
      obtain ⟨a, hnext, ha⟩ := hrefused e
      rw [hnext] at hrest
      obtain ⟨rfl, rfl, -⟩ := Talks.done_iff.mp hrest
      rw [Option.map_some, ha]
      exact reports_of_refused rfl
  | ok result =>
      have hcons : errors (⟨s₁, q, .ok result⟩ :: rest) = errors rest := errors_cons rfl
      exact ⟨hcons ▸ (hgranted hrest).error, hcons ▸ (hgranted hrest).success⟩

theorem plainCall_reports {o : Option Status} (h : Talks moves serve (plainCall q) s log o t) :
    Reports log (o.map Status.report) := by
  refine reports_request h (fun e => ⟨_, rfl, rfl⟩) fun hrest => ?_
  obtain ⟨rfl, -⟩ := Talks.done_iff.mp hrest
  exact reports_of_granted rfl _

theorem damemoryUnmap_reports {handle : Handle} {o : Option Status}
    (h : Talks moves serve (damemoryUnmap handle k) s log o t) :
    Reports log (o.map Status.report) := by
  simp only [damemoryUnmap, Dialogue.request_bind] at h
  split at h
  next =>
    refine reports_request h (fun e => ⟨_, rfl, rfl⟩) fun hrest => ?_
    dsimp only at hrest
    split at hrest
    next =>
      obtain ⟨rfl, -⟩ := Talks.done_iff.mp hrest
      exact reports_of_granted rfl _
    next =>
      obtain ⟨rfl, -⟩ := Talks.stop_iff.mp hrest
      exact reports_of_granted rfl _
  next =>
    obtain ⟨rfl, -⟩ := Talks.done_iff.mp h
    exact reports_of_granted rfl _

theorem damemoryAlloc_reports {id size : Nat} {persistent : Bool} {o : Option HandleStatus}
    (h : Talks moves serve (damemoryAlloc id size persistent k) s log o t) :
    Reports log (o.map HandleStatus.report) := by
  unfold damemoryAlloc at h
  split at h
  next =>
    obtain ⟨rfl, -⟩ := Talks.done_iff.mp h
    exact reports_of_granted rfl _
  next =>
    split at h
    next =>
      obtain ⟨rfl, -⟩ := Talks.done_iff.mp h
      exact reports_of_granted rfl _
    next addr _ =>
      refine reports_request h (fun e => ⟨_, rfl, rfl⟩) fun hrest => ?_
      obtain ⟨rfl, -, -⟩ := talks_attached hrest
      exact reports_of_granted rfl _

theorem damemoryMap_reports {id : Nat} {o : Option HandleStatus}
    (h : Talks moves serve (damemoryMap id k) s log o t) (hk : o = none → k.munmapOk = true) :
    Reports log (o.map HandleStatus.report) := by
  simp only [damemoryMap, Dialogue.request_bind] at h
  refine reports_request h (fun e => ⟨_, rfl, rfl⟩) fun hrest => ?_
  dsimp only at hrest
  split at hrest
  next =>
    obtain ⟨rfl, -⟩ := Talks.done_iff.mp hrest
    exact reports_of_granted rfl _
  next addr _ =>
    -- a second request is refused, and then the library has to unmap
    obtain ⟨s₃, answer, s₄, rest', -, -, hlast, rfl⟩ := Talks.ask_iff.mp hrest
    cases answer with
    | error e =>
        dsimp only at hlast
        split at hlast
        next =>
          obtain ⟨rfl, rfl, -⟩ := Talks.done_iff.mp hlast
          exact reports_of_refused rfl
        next hfail =>
          obtain ⟨rfl, rfl, -⟩ := Talks.stop_iff.mp hlast
          exact absurd (hk rfl) hfail
    | ok result =>
        obtain ⟨rfl, -, -⟩ := talks_attached hlast
        exact reports_of_granted rfl _

/-- `damemory_persist` sends one request, and whatever the answer is, it reports
success. -/
theorem damemoryPersist_log {handle : Handle} {off size : Nat} {o : Option Status}
    (h : Talks moves serve (damemoryPersist handle off size) s log o t) : ∃ s₁ answer,
      log = [⟨s₁, .persist handle.addr off size, answer⟩] ∧ o = some ⟨0, errorOf answer⟩ ∧
        moves s s₁ ∧ serve (.persist handle.addr off size) s₁ answer t := by
  obtain ⟨s₁, answer, s₂, rest, hm, hs, hrest, rfl⟩ := Talks.ask_iff.mp h
  obtain ⟨rfl, rfl, rfl⟩ := Talks.done_iff.mp hrest
  exact ⟨s₁, answer, rfl, rfl, hm, hs⟩

end Programs

/-! ## The results -/

namespace Damanager

/-- The request is to persist memory the process has not mapped, or a range that
can not be persisted. -/
def refusesPersist (pid : Int) (s : Damanager) : CallParams → Bool
  | .persist addr off size =>
      match (s.clients.find? pid).bind fun c => c.mappings.find? addr with
      | none => true
      | some id => !(s.regions.contains id && (s.buffer.canPersist id off size).isOk)
  | _ => false

variable {s t : Damanager} {pid : Int} {addr off size : Nat} {answer : Except Errno CallResult}

/-- Only these requests are refused. -/
theorem Answers.persist (ha : s.Agrees) (h : s.Answers pid (.persist addr off size) answer t) :
    errorOf answer = none ↔ s.refusesPersist pid (.persist addr off size) = false := by
  obtain ⟨mappings, env, hc, hcall⟩ := h
  cases hid : mappings.find? addr with
  | none =>
      simp only [handleCall, hid] at hcall
      cases hcall
      simp [refusesPersist, hc, hid, errorOf]
  | some id =>
      simp only [handleCall, hid] at hcall
      rw [refusesPersist, hc, Option.bind_some]
      simp only [hid]
      obtain ⟨⟨ret, cm⟩, hret, hcall⟩ := ok_of_bind hcall
      cases hcall
      cases hr : s.regions.find? id with
      | none =>
          rw [ClientManager.persist, hr] at hret
          cases hret
          simp [errorOf, Except.map, OrdMap.contains, hr]
      | some r =>
          cases hcan : s.buffer.canPersist id off size with
          | error e =>
              obtain ⟨e', hret'⟩ := ClientManager.persist_refused hr hcan env
              cases hret.symm.trans hret'
              simp [errorOf, Except.map, Except.isOk, Except.toBool]
          | ok u =>
              obtain ⟨cm', hret'⟩ := ClientManager.persist_exists ha hr hcan env
              cases hret.symm.trans hret'
              simp [errorOf, Except.map, OrdMap.contains, hr, Except.isOk, Except.toBool]

end Damanager

section Results

variable {nrPagesRam nrPagesSwap : Nat} {files : OrdMap Nat PersFile} {pid : Int} {s t : Damanager}
  {log : List (Exchange Damanager CallParams (Except Errno CallResult))} {k : Kernel}

/-- No other call than `damemory_persist` asks to persist. -/
theorem LibCall.asks (pid : Int) {call : LibCall}
    (h : ∀ handle off size, call ≠ .persist handle off size) :
    (call.program k).Asks fun q => ∀ s : Damanager, s.refusesPersist pid q = false := by
  cases call with
  | alloc => exact (damemoryAlloc_asks fun _ _ => rfl).bind fun _ => trivial
  | map => exact (damemoryMap_asks (fun _ => rfl) fun _ _ _ => rfl).bind fun _ => trivial
  | unmap => exact (damemoryUnmap_asks fun _ => rfl).bind fun _ => trivial
  | anchor | unanchor | advise => exact (plainCall_asks fun _ => rfl).bind fun _ => trivial
  | persist handle off size => exact absurd rfl (h handle off size)

/-- A call that is not `damemory_persist` reports what it is answered. -/
theorem LibCall.reports {call : LibCall} {o : Option Report}
    (hcall : ∀ handle off size, call ≠ .persist handle off size)
    (h : Damanager.Talk (fun _ _ => True) pid (call.program k) s log o t)
    (hk : o = none → k.munmapOk = true) : Reports log o := by
  cases call with
  | alloc =>
      obtain ⟨o', h', rfl⟩ := Talks.of_map h
      exact damemoryAlloc_reports h'
  | map =>
      obtain ⟨o', h', rfl⟩ := Talks.of_map h
      exact damemoryMap_reports h' fun hnone => hk (by rw [hnone]; rfl)
  | unmap =>
      obtain ⟨o', h', rfl⟩ := Talks.of_map h
      exact damemoryUnmap_reports h'
  | anchor | unanchor | advise =>
      obtain ⟨o', h', rfl⟩ := Talks.of_map h
      exact plainCall_reports h'
  | persist handle off size => exact absurd rfl (hcall handle off size)

/-- `damemory_persist` reports what it is answered if it is not refused. -/
theorem LibCall.persist_reports {handle : Handle} {off size : Nat} {o : Option Report}
    (hs : Damanager.Reachable nrPagesRam nrPagesSwap files s)
    (h : Damanager.Talk (fun _ _ => True) pid ((LibCall.persist handle off size).program k) s log o
      t) : Reports log o ↔ ∀ x ∈ log, x.state.refusesPersist pid x.query = false := by
  obtain ⟨o', h', rfl⟩ := Talks.of_map h
  obtain ⟨s₁, answer, rfl, rfl, hrun, hans⟩ := damemoryPersist_log h'
  have hintact := Damanager.Reachable.intact (hs.trans hrun)
  rw [List.forall_mem_singleton, ← hans.persist hintact.agrees]
  cases answer with
  | error e =>
      refine ⟨fun hreports => ?_, fun hnone => by cases hnone⟩
      cases hreports.success _ rfl rfl
  | ok result => exact ⟨fun _ => rfl, fun _ => reports_of_granted rfl _⟩

/-- `demoSync` acknowledges what was persisted. -/
theorem demoSync_acknowledges {p : DemoFile} {o : Option SqliteCode}
    (hs : Damanager.Reachable nrPagesRam nrPagesSwap files s)
    (h : Damanager.Talk (fun _ _ => True) pid (demoSync p) s log o t)
    (hlog : ∀ x ∈ log, x.state.refusesPersist pid x.query = false) : errors log = [] := by
  obtain ⟨s₁, answer, s₂, rest, hrun, hans, hrest, rfl⟩ := Talks.ask_iff.mp h
  obtain ⟨rfl, -, -⟩ := Talks.done_iff.mp hrest
  have hintact := Damanager.Reachable.intact (hs.trans hrun)
  have hnone := (hans.persist hintact.agrees).mpr (hlog _ List.mem_cons_self)
  exact errors_cons hnone

/-- So does `demoClose`, which unmaps the region too. -/
theorem demoClose_acknowledges {p : DemoFile}
    (hs : Damanager.Reachable nrPagesRam nrPagesSwap files s)
    (h : Damanager.Talk (fun _ _ => True) pid (demoClose p k) s log (some .ok) t)
    (hlog : ∀ x ∈ log, x.state.refusesPersist pid x.query = false) : errors log = [] := by
  obtain ⟨s₁, answer, s₂, rest, hrun, hans, hrest, rfl⟩ := Talks.ask_iff.mp h
  have hintact := Damanager.Reachable.intact (hs.trans hrun)
  have hnone := (hans.persist hintact.agrees).mpr (hlog _ List.mem_cons_self)
  obtain ⟨o, hunmap, hcode⟩ := Talks.of_map (p := damemoryUnmap p.handle k)
    (g := fun status : Status => if status.value ≠ 0 then SqliteCode.ioerrClose else .ok) hrest
  obtain ⟨status, rfl, hok⟩ := Option.map_eq_some_iff.mp hcode.symm
  have hvalue : status.value = 0 := by
    by_contra hne
    rw [if_pos hne] at hok
    cases hok
  have hunmapped := (damemoryUnmap_reports hunmap).success _ rfl (by simp [Status.report, hvalue])
  exact (errors_cons hnone).trans hunmapped

/-- In every state the manager can be in, and with any steps of the manager
between the requests, every call of the library reports every error it is answered
with, if and only if it does not ask to persist what can not be persisted.  Under
the same condition `demoSync` and `demoClose` acknowledge only what was persisted.
If `munmap` fails in `damemory_map`, the process ends. -/
theorem library_reports_errors (pid : Int)
    (hs : Damanager.Reachable nrPagesRam nrPagesSwap files s) :
    (∀ call k log o t, Damanager.Talk (fun _ _ => True) pid (LibCall.program k call) s log o t →
      (o = none → k.munmapOk = true) →
        (Reports log o ↔ ∀ x ∈ log, x.state.refusesPersist pid x.query = false)) ∧
    ∀ p k log t, (Damanager.Talk (fun _ _ => True) pid (demoSync p) s log (some .ok) t ∨
        Damanager.Talk (fun _ _ => True) pid (demoClose p k) s log (some .ok) t) →
      (∀ x ∈ log, x.state.refusesPersist pid x.query = false) → errors log = [] := by
  refine ⟨fun call k log o t h hk => ?_, fun p k log t h hlog => ?_⟩
  · by_cases hcall : ∃ handle off size, call = .persist handle off size
    · obtain ⟨handle, off, size, rfl⟩ := hcall
      exact LibCall.persist_reports hs h
    · simp only [not_exists] at hcall
      have hasks := Talks.asks h (LibCall.asks pid hcall)
      exact ⟨fun _ x hx => hasks x hx x.state, fun _ => LibCall.reports hcall h hk⟩
  · rcases h with h | h
    · exact demoSync_acknowledges hs h hlog
    · exact demoClose_acknowledges hs h hlog

end Results

/-- Advice is not supported, and the library says so. -/
theorem library_reports_errors_advise : ∃ log o t,
    Damanager.Talk (fun _ _ => True) 7 ((LibCall.advise 1).program {}) connected log o t ∧
      errors log = [.enotsup] ∧ Reports log o := by
  have htalk : Damanager.Talk (fun _ _ => True) 7 ((LibCall.advise 1).program {}) connected
      [⟨connected, .advise 1, .error .enotsup⟩] (some ⟨true, some .enotsup⟩) connected :=
    .ask .refl ⟨.empty, {}, rfl, rfl⟩ .done
  refine ⟨_, _, _, htalk, rfl, ?_⟩
  have hiff := (library_reports_errors 7 connected_reachable).1 _ _ _ _ _ htalk
    fun hnone => by cases hnone
  exact hiff.mpr (by simp [Damanager.refusesPersist])

/-- An anonymous region can not be persisted.  The call returns 0, and a file in
the region is reported as synced. -/
theorem refused_persist_succeeds : ∃ s log t log' t',
    Damanager.Reachable 2 1 .empty s ∧
    Damanager.Talk (fun _ _ => True) 7 (damemoryPersist pageFile.handle 0 pageSize) s log
      (some ⟨0, some .eopnotsupp⟩) t ∧ errors log = [.eopnotsupp] ∧
    Damanager.Talk (fun _ _ => True) 7 (demoSync pageFile) s log' (some .ok) t' ∧
      errors log' = [.eopnotsupp] := by
  have hrun : reaches Action.exec (fun _ _ => true)
      (fun s => (s.clients.find? 7).any fun c => c.running &&
        (s.handleCall 7 ⟨c.mappings, true⟩ (.persist 0x1000 0 pageSize) {}).toOption.any
          fun r => r.1 = .error .eopnotsupp)
      [.connect 7, .call 7 (.alloc 1 0x1000 pageSize false) allocEnv]
      (.init 2 1 .empty) = true := by decide +kernel
  obtain ⟨s, hs, h⟩ : ∃ s, Damanager.Reachable 2 1 .empty s ∧ _ :=
    Runs.of_reaches hrun fun _ _ _ _ => trivial
  simp only [Bool.and_eq_true, Option.any_eq_true, decide_eq_true_eq] at h
  obtain ⟨⟨mappings, running⟩, hc, rfl, ⟨res, t⟩, hcall, rfl⟩ := h
  have hans : s.Answers 7 (.persist pageFile.handle.addr 0 pageSize) (.error .eopnotsupp) t :=
    ⟨mappings, {}, hc, eq_ok_of_toOption hcall⟩
  exact ⟨s, _, t, _, t, hs, .ask .refl hans .done, rfl, .ask .refl hans .done, rfl⟩

end DASim
