import DASim.Demo.Vfs

/-!
# Isolation of the files of the demo VFS

Every request an operation sends is about the region of its path.  So an operation
is a step of the machine of its path, and it leaves the state of every path with
another id as it is.  A run of operations on many paths is, for each path, a run of
the machine of that path.

Two paths have the same id if their first 8 bytes are the same.  A database with a
path of 8 bytes or more shares its region with its journal.
-/

namespace DASim

/-! ## Requests about one region -/

/-- The request is about a region, whatever the process has mapped, and is not one
for an anonymous region. -/
def CallParams.About (id : Nat) : CallParams → Prop
  | .alloc id' _ _ persistent => id' = id ∧ persistent = true
  | .anchor id' => id' = id
  | .unanchor id' => id' = id
  | .getSize id' => id' = id
  | .map id' _ _ => id' = id
  | _ => False

/-- A manager that began in one state has come to another, and only one region
has changed. -/
structure Follows (id : Nat) (s₀ s : Damanager) (x : View) : Prop where
  view : (s.view id).blind = x
  others : ∀ id', id' ≠ id → (s.view id').blind = (s₀.view id').blind

section Follows

variable {id : Nat} {s₀ s t : Damanager} {x : View} {pid : Int} {env : CallEnv}
  {params : CallParams} {answer : Except Errno CallResult}

theorem serve_answers (h : Damanager.serve pid env params s = .ok (answer, t)) :
    ∃ mappings, s.clients.find? pid = some ⟨mappings, true⟩ ∧
      s.handleCall pid ⟨mappings, true⟩ params env = .ok (answer, t) := by
  unfold Damanager.serve at h
  split at h
  next mappings hc =>
    refine ⟨mappings, hc, ?_⟩
    cases hcall : s.handleCall pid ⟨mappings, true⟩ params env with
    | error e =>
        rw [hcall] at h
        cases h
    | ok r =>
        rw [hcall] at h
        cases h
        rfl
  next => cases h

/-- A request about the region does to its view what `View.answer` says. -/
theorem Follows.handleCall {c : Client} (h : Follows id s₀ s x)
    (hpages : ∀ id addr size, params ≠ .alloc id addr size false)
    (htarget : params.target c = some id)
    (hcall : s.handleCall pid c params env = .ok (answer, t)) :
    ∃ y, View.answer (s.outcomes params env) params x = (answer, y) ∧ Follows id s₀ t y := by
  obtain ⟨hview, hsame⟩ := Damanager.handleCall_view hcall htarget
  obtain ⟨hres, hblind⟩ := (s.view id).serve_blind (s.outcomes params env) hpages
  rw [h.view, hview] at hres hblind
  exact ⟨(t.view id).blind, Prod.ext hres hblind, rfl,
    fun id' hne => (hsame.blind hne).trans (h.others id' hne)⟩

theorem Follows.serve (h : Follows id s₀ s x) (habout : params.About id)
    (hserve : Damanager.serve pid env params s = .ok (answer, t)) :
    ∃ y, View.answer (s.outcomes params env) params x = (answer, y) ∧ Follows id s₀ t y := by
  obtain ⟨mappings, -, hcall⟩ := serve_answers hserve
  refine h.handleCall (fun id' addr size heq => ?_) ?_ hcall
  · subst heq
    cases habout.2
  · cases params with
    | alloc => exact congrArg some habout.1
    | anchor | unanchor | getSize | map => exact congrArg some habout
    | unmap | persist | advise | unknown => exact habout.elim

/-- A run of a program of the process. -/
abbrev Program.Run {α : Type} (pid : Int) (p : Program α) (env : Nat → CallEnv) (s : Damanager)
    (a : α) (outcomes : List Outcomes) (t : Damanager) : Prop :=
  p.run (Damanager.serve pid) (fun env params s => s.outcomes params env) env s =
    .ok (some a, outcomes, t)

theorem run_of_call {α : Type} {p : Program α} {env : Nat → CallEnv} {a : α}
    {outcomes : List Outcomes} (h : Vfs.call pid p env s = .ok (a, outcomes, t)) :
    Program.Run pid p env s a outcomes t := by
  obtain ⟨⟨o, hs, u⟩, hrun, h⟩ := ok_of_bind h
  cases o with
  | none => cases h
  | some a' =>
      cases h
      exact hrun

theorem call_of_replay {α : Type} {p : Program α} {outcomes rest : List Outcomes} {x y : View}
    {a : α} (h : p.replay View.answer outcomes x = (some a, rest, y)) :
    FileState.call p outcomes x = some (a, y) := by
  rw [FileState.call, h]

/-- A program that only asks about one region. -/
theorem call_follows {α : Type} {p : Program α} {env : Nat → CallEnv} {a : α}
    {outcomes : List Outcomes} (hp : p.Asks (CallParams.About id))
    (h : Vfs.call pid p env s = .ok (a, outcomes, t)) :
    ∃ y, FileState.call p outcomes (s.view id).blind = some (a, y) ∧ Follows id s t y := by
  obtain ⟨y, hreplay, hf⟩ := Dialogue.run_replay (S := Follows id s) hp
    (fun _ _ _ _ _ _ habout hf hserve => hf.serve habout hserve) (run_of_call h)
    ⟨rfl, fun _ _ => rfl⟩ []
  rw [List.append_nil] at hreplay
  exact ⟨y, call_of_replay hreplay, hf⟩

/-- The process has mapped the region at an address. -/
def Mapped (pid : Int) (id addr : Nat) (s : Damanager) : Prop :=
  ∃ mappings, s.clients.find? pid = some ⟨mappings, true⟩ ∧ mappings.find? addr = some id

/-- A run of a program is a dialogue without other steps. -/
theorem talk_of_run {α : Type} {p : Program α} {env : Nat → CallEnv} {o : Option α}
    {outcomes : List Outcomes} (h : p.run (Damanager.serve pid)
      (fun env params s => s.outcomes params env) env s = .ok (o, outcomes, t)) :
    ∃ log, Damanager.Talk (fun _ _ => True) pid p s log o t := by
  refine Talks.of_run (fun _ => .refl) (fun e q s r t hserve => ?_) h
  obtain ⟨mappings, hc, hcall⟩ := serve_answers hserve
  exact ⟨mappings, e, hc, hcall⟩

/-- A request that maps a region, once it is granted. -/
theorem Damanager.Answers.mapped {addr : Nat} {result : CallResult}
    (h : s.Answers pid params (.ok result) t) (hclients : ∀ c, params.clients pid c true s.clients =
      s.clients.insert pid { c with mappings := c.mappings.insert addr id }) :
    Mapped pid id addr t := by
  obtain ⟨mappings, env, hc, hcall⟩ := h
  have heq := handleCall_clients hcall
  rw [show (Except.ok result : Except Errno CallResult).isOk = true from rfl, hclients] at heq
  exact ⟨mappings.insert addr id, by rw [heq, OrdMap.find?_insert_self],
    OrdMap.find?_insert_self ..⟩

/-! ## Opening a file -/

theorem allocHandle_asks (id : Nat) (k : OpenKernel) :
    (allocHandle id k).Asks (CallParams.About id) :=
  (damemoryAlloc_asks fun _ => ⟨rfl, rfl⟩).bind fun _ => trivial

theorem openHandle_asks (id : Nat) (flags : OpenFlags) (k : OpenKernel) :
    (openHandle id flags k).Asks (CallParams.About id) := by
  unfold openHandle
  split
  next => exact allocHandle_asks id k
  next =>
    refine (damemoryMap_asks (G := CallParams.About id) rfl fun _ _ => rfl).bind fun h => ?_
    split
    next => trivial
    next =>
      split
      next => exact allocHandle_asks id k
      next => trivial

variable {env : Nat → CallEnv} {outcomes : List Outcomes} {flags : OpenFlags} {k : OpenKernel}
  {handle : Handle} {created : Bool}

theorem allocHandle_mapped
    (h : Program.Run pid (allocHandle id k) env s (some (handle, created)) outcomes t) :
    handle.valid = true ∧ Mapped pid id handle.addr t := by
  rcases Dialogue.run_bind h with ⟨r, hs₁, hs₂, env', u, hrun, hlast, -⟩ | ⟨-, ho⟩
  · cases hvalid : r.handle.valid with
    | false => simp [Dialogue.run, hvalid] at hlast
    | true =>
        rw [hvalid, if_pos rfl] at hlast
        cases hlast
        obtain ⟨log, htalk⟩ := talk_of_run hrun
        obtain ⟨s₁, result, -, hans⟩ := damemoryAlloc_granted htalk hvalid
        exact ⟨hvalid, hans.mapped fun _ => rfl⟩
  · cases ho

theorem openHandle_mapped
    (h : Program.Run pid (openHandle id flags k) env s (some (handle, created)) outcomes t) :
    handle.valid = true ∧ Mapped pid id handle.addr t := by
  unfold Program.Run openHandle at h
  split at h
  next => exact allocHandle_mapped h
  next =>
    rcases Dialogue.run_bind h with ⟨r, hs₁, hs₂, env', u, hrun, hlast, -⟩ | ⟨-, ho⟩
    · split at hlast
      next hvalid =>
        cases hlast
        obtain ⟨log, htalk⟩ := talk_of_run hrun
        obtain ⟨s₁, size, result, hans⟩ := damemoryMap_granted htalk hvalid
        exact ⟨hvalid, hans.mapped fun _ => rfl⟩
      next =>
        split at hlast
        next => exact allocHandle_mapped hlast
        next => cases hlast
    · cases ho

/-- Anchoring maps nothing and unmaps nothing. -/
theorem damemoryAnchor_mapped {addr : Nat} {status : Status} (hm : Mapped pid id addr s)
    (h : Program.Run pid (damemoryAnchor id) env s status outcomes t) : Mapped pid id addr t := by
  obtain ⟨answer, u, hs, hserve, hlast, -⟩ := Dialogue.run_ask h
  obtain ⟨mappings, -, hcall⟩ := serve_answers hserve
  have hclients : u.clients = s.clients := Damanager.handleCall_clients hcall
  have heq : t = u := by
    cases answer with
    | error e =>
        cases hlast
        rfl
    | ok result =>
        cases hlast
        rfl
  rw [heq, Mapped, hclients]
  exact hm

/-- A request to unmap is about the region that is mapped at the address. -/
theorem Follows.unmap {env : CallEnv} {addr : Nat} {x : View} (h : Follows id s₀ s x)
    (hm : Mapped pid id addr s)
    (hserve : Damanager.serve pid env (.unmap addr) s = .ok (answer, t)) :
    ∃ y, View.answer (s.outcomes (.unmap addr) env) (.unmap addr) x = (answer, y) ∧
      Follows id s₀ t y := by
  obtain ⟨mappings, hc, hcall⟩ := serve_answers hserve
  obtain ⟨mappings', hc', haddr⟩ := hm
  cases hc.symm.trans hc'
  exact h.handleCall (fun _ _ _ heq => by cases heq)
    (show CallParams.target ⟨mappings, true⟩ (.unmap addr) = some id from haddr) hcall

theorem finishOpen_follows {anchored : Status} {o : OpenStatus} {x : View}
    (hvalid : handle.valid = true) (hm : Mapped pid id handle.addr s) (hf : Follows id s₀ s x)
    (h : Program.Run pid (finishOpen id handle created anchored k) env s o outcomes t) : ∃ y,
      (finishOpen id handle created anchored k).replay View.answer outcomes x = (some o, [], y) ∧
        Follows id s₀ t y := by
  unfold Program.Run at h
  unfold finishOpen at h ⊢
  split
  next hfailed =>
    rw [if_pos hfailed, damemoryUnmap, if_pos hvalid] at h
    rw [damemoryUnmap, if_pos hvalid, ← List.append_nil outcomes]
    refine Dialogue.run_replay_ask (S := Follows id s₀) (G := fun _ => False) (fun answer => ?_)
      (fun _ _ hserve => hf.unmap hm hserve) (fun _ _ _ _ _ _ hno => hno.elim) h []
    -- the program sends no further request
    refine Dialogue.Asks.bind ?_ fun _ => trivial
    cases answer with
    | error e => trivial
    | ok result =>
        show Dialogue.Asks _ (if k.unmap.xpmemDetachOk && k.unmap.xpmemReleaseOk then _ else _)
        split
        · trivial
        · trivial
  next hok =>
    rw [if_neg hok] at h
    cases h
    exact ⟨x, rfl, hf⟩

/-- Anchoring the region of a handle is about that region, and so is unmapping it
if it can not be anchored. -/
theorem anchorHandle_follows {o : OpenStatus} {x : View} (hvalid : handle.valid = true)
    (hm : Mapped pid id handle.addr s) (hf : Follows id s₀ s x)
    (h : Program.Run pid (anchorHandle id k (some (handle, created))) env s o outcomes t) : ∃ y,
      (anchorHandle id k (some (handle, created))).replay View.answer outcomes x =
        (some o, [], y) ∧ Follows id s₀ t y := by
  rcases Dialogue.run_bind h with ⟨anchored, hs₁, hs₂, env', u, hanchor, hlast, rfl⟩ | ⟨-, ho⟩
  · obtain ⟨z, hreplay, hz⟩ := Dialogue.run_replay (S := Follows id s₀)
      (plainCall_asks (show CallParams.About id (.anchor id) from rfl))
      (fun _ _ _ _ _ _ habout hf hserve => hf.serve habout hserve) hanchor hf hs₂
    obtain ⟨y, hreplay', hy⟩ :=
      finishOpen_follows hvalid (damemoryAnchor_mapped hm hanchor) hz hlast
    exact ⟨y, (Dialogue.replay_bind hreplay).trans hreplay', hy⟩
  · cases ho

/-- Opening a file is about its region. -/
theorem demoOpen_follows {path : Path} {o : OpenStatus}
    (h : Vfs.call pid (demoOpen (some path) flags k) env s = .ok (o, outcomes, t)) : ∃ y,
      FileState.call (demoOpen (some path) flags k) outcomes (s.view (pathToId path)).blind =
        some (o, y) ∧ Follows (pathToId path) s t y := by
  rcases Dialogue.run_bind (run_of_call h) with
    ⟨a, hs₁, hs₂, env', u, hopen, hlast, rfl⟩ | ⟨-, ho⟩
  · obtain ⟨z, hreplay, hz⟩ := Dialogue.run_replay (S := Follows (pathToId path) s)
      (openHandle_asks ..) (fun _ _ _ _ _ _ habout hf hserve => hf.serve habout hserve) hopen
      ⟨rfl, fun _ _ => rfl⟩ hs₂
    obtain ⟨y, hreplay', hy⟩ : ∃ y, (anchorHandle (pathToId path) k a).replay View.answer hs₂ z =
        (some o, [], y) ∧ Follows (pathToId path) s t y := by
      cases a with
      | none =>
          cases hlast
          exact ⟨z, rfl, hz⟩
      | some a =>
          obtain ⟨hvalid, hm⟩ := openHandle_mapped hopen
          exact anchorHandle_follows hvalid hm hz hlast
    exact ⟨y, call_of_replay ((Dialogue.replay_bind hreplay).trans hreplay'), hy⟩
  · cases ho

end Follows

/-! ## Operations on one path -/

section Operations

variable {pid : Int} {v v' : Vfs} {op : VfsOp} {l : LocalOp} {result : VfsResult}

theorem demoDelete_asks (path : Path) :
    (demoDelete path).Asks (CallParams.About (pathToId path)) :=
  Dialogue.Asks.bind (plainCall_asks (show CallParams.About _ (.unanchor _) from rfl))
    fun _ => trivial

theorem demoAccess_asks (path : Path) :
    (demoAccess path).Asks (CallParams.About (pathToId path)) := by
  refine ⟨rfl, fun answer => ?_⟩
  cases answer with
  | error e => trivial
  | ok result => trivial

/-- The id of every open file is that of its path. -/
def Vfs.Named (v : Vfs) : Prop :=
  ∀ path object p, v.files path object = some p → p.id = pathToId path

theorem Follows.state {path path' : Path} {s t : Damanager} {y : View} {m m' : Nat → Bytes}
    {files files' : Path → Nat → Option DemoFile} (h : Follows (pathToId path) s t y)
    (hne : pathToId path' ≠ pathToId path) (hm : m' (pathToId path') = m (pathToId path'))
    (hfiles : files' path' = files path') :
    Vfs.state ⟨t, m', files'⟩ path' = Vfs.state ⟨s, m, files⟩ path' := by
  simp only [Vfs.state, h.others _ hne, hm, hfiles]

/-- The operation is one of the machine of its path, and it leaves the other
paths as they are if their ids differ. -/
def Local (path : Path) (l : LocalOp) (result : VfsResult) (v v' : Vfs) : Prop :=
  FileState.step path l (v.state path) = some (result, v'.state path) ∧
    ∀ path', pathToId path' ≠ pathToId path → v'.state path' = v.state path'

theorem openFile_local {path : Path} {object : Nat} {flags : OpenFlags} {k : OpenKernel}
    {env : Nat → CallEnv}
    (h : v.step pid (.openFile path object flags k env) = .ok (l, result, v')) :
    Local path l result v v' := by
  obtain ⟨⟨o, outcomes, s⟩, hcall, h⟩ := ok_of_bind h
  cases h
  obtain ⟨y, hlocal, hf⟩ := demoOpen_follows hcall
  refine ⟨?_, fun path' hne => hf.state hne (Function.update_of_ne hne ..)
    (Function.update_of_ne (fun heq => hne (congrArg pathToId heq)) ..)⟩
  simp only [FileState.step, Vfs.state, hlocal, hf.view, Function.update_self]
  rfl

theorem file_local {path : Path} {object : Nat} {op : FileOp} (hv : v.Named)
    (h : v.step pid (.file path object op) = .ok (l, result, v')) : Local path l result v v' := by
  rw [Vfs.step] at h
  split at h
  next => cases h
  next p hp =>
    rw [hv path object p hp] at h
    simp only [Except.ok.injEq, Prod.mk.injEq] at h
    obtain ⟨rfl, rfl, rfl⟩ := h
    refine ⟨?_, fun path' hne => ?_⟩
    · simp only [FileState.step, Vfs.state, hp, Function.update_self]
    · simp only [Vfs.state, Function.update_of_ne hne]

theorem delete_local {path : Path} {env : Nat → CallEnv}
    (h : v.step pid (.delete path env) = .ok (l, result, v')) : Local path l result v v' := by
  obtain ⟨⟨code, outcomes, s⟩, hcall, h⟩ := ok_of_bind h
  cases h
  obtain ⟨y, hlocal, hf⟩ := call_follows (demoDelete_asks path) hcall
  refine ⟨?_, fun path' hne => hf.state hne rfl rfl⟩
  simp only [FileState.step, Vfs.state, hlocal, hf.view]
  rfl

theorem access_local {path : Path} {env : Nat → CallEnv}
    (h : v.step pid (.access path env) = .ok (l, result, v')) : Local path l result v v' := by
  obtain ⟨⟨⟨code, found⟩, outcomes, s⟩, hcall, h⟩ := ok_of_bind h
  cases h
  obtain ⟨y, hlocal, hf⟩ := call_follows (demoAccess_asks path) hcall
  refine ⟨?_, fun path' hne => hf.state hne rfl rfl⟩
  simp only [FileState.step, Vfs.state, hlocal, hf.view]
  rfl

/-- Every operation is local to its path. -/
theorem step_local (hv : v.Named) (h : v.step pid op = .ok (l, result, v')) :
    Local op.path l result v v' := by
  cases op with
  | openFile => exact openFile_local h
  | file => exact file_local hv h
  | delete => exact delete_local h
  | access => exact access_local h

/-- A file that is opened gets the id of its path. -/
theorem demoOpen_returns (path : Path) (flags : OpenFlags) (k : OpenKernel) :
    (demoOpen (some path) flags k).Returns fun o => ∀ p, o.file = some p →
      p.id = pathToId path := by
  refine Dialogue.Returns.bind fun a => ?_
  cases a with
  | none =>
      intro p hp
      cases hp
  | some a =>
      refine Dialogue.Returns.bind fun anchored => ?_
      unfold finishOpen
      split
      · refine Dialogue.Returns.bind fun _ p hp => ?_
        cases hp
      · intro p hp
        cases hp
        rfl

theorem files_eq_some {o : OpenStatus} {object object' : Nat} {files : Nat → Option DemoFile}
    {p : DemoFile} (h : o.files object files object' = some p) :
    o.file = some p ∨ files object' = some p := by
  cases hfile : o.file with
  | none =>
      rw [OpenStatus.files, hfile] at h
      exact Or.inr h
  | some q =>
      rw [OpenStatus.files, hfile] at h
      dsimp only at h
      by_cases heq : object' = object
      · rw [heq, Function.update_self] at h
        exact Or.inl h
      · rw [Function.update_of_ne heq] at h
        exact Or.inr h

/-- An open file keeps the id of its path. -/
theorem step_named (hv : v.Named) (h : v.step pid op = .ok (l, result, v')) : v'.Named := by
  cases op with
  | openFile path object flags k env =>
      obtain ⟨⟨o, outcomes, s⟩, hcall, h⟩ := ok_of_bind h
      cases h
      intro path' object' p hp
      dsimp only at hp
      by_cases hpath : path' = path
      · subst hpath
        rw [Function.update_self] at hp
        rcases files_eq_some hp with hfile | hold
        · exact Dialogue.run_returns (demoOpen_returns path' flags k) (run_of_call hcall) p hfile
        · exact hv path' object' p hold
      · rw [Function.update_of_ne hpath] at hp
        exact hv path' object' p hp
  | file path object op =>
      rw [Vfs.step] at h
      split at h
      next => cases h
      next =>
        simp only [Except.ok.injEq, Prod.mk.injEq] at h
        obtain ⟨-, -, rfl⟩ := h
        exact hv
  | delete | access =>
      obtain ⟨r, -, h⟩ := ok_of_bind h
      cases h
      exact hv

theorem exec_ok (h : op.exec pid v = .ok v') : ∃ l result, v.step pid op = .ok (l, result, v') := by
  rw [VfsOp.exec] at h
  cases hstep : v.step pid op with
  | error e =>
      rw [hstep] at h
      cases h
  | ok r =>
      obtain ⟨l, result, v''⟩ := r
      rw [hstep] at h
      cases h
      exact ⟨l, result, rfl⟩

/-- The operations on one path, and those on paths that are apart from it.  No access
leaves its region. -/
abbrev VfsOp.Runs (pid : Int) (path : Path) (v : Vfs) (ops : List VfsOp)
    (outs : List (LocalOp × VfsResult)) (v' : Vfs) : Prop :=
  Trace (VfsOp.exec pid) (fun v op => (op.path = path ∨ op.path.Apart path) ∧ op.stays v = true)
    (VfsOp.shows pid path) v ops outs v'

theorem exec_state {path : Path} (hv : v.Named) (hapart : op.path.Apart path)
    (h : op.exec pid v = .ok v') : v'.state path = v.state path := by
  obtain ⟨l, result, hstep⟩ := exec_ok h
  exact (step_local hv hstep).2 path fun heq => hapart (pathToId_eq_iff.mp heq.symm)

/-- A run is one of the machine of a path. -/
theorem trace_replays {path : Path} {ops : List VfsOp} {outs : List (LocalOp × VfsResult)}
    (hv : v.Named) (h : VfsOp.Runs pid path v ops outs v') :
    Replays (FileState.step path) (v.state path) outs (v'.state path) := by
  refine h.replays (f := fun v => v.state path) (P := Vfs.Named) hv fun v op v' hv hg he => ?_
  obtain ⟨l, result, hstep⟩ := exec_ok he
  refine ⟨step_named hv hstep, ?_⟩
  by_cases hpath : op.path = path
  · subst hpath
    exact Or.inr ⟨l, result, by rw [VfsOp.shows, if_pos rfl, hstep], (step_local hv hstep).1⟩
  · exact Or.inl ⟨if_neg hpath, exec_state hv (hg.1.resolve_left hpath) he⟩

theorem trace_named {path : Path} {ops : List VfsOp} {outs : List (LocalOp × VfsResult)}
    (hv : v.Named) (h : VfsOp.Runs pid path v ops outs v') : v'.Named := by
  refine h.runs.invariant hv fun v op v' hv _ he => ?_
  obtain ⟨l, result, hstep⟩ := exec_ok he
  exact step_named hv hstep

/-- Take two runs on a path and on any paths whose first 8 bytes are others.  If
the operations on the path are the same and meet the same outcomes of calls to the
outside, then they return the same, whatever is done with the other paths.  A file
of the path and one of another path are never in one region, and no operation on
another path, such as a deletion, changes the region, its contents or the open
files of the path. -/
theorem files_isolated (pid : Int) (a : Path) (hv : v.Named) :
    (∀ ops₁ outs₁ v₁ ops₂ outs₂ v₂, VfsOp.Runs pid a v ops₁ outs₁ v₁ →
      VfsOp.Runs pid a v ops₂ outs₂ v₂ → outs₂.map Prod.fst = outs₁.map Prod.fst →
        outs₂ = outs₁) ∧
    ∀ ops outs v', VfsOp.Runs pid a v ops outs v' →
      (∀ b i j p q, b.Apart a → v'.files a i = some p → v'.files b j = some q → q.id ≠ p.id) ∧
      ∀ (op : VfsOp) v'', op.path.Apart a → op.stays v' = true → op.exec pid v' = .ok v'' →
        v''.state a = v'.state a := by
  refine ⟨fun ops₁ outs₁ v₁ ops₂ outs₂ v₂ h₁ h₂ hlabels => ?_, fun ops outs v' h => ?_⟩
  · exact ((trace_replays hv h₁).eq (trace_replays hv h₂) hlabels).1
  · have hv' := trace_named hv h
    refine ⟨fun b i j p q hapart hp hq heq => ?_,
      fun op v'' hapart _ he => exec_state hv' hapart he⟩
    rw [hv' b j q hq, hv' a i p hp] at heq
    exact hapart (pathToId_eq_iff.mp heq)

end Operations

/-! ## Two paths -/

/-- A process without open files. -/
def Vfs.start (s : Damanager) : Vfs := ⟨s, fun _ _ => 0, fun _ _ => none⟩

theorem start_named (s : Damanager) : (Vfs.start s).Named := fun _ _ _ h => by cases h

/-- Opening a file that is created if it is not there.  The process and the
manager find free addresses at `addr`. -/
def openAt (path : Path) (addr : Nat) : VfsOp :=
  .openFile path 0 { create := true }
    { map := { mmap := .ok addr, xpmemGet := some 3 }
      alloc := { mmap := .ok addr, xpmemGet := some 3 } }
    fun _ => { create := { reserve := some addr } }

/-- A file is opened and its first byte is read. -/
def aloneOps (a : Path) : List VfsOp := [openAt a 0x40000000, .file a 0 (.read 1 0)]

/-- The same, and in between another file is opened and written to. -/
def sharedOps (a b : Path) : List VfsOp :=
  [openAt a 0x40000000, openAt b 0x80000000, .file b 0 (.write [66] 0), .file a 0 (.read 1 0)]

/-- Both lists of operations run to their end. -/
theorem both_run (a b : Path) (guard : VfsOp → Prop)
    (test : List (LocalOp × VfsResult) × Vfs → List (LocalOp × VfsResult) × Vfs → Bool)
    (hguard : ∀ op ∈ sharedOps a b, guard op)
    (h : (outputs (VfsOp.exec 7) (fun v op => op.stays v) (VfsOp.shows 7 a) (sharedOps a b)
      (.start connected)).any (fun r => (outputs (VfsOp.exec 7) (fun v op => op.stays v)
        (VfsOp.shows 7 a) (aloneOps a) (.start connected)).any (test r)) = true) :
    ∃ outs v outs' v',
      Trace (VfsOp.exec 7) (fun v op => guard op ∧ op.stays v = true) (VfsOp.shows 7 a)
        (.start connected) (sharedOps a b) outs v ∧
      Trace (VfsOp.exec 7) (fun v op => guard op ∧ op.stays v = true) (VfsOp.shows 7 a)
        (.start connected) (aloneOps a) outs' v' ∧
      test (outs, v) (outs', v') = true := by
  simp only [Option.any_eq_true] at h
  obtain ⟨⟨outs, v⟩, hr, ⟨outs', v'⟩, hr', htest⟩ := h
  refine ⟨outs, v, outs', v', .of_outputs hr fun op hop _ hstays => ⟨hguard op hop, hstays⟩,
    .of_outputs hr' fun op hop _ hstays => ⟨hguard op ?_, hstays⟩, htest⟩
  simp only [aloneOps, sharedOps, List.mem_cons] at hop ⊢
  tauto

/-- `abc` and `abc-journal`. -/
def shortPath : Path := demoFullPathname [97, 98, 99] 128

def shortJournal : Path :=
  demoFullPathname [97, 98, 99, 45, 106, 111, 117, 114, 110, 97, 108] 128

theorem files_isolated_short : ∃ outs v outs' v',
    VfsOp.Runs 7 shortPath (.start connected) (sharedOps shortPath shortJournal) outs v ∧
      VfsOp.Runs 7 shortPath (.start connected) (aloneOps shortPath) outs' v' ∧ outs' = outs ∧
        outs.map Prod.snd = [.code .ok, .file ⟨.ok, [65], 0⟩] := by
  obtain ⟨outs, v, outs', v', hrun, hrun', h⟩ := both_run shortPath shortJournal
    (fun op => op.path = shortPath ∨ op.path.Apart shortPath)
    (fun r r' => r'.1.map Prod.fst = r.1.map Prod.fst &&
      r.1.map Prod.snd = [.code .ok, .file ⟨.ok, [65], 0⟩])
    (by decide +kernel) (by decide +kernel)
  simp only [Bool.and_eq_true, decide_eq_true_eq] at h
  exact ⟨outs, v, outs', v', hrun, hrun',
    (files_isolated 7 shortPath (start_named connected)).1 _ _ _ _ _ _ hrun hrun' h.1, h.2⟩

/-- `/tmp/aa.db` and `/tmp/aa.db-journal`. -/
def databasePath : Path := demoFullPathname [47, 116, 109, 112, 47, 97, 97, 46, 100, 98] 128

def journalPath : Path := demoFullPathname
  [47, 116, 109, 112, 47, 97, 97, 46, 100, 98, 45, 106, 111, 117, 114, 110, 97, 108] 128

/-- The region of the path is anchored. -/
def Vfs.anchored (v : Vfs) (path : Path) : Bool :=
  (v.manager.view (pathToId path)).live.any (·.anchored)

/-- A database and its journal are in one region.  A byte that is written to the
journal is read from the database, and deleting the journal unanchors the
database. -/
theorem journal_in_database : ∃ outs v outs' v' v'' p q, databasePath ≠ journalPath ∧
    Trace (VfsOp.exec 7) (fun v op => op.stays v = true) (VfsOp.shows 7 databasePath)
      (.start connected) (sharedOps databasePath journalPath) outs v ∧
    Trace (VfsOp.exec 7) (fun v op => op.stays v = true) (VfsOp.shows 7 databasePath)
      (.start connected) (aloneOps databasePath) outs' v' ∧
    outs'.map Prod.fst = outs.map Prod.fst ∧
    outs.map Prod.snd = [.code .ok, .file ⟨.ok, [66], 0⟩] ∧
    outs'.map Prod.snd = [.code .ok, .file ⟨.ok, [65], 0⟩] ∧
    v.files databasePath 0 = some p ∧ v.files journalPath 0 = some q ∧ q.id = p.id ∧
    (VfsOp.delete journalPath fun _ => {}).exec 7 v = .ok v'' ∧
    v.anchored databasePath = true ∧ v''.anchored databasePath = false := by
  obtain ⟨outs, v, outs', v', hrun, hrun', h⟩ := both_run databasePath journalPath (fun _ => True)
    (fun r r' => r'.1.map Prod.fst = r.1.map Prod.fst &&
      r.1.map Prod.snd = [.code .ok, .file ⟨.ok, [66], 0⟩] &&
      r'.1.map Prod.snd = [.code .ok, .file ⟨.ok, [65], 0⟩] &&
      (r.2.files databasePath 0).any
        (fun p => (r.2.files journalPath 0).any fun q => q.id = p.id) &&
      ((VfsOp.delete journalPath fun _ => {}).exec 7 r.2).toOption.any fun v'' =>
        r.2.anchored databasePath && !v''.anchored databasePath)
    (fun _ _ => trivial) (by decide +kernel)
  simp only [Bool.and_eq_true, decide_eq_true_eq, Option.any_eq_true, Bool.not_eq_true'] at h
  obtain ⟨⟨⟨⟨hlabels, hshared⟩, halone⟩, p, hp, q, hq, hid⟩, v'', hdelete, hbefore, hafter⟩ := h
  exact ⟨outs, v, outs', v', v'', p, q, by decide +kernel, hrun.mono fun _ _ hg => hg.2,
    hrun'.mono fun _ _ hg => hg.2, hlabels, hshared, halone,
    hp, hq, hid, eq_ok_of_toOption hdelete, hbefore, hafter⟩

end DASim
