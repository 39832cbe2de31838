import DASim.Client.Manager
import DASim.Lib.Ensures

/-!
# What is done under the lock, access by access

`DASim.Client.Manager` has a request, the clean-up of a client and a page fault as one
function each.  The source computes them in several steps, with `m_mutex` locked from the
first one to the last one.  Here each of them is a program that makes one `LockedAccess` after
the other to what the threads share: the tables of the client manager, the buffer manager,
and the mappings of a client.

A section that nothing comes in between does what the function does
(`Section.handleCall_eval`, `Section.clean_eval`, `Section.handleUserfault_eval`).

A call of the buffer manager is one access.  So is `unfix` with the protection of the page
it swapped in, since no client gets at the page before the fault is answered.
-/

namespace DASim

/-! ## Accesses -/

/-- One access to what the threads of the manager share. -/
inductive LockedAccess where
  -- `m_regions`
  | findRegion (id : Nat)
  | emplaceRegion (id : Nat) (region : CmRegion)
  | setRegion (id : Nat) (region : CmRegion)
  | eraseRegion (id : Nat)
  -- `m_region_map`
  | floorRegion (addr : Nat)
  | setAddr (addr id : Nat)
  | eraseAddr (addr : Nat)
  -- the buffer manager, and the protection of pages
  | getAnchoredRegion (id : Nat) (env : Env)
  | allocate (id size : Nat) (persistent : Bool) (env : Env)
  | free (id : Nat) (env : Env)
  | anchor (id : Nat)
  | unanchor (id : Nat)
  | canPersist (id off size : Nat)
  | persist (id off size : Nat) (env : Env)
  | unfix (id off : Nat) (write : Bool) (env : Env)
  | markDirty (id off : Nat)
  | writeprotect (addr : Nat) (protect : Bool) (stores : List Store)
  -- `xpmem_block_pfs`
  | blockPfs (segid : Int) (block : Bool)
  -- `m_mappings` of a client
  | mappings (pid : Int)
  | findMapping (pid : Int) (addr : Nat)
  | setMapping (pid : Int) (addr id : Nat)
  | eraseMapping (pid : Int) (addr : Nat)

/-- What an access comes back with. -/
inductive Answer where
  | done
  | region (region : Option CmRegion)
  | entry (entry : Option (Nat × Nat))
  | anchored (ret : Except Errno (Nat × Nat))
  | allocated (ret : Except Errno Nat)
  | ret (ret : Except Errno Unit)
  | wake (wake : Wake)
  | marked (result : Machine.MarkDirtyResult)
  | mapping (id : Option Nat)
  | mappings (entries : List (Nat × Nat))

/-- The client with the process id.  A section looks only for clients that are there. -/
def Damanager.client (s : Damanager) (pid : Int) : Client :=
  (s.clients.find? pid).getD ⟨.empty, false⟩

/-- `m_state.store(2)`. -/
def Damanager.endClient (pid : Int) (s : Damanager) : Damanager :=
  { s with clients := s.clients.insert pid { s.client pid with running := false } }

def LockedAccess.exec : LockedAccess → Damanager → Except Fault (Answer × Damanager)
  | .findRegion id, s => .ok (.region (s.regions.find? id), s)
  | .emplaceRegion id region, s =>
      .ok (.done, { s with
        regions := if s.regions.contains id then s.regions else s.regions.insert id region })
  | .setRegion id region, s => .ok (.done, { s with regions := s.regions.insert id region })
  | .eraseRegion id, s => .ok (.done, { s with regions := s.regions.erase id })
  | .floorRegion addr, s => .ok (.entry (s.regionMap.floor? addr), s)
  | .setAddr addr id, s => .ok (.done, { s with regionMap := s.regionMap.insert addr id })
  | .eraseAddr addr, s => .ok (.done, { s with regionMap := s.regionMap.erase addr })
  | .getAnchoredRegion id env, s =>
      let (ret, w) := s.buffer.getAnchoredRegion id env
      .ok (.anchored ret, { s with buffer := w })
  | .allocate id size persistent env, s =>
      let (ret, w) := s.buffer.allocate id size persistent env
      .ok (.allocated ret, { s with buffer := w })
  | .free id env, s => do
      let w ← s.buffer.free id env
      return (.done, { s with buffer := w })
  | .anchor id, s =>
      let (ret, w) := s.buffer.anchor id
      .ok (.ret ret, { s with buffer := w })
  | .unanchor id, s =>
      let (ret, w) := s.buffer.unanchor id
      .ok (.ret ret, { s with buffer := w })
  | .canPersist id off size, s => .ok (.ret (s.buffer.canPersist id off size), s)
  | .persist id off size env, s => do
      let w ← s.buffer.persist id off size env
      return (.done, { s with buffer := w })
  | .unfix id off write env, s => do
      let (result, w) ← s.buffer.unfix id off write env
      return (.wake ⟨result.start, result.size⟩, { s with
        buffer := if result.writeprotect then w.writeprotect result.start true else w })
  | .markDirty id off, s => do
      let (result, w) ← s.buffer.markDirty id off
      return (.marked result, { s with buffer := w })
  | .writeprotect addr protect stores, s =>
      .ok (.done, { s with buffer := (s.buffer.interfere stores).writeprotect addr protect })
  | .blockPfs segid block, s => .ok (.done, { s with blocks := (segid, block) :: s.blocks })
  | .mappings pid, s => .ok (.mappings (s.client pid).mappings.entries, s)
  | .findMapping pid addr, s => .ok (.mapping ((s.client pid).mappings.find? addr), s)
  | .setMapping pid addr id, s => do
      let s ← s.assign pid (s.client pid) addr id
      return (.done, s)
  | .eraseMapping pid addr, s =>
      let c := s.client pid
      .ok (.done, { s with
        clients := s.clients.insert pid { c with mappings := c.mappings.erase addr } })

theorem LockedAccess.exec_clients {q : LockedAccess} {s t : Damanager} {r : Answer}
    (h : q.exec s = .ok (r, t)) : t.clients = s.clients ∨ ∃ pid mappings,
      t.clients = s.clients.insert pid { s.client pid with mappings := mappings } := by
  cases q with
  | setMapping pid addr id =>
      obtain ⟨u, hassign, h⟩ := ok_of_bind h
      cases h
      unfold Damanager.assign at hassign
      split at hassign
      next =>
        cases hassign
        exact Or.inr ⟨pid, _, rfl⟩
      next => cases hassign
  | eraseMapping pid addr =>
      cases h
      exact Or.inr ⟨pid, _, rfl⟩
  | free | persist | unfix | markDirty =>
      obtain ⟨w, -, h⟩ := ok_of_bind h
      cases h
      exact Or.inl rfl
  | _ =>
      cases h
      exact Or.inl rfl

/-- No access starts or ends the thread of a client. -/
theorem LockedAccess.exec_running {q : LockedAccess} {s t : Damanager} {r : Answer}
    (h : q.exec s = .ok (r, t)) (pid : Int) :
    (∃ mappings, t.clients.find? pid = some ⟨mappings, true⟩) ↔
      ∃ mappings, s.clients.find? pid = some ⟨mappings, true⟩ := by
  rcases exec_clients h with heq | ⟨pid', mappings, heq⟩
  · rw [heq]
  · rw [heq, OrdMap.find?_insert]
    split
    next hpid =>
      subst hpid
      rw [Damanager.client]
      rcases s.clients.find? pid with _ | ⟨mappings', running⟩ <;> simp
    next => rfl

/-- The answer and the next state, unless the manager breaks down. -/
def LockedAccess.serve (q : LockedAccess) (s : Damanager) : Option (Answer × Damanager) :=
  (q.exec s).toOption

/-! ## Sections -/

/-- A program that runs with `m_mutex` locked. -/
abbrev Section := Dialogue LockedAccess Answer

namespace Section

variable {α β : Type}

/-- An access that has no answer. -/
def act (q : LockedAccess) : Section Unit := .ask q fun _ => .done ()

/-- An access that has one. -/
def get (q : LockedAccess) (read : Answer → Option α) : Section α :=
  .ask q fun r =>
    match read r with
    | some a => .done a
    | none => .stop

def findRegion (id : Nat) : Section (Option CmRegion) :=
  get (.findRegion id) fun
    | .region region => some region
    | _ => none

def floorRegion (addr : Nat) : Section (Option (Nat × Nat)) :=
  get (.floorRegion addr) fun
    | .entry entry => some entry
    | _ => none

def getAnchoredRegion (id : Nat) (env : Env) : Section (Except Errno (Nat × Nat)) :=
  get (.getAnchoredRegion id env) fun
    | .anchored ret => some ret
    | _ => none

def allocateRegion (id size : Nat) (persistent : Bool) (env : Env) : Section (Except Errno Nat) :=
  get (.allocate id size persistent env) fun
    | .allocated ret => some ret
    | _ => none

/-- An access that returns 0 or an error. -/
def attempt (q : LockedAccess) : Section (Except Errno Unit) :=
  get q fun
    | .ret ret => some ret
    | _ => none

def unfix (id off : Nat) (write : Bool) (env : Env) : Section Wake :=
  get (.unfix id off write env) fun
    | .wake wake => some wake
    | _ => none

def markDirty (id off : Nat) : Section Machine.MarkDirtyResult :=
  get (.markDirty id off) fun
    | .marked result => some result
    | _ => none

def mappings (pid : Int) : Section (List (Nat × Nat)) :=
  get (.mappings pid) fun
    | .mappings entries => some entries
    | _ => none

def findMapping (pid : Int) (addr : Nat) : Section (Option Nat) :=
  get (.findMapping pid addr) fun
    | .mapping id => some id
    | _ => none

/-! ## Requests -/

/-- `add_region`. -/
def addRegion (id addr size : Nat) (env : CallEnv) : Section (Except Errno ClientRegionInfo) :=
  match env.xpmemMake with
  | .error e => do
      act (.free id env.release)
      return .error e
  | .ok segid => do
      act (.emplaceRegion id ⟨addr, size, segid, 1⟩)
      act (.setAddr addr id)
      return .ok ⟨segid, size⟩

/-- `allocate`. -/
def allocate (id size : Nat) (persistent : Bool) (env : CallEnv) :
    Section (Except Errno ClientRegionInfo) := do
  match ← findRegion id with
  | some _ => return .error .eexist
  | none =>
      match ← getAnchoredRegion id env.load with
      | .ok _ => return .error .eexist
      | .error _ =>
          match ← allocateRegion id size persistent env.create with
          | .error e => return .error e
          | .ok addr => addRegion id addr size env

/-- `unanchor`. -/
def unanchor (id : Nat) (env : CallEnv) : Section (Except Errno Unit) := do
  match ← attempt (.unanchor id) with
  | .error e => return .error e
  | .ok () =>
      match ← findRegion id with
      | some _ => return .ok ()
      | none => do
          act (.free id env.release)
          return .ok ()

/-- `get_size`. -/
def getSize (id : Nat) (env : CallEnv) : Section (Except Errno Nat) := do
  match ← findRegion id with
  | some region => return .ok region.size
  | none =>
      match ← getAnchoredRegion id env.load with
      | .error e => return .error e
      | .ok (_, size) => return .ok size

/-- `map`. -/
def map (id : Nat) (env : CallEnv) : Section (Except Errno ClientRegionInfo) := do
  match ← findRegion id with
  | some region => do
      act (.setRegion id { region with mapcount := (region.mapcount + 1) % 2 ^ 64 })
      return .ok ⟨region.segid, region.size⟩
  | none =>
      match ← getAnchoredRegion id env.load with
      | .error e => return .error e
      | .ok (addr, size) => addRegion id addr size env

/-- `unmap`. -/
def unmap (id : Nat) (env : CallEnv) : Section (Except Errno Unit) := do
  match ← findRegion id with
  | none => return .error .enoent
  | some region => do
      let mapcount := (region.mapcount + 2 ^ 64 - 1) % 2 ^ 64
      act (.setRegion id { region with mapcount := mapcount })
      if 0 < mapcount then return .ok ()
      else
        match env.xpmemRemove with
        | some e => return .error e
        | none => do
            act (.eraseAddr region.addr)
            act (.eraseRegion id)
            act (.free id env.release)
            return .ok ()

/-- The loop of `persist` that protects pages. -/
def protectPages (addr : Nat) (env : Env) : List Nat → Section Unit
  | [] => return ()
  | i :: is => do
      act (.writeprotect (addr + i * pageSize) true (env.stores i))
      protectPages addr env is

/-- `persist`. -/
def persist (id off size : Nat) (env : CallEnv) : Section (Except Errno Unit) := do
  match ← findRegion id with
  | none => return .error .enoent
  | some region =>
      if region.size < off || region.size < (off + size) % 2 ^ 64 then return .error .einval
      else
        match ← attempt (.canPersist id off size) with
        | .error e => return .error e
        | .ok () => do
            act (.blockPfs (ClientManager.asSegid id) true)
            protectPages (region.addr + off) env.protects
              (List.range ((size + pageSize - 1) / pageSize))
            act (.persist id off size env.persists)
            act (.blockPfs (ClientManager.asSegid id) false)
            return .ok ()

/-- What `handle_call_alloc` and `handle_call_map` do with the answer of the
manager. -/
def grant (pid : Int) (addr id : Nat) :
    Except Errno ClientRegionInfo → Section (Except Errno CallResult)
  | .error e => return .error e
  | .ok info => do
      act (.setMapping pid addr id)
      return .ok (.segid info.segid)

/-- `handle_call` of the client with the given process id. -/
def handleCall (pid : Int) (env : CallEnv) : CallParams → Section (Except Errno CallResult)
  | .alloc id addr size persistent => do
      let reply ← allocate id size persistent env
      grant pid addr id reply
  | .anchor id => do
      let ret ← attempt (.anchor id)
      return ret.map fun _ => .none
  | .unanchor id => do
      let ret ← unanchor id env
      return ret.map fun _ => .none
  | .getSize id => do
      let ret ← getSize id env
      return ret.map .size
  | .map id addr _ => do
      let reply ← map id env
      grant pid addr id reply
  | .unmap addr => do
      match ← findMapping pid addr with
      | none => return .error .enoent
      | some id => do
          act (.eraseMapping pid addr)
          let ret ← unmap id env
          return ret.map fun _ => .none
  | .persist addr off size => do
      match ← findMapping pid addr with
      | none => return .error .enoent
      | some id => do
          let ret ← persist id off size env
          return ret.map fun _ => .none
  | .advise _ => return .error .enotsup
  | .unknown => return .error .enotsup

/-- The rounds of the loop at the end of `handle_calls`. -/
def cleanUp (pid : Int) (env : Nat → CallEnv) : List (Nat × Nat) → Section Unit
  | [] => return ()
  | (addr, id) :: entries => do
      act (.eraseMapping pid addr)
      let _ ← unmap id (env addr)
      cleanUp pid env entries

/-- That loop.  The source looks for the first mapping in each round, and no other thread
changes the mappings of a client. -/
def clean (pid : Int) (env : Nat → CallEnv) : Section Unit := do
  let entries ← mappings pid
  cleanUp pid env entries

/-! ## Page faults -/

/-- The part of `handle_userfault` between blocking and unblocking the faults of the
segment. -/
def serveFault (id off : Nat) (flags : PagefaultFlags) (env : Env) : Section Wake :=
  if flags.isMissing then unfix id off flags.isWrite env
  else if flags.isWrite then do
    let result ← markDirty id off
    if result.writeunprotect then act (.writeprotect result.start false []) else pure ()
    return ⟨result.start, result.size⟩
  else return ⟨0, 0⟩

/-- `handle_userfault`, for a message that was read. -/
def handleUserfault (addr : UInt64) (flags : PagefaultFlags) (env : Env) : Section Wake := do
  match ← floorRegion addr.toNat with
  | none => return ⟨addr.toNat, 0x1000⟩
  | some (_, id) =>
      match ← findRegion id with
      | none => return ⟨addr.toNat, 0x1000⟩
      | some region => do
          act (.blockPfs region.segid true)
          let wake ← serveFault id ((addr.toNat + 2 ^ 64 - region.addr) % 2 ^ 64) flags env
          act (.blockPfs region.segid false)
          return wake

/-! ## Sections that nothing comes in between

First what a section goes on with after one access, and then what whole sections do. -/

theorem eval_act (q : LockedAccess) (f : Unit → Section α) (s : Damanager) :
    (act q >>= f).eval LockedAccess.serve s =
      (q.serve s).bind fun x => (f ()).eval LockedAccess.serve x.2 :=
  rfl

theorem eval_findRegion (id : Nat) (f : Option CmRegion → Section α) (s : Damanager) :
    (findRegion id >>= f).eval LockedAccess.serve s =
      (f (s.regions.find? id)).eval LockedAccess.serve s :=
  rfl

theorem eval_getAnchoredRegion (id : Nat) (env : Env)
    (f : Except Errno (Nat × Nat) → Section α) (s : Damanager) :
    (getAnchoredRegion id env >>= f).eval LockedAccess.serve s =
      (f (s.buffer.getAnchoredRegion id env).1).eval LockedAccess.serve
        { s with buffer := (s.buffer.getAnchoredRegion id env).2 } :=
  rfl

theorem eval_allocateRegion (id size : Nat) (persistent : Bool) (env : Env)
    (f : Except Errno Nat → Section α) (s : Damanager) :
    (allocateRegion id size persistent env >>= f).eval LockedAccess.serve s =
      (f (s.buffer.allocate id size persistent env).1).eval LockedAccess.serve
        { s with buffer := (s.buffer.allocate id size persistent env).2 } :=
  rfl

theorem eval_unanchor (id : Nat) (f : Except Errno Unit → Section α) (s : Damanager) :
    (attempt (.unanchor id) >>= f).eval LockedAccess.serve s =
      (f (s.buffer.unanchor id).1).eval LockedAccess.serve
        { s with buffer := (s.buffer.unanchor id).2 } :=
  rfl

theorem eval_canPersist (id off size : Nat) (f : Except Errno Unit → Section α) (s : Damanager) :
    (attempt (.canPersist id off size) >>= f).eval LockedAccess.serve s =
      (f (s.buffer.canPersist id off size)).eval LockedAccess.serve s :=
  rfl

theorem eval_floorRegion (addr : Nat) (f : Option (Nat × Nat) → Section α) (s : Damanager) :
    (floorRegion addr >>= f).eval LockedAccess.serve s =
      (f (s.regionMap.floor? addr)).eval LockedAccess.serve s :=
  rfl

theorem eval_mappings (pid : Int) (f : List (Nat × Nat) → Section α) (s : Damanager) :
    (mappings pid >>= f).eval LockedAccess.serve s =
      (f (s.client pid).mappings.entries).eval LockedAccess.serve s :=
  rfl

theorem eval_findMapping (pid : Int) (addr : Nat) (f : Option Nat → Section α) (s : Damanager) :
    (findMapping pid addr >>= f).eval LockedAccess.serve s =
      (f ((s.client pid).mappings.find? addr)).eval LockedAccess.serve s :=
  rfl

theorem eval_eraseMapping (pid : Int) (addr : Nat) (f : Unit → Section α) (s : Damanager) :
    (act (.eraseMapping pid addr) >>= f).eval LockedAccess.serve s =
      (f ()).eval LockedAccess.serve { s with
        clients := s.clients.insert pid
          { s.client pid with mappings := (s.client pid).mappings.erase addr } } :=
  rfl

theorem eval_blockPfs (segid : Int) (block : Bool) (f : Unit → Section α) (s : Damanager) :
    (act (.blockPfs segid block) >>= f).eval LockedAccess.serve s =
      (f ()).eval LockedAccess.serve { s with blocks := (segid, block) :: s.blocks } :=
  rfl

/-- The section does what a function of the client manager does. -/
def Does (p : Section α) (f : ClientManager → Except Fault (α × ClientManager)) : Prop :=
  ∀ s : Damanager, p.eval LockedAccess.serve s =
    (f s.toClientManager).toOption.map fun x => (x.1, { s with toClientManager := x.2 })

theorem does_free (id : Nat) (env : Env) (a : α) :
    Does (do act (.free id env); return a) fun cm => do
      let w ← cm.buffer.free id env
      return (a, { cm with buffer := w }) := by
  intro s
  rw [eval_act, LockedAccess.serve, LockedAccess.exec]
  dsimp only
  cases s.buffer.free id env <;> rfl

theorem does_addRegion (id addr size : Nat) (env : CallEnv) :
    Does (addRegion id addr size env) (ClientManager.addRegion id addr size env) := by
  intro s
  unfold addRegion ClientManager.addRegion
  cases env.xpmemMake with
  | ok segid => rfl
  | error e => exact does_free id env.release _ s

theorem does_allocate (id size : Nat) (persistent : Bool) (env : CallEnv) :
    Does (allocate id size persistent env) (ClientManager.allocate id size persistent env) := by
  intro s
  unfold allocate ClientManager.allocate
  rw [eval_findRegion, OrdMap.contains]
  cases s.regions.find? id with
  | some region => rfl
  | none =>
      dsimp only [Option.isSome, Bool.false_eq_true, if_false]
      rw [eval_getAnchoredRegion]
      rcases s.buffer.getAnchoredRegion id env.load with ⟨ret | ret, w⟩
      · dsimp only
        rw [eval_allocateRegion]
        rcases w.allocate id size persistent env.create with ⟨ret | addr, w⟩
        · rfl
        · exact does_addRegion id addr size env _
      · rfl

theorem does_unanchor (id : Nat) (env : CallEnv) :
    Does (unanchor id env) (ClientManager.unanchor id env) := by
  intro s
  unfold unanchor ClientManager.unanchor
  rw [eval_unanchor]
  rcases s.buffer.unanchor id with ⟨ret | ret, w⟩
  · rfl
  · dsimp only
    rw [eval_findRegion, OrdMap.contains]
    cases s.regions.find? id with
    | some region => rfl
    | none => exact does_free id env.release _ _

theorem does_getSize (id : Nat) (env : CallEnv) :
    Does (getSize id env) fun cm => .ok (cm.getSize id env) := by
  intro s
  unfold getSize ClientManager.getSize
  dsimp only
  rw [eval_findRegion]
  cases s.regions.find? id with
  | some region => rfl
  | none =>
      dsimp only
      rw [eval_getAnchoredRegion]
      rcases s.buffer.getAnchoredRegion id env.load with ⟨ret | ret, w⟩ <;> rfl

theorem does_map (id : Nat) (env : CallEnv) :
    Does (map id env) (ClientManager.map id env) := by
  intro s
  unfold map ClientManager.map
  rw [eval_findRegion]
  cases s.regions.find? id with
  | some region => rfl
  | none =>
      dsimp only
      rw [eval_getAnchoredRegion]
      rcases s.buffer.getAnchoredRegion id env.load with ⟨ret | ⟨addr, size⟩, w⟩
      · rfl
      · exact does_addRegion id addr size env _

/-- The tables change before the buffer manager frees the region, which does not look at
them. -/
theorem does_unmap (id : Nat) (env : CallEnv) :
    Does (unmap id env) (ClientManager.unmap id env) := by
  intro s
  unfold unmap ClientManager.unmap
  rw [eval_findRegion]
  cases s.regions.find? id with
  | none => rfl
  | some region =>
      dsimp only
      split
      next => rfl
      next =>
        cases env.xpmemRemove with
        | some e => rfl
        | none =>
            show (LockedAccess.serve (.free id env.release) _).bind _ = _
            rw [LockedAccess.serve, LockedAccess.exec]
            dsimp only
            cases s.buffer.free id env.release <;> rfl

theorem eval_protectPages (addr : Nat) (env : Env) (is : List Nat) (s : Damanager) :
    (protectPages addr env is).eval LockedAccess.serve s =
      some ((), { s with buffer := s.buffer.protectPages addr env is }) := by
  induction is generalizing s with
  | nil => rfl
  | cons i is ih => exact ih _

theorem eval_persist (id off size : Nat) (env : Env) (f : Unit → Section α) (s : Damanager) :
    (act (.persist id off size env) >>= f).eval LockedAccess.serve s =
      (s.buffer.persist id off size env).toOption.bind fun w =>
        (f ()).eval LockedAccess.serve { s with buffer := w } := by
  rw [eval_act, LockedAccess.serve, LockedAccess.exec]
  cases s.buffer.persist id off size env <;> rfl

/-- The part of `persist` between blocking and unblocking the faults of the segment. -/
theorem eval_blocked (segid : Int) (id addr off size : Nat) (env : CallEnv) (is : List Nat)
    (a : α) (s : Damanager) :
    (do
      act (.blockPfs segid true)
      protectPages addr env.protects is
      act (.persist id off size env.persists)
      act (.blockPfs segid false)
      return a : Section α).eval LockedAccess.serve s =
    ((s.buffer.protectPages addr env.protects is).persist id off size env.persists).toOption.map
      fun w => (a, { s with
        buffer := w
        blocks := (segid, false) :: (segid, true) :: s.blocks }) := by
  rw [eval_blockPfs, Dialogue.eval_bind, eval_protectPages, Option.bind_some, eval_persist]
  cases (s.buffer.protectPages addr env.protects is).persist id off size env.persists with
  | error fault => rfl
  | ok w => rfl

theorem does_persist (id off size : Nat) (env : CallEnv) :
    Does (persist id off size env) (ClientManager.persist id off size env) := by
  intro s
  unfold persist ClientManager.persist Machine.persistRange
  rw [eval_findRegion]
  generalize List.range ((size + pageSize - 1) / pageSize) = is
  cases s.regions.find? id with
  | none => rfl
  | some region =>
      dsimp only
      by_cases hrange : region.size < off || region.size < (off + size) % 2 ^ 64
      · rw [if_pos hrange, if_pos hrange]
        rfl
      · rw [if_neg hrange, if_neg hrange, eval_canPersist]
        clear hrange
        cases s.buffer.canPersist id off size with
        | error e => rfl
        | ok _ =>
            dsimp only
            rw [eval_blocked]
            cases Machine.persist id off size env.persists
                (s.buffer.protectPages (region.addr + off) env.protects is) with
            | error fault => rfl
            | ok w => rfl

/-- What comes after a section that does what a function does. -/
theorem Does.bind {p : Section α} {f : ClientManager → Except Fault (α × ClientManager)}
    (h : Does p f) (g : α → Section β) (s : Damanager) :
    (p >>= g).eval LockedAccess.serve s = (f s.toClientManager).toOption.bind fun x =>
      (g x.1).eval LockedAccess.serve { s with toClientManager := x.2 } := by
  rw [Dialogue.eval_bind, h s]
  cases f s.toClientManager <;> rfl

theorem does_serveFault (id off : Nat) (flags : PagefaultFlags) (env : Env) :
    Does (serveFault id off flags env) fun cm => do
      let (wake, w) ← cm.buffer.serveFault id off flags env
      return (wake, { cm with buffer := w }) := by
  intro s
  unfold serveFault Machine.serveFault
  dsimp only
  split
  next =>
    show (LockedAccess.serve (.unfix id off flags.isWrite env) s).bind _ = _
    rw [LockedAccess.serve, LockedAccess.exec]
    cases s.buffer.unfix id off flags.isWrite env <;> rfl
  next =>
    split
    next =>
      show (LockedAccess.serve (.markDirty id off) s).bind _ = _
      rw [LockedAccess.serve, LockedAccess.exec]
      dsimp only
      rcases s.buffer.markDirty id off with f | ⟨⟨start, size, _ | _⟩, w⟩ <;> rfl
    next => rfl

/-- `handle_userfault` with nothing in between. -/
theorem handleUserfault_eval (addr : UInt64) (flags : PagefaultFlags) (env : Env) :
    Does (handleUserfault addr flags env) (ClientManager.handleUserfault addr flags env) := by
  intro s
  unfold handleUserfault ClientManager.handleUserfault ClientManager.faultTarget
  rw [eval_floorRegion]
  rcases s.regionMap.floor? addr.toNat with _ | ⟨start, id⟩
  · rfl
  · dsimp only
    rw [eval_findRegion]
    cases s.regions.find? id with
    | none => rfl
    | some region =>
        dsimp only
        rw [eval_blockPfs, (does_serveFault id _ flags env).bind]
        dsimp only
        cases s.buffer.serveFault id _ flags env <;> rfl

variable {s : Damanager} {pid : Int} {c : Client}

theorem client_eq (hc : s.clients.find? pid = some c) : s.client pid = c := by
  rw [Damanager.client, hc]
  rfl

theorem eval_grant (hc : s.clients.find? pid = some c) (addr id : Nat)
    (reply : Except Errno ClientRegionInfo × ClientManager) :
    (grant pid addr id reply.1).eval LockedAccess.serve { s with toClientManager := reply.2 } =
      (s.grant pid c addr id reply).toOption := by
  obtain ⟨e | info, cm⟩ := reply
  · rfl
  · show (act (.setMapping pid addr id) >>= _).eval LockedAccess.serve _ = _
    have hc' : Damanager.client { s with toClientManager := cm } pid = c := client_eq hc
    rw [eval_act, LockedAccess.serve, LockedAccess.exec, Damanager.grant]
    dsimp only
    rw [hc']
    cases Damanager.assign pid c addr id { s with toClientManager := cm } <;> rfl

/-- `handle_call` with nothing in between. -/
theorem handleCall_eval (hc : s.clients.find? pid = some c) (params : CallParams)
    (env : CallEnv) :
    (handleCall pid env params).eval LockedAccess.serve s =
      (s.handleCall pid c params env).toOption := by
  cases params with
  | alloc id addr size persistent =>
      rw [handleCall, (does_allocate id size persistent env).bind, Damanager.handleCall]
      cases s.toClientManager.allocate id size persistent env with
      | error fault => rfl
      | ok reply => exact eval_grant hc addr id reply
  | anchor id => rfl
  | unanchor id =>
      rw [handleCall, (does_unanchor id env).bind, Damanager.handleCall]
      cases s.toClientManager.unanchor id env <;> rfl
  | getSize id =>
      rw [handleCall, (does_getSize id env).bind, Damanager.handleCall]
      rfl
  | map id addr size =>
      rw [handleCall, (does_map id env).bind, Damanager.handleCall]
      cases s.toClientManager.map id env with
      | error fault => rfl
      | ok reply => exact eval_grant hc addr id reply
  | unmap addr =>
      rw [handleCall, eval_findMapping, client_eq hc, Damanager.handleCall]
      cases c.mappings.find? addr with
      | none => rfl
      | some id =>
          dsimp only
          rw [eval_eraseMapping, client_eq hc, (does_unmap id env).bind]
          cases s.toClientManager.unmap id env <;> rfl
  | persist addr off size =>
      rw [handleCall, eval_findMapping, client_eq hc, Damanager.handleCall]
      cases c.mappings.find? addr with
      | none => rfl
      | some id =>
          dsimp only
          rw [(does_persist id off size env).bind]
          cases s.toClientManager.persist id off size env <;> rfl
  | advise id => rfl
  | unknown => rfl

theorem eval_cleanUp (env : Nat → CallEnv) (entries : List (Nat × Nat))
    (hc : s.clients.find? pid = some c) :
    (cleanUp pid env entries).eval LockedAccess.serve s =
      (Damanager.cleanUp env entries s.toClientManager).toOption.map fun cm => ((),
        { toClientManager := cm
          clients := s.clients.insert pid
            { c with mappings := entries.foldl (fun m e => m.erase e.1) c.mappings } }) := by
  induction entries generalizing s c with
  | nil =>
      rw [List.foldl_nil, OrdMap.insert_of_find? hc]
      rfl
  | cons e entries ih =>
      obtain ⟨addr, id⟩ := e
      rw [cleanUp, eval_eraseMapping, client_eq hc, (does_unmap id (env addr)).bind,
        Damanager.cleanUp]
      dsimp only
      cases s.toClientManager.unmap id (env addr) with
      | error fault => rfl
      | ok x =>
          refine (ih (OrdMap.find?_insert_self ..)).trans ?_
          rw [OrdMap.insert_insert]
          rfl

/-- The clean-up of a client with nothing in between, and the end of its thread. -/
theorem clean_eval {mappings : OrdMap Nat Nat} (env : Nat → CallEnv)
    (hc : s.clients.find? pid = some ⟨mappings, true⟩) :
    ((clean pid env).eval LockedAccess.serve s).map (fun x => x.2.endClient pid) =
      ((Action.disconnect pid env).exec s).toOption := by
  rw [clean, eval_mappings, client_eq hc, eval_cleanUp env _ hc, OrdMap.foldl_erase_entries,
    Action.exec, hc]
  dsimp only
  cases Damanager.cleanUp env mappings.entries s.toClientManager with
  | error fault => rfl
  | ok cm =>
      show some (Damanager.endClient pid _) = some _
      rw [Damanager.endClient, client_eq (OrdMap.find?_insert_self ..), OrdMap.insert_insert]

end Section

end DASim
