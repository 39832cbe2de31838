import DASim.Client.Agreement

/-!
# Mapping a region through the library

`damemory_map` is two requests.  The first asks for the size of the region, and
the library reserves that much address space.  The second maps the region.  The
manager serves requests of other processes in between, and it does not look at
the size in the second request.  If the region was freed and created anew
meanwhile, the handle has the size of the old region and the segment of the new
one.

`Processes` is the manager together with the processes that are between the two
requests.  All other library calls are one request each, and they are steps of
the manager.  The library serves one call of a process at a time, so a process
between the two requests makes no other one.
-/

namespace DASim

/-! ## The library -/

/-- `damemory_handle`. -/
structure Handle where
  addr : Nat
  size : Nat
  segid : Int
  apid : Int
deriving DecidableEq, Repr

namespace Handle

/-- `damemory_handle_valid`.  The address of an invalid handle is that of
`MAP_FAILED`. -/
def valid (h : Handle) : Bool := h.addr ≠ 2 ^ 64 - 1 && h.size ≠ 0 && h.apid ≠ -1

/-- `mk_invalid_handle`. -/
def invalid : Handle := ⟨2 ^ 64 - 1, 0, -1, -1⟩

end Handle

/-- What the outside decides while the library waits for one answer and works
on it. -/
structure LibEnv where
  /-- What the manager finds while it serves the request. -/
  call : CallEnv := {}
  /-- The address `mmap` returns, if it does not fail. -/
  mmap : Option Nat := none
  /-- The result of `xpmem_get`, if it does not fail. -/
  xpmemGet : Option Int := none
  xpmemAttachOk : Bool := true

namespace CallResult

/-- The field `get_size.size` of the union. -/
def sizeField : CallResult → Nat
  | .size n => n
  | _ => 0

/-- The field `alloc.segid` of the union, which is also `map.segid`. -/
def segidField : CallResult → Int
  | .segid n => n
  | _ => 0

end CallResult

/-- `damemory::map` between its two requests: the id, the size from the first
answer and the address that was reserved. -/
structure PendingMap where
  id : Nat
  size : Nat
  addr : Nat
deriving DecidableEq, Repr

/-- `attach_seg`.  A failure ends the process. -/
def attachSeg (addr size : Nat) (segid : Int) (env : LibEnv) : Option Handle :=
  match env.xpmemGet with
  | none => none
  | some apid => if env.xpmemAttachOk then some ⟨addr, size, segid, apid⟩ else none

/-- `damemory::map` from the answer to its first request to its second
request. -/
def mapSized (id : Nat) (answer : Except Errno CallResult) (env : LibEnv) : Option PendingMap :=
  match answer with
  | .error _ => none
  | .ok result => env.mmap.map fun addr => ⟨id, result.sizeField, addr⟩

/-- `damemory::map` from the answer to its second request on.  `none` is a
process that ends. -/
def mapAnswered (p : PendingMap) (answer : Except Errno CallResult) (env : LibEnv) :
    Option Handle :=
  match answer with
  | .error _ => some .invalid
  | .ok result => attachSeg p.addr p.size result.segidField env

/-! ## Processes -/

/-- The manager and the processes that are inside `damemory::map`. -/
structure Processes where
  manager : Damanager
  pending : OrdMap Int PendingMap

namespace Processes

def init (nrPagesRam nrPagesSwap : Nat) (files : OrdMap Nat PersFile) : Processes where
  manager := .init nrPagesRam nrPagesSwap files
  pending := .empty

/-- The first request of `damemory::map` is served.  A process that is inside
`damemory::map` already holds `damanager_mutex`. -/
def requestSize (pid : Int) (id : Nat) (env : LibEnv) (s : Processes) : Except Fault Processes :=
  match s.pending.find? pid, s.manager.clients.find? pid with
  | none, some ⟨mappings, true⟩ => do
      let (answer, manager) ← s.manager.handleCall pid ⟨mappings, true⟩ (.getSize id) env.call
      match mapSized id answer env with
      | none => return { s with manager := manager }
      | some p => return ⟨manager, s.pending.insert pid p⟩
  | _, _ => .ok s

/-- The second request is served, and the call returns with a handle. -/
def requestMap (pid : Int) (env : LibEnv) (s : Processes) :
    Except Fault (Option Handle × Processes) :=
  match s.pending.find? pid, s.manager.clients.find? pid with
  | some p, some ⟨mappings, true⟩ => do
      let (answer, manager) ←
        s.manager.handleCall pid ⟨mappings, true⟩ (.map p.id p.addr p.size) env.call
      return (mapAnswered p answer env, ⟨manager, s.pending.erase pid⟩)
  | _, _ => .ok (none, s)

/-- The step is a request of a process that holds `damanager_mutex` for
`damemory::map`. -/
def locked (s : Processes) : Action → Bool
  | .call pid _ _ => s.pending.contains pid
  | _ => false

/-- The processes inside `damemory::map` after a step of the manager.  One whose
connection ended is gone. -/
def remaining (s : Processes) : Action → OrdMap Int PendingMap
  | .disconnect pid _ => s.pending.erase pid
  | _ => s.pending

/-- Any other step of the manager. -/
def step (action : Action) (s : Processes) : Except Fault Processes :=
  if s.locked action then .ok s
  else do
    let manager ← action.exec s.manager
    return ⟨manager, s.remaining action⟩

end Processes

/-- What can happen to the processes. -/
inductive LibAction where
  | requestSize (pid : Int) (id : Nat) (env : LibEnv)
  | requestMap (pid : Int) (env : LibEnv)
  | manager (action : Action)

namespace LibAction

def exec : LibAction → Processes → Except Fault Processes
  | .requestSize pid id env, s => s.requestSize pid id env
  | .requestMap pid env, s => do
      let (_, s) ← s.requestMap pid env
      return s
  | .manager action, s => s.step action

/-- The request a step is about, if there is one, and what its calls return. -/
def request? (s : Processes) : LibAction → Option (CallParams × CallEnv)
  | .requestSize _ id env => some (.getSize id, env.call)
  | .requestMap pid env =>
      (s.pending.find? pid).map fun p => (.map p.id p.addr p.size, env.call)
  | .manager (.call _ params env) => some (params, env)
  | .manager _ => none

end LibAction

namespace ClientManager

/-- The size of the region `id`, if the buffer manager does not have it and the request
brings it into being. -/
def creates? (id : Nat) (env : CallEnv) (cm : ClientManager) : CallParams → Option Nat
  | .alloc id' _ size persistent =>
      if id' = id ∧ cm.buffer.regions.contains id = false then
        match cm.buffer.getAnchoredRegion id env.load with
        | (.ok (_, n), _) => some n
        | (.error _, w) =>
            match (w.allocate id size persistent env.create).1, env.xpmemMake with
            | .ok _, .ok _ => some size
            | _, _ => none
      else none
  | .getSize id' | .map id' _ _ =>
      if id' = id ∧ cm.buffer.regions.contains id = false then
        (cm.buffer.getAnchoredRegion id env.load).1.toOption.map Prod.snd
      else none
  | _ => none

/-- The request brings the region into being with another size than `n`. -/
def resizes (id n : Nat) (env : CallEnv) (cm : ClientManager) (params : CallParams) : Bool :=
  (cm.creates? id env params).any (· ≠ n)

end ClientManager

/-- No request is served that brings a region into being with another size, while
some process is about to map it. -/
def LibAction.KeepsSizes (s : Processes) (action : LibAction) : Prop :=
  ∀ pid p req, s.pending.find? pid = some p → action.request? s = some req →
    s.manager.resizes p.id p.size req.2 req.1 = false

instance (s : Processes) (action : LibAction) : Decidable (action.KeepsSizes s) :=
  decidable_of_iff (∀ e ∈ s.pending.entries, ∀ req ∈ action.request? s,
      s.manager.resizes e.2.id e.2.size req.2 req.1 = false)
    ⟨fun h pid p req hp hreq => h (pid, p) (OrdMap.find?_eq_some.mp hp) req hreq,
      fun h e he req hreq => h e.1 e.2 req (OrdMap.find?_eq_some.mpr he) hreq⟩

/-! ## Sizes of regions -/

/-- A region, if there is one, has the given size. -/
def SizeIs (n : Nat) (shape : Option RegionShape) : Prop := ∀ s, shape = some s → s.size = n

namespace Machine

variable {w w' : Machine} {id id' n : Nat} {env : Env}

theorem sizeIs_of_update {x : Option RegionShape} (h : SizeIs n (w.shape id'))
    (hshape : w'.shape = Function.update w.shape id x) (hx : id' = id → SizeIs n x) :
    SizeIs n (w'.shape id') := by
  rw [hshape, Function.update_apply]
  split
  next heq => exact hx heq
  next => exact h

theorem free_sizeIs (h : SizeIs n (w.shape id')) (hfree : w.free id env = .ok w') :
    SizeIs n (w'.shape id') := by
  rcases free_shape hfree with ⟨hshape, -⟩ | hshape
  · rw [hshape]
    exact h
  · exact sizeIs_of_update h hshape fun _ s hs => by cases hs

theorem allocate_sizeIs {size : Nat} {persistent : Bool} {res : Except Errno Nat}
    (h : SizeIs n (w.shape id')) (halloc : w.allocate id size persistent env = (res, w'))
    (hnew : id' = id → w.shape id = none → res.isOk = true → size = n) :
    SizeIs n (w'.shape id') := by
  rcases allocate_shape halloc with ⟨-, hshape⟩ | ⟨s, rfl, hsize, hnone, hshape⟩
  · rw [hshape]
    exact h
  · refine sizeIs_of_update h hshape fun heq s' hs' => ?_
    cases hs'
    exact hsize.trans (hnew heq hnone rfl)

/-- A region that is freed as soon as it is allocated is gone. -/
theorem free_allocate_sizeIs {size addr : Nat} {persistent : Bool} {env' : Env} {w₁ : Machine}
    (h : SizeIs n (w.shape id')) (halloc : w.allocate id size persistent env = (.ok addr, w₁))
    (hfree : w₁.free id env' = .ok w') : SizeIs n (w'.shape id') := by
  rcases allocate_cases halloc with ⟨e, he, -⟩ | ⟨addr, -, -, -, -, -, -, -, rfl⟩
  · cases he
  · have hshape := shape_allocated id size addr persistent env w
    rcases free_shape hfree with ⟨-, hanch⟩ | hfreed
    · have hself := congrFun hshape id
      rw [Function.update_self] at hself
      cases hanch _ hself
    · rw [hshape, Function.update_idem] at hfreed
      exact sizeIs_of_update h hfreed fun _ s hs => by cases hs

theorem getAnchoredRegion_sizeIs {res : Except Errno (Nat × Nat)} (h : SizeIs n (w.shape id'))
    (hget : w.getAnchoredRegion id env = (res, w'))
    (hnew : id' = id → w.shape id = none → ∀ addr m, res = .ok (addr, m) → m = n) :
    SizeIs n (w'.shape id') := by
  rcases getAnchoredRegion_shape hget with ⟨-, -, hshape⟩ | ⟨s, hres, hshape, hs⟩
  · rw [hshape]
    exact h
  · refine sizeIs_of_update h hshape fun heq s' hs' => ?_
    cases hs'
    rcases hs with hs | ⟨hnone, -⟩
    · exact h s (heq ▸ hs)
    · exact hnew heq hnone s.addr s.size hres

theorem anchor_sizeIs (h : SizeIs n (w.shape id')) (id : Nat) :
    SizeIs n ((w.anchor id).2.shape id') := by
  rcases anchor_shape (Prod.eta (w.anchor id)).symm with hshape | ⟨s, hs, hshape⟩
  · rw [hshape]
    exact h
  · refine sizeIs_of_update h hshape fun heq s' hs' => ?_
    cases hs'
    exact h s (heq ▸ hs)

theorem unanchor_sizeIs {res : Except Errno Unit} (h : SizeIs n (w.shape id'))
    (hun : w.unanchor id = (res, w')) : SizeIs n (w'.shape id') := by
  rcases unanchor_shape hun with ⟨-, hshape⟩ | ⟨s, -, hs, hshape⟩
  · rw [hshape]
    exact h
  · refine sizeIs_of_update h hshape fun heq s' hs' => ?_
    cases hs'
    exact h s (heq ▸ hs)

theorem shape_eq_none_iff : w.shape id = none ↔ w.regions.contains id = false := by
  rw [Book.shape, Option.map_eq_none_iff, OrdMap.contains_eq_false]

end Machine

namespace ClientManager

variable {cm cm' : ClientManager} {id id' n size addr : Nat} {env : CallEnv}

theorem size_of_creates {params : CallParams} {m : Nat} (hno : cm.resizes id n env params = false)
    (h : cm.creates? id env params = some m) : m = n := by
  rw [resizes, h] at hno
  simpa using hno

/-- A region that is loaded has the size it should have. -/
theorem size_of_loads {res : Except Errno (Nat × Nat)} {w : Machine}
    (hno : cm.resizes id n env (.getSize id') = false)
    (hget : cm.buffer.getAnchoredRegion id' env.load = (res, w)) :
    id = id' → cm.buffer.shape id' = none → ∀ addr m, res = .ok (addr, m) → m = n := by
  rintro rfl hnone addr m rfl
  refine size_of_creates hno ?_
  rw [creates?, if_pos ⟨rfl, Machine.shape_eq_none_iff.mp hnone⟩, hget]
  rfl

theorem addRegion_sizeIs {res : Except Errno ClientRegionInfo}
    (hadd : cm.addRegion id' addr size env = .ok (res, cm')) (hid : cm.regions.find? id' = none)
    (h : SizeIs n (cm.buffer.shape id)) : SizeIs n (cm'.buffer.shape id) := by
  rcases addRegion_cases hid hadd with ⟨e, w, -, hfree, rfl⟩ | ⟨segid, -, rfl⟩
  · exact Machine.free_sizeIs h hfree
  · exact h

theorem allocate_sizeIs {persistent : Bool} {res : Except Errno ClientRegionInfo}
    (h : SizeIs n (cm.buffer.shape id))
    (hno : cm.resizes id n env (.alloc id' addr size persistent) = false)
    (hcall : cm.allocate id' size persistent env = .ok (res, cm')) :
    SizeIs n (cm'.buffer.shape id) := by
  rcases allocate_cases hcall with ⟨-, -, rfl⟩ | ⟨hid, ⟨res₁, w₁, -, hget, rfl⟩ |
    ⟨e₁, w₁, res₂, w₂, hget, halloc, hlast⟩⟩
  · exact h
  · refine Machine.getAnchoredRegion_sizeIs h hget ?_
    rintro rfl hnone addr m ⟨⟩
    refine size_of_creates hno ?_
    rw [creates?, if_pos ⟨rfl, Machine.shape_eq_none_iff.mp hnone⟩, hget]
  · have h₁ : SizeIs n (w₁.shape id) :=
      Machine.getAnchoredRegion_sizeIs h hget fun _ _ _ _ hres => by cases hres
    rcases hlast with ⟨e, -, rfl, rfl⟩ | ⟨addr, rfl, hadd⟩
    · exact Machine.allocate_sizeIs h₁ halloc fun _ _ hok => by cases hok
    · rcases addRegion_cases (by exact hid) hadd with
        ⟨e, w, -, hfree, rfl⟩ | ⟨segid, ⟨hmake, -⟩, rfl⟩
      · exact Machine.free_allocate_sizeIs h₁ halloc hfree
      · refine Machine.allocate_sizeIs h₁ halloc fun heq hnone _ => ?_
        obtain rfl := heq
        rcases Machine.getAnchoredRegion_shape hget with ⟨-, hnone', -⟩ | ⟨s, hres, -⟩
        · refine size_of_creates hno ?_
          rw [creates?, if_pos ⟨rfl, Machine.shape_eq_none_iff.mp hnone'⟩, hget]
          dsimp only
          rw [halloc, hmake]
        · cases hres

theorem unanchor_sizeIs {res : Except Errno Unit} (h : SizeIs n (cm.buffer.shape id))
    (hcall : cm.unanchor id' env = .ok (res, cm')) : SizeIs n (cm'.buffer.shape id) := by
  obtain ⟨res₁, w₁, hun, -, ⟨rfl, -⟩ | ⟨-, -, w₂, hfree, rfl⟩⟩ := unanchor_cases hcall
  · exact Machine.unanchor_sizeIs h hun
  · exact Machine.free_sizeIs (Machine.unanchor_sizeIs h hun) hfree

theorem getSize_sizeIs {res : Except Errno Nat} (h : SizeIs n (cm.buffer.shape id))
    (hno : cm.resizes id n env (.getSize id') = false) (hcall : cm.getSize id' env = (res, cm')) :
    SizeIs n (cm'.buffer.shape id) := by
  rcases getSize_cases hcall with ⟨r, -, -, rfl⟩ | ⟨-, res₁, w₁, hget, -, rfl⟩
  · exact h
  · exact Machine.getAnchoredRegion_sizeIs h hget (size_of_loads hno hget)

theorem map_sizeIs {res : Except Errno ClientRegionInfo} (h : SizeIs n (cm.buffer.shape id))
    (hno : cm.resizes id n env (.map id' addr size) = false)
    (hcall : cm.map id' env = .ok (res, cm')) : SizeIs n (cm'.buffer.shape id) := by
  rcases map_cases hcall with ⟨r, -, -, rfl⟩ | ⟨hid, res₁, w₁, hget, hlast⟩
  · exact h
  · have h₁ := Machine.getAnchoredRegion_sizeIs h hget (size_of_loads hno hget)
    rcases hlast with ⟨e, -, -, rfl⟩ | ⟨addr, size, -, hadd⟩
    · exact h₁
    · exact addRegion_sizeIs hadd hid h₁

theorem unmap_sizeIs {res : Except Errno Unit} (h : SizeIs n (cm.buffer.shape id))
    (hcall : cm.unmap id' env = .ok (res, cm')) : SizeIs n (cm'.buffer.shape id) := by
  rcases unmap_cases hcall with ⟨-, -, rfl⟩ | ⟨r, m, -, -, ⟨-, rfl⟩ | ⟨-, -, -, w, hfree, rfl⟩⟩
  · exact h
  · exact h
  · exact Machine.free_sizeIs h hfree

theorem persist_sizeIs {off : Nat} {res : Except Errno Unit} (h : SizeIs n (cm.buffer.shape id))
    (hcall : cm.persist id' off size env = .ok (res, cm')) : SizeIs n (cm'.buffer.shape id) := by
  rcases persist_cases hcall with ⟨e, -, rfl⟩ | ⟨r, w, blocks, -, hrange, rfl⟩
  · exact h
  · show SizeIs n (w.shape id)
    rw [Machine.persistRange_shape hrange]
    exact h

theorem Served.sizeIs {params : CallParams} (hserved : cm.Served env params cm')
    (h : SizeIs n (cm.buffer.shape id)) (hno : cm.resizes id n env params = false) :
    SizeIs n (cm'.buffer.shape id) := by
  cases hserved with
  | refused => exact h
  | alloc halloc => exact allocate_sizeIs h hno halloc
  | anchor => exact Machine.anchor_sizeIs h _
  | unanchor hun => exact unanchor_sizeIs h hun
  | getSize => exact getSize_sizeIs h hno (Prod.eta _).symm
  | map hmap => exact map_sizeIs h hno hmap
  | unmap hunmap => exact unmap_sizeIs h hunmap
  | persist hpersist => exact persist_sizeIs h hpersist

end ClientManager

namespace Damanager

variable {s s' : Damanager} {nrPagesRam nrPagesSwap id n : Nat} {files : OrdMap Nat PersFile}
  {pid : Int} {c : Client} {env : CallEnv}

theorem handleCall_sizeIs {params : CallParams} {res : Except Errno CallResult}
    (h : SizeIs n (s.buffer.shape id)) (hno : s.resizes id n env params = false)
    (hcall : s.handleCall pid c params env = .ok (res, s')) : SizeIs n (s'.buffer.shape id) :=
  (handleCall_served hcall).sizeIs h hno

theorem exec_sizeIs {action : Action} (hs : s.Intact nrPagesRam nrPagesSwap files)
    (h : SizeIs n (s.buffer.shape id))
    (hno : ∀ pid params env, action = .call pid params env → s.resizes id n env params = false)
    (hexec : action.exec s = .ok s') : SizeIs n (s'.buffer.shape id) := by
  cases exec_stepped hexec with
  | idle => exact h
  | connect => exact h
  | call _ hcall => exact handleCall_sizeIs h (hno _ _ _ rfl) hcall
  | disconnect _ hclean =>
      exact cleanUp_invariant (P := fun cm => SizeIs n (cm.buffer.shape id))
        ClientManager.unmap_sizeIs h hclean
  | userfault hfault =>
      rcases ClientManager.handleUserfault_cases hfault with
        rfl | ⟨id', off, w, blocks, hserve, rfl⟩
      · exact h
      · show SizeIs n (w.shape id)
        rw [Machine.serveFault_shape hs.reach.owned hs.reach.laid hserve]
        exact h
  | @store st =>
      obtain ⟨shm, trace, heq⟩ := Machine.clientStore_eq s.buffer st
      show SizeIs n ((s.buffer.clientStore st).shape id)
      rw [heq]
      exact h

end Damanager

/-! ## Processes about to map a region -/

namespace Processes

variable {s s' : Processes} {nrPagesRam nrPagesSwap : Nat} {files : OrdMap Nat PersFile}
  {pid : Int} {env : LibEnv}

/-- A region some process is about to map has the size the process knows. -/
structure Sized (nrPagesRam nrPagesSwap : Nat) (files : OrdMap Nat PersFile) (s : Processes) :
    Prop where
  intact : s.manager.Intact nrPagesRam nrPagesSwap files
  sizes : ∀ pid p, s.pending.find? pid = some p → SizeIs p.size (s.manager.buffer.shape p.id)

/-- The size in an answer is that of the region. -/
theorem getSize_answer {cm cm' : ClientManager} {id : Nat} {env : CallEnv} {size : Nat}
    (h : cm.Intact nrPagesRam nrPagesSwap files) (hcall : cm.getSize id env = (.ok size, cm')) :
    SizeIs size (cm'.buffer.shape id) := by
  rcases ClientManager.getSize_cases hcall with
    ⟨r, hr, hres, rfl⟩ | ⟨hid, res₁, w₁, hget, hres, rfl⟩
  · cases hres
    obtain ⟨R, hR, -, hsize⟩ := h.agrees.find? hr
    intro s hs
    cases (Book.shape_of_find? hR).symm.trans hs
    exact hsize
  · cases res₁ with
    | error e => cases hres
    | ok found =>
        obtain ⟨addr, size'⟩ := found
        cases hres
        obtain ⟨s, hs, -, hsize, -⟩ := (h.getAnchoredRegion hid hget).2 addr size' rfl
        intro s' hs'
        cases hs.symm.trans hs'
        exact hsize

theorem requestSize_sized {id : Nat} (h : s.Sized nrPagesRam nrPagesSwap files)
    (hkeeps : (LibAction.requestSize pid id env).KeepsSizes s)
    (hexec : s.requestSize pid id env = .ok s') : s'.Sized nrPagesRam nrPagesSwap files := by
  unfold requestSize at hexec
  split at hexec
  next mappings hp hc =>
    obtain ⟨⟨answer, manager⟩, hcall, hexec⟩ := ok_of_bind hexec
    have hintact := Damanager.handleCall_intact h.intact hcall
    have hsizes : ∀ pid' p, s.pending.find? pid' = some p →
        SizeIs p.size (manager.buffer.shape p.id) := fun pid' p hp =>
      Damanager.handleCall_sizeIs (h.sizes pid' p hp) (hkeeps pid' p _ hp rfl) hcall
    dsimp only at hexec
    split at hexec
    next =>
      cases hexec
      exact ⟨hintact, hsizes⟩
    next p hsized =>
      cases hexec
      refine ⟨hintact, fun pid' p' hp' => ?_⟩
      rw [OrdMap.find?_insert] at hp'
      split at hp'
      next =>
        -- the size of the new call is the one just read
        cases hp'
        cases answer with
        | error e => cases hsized
        | ok result =>
            obtain ⟨addr, -, rfl⟩ := Option.map_eq_some_iff.mp hsized
            cases hget : s.manager.toClientManager.getSize id env.call with
            | mk ret cm =>
                rw [Damanager.handleCall, hget] at hcall
                cases ret with
                | error e => cases hcall
                | ok size =>
                    cases hcall
                    exact getSize_answer h.intact hget
      next => exact hsizes pid' p' hp'
  next =>
    cases hexec
    exact h

theorem requestMap_cases {handle : Option Handle} (h : s.requestMap pid env = .ok (handle, s')) :
    (handle = none ∧ s' = s) ∨
      ∃ p c answer manager, s.pending.find? pid = some p ∧
        s.manager.handleCall pid c (.map p.id p.addr p.size) env.call = .ok (answer, manager) ∧
        handle = mapAnswered p answer env ∧ s' = ⟨manager, s.pending.erase pid⟩ := by
  unfold requestMap at h
  split at h
  next p mappings hp hc =>
    obtain ⟨⟨answer, manager⟩, hcall, h⟩ := ok_of_bind h
    cases h
    exact Or.inr ⟨p, _, answer, manager, hp, hcall, rfl, rfl⟩
  next =>
    cases h
    exact Or.inl ⟨rfl, rfl⟩

theorem requestMap_sized {handle : Option Handle} (h : s.Sized nrPagesRam nrPagesSwap files)
    (hkeeps : (LibAction.requestMap pid env).KeepsSizes s)
    (hexec : s.requestMap pid env = .ok (handle, s')) : s'.Sized nrPagesRam nrPagesSwap files := by
  rcases requestMap_cases hexec with ⟨-, rfl⟩ | ⟨p, c, answer, manager, hp, hcall, -, rfl⟩
  · exact h
  · refine ⟨Damanager.handleCall_intact h.intact hcall, fun pid' p' hp' => ?_⟩
    rw [OrdMap.find?_erase] at hp'
    split at hp'
    next => cases hp'
    next =>
      refine Damanager.handleCall_sizeIs (h.sizes pid' p' hp')
        (hkeeps pid' p' (.map p.id p.addr p.size, env.call) hp' ?_) hcall
      rw [LibAction.request?, hp, Option.map_some]

theorem find?_of_remaining {action : Action} {p : PendingMap}
    (h : (s.remaining action).find? pid = some p) : s.pending.find? pid = some p := by
  cases action with
  | disconnect pid' env =>
      rw [remaining, OrdMap.find?_erase] at h
      split at h
      next => cases h
      next => exact h
  | connect pid' => exact h
  | call pid' params env => exact h
  | userfault fault flags env => exact h
  | store st => exact h

theorem step_sized {action : Action} (h : s.Sized nrPagesRam nrPagesSwap files)
    (hkeeps : (LibAction.manager action).KeepsSizes s) (hexec : s.step action = .ok s') :
    s'.Sized nrPagesRam nrPagesSwap files := by
  rw [step] at hexec
  split at hexec
  next =>
    cases hexec
    exact h
  next =>
    obtain ⟨manager, hstep, hexec⟩ := ok_of_bind hexec
    cases hexec
    refine ⟨Damanager.exec_intact h.intact hstep, fun pid p hp => ?_⟩
    have hp' := find?_of_remaining hp
    refine Damanager.exec_sizeIs h.intact (h.sizes pid p hp') ?_ hstep
    rintro pid' params env rfl
    exact hkeeps pid p (params, env) hp' rfl

theorem exec_sized {action : LibAction} (h : s.Sized nrPagesRam nrPagesSwap files)
    (hkeeps : action.KeepsSizes s) (hexec : action.exec s = .ok s') :
    s'.Sized nrPagesRam nrPagesSwap files := by
  cases action with
  | requestSize pid id env => exact requestSize_sized h hkeeps hexec
  | requestMap pid env =>
      obtain ⟨⟨handle, s₁⟩, hmap, hexec⟩ := ok_of_bind hexec
      cases hexec
      exact requestMap_sized h hkeeps hmap
  | manager action => exact step_sized h hkeeps hexec

theorem init_sized (nrPagesRam nrPagesSwap : Nat) (files : OrdMap Nat PersFile) :
    (init nrPagesRam nrPagesSwap files).Sized nrPagesRam nrPagesSwap files where
  intact := Damanager.init_intact _ _ _
  sizes := fun _ _ hp => by cases hp

/-- What the client manager registers when it grants a mapping is the region of
the buffer manager. -/
theorem map_answer {cm cm' : ClientManager} {id n : Nat} {env : CallEnv} {info : ClientRegionInfo}
    (h : cm.Intact nrPagesRam nrPagesSwap files) (hn : SizeIs n (cm'.buffer.shape id))
    (hcall : cm.map id env = .ok (.ok info, cm')) :
    ∃ r, cm'.regions.find? id = some r ∧ r.segid = info.segid ∧ r.size = n := by
  have hr : ∃ r, cm'.regions.find? id = some r ∧ r.segid = info.segid := by
    rcases ClientManager.map_cases hcall with ⟨r, -, hres, rfl⟩ | ⟨hid, res₁, w₁, -, hlast⟩
    · cases hres
      exact ⟨_, OrdMap.find?_insert_self _ _ _, rfl⟩
    · rcases hlast with ⟨e, -, hres, -⟩ | ⟨addr, size, -, hadd⟩
      · cases hres
      · rcases ClientManager.addRegion_cases (by exact hid) hadd with
          ⟨e, w, ⟨-, hres⟩, -⟩ | ⟨segid, ⟨-, hres⟩, rfl⟩
        · cases hres
        · cases hres
          exact ⟨_, OrdMap.find?_insert_self _ _ _, rfl⟩
  obtain ⟨r, hr, hsegid⟩ := hr
  obtain ⟨R, hR, -, hsize⟩ := (h.map hcall).agrees.find? hr
  exact ⟨r, hr, hsegid, hsize.symm.trans (hn R.shape (Book.shape_of_find? hR))⟩

end Processes

/-! ## The result -/

/-- When `damemory_map` returns a valid handle, its size is that of the region
whose segment the manager answered with, in every run in which no region is
created anew with another size while a process is about to map it. -/
theorem map_handle_size {nrPagesRam nrPagesSwap : Nat} {files : OrdMap Nat PersFile}
    {s s' : Processes} (h : Runs LibAction.exec (fun s action => action.KeepsSizes s)
      (.init nrPagesRam nrPagesSwap files) s) {pid : Int} {env : LibEnv} {handle : Handle}
    (hkeeps : (LibAction.requestMap pid env).KeepsSizes s)
    (hmap : s.requestMap pid env = .ok (some handle, s')) (hvalid : handle.valid = true) :
    ∃ p r, s.pending.find? pid = some p ∧ s'.manager.regions.find? p.id = some r ∧
      r.segid = handle.segid ∧ handle.size = r.size := by
  have hsized : s.Sized nrPagesRam nrPagesSwap files :=
    h.invariant (Processes.init_sized _ _ _) fun _ _ _ hs hk he => Processes.exec_sized hs hk he
  rcases Processes.requestMap_cases hmap with
    ⟨hnone, -⟩ | ⟨p, c, answer, manager, hp, hcall, hhandle, rfl⟩
  · cases hnone
  cases answer with
  | error e =>
      -- an error gives an invalid handle
      cases hhandle
      cases hvalid
  | ok result =>
      have hsizes : SizeIs p.size (manager.buffer.shape p.id) := by
        refine Damanager.handleCall_sizeIs (hsized.sizes pid p hp)
          (hkeeps pid p (.map p.id p.addr p.size, env.call) hp ?_) hcall
        rw [LibAction.request?, hp, Option.map_some]
      obtain ⟨⟨reply, cm⟩, hreply, hgrant⟩ := ok_of_bind hcall
      obtain ⟨hcm, ⟨e, -, hres, -⟩ | ⟨info, rfl, hres, -⟩⟩ := Damanager.grant_cases hgrant
      · cases hres
      · cases hres
        rw [← hcm] at hreply
        obtain ⟨r, hr, hsegid, hsize⟩ := Processes.map_answer hsized.intact hsizes hreply
        have hfields : handle.size = p.size ∧ handle.segid = info.segid := by
          rw [mapAnswered, attachSeg] at hhandle
          split at hhandle
          next => cases hhandle
          next =>
            split at hhandle
            next =>
              cases hhandle
              exact ⟨rfl, rfl⟩
            next => cases hhandle
        exact ⟨p, r, hp, hr, hsegid.trans hfields.2.symm, hfields.1.trans hsize.symm⟩

/-- The handle a call returns, with the next state. -/
def returned : Except Fault (Option Handle × Processes) → Option (Handle × Processes)
  | .ok (some handle, s) => some (handle, s)
  | _ => none

theorem eq_of_returned {x : Except Fault (Option Handle × Processes)} {handle : Handle}
    {s : Processes} (h : returned x = some (handle, s)) : x = .ok (some handle, s) := by
  unfold returned at h
  split at h
  next =>
    cases h
    rfl
  next => cases h

/-- What the process finds when it maps the region. -/
def attachEnv : LibEnv := { xpmemGet := some 3 }

/-- While one process maps a region, the other one allocates another region. -/
def quietActions : List LibAction :=
  [.manager (.connect 7), .manager (.connect 8),
    .manager (.call 8 (.alloc 1 0x1000 pageSize false)
      { create := { reserve := some 0x40000000 } }),
    .requestSize 7 1 { mmap := some 0x5000 },
    .manager (.call 8 (.alloc 2 0x2000 (2 * pageSize) false)
      { create := { reserve := some 0x80000000 } })]

theorem map_handle_size_quiet : ∃ s s' handle,
    Runs LibAction.exec (fun s action => action.KeepsSizes s) (.init 2 2 .empty) s ∧
      s.requestMap 7 attachEnv = .ok (some handle, s') ∧
      ∃ r, s'.manager.regions.find? 1 = some r ∧ handle.size = r.size := by
  have hrun : reaches LibAction.exec (fun s action => decide (action.KeepsSizes s))
      (fun s => decide ((LibAction.requestMap 7 attachEnv).KeepsSizes s) &&
        decide (s.pending.find? 7 = some ⟨1, pageSize, 0x5000⟩) &&
        (returned (s.requestMap 7 attachEnv)).any fun t => t.1.valid)
      quietActions (.init 2 2 .empty) = true := by decide +kernel
  obtain ⟨s, hs, h⟩ : ∃ s,
      Runs LibAction.exec (fun s action => action.KeepsSizes s) (.init 2 2 .empty) s ∧ _ :=
    Runs.of_reaches hrun fun _ _ _ => of_decide_eq_true
  simp only [Bool.and_eq_true, Option.any_eq_true, decide_eq_true_eq] at h
  obtain ⟨⟨hkeeps, hp⟩, ⟨handle, s'⟩, hmap, hvalid⟩ := h
  have hmap' := eq_of_returned hmap
  obtain ⟨p, r, hp', hr, -, hsize⟩ := map_handle_size hs hkeeps hmap' hvalid
  cases hp.symm.trans hp'
  exact ⟨s, s', handle, hs, hmap', r, hr, hsize⟩

/-- While one process maps a region, the other one frees it and allocates a
larger one with the same id. -/
def recreatedActions : List LibAction :=
  [.manager (.connect 7), .manager (.connect 8),
    .manager (.call 8 (.alloc 1 0x1000 pageSize false)
      { create := { reserve := some 0x40000000 } }),
    .requestSize 7 1 { mmap := some 0x5000 },
    .manager (.call 8 (.unmap 0x1000) {}),
    .manager (.call 8 (.alloc 1 0x2000 (2 * pageSize) false)
      { create := { reserve := some 0x80000000 }, xpmemMake := .ok 2 })]

theorem recreated_region_other_size : ∃ s s' handle p r,
    Runs LibAction.exec (fun _ _ => True) (.init 2 2 .empty) s ∧
      s.requestMap 7 attachEnv = .ok (some handle, s') ∧ handle.valid = true ∧
      s.pending.find? 7 = some p ∧ s'.manager.regions.find? p.id = some r ∧
      r.segid = handle.segid ∧ handle.size = pageSize ∧ r.size = 2 * pageSize := by
  have hrun : reaches LibAction.exec (fun _ _ => true)
      (fun s => (s.pending.find? 7).any fun p =>
        (returned (s.requestMap 7 attachEnv)).any fun t =>
          t.1.valid && (t.2.manager.regions.find? p.id).any fun r =>
            decide (r.segid = t.1.segid) && decide (t.1.size = pageSize) &&
              decide (r.size = 2 * pageSize))
      recreatedActions (.init 2 2 .empty) = true := by decide +kernel
  obtain ⟨s, hs, h⟩ : ∃ s, Runs LibAction.exec (fun _ _ => True) (.init 2 2 .empty) s ∧ _ :=
    Runs.of_reaches hrun fun _ _ _ _ => trivial
  simp only [Bool.and_eq_true, Option.any_eq_true, decide_eq_true_eq] at h
  obtain ⟨p, hp, ⟨handle, s'⟩, hmap, hvalid, r, hr, ⟨hsegid, hsize⟩, hsize'⟩ := h
  exact ⟨s, s', handle, p, r, hs, eq_of_returned hmap, hvalid, hp, hr, hsegid, hsize, hsize'⟩

end DASim
