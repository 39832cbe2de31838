import DASim.Client.Faults

/-!
# The client manager and its clients

`ClientManager` holds the tables of `client_manager`: the regions that are
mapped by clients, with the number of mappings, and the map from start addresses
to regions that page faults are looked up in.  A region of the buffer manager
need not be here: an anchored one is kept when its last mapping goes.

`Damanager` adds the connected clients.  A client has a table of its own, from
the addresses it was given in requests to region ids.  Every request, every page
fault and the clean-up of a client that went away is served under one lock, so
each of them is one step here.  `DASim.Client.Sections` has them access by access.

A process of 64-bit addresses cannot hold `2 ^ 64` nodes of a map.  A mapping
table that would need one more ends the process with `std::bad_alloc`.
-/

namespace DASim

/-! ## The tables -/

/-- `cm_region`. -/
structure CmRegion where
  addr : Nat
  size : Nat
  segid : Int
  mapcount : Nat
deriving DecidableEq, Repr

/-- `client_region_info`. -/
structure ClientRegionInfo where
  segid : Int
  size : Nat
deriving DecidableEq, Repr

/-- `client_manager`, with the buffer manager it owns. -/
structure ClientManager where
  buffer : Machine
  regions : OrdMap Nat CmRegion
  regionMap : OrdMap Nat Nat
  -- the calls of `xpmem_block_pfs`, newest first
  blocks : List (Int × Bool)

/-- What the outside decides while one request is served. -/
structure CallEnv where
  /-- For `get_anchored_region`. -/
  load : Env := {}
  /-- For `allocate`. -/
  create : Env := {}
  /-- For `free`. -/
  release : Env := {}
  /-- For the loop that protects pages, and for `persist`. -/
  protects : Env := {}
  persists : Env := {}
  /-- The segment `xpmem_make` makes, or its error. -/
  xpmemMake : Except Errno Int := .ok 1
  /-- The error of `xpmem_remove`, if it fails. -/
  xpmemRemove : Option Errno := none

namespace ClientManager

def init (nrPagesRam nrPagesSwap : Nat) (files : OrdMap Nat PersFile) : ClientManager where
  buffer := .init nrPagesRam nrPagesSwap files
  regions := .empty
  regionMap := .empty
  blocks := []

/-! ## Requests -/

/-- `add_region`. -/
def addRegion (id addr size : Nat) (env : CallEnv) (cm : ClientManager) :
    Except Fault (Except Errno ClientRegionInfo × ClientManager) :=
  match env.xpmemMake with
  | .error e => do
      let w ← cm.buffer.free id env.release
      return (.error e, { cm with buffer := w })
  | .ok segid =>
      -- `emplace` keeps an entry that is there, `operator[]` does not
      let regions := if cm.regions.contains id then cm.regions
        else cm.regions.insert id ⟨addr, size, segid, 1⟩
      .ok (.ok ⟨segid, size⟩,
        { cm with regions := regions, regionMap := cm.regionMap.insert addr id })

/-- `allocate`. -/
def allocate (id size : Nat) (persistent : Bool) (env : CallEnv) (cm : ClientManager) :
    Except Fault (Except Errno ClientRegionInfo × ClientManager) :=
  if cm.regions.contains id then .ok (.error .eexist, cm)
  else
    match cm.buffer.getAnchoredRegion id env.load with
    | (.ok _, w) => .ok (.error .eexist, { cm with buffer := w })
    | (.error _, w) =>
        match w.allocate id size persistent env.create with
        | (.error e, w) => .ok (.error e, { cm with buffer := w })
        | (.ok addr, w) => { cm with buffer := w }.addRegion id addr size env

/-- `anchor`. -/
def anchor (id : Nat) (cm : ClientManager) : Except Errno Unit × ClientManager :=
  let (ret, w) := cm.buffer.anchor id
  (ret, { cm with buffer := w })

/-- `unanchor`. -/
def unanchor (id : Nat) (env : CallEnv) (cm : ClientManager) :
    Except Fault (Except Errno Unit × ClientManager) :=
  match cm.buffer.unanchor id with
  | (.error e, w) => .ok (.error e, { cm with buffer := w })
  | (.ok (), w) =>
      if cm.regions.contains id then .ok (.ok (), { cm with buffer := w })
      else do
        let w ← w.free id env.release
        return (.ok (), { cm with buffer := w })

/-- `get_size`. -/
def getSize (id : Nat) (env : CallEnv) (cm : ClientManager) : Except Errno Nat × ClientManager :=
  match cm.regions.find? id with
  | some region => (.ok region.size, cm)
  | none =>
      match cm.buffer.getAnchoredRegion id env.load with
      | (.error e, w) => (.error e, { cm with buffer := w })
      | (.ok (_, size), w) => (.ok size, { cm with buffer := w })

/-- `map`. -/
def map (id : Nat) (env : CallEnv) (cm : ClientManager) :
    Except Fault (Except Errno ClientRegionInfo × ClientManager) :=
  match cm.regions.find? id with
  | some region =>
      .ok (.ok ⟨region.segid, region.size⟩,
        { cm with
          regions := cm.regions.insert id
            { region with mapcount := (region.mapcount + 1) % 2 ^ 64 } })
  | none =>
      match cm.buffer.getAnchoredRegion id env.load with
      | (.error e, w) => .ok (.error e, { cm with buffer := w })
      | (.ok (addr, size), w) => { cm with buffer := w }.addRegion id addr size env

/-- `unmap`.  If `xpmem_remove` fails, the entry stays with the lower count. -/
def unmap (id : Nat) (env : CallEnv) (cm : ClientManager) :
    Except Fault (Except Errno Unit × ClientManager) :=
  match cm.regions.find? id with
  | none => .ok (.error .enoent, cm)
  | some region =>
      let mapcount := (region.mapcount + 2 ^ 64 - 1) % 2 ^ 64
      let cm := { cm with regions := cm.regions.insert id { region with mapcount := mapcount } }
      if 0 < mapcount then .ok (.ok (), cm)
      else
        match env.xpmemRemove with
        | some e => .ok (.error e, cm)
        | none => do
            let w ← cm.buffer.free id env.release
            return (.ok (),
              { cm with
                buffer := w
                regions := cm.regions.erase id
                regionMap := cm.regionMap.erase region.addr })

/-- An id where a segment is expected: the same 64 bits as an `xpmem_segid_t`. -/
def asSegid (id : Nat) : Int := (id : Int).bmod (2 ^ 64)

/-- `persist`.  The sum of offset and size is one of 64-bit numbers, and the
faults that are blocked are those of the segment `id`. -/
def persist (id off size : Nat) (env : CallEnv) (cm : ClientManager) :
    Except Fault (Except Errno Unit × ClientManager) :=
  match cm.regions.find? id with
  | none => .ok (.error .enoent, cm)
  | some region =>
      if region.size < off || region.size < (off + size) % 2 ^ 64 then .ok (.error .einval, cm)
      else do
        let (ret, w) ← cm.buffer.persistRange id region.addr off size env.protects env.persists
        match ret with
        | .error e => return (.error e, { cm with buffer := w })
        | .ok () =>
            return (.ok (), { cm with
              buffer := w
              blocks := (asSegid id, false) :: (asSegid id, true) :: cm.blocks })

/-! ## Page faults -/

/-- The region and the offset `handle_userfault` works on: those of the last
region that starts at or before the address. -/
def faultTarget (addr : UInt64) (cm : ClientManager) : Option (Nat × Nat × CmRegion) :=
  match cm.regionMap.floor? addr.toNat with
  | none => none
  | some (_, id) =>
      match cm.regions.find? id with
      | none => none
      | some region => some (id, (addr.toNat + 2 ^ 64 - region.addr) % 2 ^ 64, region)

/-- `handle_userfault`, for a message that was read. -/
def handleUserfault (addr : UInt64) (flags : PagefaultFlags) (env : Env) (cm : ClientManager) :
    Except Fault (Wake × ClientManager) :=
  match cm.faultTarget addr with
  | none => .ok (⟨addr.toNat, 0x1000⟩, cm)
  | some (id, off, region) => do
      let (wake, w) ← cm.buffer.serveFault id off flags env
      return (wake,
        { cm with
          buffer := w
          blocks := (region.segid, false) :: (region.segid, true) :: cm.blocks })

end ClientManager

/-! ## Clients -/

/-- `call_params`.  Of the properties only the persistency is looked at. -/
inductive CallParams where
  | alloc (id addr size : Nat) (persistent : Bool)
  | anchor (id : Nat)
  | unanchor (id : Nat)
  | getSize (id : Nat)
  | map (id addr size : Nat)
  | unmap (addr : Nat)
  | persist (addr off size : Nat)
  | advise (id : Nat)
  /-- A type the manager does not know. -/
  | unknown
deriving DecidableEq, Repr

/-- What `call_result` carries besides the error. -/
inductive CallResult where
  | none
  | segid (segid : Int)
  | size (size : Nat)
deriving DecidableEq, Repr

/-- `client`: its mappings, and whether its thread is serving calls. -/
structure Client where
  mappings : OrdMap Nat Nat := .empty
  running : Bool := true

/-- The client manager with its clients, by process id. -/
structure Damanager extends ClientManager where
  clients : OrdMap Int Client

namespace Damanager

def init (nrPagesRam nrPagesSwap : Nat) (files : OrdMap Nat PersFile) : Damanager where
  toClientManager := .init nrPagesRam nrPagesSwap files
  clients := .empty

/-- The number of nodes in all mapping tables. -/
def nodes (s : Damanager) : Nat := s.clients.sum fun _ c => c.mappings.size

/-- `m_mappings[addr] = id`. -/
def assign (pid : Int) (c : Client) (addr id : Nat) (s : Damanager) : Except Fault Damanager :=
  if c.mappings.contains addr || s.nodes + 1 < 2 ^ 64 then
    .ok { s with clients := s.clients.insert pid { c with mappings := c.mappings.insert addr id } }
  else .error .badAlloc

/-- What `handle_call_alloc` and `handle_call_map` do with the answer of the
manager. -/
def grant (pid : Int) (c : Client) (addr id : Nat)
    (reply : Except Errno ClientRegionInfo × ClientManager) (s : Damanager) :
    Except Fault (Except Errno CallResult × Damanager) :=
  match reply with
  | (.error e, cm) => .ok (.error e, { s with toClientManager := cm })
  | (.ok info, cm) => do
      let s ← { s with toClientManager := cm }.assign pid c addr id
      return (.ok (.segid info.segid), s)

/-- What the other handlers do with it. -/
def reply (result : Except Errno CallResult) (cm : ClientManager) (s : Damanager) :
    Except Errno CallResult × Damanager :=
  (result, { s with toClientManager := cm })

/-- `handle_call` of the client with the given process id. -/
def handleCall (pid : Int) (c : Client) (params : CallParams) (env : CallEnv) (s : Damanager) :
    Except Fault (Except Errno CallResult × Damanager) :=
  match params with
  | .alloc id addr size persistent => do
      let reply ← s.toClientManager.allocate id size persistent env
      s.grant pid c addr id reply
  | .anchor id =>
      let (ret, cm) := s.toClientManager.anchor id
      .ok (s.reply (ret.map fun _ => .none) cm)
  | .unanchor id => do
      let (ret, cm) ← s.toClientManager.unanchor id env
      return s.reply (ret.map fun _ => .none) cm
  | .getSize id =>
      let (ret, cm) := s.toClientManager.getSize id env
      .ok (s.reply (ret.map .size) cm)
  | .map id addr _ => do
      let reply ← s.toClientManager.map id env
      s.grant pid c addr id reply
  | .unmap addr =>
      match c.mappings.find? addr with
      | none => .ok (.error .enoent, s)
      | some id => do
          let s := { s with
            clients := s.clients.insert pid { c with mappings := c.mappings.erase addr } }
          let (ret, cm) ← s.toClientManager.unmap id env
          return s.reply (ret.map fun _ => .none) cm
  | .persist addr off size =>
      match c.mappings.find? addr with
      | none => .ok (.error .enoent, s)
      | some id => do
          let (ret, cm) ← s.toClientManager.persist id off size env
          return s.reply (ret.map fun _ => .none) cm
  | .advise _ => .ok (.error .enotsup, s)
  | .unknown => .ok (.error .enotsup, s)

/-- The clean-up loop at the end of `handle_calls`, over the mappings in the
order of their addresses. -/
def cleanUp (env : Nat → CallEnv) : List (Nat × Nat) → ClientManager → Except Fault ClientManager
  | [], cm => .ok cm
  | (addr, id) :: entries, cm => do
      let (_, cm) ← cm.unmap id (env addr)
      cleanUp env entries cm

/-! ## Steps -/

end Damanager

/-- What can happen to the manager. -/
inductive Action where
  /-- A process connects. -/
  | connect (pid : Int)
  /-- A request of a client is served. -/
  | call (pid : Int) (params : CallParams) (env : CallEnv)
  /-- The connection of a client ends. -/
  | disconnect (pid : Int) (env : Nat → CallEnv)
  /-- A page fault is served. -/
  | userfault (addr : UInt64) (flags : PagefaultFlags) (env : Env)
  /-- A client stores to its memory. -/
  | store (st : Store)

/-- The next state.  A process that connects again has to wait for the thread
of its old client, and only a client whose thread runs is served. -/
def Action.exec : Action → Damanager → Except Fault Damanager
  | .connect pid, s =>
      match s.clients.find? pid with
      | some ⟨_, true⟩ => .ok s
      | _ => .ok { s with clients := s.clients.insert pid {} }
  | .call pid params env, s =>
      match s.clients.find? pid with
      | some ⟨mappings, true⟩ => do
          let (_, s) ← s.handleCall pid ⟨mappings, true⟩ params env
          return s
      | _ => .ok s
  | .disconnect pid env, s =>
      match s.clients.find? pid with
      | some ⟨mappings, true⟩ => do
          let cm ← Damanager.cleanUp env mappings.entries s.toClientManager
          return { toClientManager := cm, clients := s.clients.insert pid ⟨.empty, false⟩ }
      | _ => .ok s
  | .userfault addr flags env, s => do
      let (_, cm) ← s.toClientManager.handleUserfault addr flags env
      return { s with toClientManager := cm }
  | .store st, s => .ok { s with buffer := s.buffer.clientStore st }

/-- The states the manager reaches from its start. -/
def Damanager.Reachable (nrPagesRam nrPagesSwap : Nat) (files : OrdMap Nat PersFile) :
    Damanager → Prop :=
  Runs Action.exec (fun _ _ => True) (.init nrPagesRam nrPagesSwap files)

end DASim
