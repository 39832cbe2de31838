import DASim.Library.Map
import DASim.Client.View
import DASim.Lib.Dialogue

/-!
# The calls of the library

Every call of the library is a dialogue with the manager.  Each request is
answered with an error or with a result, and the library turns the answers into a
return value and into `errno`.  A failure of `xpmem` or of the socket ends the
process, so the call does not return.

`damemory_get_size` passes the size through an `int`.  The size a client gets is
the one the region was allocated with if the size is less than 2 GiB.  A region of
4 GiB has size 0 for its clients.
-/

namespace DASim

/-! ## The library -/

/-- A program of a client process. -/
abbrev Program := Dialogue CallParams (Except Errno CallResult)

/-- What the kernel answers to the library itself during a call. -/
structure Kernel where
  /-- The address `mmap` returns, or its error. -/
  mmap : Except Errno Nat := .error .enomem
  munmapOk : Bool := true
  /-- The result of `xpmem_get`, if it does not fail. -/
  xpmemGet : Option Int := none
  xpmemAttachOk : Bool := true
  xpmemDetachOk : Bool := true
  xpmemReleaseOk : Bool := true
deriving DecidableEq

/-- The part of it that `attach_seg` looks at. -/
def Kernel.attach (k : Kernel) : LibEnv where
  xpmemGet := k.xpmemGet
  xpmemAttachOk := k.xpmemAttachOk

/-- What a call that returns an `int` leaves: its value, and the error code in
`errno`.  If there is none, `errno` is 0 or as it was. -/
structure Status where
  value : Int
  errno : Option Errno
deriving DecidableEq, Repr

/-- What a call that returns a handle leaves. -/
structure HandleStatus where
  handle : Handle
  errno : Option Errno
deriving DecidableEq, Repr

/-- What a call that returns a size leaves. -/
structure SizeStatus where
  value : Nat
  errno : Option Errno
deriving DecidableEq, Repr

/-- The error in an answer. -/
def errorOf : Except Errno CallResult → Option Errno
  | .error e => some e
  | .ok _ => none

/-- A `size_t` as an `int`. -/
def asInt (n : Nat) : Int :=
  if n % 2 ^ 32 < 2 ^ 31 then (n % 2 ^ 32 : Nat) else (n % 2 ^ 32 : Nat) - 2 ^ 32

/-- A signed number as a `size_t`. -/
def asSizeT (i : Int) : Nat := (i % 2 ^ 64).toNat

/-- `damemory::get_size`. -/
def getSize (id : Nat) : Program Status := do
  match ← .request (.getSize id) with
  | .error e => return ⟨0, some e⟩
  | .ok result => return ⟨asInt result.sizeField, none⟩

/-- `damemory_get_size`. -/
def damemoryGetSize (id : Nat) : Program SizeStatus := do
  let size ← getSize id
  return ⟨asSizeT size.value, size.errno⟩

/-- `attach_seg` at the end of a call. -/
def attached (addr size : Nat) (segid : Int) (k : Kernel) : Program HandleStatus :=
  match attachSeg addr size segid k.attach with
  | none => .stop
  | some handle => return ⟨handle, none⟩

/-- `damemory_alloc`.  A failure of `munmap` is only logged. -/
def damemoryAlloc (id size : Nat) (persistent : Bool) (k : Kernel) : Program HandleStatus :=
  if size = 0 ∨ size % 0x200000 ≠ 0 then return ⟨.invalid, some .einval⟩
  else
    match k.mmap with
    | .error e => return ⟨.invalid, some e⟩
    | .ok addr => do
        match ← .request (.alloc id addr size persistent) with
        | .error e => return ⟨.invalid, some e⟩
        | .ok result => attached addr size result.segidField k

/-- `damemory_map`. -/
def damemoryMap (id : Nat) (k : Kernel) : Program HandleStatus := do
  match ← .request (.getSize id) with
  | .error e => return ⟨.invalid, some e⟩
  | .ok result =>
      let size := result.sizeField
      match k.mmap with
      | .error e => return ⟨.invalid, some e⟩
      | .ok addr =>
          match ← .request (.map id addr size) with
          | .error e => if k.munmapOk then return ⟨.invalid, some e⟩ else .stop
          | .ok result => attached addr size result.segidField k

/-- The calls that send one request and return 0 if it was granted and -1 if
not. -/
def plainCall (params : CallParams) : Program Status := do
  match ← .request params with
  | .error e => return ⟨-1, some e⟩
  | .ok _ => return ⟨0, none⟩

/-- `damemory_anchor`. -/
def damemoryAnchor (id : Nat) : Program Status := plainCall (.anchor id)

/-- `damemory_unanchor`. -/
def damemoryUnanchor (id : Nat) : Program Status := plainCall (.unanchor id)

/-- `damemory_advise`. -/
def damemoryAdvise (id : Nat) : Program Status := plainCall (.advise id)

/-- `damemory_unmap`. -/
def damemoryUnmap (handle : Handle) (k : Kernel) : Program Status :=
  if handle.valid then do
    match ← .request (.unmap handle.addr) with
    | .error e => return ⟨-1, some e⟩
    | .ok _ => if k.xpmemDetachOk && k.xpmemReleaseOk then return ⟨0, none⟩ else .stop
  else return ⟨-1, some .einval⟩

/-- `damemory_persist`.  It returns 0 whatever the answer is. -/
def damemoryPersist (handle : Handle) (off size : Nat) : Program Status := do
  let result ← .request (.persist handle.addr off size)
  return ⟨0, errorOf result⟩

/-! ## The requests of each call -/

section Asks

variable {G : CallParams → Prop} {id size : Nat} {k : Kernel}

theorem attached_asks (addr size : Nat) (segid : Int) (k : Kernel) :
    (attached addr size segid k).Asks G := by
  unfold attached
  split
  · trivial
  · trivial

theorem damemoryAlloc_asks {persistent : Bool} (h : ∀ addr, G (.alloc id addr size persistent)) :
    (damemoryAlloc id size persistent k).Asks G := by
  unfold damemoryAlloc
  split
  next => trivial
  next =>
    split
    next => trivial
    next addr _ =>
      refine ⟨h addr, fun answer => ?_⟩
      cases answer with
      | error => trivial
      | ok => exact attached_asks ..

theorem damemoryMap_asks (hsize : G (.getSize id)) (hmap : ∀ addr size, G (.map id addr size)) :
    (damemoryMap id k).Asks G := by
  refine ⟨hsize, fun answer => ?_⟩
  cases answer with
  | error => trivial
  | ok result =>
      show Dialogue.Asks G (match k.mmap with
        | .error e => _
        | .ok addr => _)
      split
      next => trivial
      next addr _ =>
        refine ⟨hmap addr _, fun answer => ?_⟩
        cases answer with
        | error =>
            show Dialogue.Asks G (if k.munmapOk then _ else _)
            split
            · trivial
            · trivial
        | ok => exact attached_asks ..

theorem plainCall_asks {params : CallParams} (h : G params) : (plainCall params).Asks G := by
  refine ⟨h, fun answer => ?_⟩
  cases answer with
  | error => trivial
  | ok => trivial

theorem damemoryUnmap_asks {handle : Handle} (h : G (.unmap handle.addr)) :
    (damemoryUnmap handle k).Asks G := by
  unfold damemoryUnmap
  split
  next =>
    refine ⟨h, fun answer => ?_⟩
    cases answer with
    | error => trivial
    | ok =>
        show Dialogue.Asks G (if k.xpmemDetachOk && k.xpmemReleaseOk then _ else _)
        split
        · trivial
        · trivial
  next => trivial

end Asks

/-! ## Dialogues with the manager -/

namespace Damanager

/-- The manager answers a request of a process it is connected to. -/
def Answers (pid : Int) (params : CallParams) (s : Damanager) (answer : Except Errno CallResult)
    (t : Damanager) : Prop :=
  ∃ mappings env, s.clients.find? pid = some ⟨mappings, true⟩ ∧
    s.handleCall pid ⟨mappings, true⟩ params env = .ok (answer, t)

/-- A call of the library by a process, while the steps `guard` allows happen
before each of its requests. -/
def Talk {α : Type} (guard : Damanager → Action → Prop) (pid : Int) (p : Program α)
    (s : Damanager) (log : List (Exchange Damanager CallParams (Except Errno CallResult)))
    (o : Option α) (t : Damanager) : Prop :=
  Talks (Runs Action.exec guard) (Answers pid) p s log o t

end Damanager

section Attached

variable {σ : Type} {moves : σ → σ → Prop}
  {serve : CallParams → σ → Except Errno CallResult → σ → Prop} {s t : σ}
  {log : List (Exchange σ CallParams (Except Errno CallResult))}

/-- `attach_seg` sends no request, and the handle has the address that was
reserved. -/
theorem talks_attached {addr size : Nat} {segid : Int} {k : Kernel} {o : Option HandleStatus}
    (h : Talks moves serve (attached addr size segid k) s log o t) :
    log = [] ∧ t = s ∧ ∀ r, o = some r → r.handle.addr = addr := by
  unfold attached at h
  split at h
  next =>
    obtain ⟨hlog, rfl, ht⟩ := Talks.stop_iff.mp h
    exact ⟨hlog, ht, fun r hr => by cases hr⟩
  next handle hattach =>
    obtain ⟨hlog, rfl, ht⟩ := Talks.done_iff.mp h
    refine ⟨hlog, ht, fun r hr => ?_⟩
    cases hr
    rw [attachSeg] at hattach
    split at hattach
    next => cases hattach
    next =>
      split at hattach
      next =>
        cases hattach
        rfl
      next => cases hattach

/-- A call that fails returns an invalid handle. -/
theorem talks_invalid {e : Option Errno} {r : HandleStatus}
    (h : Talks moves serve (.done ⟨.invalid, e⟩) s log (some r) t) : ¬r.handle.valid = true := by
  obtain ⟨-, hr, -⟩ := Talks.done_iff.mp h
  cases hr
  exact (by decide : ¬Handle.invalid.valid = true)

end Attached

/-! ## The size of a region -/

section Size

variable {nrPagesRam nrPagesSwap id n : Nat} {files : OrdMap Nat PersFile}

/-- The way of a size through `int` and back. -/
theorem asSizeT_asInt_eq (h : n < 2 ^ 64) :
    asSizeT (asInt n) = n ↔ n < 2 ^ 31 ∨ 2 ^ 64 - 2 ^ 31 ≤ n := by
  rw [asSizeT, asInt]
  split
  · omega
  · omega

theorem asSizeT_asInt_eq_zero : asSizeT (asInt n) = 0 ↔ n % 2 ^ 32 = 0 := by
  rw [asSizeT, asInt]
  split
  · omega
  · omega

namespace Damanager

/-- There is a region of the given size. -/
structure HasRegion (nrPagesRam nrPagesSwap : Nat) (files : OrdMap Nat PersFile) (id n : Nat)
    (s : Damanager) : Prop where
  intact : s.Intact nrPagesRam nrPagesSwap files
  found : s.buffer.regions.contains id = true
  size : SizeIs n (s.buffer.shape id)

/-- The step does not take the region away. -/
def Spares (id : Nat) (s : Damanager) (action : Action) : Prop :=
  ∀ t, action.exec s = .ok t → t.buffer.regions.contains id = true

variable {s t : Damanager}

theorem not_resizes (h : s.buffer.regions.contains id = true) (params : CallParams)
    (env : CallEnv) : s.resizes id n env params = false := by
  cases params <;> simp [ClientManager.resizes, ClientManager.creates?, h]

theorem HasRegion.exec {action : Action} (h : s.HasRegion nrPagesRam nrPagesSwap files id n)
    (hspares : s.Spares id action) (hexec : action.exec s = .ok t) :
    t.HasRegion nrPagesRam nrPagesSwap files id n where
  intact := exec_intact h.intact hexec
  found := hspares t hexec
  size := exec_sizeIs h.intact h.size (fun _ _ _ _ => not_resizes h.found _ _) hexec

theorem HasRegion.runs (h : s.HasRegion nrPagesRam nrPagesSwap files id n)
    (hrun : Runs Action.exec (Spares id) s t) : t.HasRegion nrPagesRam nrPagesSwap files id n :=
  hrun.invariant h fun _ _ _ h hg he => h.exec hg he

/-- A request for the size of a region that exists is granted. -/
theorem HasRegion.getSize (h : s.HasRegion nrPagesRam nrPagesSwap files id n) (pid : Int)
    (c : Client) (env : CallEnv) :
    ∃ t, s.handleCall pid c (.getSize id) env = .ok (.ok (.size n), t) := by
  obtain ⟨R, hR⟩ := OrdMap.contains_iff.mp h.found
  have hn : R.size = n := h.size _ (Book.shape_of_find? hR)
  obtain ⟨ret, cm, hget⟩ : ∃ ret cm, s.toClientManager.getSize id env = (ret, cm) := ⟨_, _, rfl⟩
  have hret : ret = .ok n := by
    rcases ClientManager.getSize_cases hget with ⟨r, hr, rfl, -⟩ | ⟨-, res, w, hres, rfl, -⟩
    · obtain ⟨R', hR', -, hsize⟩ := h.intact.agrees.find? hr
      cases hR.symm.trans hR'
      rw [← hsize, hn]
    · rw [Machine.getAnchoredRegion, hR] at hres
      cases hres
      exact congrArg Except.ok hn
  rw [handleCall, hget, hret]
  exact ⟨_, rfl⟩

end Damanager

/-- An allocation that is granted makes a region of the size asked for. -/
theorem ClientManager.allocate_shape_size {cm cm' : ClientManager} {size : Nat} {persistent : Bool}
    {env : CallEnv} {info : ClientRegionInfo}
    (h : cm.allocate id size persistent env = .ok (.ok info, cm')) :
    ∃ shape, cm'.buffer.shape id = some shape ∧ shape.size = size := by
  rcases allocate_cases h with ⟨-, hres, -⟩ | ⟨hid, ⟨res₁, w₁, hres, -⟩ |
    ⟨e₁, w₁, res₂, w₂, -, halloc, ⟨e, hres, -⟩ | ⟨addr, rfl, hadd⟩⟩⟩
  · cases hres
  · cases hres
  · cases hres
  · rcases addRegion_cases (by exact hid) hadd with ⟨e, w, ⟨-, hres⟩, -⟩ | ⟨segid, -, rfl⟩
    · cases hres
    · rcases Machine.allocate_shape halloc with ⟨⟨e, hres⟩, -⟩ | ⟨shape, -, hsize, -, hshape⟩
      · cases hres
      · refine ⟨shape, ?_, hsize⟩
        show w₂.shape id = some shape
        rw [hshape, Function.update_self]

/-- A call of `damemory_alloc` that returns a valid handle sent one request, and
the manager granted it. -/
theorem damemoryAlloc_granted {guard : Damanager → Action → Prop} {pid : Int} {size : Nat}
    {persistent : Bool} {k : Kernel} {s t : Damanager} {r : HandleStatus}
    {log : List (Exchange Damanager CallParams (Except Errno CallResult))}
    (h : Damanager.Talk guard pid (damemoryAlloc id size persistent k) s log (some r) t)
    (hvalid : r.handle.valid = true) : ∃ s₁ result,
      Runs Action.exec guard s s₁ ∧
        s₁.Answers pid (.alloc id r.handle.addr size persistent) (.ok result) t := by
  simp only [damemoryAlloc, Dialogue.request_bind] at h
  split at h
  next => exact absurd hvalid (talks_invalid h)
  next =>
    split at h
    next => exact absurd hvalid (talks_invalid h)
    next addr _ =>
      obtain ⟨s₁, answer, s₂, rest, hrun, hans, hrest, -⟩ := Talks.ask_iff.mp h
      cases answer with
      | error e => exact absurd hvalid (talks_invalid hrest)
      | ok result =>
          obtain ⟨-, rfl, haddr⟩ := talks_attached hrest
          rw [haddr r rfl]
          exact ⟨s₁, result, hrun, hans⟩

/-- A call of `damemory_map` that returns a valid handle ended with a request
that the manager granted. -/
theorem damemoryMap_granted {guard : Damanager → Action → Prop} {pid : Int} {k : Kernel}
    {s t : Damanager} {r : HandleStatus}
    {log : List (Exchange Damanager CallParams (Except Errno CallResult))}
    (h : Damanager.Talk guard pid (damemoryMap id k) s log (some r) t)
    (hvalid : r.handle.valid = true) : ∃ s₁ size result,
      Damanager.Answers pid (.map id r.handle.addr size) s₁ (.ok result) t := by
  simp only [damemoryMap, Dialogue.request_bind] at h
  obtain ⟨s₁, answer, s₂, rest, -, -, hrest, -⟩ := Talks.ask_iff.mp h
  cases answer with
  | error e => exact absurd hvalid (talks_invalid hrest)
  | ok result =>
      dsimp only at hrest
      split at hrest
      next => exact absurd hvalid (talks_invalid hrest)
      next addr _ =>
        obtain ⟨s₃, answer, s₄, rest', -, hans, hlast, -⟩ := Talks.ask_iff.mp hrest
        cases answer with
        | error e =>
            dsimp only at hlast
            split at hlast
            next => exact absurd hvalid (talks_invalid hlast)
            next => simp at hlast
        | ok result' =>
            obtain ⟨-, rfl, haddr⟩ := talks_attached hlast
            rw [haddr r rfl]
            exact ⟨s₃, _, result', hans⟩

/-- The region is there once the allocation is granted. -/
theorem Damanager.Answers.hasRegion {pid : Int} {addr size : Nat} {persistent : Bool}
    {s t : Damanager} {result : CallResult} (hs : s.Intact nrPagesRam nrPagesSwap files)
    (h : s.Answers pid (.alloc id addr size persistent) (.ok result) t) :
    t.HasRegion nrPagesRam nrPagesSwap files id size := by
  obtain ⟨mappings, env, hc, hcall⟩ := h
  have hintact := handleCall_intact hs hcall
  obtain ⟨⟨reply, cm⟩, halloc, hgrant⟩ := ok_of_bind hcall
  obtain ⟨hcm, ⟨e, -, hres, -⟩ | ⟨info, rfl, -⟩⟩ := grant_cases hgrant
  · cases hres
  · obtain ⟨shape, hshape, hsize⟩ := ClientManager.allocate_shape_size halloc
    rw [← hcm] at hshape
    obtain ⟨R, hR, -⟩ := Book.shape_eq_some.mp hshape
    refine ⟨hintact, OrdMap.contains_iff.mpr ⟨R, hR⟩, fun shape' hshape' => ?_⟩
    cases hshape.symm.trans hshape'
    exact hsize

/-- After a successful `damemory_alloc`, `damemory_get_size` returns to any
client, as long as the region is not taken away.  The manager reports the size of
the allocation.  The client gets this size if and only if the way through `int`
does not change it, and it gets 0 if the lower 32 bits of the size are 0. -/
theorem get_size_round_trip {pid : Int} (pid' : Int) {size : Nat} {persistent : Bool} {k : Kernel}
    {s s₁ : Damanager} {h : HandleStatus}
    {log : List (Exchange Damanager CallParams (Except Errno CallResult))}
    (hs : Damanager.Reachable nrPagesRam nrPagesSwap files s) (hsize : size < 2 ^ 64)
    (halloc : Damanager.Talk (fun _ _ => True) pid (damemoryAlloc id size persistent k) s log
      (some h) s₁)
    (hvalid : h.handle.valid = true) :
    ((∃ mappings, s₁.clients.find? pid' = some ⟨mappings, true⟩) → ∃ log' r s₂,
      Damanager.Talk (Damanager.Spares id) pid' (damemoryGetSize id) s₁ log' (some r) s₂) ∧
    ∀ log' r s₂,
      Damanager.Talk (Damanager.Spares id) pid' (damemoryGetSize id) s₁ log' (some r) s₂ →
        (∀ x ∈ log', x.answer = .ok (.size size)) ∧ r.errno = none ∧
          (r.value = size ↔ size < 2 ^ 31 ∨ 2 ^ 64 - 2 ^ 31 ≤ size) ∧
          (r.value = 0 ↔ size % 2 ^ 32 = 0) := by
  obtain ⟨s₀, result, hrun, hans⟩ := damemoryAlloc_granted halloc hvalid
  have hregion := hans.hasRegion (Damanager.Reachable.intact (hs.trans hrun))
  refine ⟨fun ⟨mappings, hc⟩ => ?_, fun log' r s₂ hget => ?_⟩
  · obtain ⟨t, hcall⟩ := hregion.getSize pid' ⟨mappings, true⟩ {}
    exact ⟨_, _, t, .ask .refl ⟨mappings, {}, hc, hcall⟩ .done⟩
  · obtain ⟨t₁, answer, t₂, rest, hrun', ⟨mappings, env, hc, hcall⟩, hrest, rfl⟩ :=
      Talks.ask_iff.mp hget
    obtain ⟨t, hcall'⟩ := (hregion.runs hrun').getSize pid' ⟨mappings, true⟩ env
    cases hcall.symm.trans hcall'
    obtain ⟨rfl, hr, -⟩ := Talks.done_iff.mp hrest
    cases hr
    exact ⟨by simp, rfl, asSizeT_asInt_eq hsize, asSizeT_asInt_eq_zero⟩

end Size

/-- A process that is the first to connect. -/
def connected : Damanager := { Damanager.init 2 1 .empty with clients := .insert .empty 7 {} }

theorem connected_reachable : Damanager.Reachable 2 1 .empty connected :=
  Runs.single trivial (show (Action.connect 7).exec (.init 2 1 .empty) = .ok connected from rfl)

/-- What the manager and the process find when it allocates a region. -/
def allocEnv : CallEnv := { create := { reserve := some 0x40000000 } }

def allocKernel : Kernel := { mmap := .ok 0x1000, xpmemGet := some 3 }

/-- The first process allocates a region. -/
theorem connected_alloc {n : Nat} (hn : n ≠ 0 ∧ n % 0x200000 = 0)
    (hgrant : (connected.handleCall 7 {} (.alloc 1 0x1000 n true) allocEnv).toOption.any
      (fun r => r.1 = .ok (.segid 1) && (r.2.clients.find? 7).any (·.running)) = true) :
    ∃ log s₁ mappings, Damanager.Talk (fun _ _ => True) 7 (damemoryAlloc 1 n true allocKernel)
        connected log (some ⟨⟨0x1000, n, 1, 3⟩, none⟩) s₁ ∧
      s₁.clients.find? 7 = some ⟨mappings, true⟩ ∧ s₁.HasRegion 2 1 .empty 1 n := by
  simp only [Option.any_eq_true, Bool.and_eq_true, decide_eq_true_eq] at hgrant
  obtain ⟨⟨res, s₁⟩, hcall, rfl, ⟨mappings, running⟩, hc, rfl⟩ := hgrant
  have hans : connected.Answers 7 (.alloc 1 0x1000 n true) (.ok (.segid 1)) s₁ :=
    ⟨.empty, allocEnv, rfl, eq_ok_of_toOption hcall⟩
  have htalk : Damanager.Talk (fun _ _ => True) 7 (damemoryAlloc 1 n true allocKernel) connected
      [⟨connected, .alloc 1 0x1000 n true, .ok (.segid 1)⟩]
      (some ⟨⟨0x1000, n, 1, 3⟩, none⟩) s₁ := by
    rw [damemoryAlloc, if_neg (by omega)]
    exact .ask .refl hans .done
  exact ⟨_, s₁, mappings, htalk, hc,
    hans.hasRegion (Damanager.Reachable.intact connected_reachable)⟩

theorem get_size_round_trip_page : ∃ log s₁ h log' r s₂,
    Damanager.Talk (fun _ _ => True) 7 (damemoryAlloc 1 pageSize true allocKernel) connected log
      (some h) s₁ ∧ h.handle.valid = true ∧
    Damanager.Talk (Damanager.Spares 1) 7 (damemoryGetSize 1) s₁ log' (some r) s₂ ∧
      r.value = pageSize := by
  obtain ⟨log, s₁, mappings, halloc, hc, -⟩ := connected_alloc (n := pageSize) (by decide)
    (by decide +kernel)
  obtain ⟨hreturns, hvalues⟩ := get_size_round_trip 7 connected_reachable (by decide)
    halloc (by decide)
  obtain ⟨log', r, s₂, hget⟩ := hreturns ⟨mappings, hc⟩
  exact ⟨log, s₁, _, log', r, s₂, halloc, by decide, hget,
    (hvalues log' r s₂ hget).2.2.1.mpr (by decide)⟩

/-- A region of 4 GiB.  Its size is reported as 0, and no request failed. -/
theorem large_region_size_zero : ∃ log s₁ h log' s₂,
    Damanager.Reachable 2 1 .empty connected ∧
    Damanager.Talk (fun _ _ => True) 7 (damemoryAlloc 1 (2 ^ 32) true allocKernel) connected log
      (some h) s₁ ∧ h.handle.valid = true ∧
    Damanager.Talk (Damanager.Spares 1) 7 (damemoryGetSize 1) s₁ log' (some ⟨0, none⟩) s₂ ∧
      ∀ x ∈ log', x.answer = .ok (.size (2 ^ 32)) := by
  obtain ⟨log, s₁, mappings, halloc, hc, hregion⟩ := connected_alloc (n := 2 ^ 32) (by decide)
    (by decide +kernel)
  obtain ⟨s₂, hcall⟩ := hregion.getSize 7 ⟨mappings, true⟩ {}
  exact ⟨log, s₁, _, _, s₂, connected_reachable, halloc, by decide,
    .ask .refl ⟨mappings, {}, hc, hcall⟩ .done, by simp⟩

end DASim
