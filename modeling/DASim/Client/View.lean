import DASim.Buffer.Record
import DASim.Client.Agreement

/-!
# What a request sees

A request is about one region.  Its reply, and what it does to the tables and
the files, depends on a few things only: the record of the region in the buffer
manager, the entry of the client manager without the address, and which calls to
the outside fail.  The first two are the view of the region.

The requests are defined again on views, and each request of the client manager
is shown to do just that to the view of its region.  The views of all other
regions stay as they are, but for the number of pages that are left.  Page
faults and stores change no view.
-/

namespace DASim

/-- `cm_region`, without the address. -/
structure Share where
  size : Nat
  segid : Int
  mapcount : Nat
deriving DecidableEq, Repr

/-- The view of a region. -/
@[ext] structure View extends Record where
  share : Option Share
deriving DecidableEq, Repr

/-- Which calls to the outside fail while a request is served. -/
structure Outcomes where
  /-- A region file can be opened and looked at. -/
  opens : Bool
  /-- There are addresses for a region that is loaded. -/
  loads : Bool
  /-- The error of `open` for a new file, if it fails. -/
  openErr : Option Errno
  /-- `ftruncate` succeeds. -/
  sized : Bool
  /-- There are addresses for a new region. -/
  places : Bool
  make : Except Errno Int
  remove : Option Errno
deriving DecidableEq

namespace View

/-! ## Requests on a view -/

/-- `add_region`. -/
def addRegion (size : Nat) (o : Outcomes) (v : View) : Except Errno ClientRegionInfo × View :=
  match o.make with
  | .error e => (.error e, ⟨v.toRecord.free, v.share⟩)
  | .ok segid => (.ok ⟨segid, size⟩, ⟨v.toRecord, some ⟨size, segid, 1⟩⟩)

/-- `allocate`. -/
def allocate (size : Nat) (persistent : Bool) (o : Outcomes) (v : View) :
    Except Errno ClientRegionInfo × View :=
  if v.share.isSome then (.error .eexist, v)
  else
    match v.toRecord.load o.opens o.loads with
    | (.ok _, r) => (.error .eexist, ⟨r, v.share⟩)
    | (.error _, r) =>
        match r.allocate size persistent o.openErr o.sized o.places with
        | (.error e, r) => (.error e, ⟨r, v.share⟩)
        | (.ok _, r) => addRegion size o ⟨r, v.share⟩

/-- `anchor`. -/
def anchor (v : View) : Except Errno Unit × View :=
  (v.toRecord.anchor.1, ⟨v.toRecord.anchor.2, v.share⟩)

/-- `unanchor`. -/
def unanchor (v : View) : Except Errno Unit × View :=
  match v.toRecord.unanchor with
  | (.error e, r) => (.error e, ⟨r, v.share⟩)
  | (.ok (), r) => (.ok (), ⟨if v.share.isSome then r else r.free, v.share⟩)

/-- `get_size`. -/
def getSize (o : Outcomes) (v : View) : Except Errno Nat × View :=
  match v.share with
  | some share => (.ok share.size, v)
  | none =>
      ((v.toRecord.load o.opens o.loads).1,
        ⟨(v.toRecord.load o.opens o.loads).2, v.share⟩)

/-- `map`. -/
def map (o : Outcomes) (v : View) : Except Errno ClientRegionInfo × View :=
  match v.share with
  | some share =>
      (.ok ⟨share.segid, share.size⟩,
        ⟨v.toRecord, some { share with mapcount := (share.mapcount + 1) % 2 ^ 64 }⟩)
  | none =>
      match v.toRecord.load o.opens o.loads with
      | (.error e, r) => (.error e, ⟨r, v.share⟩)
      | (.ok size, r) => addRegion size o ⟨r, v.share⟩

/-- `unmap`. -/
def unmap (remove : Option Errno) (v : View) : Except Errno Unit × View :=
  match v.share with
  | none => (.error .enoent, v)
  | some share =>
      let mapcount := (share.mapcount + 2 ^ 64 - 1) % 2 ^ 64
      let kept : View := ⟨v.toRecord, some { share with mapcount := mapcount }⟩
      if 0 < mapcount then (.ok (), kept)
      else
        match remove with
        | some e => (.error e, kept)
        | none => (.ok (), ⟨v.toRecord.free, none⟩)

/-- `persist`. -/
def persist (off size : Nat) (v : View) : Except Errno Unit :=
  match v.share with
  | none => .error .enoent
  | some share =>
      if share.size < off || share.size < (off + size) % 2 ^ 64 then .error .einval
      else v.toRecord.canPersist off size

end View

/-! ## The views of a client manager -/

/-- An entry without its address. -/
def CmRegion.share (r : CmRegion) : Share := ⟨r.size, r.segid, r.mapcount⟩

/-- The outcomes an environment stands for, given those of the reservations. -/
def CallEnv.outcomes (env : CallEnv) (loads places : Bool) : Outcomes where
  opens := env.load.openErr.isNone && env.load.fstatOk
  loads := loads
  openErr := env.create.openErr
  sized := env.create.ftruncateOk
  places := places
  make := env.xpmemMake
  remove := env.xpmemRemove

namespace Machine

variable {w w' : Machine} {id off size : Nat} {env env' : Env}

/-- The reply of `persist` is that of `can_persist`. -/
theorem persistRange_record {addr : Nat} {res : Except Errno Unit}
    (h : w.persistRange id addr off size env env' = .ok (res, w')) :
    (w.record id).canPersist off size = res ∧ w'.record = w.record := by
  rw [canPersist_record]
  unfold persistRange at h
  split at h
  next e hcan =>
    cases h
    exact ⟨hcan, rfl⟩
  next hcan =>
    obtain ⟨w₁, hpersist, h⟩ := ok_of_bind h
    obtain ⟨r, -, hpersist⟩ := ok_of_bind hpersist
    cases h
    refine ⟨hcan, (persistPtes_record hpersist).trans ?_⟩
    exact protectPages_invariant (P := fun v => v.record = w.record)
      (fun hv => (interfere_record _ _).trans hv) rfl

theorem serveFault_record {nrPagesRam nrPagesSwap : Nat} {flags : PagefaultFlags} {wake : Wake}
    (ho : w.Owned nrPagesRam nrPagesSwap) (hl : w.Laid)
    (h : w.serveFault id off flags env = .ok (wake, w')) : w'.record = w.record := by
  refine serveFault_invariant (P := fun v => v.record = w.record) (fun _ _ hv => hv)
    (fun _ hunfix => unfix_record ho hl hunfix) (fun hmark => ?_) rfl h
  exact markDirty_invariant (P := fun v => v.record = w.record) rfl (fun _ => rfl) hmark

end Machine

namespace ClientManager

variable {cm cm' cm'' : ClientManager} {w w' : Machine} {id id' addr size : Nat} {env : CallEnv}

/-- The view of a region. -/
def view (cm : ClientManager) (id : Nat) : View where
  toRecord := cm.buffer.record id
  share := (cm.regions.find? id).map CmRegion.share

/-- The reservation for a region that is loaded succeeds, if one is made. -/
def loads (id : Nat) (env : CallEnv) (cm : ClientManager) : Bool :=
  cm.regions.contains id || cm.buffer.reserves env.load (cm.buffer.loadSize? id env.load)

/-- The reservation for a new region succeeds, if one is made. -/
def places (id size : Nat) (persistent : Bool) (env : CallEnv) (cm : ClientManager) : Bool :=
  cm.regions.contains id ||
  match cm.buffer.getAnchoredRegion id env.load with
  | (.ok _, _) => true
  | (.error _, w) => w.reserves env.create (w.allocateSize? id size persistent env.create)

/-- The views are the same, but for that of one id and the number of pages. -/
def SameBut (id : Nat) (cm cm' : ClientManager) : Prop :=
  ∀ id', id' ≠ id → cm'.view id' = { cm.view id' with available := cm'.buffer.nrAvailablePages }

theorem SameBut.refl (id : Nat) (cm : ClientManager) : cm.SameBut id cm := fun _ _ => rfl

theorem SameBut.trans (h : cm.SameBut id cm') (h' : cm'.SameBut id cm'') : cm.SameBut id cm'' := by
  intro id' hne
  rw [h' id' hne, h id' hne]

theorem SameBut.of_buffer (h : cm.buffer.SameBut id w)
    (hregions : ∀ id', id' ≠ id → cm'.regions.find? id' = cm.regions.find? id')
    (hbuffer : cm'.buffer = w) : cm.SameBut id cm' := by
  intro id' hne
  rw [view, hregions id' hne, hbuffer, h id' hne]
  rfl

theorem SameBut.of_view (h : cm'.view = cm.view) : cm.SameBut id cm' := by
  intro id' _
  rw [← h]
  rfl

theorem view_share_of_find? {r : CmRegion} (h : cm.regions.find? id = some r) :
    (cm.view id).share = some r.share := by
  rw [view, h, Option.map_some]

theorem view_share_eq_none : (cm.view id).share = none ↔ cm.regions.find? id = none :=
  Option.map_eq_none_iff

theorem view_of_none (h : cm.regions.find? id = none) :
    cm.view id = ⟨cm.buffer.record id, none⟩ := by
  rw [view, h, Option.map_none]

theorem view_buffer_of_none (h : cm.regions.find? id = none) (w : Machine) :
    { cm with buffer := w }.view id = ⟨w.record id, none⟩ := view_of_none h

theorem view_insert (cm : ClientManager) (id : Nat) (r : CmRegion) (regionMap : OrdMap Nat Nat) :
    { cm with regions := cm.regions.insert id r, regionMap := regionMap }.view id =
      ⟨cm.buffer.record id, some r.share⟩ := by
  rw [view, OrdMap.find?_insert_self]
  rfl

theorem sameBut_buffer (h : cm.buffer.SameBut id w) : cm.SameBut id { cm with buffer := w } :=
  .of_buffer h (fun _ _ => rfl) rfl

theorem sameBut_insert (cm : ClientManager) (id : Nat) (r : CmRegion)
    (regionMap : OrdMap Nat Nat) :
    cm.SameBut id { cm with regions := cm.regions.insert id r, regionMap := regionMap } :=
  .of_buffer (.refl id _) (fun _ hne => OrdMap.find?_insert_ne _ _ hne) rfl

/-! ## Requests and views -/

theorem addRegion_view {res : Except Errno ClientRegionInfo} (hid : cm.regions.find? id = none)
    (h : cm.addRegion id addr size env = .ok (res, cm')) (l p : Bool) :
    View.addRegion size (env.outcomes l p) ⟨cm.buffer.record id, none⟩ = (res, cm'.view id) ∧
      cm.SameBut id cm' := by
  rcases addRegion_cases hid h with ⟨e, w, ⟨hmake, rfl⟩, hfree, rfl⟩ | ⟨segid, ⟨hmake, rfl⟩, rfl⟩
  · refine ⟨?_, sameBut_buffer (Machine.free_sameBut hfree)⟩
    rw [view_buffer_of_none hid, Machine.free_record hfree]
    simp only [View.addRegion, CallEnv.outcomes, hmake]
  · refine ⟨?_, sameBut_insert cm id _ _⟩
    rw [view_insert]
    simp only [View.addRegion, CallEnv.outcomes, hmake]
    rfl

/-- What loading a region does to its record. -/
theorem load_record {res : Except Errno (Nat × Nat)} (hid : cm.regions.find? id = none)
    (h : cm.buffer.getAnchoredRegion id env.load = (res, w)) :
    (cm.buffer.record id).load (env.load.openErr.isNone && env.load.fstatOk) (cm.loads id env) =
      (res.map Prod.snd, w.record id) := by
  rw [loads, OrdMap.contains_eq_false.mpr hid, Bool.false_or, Machine.getAnchoredRegion_record h]

theorem allocate_view {persistent : Bool} {res : Except Errno ClientRegionInfo}
    (h : cm.allocate id size persistent env = .ok (res, cm')) :
    (cm.view id).allocate size persistent
        (env.outcomes (cm.loads id env) (cm.places id size persistent env)) = (res, cm'.view id) ∧
      cm.SameBut id cm' := by
  rcases allocate_cases h with ⟨⟨r, hr⟩, rfl, rfl⟩ | ⟨hid, ⟨res₁, w₁, rfl, hget, rfl⟩ |
    ⟨e₁, w₁, res₂, w₂, hget, halloc, hlast⟩⟩
  · rw [View.allocate, view_share_of_find? hr]
    exact ⟨rfl, .refl id _⟩
  · rw [view_of_none hid, view_buffer_of_none hid]
    simp only [View.allocate, CallEnv.outcomes, load_record hid hget]
    exact ⟨rfl, sameBut_buffer (Machine.getAnchoredRegion_sameBut hget)⟩
  · have hplaces : cm.places id size persistent env =
        w₁.reserves env.create (w₁.allocateSize? id size persistent env.create) := by
      rw [places, hget, OrdMap.contains_eq_false.mpr hid, Bool.false_or]
    have hsame : cm.SameBut id { cm with buffer := w₂ } := sameBut_buffer
      ((Machine.getAnchoredRegion_sameBut hget).trans (Machine.allocate_sameBut halloc))
    have hrecord := Machine.allocate_record halloc
    rw [← hplaces] at hrecord
    rw [view_of_none hid]
    rcases hlast with ⟨e, rfl, rfl, rfl⟩ | ⟨addr, rfl, hadd⟩
    · rw [view_buffer_of_none hid]
      simp only [View.allocate, CallEnv.outcomes, load_record hid hget, Except.map, hrecord]
      exact ⟨rfl, hsame⟩
    · obtain ⟨hview, hsame'⟩ := addRegion_view (by exact hid) hadd (cm.loads id env)
        (cm.places id size persistent env)
      refine ⟨?_, hsame.trans hsame'⟩
      simp only [View.allocate, CallEnv.outcomes, load_record hid hget, Except.map, hrecord]
      exact hview

theorem anchor_view {res : Except Errno Unit} (h : cm.anchor id = (res, cm')) :
    (cm.view id).anchor = (res, cm'.view id) ∧ cm.SameBut id cm' := by
  cases h
  obtain ⟨hrecord, hsame⟩ := Machine.anchor_record (Prod.eta (cm.buffer.anchor id)).symm
  refine ⟨?_, sameBut_buffer hsame⟩
  show ((cm.buffer.record id).anchor.1, View.mk (cm.buffer.record id).anchor.2 _) = _
  rw [hrecord]
  rfl

theorem unanchor_view {res : Except Errno Unit} (h : cm.unanchor id env = .ok (res, cm')) :
    (cm.view id).unanchor = (res, cm'.view id) ∧ cm.SameBut id cm' := by
  obtain ⟨res₁, w₁, hun, rfl, hcase⟩ := unanchor_cases h
  obtain ⟨hrecord, hsame⟩ := Machine.unanchor_record hun
  have hrecord : (cm.view id).toRecord.unanchor = (res, w₁.record id) := hrecord
  rcases hcase with ⟨rfl, ⟨e, rfl⟩ | ⟨rfl, r, hr⟩⟩ | ⟨rfl, hid, w₂, hfree, rfl⟩
  · refine ⟨?_, sameBut_buffer hsame⟩
    simp only [View.unanchor, hrecord]
    rfl
  · refine ⟨?_, sameBut_buffer hsame⟩
    simp only [View.unanchor, hrecord, view_share_of_find? hr, Option.isSome_some, if_true]
    rw [view, hr, Option.map_some]
  · refine ⟨?_, sameBut_buffer (hsame.trans (Machine.free_sameBut hfree))⟩
    have hafter := view_buffer_of_none hid w₂
    rw [Machine.free_record hfree] at hafter
    rw [hafter]
    simp only [View.unanchor, hrecord, view_share_eq_none.mpr hid]
    rfl

theorem getSize_view {res : Except Errno Nat} (h : cm.getSize id env = (res, cm')) (p : Bool) :
    (cm.view id).getSize (env.outcomes (cm.loads id env) p) = (res, cm'.view id) ∧
      cm.SameBut id cm' := by
  rcases getSize_cases h with ⟨r, hr, rfl, rfl⟩ | ⟨hid, res₁, w₁, hget, rfl, rfl⟩
  · refine ⟨?_, .refl id _⟩
    rw [View.getSize, view_share_of_find? hr]
    rfl
  · refine ⟨?_, sameBut_buffer (Machine.getAnchoredRegion_sameBut hget)⟩
    rw [view_of_none hid, view_buffer_of_none hid]
    simp only [View.getSize, CallEnv.outcomes, load_record hid hget]

theorem map_view {res : Except Errno ClientRegionInfo} (h : cm.map id env = .ok (res, cm'))
    (p : Bool) :
    (cm.view id).map (env.outcomes (cm.loads id env) p) = (res, cm'.view id) ∧
      cm.SameBut id cm' := by
  rcases map_cases h with ⟨r, hr, rfl, rfl⟩ | ⟨hid, res₁, w₁, hget, hlast⟩
  · refine ⟨?_, sameBut_insert cm id _ _⟩
    rw [view_insert, View.map, view_share_of_find? hr]
    rfl
  · have hsame : cm.SameBut id { cm with buffer := w₁ } :=
      sameBut_buffer (Machine.getAnchoredRegion_sameBut hget)
    rw [view_of_none hid]
    rcases hlast with ⟨e, rfl, rfl, rfl⟩ | ⟨addr, size, rfl, hadd⟩
    · refine ⟨?_, hsame⟩
      rw [view_buffer_of_none hid]
      simp only [View.map, CallEnv.outcomes, load_record hid hget, Except.map]
    · obtain ⟨hview, hsame'⟩ := addRegion_view (by exact hid) hadd (cm.loads id env) p
      refine ⟨?_, hsame.trans hsame'⟩
      simp only [View.map, CallEnv.outcomes, load_record hid hget, Except.map]
      exact hview

theorem unmap_view {res : Except Errno Unit} (h : cm.unmap id env = .ok (res, cm')) :
    (cm.view id).unmap env.xpmemRemove = (res, cm'.view id) ∧ cm.SameBut id cm' := by
  rcases unmap_cases h with ⟨hid, rfl, rfl⟩ | ⟨r, n, hr, hn, ⟨hres, rfl⟩ |
    ⟨hzero, hremove, rfl, w, hfree, rfl⟩⟩
  · refine ⟨?_, .refl id _⟩
    rw [View.unmap, view_share_eq_none.mpr hid]
  · refine ⟨?_, sameBut_insert cm id _ _⟩
    have hshare : r.share.mapcount = r.mapcount := rfl
    rw [view_insert]
    simp only [View.unmap, view_share_of_find? hr, hshare, ← hn]
    rcases hres with ⟨hpos, rfl⟩ | ⟨hzero, e, hremove, rfl⟩
    · rw [if_pos hpos]
      rfl
    · rw [if_neg (by omega), hremove]
      rfl
  · refine ⟨?_, .of_buffer (Machine.free_sameBut hfree) (fun _ hne => ?_) rfl⟩
    · have hshare : r.share.mapcount = r.mapcount := rfl
      have hafter : ({ cm with
          buffer := w
          regions := cm.regions.erase id
          regionMap := cm.regionMap.erase r.addr } : ClientManager).view id =
            ⟨w.record id, none⟩ := view_of_none (OrdMap.find?_erase_self _ _)
      rw [hafter, Machine.free_record hfree]
      simp only [View.unmap, view_share_of_find? hr, hshare, ← hn, hzero, hremove]
      rfl
    · exact OrdMap.find?_erase_ne _ hne

/-- Persisting changes no view. -/
theorem persist_view {off : Nat} {res : Except Errno Unit}
    (h : cm.persist id off size env = .ok (res, cm')) :
    (cm.view id).persist off size = res ∧ cm'.view = cm.view := by
  unfold persist at h
  split at h
  next hid =>
    cases h
    rw [View.persist, view_share_eq_none.mpr hid]
    exact ⟨rfl, rfl⟩
  next r hr =>
    rw [View.persist, view_share_of_find? hr]
    split at h
    next hrange =>
      cases h
      exact ⟨if_pos hrange, rfl⟩
    next hrange =>
      obtain ⟨⟨ret, w⟩, hcall, h⟩ := ok_of_bind h
      obtain ⟨hret, hrecord⟩ := Machine.persistRange_record hcall
      have hview : ∀ blocks, ({ cm with buffer := w, blocks := blocks } : ClientManager).view =
          cm.view := by
        intro blocks
        funext id'
        rw [view, hrecord]
        rfl
      cases ret with
      | error e =>
          cases h
          exact ⟨(if_neg hrange).trans hret, hview _⟩
      | ok u =>
          cases h
          exact ⟨(if_neg hrange).trans hret, hview _⟩

theorem handleUserfault_view {nrPagesRam nrPagesSwap : Nat} {files : OrdMap Nat PersFile}
    {fault : UInt64} {flags : PagefaultFlags} {env : Env} {wake : Wake}
    (hi : cm.Intact nrPagesRam nrPagesSwap files)
    (h : cm.handleUserfault fault flags env = .ok (wake, cm')) : cm'.view = cm.view := by
  rcases handleUserfault_cases h with rfl | ⟨id, off, w, blocks, hserve, rfl⟩
  · rfl
  · funext id'
    rw [view, Machine.serveFault_record hi.reach.owned hi.reach.laid hserve]
    rfl

end ClientManager

/-! ## Requests of clients -/

namespace CallParams

/-- The id of the region a request is about, if there is one. -/
def target (c : Client) : CallParams → Option Nat
  | .alloc id _ _ _ => some id
  | .anchor id => some id
  | .unanchor id => some id
  | .getSize id => some id
  | .map id _ _ => some id
  | .unmap addr => c.mappings.find? addr
  | .persist addr _ _ => c.mappings.find? addr
  | .advise _ => none
  | .unknown => none

/-- The answer to a request that is about no region. -/
def refusal : CallParams → Errno
  | .advise _ => .enotsup
  | .unknown => .enotsup
  | _ => .enoent

/-- The clients after a request of one of them. -/
def clients (pid : Int) (c : Client) (granted : Bool) (clients : OrdMap Int Client) :
    CallParams → OrdMap Int Client
  | .alloc id addr _ _ =>
      if granted then clients.insert pid { c with mappings := c.mappings.insert addr id }
      else clients
  | .map id addr _ =>
      if granted then clients.insert pid { c with mappings := c.mappings.insert addr id }
      else clients
  | .unmap addr =>
      if c.mappings.contains addr then
        clients.insert pid { c with mappings := c.mappings.erase addr }
      else clients
  | _ => clients

end CallParams

/-- A request on the view of its region. -/
def View.serve (params : CallParams) (o : Outcomes) (v : View) : Except Errno CallResult × View :=
  match params with
  | .alloc _ _ size persistent =>
      ((v.allocate size persistent o).1.map fun info => .segid info.segid,
        (v.allocate size persistent o).2)
  | .anchor _ => (v.anchor.1.map fun _ => .none, v.anchor.2)
  | .unanchor _ => (v.unanchor.1.map fun _ => .none, v.unanchor.2)
  | .getSize _ => ((v.getSize o).1.map .size, (v.getSize o).2)
  | .map _ _ _ => ((v.map o).1.map fun info => .segid info.segid, (v.map o).2)
  | .unmap _ => ((v.unmap o.remove).1.map fun _ => .none, (v.unmap o.remove).2)
  | .persist _ off size => ((v.persist off size).map fun _ => .none, v)
  | .advise _ => (.error .enotsup, v)
  | .unknown => (.error .enotsup, v)

/-- The outcomes of the calls to the outside a request makes. -/
def ClientManager.outcomes (params : CallParams) (env : CallEnv) (cm : ClientManager) : Outcomes :=
  match params with
  | .alloc id _ size persistent =>
      env.outcomes (cm.loads id env) (cm.places id size persistent env)
  | .getSize id => env.outcomes (cm.loads id env) true
  | .map id _ _ => env.outcomes (cm.loads id env) true
  | _ => env.outcomes true true

namespace Damanager

variable {s s' : Damanager} {pid : Int} {c : Client} {env : CallEnv}

theorem grant_view {addr id : Nat} {reply : Except Errno ClientRegionInfo} {cm : ClientManager}
    {res : Except Errno CallResult} (h : s.grant pid c addr id (reply, cm) = .ok (res, s')) :
    s'.toClientManager = cm ∧ res = reply.map (fun info => .segid info.segid) ∧
      s'.clients = if res.isOk then
        s.clients.insert pid { c with mappings := c.mappings.insert addr id } else s.clients := by
  obtain ⟨hcm, ⟨e, rfl, rfl, hclients⟩ | ⟨info, rfl, rfl, -, hclients⟩⟩ := grant_cases h
  · exact ⟨hcm, rfl, hclients⟩
  · exact ⟨hcm, rfl, hclients⟩

/-- A request does to the view of its region what `View.serve` says. -/
theorem handleCall_view {params : CallParams} {res : Except Errno CallResult} {id : Nat}
    (h : s.handleCall pid c params env = .ok (res, s')) (hid : params.target c = some id) :
    (s.view id).serve params (s.outcomes params env) = (res, s'.view id) ∧
      s.SameBut id s'.toClientManager := by
  cases params with
  | alloc id addr size persistent =>
      cases hid
      obtain ⟨⟨reply, cm⟩, halloc, h⟩ := ok_of_bind h
      obtain ⟨hcm, rfl, -⟩ := grant_view h
      obtain ⟨hview, hsame⟩ := ClientManager.allocate_view halloc
      rw [hcm]
      refine ⟨?_, hsame⟩
      simp only [View.serve, ClientManager.outcomes, hview]
  | anchor id =>
      cases hid
      cases h
      obtain ⟨hview, hsame⟩ := ClientManager.anchor_view (Prod.eta (s.anchor id)).symm
      refine ⟨?_, hsame⟩
      simp only [View.serve, hview]
      rfl
  | unanchor id =>
      cases hid
      obtain ⟨⟨reply, cm⟩, hun, h⟩ := ok_of_bind h
      cases h
      obtain ⟨hview, hsame⟩ := ClientManager.unanchor_view hun
      refine ⟨?_, hsame⟩
      simp only [View.serve, hview]
  | getSize id =>
      cases hid
      cases h
      obtain ⟨hview, hsame⟩ := ClientManager.getSize_view (Prod.eta (s.getSize id env)).symm true
      refine ⟨?_, hsame⟩
      simp only [View.serve, ClientManager.outcomes, hview]
      rfl
  | map id addr size =>
      cases hid
      obtain ⟨⟨reply, cm⟩, hmap, h⟩ := ok_of_bind h
      obtain ⟨hcm, rfl, -⟩ := grant_view h
      obtain ⟨hview, hsame⟩ := ClientManager.map_view hmap true
      rw [hcm]
      refine ⟨?_, hsame⟩
      simp only [View.serve, ClientManager.outcomes, hview]
  | unmap addr =>
      have hid : c.mappings.find? addr = some id := hid
      rw [handleCall, hid] at h
      obtain ⟨⟨reply, cm⟩, hunmap, h⟩ := ok_of_bind h
      cases h
      obtain ⟨hview, hsame⟩ := ClientManager.unmap_view hunmap
      have hview : (s.view id).unmap env.xpmemRemove = (reply, cm.view id) := hview
      refine ⟨?_, hsame⟩
      simp only [View.serve, ClientManager.outcomes, CallEnv.outcomes, hview]
  | persist addr off size =>
      have hid : c.mappings.find? addr = some id := hid
      rw [handleCall, hid] at h
      obtain ⟨⟨reply, cm⟩, hpersist, h⟩ := ok_of_bind h
      cases h
      obtain ⟨hview, hsame⟩ := ClientManager.persist_view hpersist
      refine ⟨?_, .of_view hsame⟩
      simp only [View.serve, hview]
      exact Prod.ext rfl (congrFun hsame id).symm
  | advise id' => cases hid
  | unknown => cases hid

/-- A request that is about no region is refused. -/
theorem handleCall_refused {params : CallParams} {res : Except Errno CallResult}
    (h : s.handleCall pid c params env = .ok (res, s')) (hid : params.target c = none) :
    res = .error params.refusal ∧ s' = s := by
  cases params with
  | alloc | anchor | unanchor | getSize | map => cases hid
  | unmap addr =>
      have hid : c.mappings.find? addr = none := hid
      rw [handleCall, hid] at h
      cases h
      exact ⟨rfl, rfl⟩
  | persist addr off size =>
      have hid : c.mappings.find? addr = none := hid
      rw [handleCall, hid] at h
      cases h
      exact ⟨rfl, rfl⟩
  | advise | unknown =>
      cases h
      exact ⟨rfl, rfl⟩

theorem handleCall_clients {params : CallParams} {res : Except Errno CallResult}
    (h : s.handleCall pid c params env = .ok (res, s')) :
    s'.clients = params.clients pid c res.isOk s.clients := by
  cases params with
  | alloc id addr size persistent =>
      obtain ⟨⟨reply, cm⟩, -, h⟩ := ok_of_bind h
      exact (grant_view h).2.2
  | map id addr size =>
      obtain ⟨⟨reply, cm⟩, -, h⟩ := ok_of_bind h
      exact (grant_view h).2.2
  | unanchor id =>
      obtain ⟨⟨reply, cm⟩, -, h⟩ := ok_of_bind h
      cases h
      rfl
  | unmap addr =>
      rw [handleCall] at h
      split at h
      next hid =>
        cases h
        rw [CallParams.clients, OrdMap.contains_eq_false.mpr hid]
        rfl
      next id hid =>
        obtain ⟨⟨reply, cm⟩, -, h⟩ := ok_of_bind h
        cases h
        rw [CallParams.clients, OrdMap.contains_iff.mpr ⟨id, hid⟩]
        rfl
  | persist addr off size =>
      rw [handleCall] at h
      split at h
      next =>
        cases h
        rfl
      next =>
        obtain ⟨⟨reply, cm⟩, -, h⟩ := ok_of_bind h
        cases h
        rfl
  | anchor | getSize | advise | unknown =>
      cases h
      rfl

/-- A store changes no view. -/
theorem store_view (s : Damanager) (st : Store) :
    ({ s with buffer := s.buffer.clientStore st } : Damanager).view = s.view := by
  have hrecord : (s.buffer.clientStore st).record = s.buffer.record :=
    Machine.interfere_record s.buffer [st]
  funext id
  show View.mk ((s.buffer.clientStore st).record id) _ = _
  rw [hrecord]
  rfl

end Damanager

/-! ## Views without the number of pages -/

/-- The record without the number of pages that are left. -/
def Record.blind (r : Record) : Record := { r with available := 0 }

/-- The view without the number of pages that are left. -/
def View.blind (v : View) : View := ⟨v.toRecord.blind, v.share⟩

namespace Record

variable (r : Record)

theorem load_blind (opens placed : Bool) :
    r.blind.load opens placed = ((r.load opens placed).1, (r.load opens placed).2.blind) := by
  obtain ⟨available, live, file⟩ := r
  cases live with
  | some e => rfl
  | none =>
      cases file with
      | none => rfl
      | some n => cases opens <;> cases placed <;> rfl

theorem free_blind : r.blind.free.blind = r.free.blind := by
  obtain ⟨available, live, file⟩ := r
  cases live with
  | none => rfl
  | some e =>
      obtain ⟨size, persistent, anchored⟩ := e
      cases anchored <;> cases persistent <;> rfl

theorem anchor_blind : r.blind.anchor = (r.anchor.1, r.anchor.2.blind) := by
  obtain ⟨available, live, file⟩ := r
  cases live with
  | none => rfl
  | some e =>
      obtain ⟨size, persistent, anchored⟩ := e
      cases persistent <;> rfl

theorem unanchor_blind : r.blind.unanchor = (r.unanchor.1, r.unanchor.2.blind) := by
  obtain ⟨available, live, file⟩ := r
  cases live with
  | none => rfl
  | some e => rfl

/-- Only anonymous regions take pages. -/
theorem allocate_blind (size : Nat) (openErr : Option Errno) (sized placed : Bool) :
    r.blind.allocate size true openErr sized placed =
      ((r.allocate size true openErr sized placed).1,
        (r.allocate size true openErr sized placed).2.blind) := by
  have hopen : r.blind.openExcl openErr = r.openExcl openErr := rfl
  have hlive : r.blind.live = r.live := rfl
  simp only [Record.allocate, hopen, hlive, if_true]
  split
  next => rfl
  next =>
    split
    next => rfl
    next =>
      split
      next => rfl
      next => cases sized <;> cases placed <;> rfl

end Record

namespace View

variable (v : View) (o : Outcomes)

/-- Two results that are the same but for the number of pages. -/
def SameResult {ρ : Type} (a b : ρ × View) : Prop := a.1 = b.1 ∧ a.2.blind = b.2.blind

theorem addRegion_blind (size : Nat) :
    SameResult (v.blind.addRegion size o) (v.addRegion size o) := by
  unfold addRegion
  split
  next => exact ⟨rfl, congrArg (View.mk · v.share) v.toRecord.free_blind⟩
  next => exact ⟨rfl, rfl⟩

theorem allocate_blind (size : Nat) :
    SameResult (v.blind.allocate size true o) (v.allocate size true o) := by
  have hshare : v.blind.share = v.share := rfl
  have hrecord : v.blind.toRecord = v.toRecord.blind := rfl
  unfold allocate
  rw [hshare, hrecord, Record.load_blind]
  split
  next => exact ⟨rfl, rfl⟩
  next =>
    obtain ⟨res, r, hload⟩ : ∃ res r, v.toRecord.load o.opens o.loads = (res, r) := ⟨_, _, rfl⟩
    rw [hload]
    cases res with
    | ok n => exact ⟨rfl, rfl⟩
    | error e =>
        dsimp only
        rw [Record.allocate_blind]
        obtain ⟨res', r', halloc⟩ : ∃ res' r',
          r.allocate size true o.openErr o.sized o.places = (res', r') := ⟨_, _, rfl⟩
        rw [halloc]
        cases res' with
        | error e => exact ⟨rfl, rfl⟩
        | ok u => exact addRegion_blind ⟨r', v.share⟩ o size

theorem unanchor_blind : SameResult v.blind.unanchor v.unanchor := by
  have hshare : v.blind.share = v.share := rfl
  have hrecord : v.blind.toRecord = v.toRecord.blind := rfl
  unfold unanchor
  rw [hshare, hrecord, Record.unanchor_blind]
  obtain ⟨res, r, hun⟩ : ∃ res r, v.toRecord.unanchor = (res, r) := ⟨_, _, rfl⟩
  rw [hun]
  cases res with
  | error e => exact ⟨rfl, rfl⟩
  | ok u =>
      refine ⟨rfl, congrArg (View.mk · v.share) ?_⟩
      dsimp only
      split
      · rfl
      · exact r.free_blind

theorem map_blind : SameResult (v.blind.map o) (v.map o) := by
  have hshare : v.blind.share = v.share := rfl
  have hrecord : v.blind.toRecord = v.toRecord.blind := rfl
  unfold View.map
  rw [hshare, hrecord, Record.load_blind]
  cases v.share with
  | some share => exact ⟨rfl, rfl⟩
  | none =>
      obtain ⟨res, r, hload⟩ : ∃ res r, v.toRecord.load o.opens o.loads = (res, r) := ⟨_, _, rfl⟩
      rw [hload]
      cases res with
      | error e => exact ⟨rfl, rfl⟩
      | ok n => exact addRegion_blind ⟨r, none⟩ o n

theorem unmap_blind (remove : Option Errno) :
    SameResult (v.blind.unmap remove) (v.unmap remove) := by
  have hshare : v.blind.share = v.share := rfl
  have hrecord : v.blind.toRecord = v.toRecord.blind := rfl
  unfold unmap
  rw [hshare, hrecord]
  cases v.share with
  | none => exact ⟨rfl, rfl⟩
  | some share =>
      dsimp only
      split
      next => exact ⟨rfl, rfl⟩
      next =>
        cases remove with
        | some e => exact ⟨rfl, rfl⟩
        | none => exact ⟨rfl, congrArg (View.mk · none) v.toRecord.free_blind⟩

/-- No request but that for an anonymous region depends on the number of pages. -/
theorem serve_blind {q : CallParams} (h : ∀ id addr size, q ≠ .alloc id addr size false) :
    SameResult (v.blind.serve q o) (v.serve q o) := by
  have hrecord : v.blind.toRecord = v.toRecord.blind := rfl
  cases q with
  | alloc id addr size persistent =>
      cases persistent with
      | false => exact absurd rfl (h id addr size)
      | true =>
          obtain ⟨hres, hview⟩ := v.allocate_blind o size
          exact ⟨by rw [serve, serve, hres], hview⟩
  | anchor id =>
      simp only [serve, anchor, hrecord, Record.anchor_blind]
      exact ⟨rfl, rfl⟩
  | unanchor id =>
      obtain ⟨hres, hview⟩ := v.unanchor_blind
      exact ⟨by rw [serve, serve, hres], hview⟩
  | getSize id =>
      obtain ⟨⟨available, live, file⟩, share⟩ := v
      cases share with
      | some share => exact ⟨rfl, rfl⟩
      | none =>
          simp only [serve, getSize, View.blind, Record.load_blind]
          exact ⟨rfl, rfl⟩
  | map id addr size =>
      obtain ⟨hres, hview⟩ := v.map_blind o
      exact ⟨by rw [serve, serve, hres], hview⟩
  | unmap addr =>
      obtain ⟨hres, hview⟩ := v.unmap_blind o.remove
      exact ⟨by rw [serve, serve, hres], hview⟩
  | persist addr off size => exact ⟨rfl, rfl⟩
  | advise | unknown => exact ⟨rfl, rfl⟩

end View

theorem ClientManager.SameBut.blind {cm cm' : ClientManager} {id id' : Nat} (h : cm.SameBut id cm')
    (hne : id' ≠ id) : (cm'.view id').blind = (cm.view id').blind := by
  rw [h id' hne]
  rfl

/-! ## Answers -/

/-- The answer to a request. -/
def Action.reply (s : Damanager) : Action → Option (Except Errno CallResult)
  | .call pid params env =>
      match s.clients.find? pid with
      | some ⟨mappings, true⟩ =>
          (s.handleCall pid ⟨mappings, true⟩ params env).toOption.map Prod.fst
      | _ => none
  | _ => none

theorem Action.reply_of_call {pid : Int} {mappings : OrdMap Nat Nat} {params : CallParams}
    {env : CallEnv} {res : Except Errno CallResult} {s s' : Damanager}
    (hc : s.clients.find? pid = some ⟨mappings, true⟩)
    (hcall : s.handleCall pid ⟨mappings, true⟩ params env = .ok (res, s')) :
    (Action.call pid params env).reply s = some res := by
  rw [Action.reply, hc]
  simp only [hcall]
  rfl

theorem Action.reply_eq_none {pid : Int} {params : CallParams} {env : CallEnv} {s : Damanager}
    (h : ∀ mappings, s.clients.find? pid = some ⟨mappings, true⟩ → False) :
    (Action.call pid params env).reply s = none := by
  rw [Action.reply]
  split
  next mappings hc => exact absurd hc (h mappings)
  next => rfl

end DASim
