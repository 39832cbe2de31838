import DASim.Client.Effects
import DASim.Client.Requests

/-!
# The two managers agree on the regions

The client manager and the buffer manager each keep a table of regions.  A
region that clients have mapped is in both, with the same address and size.  One
that is only in the buffer manager is anchored.  Several calls look a region up
without checking that it is there, and they rest on this.

The agreement is a matter of one id at a time.  `AgreesAt` says it for the two
entries of an id.  A request on that id can break it in between: a region that
was just allocated is not right until it is registered or freed.
-/

namespace DASim

/-! ## Agreement -/

/-- The entry of an id in the buffer manager agrees with the one in the client
manager. -/
def AgreesAt (shape : Option RegionShape) : Option CmRegion → Prop
  | some r => ∃ s, shape = some s ∧ s.addr = r.addr ∧ s.size = r.size
  | none => ∀ s, shape = some s → s.anchored = true

namespace ClientManager

variable {cm cm' : ClientManager} {w : Machine} {id addr size : Nat} {env : CallEnv}
  {s : RegionShape} {r : CmRegion}

/-- The map from addresses is the inverse of the table, and the entries of all
ids but one agree. -/
structure AgreesBut (id : Nat) (cm : ClientManager) : Prop where
  entries : ∀ id', id' ≠ id → AgreesAt (cm.buffer.shape id') (cm.regions.find? id')
  inverse : ∀ addr id', cm.regionMap.find? addr = some id' ↔
    ∃ r, cm.regions.find? id' = some r ∧ r.addr = addr

structure Agrees (cm : ClientManager) : Prop where
  entries : ∀ id, AgreesAt (cm.buffer.shape id) (cm.regions.find? id)
  inverse : ∀ addr id, cm.regionMap.find? addr = some id ↔
    ∃ r, cm.regions.find? id = some r ∧ r.addr = addr

theorem Agrees.but (h : cm.Agrees) (id : Nat) : cm.AgreesBut id :=
  ⟨fun id' _ => h.entries id', h.inverse⟩

theorem AgreesBut.agrees (h : cm.AgreesBut id)
    (hid : AgreesAt (cm.buffer.shape id) (cm.regions.find? id)) : cm.Agrees where
  entries := by
    intro id'
    rcases eq_or_ne id' id with rfl | hne
    · exact hid
    · exact h.entries id' hne
  inverse := h.inverse

/-- The buffer manager changes its entry of `id`. -/
theorem AgreesBut.buffer {x : Option RegionShape} (h : cm.AgreesBut id)
    (hw : w.shape = Function.update cm.buffer.shape id x) :
    { cm with buffer := w }.AgreesBut id where
  entries := by
    intro id' hne
    rw [hw, Function.update_of_ne hne]
    exact h.entries id' hne
  inverse := h.inverse

theorem Agrees.congr (h : cm.Agrees) (hw : w.shape = cm.buffer.shape) :
    { cm with buffer := w }.Agrees where
  entries := by
    intro id
    rw [hw]
    exact h.entries id
  inverse := h.inverse

/-- A region the client manager does not have is registered.  Its address is
that of no other region. -/
theorem AgreesBut.register (h : cm.AgreesBut id) (hid : cm.regions.find? id = none)
    (hs : cm.buffer.shape id = some s) (hranges : cm.buffer.Ranges) (segid : Int) (n : Nat) :
    { cm with
      regions := cm.regions.insert id ⟨s.addr, s.size, segid, n⟩
      regionMap := cm.regionMap.insert s.addr id }.Agrees where
  entries := by
    intro id'
    rw [OrdMap.find?_insert]
    split
    next heq =>
      rw [heq]
      exact ⟨s, hs, rfl, rfl⟩
    next hne => exact h.entries id' hne
  inverse := by
    intro addr id'
    rw [OrdMap.find?_insert, OrdMap.find?_insert]
    rcases eq_or_ne id' id with rfl | hne
    · rw [if_pos rfl]
      split
      next heq => simp [heq]
      next haddr =>
        rw [h.inverse, hid]
        simp [Ne.symm haddr]
    · rw [if_neg hne, ← h.inverse]
      split
      next heq =>
        -- two live regions do not start at the same address
        refine ⟨fun hnew => absurd (Option.some.inj hnew).symm hne, fun hold => ?_⟩
        obtain ⟨r, hr, hraddr⟩ := (h.inverse addr id').mp hold
        have hat := h.entries id' hne
        rw [hr] at hat
        obtain ⟨s', hs', haddr', -⟩ := hat
        have hdisj := (hranges id s hs).2.2 id' s' hs' hne
        have hpos := (hranges id s hs).1
        have hpos' := (hranges id' s' hs').1
        omega
      next => rfl

/-- The count of a region does not matter. -/
theorem Agrees.recount (h : cm.Agrees) (hr : cm.regions.find? id = some r) (n : Nat) :
    { cm with regions := cm.regions.insert id { r with mapcount := n } }.Agrees where
  entries := by
    intro id'
    rw [OrdMap.find?_insert]
    split
    next heq =>
      have hat := h.entries id
      rw [hr] at hat
      rw [heq]
      exact hat
    next => exact h.entries id'
  inverse := by
    intro addr id'
    rw [h.inverse, OrdMap.find?_insert]
    split
    next heq =>
      rw [heq, hr]
      simp
    next => rfl

/-- A region is dropped by the client manager. -/
theorem Agrees.unregister (h : cm.Agrees) (hr : cm.regions.find? id = some r) :
    { cm with
      regions := cm.regions.erase id
      regionMap := cm.regionMap.erase r.addr }.AgreesBut id where
  entries := by
    intro id' hne
    rw [OrdMap.find?_erase_ne _ hne]
    exact h.entries id'
  inverse := by
    intro addr id'
    rw [OrdMap.find?_erase, OrdMap.find?_erase]
    rcases eq_or_ne id' id with rfl | hne
    · rw [if_pos rfl]
      split
      next => simp
      next haddr =>
        rw [h.inverse, hr]
        simp [Ne.symm haddr]
    · rw [if_neg hne, ← h.inverse]
      split
      next heq =>
        have hself := (h.inverse addr id).mpr ⟨r, hr, heq.symm⟩
        rw [hself]
        simp [Ne.symm hne]
      next => rfl

/-- A region the client manager does not have is freed, or it is anchored. -/
theorem AgreesBut.free {env : Env} (h : cm.AgreesBut id) (hid : cm.regions.find? id = none)
    (hfree : cm.buffer.free id env = .ok w) : { cm with buffer := w }.Agrees := by
  rcases Machine.free_shape hfree with ⟨hshape, hanch⟩ | hshape
  · have hbut : { cm with buffer := w }.AgreesBut id := by
      refine ⟨fun id' hne => ?_, h.inverse⟩
      rw [hshape]
      exact h.entries id' hne
    refine hbut.agrees ?_
    rw [hid, hshape]
    exact hanch
  · refine (h.buffer hshape).agrees ?_
    rw [hid, hshape, Function.update_self]
    exact fun s hs => by cases hs

/-! ## Requests keep the agreement -/

variable {nrPagesRam nrPagesSwap : Nat} {files : OrdMap Nat PersFile}

/-- The invariant of the client manager. -/
structure Intact (nrPagesRam nrPagesSwap : Nat) (files : OrdMap Nat PersFile)
    (cm : ClientManager) : Prop where
  reach : Machine.Reachable nrPagesRam nrPagesSwap files cm.buffer
  agrees : cm.Agrees

theorem addRegion_intact {res : Except Errno ClientRegionInfo}
    (hreach : Machine.Reachable nrPagesRam nrPagesSwap files cm.buffer) (h : cm.AgreesBut id)
    (hid : cm.regions.find? id = none) (hs : cm.buffer.shape id = some s)
    (hadd : cm.addRegion id s.addr s.size env = .ok (res, cm')) :
    cm'.Intact nrPagesRam nrPagesSwap files := by
  rcases addRegion_cases hid hadd with ⟨e, w, -, hfree, rfl⟩ | ⟨segid, -, rfl⟩
  · exact ⟨hreach.trans (Machine.free_leads hfree), h.free hid hfree⟩
  · exact ⟨hreach, h.register hid hs hreach.laid.ranges segid 1⟩

/-- A region that `get_anchored_region` finds is anchored. -/
theorem Intact.getAnchoredRegion {env : Env} {res : Except Errno (Nat × Nat)}
    (h : cm.Intact nrPagesRam nrPagesSwap files) (hid : cm.regions.find? id = none)
    (hget : cm.buffer.getAnchoredRegion id env = (res, w)) :
    { cm with buffer := w }.Intact nrPagesRam nrPagesSwap files ∧
      ∀ addr size, res = .ok (addr, size) → ∃ s, w.shape id = some s ∧ s.addr = addr ∧
        s.size = size ∧ s.anchored = true := by
  have hreach := h.reach.trans (Machine.getAnchoredRegion_leads hget)
  rcases Machine.getAnchoredRegion_shape hget with ⟨⟨e, rfl⟩, -, hshape⟩ | ⟨s, rfl, hshape, hs⟩
  · exact ⟨⟨hreach, h.agrees.congr hshape⟩, fun addr size hres => by cases hres⟩
  · have hanch : s.anchored = true := by
      rcases hs with hs | ⟨-, hs, -⟩
      · have hat := h.agrees.entries id
        rw [hid] at hat
        exact hat s hs
      · exact hs
    have hw : w.shape id = some s := by rw [hshape, Function.update_self]
    refine ⟨⟨hreach, ((h.agrees.but id).buffer hshape).agrees ?_⟩, fun addr size hres => ?_⟩
    · rw [hid]
      intro s' hs'
      cases hw.symm.trans hs'
      exact hanch
    · cases hres
      exact ⟨s, hw, rfl, rfl, hanch⟩

theorem Intact.allocate {persistent : Bool} {res : Except Errno ClientRegionInfo}
    (h : cm.Intact nrPagesRam nrPagesSwap files)
    (hcall : cm.allocate id size persistent env = .ok (res, cm')) :
    cm'.Intact nrPagesRam nrPagesSwap files := by
  rcases allocate_cases hcall with ⟨-, -, rfl⟩ | ⟨hid, ⟨res₁, w₁, -, hget, rfl⟩ |
    ⟨e₁, w₁, res₂, w₂, hget, halloc, hlast⟩⟩
  · exact h
  · exact (h.getAnchoredRegion hid hget).1
  · have h₁ := (h.getAnchoredRegion hid hget).1
    have hreach := h₁.reach.trans (Machine.allocate_leads halloc)
    rcases Machine.allocate_shape halloc with ⟨⟨e, rfl⟩, hshape⟩ | ⟨s, rfl, rfl, -, hshape⟩
    · rcases hlast with ⟨e, -, -, rfl⟩ | ⟨addr, hres, -⟩
      · exact ⟨hreach, h₁.agrees.congr hshape⟩
      · cases hres
    · rcases hlast with ⟨e, -, hres, -⟩ | ⟨addr, hres, hadd⟩
      · cases hres
      · cases hres
        refine addRegion_intact (s := s) ?_ ((h₁.agrees.but id).buffer hshape) hid ?_ hadd
        · exact hreach
        · rw [hshape, Function.update_self]

theorem Intact.anchor (h : cm.Intact nrPagesRam nrPagesSwap files) (id : Nat) :
    (cm.anchor id).2.Intact nrPagesRam nrPagesSwap files := by
  have hanchor := (Prod.eta (cm.buffer.anchor id)).symm
  refine ⟨h.reach.trans (Machine.anchor_leads hanchor), ?_⟩
  rcases Machine.anchor_shape hanchor with hshape | ⟨s, hs, hshape⟩
  · exact h.agrees.congr hshape
  · refine ((h.agrees.but id).buffer hshape).agrees ?_
    have hat := h.agrees.entries id
    show AgreesAt ((cm.buffer.anchor id).2.shape id) (cm.regions.find? id)
    rw [hshape, Function.update_self]
    rw [hs] at hat
    cases hr : cm.regions.find? id with
    | none => exact fun s' hs' => by cases hs'; rfl
    | some r =>
        rw [hr] at hat
        obtain ⟨s', hs', haddr, hsize⟩ := hat
        cases hs'
        exact ⟨_, rfl, haddr, hsize⟩

theorem Intact.unanchor {res : Except Errno Unit} (h : cm.Intact nrPagesRam nrPagesSwap files)
    (hcall : cm.unanchor id env = .ok (res, cm')) : cm'.Intact nrPagesRam nrPagesSwap files := by
  obtain ⟨res₁, w₁, hun, -, hcase⟩ := unanchor_cases hcall
  have hreach := h.reach.trans (Machine.unanchor_leads hun)
  rcases Machine.unanchor_shape hun with ⟨⟨e, rfl⟩, hshape⟩ | ⟨s, rfl, hs, hshape⟩
  · rcases hcase with ⟨rfl, -⟩ | ⟨hres, -⟩
    · exact ⟨hreach, h.agrees.congr hshape⟩
    · cases hres
  · have hbut := (h.agrees.but id).buffer hshape
    rcases hcase with ⟨rfl, ⟨e, he⟩ | ⟨-, r, hr⟩⟩ | ⟨-, hid, w₂, hfree, rfl⟩
    · cases he
    · -- a registered region need not be anchored
      refine ⟨hreach, hbut.agrees ?_⟩
      have hat := h.agrees.entries id
      rw [hs, hr] at hat
      obtain ⟨s', hs', haddr, hsize⟩ := hat
      cases hs'
      show AgreesAt (w₁.shape id) (cm.regions.find? id)
      rw [hr, hshape, Function.update_self]
      exact ⟨_, rfl, haddr, hsize⟩
    · exact ⟨hreach.trans (Machine.free_leads hfree), hbut.free hid hfree⟩

theorem Intact.getSize (h : cm.Intact nrPagesRam nrPagesSwap files) (id : Nat) (env : CallEnv) :
    (cm.getSize id env).2.Intact nrPagesRam nrPagesSwap files := by
  rcases getSize_cases (Prod.eta (cm.getSize id env)).symm with
    ⟨r, -, -, heq⟩ | ⟨hid, res₁, w₁, hget, -, heq⟩
  · rw [heq]
    exact h
  · rw [heq]
    exact (h.getAnchoredRegion hid hget).1

theorem Intact.map {res : Except Errno ClientRegionInfo}
    (h : cm.Intact nrPagesRam nrPagesSwap files) (hcall : cm.map id env = .ok (res, cm')) :
    cm'.Intact nrPagesRam nrPagesSwap files := by
  rcases map_cases hcall with ⟨r, hr, -, rfl⟩ | ⟨hid, res₁, w₁, hget, hlast⟩
  · exact ⟨h.reach, h.agrees.recount hr _⟩
  · obtain ⟨h₁, hfound⟩ := h.getAnchoredRegion hid hget
    rcases hlast with ⟨e, -, -, rfl⟩ | ⟨addr, size, hres, hadd⟩
    · exact h₁
    · obtain ⟨s, hs, rfl, rfl, -⟩ := hfound addr size hres
      exact addRegion_intact h₁.reach (h₁.agrees.but id) hid hs hadd

theorem Intact.unmap {res : Except Errno Unit} (h : cm.Intact nrPagesRam nrPagesSwap files)
    (hcall : cm.unmap id env = .ok (res, cm')) : cm'.Intact nrPagesRam nrPagesSwap files := by
  rcases unmap_cases hcall with ⟨-, -, rfl⟩ | ⟨r, n, hr, -, ⟨-, rfl⟩ | ⟨-, -, -, w, hfree, rfl⟩⟩
  · exact h
  · exact ⟨h.reach, h.agrees.recount hr n⟩
  · refine ⟨h.reach.trans (Machine.free_leads hfree), ?_⟩
    exact (h.agrees.unregister hr).free (OrdMap.find?_erase_self _ _) hfree

theorem Intact.unmap_exists (h : cm.Intact nrPagesRam nrPagesSwap files) (id : Nat)
    (env : CallEnv) : ∃ res cm', cm.unmap id env = .ok (res, cm') := by
  unfold ClientManager.unmap
  split
  next => exact ⟨_, _, rfl⟩
  next r hr =>
    dsimp only
    split
    next => exact ⟨_, _, rfl⟩
    next =>
      split
      next => exact ⟨_, _, rfl⟩
      next =>
        obtain ⟨w, hfree⟩ := Machine.free_exists h.reach.owned id env.release
        rw [hfree]
        exact ⟨_, _, rfl⟩

theorem Intact.persist {off : Nat} {res : Except Errno Unit}
    (h : cm.Intact nrPagesRam nrPagesSwap files)
    (hcall : cm.persist id off size env = .ok (res, cm')) :
    cm'.Intact nrPagesRam nrPagesSwap files := by
  rcases persist_cases hcall with ⟨e, -, rfl⟩ | ⟨r, w, blocks, -, hrange, rfl⟩
  · exact h
  · have hagrees := h.agrees.congr (Machine.persistRange_shape hrange)
    exact ⟨h.reach.trans (Machine.persistRange_leads hrange), hagrees.entries, hagrees.inverse⟩

theorem Intact.served {params : CallParams} (h : cm.Intact nrPagesRam nrPagesSwap files)
    (hserved : cm.Served env params cm') : cm'.Intact nrPagesRam nrPagesSwap files := by
  cases hserved with
  | refused => exact h
  | alloc halloc => exact h.allocate halloc
  | anchor => exact h.anchor _
  | unanchor hun => exact h.unanchor hun
  | getSize => exact h.getSize _ _
  | map hmap => exact h.map hmap
  | unmap hunmap => exact h.unmap hunmap
  | persist hpersist => exact h.persist hpersist

theorem Intact.handleUserfault {fault : UInt64} {flags : PagefaultFlags} {env : Env} {wake : Wake}
    (h : cm.Intact nrPagesRam nrPagesSwap files)
    (hcall : cm.handleUserfault fault flags env = .ok (wake, cm')) :
    cm'.Intact nrPagesRam nrPagesSwap files := by
  rcases handleUserfault_cases hcall with rfl | ⟨id, off, w, blocks, hserve, rfl⟩
  · exact h
  · have hshape := Machine.serveFault_shape h.reach.owned h.reach.laid hserve
    have hagrees := h.agrees.congr hshape
    exact ⟨h.reach.trans (Machine.serveFault_leads hserve), hagrees.entries, hagrees.inverse⟩

/-! ## No lookup throws -/

theorem addRegion_noThrow (id addr size : Nat) (env : CallEnv) (cm : ClientManager) :
    NoThrow (cm.addRegion id addr size env) := by
  unfold addRegion
  split
  · exact (Machine.free_noThrow _ _ _).bind fun _ _ => .ok _
  · exact .ok _

theorem allocate_noThrow (persistent : Bool) : NoThrow (cm.allocate id size persistent env) := by
  unfold allocate
  split
  · exact .ok _
  · split
    · exact .ok _
    · split
      · exact .ok _
      · exact addRegion_noThrow _ _ _ _ _

theorem unanchor_noThrow : NoThrow (cm.unanchor id env) := by
  unfold unanchor
  split
  · exact .ok _
  · split
    · exact .ok _
    · exact (Machine.free_noThrow _ _ _).bind fun _ _ => .ok _

theorem map_noThrow : NoThrow (cm.map id env) := by
  unfold map
  split
  · exact .ok _
  · split
    · exact .ok _
    · exact addRegion_noThrow _ _ _ _ _

theorem unmap_noThrow : NoThrow (cm.unmap id env) := by
  unfold unmap
  split
  · exact .ok _
  · dsimp only
    split
    · exact .ok _
    · split
      · exact .ok _
      · exact (Machine.free_noThrow _ _ _).bind fun _ _ => .ok _

/-- A region of the client manager is in the buffer manager. -/
theorem Agrees.find? (h : cm.Agrees) (hr : cm.regions.find? id = some r) :
    ∃ R, cm.buffer.regions.find? id = some R ∧ R.addr = r.addr ∧ R.size = r.size := by
  have hat := h.entries id
  rw [hr] at hat
  obtain ⟨s, hs, haddr, hsize⟩ := hat
  obtain ⟨R, hR, rfl⟩ := Book.shape_eq_some.mp hs
  exact ⟨R, hR, haddr, hsize⟩

theorem persist_noThrow {off : Nat} (h : cm.Agrees) : NoThrow (cm.persist id off size env) := by
  unfold persist
  split
  · exact .ok _
  next r hr =>
    obtain ⟨R, hR, -⟩ := h.find? hr
    split
    · exact .ok _
    · refine (Machine.persistRange_noThrow hR).bind fun ⟨res, w⟩ _ => ?_
      cases res with
      | error e => exact .ok _
      | ok u => exact .ok _

theorem handleUserfault_noThrow {fault : UInt64} {flags : PagefaultFlags} {env : Env}
    (h : cm.Intact nrPagesRam nrPagesSwap files) :
    NoThrow (cm.handleUserfault fault flags env) := by
  unfold ClientManager.handleUserfault
  split
  · exact .ok _
  next id off r htarget =>
    obtain ⟨-, -, hr, -⟩ := faultTarget_eq_some htarget
    obtain ⟨R, hR, -⟩ := h.agrees.find? hr
    exact (Machine.serveFault_noThrow h.reach.owned hR).bind fun _ _ => .ok _

end ClientManager

/-! ## Steps -/

namespace Damanager

variable {s s' : Damanager} {nrPagesRam nrPagesSwap : Nat} {files : OrdMap Nat PersFile}
  {pid : Int} {c : Client} {env : CallEnv}

theorem assign_noThrow {addr id : Nat} : NoThrow (s.assign pid c addr id) := by
  unfold assign
  split
  · exact .ok _
  · exact fun h => by cases h

theorem grant_noThrow {addr id : Nat} (reply : Except Errno ClientRegionInfo × ClientManager) :
    NoThrow (s.grant pid c addr id reply) := by
  unfold grant
  split
  · exact .ok _
  · exact assign_noThrow.bind fun _ _ => .ok _

theorem handleCall_intact {params : CallParams} {res : Except Errno CallResult}
    (h : s.Intact nrPagesRam nrPagesSwap files)
    (hcall : s.handleCall pid c params env = .ok (res, s')) :
    s'.Intact nrPagesRam nrPagesSwap files :=
  ClientManager.Intact.served h (handleCall_served hcall)

theorem handleCall_noThrow {params : CallParams} (h : s.Agrees) :
    NoThrow (s.handleCall pid c params env) := by
  cases params with
  | alloc id addr size persistent =>
      exact (ClientManager.allocate_noThrow persistent).bind fun _ _ => grant_noThrow _
  | anchor id => exact .ok _
  | unanchor id => exact ClientManager.unanchor_noThrow.bind fun _ _ => .ok _
  | getSize id => exact .ok _
  | map id addr size => exact ClientManager.map_noThrow.bind fun _ _ => grant_noThrow _
  | unmap addr =>
      rw [handleCall]
      split
      · exact .ok _
      · exact ClientManager.unmap_noThrow.bind fun _ _ => .ok _
  | persist addr off size =>
      rw [handleCall]
      split
      · exact .ok _
      · exact (ClientManager.persist_noThrow h).bind fun _ _ => .ok _
  | advise id => exact .ok _
  | unknown => exact .ok _

/-- The clean-up loop comes to its end. -/
theorem cleanUp_exists (env : Nat → CallEnv) (entries : List (Nat × Nat)) {cm : ClientManager}
    (h : cm.Intact nrPagesRam nrPagesSwap files) : ∃ cm', cleanUp env entries cm = .ok cm' := by
  induction entries generalizing cm with
  | nil => exact ⟨cm, rfl⟩
  | cons e entries ih =>
      obtain ⟨res, cm₁, hunmap⟩ := h.unmap_exists e.2 (env e.1)
      rw [cleanUp, hunmap]
      exact ih (h.unmap hunmap)

theorem cleanUp_noThrow {env : Nat → CallEnv} {entries : List (Nat × Nat)} {cm : ClientManager} :
    NoThrow (cleanUp env entries cm) := by
  induction entries generalizing cm with
  | nil => exact .ok _
  | cons e entries ih => exact ClientManager.unmap_noThrow.bind fun _ _ => ih

theorem exec_intact {action : Action} (h : s.Intact nrPagesRam nrPagesSwap files)
    (hexec : action.exec s = .ok s') : s'.Intact nrPagesRam nrPagesSwap files := by
  cases exec_stepped hexec with
  | idle => exact h
  | connect => exact h
  | call _ hcall => exact handleCall_intact h hcall
  | disconnect _ hclean =>
      exact cleanUp_invariant ClientManager.Intact.unmap h hclean
  | userfault hfault => exact h.handleUserfault hfault
  | @store st =>
      refine ⟨h.reach.trans (Machine.Leads.op (.store st) rfl), h.agrees.congr ?_⟩
      obtain ⟨shm, trace, heq⟩ := Machine.clientStore_eq s.buffer st
      rw [heq]

theorem exec_noThrow (action : Action) (h : s.Intact nrPagesRam nrPagesSwap files) :
    NoThrow (action.exec s) := by
  cases action with
  | connect pid =>
      rw [Action.exec]
      split
      · exact .ok _
      · exact .ok _
  | call pid params env =>
      rw [Action.exec]
      split
      · exact (handleCall_noThrow h.agrees).bind fun _ _ => .ok _
      · exact .ok _
  | disconnect pid env =>
      rw [Action.exec]
      split
      · exact cleanUp_noThrow.bind fun _ _ => .ok _
      · exact .ok _
  | userfault addr flags env =>
      exact (ClientManager.handleUserfault_noThrow h).bind fun _ _ => .ok _
  | store st => exact .ok _

theorem init_intact (nrPagesRam nrPagesSwap : Nat) (files : OrdMap Nat PersFile) :
    (init nrPagesRam nrPagesSwap files).Intact nrPagesRam nrPagesSwap files where
  reach := Runs.refl
  agrees :=
    { entries := fun _ _ hs => by cases hs
      inverse := fun _ _ => by simp [init, ClientManager.init] }

theorem Reachable.intact (h : Reachable nrPagesRam nrPagesSwap files s) :
    s.Intact nrPagesRam nrPagesSwap files :=
  h.invariant (P := fun s => s.Intact nrPagesRam nrPagesSwap files) (init_intact _ _ _)
    fun _ _ _ hs _ he => exec_intact hs he

end Damanager

/-! ## The result -/

/-- The two managers agree on the regions.  So no lookup by `at` throws, and
`get_anchored_region`, asked for a region that is not mapped, only finds
anchored ones. -/
theorem managers_agree {nrPagesRam nrPagesSwap : Nat} {files : OrdMap Nat PersFile}
    {s : Damanager} (h : Damanager.Reachable nrPagesRam nrPagesSwap files s) :
    (∀ id r, s.regions.find? id = some r → ∃ R, s.buffer.regions.find? id = some R ∧
        R.addr = r.addr ∧ R.size = r.size) ∧
      (∀ addr id, s.regionMap.find? addr = some id ↔
        ∃ r, s.regions.find? id = some r ∧ r.addr = addr) ∧
      (∀ id R, s.buffer.regions.find? id = some R → s.regions.find? id = none →
        R.anchored = true) ∧
      (∀ action : Action, action.exec s ≠ .error .outOfRange) ∧
      (∀ id env addr size w, s.regions.find? id = none →
        s.buffer.getAnchoredRegion id env = (.ok (addr, size), w) →
        ∃ R, w.regions.find? id = some R ∧ R.addr = addr ∧ R.size = size ∧ R.anchored = true) := by
  have hs := h.intact
  refine ⟨fun id r hr => hs.agrees.find? hr, hs.agrees.inverse, fun id R hR hid => ?_,
    fun action => Damanager.exec_noThrow action hs, fun id env addr size w hid hget => ?_⟩
  · have hat := hs.agrees.entries id
    rw [hid] at hat
    exact hat R.shape (Book.shape_of_find? hR)
  · obtain ⟨shape, hshape, haddr, hsize, hanch⟩ :=
      (hs.getAnchoredRegion hid hget).2 addr size rfl
    obtain ⟨R, hR, rfl⟩ := Book.shape_eq_some.mp hshape
    exact ⟨R, hR, haddr, hsize, hanch⟩

/-- A client allocates a persistent region, anchors it and goes away. -/
def anchoredActions : List Action :=
  [.connect 7, .call 7 (.alloc 1 0x1000 pageSize true) { create := { reserve := some 0x40000000 } },
    .call 7 (.anchor 1) {}, .disconnect 7 fun _ => {}]

theorem managers_agree_anchored : ∃ s, Damanager.Reachable 2 0 .empty s ∧
    s.regions.find? 1 = none ∧ ∃ R, s.buffer.regions.find? 1 = some R ∧ R.anchored = true := by
  have hrun : reaches Action.exec (fun _ _ => true)
      (fun s => (s.regions.find? 1).isNone && (s.buffer.regions.find? 1).isSome)
      anchoredActions (.init 2 0 .empty) = true := by decide +kernel
  obtain ⟨s, hs, h⟩ : ∃ s, Damanager.Reachable 2 0 .empty s ∧ _ :=
    Runs.of_reaches hrun fun _ _ _ _ => trivial
  simp only [Bool.and_eq_true, Option.isNone_iff_eq_none, Option.isSome_iff_exists] at h
  obtain ⟨hid, R, hR⟩ := h
  obtain ⟨-, -, hanch, -⟩ := managers_agree hs
  exact ⟨s, hs, hid, R, hR, hanch 1 R hR hid⟩

end DASim
