import DASim.Buffer.Victim
import DASim.Client.Dispatch

/-!
# Accesses of clients

A client reads and writes its memory without asking the manager.  If a page has no
frame, or is protected and the access is a write, the thread is stopped, the kernel
reports a fault (`Faults`) and the manager serves it.  Then the thread is woken and
tries again.

Faults are queued, and a fault can be late: when its turn comes, another one may have
brought the page in, or evicted it.  A late fault is served like any other one, and the
thread is woken, but the page may be protected then or have no frame.  The thread then
reports a second fault, and after that one, if it is served before anything else happens,
the access goes through.

What the access then finds is the memory the clients believe in.  A run of the whole
manager in which pages are transferred as a whole and no stale read fault is served
is such a run of the buffer manager (`carries_of_exec`), and there a page that is
mapped holds what was last stored to it, whoever stored it.
-/

namespace DASim

/-! ## Wake-ups -/

/-- Threads that wait at an address are woken with the range. -/
def Wake.covers (wake : Wake) (addr : UInt64) : Bool :=
  wake.start ≤ addr.toNat && addr.toNat < wake.start + wake.size

/-- A fault that is served wakes the threads at its page. -/
theorem Machine.serveFault_wake {w w' : Machine} {id off : Nat} {flags : PagefaultFlags} {env : Env}
    {wake : Wake} (h : w.serveFault id off flags env = .ok (wake, w')) :
    ∃ r, w.regions.find? id = some r ∧ wake = ⟨r.pageAddr (off / pageSize), pageSize⟩ := by
  unfold serveFault at h
  split at h
  next =>
    obtain ⟨⟨res, v⟩, hunfix, h⟩ := ok_of_bind h
    cases h
    obtain ⟨r, e, hr, -, ⟨p, -, -, rfl⟩ | ⟨-, p, w₁, -, -, rfl⟩⟩ := unfix_cases hunfix
    · exact ⟨r, hr, rfl⟩
    · exact ⟨r, hr, rfl⟩
  next hmissing =>
    split at h
    next =>
      obtain ⟨⟨res, v⟩, hmark, h⟩ := ok_of_bind h
      cases h
      obtain ⟨r, e, hr, -, ⟨p, -, -, rfl⟩ | ⟨-, -, rfl⟩⟩ := markDirty_cases hmark
      · exact ⟨r, hr, rfl⟩
      · exact ⟨r, hr, rfl⟩
    next hwrite =>
      -- a fault that is neither missing nor minor is one of write protection
      simp_all [PagefaultFlags.isMissing, PagefaultFlags.isMajor, PagefaultFlags.isWrite]

/-- The thread a fault was served for is woken. -/
theorem ClientManager.handleUserfault_covers {cm cm' : ClientManager} {fault : UInt64}
    {flags : PagefaultFlags} {env : Env} {wake : Wake} (ha : cm.Agrees)
    (h : cm.handleUserfault fault flags env = .ok (wake, cm')) : wake.covers fault = true := by
  unfold handleUserfault at h
  split at h
  next =>
    cases h
    simp [Wake.covers]
  next id off r htarget =>
    obtain ⟨⟨wake', w⟩, hserve, h⟩ := ok_of_bind h
    cases h
    obtain ⟨R, hR, rfl⟩ := Machine.serveFault_wake hserve
    obtain ⟨hr, hle, rfl, -⟩ := ha.faultTarget htarget
    obtain ⟨R', hR', haddr, -⟩ := ha.find? hr
    cases hR.symm.trans hR'
    have hdiv := Nat.div_add_mod (fault.toNat - r.addr) pageSize
    have hmod := Nat.mod_lt (fault.toNat - r.addr) pageSize_pos
    rw [Nat.mul_comm] at hdiv
    simp only [Wake.covers, Region.pageAddr, haddr, Bool.and_eq_true, decide_eq_true_eq]
    omega

/-! ## Faults -/

namespace Machine

variable {w w' : Machine} {nrPagesRam nrPagesSwap id off a : Nat} {write : Bool} {env : Env}
  {flags : PagefaultFlags} {r : Region} {files : OrdMap Nat PersFile}

/-- The access to a page at `a` goes through. -/
def Permits (w : Machine) (a : Nat) (write : Bool) : Prop :=
  ∃ m, w.vm a = some m ∧ (write = true → m.wp = false)

/-- What the kernel reports about an access that does not go through. -/
inductive Faults (w : Machine) (a : Nat) : Bool → PagefaultFlags → Prop
  | missing {write minor : Bool} : w.vm a = none →
      Faults w a write { write := write, minor := minor }
  | guarded {m : Mapping} : w.vm a = some m → m.wp = true →
      Faults w a true { write := true, wp := true }

/-- An access goes through or is reported. -/
theorem permits_or_faults (w : Machine) (a : Nat) (write : Bool) :
    w.Permits a write ∨ ∃ flags, w.Faults a write flags := by
  cases hm : w.vm a with
  | none => exact Or.inr ⟨{ write := write, minor := false }, .missing hm⟩
  | some m =>
      cases write with
      | false => exact Or.inl ⟨m, hm, by simp⟩
      | true =>
          cases hwp : m.wp with
          | false => exact Or.inl ⟨m, hm, fun _ => hwp⟩
          | true => exact Or.inr ⟨_, .guarded hm hwp⟩

/-- The page is brought in, writable if it was for a write. -/
theorem unfix_permits {res : UnfixResult} (hl : w.Laid) (hr : w.regions.find? id = some r)
    (hm : w.vm (r.pageAddr (off / pageSize)) = none)
    (h : w.unfix id off write env = .ok (res, w')) :
    (∃ p, w'.vm (r.pageAddr (off / pageSize)) = some ⟨p, false⟩) ∧
      res.start = r.pageAddr (off / pageSize) ∧ (write = true → res.writeprotect = false) := by
  obtain ⟨r', e, hr', he, ⟨p, rfl, -, -⟩ | ⟨habs, p, w₁, hacq, rfl, rfl⟩⟩ := unfix_cases h
  · cases hr.symm.trans hr'
    -- a page that is present is mapped
    have hmap := hl.mapped (id, off / pageSize) _ (Book.addr?_of_pte hr he)
    rw [hm, Book.frameOf_eq_some.mpr (Book.pte_eq_some.mpr ⟨r, hr, he⟩)] at hmap
    cases hmap
  · cases hr.symm.trans hr'
    refine ⟨⟨p, ?_⟩, rfl, fun hwrite => ?_⟩
    · rw [installPage]
      exact Function.update_self _ _ _
    · show (!(Function.update w₁.pageInfos p _ p).dirty) = false
      rw [Function.update_self, hwrite]
      simp

/-- The protection is lifted. -/
theorem markDirty_permits {m : Mapping} (hl : w.Laid) (hr : w.regions.find? id = some r)
    (hoff : off / pageSize < r.ptes.length)
    (hm : w.vm (r.pageAddr (off / pageSize)) = some m) :
    w.serveFault id off { write := true, wp := true } env =
      .ok (⟨r.pageAddr (off / pageSize), pageSize⟩,
        ({ w with toBook := w.setDirty m.frame true } : Machine).writeprotect
          (r.pageAddr (off / pageSize)) false) := by
  have he : r.ptes[off / pageSize]? = some r.ptes[off / pageSize] := List.getElem?_eq_getElem hoff
  have hframe : w.frameOf (id, off / pageSize) = some m.frame := by
    rw [← hl.mapped (id, off / pageSize) _ (Book.addr?_of_pte hr he), hm]
    rfl
  obtain ⟨r', hr', he'⟩ := Book.pte_eq_some.mp (Book.frameOf_eq_some.mp hframe)
  cases hr.symm.trans hr'
  have hmark : w.markDirty id off = .ok (⟨r.pageAddr (off / pageSize), pageSize, true⟩,
      { w with toBook := w.setDirty m.frame true }) := by
    rw [markDirty, Book.regionAt_eq_ok.mpr hr]
    simp only [bind, Except.bind, Region.getPte_eq_ok.mpr he']
    rfl
  rw [serveFault, hmark]
  rfl

/-- Serving the fault of an access makes the access possible. -/
theorem serveFault_permits (h : w.Reachable nrPagesRam nrPagesSwap files) (hram : 0 < nrPagesRam)
    (hsum : nrPagesRam + nrPagesSwap < 2 ^ 64) (hr : w.regions.find? id = some r)
    (hoff : off / pageSize < r.ptes.length)
    (hfault : w.Faults (r.pageAddr (off / pageSize)) write flags) (env : Env) :
    ∃ wake w', w.serveFault id off flags env = .ok (wake, w') ∧
      w'.Permits (r.pageAddr (off / pageSize)) write := by
  cases hfault with
  | @missing _ minor hm =>
      have hcap : w.anonPages < nrPagesRam + nrPagesSwap :=
        Nat.lt_of_le_of_lt (Nat.le_add_left _ _) (h.capacity hram hsum)
      obtain ⟨res, w₁, hunfix⟩ := unfix_of_capacity h.owned hcap hram hr hoff write env
      obtain ⟨⟨p, hp⟩, hstart, hwp⟩ := unfix_permits h.laid hr hm hunfix
      have hmissing : PagefaultFlags.isMissing { write := write, minor := minor } = true := by
        cases minor <;> rfl
      refine ⟨⟨res.start, res.size⟩,
        if res.writeprotect then w₁.writeprotect res.start true else w₁, ?_, ?_⟩
      · rw [serveFault, if_pos hmissing]
        show (w.unfix id off write env >>= _) = _
        rw [hunfix]
        rfl
      · split
        next hyes =>
          refine ⟨⟨p, true⟩, ?_, fun hwrite => ?_⟩
          · rw [writeprotect_vm, if_pos hstart.symm, hp]
            rfl
          · rw [hwp hwrite] at hyes
            cases hyes
        next => exact ⟨⟨p, false⟩, hp, fun _ => rfl⟩
  | @guarded m hm hwp =>
      refine ⟨_, _, markDirty_permits h.laid hr hoff hm, ⟨m.frame, false⟩, ?_, fun _ => rfl⟩
      rw [writeprotect_vm, if_pos rfl]
      show (w.vm _).map _ = _
      rw [hm]
      rfl

/-- A fault adds only stores to the trace. -/
theorem serveFault_grows {wake : Wake} (h : w.serveFault id off flags env = .ok (wake, w')) :
    Grows env.Stores w w' := by
  unfold serveFault at h
  split at h
  next =>
    obtain ⟨⟨res, v⟩, hunfix, h⟩ := ok_of_bind h
    cases h
    refine (unfix_grows hunfix).step ?_
    split <;> rfl
  next =>
    split at h
    next =>
      obtain ⟨⟨res, v⟩, hmark, h⟩ := ok_of_bind h
      cases h
      obtain ⟨r, e, -, -, ⟨p, -, rfl, -⟩ | ⟨-, rfl, -⟩⟩ := markDirty_cases hmark
      · exact .of_eq (by split <;> rfl)
      · exact .of_eq (by split <;> rfl)
    next =>
      cases h
      exact .of_eq rfl

end Machine

/-! ## Lossless runs -/

/-- Pages are transferred as a whole, and no stale read fault is served. -/
def ManagerOp.Lossless (w : Machine) (op : ManagerOp) : Prop :=
  op.WholePages ∧ op.staleRead w = false

/-- A lossless run of the buffer manager. -/
def Machine.Carries (w w' : Machine) : Prop :=
  Runs ManagerOp.exec (fun w op => op.Lossless w) w w'

/-- The requests of clients transfer pages as a whole. -/
def CallEnv.WholePages (env : CallEnv) : Prop :=
  env.create.WholePages ∧ env.release.WholePages ∧ env.persists.WholePages

/-- The same of what can happen to the whole manager. -/
def Action.Lossless (s : Damanager) : Action → Prop
  | .call _ _ env => env.WholePages
  | .disconnect _ env => ∀ addr, (env addr).WholePages
  | .userfault addr flags env => env.WholePages ∧ ∀ id off r,
      s.faultTarget addr = some (id, off, r) →
        (flags.isMissing && s.buffer.staleRead id off flags.isWrite) = false
  | _ => True

namespace Machine

variable {w w' w'' : Machine} {id off size : Nat} {env env' : Env}

/-- A fault of a write is not stale. -/
theorem staleRead_write (id off : Nat) (w : Machine) : w.staleRead id off true = false := by
  rw [staleRead]
  split <;> rfl

/-- The fault of an access is not stale. -/
theorem Faults.not_stale {r : Region} {write : Bool} {flags : PagefaultFlags} (hl : w.Laid)
    (hr : w.regions.find? id = some r) (hoff : off / pageSize < r.ptes.length)
    (h : w.Faults (r.pageAddr (off / pageSize)) write flags) :
    (flags.isMissing && w.staleRead id off flags.isWrite) = false := by
  cases h with
  | missing hm =>
      have hframe : w.frameOf (id, off / pageSize) = none := by
        rw [← hl.mapped (id, off / pageSize) _
          (Book.addr?_of_pte hr (List.getElem?_eq_getElem hoff)), hm]
        rfl
      rw [staleRead]
      split
      next p hp =>
        rw [Book.frameOf_eq_some.mpr hp] at hframe
        cases hframe
      next => exact Bool.and_false _
  | guarded => rfl

/-- In a sound state, a page in a frame is what was last stored to it. -/
theorem Sound.shm_of_frame {nrPagesRam nrPagesSwap p : Nat} {k : PageKey}
    (h : w.Sound true nrPagesRam nrPagesSwap) (hframe : w.frameOf k = some p) :
    w.shm p = flat w.trace k := by
  have hpte := Book.frameOf_eq_some.mp hframe
  obtain ⟨r, hr, -⟩ := Book.pte_eq_some.mp hpte
  exact h.placed k (.frame p) ⟨_, _, Book.shape_of_find? hr, hpte, Or.inl ⟨Or.inr rfl, rfl⟩⟩

/-- The same of what is read at the address of a page. -/
theorem Sound.shm_of_mapped {nrPagesRam nrPagesSwap a : Nat} {k : PageKey} {m : Mapping}
    (h : w.Sound true nrPagesRam nrPagesSwap) (ha : w.addr? k = some a) (hm : w.vm a = some m) :
    w.shm m.frame = flat w.trace k := by
  refine h.shm_of_frame ?_
  rw [← h.laid.mapped k a ha, hm]
  rfl

theorem Sound.carries {nrPagesRam nrPagesSwap : Nat} (h : w.Sound true nrPagesRam nrPagesSwap)
    (hrun : w.Carries w') : w'.Sound true nrPagesRam nrPagesSwap :=
  hrun.invariant (P := fun v => v.Sound true nrPagesRam nrPagesSwap) h
    fun _ _ _ hv hop hexec => hv.exec hop.1 (fun _ => hop.2) hexec

theorem Carries.op {op : ManagerOp} (hop : op.Lossless w) (h : op.exec w = .ok w') :
    w.Carries w' := Runs.single hop h

theorem free_carries (hio : env.WholePages) (h : w.free id env = .ok w') : w.Carries w' :=
  have hop : ManagerOp.Lossless w (.free id env) := ⟨hio, rfl⟩
  .op hop h

theorem allocate_carries {persistent : Bool} {res : Except Errno Nat} (hio : env.WholePages)
    (h : w.allocate id size persistent env = (res, w')) : w.Carries w' :=
  have hop : ManagerOp.Lossless w (.allocate id size persistent env) := ⟨hio, rfl⟩
  .op hop (by rw [ManagerOp.exec, h])

theorem getAnchoredRegion_carries {res : Except Errno (Nat × Nat)}
    (h : w.getAnchoredRegion id env = (res, w')) : w.Carries w' :=
  have hop : ManagerOp.Lossless w (.getAnchoredRegion id env) := ⟨trivial, rfl⟩
  .op hop (by rw [ManagerOp.exec, h])

theorem anchor_carries {res : Except Errno Unit} (h : w.anchor id = (res, w')) : w.Carries w' :=
  have hop : ManagerOp.Lossless w (.anchor id) := ⟨trivial, rfl⟩
  .op hop (by rw [ManagerOp.exec, h])

theorem unanchor_carries {res : Except Errno Unit} (h : w.unanchor id = (res, w')) :
    w.Carries w' :=
  have hop : ManagerOp.Lossless w (.unanchor id) := ⟨trivial, rfl⟩
  .op hop (by rw [ManagerOp.exec, h])

theorem persistRange_carries {r : Region} {res : Except Errno Unit} (hio : env'.WholePages)
    (hr : w.regions.find? id = some r)
    (h : w.persistRange id r.addr off size env env' = .ok (res, w')) : w.Carries w' := by
  have hop : ManagerOp.Lossless w (.persist id off size env env') := ⟨hio, rfl⟩
  refine .op hop ?_
  rw [ManagerOp.exec, hr]
  dsimp only
  rw [h]
  rfl

theorem serveFault_carries {flags : PagefaultFlags} {wake : Wake} (hio : env.WholePages)
    (hstale : (flags.isMissing && w.staleRead id off flags.isWrite) = false)
    (h : w.serveFault id off flags env = .ok (wake, w')) : w.Carries w' := by
  have hop : ManagerOp.Lossless w (.userfault id off flags env) := ⟨hio, hstale⟩
  refine .op hop ?_
  rw [ManagerOp.exec, h]
  rfl

end Machine

namespace ClientManager

variable {cm cm' : ClientManager} {id off size : Nat} {env : CallEnv}

theorem addRegion_carries {addr : Nat} {res : Except Errno ClientRegionInfo}
    (hio : env.WholePages) (hid : cm.regions.find? id = none)
    (h : cm.addRegion id addr size env = .ok (res, cm')) : cm.buffer.Carries cm'.buffer := by
  rcases addRegion_cases hid h with ⟨e, w, -, hfree, rfl⟩ | ⟨segid, -, rfl⟩
  · exact Machine.free_carries hio.2.1 hfree
  · exact Runs.refl

theorem unmap_carries {res : Except Errno Unit} (hio : env.WholePages)
    (h : cm.unmap id env = .ok (res, cm')) : cm.buffer.Carries cm'.buffer := by
  rcases unmap_cases h with ⟨-, -, rfl⟩ | ⟨r, n, -, -, ⟨-, rfl⟩ | ⟨-, -, -, w, hfree, rfl⟩⟩
  · exact Runs.refl
  · exact Runs.refl
  · exact Machine.free_carries hio.2.1 hfree

/-- A request is a lossless run of the buffer manager. -/
theorem served_carries {params : CallParams} (ha : cm.Agrees) (hio : env.WholePages)
    (h : cm.Served env params cm') : cm.buffer.Carries cm'.buffer := by
  cases h with
  | refused => exact Runs.refl
  | alloc halloc =>
      rcases allocate_cases halloc with ⟨-, -, rfl⟩ | ⟨hid, ⟨res₁, w₁, -, hget, rfl⟩ |
        ⟨e₁, w₁, res₂, w₂, hget, hcreate, ⟨e, -, -, rfl⟩ | ⟨addr, -, hadd⟩⟩⟩
      · exact Runs.refl
      · exact Machine.getAnchoredRegion_carries hget
      · exact (Machine.getAnchoredRegion_carries hget).trans
          (Machine.allocate_carries hio.1 hcreate)
      · refine ((Machine.getAnchoredRegion_carries hget).trans
          (Machine.allocate_carries hio.1 hcreate)).trans ?_
        exact @addRegion_carries { cm with buffer := w₂ } _ _ _ _ _ _ hio hid hadd
  | anchor => exact Machine.anchor_carries rfl
  | unanchor hun =>
      obtain ⟨res₁, w₁, hclear, -, ⟨rfl, -⟩ | ⟨-, -, w₂, hfree, rfl⟩⟩ := unanchor_cases hun
      · exact Machine.unanchor_carries hclear
      · exact (Machine.unanchor_carries hclear).trans (Machine.free_carries hio.2.1 hfree)
  | @getSize id =>
      rcases getSize_cases (Prod.eta (cm.getSize id env)).symm with
        ⟨r, -, -, heq⟩ | ⟨-, res₁, w₁, hget, -, heq⟩
      · rw [heq]
        exact Runs.refl
      · rw [heq]
        exact Machine.getAnchoredRegion_carries hget
  | map hmap =>
      rcases map_cases hmap with ⟨r, -, -, rfl⟩ | ⟨hid, res₁, w₁, hget, ⟨e, -, -, rfl⟩ |
        ⟨addr, size, -, hadd⟩⟩
      · exact Runs.refl
      · exact Machine.getAnchoredRegion_carries hget
      · refine (Machine.getAnchoredRegion_carries hget).trans ?_
        exact @addRegion_carries { cm with buffer := w₁ } _ _ _ _ _ _ hio hid hadd
  | unmap hunmap => exact unmap_carries hio hunmap
  | persist hpersist =>
      rcases persist_cases hpersist with ⟨e, -, rfl⟩ | ⟨r, w, blocks, hr, hrange, rfl⟩
      · exact Runs.refl
      · obtain ⟨R, hR, haddr, -⟩ := ha.find? hr
        rw [← haddr] at hrange
        exact Machine.persistRange_carries hio.2.2 hR hrange

end ClientManager

namespace Damanager

variable {s s' : Damanager} {nrPagesRam nrPagesSwap : Nat} {files : OrdMap Nat PersFile}

/-- So is everything that can happen to the manager. -/
theorem carries_of_exec {action : Action} (ha : s.Agrees) (hop : action.Lossless s)
    (h : action.exec s = .ok s') : s.buffer.Carries s'.buffer := by
  cases exec_stepped h with
  | idle => exact Runs.refl
  | connect => exact Runs.refl
  | call _ hcall => exact ClientManager.served_carries ha hop (handleCall_served hcall)
  | disconnect _ hclean =>
      exact cleanUp_invariant (P := fun cm => s.buffer.Carries cm.buffer)
        (fun hcm hunmap => hcm.trans (ClientManager.unmap_carries (hop _) hunmap)) Runs.refl hclean
  | @userfault fault flags env wake cm hfault =>
      unfold ClientManager.handleUserfault at hfault
      split at hfault
      next =>
        cases hfault
        exact Runs.refl
      next id off r htarget =>
        obtain ⟨⟨wake', w⟩, hserve, hfault⟩ := ok_of_bind hfault
        cases hfault
        exact Machine.serveFault_carries hop.1 (hop.2 id off r htarget) hserve
  | @store st =>
      have hlossless : ManagerOp.Lossless s.buffer (.store st) := ⟨trivial, rfl⟩
      exact .op hlossless rfl

/-- A lossless run of the whole manager is one of the buffer manager. -/
theorem carries_of_runs (h : Reachable nrPagesRam nrPagesSwap files s)
    (hrun : Runs Action.exec (fun s action => action.Lossless s) s s') :
    s.buffer.Carries s'.buffer ∧ Reachable nrPagesRam nrPagesSwap files s' := by
  have hstart : s.buffer.Carries s.buffer := Runs.refl
  refine hrun.invariant (P := fun t => s.buffer.Carries t.buffer ∧
    Reachable nrPagesRam nrPagesSwap files t) ⟨hstart, h⟩ ?_
  rintro t action t' ⟨hcarries, ht⟩ hop hexec
  exact ⟨hcarries.trans (carries_of_exec ht.intact.agrees hop hexec), ht.tail trivial hexec⟩

/-- After a lossless run all pages hold what they should. -/
theorem sound_of_lossless (h : Runs Action.exec (fun s action => action.Lossless s)
    (init nrPagesRam nrPagesSwap files) s) :
    s.buffer.Sound true nrPagesRam nrPagesSwap ∧ Reachable nrPagesRam nrPagesSwap files s := by
  obtain ⟨hcarries, hreach⟩ := carries_of_runs Runs.refl h
  exact ⟨(Machine.init_sound _ _ _ _).carries hcarries, hreach⟩

end Damanager

/-! ## The results -/

/-- The start of the page an address in the region is in. -/
def CmRegion.pageAddr (r : CmRegion) (addr : UInt64) : Nat :=
  r.addr + (addr.toNat - r.addr) / pageSize * pageSize

theorem ClientManager.Agrees.page {cm : ClientManager} {id : Nat} {r : CmRegion} {addr : UInt64}
    (h : cm.Agrees) (hr : cm.regions.find? id = some r)
    (hpage : (addr.toNat - r.addr) / pageSize < r.size / pageSize) :
    ∃ R, cm.buffer.regions.find? id = some R ∧ (addr.toNat - r.addr) / pageSize < R.ptes.length ∧
      R.pageAddr ((addr.toNat - r.addr) / pageSize) = r.pageAddr addr := by
  obtain ⟨R, hR, haddr, hsize⟩ := h.find? hr
  refine ⟨R, hR, ?_, ?_⟩
  · rw [R.nrPages, hsize]
    exact hpage
  · rw [Region.pageAddr, haddr]
    rfl

/-- A process makes region `1`. -/
def oneRegion : List Action :=
  [.connect 7, .call 7 (.alloc 1 0x1000 pageSize true) { create := { reserve := some 0x40000000 } }]

section Results

variable {s : Damanager} {nrPagesRam nrPagesSwap id : Nat} {files : OrdMap Nat PersFile}
  {r : CmRegion} {addr : UInt64} {flags : PagefaultFlags} {write : Bool}

theorem Damanager.Reachable.faultTarget_of_page
    (h : Damanager.Reachable nrPagesRam nrPagesSwap files s) (hr : s.regions.find? id = some r)
    (hle : r.addr ≤ addr.toNat) (hpage : (addr.toNat - r.addr) / pageSize < r.size / pageSize) :
    s.faultTarget addr = some (id, addr.toNat - r.addr, r) := by
  have hlt : addr.toNat < r.addr + r.size := by
    have := Nat.lt_of_div_lt_div hpage
    omega
  exact h.intact.agrees.faultTarget_of_mem h.intact.reach.laid.ranges hr hle hlt

/-- A fault is served in the machine, and that is all that happens to it. -/
theorem Damanager.Reachable.handleUserfault_of_serveFault
    (h : Damanager.Reachable nrPagesRam nrPagesSwap files s) (hr : s.regions.find? id = some r)
    (hle : r.addr ≤ addr.toNat) (hpage : (addr.toNat - r.addr) / pageSize < r.size / pageSize)
    {env : Env} {wake : Wake} {w : Machine}
    (hserve : s.buffer.serveFault id (addr.toNat - r.addr) flags env = .ok (wake, w)) :
    s.handleUserfault addr flags env = .ok (wake, { s.toClientManager with
      buffer := w
      blocks := (r.segid, false) :: (r.segid, true) :: s.blocks }) := by
  rw [ClientManager.handleUserfault, h.faultTarget_of_page hr hle hpage]
  dsimp only
  rw [hserve]
  rfl

/-- The fault of an access is served, and the access goes through then. -/
theorem Damanager.Reachable.handleUserfault_of_faults
    (h : Damanager.Reachable nrPagesRam nrPagesSwap files s)
    (hram : 0 < nrPagesRam) (hsum : nrPagesRam + nrPagesSwap < 2 ^ 64)
    (hr : s.regions.find? id = some r) (hle : r.addr ≤ addr.toNat)
    (hpage : (addr.toNat - r.addr) / pageSize < r.size / pageSize)
    (hfault : s.buffer.Faults (r.pageAddr addr) write flags) (env : Env) :
    ∃ wake w', s.buffer.serveFault id (addr.toNat - r.addr) flags env = .ok (wake, w') ∧
      w'.Permits (r.pageAddr addr) write ∧
      s.handleUserfault addr flags env = .ok (wake, { s.toClientManager with
        buffer := w'
        blocks := (r.segid, false) :: (r.segid, true) :: s.blocks }) := by
  have hintact := h.intact
  obtain ⟨R, hR, hoff, hstart⟩ := hintact.agrees.page hr hpage
  rw [← hstart] at hfault
  obtain ⟨wake, w', hserve, hpermits⟩ :=
    Machine.serveFault_permits hintact.reach hram hsum hR hoff hfault env
  rw [hstart] at hpermits
  exact ⟨wake, w', hserve, hpermits, h.handleUserfault_of_serveFault hr hle hpage hserve⟩

/-- The clients share one memory.  In a lossless run of the whole manager, a page that
a client can read at an address of a mapped region holds what was last stored to it, by
whatever client, or what it held when the region was made. -/
theorem clients_share_memory
    (h : Runs Action.exec (fun s action => action.Lossless s)
      (Damanager.init nrPagesRam nrPagesSwap files) s)
    (hr : s.regions.find? id = some r)
    (hpage : (addr.toNat - r.addr) / pageSize < r.size / pageSize) {m : Mapping}
    (hm : s.buffer.vm (r.pageAddr addr) = some m) :
    s.buffer.shm m.frame = flat s.buffer.trace (id, (addr.toNat - r.addr) / pageSize) := by
  obtain ⟨hsound, hreach⟩ := Damanager.sound_of_lossless h
  obtain ⟨R, hR, hoff, hstart⟩ := hreach.intact.agrees.page hr hpage
  rw [← hstart] at hm
  exact hsound.shm_of_mapped (Book.addr?_of_pte hR (List.getElem?_eq_getElem hoff)) hm

/-- A process makes region `1` with three pages and stores to the first one.  There are
two frames, and the page is evicted and read again. -/
def evictedPage : List Action :=
  [.connect 7,
    .call 7 (.alloc 1 0x1000 (3 * pageSize) true) { create := { reserve := some 0x40000000 } },
    .userfault 0x40000010 { write := true } {}, .store ⟨(1, 0), ⟨5, by decide⟩, 120⟩,
    .userfault 0x40200000 { write := true } {}, .userfault 0x40400000 { write := true } {},
    .userfault 0x40000010 {} {}]

/-- No read fault of a page that is there. -/
def Action.notStale (s : Damanager) : Action → Bool
  | .userfault addr flags _ => (s.faultTarget addr).all fun target =>
      !(flags.isMissing && s.buffer.staleRead target.1 target.2.1 flags.isWrite)
  | _ => true

theorem evictedPage_lossless {action : Action} (h : action ∈ evictedPage) {s : Damanager}
    (hstale : action.notStale s = true) : action.Lossless s := by
  have hio : Env.WholePages {} := ⟨rfl, fun _ => rfl⟩
  have hfault : ∀ {addr flags}, (Action.userfault addr flags {}).notStale s = true →
      (Action.userfault addr flags {}).Lossless s := by
    refine fun hstale => ⟨hio, fun id off r htarget => ?_⟩
    rw [Action.notStale, htarget] at hstale
    simpa only [Option.all_some, Bool.not_eq_true'] using hstale
  simp only [evictedPage, List.mem_cons, List.not_mem_nil, or_false] at h
  rcases h with rfl | rfl | rfl | rfl | rfl | rfl | rfl
  · trivial
  · exact ⟨⟨rfl, fun _ => rfl⟩, hio, hio⟩
  · exact hfault hstale
  · trivial
  · exact hfault hstale
  · exact hfault hstale
  · exact hfault hstale

/-- The page was in the first frame and is in the second one now. -/
theorem clients_share_memory_evicted : ∃ (s : Damanager) (m : Mapping),
    s.buffer.vm 0x40000000 = some m ∧ m.frame = 1 ∧ s.buffer.shm 1 ⟨5, by decide⟩ = 120 ∧
      s.buffer.shm m.frame = flat s.buffer.trace (1, 0) := by
  have hrun : reaches Action.exec (fun s action => action.notStale s)
      (fun s => ((s.buffer.vm 0x40000000).any fun m => decide (m.frame = 1)) &&
        decide (s.buffer.shm 1 ⟨5, by decide⟩ = 120) && (s.regions.find? 1).any fun r =>
          decide (r.addr = 0x40000000) && decide (r.size = 3 * pageSize))
      evictedPage (.init 2 1 .empty) = true := by
    decide +kernel
  obtain ⟨s, hs, htest⟩ : ∃ s, Runs Action.exec (fun s action => action.Lossless s)
      (Damanager.init 2 1 .empty) s ∧ _ :=
    Runs.of_reaches hrun fun _ haction _ hstale => evictedPage_lossless haction hstale
  simp only [Bool.and_eq_true, Option.any_eq_true, decide_eq_true_eq] at htest
  obtain ⟨⟨⟨m, hm, hframe⟩, hbyte⟩, r, hr, haddr, hsize⟩ := htest
  have hpage : ((0x40000000 : UInt64).toNat - r.addr) / pageSize < r.size / pageSize := by
    rw [haddr, hsize]
    decide
  have hstart : r.pageAddr 0x40000000 = 0x40000000 := by
    rw [CmRegion.pageAddr, haddr]
    rfl
  have hread := clients_share_memory hs hr hpage (hstart.symm ▸ hm)
  refine ⟨s, m, hm, hframe, hbyte, hread.trans ?_⟩
  rw [haddr]
  rfl

end Results

end DASim
