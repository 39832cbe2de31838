import DASim.Buffer.Restart

/-!
# Page faults, write protection and dirty pages

The client manager stands between the kernel and the buffer manager.  It turns
a page fault into a call of `unfix` or `mark_dirty` and then changes the write
protection as the result asks for, and it protects the pages of a range before
it has them persisted.  `serveFault` and `persistRange` are these two sequences.
Faults of the segment are blocked meanwhile, so no store comes between a page
being mapped and its protection.

A page of a persistent region that is not dirty is never written to its file.
That is only right if the file has its bytes and the next store raises a fault.
One path breaks this: `unfix` on a page that is already there assigns
`page.dirty = write`, so a read fault that comes late declares a page clean that
a client is writing to.  Without such faults no store is lost.
-/

namespace DASim

/-! ## Serving a fault -/

/-- The bits of `msg.arg.pagefault.flags`. -/
structure PagefaultFlags where
  write : Bool := false
  wp : Bool := false
  minor : Bool := false
deriving DecidableEq, Repr

namespace PagefaultFlags

/-- The local `major` of `handle_userfault`. -/
def isMajor (flags : PagefaultFlags) : Bool := !(flags.wp || flags.minor)

/-- The local `write` of `handle_userfault`. -/
def isWrite (flags : PagefaultFlags) : Bool := flags.wp || flags.write

/-- Whether the fault goes to `unfix`. -/
def isMissing (flags : PagefaultFlags) : Bool := flags.isMajor || flags.minor

end PagefaultFlags

/-- A range of addresses whose waiting threads are woken. -/
structure Wake where
  start : Nat
  size : Nat
deriving DecidableEq, Repr

namespace Machine

/-- The part of `handle_userfault` between blocking and unblocking the faults
of the segment. -/
def serveFault (id off : Nat) (flags : PagefaultFlags) (env : Env) (w : Machine) :
    Except Fault (Wake × Machine) :=
  if flags.isMissing then do
    let (result, w) ← w.unfix id off flags.isWrite env
    return (⟨result.start, result.size⟩,
      if result.writeprotect then w.writeprotect result.start true else w)
  else if flags.isWrite then do
    let (result, w) ← w.markDirty id off
    return (⟨result.start, result.size⟩,
      if result.writeunprotect then w.writeprotect result.start false else w)
  else .ok (⟨0, 0⟩, w)

/-- The loop of `client_manager::persist` that protects page after page from
`addr` on.  Clients go on storing to pages whose turn has not come. -/
def protectPages (addr : Nat) (env : Env) : List Nat → Machine → Machine
  | [], w => w
  | i :: is, w =>
      protectPages addr env is
        ((w.interfere (env.stores i)).writeprotect (addr + i * pageSize) true)

/-- `client_manager::persist` from the call of `can_persist` on, for a region at
`addr`.  The first environment is that of the loop. -/
def persistRange (id addr off size : Nat) (env env' : Env) (w : Machine) :
    Except Fault (Except Errno Unit × Machine) :=
  match w.canPersist id off size with
  | .error e => .ok (.error e, w)
  | .ok () => do
      let w := w.protectPages (addr + off) env (List.range ((size + pageSize - 1) / pageSize))
      let w ← w.persist id off size env'
      return (.ok (), w)

end Machine

/-! ## Runs of the manager -/

/-- What the client manager has the buffer manager do. -/
inductive ManagerOp where
  | allocate (id size : Nat) (persistent : Bool) (env : Env)
  | free (id : Nat) (env : Env)
  | anchor (id : Nat)
  | unanchor (id : Nat)
  | getAnchoredRegion (id : Nat) (env : Env)
  | persist (id off size : Nat) (env env' : Env)
  | userfault (id off : Nat) (flags : PagefaultFlags) (env : Env)
  | store (st : Store)

namespace ManagerOp

def exec : ManagerOp → Machine → Except Fault Machine
  | .allocate id size persistent env, w => .ok (w.allocate id size persistent env).2
  | .free id env, w => w.free id env
  | .anchor id, w => .ok (w.anchor id).2
  | .unanchor id, w => .ok (w.unanchor id).2
  | .getAnchoredRegion id env, w => .ok (w.getAnchoredRegion id env).2
  | .persist id off size env env', w =>
      match w.regions.find? id with
      | none => .ok w
      | some r => do
          let (_, w) ← w.persistRange id r.addr off size env env'
          return w
  | .userfault id off flags env, w => do
      let (_, w) ← w.serveFault id off flags env
      return w
  | .store st, w => .ok (w.clientStore st)

/-- Transfers move whole pages. -/
def WholePages : ManagerOp → Prop
  | .allocate _ _ _ env => env.WholePages
  | .free _ env => env.WholePages
  | .persist _ _ _ _ env => env.WholePages
  | .userfault _ _ _ env => env.WholePages
  | _ => True

/-- A read fault is dispatched on a dirty page of a persistent region that is
already there. -/
def staleRead (w : Machine) : ManagerOp → Bool
  | .userfault id off flags _ => flags.isMissing && w.staleRead id off flags.isWrite
  | _ => false

end ManagerOp

namespace Machine

variable {all : Bool} {w w' : Machine} {nrPagesRam nrPagesSwap id off size : Nat} {k : PageKey}
  {env env' : Env} {files : OrdMap Nat PersFile}

/-! ## Write protection -/

theorem ProtectedAt.writeprotect (h : w.ProtectedAt k) (addr : Nat) :
    (w.writeprotect addr true).ProtectedAt k := by
  intro s p a hs hfd hp hclean ha
  have hvm := h s p a hs hfd hp hclean ha
  rw [writeprotect_vm]
  split
  next => rw [hvm]; rfl
  next => exact hvm

/-- A page that was just protected is protected. -/
theorem Laid.writeprotect_vm {a p : Nat} (hw : w.Laid) (ha : w.addr? k = some a)
    (hp : w.frameOf k = some p) : (w.writeprotect a true).vm a = some ⟨p, true⟩ := by
  have hmap := hw.mapped k a ha
  rw [hp] at hmap
  obtain ⟨m, hm, rfl⟩ := Option.map_eq_some_iff.mp hmap
  rw [Machine.writeprotect_vm, if_pos rfl, hm]
  rfl

theorem Sound.protect (h : w.Sound all nrPagesRam nrPagesSwap) (addr : Nat) :
    (w.writeprotect addr true).Sound all nrPagesRam nrPagesSwap where
  owned := h.owned
  laid := writeprotect_laid h.laid addr true
  prot := fun ha k => (h.prot ha k).writeprotect addr
  placed := h.placed

/-- The protection of a dirty page can be lifted. -/
theorem Sound.unprotect {a p : Nat} (h : w.Sound all nrPagesRam nrPagesSwap)
    (ha : w.addr? k = some a) (hp : w.frameOf k = some p) (hdirty : (w.pageInfos p).dirty = true) :
    (w.writeprotect a false).Sound all nrPagesRam nrPagesSwap where
  owned := h.owned
  laid := writeprotect_laid h.laid a false
  prot := by
    intro hall k' s q a' hs hfd hq hclean ha'
    have hne : a' ≠ a := by
      rintro rfl
      cases h.laid.ranges.addr?_inj ha' ha
      cases hp.symm.trans hq
      cases hdirty.symm.trans hclean
    rw [Machine.writeprotect_vm, if_neg hne]
    exact h.prot hall k' s q a' hs hfd hq hclean ha'
  placed := h.placed

/-! ## A fault and a persist request lose nothing -/

theorem Sound.serveFault {flags : PagefaultFlags} {wake : Wake}
    (h : w.Sound all nrPagesRam nrPagesSwap) (hio : env.WholePages)
    (hstale : all = true → (flags.isMissing && w.staleRead id off flags.isWrite) = false)
    (hserve : w.serveFault id off flags env = .ok (wake, w')) :
    w'.Sound all nrPagesRam nrPagesSwap := by
  unfold Machine.serveFault at hserve
  split at hserve
  next hmissing =>
    obtain ⟨⟨res, w₁⟩, hunfix, hserve⟩ := ok_of_bind hserve
    cases hserve
    have howned := unfix_owned h.owned hunfix
    obtain ⟨hlaid, hshape⟩ := unfix_laid h.owned h.laid hunfix
    obtain ⟨hplaced, hprot⟩ := h.unfix hio (fun ha => by simpa [hmissing] using hstale ha) hunfix
    cases hwp : res.writeprotect with
    | false =>
        refine ⟨howned, hlaid, fun ha k => ?_, hplaced⟩
        rcases hprot ha k with ⟨-, hyes⟩ | hk
        · rw [hwp] at hyes
          cases hyes
        · exact hk
    | true =>
        refine ⟨howned, writeprotect_laid hlaid _ _, fun ha k => ?_, hplaced⟩
        rcases hprot ha k with ⟨hk, -⟩ | hk
        · -- the page that came in is the one the result names
          intro s p a _ _ hp _ hka
          obtain ⟨r, e, hr, he, hres⟩ := unfix_cases hunfix
          have hstart : res.start = r.pageAddr (off / pageSize) := by
            rcases hres with ⟨q, -, -, rfl⟩ | ⟨-, q, w₂, -, -, rfl⟩
            · rfl
            · rfl
          have haddr : w.addr? (id, off / pageSize) = some (r.pageAddr (off / pageSize)) :=
            Book.addr?_of_pte hr he
          have hka : w₁.addr? k = some a := hka
          rw [← Book.addr?_congr hshape, ← hk, hka] at haddr
          cases haddr
          rw [hstart]
          exact hlaid.writeprotect_vm hka hp
        · exact hk.writeprotect res.start
  next =>
    split at hserve
    next =>
      obtain ⟨⟨res, w₁⟩, hmark, hserve⟩ := ok_of_bind hserve
      cases hserve
      obtain ⟨r, e, hr, he, ⟨p, rfl, rfl, rfl⟩ | ⟨-, rfl, rfl⟩⟩ := markDirty_cases hmark
      · have hset := h.setDirty (p := p) (d := true) (by simp)
        have haddr : w.addr? (id, off / pageSize) = some (r.pageAddr (off / pageSize)) :=
          Book.addr?_of_pte hr he
        have hframe : w.frameOf (id, off / pageSize) = some p :=
          Book.frameOf_eq_some.mpr (Book.pte_eq_some.mpr ⟨r, hr, he⟩)
        exact hset.unprotect haddr hframe ((Book.dirty_setDirty _ _ _ _).trans (if_pos rfl))
      · exact h
    next =>
      cases hserve
      exact h

/-- What protecting one page keeps, the loop keeps. -/
theorem protectPages_invariant {P : Machine → Prop} {addr : Nat} {env : Env}
    (hround : ∀ {i : Nat} {w : Machine}, P w →
      P ((w.interfere (env.stores i)).writeprotect (addr + i * pageSize) true))
    {is : List Nat} {w : Machine} (h : P w) : P (w.protectPages addr env is) := by
  induction is generalizing w with
  | nil => exact h
  | cons i is ih => exact ih (hround h)

theorem protectPages_toBook (addr : Nat) (env : Env) (is : List Nat) (w : Machine) :
    (w.protectPages addr env is).toBook = w.toBook :=
  protectPages_invariant (P := fun v => v.toBook = w.toBook)
    (fun hbook => (interfere_toBook _ _).trans hbook) rfl

theorem Sound.protectPages {addr : Nat} {is : List Nat} {w : Machine}
    (h : w.Sound all nrPagesRam nrPagesSwap) :
    (w.protectPages addr env is).Sound all nrPagesRam nrPagesSwap :=
  protectPages_invariant (P := fun v => v.Sound all nrPagesRam nrPagesSwap)
    (fun hv => (hv.interfere _).protect _) h

/-- A page that is protected stays so while other pages are being protected. -/
theorem protectPages_vm_of_wp {addr a p : Nat} {is : List Nat} {w : Machine}
    (h : w.vm a = some ⟨p, true⟩) : (w.protectPages addr env is).vm a = some ⟨p, true⟩ := by
  refine protectPages_invariant (P := fun v => v.vm a = some ⟨p, true⟩) (fun hv => ?_) h
  rw [writeprotect_vm, interfere_vm, hv]
  split
  · rfl
  · rfl

theorem protectPages_vm {addr j p : Nat} {is : List Nat} {w : Machine} (hw : w.Laid) (hj : j ∈ is)
    (ha : w.addr? k = some (addr + j * pageSize)) (hp : w.frameOf k = some p) :
    (w.protectPages addr env is).vm (addr + j * pageSize) = some ⟨p, true⟩ := by
  induction is generalizing w with
  | nil => cases hj
  | cons i is ih =>
      have hw' := interfere_laid hw (env.stores i)
      have hbook := interfere_toBook w (env.stores i)
      rw [protectPages]
      rcases List.mem_cons.mp hj with rfl | hj
      · refine protectPages_vm_of_wp (hw'.writeprotect_vm (k := k) ?_ ?_)
        · rw [hbook]
          exact ha
        · rw [hbook]
          exact hp
      · refine ih (writeprotect_laid hw' _ _) hj ?_ ?_
        · show (w.interfere (env.stores i)).addr? k = _
          rw [hbook]
          exact ha
        · show (w.interfere (env.stores i)).frameOf k = _
          rw [hbook]
          exact hp

/-- What `persist` writes out was protected before. -/
theorem protectPages_wpPages {r : Region} (hw : w.Laid) (hr : w.regions.find? id = some r)
    (hcan : w.canPersist id off size = .ok ()) :
    (w.protectPages (r.addr + off) env (List.range ((size + pageSize - 1) / pageSize))).WpPages id
      (List.range' (off / pageSize) (size / pageSize - off / pageSize)) := by
  intro i hi p a hp ha
  rw [protectPages_toBook] at hp ha
  obtain ⟨s, hs, -, rfl⟩ := Book.addr?_eq_some.mp ha
  cases (Book.shape_of_find? hr).symm.trans hs
  obtain ⟨hlo, hhi⟩ := List.mem_range'_1.mp hi
  obtain ⟨-, -, -, -, hmod, -⟩ := canPersist_ok hcan
  have hoff : off / pageSize * pageSize = off :=
    Nat.div_mul_cancel (Nat.dvd_of_mod_eq_zero hmod)
  have hle : size / pageSize ≤ (size + pageSize - 1) / pageSize :=
    Nat.div_le_div_right (by have := pageSize_pos; omega)
  have hj : i - off / pageSize < (size + pageSize - 1) / pageSize :=
    (Nat.sub_lt_left_of_lt_add hlo hhi).trans_le ((Nat.sub_le _ _).trans hle)
  have haddr : r.addr + i * pageSize = r.addr + off + (i - off / pageSize) * pageSize := by
    have hsplit : i * pageSize = off / pageSize * pageSize + (i - off / pageSize) * pageSize := by
      rw [← Nat.add_mul]
      congr 1
      omega
    omega
  show Machine.vm _ (r.addr + i * pageSize) = _
  rw [haddr]
  refine protectPages_vm hw (List.mem_range.mpr hj) ?_ hp
  rw [← haddr]
  exact ha

theorem Sound.persistRange {r : Region} {res : Except Errno Unit}
    (h : w.Sound all nrPagesRam nrPagesSwap) (hr : w.regions.find? id = some r)
    (hio : env'.WholePages)
    (hrun : w.persistRange id r.addr off size env env' = .ok (res, w')) :
    w'.Sound all nrPagesRam nrPagesSwap := by
  unfold Machine.persistRange at hrun
  split at hrun
  next =>
    cases hrun
    exact h
  next hcan =>
    obtain ⟨w₁, hpersist, hrun⟩ := ok_of_bind hrun
    cases hrun
    obtain ⟨r', -, hpersist⟩ := ok_of_bind hpersist
    refine h.protectPages.persistPtes hio ?_ (fun _ => protectPages_wpPages h.laid hr hcan) hpersist
    rw [protectPages_toBook]
    exact anon_of_canPersist hcan

/-- No operation loses a store, if it is not a stale read. -/
theorem Sound.exec {op : ManagerOp} (h : w.Sound all nrPagesRam nrPagesSwap) (hio : op.WholePages)
    (hstale : all = true → op.staleRead w = false) (hexec : op.exec w = .ok w') :
    w'.Sound all nrPagesRam nrPagesSwap := by
  cases op with
  | allocate id size persistent env =>
      cases hexec
      exact h.allocate hio rfl
  | free id env => exact h.free hexec
  | anchor id =>
      cases hexec
      exact anchor_invariant (P := Sound all nrPagesRam nrPagesSwap) h
        (fun _ _ _ => h.setAnchored true) rfl
  | unanchor id =>
      cases hexec
      exact unanchor_invariant (P := Sound all nrPagesRam nrPagesSwap) h
        (fun _ _ => h.setAnchored false) rfl
  | getAnchoredRegion id env =>
      cases hexec
      exact h.getAnchoredRegion rfl
  | persist id off size env env' =>
      rw [ManagerOp.exec] at hexec
      split at hexec
      next =>
        cases hexec
        exact h
      next r hr =>
        obtain ⟨⟨res, w₁⟩, hrange, hexec⟩ := ok_of_bind hexec
        cases hexec
        exact h.persistRange hr hio hrange
  | userfault id off flags env =>
      obtain ⟨⟨wake, w₁⟩, hserve, hexec⟩ := ok_of_bind hexec
      cases hexec
      exact h.serveFault hio hstale hserve
  | store st =>
      cases hexec
      exact h.interfere [st]

end Machine

/-! ## No lost update -/

/-- In a run without stale reads, a clean page of a persistent region has the
bytes of the region's file and is write-protected.  Every page of the region,
clean or not, present or not, holds what clients stored, and the destructor
leaves that in the file. -/
theorem no_lost_update {nrPagesRam nrPagesSwap : Nat} {files : OrdMap Nat PersFile} {w : Machine}
    (h : Runs ManagerOp.exec (fun w op => op.WholePages ∧ op.staleRead w = false)
      (.init nrPagesRam nrPagesSwap files) w) {id i : Nat} {r : Region}
    (hr : w.regions.find? id = some r) (hpers : r.isAnon = false) (hi : i < r.ptes.length) :
    (∀ p, r.ptes[i]? = some (.present p) → (w.pageInfos p).dirty = false →
        w.shm p = w.readSlot r.swapfd i ∧ w.vm (r.pageAddr i) = some ⟨p, true⟩) ∧
      w.contents (id, i) = some (flat w.trace (id, i)) ∧
      ∀ env : Env, env.WholePages → ∃ w', w.destroy env = .ok w' ∧
        w'.readSlot r.swapfd i = flat w.trace (id, i) := by
  have hsound : w.Sound true nrPagesRam nrPagesSwap :=
    h.invariant (Machine.init_sound _ _ _ _) fun _ _ _ hs hop he =>
      hs.exec hop.1 (fun _ => hop.2) he
  have hfd : r.swapfd ≠ .swap := of_decide_eq_false hpers
  have hshape := Book.shape_of_find? hr
  have hget : r.ptes[i]? = some r.ptes[i] := List.getElem?_eq_getElem hi
  refine ⟨fun p hp hclean => ⟨?_, ?_⟩, ?_, fun env hio => ?_⟩
  · have hpte : w.pte (id, i) = some (.present p) := Book.pte_eq_some.mpr ⟨r, hr, hp⟩
    have hframe : w.shm p = flat w.trace (id, i) := hsound.placed (id, i) (.frame p)
      ⟨r.shape, _, hshape, hpte, Or.inl ⟨Or.inr rfl, rfl⟩⟩
    have hfile : w.read (r.swapfd.cell i) = flat w.trace (id, i) := hsound.placed (id, i) _
      ⟨r.shape, _, hshape, hpte, Or.inr ⟨hfd, rfl, ⟨p, rfl, hclean⟩, rfl⟩⟩
    rw [hframe, ← Machine.read_cell, hfile]
  · have hpte : w.pte (id, i) = some (.present p) := Book.pte_eq_some.mpr ⟨r, hr, hp⟩
    exact hsound.prot rfl (id, i) r.shape p _ hshape hfd (Book.frameOf_eq_some.mpr hpte) hclean
      ((Book.addr?_of_find? hr).trans (if_pos hi))
  · rw [Machine.contents, hr, Option.bind_some, hget, Option.map_some]
    exact congrArg some (hsound.placed (id, i) _ ⟨r.shape, _, hshape,
      Book.pte_eq_some.mpr ⟨r, hr, hget⟩, Or.inl ⟨Or.inr rfl, rfl⟩⟩)
  · obtain ⟨w', hrun, -, hfile⟩ :=
      Machine.destroy_placed hsound.owned hsound.laid.backed hsound.placed hio
    exact ⟨w', hrun, hfile id r i hr hpers hi⟩

/-- A page of region `1` comes in clean, is stored to and persisted. -/
def persistedStoreOps : List ManagerOp :=
  [.allocate 1 pageSize true { reserve := some 0x40000000 }, .userfault 1 0 {} {},
    .userfault 1 0 { wp := true } {}, .store ⟨(1, 0), ⟨0, pageSize_pos⟩, 120⟩,
    .persist 1 0 pageSize {} {}]

theorem no_lost_update_persisted : ∃ w, ∃ r : Region, ∃ p,
    Runs ManagerOp.exec (fun w op => op.WholePages ∧ op.staleRead w = false) (.init 2 0 .empty) w ∧
      w.regions.find? 1 = some r ∧ r.ptes[0]? = some (.present p) ∧
      w.shm p ⟨0, pageSize_pos⟩ = 120 ∧ w.shm p = w.readSlot r.swapfd 0 ∧
      w.vm (r.pageAddr 0) = some ⟨p, true⟩ := by
  have hops : reaches ManagerOp.exec (fun w op => !op.staleRead w)
      (fun w =>
        (w.regions.find? 1).any (fun r => !r.isAnon && decide (r.ptes[0]? = some (.present 0))) &&
        !(w.pageInfos 0).dirty && decide (w.shm 0 ⟨0, pageSize_pos⟩ = 120))
      persistedStoreOps (.init 2 0 .empty) = true := by decide +kernel
  obtain ⟨w, hrun, h⟩ : ∃ w,
      Runs ManagerOp.exec (fun w op => op.WholePages ∧ op.staleRead w = false)
      (.init 2 0 .empty) w ∧ _ := by
    refine Runs.of_reaches hops fun op hop s hs => ⟨?_, by simpa using hs⟩
    simp only [persistedStoreOps, List.mem_cons, List.not_mem_nil, or_false] at hop
    rcases hop with rfl | rfl | rfl | rfl | rfl
    all_goals first | trivial | exact ⟨rfl, fun _ => rfl⟩
  simp only [Bool.and_eq_true, Option.any_eq_true, decide_eq_true_eq, Bool.not_eq_true'] at h
  obtain ⟨⟨⟨r, hr, hpers, hpte⟩, hclean⟩, hbyte⟩ := h
  obtain ⟨hsaved, hwp⟩ := (no_lost_update hrun hr hpers
    (List.getElem?_eq_some_iff.mp hpte).1).1 0 hpte hclean
  exact ⟨w, r, 0, hrun, hr, hpte, hbyte, hsaved, hwp⟩

/-- A read fault and a write fault on the same page were both queued.  The
write fault is served first, and the client stores before the read fault is
served. -/
def staleReadOps : List ManagerOp :=
  [.allocate 1 pageSize true { reserve := some 0x40000000 }, .userfault 1 0 { write := true } {},
    .store ⟨(1, 0), ⟨0, pageSize_pos⟩, 120⟩, .userfault 1 0 {} {}]

theorem stale_read_loses_store : ∃ w, ∃ r : Region, ∃ p,
    Runs ManagerOp.exec (fun _ op => op.WholePages) (.init 2 0 .empty) w ∧
      w.regions.find? 1 = some r ∧ r.isAnon = false ∧ r.ptes[0]? = some (.present p) ∧
      (w.pageInfos p).dirty = false ∧ w.shm p ≠ w.readSlot r.swapfd 0 ∧
      w.vm (r.pageAddr 0) = some ⟨p, false⟩ := by
  have hops : reaches ManagerOp.exec (fun _ _ => true)
      (fun w => (w.regions.find? 1).any (fun r => !r.isAnon &&
          decide (r.ptes[0]? = some (.present 0)) &&
          decide (w.readSlot r.swapfd 0 ⟨0, pageSize_pos⟩ = 65) &&
          decide (w.vm (r.pageAddr 0) = some ⟨0, false⟩)) &&
        !(w.pageInfos 0).dirty && decide (w.shm 0 ⟨0, pageSize_pos⟩ = 120))
      staleReadOps (.init 2 0 .empty) = true := by decide +kernel
  obtain ⟨w, hrun, h⟩ : ∃ w,
      Runs ManagerOp.exec (fun _ op => op.WholePages) (.init 2 0 .empty) w ∧ _ := by
    refine Runs.of_reaches hops fun op hop s hs => ?_
    simp only [staleReadOps, List.mem_cons, List.not_mem_nil, or_false] at hop
    rcases hop with rfl | rfl | rfl | rfl
    all_goals first | trivial | exact ⟨rfl, fun _ => rfl⟩
  simp only [Bool.and_eq_true, Option.any_eq_true, decide_eq_true_eq, Bool.not_eq_true'] at h
  obtain ⟨⟨⟨r, hr, ⟨⟨hpers, hpte⟩, hslot⟩, hvm⟩, hclean⟩, hbyte⟩ := h
  refine ⟨w, r, 0, hrun, hr, hpers, hpte, hclean, fun heq => ?_, hvm⟩
  rw [heq, hslot] at hbyte
  cases hbyte

end DASim
