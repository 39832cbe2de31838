import DASim.Buffer.Transfer
import DASim.Client.Agreement

/-!
# Persisting while clients store

`client_manager::persist` protects the pages of the range, and then the buffer
manager copies the dirty ones to the file and clears their flags.  A page that
is protected takes no store before its next fault, so the copy is what the frame
still holds when the flag is cleared.  `Persisted` says what the loop of the
buffer manager does to every page, whatever the system transfers.

Two things go wrong.  The loop ends at page `size / PAGE_SIZE` and not at the
end of the range, so the last pages of a range that does not start at offset
zero are left out.  And the flag of a page is cleared also when its copy failed.
-/

namespace DASim

namespace Machine

variable {w w' : Machine} {nrPagesRam nrPagesSwap id : Nat} {env : Env} {is : List Nat}
  {k : PageKey}

/-! ## Protected pages -/

/-- The page is protected if it is present. -/
def WpAt (w : Machine) (k : PageKey) : Prop := ∀ p a,
  w.frameOf k = some p → w.addr? k = some a → w.vm a = some ⟨p, true⟩

/-- The frame of a protected page is mapped for writing nowhere. -/
theorem WpAt.unwritable {p : Nat} (h : w.WpAt k) (hf : w.Frames nrPagesRam [] w.frameOf)
    (hl : w.Laid) (hp : w.frameOf k = some p) :
    ∀ k' a, w.addr? k' = some a → w.vm a ≠ some ⟨p, false⟩ := by
  intro k' a ha hm
  have hk' : w.frameOf k' = some p := by
    rw [← hl.mapped k' a ha, hm]
    rfl
  cases hf.pool.inj _ _ _ hk' hp
  cases hm.symm.trans (h p a hp ha)

theorem WpAt.congr (h : w.WpAt k) (hreg : w'.regions = w.regions) (hvm : w'.vm = w.vm) :
    w'.WpAt k := by
  intro p a hp ha
  rw [Book.frameOf, Book.pte, hreg] at hp
  rw [Book.addr?, Book.shape, hreg] at ha
  rw [hvm]
  exact h p a hp ha

/-! ## What the loop does -/

/-- What persisting the pages `is` of a region does to every page. -/
structure Persisted (id : Nat) (env : Env) (is : List Nat) (w w' : Machine) : Prop where
  regions : w'.regions = w.regions
  vm : w'.vm = w.vm
  slots : ∀ fd j, (fd = .pers id → j ∉ is) → w'.readSlot fd j = w.readSlot fd j
  flags : ∀ k p, w.frameOf k = some p → (k.1 = id → k.2 ∉ is) →
    (w'.pageInfos p).dirty = (w.pageInfos p).dirty
  bytes : ∀ k p, w.frameOf k = some p → w.WpAt k → w'.shm p = w.shm p
  copies : ∀ j ∈ is, ∀ p, w.frameOf (id, j) = some p → (w'.pageInfos p).dirty = false ∧
    w'.readSlot (.pers id) j = if (w.pageInfos p).dirty
      then pwriteLoop (w.shm p) (env.pwrites j) 0 (w.readSlot (.pers id) j)
      else w.readSlot (.pers id) j

theorem Persisted.frameOf (h : Persisted id env is w w') : w'.frameOf = w.frameOf := by
  funext k
  rw [Book.frameOf, Book.frameOf, Book.pte, Book.pte, h.regions]

theorem Persisted.refl (id : Nat) (env : Env) (w : Machine) : Persisted id env [] w w :=
  ⟨rfl, rfl, fun _ _ _ => rfl, fun _ _ _ _ => rfl, fun _ _ _ _ => rfl, fun _ hj => by cases hj⟩

theorem persistPte_persisted {i : Nat} (hf : w.Frames nrPagesRam [] w.frameOf) (hl : w.Laid)
    (hpers : w.anon id = false) (h : w.persistPte id i env = .ok w') :
    Persisted id env [i] w w' := by
  obtain ⟨hreg, hvm⟩ := persistPte_kept h
  obtain ⟨r, e, hr, he, ⟨rfl, hclean⟩ | ⟨p, w₁, rfl, hdirty, hw₁, hw'⟩⟩ := persistPte_cases h
  · refine ⟨rfl, rfl, fun _ _ _ => rfl, fun _ _ _ _ => rfl, fun _ _ _ _ => rfl,
      fun j hj p hp => ?_⟩
    rw [List.mem_singleton] at hj
    subst hj
    obtain ⟨r', hr', he'⟩ := Book.pte_eq_some.mp (Book.frameOf_eq_some.mp hp)
    cases hr.symm.trans hr'
    cases he.symm.trans he'
    rw [hclean p rfl]
    exact ⟨rfl, rfl⟩
  · rw [Book.anon_of_find? hr] at hpers
    have hfd : r.swapfd = .pers id := hl.backed.swapfd_eq hr hpers
    have hfile : w.HasFile r.swapfd := HasFile.of_backed hl.backed hr
    have hown : w.frameOf (id, i) = some p :=
      Book.frameOf_eq_some.mpr (Book.pte_eq_some.mpr ⟨r, hr, he⟩)
    have hflags : ∀ q, (w'.pageInfos q).dirty = if q = p then false else (w.pageInfos q).dirty := by
      intro q
      rw [hw', interfere_toBook]
      exact Book.dirty_setDirty _ _ _ _
    have hslot : w'.readSlot = (w.swapOutPageData p r.swapfd i (env.pwrites i)).readSlot := by
      rw [hw', interfere_readSlot]
      show w₁.readSlot = _
      rw [hw₁, interfere_readSlot]
    refine ⟨hreg, hvm, fun fd j hj => ?_, fun k q hq hk => ?_, fun k q hq hwp => ?_,
      fun j hj q hq => ?_⟩
    · have hne : fd.cell j ≠ r.swapfd.cell i := by
        rw [hfd]
        intro heq
        cases fd with
        | swap => cases heq
        | pers id' =>
            cases heq
            exact hj rfl List.mem_cons_self
      rw [hslot, ← read_cell, ← read_cell, swapOutPageData, read_writeSlot hfile,
        Function.update_of_ne hne]
    · have hne : q ≠ p := by
        rintro rfl
        cases hf.pool.inj _ _ _ hq hown
        exact hk rfl List.mem_cons_self
      rw [hflags, if_neg hne]
    · -- the stores of the round find the page protected
      have hunw := hwp.unwritable hf hl hq
      have hfirst : w₁.shm q = w.shm q := by
        rw [hw₁, interfere_shm, swapOutPageData_shm]
        rw [swapOutPageData_toBook, swapOutPageData_vm]
        exact hunw
      rw [hw', interfere_shm]
      · exact hfirst
      · rw [hw₁, interfere_vm, swapOutPageData_vm]
        exact hunw
    · rw [List.mem_singleton] at hj
      subst hj
      cases hown.symm.trans hq
      rw [hflags, if_pos rfl, hslot, if_pos hdirty, ← hfd, readSlot_swapOutPageData hfile]
      exact ⟨rfl, rfl⟩

/-- The loop does to each of its pages what one round does. -/
theorem persistPtes_persisted {w w' : Machine} (ho : w.Owned nrPagesRam nrPagesSwap) (hl : w.Laid)
    (hpers : w.anon id = false) (hwp : w.WpPages id is) (hnodup : is.Nodup)
    (h : w.persistPtes id env is = .ok w') : Persisted id env is w w' := by
  induction is generalizing w with
  | nil =>
      cases h
      exact .refl id env _
  | cons i is ih =>
      obtain ⟨w₁, hpte, h⟩ := ok_of_bind h
      obtain ⟨hi, hnodup⟩ := List.nodup_cons.mp hnodup
      have hone := persistPte_persisted ho.frames hl hpers hpte
      have hrest : Persisted id env is w₁ w' := by
        refine ih (persistPte_owned ho hpte) (persistPte_laid hl hpte) ?_ (fun j hj => ?_) hnodup h
        · rw [Book.anon, hone.regions]
          exact hpers
        · exact WpAt.congr (hwp j (List.mem_cons_of_mem _ hj)) hone.regions hone.vm
      have hframe : w₁.frameOf = w.frameOf := hone.frameOf
      have hcong {k : PageKey} (hk : w.WpAt k) : w₁.WpAt k := hk.congr hone.regions hone.vm
      refine ⟨hrest.regions.trans hone.regions, hrest.vm.trans hone.vm, fun fd j hj => ?_,
        fun k q hq hk => ?_, fun k q hq hk => ?_, fun j hj q hq => ?_⟩
      · have hfirst := hone.slots fd j fun hid hij => hj hid (by simp [List.mem_singleton.mp hij])
        exact (hrest.slots fd j fun hid hij => hj hid (List.mem_cons_of_mem _ hij)).trans hfirst
      · have hfirst := hone.flags k q hq fun hid hij => hk hid (by simp [List.mem_singleton.mp hij])
        exact (hrest.flags k q (hframe ▸ hq) fun hid hij =>
          hk hid (List.mem_cons_of_mem _ hij)).trans hfirst
      · exact (hrest.bytes k q (hframe ▸ hq) (hcong hk)).trans (hone.bytes k q hq hk)
      · rcases List.mem_cons.mp hj with rfl | hj'
        · obtain ⟨hclean, hslot⟩ := hone.copies j List.mem_cons_self q hq
          rw [hrest.flags (id, j) q (hframe ▸ hq) fun _ => hi, hrest.slots (.pers id) j fun _ => hi]
          exact ⟨hclean, hslot⟩
        · -- the first round neither stored to the page nor declared it clean
          have hne : j ∉ [i] := by
            rw [List.mem_singleton]
            rintro rfl
            exact hi hj'
          obtain ⟨hclean, hslot⟩ := hrest.copies j hj' q (hframe ▸ hq)
          rw [hone.flags (id, j) q hq fun _ => hne, hone.slots (.pers id) j fun _ => hne,
            hone.bytes (id, j) q hq (hwp j hj)] at hslot
          exact ⟨hclean, hslot⟩

/-- The loop stays inside the region. -/
theorem persistPtes_exists {r : Region} {w : Machine} (hr : w.regions.find? id = some r)
    (his : ∀ i ∈ is, i < r.ptes.length) : ∃ w', w.persistPtes id env is = .ok w' := by
  induction is generalizing w with
  | nil => exact ⟨w, rfl⟩
  | cons i is ih =>
      have he := List.getElem?_eq_getElem (his i List.mem_cons_self)
      obtain ⟨w₁, hpte⟩ : ∃ w₁, w.persistPte id i env = .ok w₁ := by
        rw [persistPte, Book.regionAt_eq_ok.mpr hr]
        simp only [bind, Except.bind, Region.getPte_eq_ok.mpr he]
        split
        · split <;> exact ⟨_, rfl⟩
        · exact ⟨_, rfl⟩
      rw [persistPtes, hpte]
      exact ih ((persistPte_kept hpte).1 ▸ hr) fun j hj => his j (List.mem_cons_of_mem _ hj)

/-! ## The loop that protects -/

theorem protectPages_readSlot (addr : Nat) (env : Env) (is : List Nat) (w : Machine) :
    (w.protectPages addr env is).readSlot = w.readSlot :=
  protectPages_invariant (P := fun v => v.readSlot = w.readSlot)
    (fun hslot => (interfere_readSlot _ _).trans hslot) rfl

theorem protectPages_laid {addr : Nat} (hl : w.Laid) : (w.protectPages addr env is).Laid :=
  protectPages_invariant (P := Laid) (fun hv => writeprotect_laid (interfere_laid hv _) _ _) hl

/-- A page that is protected stays so, and keeps its bytes. -/
theorem protectPages_wpAt (addr : Nat) (env : Env) (is : List Nat)
    (hf : w.Frames nrPagesRam [] w.frameOf) (hl : w.Laid)
    (h : w.WpAt k) : (w.protectPages addr env is).WpAt k ∧
      ∀ p, w.frameOf k = some p → (w.protectPages addr env is).shm p = w.shm p := by
  refine (protectPages_invariant (P := fun v => v.toBook = w.toBook ∧ v.Laid ∧ v.WpAt k ∧
    ∀ p, w.frameOf k = some p → v.shm p = w.shm p) (fun {i v} hv => ?_)
    ⟨rfl, hl, h, fun _ _ => rfl⟩).2.2
  obtain ⟨hbook, hlaid, hwp, hshm⟩ := hv
  refine ⟨(interfere_toBook _ _).trans hbook, writeprotect_laid (interfere_laid hlaid _) _ _,
    fun p a hp ha => ?_, fun p hp => ?_⟩
  · rw [writeprotect_vm, interfere_vm]
    have hp : (v.interfere (env.stores i)).frameOf k = some p := hp
    have ha : (v.interfere (env.stores i)).addr? k = some a := ha
    rw [interfere_toBook] at hp ha
    rw [hwp p a hp ha]
    split
    · rfl
    · rfl
  · rw [← hshm p hp]
    rw [← hbook] at hf hp
    exact interfere_shm (hwp.unwritable hf hlaid hp) _

end Machine

/-! ## A persist request -/

namespace ClientManager

variable {cm cm' : ClientManager} {id off size : Nat} {env : CallEnv}

theorem persist_ok (h : cm.persist id off size env = .ok (.ok (), cm')) :
    ∃ r w, cm.regions.find? id = some r ∧ cm.buffer.canPersist id off size = .ok () ∧
      w = cm.buffer.protectPages (r.addr + off) env.protects
        (List.range ((size + pageSize - 1) / pageSize)) ∧
      w.persistPtes id env.persists
        (List.range' (off / pageSize) (size / pageSize - off / pageSize)) = .ok cm'.buffer := by
  obtain ⟨e, he, -⟩ | ⟨r, w, blocks, hr, hrange, rfl⟩ := persist_cases h
  · cases he
  · unfold Machine.persistRange at hrange
    split at hrange
    next => cases hrange
    next hcan =>
      obtain ⟨w₁, hpersist, hrange⟩ := ok_of_bind hrange
      cases hrange
      obtain ⟨r', -, hpersist⟩ := ok_of_bind hpersist
      exact ⟨r, _, hr, hcan, rfl, hpersist⟩

/-- The check of the client manager refuses nothing the buffer manager would
carry out. -/
theorem Agrees.range_ok {r : CmRegion} (ha : cm.Agrees) (hr : cm.regions.find? id = some r)
    (hcan : cm.buffer.canPersist id off size = .ok ()) :
    ¬(decide (r.size < off) || decide (r.size < (off + size) % 2 ^ 64)) = true := by
  obtain ⟨R, hR, -, hsize⟩ := ha.find? hr
  obtain ⟨R', hR', -, hfits, -⟩ := Machine.canPersist_ok hcan
  cases hR.symm.trans hR'
  have hmod := Nat.mod_le (off + size) (2 ^ 64)
  simp only [Bool.or_eq_true, decide_eq_true_eq, not_or]
  omega

/-- A request the buffer manager can carry out returns. -/
theorem persist_exists {r : CmRegion} (ha : cm.Agrees) (hr : cm.regions.find? id = some r)
    (hcan : cm.buffer.canPersist id off size = .ok ()) (env : CallEnv) :
    ∃ cm', cm.persist id off size env = .ok (.ok (), cm') := by
  obtain ⟨R, hR, -, hfits, -⟩ := Machine.canPersist_ok hcan
  obtain ⟨w, hprotect⟩ : ∃ w, cm.buffer.protectPages (r.addr + off) env.protects
      (List.range ((size + pageSize - 1) / pageSize)) = w := ⟨_, rfl⟩
  have hw : w.regions.find? id = some R := by
    rw [← hprotect, Machine.protectPages_toBook]
    exact hR
  obtain ⟨w', hloop⟩ : ∃ w', w.persistPtes id env.persists
      (List.range' (off / pageSize) (size / pageSize - off / pageSize)) = .ok w' := by
    refine Machine.persistPtes_exists hw fun i hi => ?_
    obtain ⟨hlo, hhi⟩ := List.mem_range'_1.mp hi
    have hle : size / pageSize ≤ R.size / pageSize := Nat.div_le_div_right (by omega)
    rw [R.nrPages]
    omega
  have hpersist : w.persist id off size env.persists = .ok w' := by
    rw [Machine.persist, Book.regionAt_eq_ok.mpr hw]
    exact hloop
  have hcall : cm.buffer.persistRange id r.addr off size env.protects env.persists =
      .ok (.ok (), w') := by
    simp only [Machine.persistRange, hcan, hprotect, hpersist]
    rfl
  refine ⟨{ cm with
    buffer := w'
    blocks := (asSegid id, false) :: (asSegid id, true) :: cm.blocks }, ?_⟩
  rw [persist, hr]
  show (if _ then _ else _) = _
  rw [if_neg (ha.range_ok hr hcan), hcall]
  rfl

/-- A request the buffer manager refuses is answered with an error. -/
theorem persist_refused {r : CmRegion} {e : Errno} (hr : cm.regions.find? id = some r)
    (hcan : cm.buffer.canPersist id off size = .error e) (env : CallEnv) :
    ∃ e', cm.persist id off size env = .ok (.error e', cm) := by
  rw [persist, hr]
  dsimp only
  split
  · exact ⟨_, rfl⟩
  · refine ⟨e, ?_⟩
    rw [Machine.persistRange, hcan]
    rfl

/-- The page indices the loop of `persist` runs over. -/
def covered (off size : Nat) : List Nat :=
  List.range' (off / pageSize) (size / pageSize - off / pageSize)

theorem mem_covered {i : Nat} :
    i ∈ covered off size ↔ off / pageSize ≤ i ∧ i < size / pageSize := by
  rw [covered, List.mem_range'_1]
  omega

/-- An accepted request protects the pages, and from there the loop does its
work. -/
theorem persist_persisted {nrPagesRam nrPagesSwap : Nat}
    (ho : cm.buffer.Owned nrPagesRam nrPagesSwap) (hl : cm.buffer.Laid) (ha : cm.Agrees)
    (h : cm.persist id off size env = .ok (.ok (), cm')) :
    ∃ r w, cm.buffer.regions.find? id = some r ∧ cm.buffer.canPersist id off size = .ok () ∧
      w = cm.buffer.protectPages (r.addr + off) env.protects
        (List.range ((size + pageSize - 1) / pageSize)) ∧
      w.WpPages id (covered off size) ∧
      Machine.Persisted id env.persists (covered off size) w cm'.buffer := by
  obtain ⟨r, w, hr, hcan, hw, hloop⟩ := persist_ok h
  obtain ⟨R, hR, haddr, -⟩ := ha.find? hr
  rw [← haddr] at hw
  have hbook : w.toBook = cm.buffer.toBook := hw ▸ Machine.protectPages_toBook _ _ _ _
  have hwp : w.WpPages id (covered off size) := hw ▸ Machine.protectPages_wpPages hl hR hcan
  have ho' : w.Owned nrPagesRam nrPagesSwap := by
    rw [hbook]
    exact ho
  refine ⟨R, w, hR, hcan, hw, hwp,
    Machine.persistPtes_persisted ho' ?_ ?_ hwp (List.nodup_range' ..) hloop⟩
  · rw [hw]
    exact Machine.protectPages_laid hl
  · rw [hbook]
    exact Machine.anon_of_canPersist hcan

end ClientManager

/-- A persist request on a mapped region returns, and it succeeds exactly if the
region is persistent and the range is made of whole pages, not empty and inside
the region.  Otherwise nothing changes.  The loop only looks at pages the region
has. -/
theorem persist_accepts_valid_ranges {nrPagesRam nrPagesSwap : Nat} {files : OrdMap Nat PersFile}
    {s : Damanager} (h : Damanager.Reachable nrPagesRam nrPagesSwap files s) {id : Nat}
    {r : CmRegion} (hr : s.regions.find? id = some r) (off size : Nat) (env : CallEnv) :
    ∃ R ret cm', s.buffer.regions.find? id = some R ∧
      s.toClientManager.persist id off size env = .ok (ret, cm') ∧
      (ret = .ok () ↔ R.isAnon = false ∧ 0 < size ∧ off % pageSize = 0 ∧ size % pageSize = 0 ∧
        off + size ≤ r.size) ∧
      (ret ≠ .ok () → cm' = s.toClientManager) ∧
      (ret = .ok () → ∀ i ∈ ClientManager.covered off size, i < R.ptes.length) := by
  obtain ⟨R, hR, -, hsize⟩ := h.intact.agrees.find? hr
  have hiff := Machine.canPersist_eq_ok off size hR
  cases hcan : s.buffer.canPersist id off size with
  | error e =>
      obtain ⟨e', hret⟩ := ClientManager.persist_refused hr hcan env
      rw [hcan, hsize] at hiff
      refine ⟨R, _, _, hR, hret, ?_, fun _ => rfl, fun hok => by cases hok⟩
      rw [← hiff]
      simp
  | ok u =>
      obtain ⟨cm', hret⟩ := ClientManager.persist_exists h.intact.agrees hr hcan env
      rw [hcan, hsize] at hiff
      refine ⟨R, _, cm', hR, hret, by rw [← hiff], fun hne => absurd rfl hne, fun _ i hi => ?_⟩
      have hvalid := hiff.mp rfl
      have hle : size / pageSize ≤ R.size / pageSize := Nat.div_le_div_right (by omega)
      have hlt := (ClientManager.mem_covered.mp hi).2
      rw [R.nrPages]
      omega

/-- A persistent region of two pages: its second page is accepted, and a range
whose end does not fit in 64 bits is not. -/
theorem persist_accepts_valid_ranges_ends : ∃ s cm' ret, Damanager.Reachable 2 1 .empty s ∧
    s.toClientManager.persist 1 pageSize pageSize {} = .ok (.ok (), cm') ∧
    s.toClientManager.persist 1 pageSize (2 ^ 64 - pageSize) {} = .ok (ret, s.toClientManager) ∧
      ret ≠ .ok () := by
  have hrun : reaches Action.exec (fun _ _ => true)
      (fun s => (s.regions.find? 1).any (fun r => r.size = 2 * pageSize) &&
        (s.buffer.regions.find? 1).any fun R => R.isAnon = false)
      [.connect 7, .call 7 (.alloc 1 0x1000 (2 * pageSize) true)
        { create := { reserve := some 0x40000000 } }] (.init 2 1 .empty) = true := by decide +kernel
  obtain ⟨s, hs, h⟩ : ∃ s, Damanager.Reachable 2 1 .empty s ∧ _ :=
    Runs.of_reaches hrun fun _ _ _ _ => trivial
  simp only [Bool.and_eq_true, Option.any_eq_true, decide_eq_true_eq] at h
  obtain ⟨⟨r, hr, hsize⟩, R, hR, hpers⟩ := h
  obtain ⟨R₁, ret₁, cm₁, hR₁, hret₁, hiff₁, -⟩ :=
    persist_accepts_valid_ranges hs hr pageSize pageSize {}
  obtain ⟨R₂, ret₂, cm₂, -, hret₂, hiff₂, hsame, -⟩ :=
    persist_accepts_valid_ranges hs hr pageSize (2 ^ 64 - pageSize) {}
  rw [hsize] at hiff₁ hiff₂
  cases hR.symm.trans hR₁
  have hok : ret₁ = .ok () := hiff₁.mpr ⟨hpers, by decide⟩
  have hne : ret₂ ≠ .ok () := fun hok => absurd (hiff₂.mp hok).2.2.2.2 (by decide)
  exact ⟨s, cm₁, ret₂, hs, hok ▸ hret₁, hsame hne ▸ hret₂, hne⟩

/-- A persist request that is answered with success writes every dirty page of
its range to the file and touches no other page, exactly when no page is dirty
that lies in the range and at or behind index `size / PAGE_SIZE`. -/
theorem persist_writes_range {nrPagesRam nrPagesSwap : Nat} {files : OrdMap Nat PersFile}
    {s : Damanager} (h : Damanager.Reachable nrPagesRam nrPagesSwap files s) {id off size : Nat}
    {env : CallEnv} (hio : env.persists.WholePages) {cm' : ClientManager}
    (hret : s.toClientManager.persist id off size env = .ok (.ok (), cm')) :
    ((∀ i p, off / pageSize ≤ i → i < (off + size) / pageSize →
          s.buffer.frameOf (id, i) = some p → (s.buffer.pageInfos p).dirty = true →
          cm'.buffer.readSlot (.pers id) i = cm'.buffer.shm p ∧
            (cm'.buffer.pageInfos p).dirty = false) ∧
        (∀ fd j, (fd = .pers id → ¬(off / pageSize ≤ j ∧ j < (off + size) / pageSize)) →
          cm'.buffer.readSlot fd j = s.buffer.readSlot fd j) ∧
        ∀ k p, (k.1 = id → ¬(off / pageSize ≤ k.2 ∧ k.2 < (off + size) / pageSize)) →
          s.buffer.frameOf k = some p →
          (cm'.buffer.pageInfos p).dirty = (s.buffer.pageInfos p).dirty) ↔
      ∀ i p, off / pageSize ≤ i → size / pageSize ≤ i → i < (off + size) / pageSize →
        s.buffer.frameOf (id, i) = some p → (s.buffer.pageInfos p).dirty = false := by
  have hreach := h.intact.reach
  obtain ⟨r, w, -, -, hw, hwp, hloop⟩ :=
    ClientManager.persist_persisted hreach.owned hreach.laid h.intact.agrees hret
  have hbook : w.toBook = s.buffer.toBook := hw ▸ Machine.protectPages_toBook _ _ _ _
  have hslot : w.readSlot = s.buffer.readSlot := hw ▸ Machine.protectPages_readSlot _ _ _ _
  have hle : size / pageSize ≤ (off + size) / pageSize :=
    Nat.div_le_div_right (Nat.le_add_left _ _)
  rw [← hbook, ← hslot]
  constructor
  · rintro ⟨hrange, -⟩ i p hlo hmiss hhi hp
    by_contra hdirty
    have hdirty : (w.pageInfos p).dirty = true := by simpa using hdirty
    have hsame := hloop.flags (id, i) p hp fun _ hi => by
      have := (ClientManager.mem_covered.mp hi).2
      omega
    rw [(hrange i p hlo hhi hp hdirty).2, hdirty] at hsame
    cases hsame
  · intro hmissed
    refine ⟨fun i p hlo hhi hp hdirty => ?_, fun fd j hj => ?_, fun k p hk hp => ?_⟩
    · have hi : i ∈ ClientManager.covered off size := by
        rw [ClientManager.mem_covered]
        refine ⟨hlo, ?_⟩
        by_contra hge
        rw [hmissed i p hlo (Nat.le_of_not_lt hge) hhi hp] at hdirty
        cases hdirty
      obtain ⟨hclean, hwritten⟩ := hloop.copies i hi p hp
      rw [if_pos hdirty, hio.2 i, pwriteLoop_eq (fun j hj => absurd hj (Nat.not_lt_zero _)) rfl,
        ← hloop.bytes (id, i) p hp (hwp i hi)] at hwritten
      exact ⟨hwritten, hclean⟩
    · refine hloop.slots fd j fun hfd hi => hj hfd ?_
      have := ClientManager.mem_covered.mp hi
      omega
    · refine hloop.flags k p hp fun hid hi => hk hid ?_
      have := ClientManager.mem_covered.mp hi
      omega

/-- A client writes to both pages of a persistent region. -/
def writtenActions : List Action :=
  [.connect 7,
    .call 7 (.alloc 1 0x1000 (2 * pageSize) true) { create := { reserve := some 0x40000000 } },
    .userfault 0x40000000 { write := true } {}, .userfault 0x40200000 { write := true } {}]

theorem persist_writes_range_whole : ∃ s cm', Damanager.Reachable 2 1 .empty s ∧
    s.toClientManager.persist 1 0 (2 * pageSize) {} = .ok (.ok (), cm') ∧
      s.buffer.frameOf (1, 1) = some 1 ∧ (s.buffer.pageInfos 1).dirty = true ∧
      cm'.buffer.readSlot (.pers 1) 1 = cm'.buffer.shm 1 ∧
      (cm'.buffer.pageInfos 1).dirty = false := by
  have hrun : reaches Action.exec (fun _ _ => true)
      (fun s => s.buffer.frameOf (1, 1) = some 1 && (s.buffer.pageInfos 1).dirty &&
        (s.toClientManager.persist 1 0 (2 * pageSize) {}).toOption.any fun out => out.1 = .ok ())
      writtenActions (.init 2 1 .empty) = true := by decide +kernel
  obtain ⟨s, hs, h⟩ : ∃ s, Damanager.Reachable 2 1 .empty s ∧ _ :=
    Runs.of_reaches hrun fun _ _ _ _ => trivial
  simp only [Bool.and_eq_true, Option.any_eq_true, decide_eq_true_eq] at h
  obtain ⟨⟨hp, hdirty⟩, ⟨res, cm'⟩, hret, hok⟩ := h
  cases hok
  have hret := eq_ok_of_toOption hret
  have hwritten := (persist_writes_range hs ⟨rfl, fun _ => rfl⟩ hret).mpr fun i p _ hlo hhi => by
    rw [Nat.zero_add] at hhi
    omega
  have hpage := hwritten.1 1 1 (by decide) (by decide) hp hdirty
  exact ⟨s, cm', hs, hret, hp, hdirty, hpage⟩

/-- A request to persist the second page is answered with success and does
nothing: the page is still dirty. -/
theorem persist_misses_second_page : ∃ s cm', Damanager.Reachable 2 1 .empty s ∧
    s.toClientManager.persist 1 pageSize pageSize {} = .ok (.ok (), cm') ∧
      s.buffer.frameOf (1, 1) = some 1 ∧ (s.buffer.pageInfos 1).dirty = true ∧
      (cm'.buffer.pageInfos 1).dirty = true := by
  have hrun : reaches Action.exec (fun _ _ => true)
      (fun s => s.buffer.frameOf (1, 1) = some 1 && (s.buffer.pageInfos 1).dirty &&
        (s.toClientManager.persist 1 pageSize pageSize {}).toOption.any fun out =>
          decide (out.1 = .ok ()) && (out.2.buffer.pageInfos 1).dirty)
      writtenActions (.init 2 1 .empty) = true := by decide +kernel
  obtain ⟨s, hs, h⟩ : ∃ s, Damanager.Reachable 2 1 .empty s ∧ _ :=
    Runs.of_reaches hrun fun _ _ _ _ => trivial
  simp only [Bool.and_eq_true, Option.any_eq_true, decide_eq_true_eq] at h
  obtain ⟨⟨hp, hdirty⟩, ⟨res, cm'⟩, hret, hok, hstill⟩ := h
  cases hok
  exact ⟨s, cm', hs, eq_ok_of_toOption hret, hp, hdirty, hstill⟩

/-! ## Clean pages -/

namespace Machine

variable {w : Machine} {id : Nat}

/-- Every clean present page of the region equals its slot in the file, and it
is protected. -/
def CleanPages (id : Nat) (w : Machine) : Prop := ∀ r i p, w.regions.find? id = some r →
  r.ptes[i]? = some (.present p) → (w.pageInfos p).dirty = false →
  w.shm p = w.readSlot r.swapfd i ∧ w.vm (r.pageAddr i) = some ⟨p, true⟩

theorem CleanPages.wpAt {r : Region} {i p : Nat} (h : w.CleanPages id)
    (hr : w.regions.find? id = some r) (he : r.ptes[i]? = some (.present p))
    (hclean : (w.pageInfos p).dirty = false) : w.WpAt (id, i) := by
  intro q a hq ha
  have hp : w.frameOf (id, i) = some p :=
    Book.frameOf_eq_some.mpr (Book.pte_eq_some.mpr ⟨r, hr, he⟩)
  cases hp.symm.trans hq
  cases (Book.addr?_of_pte (k := (id, i)) hr he).symm.trans ha
  exact (h r i p hr he hclean).2

/-- A region whose only page is dirty has no clean page. -/
theorem CleanPages.of_dirty {r : Region} {p : Nat} (hr : w.regions.find? id = some r)
    (hptes : r.ptes = [.present p]) (hdirty : (w.pageInfos p).dirty = true) :
    w.CleanPages id := by
  intro r' i q hr' he hclean
  cases hr.symm.trans hr'
  rw [hptes, List.getElem?_singleton] at he
  split at he
  next =>
    cases he
    cases hdirty.symm.trans hclean
  next => cases he

end Machine

theorem ClientManager.persist_error {cm cm' : ClientManager} {id off size : Nat} {env : CallEnv}
    {e : Errno} (h : cm.persist id off size env = .ok (.error e, cm')) :
    cm'.buffer = cm.buffer := by
  obtain ⟨-, -, rfl⟩ | ⟨r, w, blocks, -, hrange, rfl⟩ := persist_cases h
  · rfl
  · unfold Machine.persistRange at hrange
    split at hrange
    next =>
      cases hrange
      rfl
    next =>
      obtain ⟨w₁, -, hrange⟩ := ok_of_bind hrange
      cases hrange

/-- A request keeps clean pages equal to their slots and protected, when the
copies it makes succeed. -/
theorem ClientManager.persist_cleanPages {cm cm' : ClientManager} {nrPagesRam nrPagesSwap : Nat}
    {id off size : Nat} {env : CallEnv} {res : Except Errno Unit}
    (ho : cm.buffer.Owned nrPagesRam nrPagesSwap) (hl : cm.buffer.Laid) (ha : cm.Agrees)
    (hclean : cm.buffer.CleanPages id)
    (hok : ∀ i, failsAtStart (env.persists.pwrites i) 0 = false)
    (h : cm.persist id off size env = .ok (res, cm')) : cm'.buffer.CleanPages id := by
  cases res with
  | error e =>
      rw [persist_error h]
      exact hclean
  | ok u =>
      obtain ⟨r, w, hr, hcan, hw, hwp, hloop⟩ := persist_persisted ho hl ha h
      have hbook : w.toBook = cm.buffer.toBook := hw ▸ Machine.protectPages_toBook _ _ _ _
      have hslot : w.readSlot = cm.buffer.readSlot := hw ▸ Machine.protectPages_readSlot _ _ _ _
      intro r' i p hr' he hclean'
      rw [hloop.regions, hbook] at hr'
      cases hr.symm.trans hr'
      have hp : w.frameOf (id, i) = some p := by
        rw [hbook]
        exact Book.frameOf_eq_some.mpr (Book.pte_eq_some.mpr ⟨r, hr, he⟩)
      have haddr : w.addr? (id, i) = some (r.pageAddr i) := by
        rw [hbook]
        exact Book.addr?_of_pte (k := (id, i)) hr he
      have hfd : r.swapfd = .pers id := by
        have hpers := Machine.anon_of_canPersist hcan
        rw [Book.anon_of_find? hr] at hpers
        exact hl.backed.swapfd_eq hr hpers
      -- a page that was clean before was protected all along
      have hbefore : (w.pageInfos p).dirty = false →
          w.WpAt (id, i) ∧ w.shm p = w.readSlot (.pers id) i := by
        intro hwas
        rw [hbook] at hwas
        obtain ⟨hkeep, hbytes⟩ := Machine.protectPages_wpAt (r.addr + off) env.protects
          (List.range ((size + pageSize - 1) / pageSize)) ho.frames hl (hclean.wpAt hr he hwas)
        rw [← hw] at hkeep hbytes
        refine ⟨hkeep, ?_⟩
        rw [hbytes p (hbook ▸ hp), hslot, ← hfd]
        exact (hclean r i p hr he hwas).1
      by_cases hi : i ∈ covered off size
      · have hprot := hwp i hi
        rw [hloop.vm, hfd, hloop.bytes (id, i) p hp hprot, (hloop.copies i hi p hp).2]
        refine ⟨?_, hprot p _ hp haddr⟩
        split
        next => exact (pwriteLoop_eq (fun j hj => absurd hj (Nat.not_lt_zero _)) (hok i)).symm
        next hwas => exact (hbefore (by simpa using hwas)).2
      · rw [hloop.flags (id, i) p hp fun _ => hi] at hclean'
        obtain ⟨hprot, hbytes⟩ := hbefore hclean'
        rw [hloop.vm, hfd, hloop.bytes (id, i) p hp hprot, hloop.slots (.pers id) i fun _ => hi]
        exact ⟨hbytes, hprot p _ hp haddr⟩

/-- A client stores a byte to the page of a persistent region. -/
def storedActions : List Action :=
  [.connect 7, .call 7 (.alloc 1 0x1000 pageSize true) { create := { reserve := some 0x40000000 } },
    .userfault 0x40000000 { write := true } {}, .store ⟨(1, 0), ⟨0x1fffff, by decide⟩, 1⟩]

/-- Persisting loses no store that clients make meanwhile, as long as no
`pwrite` fails while the counter is at the start of a page: clean pages equal
their slots and are protected before the request and after it.  If such a
failure may happen, there is a request after which a clean page is not what the
file holds. -/
theorem persist_loses_no_store (allowed : List IoResult → Prop) :
    (∀ (nrPagesRam nrPagesSwap : Nat) (cm cm' : ClientManager) (id off size : Nat) (env : CallEnv)
        (res : Except Errno Unit), cm.buffer.Owned nrPagesRam nrPagesSwap → cm.buffer.Laid →
        cm.Agrees → cm.buffer.CleanPages id → (∀ i, allowed (env.persists.pwrites i)) →
        cm.persist id off size env = .ok (res, cm') → cm'.buffer.CleanPages id) ↔
      ∀ outcomes, allowed outcomes → failsAtStart outcomes 0 = false := by
  constructor
  · intro hclean outcomes hout
    by_contra hfail
    have hfail := Bool.eq_true_of_not_eq_false hfail
    let last : Fin pageSize := ⟨0x1fffff, by decide⟩
    have hrun : reaches Action.exec (fun _ _ => true)
        (fun s => (s.buffer.regions.find? 1).any (fun r => r.ptes = [.present 0]) &&
          (s.regions.find? 1).isSome && (s.buffer.pageInfos 0).dirty &&
          s.buffer.canPersist 1 0 pageSize = .ok () && s.buffer.shm 0 last = 1 &&
          s.buffer.readSlot (.pers 1) 0 last = 65)
        storedActions (.init 2 1 .empty) = true := by decide +kernel
    obtain ⟨s, hs, h⟩ : ∃ s, Damanager.Reachable 2 1 .empty s ∧ _ :=
      Runs.of_reaches hrun fun _ _ _ _ => trivial
    simp only [Bool.and_eq_true, Option.any_eq_true, decide_eq_true_eq,
      Option.isSome_iff_exists] at h
    obtain ⟨⟨⟨⟨⟨⟨r, hr, hptes⟩, R, hR⟩, hdirty⟩, hcan⟩, hbyte⟩, hold⟩ := h
    have hinv := hs.intact
    let env : CallEnv := { persists := { pwrites := fun _ => outcomes } }
    obtain ⟨cm', hret⟩ := ClientManager.persist_exists hinv.agrees hR hcan env
    have hafter := hclean 2 1 s.toClientManager cm' 1 0 pageSize env _ hinv.reach.owned
      hinv.reach.laid hinv.agrees (.of_dirty hr hptes hdirty) (fun _ => hout) hret
    obtain ⟨r', w, hr', -, hw, hwp, hloop⟩ :=
      ClientManager.persist_persisted hinv.reach.owned hinv.reach.laid hinv.agrees hret
    cases hr.symm.trans hr'
    have hbook : w.toBook = s.buffer.toBook := hw ▸ Machine.protectPages_toBook _ _ _ _
    have hslot : w.readSlot = s.buffer.readSlot := hw ▸ Machine.protectPages_readSlot _ _ _ _
    have hshm : w.shm = s.buffer.shm := by
      rw [hw]
      exact Machine.protectPages_invariant (P := fun v => v.shm = s.buffer.shm) id rfl
    have he : r.ptes[0]? = some (.present 0) := by
      rw [hptes]
      rfl
    have hp : w.frameOf (1, 0) = some 0 := by
      rw [hbook]
      exact Book.frameOf_eq_some.mpr (Book.pte_eq_some.mpr ⟨r, hr, he⟩)
    have hcov : 0 ∈ ClientManager.covered 0 pageSize := ClientManager.mem_covered.mpr (by decide)
    have hfd : r.swapfd = .pers 1 := by
      have hpers := Machine.anon_of_canPersist hcan
      rw [Book.anon_of_find? hr] at hpers
      exact hinv.reach.laid.backed.swapfd_eq hr hpers
    obtain ⟨hnow, hwritten⟩ := hloop.copies 0 hcov 0 hp
    have hregion : cm'.buffer.regions.find? 1 = some r := by
      rw [hloop.regions, hbook]
      exact hr
    have hpage := (hafter r 0 0 hregion he hnow).1
    rw [hbook, if_pos hdirty] at hwritten
    rw [hfd, hwritten, hloop.bytes (1, 0) 0 hp (hwp 0 hcov), hshm, hslot] at hpage
    have hlast := congrFun hpage last
    rw [hbyte, pwriteLoop_last hfail rfl, hold] at hlast
    exact absurd hlast (by decide)
  · intro hok nrPagesRam nrPagesSwap cm cm' id off size env res ho hl ha hclean hout h
    exact ClientManager.persist_cleanPages ho hl ha hclean (fun i => hok _ (hout i)) h

/-- The copy of the page fails at its first byte.  The request is answered with
success, the page is declared clean, and the file does not have the store. -/
theorem failed_copy_drops_store : ∃ s cm' r, Damanager.Reachable 2 1 .empty s ∧
    s.buffer.CleanPages 1 ∧
    s.toClientManager.persist 1 0 pageSize { persists := { pwrites := fun _ => [.error] } } =
      .ok (.ok (), cm') ∧
    cm'.buffer.regions.find? 1 = some r ∧ r.ptes[0]? = some (.present 0) ∧
      (cm'.buffer.pageInfos 0).dirty = false ∧
      cm'.buffer.shm 0 ≠ cm'.buffer.readSlot r.swapfd 0 := by
  let last : Fin pageSize := ⟨0x1fffff, by decide⟩
  have hrun : reaches Action.exec (fun _ _ => true)
      (fun s => (s.buffer.regions.find? 1).any (fun r => r.ptes = [.present 0]) &&
        (s.buffer.pageInfos 0).dirty &&
        (s.toClientManager.persist 1 0 pageSize
            { persists := { pwrites := fun _ => [.error] } }).toOption.any fun out =>
          decide (out.1 = .ok ()) && (out.2.buffer.regions.find? 1).any fun r =>
            decide (r.ptes[0]? = some (.present 0)) && !(out.2.buffer.pageInfos 0).dirty &&
              decide (out.2.buffer.shm 0 last ≠ out.2.buffer.readSlot r.swapfd 0 last))
      storedActions (.init 2 1 .empty) = true := by decide +kernel
  obtain ⟨s, hs, h⟩ : ∃ s, Damanager.Reachable 2 1 .empty s ∧ _ :=
    Runs.of_reaches hrun fun _ _ _ _ => trivial
  simp only [Bool.and_eq_true, Option.any_eq_true, decide_eq_true_eq, Bool.not_eq_true'] at h
  obtain ⟨⟨⟨r₀, hr₀, hptes⟩, hdirty⟩, ⟨res, cm'⟩, hret, hok, r, hr, ⟨he, hclean⟩, hne⟩ := h
  cases hok
  refine ⟨s, cm', r, hs, .of_dirty hr₀ hptes hdirty, eq_ok_of_toOption hret, hr, he, hclean,
    fun heq => hne (congrFun heq last)⟩

end DASim
