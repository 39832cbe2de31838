import DASim.Client.Durability

/-!
# What a crash leaves

A manager that is killed runs no destructor.  What is left are the region files as they
are at that moment, and that can be in the middle of an operation (`Killed`).  Files are
written page by page: when a page is evicted or persisted, when the pages of a region
are written back by `free` or by the destructor, and when a file is made.  So all pages
are in their files as they were at some moment of the history (`Saved`), except that the
page that was being written can be torn (`Torn`): its first bytes have arrived, and the
rest is what was there before.

A new manager reads what is in the files.  A page that was covered by a persist request
consists of bytes that are at least as new as the request.
-/

namespace DASim

/-- The first bytes of the page are as at one moment, and the other ones as at another
one. -/
def Torn (lo : List Event → Prop) (k : PageKey) (trace : List Event) (page : Page) : Prop :=
  ∃ n old new, AsAt lo k trace old ∧ AsAt lo k trace new ∧ page = copyRange new old 0 n

theorem copyRange_zero (src dst : Page) (i : Nat) : copyRange src dst i 0 = dst := by
  funext j
  rw [copyRange, if_neg (by omega)]

theorem AsAt.torn {lo : List Event → Prop} {k : PageKey} {trace : List Event} {page : Page}
    (h : AsAt lo k trace page) : Torn lo k trace page :=
  ⟨0, page, page, h, h, (copyRange_zero page page 0).symm⟩

namespace Machine

variable {w v : Machine} {nrPagesRam nrPagesSwap id off size p n ix : Nat} {k k₀ : PageKey}
  {env env' : Env} {src : Page} {fd : SwapFd} {lo : List Event → Prop}

/-! ## The manager is killed -/

/-- A page is being written to its place, and its first `n` bytes have arrived. -/
def tear (src : Page) (fd : SwapFd) (swapIx n : Nat) (w : Machine) : Machine :=
  w.writeSlot fd swapIx (copyRange src (w.readSlot fd swapIx) 0 n)

/-- The states in which the manager is killed: between two operations, or in one that
writes to a file.  Some pages have been written then, and `n` bytes of the next one. -/
inductive Killed (w : Machine) : Machine → Prop
  | idle : Killed w w
  /-- `unfix` has unmapped a victim and writes its page. -/
  | evicting {id off p x n : Nat} {r victim : Region} {e : RegionPte} {slots : List Nat}
      {env : Env} {w₁ v : Machine} : env.WholePages →
      w.regions.find? id = some r → r.ptes[off / pageSize]? = some e → (∀ p, e ≠ .present p) →
      w₁ = w.fetchPage r e env → w₁.findVictim w₁.usedPages.vals = .ok (p, x, slots) →
      w₁.regions.find? (w₁.pageInfos p).regionId = some victim →
      v = (w₁.takeVictim p slots env).unmapPage x (w₁.pageInfos p) victim env →
      (0 < n → victim.isAnon = true ∨ (w₁.pageInfos p).dirty = true) →
      Killed w (v.tear (v.shm p) victim.swapfd x n)
  /-- `persist` has written some of the pages. -/
  | persisting {id off size m i p n : Nat} {r : Region} {env env' : Env} {v : Machine} :
      w.regions.find? id = some r → w.canPersist id off size = .ok () → env'.WholePages →
      (w.protectPages (r.addr + off) env
        (List.range ((size + pageSize - 1) / pageSize))).persistPtes id env'
          ((ClientManager.covered off size).take m) = .ok v →
      (0 < n → (ClientManager.covered off size)[m]? = some i ∧
        v.pte (id, i) = some (.present p) ∧ (v.pageInfos p).dirty = true) →
      Killed w (v.tear (v.shm p) r.swapfd i n)
  /-- `free` has written some of the pages, and has not removed the file. -/
  | freeing {id m p n : Nat} {r : Region} {env : Env} {v : Machine} :
      w.regions.find? id = some r → env.WholePages →
      ({ w with regions := w.regions.erase id } : Machine).freePtes r env 0
        (r.ptes.take m) = .ok v →
      (0 < n → r.isAnon = false ∧ r.ptes[m]? = some (.present p) ∧
        (v.pageInfos p).dirty = true) →
      Killed w (v.tear (v.shm p) r.swapfd (v.pageInfos p).off n)
  /-- `allocate` has made the file, and `init_file` has written some of the pages. -/
  | creating {id size m n : Nat} {env : Env} : w.files.find? id = none →
      Killed w (((w.setFile id size).initFile id env.pwrites (List.range m)).tear initPage
        (.pers id) m n)
  /-- The destructor has written some of the pages. -/
  | ending {m p n : Nat} {r : Region} {env : Env} {v : Machine} : env.WholePages →
      w.flushPages env (w.usedPages.vals.take m) = .ok v →
      w.regions.find? (w.pageInfos p).regionId = some r →
      (0 < n → w.usedPages.vals[m]? = some p ∧ r.isAnon = false ∧
        (w.pageInfos p).dirty = true) →
      Killed w (v.tear (v.shm p) r.swapfd (v.pageInfos p).off n)

/-! ## A torn page -/

theorem tear_trace (src : Page) (fd : SwapFd) (ix n : Nat) (w : Machine) :
    (w.tear src fd ix n).trace = w.trace := by
  rw [tear, writeSlot_eq]

theorem fileSize_tear (src : Page) (fd : SwapFd) (ix n : Nat) (w : Machine) :
    (w.tear src fd ix n).fileSize = w.fileSize := fileSize_writeSlot ..

/-- No place but one is written. -/
theorem readSlot_tear (hfile : w.HasFile fd) (src : Page) (ix n : Nat) (k : PageKey) :
    (w.tear src fd ix n).readSlot (.pers k.1) k.2 =
      if fd = .pers k.1 ∧ ix = k.2 then copyRange src (w.readSlot (.pers k.1) k.2) 0 n
      else w.readSlot (.pers k.1) k.2 := by
  have hread : (w.tear src fd ix n).readSlot (.pers k.1) k.2 =
      Function.update w.read (fd.cell ix) _ (.file k.1 k.2) :=
    congrFun (read_writeSlot hfile ix _) (.file k.1 k.2)
  rw [hread]
  split
  next heq =>
    obtain ⟨rfl, rfl⟩ := heq
    exact Function.update_self ..
  next hne =>
    refine Function.update_of_ne (fun heq => hne ?_) ..
    cases fd with
    | swap => cases heq
    | pers id =>
        obtain ⟨rfl, rfl⟩ := Cell.file.inj heq
        exact ⟨rfl, rfl⟩

/-- All pages are in their files as they were at some moment, as they were before. -/
def Keeps (w v : Machine) : Prop :=
  ∀ k lo, w.PersPage k → (∀ evs, Since k.1 w.trace evs → lo evs) → w.Saved lo k → v.Saved lo k

/-- The same with the exception of one page, which can be torn. -/
def KeepsBut (k₀ : PageKey) (w v : Machine) : Prop :=
  ∀ k lo, w.PersPage k → (∀ evs, Since k.1 w.trace evs → lo evs) → w.Saved lo k →
    Torn lo k v.trace (v.readSlot (.pers k.1) k.2) ∧ (k ≠ k₀ → v.Saved lo k)

theorem Keeps.but (h : Keeps w v) (k₀ : PageKey) : KeepsBut k₀ w v := fun k lo hpers hlo hsaved =>
  ⟨AsAt.torn (h k lo hpers hlo hsaved), fun _ => h k lo hpers hlo hsaved⟩

/-- Nothing was written to a file. -/
theorem Keeps.of_files (hfiles : v.files = w.files) (hsince : ∀ id, Since id w.trace v.trace) :
    Keeps w v := by
  rintro k lo - - ⟨evs, hevs, hbefore, hslot⟩
  refine ⟨evs, hevs, hbefore.trans (hsince k.1), ?_⟩
  rw [← hslot, readSlot, hfiles, readSlot]

/-- One more page is being written. -/
theorem Keeps.tear (h : Keeps w v) (hfile : v.HasFile fd) (hfd : fd = .swap ∨ fd = .pers k₀.1)
    (hsince : Since k₀.1 w.trace v.trace)
    (hnext : fd ≠ .swap → 0 < n → ix = k₀.2 ∧ src = flat v.trace k₀) :
    KeepsBut k₀ w (v.tear src fd ix n) := by
  intro k lo hpers hlo hsaved
  have hold := h k lo hpers hlo hsaved
  rw [Saved, readSlot_tear hfile, tear_trace]
  split
  next heq =>
    obtain ⟨rfl, rfl⟩ := heq
    by_cases hn : 0 < n
    · have hswap : SwapFd.pers k.1 ≠ .swap := SwapFd.noConfusion
      obtain ⟨hix, hsrc⟩ := hnext hswap hn
      obtain rfl : k = k₀ := Prod.ext (SwapFd.pers.inj (hfd.resolve_left hswap)) hix
      have hnew : AsAt lo k v.trace src := ⟨_, hlo _ hsince, .refl _ _, hsrc⟩
      exact ⟨⟨n, _, src, hold, hnew, rfl⟩, fun hne => absurd rfl hne⟩
    · obtain rfl : n = 0 := by omega
      rw [copyRange_zero]
      exact ⟨AsAt.torn hold, fun _ => hold⟩
  next => exact ⟨AsAt.torn hold, fun _ => hold⟩

/-! ## Pages that are written back -/

/-- Some pages have been written to their files, as they are. -/
structure Flushed (w v : Machine) : Prop where
  pageInfos : v.pageInfos = w.pageInfos
  shm : v.shm = w.shm
  trace : v.trace = w.trace
  sizes : v.fileSize = w.fileSize
  slot : ∀ k, v.readSlot (.pers k.1) k.2 = w.readSlot (.pers k.1) k.2 ∨
    v.readSlot (.pers k.1) k.2 = flat w.trace k

namespace Flushed

theorem refl (w : Machine) : Flushed w w := ⟨rfl, rfl, rfl, rfl, fun _ => Or.inl rfl⟩

/-- Lists of pages can change in between. -/
theorem tables {v' : Machine} (h : Flushed w v) (hinfos : v'.pageInfos = v.pageInfos)
    (hshm : v'.shm = v.shm) (htrace : v'.trace = v.trace) (hfiles : v'.files = v.files) :
    Flushed w v' where
  pageInfos := hinfos.trans h.pageInfos
  shm := hshm.trans h.shm
  trace := htrace.trans h.trace
  sizes := by
    rw [← h.sizes]
    funext id
    rw [fileSize, hfiles, fileSize]
  slot k := by
    have hslot := h.slot k
    rw [readSlot] at hslot ⊢
    rwa [hfiles]

theorem hasFile (h : Flushed w v) (hfile : w.HasFile fd) : v.HasFile fd := by
  intro id hid
  rw [← isSome_fileSize, h.sizes, isSome_fileSize]
  exact hfile id hid

theorem keeps (h : Flushed w v) : Keeps w v := by
  rintro k lo - hlo ⟨evs, hevs, hsince, hold⟩
  rcases h.slot k with hslot | hslot
  · exact ⟨evs, hevs, h.trace ▸ hsince, hslot.trans hold⟩
  · exact ⟨w.trace, hlo _ (.refl _ _), .of_eq h.trace, hslot⟩

end Flushed

/-- One page is written out. -/
theorem Flushed.write {r : Region} (hw : w.Sound true nrPagesRam nrPagesSwap) (h : Flushed w v)
    (hframe : w.frameOf k₀ = some p) (hr : w.regions.find? k₀.1 = some r)
    (hpers : r.isAnon = false) : Flushed w (v.swapOutPageData p r.swapfd k₀.2 []) := by
  refine ⟨(congrArg Book.pageInfos (swapOutPageData_toBook ..)).trans h.pageInfos,
    (swapOutPageData_shm _ _ _ _ _).trans h.shm, (swapOutPageData_trace _ _ _ _ _).trans h.trace,
    (fileSize_swapOutPageData _ _ _ _ _).trans h.sizes, fun k => ?_⟩
  have hread := congrFun (read_swapOutPageData (h.hasFile (.of_backed hw.laid.backed hr)) p k₀.2)
    (.file k.1 k.2)
  rw [hw.laid.backed.swapfd_eq hr hpers] at hread ⊢
  by_cases hk : k = k₀
  · subst hk
    rw [SwapFd.cell, Function.update_self, h.shm, hw.shm_of_frame hframe] at hread
    exact Or.inr hread
  · rw [SwapFd.cell, Function.update_of_ne] at hread
    · exact (h.slot k).imp hread.trans hread.trans
    · exact fun heq => hk (Prod.ext (Cell.file.inj heq).1 (Cell.file.inj heq).2)

/-- The loop of the destructor, or a part of it. -/
theorem Flushed.flushPages (hw : w.Sound true nrPagesRam nrPagesSwap) (hio : env.WholePages)
    {ps : List Nat} {v v' : Machine} (hps : ∀ p ∈ ps, p ∈ w.usedPages.vals)
    (hbook : v.toBook = w.toBook) (h : Flushed w v) (hrun : v.flushPages env ps = .ok v') :
    Flushed w v' := by
  induction ps generalizing v with
  | nil =>
      cases hrun
      exact h
  | cons p ps ih =>
      obtain ⟨r, hr, hrun⟩ := ok_of_bind hrun
      rw [Book.regionAt_eq_ok, hbook] at hr
      rw [hbook, hio.2 p] at hrun
      refine ih (fun q hq => hps q (List.mem_cons_of_mem _ hq)) ?_ ?_ hrun
      · split
        · exact (swapOutPageData_toBook ..).trans hbook
        · exact hbook
      · split
        next hcond =>
          simp only [Bool.and_eq_true, Bool.not_eq_true'] at hcond
          have hown := hw.owned.frames.own_of_used (hps p List.mem_cons_self)
          exact h.write hw hown hr hcond.1
        next => exact h

/-- The loop of `free`, or a part of it. -/
theorem Flushed.freePtes {r : Region} (hw : w.Sound true nrPagesRam nrPagesSwap)
    (hio : env.WholePages) (hr : w.regions.find? id = some r) {row : List RegionPte} {i : Nat}
    {v v' : Machine} (hrow : ∀ p, .present p ∈ row → ∃ j, w.frameOf (id, j) = some p)
    (h : Flushed w v) (hrun : v.freePtes r env i row = .ok v') : Flushed w v' := by
  induction row generalizing i v with
  | nil =>
      cases hrun
      exact h
  | cons e row ih =>
      obtain ⟨v₁, hpte, hrun⟩ := ok_of_bind hrun
      refine ih (fun p hp => hrow p (List.mem_cons_of_mem _ hp)) ?_ hrun
      rcases freePte_cases hpte with
        ⟨p, rfl, -, u, rfl, rfl | ⟨hpers, rfl⟩⟩ | ⟨x, -, rfl⟩ | ⟨-, rfl⟩
      · exact h.tables rfl rfl rfl rfl
      · obtain ⟨j, hframe⟩ := hrow p List.mem_cons_self
        have hoff : (v.pageInfos p).off = j := by
          rw [h.pageInfos]
          exact (hw.owned.frames.info _ p hframe).2.1
        have hlists : Flushed w { v with
            usedPages := v.usedPages.erase (v.pageInfos p).usedPagesIt
            freePages := v.freePages ++ [p] } := h.tables rfl rfl rfl rfl
        rw [hio.2 i, hoff]
        exact hlists.write hw hframe hr hpers
      · split
        · exact h.tables rfl rfl rfl rfl
        · exact h
      · exact h

/-! ## What is left -/

/-- While a victim is being written, its page is still in its frame. -/
theorem evicting_shm {r victim : Region} {e : RegionPte} {slots : List Nat} {w₁ : Machine} {x : Nat}
    (hw : w.Sound true nrPagesRam nrPagesSwap) (hio : env.WholePages)
    (hr : w.regions.find? id = some r) (he : r.ptes[off / pageSize]? = some e)
    (habs : ∀ p, e ≠ .present p) (hw₁ : w₁ = w.fetchPage r e env)
    (hvictim : w₁.findVictim w₁.usedPages.vals = .ok (p, x, slots))
    (hv : v = (w₁.takeVictim p slots env).unmapPage x (w₁.pageInfos p) victim env) :
    v.shm p = flat v.trace ((w₁.pageInfos p).regionId, (w₁.pageInfos p).off) := by
  have hload := hw.load (k := (id, off / pageSize)) hr he habs hio.1
  have hfetch : w₁.Fetched true nrPagesRam nrPagesSwap [] (id, off / pageSize) e.source := by
    rw [hw₁]
    exact hload.interfere (fun q => e.source_ne_frame q) (env.stores 0)
  have hused := (Book.findVictim_ok hvictim).1
  have hown := hfetch.paging.frames.own_of_used hused
  have hpte := Book.frameOf_eq_some.mp hown
  obtain ⟨R, hR, -⟩ := Book.pte_eq_some.mp hpte
  have hhold := Holding.unmapVictim ⟨hfetch.placed, hfetch.writable fun q => e.source_ne_frame q⟩
    p x slots (w₁.pageInfos p) victim env
  rw [hv]
  refine hhold.placed _ (.frame p) ((Book.holdsBut_of_ne (hfetch.paging.victim_ne hused)).mpr ?_)
  exact ⟨R.shape, _, Book.shape_of_find? hR, hpte, Or.inl ⟨Or.inr rfl, rfl⟩⟩

theorem Backed.swapfd_cases {r : Region} (h : w.Backed) (hr : w.regions.find? id = some r) :
    r.swapfd = .swap ∨ r.swapfd = .pers id :=
  (h id r.shape (Book.shape_of_find? hr)).imp_right And.left

theorem evicting_keepsBut {r victim : Region} {e : RegionPte} {slots : List Nat} {w₁ : Machine}
    {x : Nat} (hw : w.Sound true nrPagesRam nrPagesSwap) (hio : env.WholePages)
    (hr : w.regions.find? id = some r) (he : r.ptes[off / pageSize]? = some e)
    (habs : ∀ p, e ≠ .present p) (hw₁ : w₁ = w.fetchPage r e env)
    (hvictim : w₁.findVictim w₁.usedPages.vals = .ok (p, x, slots))
    (hR : w₁.regions.find? (w₁.pageInfos p).regionId = some victim)
    (hv : v = (w₁.takeVictim p slots env).unmapPage x (w₁.pageInfos p) victim env) :
    KeepsBut ((w₁.pageInfos p).regionId, (w₁.pageInfos p).off) w
      (v.tear (v.shm p) victim.swapfd x n) := by
  have hlaid : w₁.Laid := hw₁ ▸ fetchPage_laid hw.laid r e env
  have hfiles : v.files = w.files := by
    rw [hv, unmapPage_files, takeVictim_files, hw₁, fetchPage, interfere_files, loadPage_files]
  have hgrows : Grows env.Stores w v := by
    rw [hv]
    exact (hw₁ ▸ fetchPage_grows r e w).trans (unmapVictim_grows p x slots victim w₁)
  have hfile : v.HasFile victim.swapfd := fun id hid => by
    have hsome := HasFile.of_backed hlaid.backed hR id hid
    rwa [hw₁, fetchPage, interfere_files, loadPage_files, ← hfiles] at hsome
  have hkeeps : Keeps w v := .of_files hfiles fun _ => .of_grows hgrows
  have hshm := evicting_shm hw hio hr he habs hw₁ hvictim hv
  obtain ⟨-, R, hR', hslot⟩ := Book.findVictim_ok hvictim
  cases hR.symm.trans hR'
  refine hkeeps.tear hfile ?_ (.of_grows hgrows) fun hswap _ => ⟨?_, hshm⟩
  · exact hlaid.backed.swapfd_cases hR
  · exact (hslot.resolve_left fun hanon => hswap (of_decide_eq_true hanon.1)).2.1

theorem persisting_keepsBut {m i : Nat} {r : Region} (hw : w.Sound true nrPagesRam nrPagesSwap)
    (hr : w.regions.find? id = some r) (hcan : w.canPersist id off size = .ok ())
    (hio : env'.WholePages)
    (hrun : (w.protectPages (r.addr + off) env
      (List.range ((size + pageSize - 1) / pageSize))).persistPtes id env'
        ((ClientManager.covered off size).take m) = .ok v)
    (hnext : 0 < n → v.pte (id, i) = some (.present p)) :
    KeepsBut (id, i) w (v.tear (v.shm p) r.swapfd i n) := by
  have hsub : ((ClientManager.covered off size).take m).Sublist (ClientManager.covered off size) :=
    List.take_sublist _ _
  have hsound := hw.persistLoops hr hcan hio hsub hrun
  have hshape : v.shape = w.shape := by
    rw [persistPtes_toBook hrun, protectPages_toBook]
    rfl
  have hkept : ∀ k, Kept k w v := fun k => persistPtes_kept hw hr hcan hsub hrun
  have hkeeps : Keeps w v := fun k lo hpers hlo hsaved =>
    (hkept k).saved hsound (hpers.sub (.of_shape (congrFun hshape.symm k.1))) hlo hsaved
  obtain ⟨r', hr', hpers, -⟩ := canPersist_ok hcan
  cases hr.symm.trans hr'
  have hfd := hw.laid.backed.swapfd_eq hr hpers
  have hfile : v.HasFile r.swapfd := by
    have hlive : v.regions.find? id = some r := by
      rw [persistPtes_toBook hrun, protectPages_toBook]
      exact hr
    exact HasFile.of_backed hsound.laid.backed hlive
  refine hkeeps.tear hfile (Or.inr hfd) (hkept (id, i)).since fun _ hn => ⟨rfl, ?_⟩
  exact hsound.shm_of_frame (Book.frameOf_eq_some.mpr (hnext hn))

theorem freeing_keepsBut {m : Nat} {r : Region} (hw : w.Sound true nrPagesRam nrPagesSwap)
    (hr : w.regions.find? id = some r) (hio : env.WholePages)
    (hrun : ({ w with regions := w.regions.erase id } : Machine).freePtes r env 0
      (r.ptes.take m) = .ok v)
    (hnext : 0 < n → r.ptes[m]? = some (.present p)) :
    KeepsBut (id, m) w (v.tear (v.shm p) r.swapfd (v.pageInfos p).off n) := by
  have hframe : ∀ {j p}, r.ptes[j]? = some (.present p) → w.frameOf (id, j) = some p :=
    fun hj => Book.frameOf_eq_some.mpr (Book.pte_eq_some.mpr ⟨r, hr, hj⟩)
  have hflushed : Flushed w v := by
    have hstart : Flushed w { w with regions := w.regions.erase id } :=
      (Flushed.refl w).tables rfl rfl rfl rfl
    refine hstart.freePtes hw hio hr (fun p hp => ?_) hrun
    obtain ⟨j, hj, heq⟩ := List.getElem_of_mem (List.mem_of_mem_take hp)
    exact ⟨j, hframe (List.getElem?_eq_some_iff.mpr ⟨hj, heq⟩)⟩
  refine hflushed.keeps.tear (hflushed.hasFile (.of_backed hw.laid.backed hr)) ?_
    (.of_eq hflushed.trace) fun _ hn => ⟨?_, ?_⟩
  · exact hw.laid.backed.swapfd_cases hr
  · rw [hflushed.pageInfos]
    exact (hw.owned.frames.info _ p (hframe (hnext hn))).2.1
  · rw [hflushed.shm, hflushed.trace]
    exact hw.shm_of_frame (hframe (hnext hn))

theorem creating_keepsBut (hw : w.Sound true nrPagesRam nrPagesSwap) {m : Nat}
    (hnone : w.files.find? id = none) :
    KeepsBut (id, m) w (((w.setFile id size).initFile id env.pwrites (List.range m)).tear initPage
      (.pers id) m n) := by
  have hkeeps : Keeps w (((w.setFile id size).initFile id env.pwrites (List.range m)).tear initPage
      (.pers id) m n) := by
    rintro k lo ⟨s, hs, hfd, -⟩ - ⟨evs, hevs, hsince, hslot⟩
    -- the page has a file, and the one that is made was not there
    have hid : k.1 ≠ id := by
      rintro rfl
      have hsome := ((hw.laid.backed k.1 s hs).resolve_left hfd).2
      rw [hnone] at hsome
      cases hsome
    refine ⟨evs, hevs, ?_, ?_⟩
    · rw [tear_trace, initFile_eq]
      exact hsince
    · rw [tear, readSlot_writeSlot_of_ne _ (fun heq => hid (SwapFd.pers.inj heq)),
        readSlot_initFile hid, readSlot_setFile hid]
      exact hslot
  exact hkeeps.but _

theorem ending_keepsBut {m : Nat} {r : Region} (hw : w.Sound true nrPagesRam nrPagesSwap)
    (hio : env.WholePages) (hrun : w.flushPages env (w.usedPages.vals.take m) = .ok v)
    (hr : w.regions.find? (w.pageInfos p).regionId = some r)
    (hnext : 0 < n → w.usedPages.vals[m]? = some p) :
    KeepsBut ((w.pageInfos p).regionId, (w.pageInfos p).off) w
      (v.tear (v.shm p) r.swapfd (v.pageInfos p).off n) := by
  have hflushed : Flushed w v :=
    Flushed.flushPages hw hio (fun p hp => List.mem_of_mem_take hp) rfl (.refl w) hrun
  refine hflushed.keeps.tear (hflushed.hasFile (.of_backed hw.laid.backed hr)) ?_
    (.of_eq hflushed.trace) fun _ hn => ⟨?_, ?_⟩
  · exact hw.laid.backed.swapfd_cases hr
  · rw [hflushed.pageInfos]
  · rw [hflushed.shm, hflushed.trace]
    have hused := List.mem_of_getElem? (hnext hn)
    exact hw.shm_of_frame (hw.owned.frames.own_of_used hused)

/-- Whenever the manager is killed, at most one page is torn. -/
theorem Killed.keepsBut (hkill : w.Killed v) (hw : w.Sound true nrPagesRam nrPagesSwap) :
    ∃ k₀, KeepsBut k₀ w v := by
  cases hkill with
  | idle => exact ⟨(0, 0), fun k lo _ _ hsaved => ⟨AsAt.torn hsaved, fun _ => hsaved⟩⟩
  | evicting hio hr he habs hw₁ hvictim hR hv =>
      exact ⟨_, evicting_keepsBut hw hio hr he habs hw₁ hvictim hR hv⟩
  | persisting hr hcan hio hrun hnext =>
      exact ⟨_, persisting_keepsBut hw hr hcan hio hrun fun hn => (hnext hn).2.1⟩
  | freeing hr hio hrun hnext =>
      exact ⟨_, freeing_keepsBut hw hr hio hrun fun hn => (hnext hn).2.1⟩
  | creating hnone => exact ⟨_, creating_keepsBut hw hnone⟩
  | ending hio hrun hr hnext =>
      exact ⟨_, ending_keepsBut hw hio hrun hr fun hn => (hnext hn).1⟩

/-- A lossless run is one of the operations of the buffer manager. -/
theorem Carries.leads (h : w.Carries v) : w.Leads v :=
  h.invariant (P := w.Leads) Runs.refl fun _ _ _ hu _ hexec => hu.trans (ManagerOp.exec_leads hexec)

/-- The files of live regions keep their sizes. -/
theorem Killed.fileSize (hkill : w.Killed v) (hw : w.Sound true nrPagesRam nrPagesSwap)
    (hfile : (w.fileSize id).isSome) : v.fileSize id = w.fileSize id := by
  cases hkill with
  | idle => rfl
  | evicting _ _ _ _ hw₁ _ _ hv =>
      rw [fileSize_tear, hv, fileSize, unmapPage_files, takeVictim_files, hw₁, fetchPage,
        interfere_files, loadPage_files, fileSize]
  | persisting _ _ _ hrun =>
      rw [fileSize_tear, persistPtes_fileSize hrun]
      exact congrFun (protectPages_invariant (P := fun v => v.fileSize = w.fileSize)
        (fun hv => (fileSize_interfere _ _).trans hv) rfl) id
  | freeing _ _ hrun =>
      rw [fileSize_tear, (freePtes_kept hrun).fileSize]
      rfl
  | @creating id' size m n env hnone =>
      have hid : id ≠ id' := by
        rintro rfl
        rw [isSome_fileSize, hnone] at hfile
        cases hfile
      rw [fileSize_tear, fileSize_initFile, fileSize, setFile, OrdMap.find?_insert, if_neg hid,
        fileSize]
  | ending hio hrun =>
      rw [fileSize_tear]
      exact congrFun (Flushed.flushPages hw hio (fun p hp => List.mem_of_mem_take hp) rfl (.refl w)
        hrun).sizes id

theorem Killed.size_eq {r : Region} (hkill : w.Killed v) (hw : w.Sound true nrPagesRam nrPagesSwap)
    (hf : w.Filed) (hr : w.regions.find? id = some r) (hpers : r.isAnon = false) :
    v.fileSize id = some r.size := by
  have hsize : w.fileSize id = some r.size :=
    ((hf id r.shape (Book.shape_of_find? hr)).resolve_left fun hswap =>
      of_decide_eq_false hpers hswap.1).2
  rw [hkill.fileSize hw (by rw [hsize]; rfl), hsize]

/-- What a new manager reads after a crash. -/
theorem KeepsBut.reload {u : Machine} {r r' : Region} {i nrPagesRam' nrPagesSwap' : Nat}
    (h : KeepsBut k₀ w v) (hsize : v.fileSize id = some r.size) (hr : w.regions.find? id = some r)
    (hpers : r.isAnon = false) (hi : i < r.ptes.length)
    (hlo : ∀ evs, Since id w.trace evs → lo evs) (hsaved : w.Saved lo (id, i))
    (hload : Runs BufferOp.exec (fun _ op => op.Reloads)
      (.init nrPagesRam' nrPagesSwap' v.files) u) (hr' : u.regions.find? id = some r') :
    ∃ page, u.contents (id, i) = some page ∧ Torn lo (id, i) v.trace page ∧
      ((id, i) ≠ k₀ → AsAt lo (id, i) v.trace page) := by
  have hu := (init_restored nrPagesRam' nrPagesSwap' v.files).runs hload
  obtain ⟨htorn, hwhole⟩ := h (id, i) lo (Book.persPage_of_find? hr hpers hi) hlo hsaved
  refine ⟨_, hu.contents_eq hr' ?_, htorn, hwhole⟩
  rw [r'.nrPages, Option.some.inj ((hu.size_eq hr').symm.trans hsize), ← r.nrPages]
  exact hi

end Machine

namespace Damanager

variable {s s' : Damanager} {pid : Int} {env : CallEnv} {mappings : OrdMap Nat Nat}

/-- A request that transfers whole pages is a lossless step. -/
theorem call_lossless {params : CallParams} {answer : Except Errno CallResult}
    (hclient : s.clients.find? pid = some ⟨mappings, true⟩) (hio : env.WholePages)
    (hcall : s.handleCall pid ⟨mappings, true⟩ params env = .ok (answer, s')) :
    Runs Action.exec (fun s action => action.Lossless s) s s' := by
  have hexec : (Action.call pid params env).exec s = .ok s' := by
    rw [Action.exec, hclient]
    dsimp only
    rw [hcall]
    rfl
  have hop : (Action.call pid params env).Lossless s := hio
  exact Runs.single hop hexec

/-- A persist request that is granted is one of `client_manager::persist`. -/
theorem handleCall_persist {c : Client} {addr id off size : Nat} {res : CallResult}
    (hmap : c.mappings.find? addr = some id)
    (hcall : s.handleCall pid c (.persist addr off size) env = .ok (.ok res, s')) :
    ∃ cm, s.persist id off size env = .ok (.ok (), cm) ∧ s'.toClientManager = cm := by
  rw [handleCall, hmap] at hcall
  obtain ⟨⟨ret, cm⟩, hpersist, hcall⟩ := ok_of_bind hcall
  cases ret with
  | error e => cases hcall
  | ok _ =>
      cases hcall
      exact ⟨cm, hpersist, rfl⟩

end Damanager

/-! ## After a crash -/

section Results

variable {s s₀ s₁ : Damanager} {w v u : Machine}
  {nrPagesRam nrPagesSwap nrPagesRam' nrPagesSwap' id off size : Nat} {files : OrdMap Nat PersFile}
  {r r' : Region} {env : CallEnv}

/-- The manager is killed and started again, after a lossless run and possibly some of
the operations of one more request (`hops`).  It finds every persistent region that was
live, with its size.  At most one page is torn, and every other page of such a region is
as it was at some moment since the region was made. -/
theorem crash_leaves_snapshots
    (h : Runs Action.exec (fun s action => action.Lossless s)
      (.init nrPagesRam nrPagesSwap files) s)
    (hops : s.buffer.Carries w) (hkill : w.Killed v)
    (hload : Runs BufferOp.exec (fun _ op => op.Reloads)
      (.init nrPagesRam' nrPagesSwap' v.files) u) :
    ∃ k₀, ∀ id r, w.regions.find? id = some r → r.isAnon = false →
      (∀ env : Env, env.openErr = none → env.fstatOk = true →
        (u.regions.find? id = none → (u.reserveVmemory env.reserve r.size).isSome) →
        ∃ addr u' r', u.getAnchoredRegion id env = (.ok (addr, r.size), u') ∧
          u'.regions.find? id = some r' ∧ r'.addr = addr ∧ r'.size = r.size) ∧
      ∀ r', u.regions.find? id = some r' → r'.ptes.length = r.ptes.length ∧
        ∀ i, i < r.ptes.length → ∃ page, u.contents (id, i) = some page ∧
          Torn (fun _ => True) (id, i) v.trace page ∧
          ((id, i) ≠ k₀ → AsAt (fun _ => True) (id, i) v.trace page) := by
  obtain ⟨hcarries, hreach⟩ := Damanager.carries_of_runs Runs.refl h
  obtain ⟨hw, hsaved⟩ := Machine.saved_of_carries (hcarries.trans hops)
  have hfiled := Machine.Reachable.filed (hreach.intact.reach.trans hops.leads)
  obtain ⟨k₀, hbut⟩ := hkill.keepsBut hw
  refine ⟨k₀, fun id r hr hpers => ?_⟩
  have hu := (Machine.init_restored nrPagesRam' nrPagesSwap' v.files).runs hload
  have hsize := hkill.size_eq hw hfiled hr hpers
  refine ⟨fun env hopen hstat hres => hu.load_exists hsize hopen hstat hres, fun r' hr' => ?_⟩
  have hsame : r'.size = r.size := Option.some.inj ((hu.size_eq hr').symm.trans hsize)
  refine ⟨by rw [r'.nrPages, hsame, r.nrPages], fun i hi => ?_⟩
  exact hbut.reload hsize hr hpers hi (fun _ _ => trivial)
    (hsaved (id, i) (Book.persPage_of_find? hr hpers hi)) hload hr'

theorem one_lt_pageSize : 1 < pageSize := by decide

/-- A page of region `1` is made writable, and two bytes of it are stored. -/
def storeTwo (wp : Bool) (first second : UInt8) : List Action :=
  [.userfault 0x40000010 { write := true, wp } {}, .store ⟨(1, 0), ⟨0, pageSize_pos⟩, first⟩,
    .store ⟨(1, 0), ⟨1, one_lt_pageSize⟩, second⟩]

theorem storeTwo_lossless {wp : Bool} {first second : UInt8} {action : Action}
    (h : action ∈ storeTwo wp first second) (s : Damanager) : action.Lossless s := by
  simp only [storeTwo, List.mem_cons, List.not_mem_nil, or_false] at h
  rcases h with rfl | rfl | rfl
  · refine ⟨⟨rfl, fun _ => rfl⟩, fun _ _ _ _ => ?_⟩
    cases wp with
    | false => exact Machine.staleRead_write _ _ _
    | true => rfl
  · trivial
  · trivial

/-- Region `1` is made and its page is stored to. -/
def unsaved : List Action := oneRegion ++ storeTwo false 120 121

theorem unsaved_lossless {action : Action} (h : action ∈ unsaved) (s : Damanager) :
    action.Lossless s := by
  rcases List.mem_append.mp h with h | h
  · have hio : Env.WholePages {} := ⟨rfl, fun _ => rfl⟩
    simp only [oneRegion, List.mem_cons, List.not_mem_nil, or_false] at h
    rcases h with rfl | rfl
    · trivial
    · exact ⟨⟨rfl, fun _ => rfl⟩, hio, hio⟩
  · exact storeTwo_lossless h s

/-- The manager is killed in persisting region `1` when it has written one byte. -/
def killedInPersist (w : Machine) (r : Region) : Machine :=
  let v := w.protectPages r.addr {} [0]
  v.tear (v.shm 0) r.swapfd 0 1

/-- A new manager finds two bytes at the start of region `1` then. -/
def tears (first second : UInt8) (w : Machine) : Bool :=
  (w.regions.find? 1).any fun r => !r.isAnon && decide (0 < r.ptes.length) &&
    decide (w.canPersist 1 0 pageSize = .ok ()) &&
    decide ((w.protectPages r.addr {} [0]).pte (1, 0) = some (.present 0)) &&
    ((w.protectPages r.addr {} [0]).pageInfos 0).dirty &&
    reaches BufferOp.exec (fun _ _ => true)
      (fun u => (u.regions.find? 1).isSome && (u.contents (1, 0)).any fun page =>
        decide (page ⟨0, pageSize_pos⟩ = first ∧ page ⟨1, one_lt_pageSize⟩ = second))
      [.getAnchoredRegion 1 { reserve := some 0x40000000 }]
      (.init 2 0 (killedInPersist w r).files)

theorem killed_of_tears {first second : UInt8} (h : tears first second w = true) :
    ∃ r v u r' page, w.regions.find? 1 = some r ∧ r.isAnon = false ∧ 0 < r.ptes.length ∧
      w.Killed v ∧ Runs BufferOp.exec (fun _ op => op.Reloads) (.init 2 0 v.files) u ∧
      u.regions.find? 1 = some r' ∧ u.contents (1, 0) = some page ∧
      page ⟨0, pageSize_pos⟩ = first ∧ page ⟨1, one_lt_pageSize⟩ = second := by
  simp only [tears, Option.any_eq_true, Bool.and_eq_true, decide_eq_true_eq,
    Bool.not_eq_true'] at h
  obtain ⟨r, hr, ⟨⟨⟨⟨hpers, hpos⟩, hcan⟩, hpte⟩, hdirty⟩, hload⟩ := h
  obtain ⟨u, hload, htest⟩ : ∃ u, Runs BufferOp.exec (fun _ op => op.Reloads)
      (.init 2 0 (killedInPersist w r).files) u ∧ _ := by
    refine Runs.of_reaches hload fun op hop _ _ => ?_
    rw [List.mem_singleton.mp hop]
    trivial
  simp only [Option.any_eq_true, Bool.and_eq_true, decide_eq_true_eq] at htest
  obtain ⟨hlive, page, hpage, hfirst, hsecond⟩ := htest
  obtain ⟨r', hr'⟩ := Option.isSome_iff_exists.mp hlive
  have hio : Env.WholePages {} := ⟨rfl, fun _ => rfl⟩
  have hkill : w.Killed (killedInPersist w r) :=
    .persisting (m := 0) hr hcan hio rfl fun _ => ⟨rfl, hpte, hdirty⟩
  exact ⟨r, _, u, r', page, hr, hpers, hpos, hkill, hload, hr', hpage, hfirst, hsecond⟩

/-- The manager is killed when it has persisted one byte.  The first byte is the new
one, and the second one the one that the page was made with. -/
theorem crash_leaves_snapshots_torn : ∃ (s : Damanager) (v u : Machine) (page : Page),
    s.buffer.Killed v ∧ u.contents (1, 0) = some page ∧ page ⟨0, pageSize_pos⟩ = 120 ∧
      page ⟨1, one_lt_pageSize⟩ = 65 ∧ Torn (fun _ => True) (1, 0) v.trace page := by
  have hrun : reaches Action.exec (fun _ _ => true) (fun s => tears 120 65 s.buffer)
      unsaved (.init 2 0 .empty) = true := by
    decide +kernel
  obtain ⟨s, hs, htears⟩ : ∃ s, Runs Action.exec (fun s action => action.Lossless s)
      (Damanager.init 2 0 .empty) s ∧ _ :=
    Runs.of_reaches hrun fun action haction s _ => unsaved_lossless haction s
  obtain ⟨r, v, u, r', page, hr, hpers, hpos, hkill, hload, hr', hpage, hfirst, hsecond⟩ :=
    killed_of_tears htears
  obtain ⟨k₀, hfound⟩ := crash_leaves_snapshots hs Runs.refl hkill hload
  obtain ⟨page', hread, htorn, -⟩ := ((hfound 1 r hr hpers).2 r' hr').2 0 hpos
  cases hpage.symm.trans hread
  exact ⟨s, v, u, page, hkill, hpage, hfirst, hsecond, htorn⟩

/-- The pages of a persist request that was granted are in their files for good. -/
theorem Damanager.persist_survives {cm : ClientManager}
    (h : Runs Action.exec (fun s action => action.Lossless s)
      (.init nrPagesRam nrPagesSwap files) s₀) (hio : env.WholePages)
    (hpersist : s₀.persist id off size env = .ok (.ok (), cm)) (hs₁ : s₁.toClientManager = cm)
    (hreach₁ : Damanager.Reachable nrPagesRam nrPagesSwap files s₁)
    (hrun : Runs Action.exec (fun s action => action.Lossless s) s₁ s)
    (hops : s.buffer.Carries w) (hlive : w.regions.find? id = some r)
    (hsame : Since id s₁.buffer.trace w.trace) (hkill : w.Killed v)
    (hload : Runs BufferOp.exec (fun _ op => op.Reloads)
      (.init nrPagesRam' nrPagesSwap' v.files) u) (hr' : u.regions.find? id = some r') :
    ∃ k₀, ∀ i ∈ ClientManager.covered off size, ∃ page, u.contents (id, i) = some page ∧
      Torn (Since id s₁.buffer.trace) (id, i) v.trace page ∧
      ((id, i) ≠ k₀ → AsAt (Since id s₁.buffer.trace) (id, i) v.trace page) := by
  obtain ⟨hcarries₀, hreach₀⟩ := Damanager.carries_of_runs Runs.refl h
  obtain ⟨hw₀, -⟩ := Machine.saved_of_carries hcarries₀
  obtain ⟨hcarries, hreach⟩ := Damanager.carries_of_runs hreach₁ hrun
  have hfiled := Machine.Reachable.filed (hreach.intact.reach.trans hops.leads)
  -- the request runs both loops
  obtain ⟨R, w₁, hR, hcan, rfl, hloop⟩ := ClientManager.persist_ok hpersist
  obtain ⟨R', hR', haddr, -⟩ := hreach₀.intact.agrees.find? hR
  rw [← haddr, ← hs₁] at hloop
  have hw₁ := hw₀.persistLoops hR' hcan hio.2.2 (.refl _) hloop
  have hw := hw₁.carries (hcarries.trans hops)
  obtain ⟨k₀, hbut⟩ := hkill.keepsBut hw
  refine ⟨k₀, fun i hi => ?_⟩
  obtain ⟨⟨s₂, hs₂, hfd, hlt⟩, hslot⟩ := Machine.persist_saved hw₀ hR' hcan hio.2.2 hloop hi
  obtain ⟨hsub, hsaved⟩ :=
    Machine.later_of_carries (k := (id, i)) hw₁ hslot (hcarries.trans hops) hsame
  obtain ⟨s₃, hs₃, -, hsize, hswap⟩ := hsub r.shape (Book.shape_of_find? hlive)
  cases hs₂.symm.trans hs₃
  have hpers : r.isAnon = false := decide_eq_false fun hanon => hfd (hswap.symm.trans hanon)
  have hi : i < r.ptes.length := by
    rw [r.nrPages, show r.size = s₂.size from hsize]
    exact hlt
  exact hbut.reload (hkill.size_eq hw hfiled hlive hpers) hlive hpers hi
    (fun _ hevs => hsame.trans hevs) (hsaved (Book.persPage_of_find? hlive hpers hi)) hload hr'

/-- What was persisted survives.  A persist request of a client is answered without an
error, and later the manager is killed and started again, while the region is still the
one it was.  Then the pages of the request are as they were when it was answered, or at
a later moment, and at most one of them is torn. -/
theorem crash_keeps_persisted {pid : Int} {mappings : OrdMap Nat Nat} {addr : Nat}
    {res : CallResult}
    (h : Runs Action.exec (fun s action => action.Lossless s)
      (.init nrPagesRam nrPagesSwap files) s₀)
    (hmap : mappings.find? addr = some id) (hio : env.WholePages)
    (hclient : s₀.clients.find? pid = some ⟨mappings, true⟩)
    (hcall : s₀.handleCall pid ⟨mappings, true⟩ (.persist addr off size) env = .ok (.ok res, s₁))
    (hrun : Runs Action.exec (fun s action => action.Lossless s) s₁ s)
    (hops : s.buffer.Carries w) (hlive : w.regions.find? id = some r)
    (hsame : Since id s₁.buffer.trace w.trace) (hkill : w.Killed v)
    (hload : Runs BufferOp.exec (fun _ op => op.Reloads)
      (.init nrPagesRam' nrPagesSwap' v.files) u) (hr' : u.regions.find? id = some r') :
    ∃ k₀, ∀ i ∈ ClientManager.covered off size, ∃ page, u.contents (id, i) = some page ∧
      Torn (Since id s₁.buffer.trace) (id, i) v.trace page ∧
      ((id, i) ≠ k₀ → AsAt (Since id s₁.buffer.trace) (id, i) v.trace page) := by
  have hreach₁ := (Damanager.carries_of_runs Runs.refl
    (h.trans (Damanager.call_lossless hclient hio hcall))).2
  obtain ⟨cm, hpersist, hs₁⟩ := Damanager.handleCall_persist hmap hcall
  exact Damanager.persist_survives h hio hpersist hs₁ hreach₁ hrun hops hlive hsame hkill hload hr'

/-- Only stores were made since. -/
def onlyStores (evs evs' : List Event) : Bool :=
  (evs'.take (evs'.length - evs.length)).all fun
    | .created _ _ => false
    | .stored _ => true

theorem since_of_onlyStores {evs evs' : List Event} (h : onlyStores evs evs' = true)
    (hnews : ∃ news, evs' = news ++ evs) : Since id evs evs' := by
  obtain ⟨news, rfl⟩ := hnews
  refine ⟨news, rfl, fun contents hmem => ?_⟩
  rw [onlyStores, List.length_append, Nat.add_sub_cancel, List.take_left] at h
  exact Bool.false_ne_true (List.all_eq_true.mp h _ hmem)

theorem wholePages_default : CallEnv.WholePages {} :=
  have hio : Env.WholePages {} := ⟨rfl, fun _ => rfl⟩
  ⟨hio, hio, hio⟩

/-- The page is persisted and stored to again, and the manager is killed in persisting
it once more. -/
theorem unsaved_persists : ∃ (s₀ s₁ s : Damanager) (mappings : OrdMap Nat Nat) (res : CallResult),
    Runs Action.exec (fun s action => action.Lossless s) (.init 2 0 .empty) s₀ ∧
      s₀.clients.find? 7 = some ⟨mappings, true⟩ ∧ mappings.find? 0x1000 = some 1 ∧
      s₀.handleCall 7 ⟨mappings, true⟩ (.persist 0x1000 0 pageSize) {} = .ok (.ok res, s₁) ∧
      Runs Action.exec (fun s action => action.Lossless s) s₁ s ∧
      Since 1 s₁.buffer.trace s.buffer.trace ∧ tears 122 121 s.buffer = true := by
  have hrun : reaches Action.exec (fun _ _ => true)
      (fun s => (s.clients.find? 7).any fun client => client.running &&
        decide (client.mappings.find? 0x1000 = some 1) &&
          match s.handleCall 7 client (.persist 0x1000 0 pageSize) {} with
          | .ok (.ok _, s₁) => reaches Action.exec (fun _ _ => true)
              (fun s => onlyStores s₁.buffer.trace s.buffer.trace && tears 122 121 s.buffer)
              (storeTwo true 122 123) s₁
          | _ => false)
      unsaved (.init 2 0 .empty) = true := by
    decide +kernel
  obtain ⟨s₀, hs, htest⟩ : ∃ s, Runs Action.exec (fun s action => action.Lossless s)
      (Damanager.init 2 0 .empty) s ∧ _ :=
    Runs.of_reaches hrun fun action haction s _ => unsaved_lossless haction s
  simp only [Option.any_eq_true, Bool.and_eq_true, decide_eq_true_eq] at htest
  obtain ⟨⟨mappings, running⟩, hclient, ⟨hrunning, hmap⟩, htest⟩ := htest
  cases hrunning
  split at htest
  next res s₁ hcall =>
    obtain ⟨s, hrun, htest⟩ : ∃ s, Runs Action.exec (fun s action => action.Lossless s) s₁ s ∧ _ :=
      Runs.of_reaches htest fun action haction s _ => storeTwo_lossless haction s
    rw [Bool.and_eq_true] at htest
    obtain ⟨hcarries, hreach⟩ := Damanager.carries_of_runs Runs.refl
      (hs.trans (Damanager.call_lossless hclient wholePages_default hcall))
    have hnews := Machine.trace_of_carries (Machine.saved_of_carries hcarries).1
      (Damanager.carries_of_runs hreach hrun).1
    exact ⟨s₀, s₁, s, mappings, res, hs, hclient, hmap, hcall, hrun,
      since_of_onlyStores htest.1 hnews, htest.2⟩
  next => cases htest

/-- The second persist request is torn.  What the first one wrote is kept. -/
theorem crash_keeps_persisted_torn : ∃ (s₁ : Damanager) (v u : Machine) (page : Page),
    u.contents (1, 0) = some page ∧ page ⟨0, pageSize_pos⟩ = 122 ∧ page ⟨1, one_lt_pageSize⟩ = 121 ∧
      Torn (Since 1 s₁.buffer.trace) (1, 0) v.trace page := by
  obtain ⟨s₀, s₁, s, mappings, res, hs, hclient, hmap, hcall, hrun, hsame, htears⟩ :=
    unsaved_persists
  obtain ⟨r, v, u, r', page, hr, hpers, hpos, hkill, hload, hr', hpage, hfirst, hsecond⟩ :=
    killed_of_tears htears
  obtain ⟨k₀, hfound⟩ := crash_keeps_persisted hs hmap wholePages_default hclient hcall hrun
    Runs.refl hr hsame hkill hload hr'
  obtain ⟨page', hread, htorn, -⟩ := hfound 0 (by decide)
  cases hpage.symm.trans hread
  exact ⟨s₁, v, u, page, hpage, hfirst, hsecond, htorn⟩

end Results

end DASim
