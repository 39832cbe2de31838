import DASim.Buffer.Contents
import DASim.Buffer.Victim

/-!
# Paged memory is flat memory

Every operation keeps `Sound`.  The long way is that of a page fault: the page
is copied to the temporary page, a victim may be written over the slot this
page was in, and then the page is copied to the frame of the victim.  Client
stores come in between.

From `Sound` with the switch off follows that anonymous memory behaves as flat
memory, whatever is done to persistent regions.
-/

namespace DASim

namespace Machine

variable {all : Bool} {w w' : Machine} {k : PageKey} {nrPagesRam nrPagesSwap p id : Nat}
  {spare : List Nat} {src : Cell} {env : Env}

/-! ## A page fault -/

/-- A page that was never touched is nowhere yet. -/
theorem Sound.placed_fresh (h : w.Sound all nrPagesRam nrPagesSwap) {r : Region}
    (hr : w.regions.find? k.1 = some r) (hpte : w.pte k = some .fresh) :
    Placed (w.HoldsBut all k .blank) w.read (flat w.trace) := by
  refine h.placed.mono fun k' c hR => ?_
  by_cases hk : k' = k
  · subst hk
    rw [Book.holdsBut_self] at hR
    obtain ⟨s, hs, ⟨htracked, rfl⟩ | ⟨hfd, -, -⟩⟩ := hR
    · exact ⟨s, .fresh, hs, hpte, Or.inl ⟨htracked, rfl⟩⟩
    · rw [Book.shape_of_find? hr] at hs
      cases hs
      have hpers : w.anon k'.1 = false := (Book.anon_of_find? hr).trans (decide_eq_false hfd)
      exact absurd rfl (h.owned.pers k' .fresh hpers hpte).1
  · rwa [Book.holdsBut_of_ne hk] at hR

/-- A page in storage is read into the buffer. -/
theorem Sound.placed_swapped (h : w.Sound all nrPagesRam nrPagesSwap) {r : Region} {x : Nat}
    (hr : w.regions.find? k.1 = some r) (hpte : w.pte k = some (.swapped x)) :
    Placed (w.HoldsBut all k .tmp) (Function.update w.read .tmp (w.read (r.swapfd.cell x)))
      (flat w.trace) := by
  refine h.placed.assign fun k' c hR => ?_
  by_cases hk : k' = k
  · subst hk
    rw [Book.holdsBut_self] at hR
    obtain ⟨s, hs, hc⟩ := hR
    have hs' := hs
    rw [Book.shape_of_find? hr] at hs'
    cases hs'
    rcases hc with ⟨htracked, rfl⟩ | ⟨hfd, hall, rfl⟩
    · exact Or.inl ⟨rfl, h.placed k' _ ⟨_, _, hs, hpte, Or.inl ⟨htracked, rfl⟩⟩⟩
    · have hpers : w.anon k'.1 = false := (Book.anon_of_find? hr).trans (decide_eq_false hfd)
      refine Or.inr ⟨SwapFd.cell_ne_tmp _ _, _, _, hs, hpte, Or.inl ⟨Or.inr hall, ?_⟩⟩
      rw [← (h.owned.pers k' _ hpers hpte).2 x rfl]
      rfl
  · rw [Book.holdsBut_of_ne hk] at hR
    exact Or.inr ⟨hR.ne_tmp, hR⟩

/-- The page is read in. -/
theorem Sound.load (h : w.Sound all nrPagesRam nrPagesSwap) {r : Region} {e : RegionPte}
    (hr : w.regions.find? k.1 = some r) (he : r.ptes[k.2]? = some e)
    (habs : ∀ p, e ≠ .present p) (hio : env.preads = []) :
    (w.loadPage r e env).Fetched all nrPagesRam nrPagesSwap [] k e.source := by
  have hpte : w.pte k = some e := Book.pte_eq_some.mpr ⟨r, hr, he⟩
  refine ⟨?_, loadPage_laid h.laid r e env, fun ha k' => ?_, ?_⟩
  · rw [loadPage_toBook]
    exact h.owned.fetch hr he habs
  · refine (h.prot ha k').sub (.of_shape ?_) ?_ (fun a _ => by rw [loadPage_vm]) fun q _ hq => ?_
    · rw [loadPage_toBook]
      rfl
    · rw [loadPage_toBook]
      rfl
    · rwa [loadPage_toBook] at hq
  · -- the book of `loadPage` has the same entries, so the relation is about `w`
    have hrel : ∀ k' c, (w.loadPage r e env).HoldsBut all k e.source k' c →
        w.HoldsBut all k e.source k' c := by
      intro k' c hR
      rw [loadPage_toBook] at hR
      exact hR
    cases e with
    | present p => exact absurd rfl (habs p)
    | fresh => exact (h.placed_fresh hr hpte).mono hrel
    | swapped x =>
        have hread : (w.loadPage r (.swapped x) env).read =
            Function.update w.read .tmp (w.read (r.swapfd.cell x)) := by
          rw [loadPage, swapInPage, hio, preadLoop_nil, read_cell]
          funext c
          cases c <;> rfl
        rw [hread]
        exact (h.placed_swapped hr hpte).mono hrel

/-- The victim is unmapped while its contents are still only in the frame. -/
theorem Holding.unmapVictim {R : PageKey → Cell → Prop} (h : Holding R w) (p x : Nat)
    (slots : List Nat) (page : PageInfo) (r : Region) (env : Env) :
    Holding R ((w.takeVictim p slots env).unmapPage x page r env) := by
  have hslots : Holding R { w with freeSwapEntries := slots } :=
    h.tables (read_congr rfl rfl rfl rfl) rfl rfl fun _ _ hm => hm
  have htake : Holding R (w.takeVictim p slots env) :=
    (hslots.interfere (env.stores 1)).tables (read_congr rfl rfl rfl rfl) rfl rfl fun _ _ hm => hm
  exact ((((htake.interfere _).setPte _ _).interfere _).madvise _).interfere _

theorem HasFile.of_backed (hw : w.Backed) {r : Region} (hr : w.regions.find? id = some r) :
    w.HasFile r.swapfd := by
  intro id' hfd
  rcases hw id r.shape (Book.shape_of_find? hr) with hswap | ⟨hpers, hfile⟩
  · change r.swapfd = .swap at hswap
    rw [hswap] at hfd
    cases hfd
  · change r.swapfd = .pers id at hpers
    rw [hpers] at hfd
    cases hfd
    exact hfile

/-- The cell a victim goes to holds no other page. -/
theorem Fetched.victim_cell {x : Nat} {slots : List Nat} {r : Region} {k' : PageKey} {c : Cell}
    (h : w.Fetched all nrPagesRam nrPagesSwap [] k src) (hsrc : src = .tmp ∨ src = .blank)
    (hv : w.findVictim w.usedPages.vals = .ok (p, x, slots))
    (hr : w.regions.find? (w.pageInfos p).regionId = some r)
    (hk' : k' ≠ ((w.pageInfos p).regionId, (w.pageInfos p).off))
    (hR : w.HoldsBut all k src k' c) : c ≠ r.swapfd.cell x := by
  obtain ⟨hused, r', hr', hcase⟩ := Book.findVictim_ok hv
  rw [hr] at hr'
  cases hr'
  rintro rfl
  rcases hcase with ⟨ha, hlast, -⟩ | ⟨ha, rfl, -⟩
  · -- the slot was on the free list
    have hfd : r.swapfd = .swap := of_decide_eq_true ha
    rw [hfd] at hR
    have hmem : x ∈ w.freeSwapEntries := List.mem_of_getLast? hlast
    by_cases hk : k' = k
    · subst hk
      obtain ⟨s, -, ⟨-, hc⟩ | ⟨hswap, -, hc⟩⟩ := Book.holdsBut_self.mp hR
      · rcases hsrc with rfl | rfl <;> cases hc
      · cases hfd' : s.swapfd with
        | swap => exact hswap hfd'
        | pers id' =>
            rw [hfd'] at hc
            cases hc
    · have hslot := ((Book.holdsBut_of_ne hk).mp hR).slot
      have hheld := h.paging.slots.held k' x (by rw [Function.update_of_ne hk]; exact hslot)
      exact hheld.2 (List.mem_append_left _ hmem)
  · -- the place in the file is the victim's own
    rw [h.laid.backed.swapfd_eq hr ha] at hR
    by_cases hk : k' = k
    · subst hk
      obtain ⟨s, hs, ⟨-, hc⟩ | ⟨hswap, -, hc⟩⟩ := Book.holdsBut_self.mp hR
      · rcases hsrc with rfl | rfl <;> cases hc
      · rcases h.laid.backed k'.1 s hs with hswap' | ⟨hpers, -⟩
        · exact hswap hswap'
        · rw [hpers] at hc
          have hinj := Cell.file.inj hc
          exact hk' (Prod.ext hinj.1.symm hinj.2.symm)
    · exact hk' (h.laid.backed.holds_file h.paging.pers ((Book.holdsBut_of_ne hk).mp hR)).1

/-- The victim is no longer mapped, and nothing else is. -/
theorem Protected.evict {x : Nat} {slots : List Nat} {r : Region} {e : RegionPte}
    (h : w.Protected) (hl : w.Laid)
    (hown : w.frameOf ((w.pageInfos p).regionId, (w.pageInfos p).off) = some p)
    (hr : w.regions.find? (w.pageInfos p).regionId = some r)
    (he : r.ptes[(w.pageInfos p).off]? = some e)
    (hw' : w' = (w.takeVictim p slots env).evictPage p x (w.pageInfos p) r env)
    (hshape : w'.shape = w.shape) : w'.Protected := by
  have haddr := Book.addr?_of_pte (k := ((w.pageInfos p).regionId, (w.pageInfos p).off)) hr he
  refine h.unmap hl haddr hshape ?_ ?_ ?_
  · rw [hw', evictVictim_frameOf hown]
  · rw [hw', evictPage_vm, takeVictim_vm]
  · rw [hw', evictVictim_toBook]
    rfl

/-- The victim is in its slot or its file, and every other page where it was. -/
theorem Fetched.evict_holds {x : Nat} {slots : List Nat} {r : Region} {k' : PageKey} {c : Cell}
    (h : w.Fetched all nrPagesRam nrPagesSwap [] k src)
    (hv : w.findVictim w.usedPages.vals = .ok (p, x, slots))
    (hr : w.regions.find? (w.pageInfos p).regionId = some r)
    (hR : ((w.takeVictim p slots env).evictPage p x (w.pageInfos p) r env).HoldsBut all k src
      k' c) :
    (k' = ((w.pageInfos p).regionId, (w.pageInfos p).off) ∧
        (r.swapfd = .swap ∨ all = true) ∧ c = r.swapfd.cell x) ∨
      (k' ≠ ((w.pageInfos p).regionId, (w.pageInfos p).off) ∧ w.HoldsBut all k src k' c) := by
  have hused := (Book.findVictim_ok hv).1
  have hown := h.paging.frames.own_of_used hused
  rw [evictVictim_toBook] at hR
  rcases Book.HoldsBut.of_swapped (b := w.toBook) (Book.isSome_of_frameOf hown)
    (h.paging.victim_ne hused) hR with ⟨hk', s, hs, hc⟩ | hother
  · rw [Book.shape_of_find? hr] at hs
    cases hs
    exact Or.inl ⟨hk', hc⟩
  · exact Or.inr hother

/-- The victim moves from its frame to its slot or its file. -/
theorem Fetched.evict {x : Nat} {slots : List Nat} {r : Region} {e : RegionPte}
    (h : w.Fetched all nrPagesRam nrPagesSwap [] k src) (hsrc : src = .tmp ∨ src = .blank)
    (hv : w.findVictim w.usedPages.vals = .ok (p, x, slots))
    (hr : w.regions.find? (w.pageInfos p).regionId = some r)
    (he : r.ptes[(w.pageInfos p).off]? = some e) (hio : env.pwrites 0 = [])
    (hw' : w' = (w.takeVictim p slots env).evictPage p x (w.pageInfos p) r env)
    (hlaid : w'.Laid) (hshape : w'.shape = w.shape) :
    w'.Fetched all nrPagesRam nrPagesSwap [p] k src := by
  obtain ⟨hused, r', hr', hslot⟩ := Book.findVictim_ok hv
  cases hr.symm.trans hr'
  have hne := h.paging.victim_ne hused
  have hown := h.paging.frames.own_of_used hused
  have hpte := Book.frameOf_eq_some.mp hown
  have hsrc' : ∀ q, src ≠ .frame q := by
    intro q
    rcases hsrc with rfl | rfl <;> simp
  have hpaging : w'.Paging nrPagesRam nrPagesSwap [p] k := by
    rw [hw', evictVictim_toBook]
    exact h.paging.evict hv
  have hprot : all = true → w'.Protected := fun ha =>
    (h.prot ha).evict h.laid hown hr he hw' hshape
  refine ⟨hpaging, hlaid, hprot, ?_⟩
  have hwritable := writable_holdsBut hlaid.mapped hpaging.frames hprot hpaging.absent hsrc'
  have hhold := Holding.unmapVictim ⟨h.placed, h.writable hsrc'⟩ p x slots (w.pageInfos p) r env
  have hrel : ∀ k' c, w'.HoldsBut all k src k' c → _ := fun k' c hR =>
    h.evict_holds hv hr (hw' ▸ hR)
  -- the last stores come when the victim's contents have arrived
  unfold evictPage at hw'
  split at hw'
  next hclean =>
    obtain ⟨ha, hclean⟩ : r.isAnon = false ∧ (w.pageInfos p).dirty = false := by simpa using hclean
    have hfd : r.swapfd ≠ .swap := of_decide_eq_false ha
    obtain ⟨-, hx, -⟩ := hslot.resolve_left (by simp [ha])
    refine hwritable.placed_interfere hw' (hhold.placed.mono fun k' c hR => ?_)
    rcases hrel k' c hR with ⟨rfl, htracked, rfl⟩ | ⟨-, hother⟩
    · refine (Book.holdsBut_of_ne hne).mpr ⟨r.shape, _, Book.shape_of_find? hr, hpte, Or.inr ?_⟩
      exact ⟨hfd, htracked.resolve_left hfd, ⟨p, rfl, hclean⟩, by rw [hx]; rfl⟩
    · exact hother
  next hdirty =>
    have hfile : ((w.takeVictim p slots env).unmapPage x (w.pageInfos p) r env).HasFile
        r.swapfd := by
      intro id' hfd
      rw [unmapPage_files, takeVictim_files]
      exact HasFile.of_backed h.laid.backed hr id' hfd
    refine hwritable.placed_interfere hw' ?_
    rw [hio, read_swapOutPageData hfile, swapOutPageData_trace]
    refine hhold.placed.assign fun k' c hR => ?_
    rcases hrel k' c hR with ⟨rfl, htracked, rfl⟩ | ⟨hk', hother⟩
    · refine Or.inl ⟨rfl, hhold.placed _ (.frame p) ((Book.holdsBut_of_ne hne).mpr ?_)⟩
      exact ⟨r.shape, _, Book.shape_of_find? hr, hpte, Or.inl ⟨htracked, rfl⟩⟩
    · exact Or.inr ⟨h.victim_cell hsrc hv hr hk' hother, hother⟩

/-- A frame is found for the page. -/
theorem Fetched.acquire (h : w.Fetched all nrPagesRam nrPagesSwap [] k src)
    (hsrc : src = .tmp ∨ src = .blank) (hio : env.pwrites 0 = [])
    (hacq : w.acquirePage env = .ok (p, w')) :
    w'.Fetched all nrPagesRam nrPagesSwap [p] k src := by
  obtain ⟨hlaid, hshape⟩ := acquirePage_laid h.laid h.paging hacq
  rcases acquirePage_cases hacq with ⟨pages, hfree, rfl⟩ | ⟨-, hout⟩
  · refine ⟨h.paging.take hfree, hlaid, fun ha k' => ?_, h.placed⟩
    exact (h.prot ha k').sub (.of_shape rfl) rfl (fun _ _ => rfl) fun _ _ hclean => hclean
  · obtain ⟨x, slots, r, e, hv, hr, he, hw'⟩ := swapOutPage_ok hout
    exact h.evict hsrc hv hr he hio hw' hlaid hshape

theorem acquirePage_pte (hp : w.Paging nrPagesRam nrPagesSwap [] k)
    (h : w.acquirePage env = .ok (p, w')) : w'.pte k = w.pte k := by
  rcases acquirePage_cases h with ⟨pages, -, rfl⟩ | ⟨-, hout⟩
  · rfl
  · obtain ⟨x, slots, r, e, hv, -, -, rfl⟩ := swapOutPage_ok hout
    have hused := (Book.findVictim_ok hv).1
    rw [evictVictim_pte (hp.frames.own_of_used hused),
      Function.update_of_ne (Ne.symm (hp.victim_ne hused))]

/-- What the page is filled with, and whether it counts as dirty. -/
theorem installPage_eq {e : RegionPte} {a : Nat} (hpte : w.pte k = some e) (write : Bool) :
    (w.installPage k.1 k.2 a write p).read =
        Function.update w.read (.frame p) (w.read e.source) ∧
      (w.installPage k.1 k.2 a write p).pageInfos =
        Function.update w.pageInfos p ⟨k.1, k.2, w.usedPages.next, e.slot?.isNone || write⟩ := by
  have hpte' : w.pte (k.1, k.2) = some e := hpte
  cases e with
  | swapped x =>
      refine ⟨?_, ?_⟩
      · refine read_update_shm ?_ rfl rfl rfl
        simp only [installPage, hpte', if_true]
        rfl
      · simp only [installPage, hpte', if_true]
        rfl
  | fresh =>
      refine ⟨?_, ?_⟩
      · refine read_update_shm ?_ rfl rfl rfl
        simp only [installPage, hpte', Bool.false_eq_true, if_false]
        rfl
      · simp only [installPage, hpte', Bool.false_eq_true, if_false]
        rfl
  | present q =>
      refine ⟨?_, ?_⟩
      · refine read_update_shm ?_ rfl rfl rfl
        simp only [installPage, hpte', Bool.false_eq_true, if_false]
        rfl
      · simp only [installPage, hpte', Bool.false_eq_true, if_false]
        rfl

/-- The page moves into its frame. -/
theorem Fetched.install {e : RegionPte} {a : Nat}
    (h : w.Fetched all nrPagesRam nrPagesSwap [p] k e.source) (hpte : w.pte k = some e)
    (hk : w.addr? k = some a) (write : Bool)
    (hw' : w' = w.installPage k.1 k.2 a write p) :
    Placed (w'.Holds all) w'.read (flat w'.trace) ∧
      (all = true → ∀ k', k' ≠ k → w'.ProtectedAt k') := by
  obtain ⟨hread, hinfo⟩ := installPage_eq (a := a) (p := p) hpte write
  rw [← hw'] at hread hinfo
  have hshape : w'.shape = w.shape := by
    rw [hw']
    exact Book.shape_setPte _ _ _
  have hptes : w'.pte = Function.update w.pte k (some (.present p)) := by
    rw [hw']
    exact Book.pte_setPte _ h.paging.live
  have hspare : ∀ k' q, w.frameOf k' = some q → q ≠ p := by
    rintro k' q hq rfl
    exact (h.paging.frames.pool.held k' q hq).2 (by simp)
  have hclean : ∀ k' q, w.frameOf k' = some q → w'.pageInfos q = w.pageInfos q := by
    intro k' q hq
    rw [hinfo, Function.update_of_ne (hspare k' q hq)]
  have htrace : w'.trace = w.trace := by rw [hw']; rfl
  refine ⟨?_, fun ha k' hkk => ?_⟩
  · rw [hread, htrace]
    refine h.placed.assign fun k' c hR => ?_
    by_cases hkk : k' = k
    · subst hkk
      obtain ⟨s, e', hs, he', hc⟩ := hR
      rw [hshape] at hs
      rw [hptes, Function.update_self] at he'
      cases he'
      rcases hc with ⟨htracked, rfl⟩ | ⟨hfd, hall, -, rfl⟩
      · refine Or.inl ⟨rfl, h.placed k' _ (Book.holdsBut_self.mpr ⟨s, hs, Or.inl ⟨htracked, rfl⟩⟩)⟩
      · refine Or.inr ⟨SwapFd.cell_ne_frame _ _ _, Book.holdsBut_self.mpr ⟨s, hs, Or.inr ?_⟩⟩
        exact ⟨hfd, hall, rfl⟩
    · have hR : w.Holds all k' c := by
        refine hR.sub (.of_shape (by rw [hshape]))
          (by rw [hptes, Function.update_of_ne hkk]) fun q hq => ?_
        rw [hclean k' q hq]
        exact id
      refine Or.inr ⟨?_, (Book.holdsBut_of_ne hkk).mpr hR⟩
      rintro rfl
      exact hspare k' p hR.frame rfl
  · refine (h.prot ha k').sub (.of_shape (by rw [hshape])) ?_ (fun a' ha' => ?_) fun q hq => ?_
    · rw [Book.frameOf, hptes, Function.update_of_ne hkk]
      rfl
    · have hne : a' ≠ a := fun heq => hkk (h.laid.ranges.addr?_inj ha' (heq ▸ hk))
      rw [hw']
      exact Function.update_of_ne hne _ _
    · rw [hclean k' q hq]
      exact id

/-! ## Dirty flags -/

/-- Declaring the page in frame `p` dirty or clean is sound, unless it makes a
dirty page of a persistent region clean. -/
theorem Sound.setDirty (h : w.Sound all nrPagesRam nrPagesSwap) {d : Bool}
    (hd : all = true → d = false → ∀ k s, w.shape k.1 = some s → s.swapfd ≠ .swap →
      w.frameOf k = some p → (w.pageInfos p).dirty = false) :
    ({ w with toBook := w.setDirty p d } : Machine).Sound all nrPagesRam nrPagesSwap where
  owned := h.owned.setDirty p d
  laid := setDirty_laid h.laid p d
  prot := by
    intro ha k s q a hs hfd hq hclean hk
    refine h.prot ha k s q a hs hfd hq ?_ hk
    change ((w.setDirty p d).pageInfos q).dirty = false at hclean
    rw [Book.dirty_setDirty] at hclean
    split at hclean
    next hqp => exact hqp ▸ hd ha hclean k s hs hfd (hqp ▸ hq)
    next => exact hclean
  placed := h.placed.mono fun k _ hR =>
    Book.Holds.of_setDirty hR fun ha hfalse => hd ha hfalse k

/-- A read fault on a dirty page of a persistent region that is already
there. -/
def staleRead (id off : Nat) (write : Bool) (w : Machine) : Bool :=
  match w.pte (id, off / pageSize) with
  | some (.present p) => !write && !w.anon id && (w.pageInfos p).dirty
  | _ => false

/-- A page fault keeps the contents of all pages.  The page itself may need
protection, and the result says so. -/
theorem Sound.unfix {off : Nat} {write : Bool} {res : UnfixResult}
    (h : w.Sound all nrPagesRam nrPagesSwap) (hio : env.WholePages)
    (hstale : all = true → w.staleRead id off write = false)
    (hunfix : w.unfix id off write env = .ok (res, w')) :
    Placed (w'.Holds all) w'.read (flat w'.trace) ∧ (all = true → ∀ k,
      k = (id, off / pageSize) ∧ res.writeprotect = true ∨ w'.ProtectedAt k) := by
  obtain ⟨r, e, hr, he, ⟨p, rfl, rfl, -⟩ | ⟨habs, p, w₁, hacq, hw', hres⟩⟩ := unfix_cases hunfix
  · have hpte : w.pte (id, off / pageSize) = some (.present p) := Book.pte_eq_some.mpr ⟨r, hr, he⟩
    have hset := h.setDirty (p := p) (d := write) fun ha hfalse k s hs hfd hk => by
      have hkey := h.owned.frames.pool.inj k _ p hk (Book.frameOf_eq_some.mpr hpte)
      have hst := hstale ha
      subst hkey
      have hanon : w.anon id = false := by
        rw [Book.anon_of_shape hs]
        exact decide_eq_false hfd
      simpa [staleRead, hpte, hfalse, hanon] using hst
    exact ⟨hset.placed, fun ha k => Or.inr (hset.prot ha k)⟩
  · have hsrc : e.source = .tmp ∨ e.source = .blank := by
      cases e with
      | swapped x => exact Or.inl rfl
      | fresh => exact Or.inr rfl
      | present q => exact Or.inr rfl
    have hload := h.load (k := (id, off / pageSize)) hr he habs hio.1
    have hfetch := hload.interfere (fun q => e.source_ne_frame q) (env.stores 0)
    have hpte : w₁.pte (id, off / pageSize) = some e := by
      rw [acquirePage_pte hfetch.paging hacq, interfere_toBook, loadPage_toBook]
      exact Book.pte_eq_some.mpr ⟨r, hr, he⟩
    have haddr : w₁.addr? (id, off / pageSize) = some (r.pageAddr (off / pageSize)) := by
      have hshape := (acquirePage_laid hfetch.laid hfetch.paging hacq).2
      rw [interfere_toBook, loadPage_toBook] at hshape
      rw [Book.addr?_congr hshape]
      exact Book.addr?_of_pte hr he
    obtain ⟨hplaced, hprot⟩ := (hfetch.acquire hsrc (hio.2 0) hacq).install hpte haddr write hw'
    refine ⟨hplaced, fun ha k => ?_⟩
    by_cases hk : k = (id, off / pageSize)
    · cases hwp : res.writeprotect with
      | true => exact Or.inl ⟨hk, rfl⟩
      | false =>
          -- the page is dirty, so it needs no protection
          have hdirty : (w'.pageInfos p).dirty = true := by
            rw [hres] at hwp
            simpa using hwp
          refine Or.inr fun s q a hs hfd hq hclean hk' => ?_
          have hframe : w'.frameOf k = some p := by
            rw [hw', hk]
            exact (congrFun (Book.frameOf_setPte _
              (Option.isSome_iff_exists.mpr ⟨e, hpte⟩)) _).trans (Function.update_self _ _ _)
          rw [hframe] at hq
          cases hq
          rw [hdirty] at hclean
          cases hclean
    · exact Or.inr (hprot ha k hk)

/-! ## Regions come and go -/

theorem flat_created (id : Nat) (contents : Nat → Page) (evs : List Event) (k : PageKey) :
    flat (.created id contents :: evs) k = if k.1 = id then contents k.2 else flat evs k := rfl

/-- A new region holds what it was created with. -/
theorem Sound.created {addr size : Nat} {fd : SwapFd} {persistent anchored : Bool}
    (contents : Nat → Page) (h : w.Sound all nrPagesRam nrPagesSwap)
    (ho : w'.Owned nrPagesRam nrPagesSwap) (hl : w'.Laid)
    (hreg : w'.regions = w.regions.insert id (Region.new addr size fd persistent anchored))
    (hfd : fd = .pers id ∧ persistent = true ∨ fd = .swap ∧ persistent = false)
    (hinfo : w'.pageInfos = w.pageInfos) (htrace : w'.trace = .created id contents :: w.trace)
    (hread : ∀ c, (∀ i, c ≠ .file id i) → w'.read c = w.read c)
    (hvm : ∀ k a, k.1 ≠ id → w.addr? k = some a → w'.vm a = w.vm a)
    (hpers : all = true → persistent = true → ∀ i, i < size / pageSize →
      w'.read (.file id i) = contents i)
    (hanon : persistent = false → ∀ i, contents i = freshPage) :
    w'.Sound all nrPagesRam nrPagesSwap := by
  have hshape : ∀ id', w'.shape id' =
      if id' = id then some ⟨addr, size, fd, anchored⟩ else w.shape id' := by
    intro id'
    rw [Book.shape, hreg, OrdMap.find?_insert]
    split <;> rfl
  have hpte : ∀ k : PageKey, w'.pte k = if k.1 = id then
      (Region.new addr size fd persistent anchored).ptes[k.2]? else w.pte k := by
    intro k
    rw [Book.pte, hreg, OrdMap.find?_insert]
    split <;> rfl
  have hsub : ∀ k : PageKey, k.1 ≠ id → Book.SubAt k.1 w'.toBook w.toBook :=
    fun k hk => .of_shape (by rw [hshape, if_neg hk])
  refine ⟨ho, hl, fun ha k => ?_, fun k c hR => ?_⟩
  · by_cases hk : k.1 = id
    · intro s p a _ _ hp
      rw [Book.frameOf_eq_some, hpte, if_pos hk] at hp
      have hnew := (Region.new_ptes hp).2
      split at hnew <;> cases hnew
    · refine (h.prot ha k).sub (hsub k hk) ?_ (fun a ha => hvm k a hk ha) fun p _ hp => ?_
      · rw [Book.frameOf, hpte, if_neg hk]
        rfl
      · rwa [hinfo] at hp
  · rw [htrace, flat_created]
    by_cases hk : k.1 = id
    · rw [if_pos hk]
      obtain ⟨s, e, hs, he, hc⟩ := hR
      rw [hshape, if_pos hk] at hs
      cases hs
      rw [hpte, if_pos hk] at he
      obtain ⟨hlt, rfl⟩ := Region.new_ptes he
      rcases hfd with ⟨rfl, rfl⟩ | ⟨rfl, rfl⟩
      · rcases hc with ⟨htracked, rfl⟩ | ⟨-, -, ⟨p, hp, -⟩, -⟩
        · exact hpers (htracked.resolve_left (by simp)) rfl k.2 hlt
        · cases hp
      · rcases hc with ⟨-, rfl⟩ | ⟨hne, -⟩
        · exact (hanon rfl k.2).symm
        · exact absurd rfl hne
    · have hR : w.Holds all k c := by
        refine hR.sub (hsub k hk) (by rw [hpte, if_neg hk]) fun p _ hp => ?_
        rwa [hinfo] at hp
      have hc : ∀ i, c ≠ .file id i := by
        rintro i rfl
        exact hk (congrArg Prod.fst (h.laid.backed.holds_file h.owned.pers hR).1)
      rw [if_neg hk, hread c hc]
      exact h.placed k c hR

theorem Sound.free (h : w.Sound all nrPagesRam nrPagesSwap) (hfree : w.free id env = .ok w') :
    w'.Sound all nrPagesRam nrPagesSwap := by
  rcases free_kept h.laid hfree with rfl | hkept
  · exact h
  refine ⟨free_owned h.owned hfree, free_laid h.laid hfree, fun ha k => ?_, fun k c hR => ?_⟩
  · by_cases hk : k.1 = id
    · intro s p a hs
      rw [hkept.shape, if_pos hk] at hs
      cases hs
    · refine (h.prot ha k).sub (hkept.sub k.1) ?_ (fun a ha => hkept.vm k a hk ha) fun p _ hp => ?_
      · rw [Book.frameOf, hkept.pte hk]
        rfl
      · rwa [hkept.pageInfos] at hp
  · have hk : k.1 ≠ id := by
      obtain ⟨s, e, hs, -⟩ := hR
      exact hkept.ne_of_shape (by rw [hs]; rfl)
    have hR : w.Holds all k c := by
      refine hR.sub (hkept.sub k.1) (hkept.pte hk) fun p _ hp => ?_
      rwa [hkept.pageInfos] at hp
    rw [hkept.trace, ← h.placed k c hR]
    cases c with
    | frame p => exact congrFun hkept.shm p
    | slot x => exact hkept.readSlot .swap x (by simp)
    | file id' i =>
        have hkey := congrArg Prod.fst (h.laid.backed.holds_file h.owned.pers hR).1
        refine hkept.readSlot (.pers id') i fun heq => hk ?_
        rw [← SwapFd.pers.inj heq]
        exact hkey
    | tmp => exact absurd rfl hR.ne_tmp
    | blank => rfl

theorem Sound.setAnchored (h : w.Sound all nrPagesRam nrPagesSwap) (anchored : Bool) :
    (w.setAnchored id anchored).Sound all nrPagesRam nrPagesSwap := by
  have hsub := setAnchored_sub w id anchored
  have hpte := Book.pte_setAnchored w id anchored
  refine ⟨setAnchored_owned h.owned anchored, setAnchored_laid h.laid anchored, fun ha k => ?_,
    h.placed.mono fun k c hR => ?_⟩
  · exact (h.prot ha k).sub (hsub k.1) (Book.frameOf_congr hpte k) (fun _ _ => rfl)
      fun _ _ hclean => hclean
  · exact Book.Holds.sub hR (hsub k.1) (hpte k) fun _ _ hclean => hclean

theorem read_setFile (w : Machine) (id size : Nat) {c : Cell} (hc : ∀ i, c ≠ .file id i) :
    (w.setFile id size).read c = w.read c := by
  cases c with
  | file id' i =>
      have hne : id' ≠ id := fun heq => hc i (heq ▸ rfl)
      simp only [read, readSlot, setFile, OrdMap.find?_insert_ne _ _ hne]
  | frame p => rfl
  | slot x => rfl
  | tmp => rfl
  | blank => rfl

/-- `init_file` fills the pages it writes and touches no other place. -/
theorem read_initFile {pwrites : Nat → List IoResult} (hio : ∀ i, pwrites i = []) (c : Cell)
    (is : List Nat) (w : Machine) (hfile : (w.files.find? id).isSome) :
    (w.initFile id pwrites is).read c =
      if ∃ i ∈ is, c = .file id i then initPage else w.read c := by
  induction is generalizing w with
  | nil => simp [initFile]
  | cons i is ih =>
      have hhas : w.HasFile (.pers id) := fun id' heq => SwapFd.pers.inj heq ▸ hfile
      rw [initFile, hio, pwriteLoop_nil, ih _ (by rwa [hasFile_writeSlot]), read_writeSlot hhas]
      by_cases hrest : ∃ j ∈ is, c = .file id j
      · obtain ⟨j, hj, hcj⟩ := hrest
        rw [if_pos ⟨j, hj, hcj⟩, if_pos ⟨j, List.mem_cons_of_mem _ hj, hcj⟩]
      · rw [if_neg hrest]
        by_cases hci : c = .file id i
        · rw [if_pos ⟨i, List.mem_cons_self, hci⟩, hci]
          exact Function.update_self _ _ _
        · have hnone : ¬∃ j ∈ i :: is, c = .file id j := by
            rintro ⟨j, hj, hcj⟩
            rcases List.mem_cons.mp hj with rfl | hj
            · exact hci hcj
            · exact hrest ⟨j, hj, hcj⟩
          rw [if_neg hnone]
          exact Function.update_of_ne hci _ _

/-- The pages of live regions are not in a range that was just reserved. -/
theorem clearRange_addr {choice : Option Nat} {addr size a : Nat}
    (hres : w.reserveVmemory choice size = some addr) (hk : w.addr? k = some a) :
    (w.clearRange addr size).vm a = w.vm a := by
  obtain ⟨-, -, -, hfree⟩ := reserveVmemory_eq_some hres
  obtain ⟨s, hs, hlt, rfl⟩ := Book.addr?_eq_some.mp hk
  obtain ⟨r, hr, rfl⟩ := Book.shape_eq_some.mp hs
  have hdisj : addr + size ≤ r.shape.addr ∨ r.shape.addr + r.shape.size ≤ addr := hfree k.1 r hr
  have hin := Book.page_in_range r.shape.addr hlt
  have hps := pageSize_pos
  exact clearRange_outside (by omega)

/-- A file that was not there can be put in place. -/
theorem Sound.setFile (h : w.Sound all nrPagesRam nrPagesSwap) (hfile : w.files.find? id = none)
    (n : Nat) : (w.setFile id n).Sound all nrPagesRam nrPagesSwap := by
  refine ⟨h.owned, setFile_laid h.laid id n, h.prot, h.placed.congr (fun k c hR => ?_)
    fun _ _ _ => rfl⟩
  refine read_setFile w id n ?_
  rintro i rfl
  have hsome := (h.laid.backed.holds_file h.owned.pers hR).2
  rw [hfile] at hsome
  cases hsome

theorem Sound.allocate {size : Nat} {persistent : Bool} {res : Except Errno Nat}
    (h : w.Sound all nrPagesRam nrPagesSwap) (hio : env.WholePages)
    (halloc : w.allocate id size persistent env = (res, w')) :
    w'.Sound all nrPagesRam nrPagesSwap := by
  have ho := allocate_owned h.owned halloc
  have hl := allocate_laid h.laid halloc
  rcases allocate_cases halloc with
    ⟨e, -, rfl | ⟨n, -, hfile, rfl⟩ | ⟨-, -, rfl⟩⟩ | ⟨addr, -, -, -, -, hres, -, -, rfl⟩
  · exact h
  · exact h.setFile hfile n
  · exact ⟨ho, hl, h.prot, h.placed⟩
  · cases persistent with
    | true =>
        rw [allocated, if_pos rfl] at ho hl ⊢
        have hhas : (((w.setFile id size).withRegion id (Region.new addr size (.pers id) true false)
            (fun _ => initPage)).files.find? id).isSome := by
          rw [withRegion, Machine.setFile, clearRange, OrdMap.find?_insert_self]
          rfl
        have hread := fun c => read_initFile hio.2 c (List.range (size / pageSize)) _ hhas
        have hreg : (((w.setFile id size).withRegion id (Region.new addr size (.pers id) true false)
            (fun _ => initPage)).initFile id env.pwrites (List.range (size / pageSize))).regions =
            w.regions.insert id (Region.new addr size (.pers id) true false) := by
          rw [initFile_toBook]
          rfl
        refine created (fun _ => initPage) h ho hl hreg (Or.inl ⟨rfl, rfl⟩) ?_ ?_
          (fun c hc => ?_) (fun k a _ ha => ?_) (fun _ _ i hi => ?_) (by simp)
        · rw [initFile_toBook]
          rfl
        · rw [initFile_eq]
          rfl
        · rw [hread, if_neg (by rintro ⟨i, -, hci⟩; exact hc i hci)]
          exact (read_congr rfl rfl rfl rfl ▸ rfl : _ = (w.setFile id size).read c).trans
            (read_setFile w id size hc)
        · rw [initFile_eq]
          exact clearRange_addr (w := w) hres ha
        · rw [hread, if_pos ⟨i, List.mem_range.mpr hi, rfl⟩]
    | false =>
        rw [allocated, if_neg Bool.false_ne_true] at ho hl ⊢
        exact created (fun _ => freshPage) h ho hl rfl (Or.inr ⟨rfl, rfl⟩) rfl rfl
          (fun c _ => congrFun (read_congr rfl rfl rfl rfl) c)
          (fun k a _ ha => clearRange_addr (w := w) hres ha) (by simp) fun _ _ => rfl

theorem Sound.getAnchoredRegion {res : Except Errno (Nat × Nat)}
    (h : w.Sound all nrPagesRam nrPagesSwap) (hget : w.getAnchoredRegion id env = (res, w')) :
    w'.Sound all nrPagesRam nrPagesSwap := by
  have ho := getAnchoredRegion_owned h.owned hget
  have hl := getAnchoredRegion_laid h.laid hget
  rcases getAnchoredRegion_cases hget with ⟨rfl, -⟩ | ⟨addr, file, -, -, hfile, hres, rfl⟩
  · exact h
  · refine created file.slots h ho hl rfl (Or.inl ⟨rfl, rfl⟩) rfl rfl
      (fun c _ => congrFun (read_congr rfl rfl rfl rfl) c)
      (fun k a _ ha => clearRange_addr (w := w) hres ha) (fun _ _ i _ => ?_) (by simp)
    show ((w.files.find? id).map fun f => f.slots i).getD _ = file.slots i
    rw [hfile]
    rfl

/-! ## Persisting -/

/-- Pages that are present in a region are write-protected, at the indices
given. -/
def WpPages (id : Nat) (is : List Nat) (w : Machine) : Prop := ∀ i ∈ is, ∀ p a,
  w.frameOf (id, i) = some p → w.addr? (id, i) = some a → w.vm a = some ⟨p, true⟩

theorem Holds_ne_file_of_anon {b : Book} {c : Cell} (h : b.Holds false k c) (id i : Nat) :
    c ≠ .file id i := by
  obtain ⟨s, e, -, -, ⟨hfd | hall, rfl⟩ | ⟨-, hall, -⟩⟩ := h
  · cases e <;> simp [RegionPte.cell, hfd, SwapFd.cell]
  · cases hall
  · cases hall

/-- A page can be declared clean once it is protected. -/
theorem Protected.setClean {i : Nat} (h : w.Protected) (ho : w.Owned nrPagesRam nrPagesSwap)
    (hframe : w.frameOf (id, i) = some p) (hwp : w.WpPages id [i])
    (hbook : w'.toBook = w.setDirty p false) (hvm : w'.vm = w.vm) : w'.Protected := by
  intro k s q a hs hne hq hclean hk
  rw [hbook] at hs hq hclean hk
  rw [hvm]
  rw [Book.dirty_setDirty] at hclean
  split at hclean
  next hqp =>
    have hkey := ho.frames.pool.inj k (id, i) p (hqp ▸ hq) hframe
    rw [hkey] at hk
    rw [hqp]
    exact hwp i List.mem_cons_self p a hframe hk
  next => exact h k s q a hs hne hq hclean hk

/-- Where a clean page is, apart from its place in the file. -/
theorem holds_of_setClean {i : Nat} {r : Region} {c : Cell} (ho : w.Owned nrPagesRam nrPagesSwap)
    (hr : w.regions.find? id = some r) (hframe : w.frameOf (id, i) = some p)
    (hR : (w.setDirty p false).Holds all k c) (hc : c ≠ r.swapfd.cell i) : w.Holds all k c := by
  obtain ⟨s, e, hs, he, hcell | ⟨hne, hall, ⟨q, rfl, hclean⟩, hcell⟩⟩ := hR
  · exact ⟨s, e, hs, he, Or.inl hcell⟩
  · refine ⟨s, _, hs, he, Or.inr ⟨hne, hall, ⟨q, rfl, ?_⟩, hcell⟩⟩
    rw [Book.dirty_setDirty] at hclean
    split at hclean
    next hqp =>
      rw [hqp] at he
      have hkey := ho.frames.pool.inj k (id, i) p (Book.frameOf_eq_some.mpr he) hframe
      subst hkey
      change w.shape id = some s at hs
      rw [Book.shape_of_find? hr] at hs
      cases hs
      exact absurd hcell hc
    next => exact hclean

/-- The page of a persistent region in frame `p` is written out and declared
clean. -/
theorem Sound.writeOut {i : Nat} {r : Region} (h : w.Sound all nrPagesRam nrPagesSwap)
    (hr : w.regions.find? id = some r) (hfd : r.swapfd ≠ .swap)
    (he : r.ptes[i]? = some (.present p)) (hwp : all = true → w.WpPages id [i]) :
    ({ (w.swapOutPageData p r.swapfd i []) with toBook := w.setDirty p false } : Machine).Sound all
      nrPagesRam nrPagesSwap := by
  have hpte : w.pte (id, i) = some (.present p) := Book.pte_eq_some.mpr ⟨r, hr, he⟩
  have hframe : w.frameOf (id, i) = some p := Book.frameOf_eq_some.mpr hpte
  have hfile := HasFile.of_backed h.laid.backed hr
  refine ⟨h.owned.setDirty p false, ?_, fun ha => ?_, ?_⟩
  · refine (setDirty_laid h.laid p false).congr rfl (fun id' hid' => ?_) (fun _ => rfl)
      (swapOutPageData_vm _ _ _ _ _)
    show ((w.swapOutPageData p r.swapfd i []).files.find? id').isSome
    rw [swapOutPageData, hasFile_writeSlot]
    exact hid'
  · exact (h.prot ha).setClean h.owned hframe (hwp ha) rfl (swapOutPageData_vm _ _ _ _ _)
  · have hread : ({ (w.swapOutPageData p r.swapfd i []) with toBook := w.setDirty p false } :
        Machine).read = Function.update w.read (r.swapfd.cell i) (w.shm p) :=
      (read_congr rfl rfl rfl rfl).trans (read_swapOutPageData hfile p i)
    have htrace : (w.swapOutPageData p r.swapfd i []).trace = w.trace :=
      swapOutPageData_trace _ _ _ _ _
    show Placed _ (Machine.read _) (flat (w.swapOutPageData p r.swapfd i []).trace)
    rw [hread, htrace]
    refine h.placed.assign fun k c hR => ?_
    change (w.setDirty p false).Holds all k c at hR
    by_cases hc : c = r.swapfd.cell i
    · -- only the page written out is in this place
      refine Or.inl ⟨hc, ?_⟩
      rw [hc, h.laid.backed.swapfd_eq hr (decide_eq_false hfd)] at hR
      have hkey : k = (id, i) := (Backed.holds_file (w := { w with toBook := w.setDirty p false })
        h.laid.backed (h.owned.setDirty p false).pers hR).1
      cases all with
      | false => exact absurd rfl (Holds_ne_file_of_anon hR id i)
      | true =>
          rw [hkey]
          exact h.placed (id, i) (.frame p)
            ⟨_, _, Book.shape_of_find? hr, hpte, Or.inl ⟨Or.inr rfl, rfl⟩⟩
    · exact Or.inr ⟨hc, holds_of_setClean h.owned hr hframe hR hc⟩

theorem Sound.persistPte {i : Nat} (h : w.Sound all nrPagesRam nrPagesSwap) (hio : env.WholePages)
    (hpers : w.anon id = false) (hwp : all = true → w.WpPages id [i])
    (hpte : w.persistPte id i env = .ok w') : w'.Sound all nrPagesRam nrPagesSwap := by
  obtain ⟨r, e, hr, he, ⟨rfl, -⟩ | ⟨p, w₁, rfl, -, rfl, rfl⟩⟩ := persistPte_cases hpte
  · exact h
  · have hfd : r.swapfd ≠ .swap := by
      rw [Book.anon_of_find? hr] at hpers
      exact of_decide_eq_false hpers
    rw [hio.2 i]
    have hout := h.writeOut hr hfd he hwp
    -- the flag is cleared after the first stores, but the page is protected by then
    have hhold : Holding ((w.setDirty p false).Holds all) (w.swapOutPageData p r.swapfd i []) :=
      Holding.tables ⟨hout.placed, hout.writable⟩ (read_congr rfl rfl rfl rfl) rfl
        (by rw [swapOutPageData_toBook]; rfl) fun _ _ hm => hm
    have hcleared : Holding ((w.setDirty p false).Holds all)
        { ((w.swapOutPageData p r.swapfd i []).interfere (env.stores (2 * i))) with
          toBook := w.setDirty p false } :=
      (hhold.interfere (env.stores (2 * i))).tables (read_congr rfl rfl rfl rfl) rfl
        (by rw [interfere_toBook, swapOutPageData_toBook]; rfl) fun _ _ hm => hm
    have hlaid := persistPte_laid h.laid hpte
    rw [hio.2 i] at hlaid
    refine ⟨?_, hlaid, fun ha k => ?_, ?_⟩
    · rw [interfere_toBook]
      exact h.owned.setDirty p false
    · refine (hout.prot ha k).sub (.of_shape ?_) ?_ (fun a _ => ?_) fun q _ hclean => ?_
      · rw [interfere_toBook]
      · rw [interfere_toBook]
      · rw [interfere_vm]
        show ((w.swapOutPageData p r.swapfd i []).interfere (env.stores (2 * i))).vm a = _
        rw [interfere_vm]
      · rwa [interfere_toBook] at hclean
    · rw [interfere_toBook]
      exact (hcleared.interfere (env.stores (2 * i + 1))).placed

/-- Persisting leaves the entries, the shapes and the mappings alone. -/
theorem persistPte_kept {i : Nat} (h : w.persistPte id i env = .ok w') :
    w'.regions = w.regions ∧ w'.vm = w.vm := by
  obtain ⟨r, e, -, -, ⟨rfl, -⟩ | ⟨p, w₁, -, -, rfl, rfl⟩⟩ := persistPte_cases h
  · exact ⟨rfl, rfl⟩
  · refine ⟨?_, ?_⟩
    · rw [interfere_toBook]
      rfl
    · rw [interfere_vm]
      show ((w.swapOutPageData p r.swapfd i (env.pwrites i)).interfere (env.stores (2 * i))).vm = _
      rw [interfere_vm, swapOutPageData_vm]

theorem Sound.persistPtes {is : List Nat} {w w' : Machine}
    (h : w.Sound all nrPagesRam nrPagesSwap) (hio : env.WholePages) (hpers : w.anon id = false)
    (hwp : all = true → w.WpPages id is) (hrun : w.persistPtes id env is = .ok w') :
    w'.Sound all nrPagesRam nrPagesSwap := by
  induction is generalizing w with
  | nil =>
      cases hrun
      exact h
  | cons i is ih =>
      obtain ⟨w₁, hpte, hrun⟩ := ok_of_bind hrun
      obtain ⟨hreg, hvm⟩ := persistPte_kept hpte
      have hhead : all = true → w.WpPages id [i] := fun ha j hj =>
        hwp ha j (by rw [List.mem_singleton.mp hj]; exact List.mem_cons_self)
      refine ih (h.persistPte hio hpers hhead hpte) ?_ (fun ha j hj => ?_) hrun
      · rw [Book.anon, hreg]
        exact hpers
      · have htail := hwp ha j (List.mem_cons_of_mem _ hj)
        intro p a hp hk
        rw [hvm]
        refine htail p a ?_ ?_
        · rwa [Book.frameOf, Book.pte, hreg] at hp
        · rwa [Book.addr?, Book.shape, hreg] at hk

end Machine

end DASim
