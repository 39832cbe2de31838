import DASim.Buffer.Files
import DASim.Buffer.Transfer

/-!
# No bytes cross regions

Two runs that differ in nothing but what clients store into one region.  The
tables, the page table and the sizes of the files are the same in both, and so
is every place with bytes of another region.  What differs is in the frames, the
slots and the file of that region, in frames and slots that are free, and in the
temporary page.  `Alike` is this relation.  Which frame and which slot has whose
bytes is a parameter of it, because inside `unfix` the tables are ahead of the
bytes.

A page of another region comes in through the temporary page.  It is the same in
both runs if `swap_in_page` overwrote all of the temporary page.  After an error,
the end of the file or a short count the temporary page still has bytes of the
page that was read before, whosever that was.  The swap file is like that too: a
slot that an eviction failed to write has the bytes of its last owner.
-/

namespace DASim

/-- The first call of `pread` delivers the whole page. -/
def readsWhole : List IoResult → Bool
  | [] => true
  | .error :: _ => false
  | .count n :: _ => pageSize ≤ n

theorem preadLoop_whole {ress : List IoResult} (h : readsWhole ress = true) (slot buf : Page) :
    preadLoop slot ress 0 buf = slot := by
  cases ress with
  | nil => exact preadLoop_nil slot buf
  | cons res ress =>
      cases res with
      | error => cases h
      | count n =>
          have hn : pageSize ≤ n := of_decide_eq_true h
          rw [preadLoop_count (pageSize_pos.trans_le hn) pageSize_pos, Nat.sub_zero,
            Nat.min_eq_right hn, readRange_whole, preadLoop_done (by omega)]

/-- The environment with the stores into one region only. -/
def Env.only (reg : Nat) (env : Env) : Env :=
  { env with stores := fun n => (env.stores n).filter fun st => st.key.1 = reg }

theorem Env.stores_of_only {reg : Nat} {env env' : Env} (h : env'.only reg = env.only reg)
    (n : Nat) :
    ((env'.stores n).filter fun st => st.key.1 = reg) =
      (env.stores n).filter fun st => st.key.1 = reg :=
  congrFun (congrArg Env.stores h) n

namespace Machine

variable {reg id p x : Nat} {frame slot frame' slot' : PageKey → Option Nat}
  {w w' v v' t t' : Machine} {k : PageKey} {env env' : Env} {nrPagesRam nrPagesSwap : Nat}

theorem clientStore_of_mapped {st : Store} {a : Nat} (ha : w.addr? st.key = some a)
    (hm : w.vm a = some ⟨p, false⟩) :
    w.clientStore st = { w with
      shm := Function.update w.shm p (Function.update (w.shm p) st.byte st.value)
      trace := .stored st :: w.trace } := by
  obtain ⟨s, hs, hlt, rfl⟩ := Book.addr?_eq_some.mp ha
  obtain ⟨r, hr, rfl⟩ := Book.shape_eq_some.mp hs
  have hlt : st.key.2 < r.ptes.length := by rwa [r.nrPages]
  have hm : w.vm (r.pageAddr st.key.2) = some ⟨p, false⟩ := hm
  rw [clientStore, hr]
  simp only [hlt, if_true, hm]

theorem interfere_tmpPage (w : Machine) (sts : List Store) :
    (w.interfere sts).tmpPage = w.tmpPage := by
  obtain ⟨_, _, h⟩ := interfere_eq w sts
  rw [h]

/-- Finding a frame leaves the temporary page alone. -/
theorem acquirePage_tmpPage (h : w.acquirePage env = .ok (p, w')) : w'.tmpPage = w.tmpPage := by
  rcases acquirePage_cases h with ⟨pages, -, rfl⟩ | ⟨-, hout⟩
  · rfl
  · obtain ⟨x, slots, r, e, -, -, -, rfl⟩ := swapOutPage_ok hout
    have hunmap : ((w.takeVictim p slots env).unmapPage x (w.pageInfos p) r env).tmpPage =
        w.tmpPage := by
      simp only [unmapPage, takeVictim, madvise, interfere_tmpPage]
    rw [evictPage, interfere_tmpPage]
    split
    · exact hunmap
    · rw [swapOutPageData_eq]
      exact hunmap

theorem acquirePage_source (h : w.acquirePage env = .ok (p, w')) {e : RegionPte} :
    w'.read e.source = w.read e.source := by
  cases e with
  | fresh => rfl
  | present q => rfl
  | swapped x => exact acquirePage_tmpPage h

/-! ## Machines that differ in the bytes of one region -/

/-- A store to a page reaches no frame with bytes of another page. -/
def Apart (frame : PageKey → Option Nat) (w : Machine) : Prop :=
  ∀ k a p, w.addr? k = some a → w.vm a = some ⟨p, false⟩ → ∀ k', frame k' = some p → k' = k

/-- Regions can go, and mappings too. -/
theorem Apart.sub (h : Apart frame w) (hsub : v.Sub w.toBook)
    (hvm : ∀ a m, v.vm a = some m → w.vm a = some m) : Apart frame v :=
  fun k a p ha hm => h k a p ((hsub k.1).addr? ha) (hvm a _ hm)

/-- Frames can be given up. -/
theorem Apart.mono (h : Apart frame w) (hsub : ∀ k p, frame' k = some p → frame k = some p) :
    Apart frame' w :=
  fun k a p ha hm k' hk' => h k a p ha hm k' (hsub k' p hk')

theorem Laid.apart {spare : List Nat} (hl : w.Laid) (hf : w.Frames nrPagesRam spare w.frameOf) :
    Apart w.frameOf w := by
  intro k a p ha hm k' hk'
  have hown : w.frameOf k = some p := by
    rw [← hl.mapped k a ha, hm]
    rfl
  exact hf.pool.inj k' k p hk' hown

/-- The tables are the same, and so is every place with bytes of the region. -/
structure Alike (reg : Nat) (frame slot : PageKey → Option Nat) (w w' : Machine) : Prop where
  book : w'.toBook = w.toBook
  vm : w'.vm = w.vm
  fileSize : w'.fileSize = w.fileSize
  file : ∀ i, w'.readSlot (.pers reg) i = w.readSlot (.pers reg) i
  frames : ∀ k p, k.1 = reg → frame k = some p → w'.shm p = w.shm p
  slots : ∀ k x, k.1 = reg → slot k = some x → w'.swapFile x = w.swapFile x
  apart : Apart frame w

namespace Alike

theorem refl (h : Apart frame w) : Alike reg frame slot w w :=
  ⟨rfl, rfl, rfl, fun _ => rfl, fun _ _ _ _ => rfl, fun _ _ _ _ => rfl, h⟩

theorem apart' (h : Alike reg frame slot w w') : Apart frame w' :=
  h.apart.sub (.of_shape (by rw [h.book])) fun a m hm => by rwa [h.vm] at hm

theorem symm (h : Alike reg frame slot w w') : Alike reg frame slot w' w where
  book := h.book.symm
  vm := h.vm.symm
  fileSize := h.fileSize.symm
  file := fun i => (h.file i).symm
  frames := fun k p hk hp => (h.frames k p hk hp).symm
  slots := fun k x hk hx => (h.slots k x hk hx).symm
  apart := h.apart'

theorem trans (h : Alike reg frame slot w w') (h' : Alike reg frame slot w' v) :
    Alike reg frame slot w v where
  book := h'.book.trans h.book
  vm := h'.vm.trans h.vm
  fileSize := h'.fileSize.trans h.fileSize
  file := fun i => (h'.file i).trans (h.file i)
  frames := fun k p hk hp => (h'.frames k p hk hp).trans (h.frames k p hk hp)
  slots := fun k x hk hx => (h'.slots k x hk hx).trans (h.slots k x hk hx)
  apart := h.apart

/-- Frames and slots can be given up. -/
theorem mono (h : Alike reg frame slot w w') (hf : ∀ k p, frame' k = some p → frame k = some p)
    (hs : ∀ k x, slot' k = some x → slot k = some x) : Alike reg frame' slot' w w' where
  book := h.book
  vm := h.vm
  fileSize := h.fileSize
  file := h.file
  frames := fun k p hk hp => h.frames k p hk (hf k p hp)
  slots := fun k x hk hx => h.slots k x hk (hs k x hx)
  apart := h.apart.mono hf

theorem hasFile (h : Alike reg frame slot w w') (id : Nat) :
    (w'.files.find? id).isSome = (w.files.find? id).isSome := by
  rw [← isSome_fileSize, ← isSome_fileSize, h.fileSize]

/-! ## Tables -/

theorem tables (h : Alike reg frame slot w w') {book book' : Book} (heq : book' = book)
    (hsub : book.Sub w.toBook) :
    Alike reg frame slot { w with toBook := book } { w' with toBook := book' } where
  book := heq
  vm := h.vm
  fileSize := h.fileSize
  file := h.file
  frames := h.frames
  slots := h.slots
  apart := h.apart.sub hsub fun _ _ hm => hm

theorem setPte (h : Alike reg frame slot w w') (k : PageKey) (e : RegionPte) :
    Alike reg frame slot { w with toBook := w.setPte k e } { w' with toBook := w'.setPte k e } :=
  h.tables (by rw [h.book]) (.of_shape (Book.shape_setPte _ _ _))

theorem setDirty (h : Alike reg frame slot w w') (p : Nat) (d : Bool) :
    Alike reg frame slot { w with toBook := w.setDirty p d }
      { w' with toBook := w'.setDirty p d } :=
  h.tables (by rw [h.book]) (.of_shape rfl)

theorem madvise (h : Alike reg frame slot w w') (a : Nat) :
    Alike reg frame slot (w.madvise a) (w'.madvise a) where
  book := h.book
  vm := by rw [Machine.madvise, Machine.madvise, h.vm]
  fileSize := h.fileSize
  file := h.file
  frames := h.frames
  slots := h.slots
  apart := by
    refine h.apart.sub (.of_shape rfl) fun a' m hm => ?_
    exact (update_none_eq_some.mp hm).2

/-! ## Client stores -/

/-- The same store on both sides. -/
theorem clientStore (h : Alike reg frame slot w w') (st : Store) :
    Alike reg frame slot (w.clientStore st) (w'.clientStore st) := by
  by_cases hopen : ∃ a p, w.addr? st.key = some a ∧ w.vm a = some ⟨p, false⟩
  · obtain ⟨a, p, ha, hm⟩ := hopen
    rw [clientStore_of_mapped ha hm,
      clientStore_of_mapped (w := w') (by rw [h.book]; exact ha) (by rw [h.vm]; exact hm)]
    refine ⟨h.book, h.vm, h.fileSize, h.file, fun k q hk hq => ?_, h.slots,
      h.apart.sub (.of_shape rfl) fun _ _ hm => hm⟩
    show Function.update w'.shm p _ q = Function.update w.shm p _ q
    by_cases hqp : q = p
    · subst hqp
      rw [h.frames k q hk hq, Function.update_self, Function.update_self]
    · rw [Function.update_of_ne hqp, Function.update_of_ne hqp]
      exact h.frames k q hk hq
  · have hleft : w.clientStore st = w :=
      (clientStore_cases w st).resolve_right fun ⟨a, p, ha, hm, _⟩ => hopen ⟨a, p, ha, hm⟩
    have hright : w'.clientStore st = w' := by
      refine (clientStore_cases w' st).resolve_right fun ⟨a, p, ha, hm, _⟩ => hopen ⟨a, p, ?_, ?_⟩
      · rw [← h.book]
        exact ha
      · rw [← h.vm]
        exact hm
    rw [hleft, hright]
    exact h

/-- A store into another region does not show. -/
theorem hiddenStore (h : Alike reg frame slot w w') {st : Store} (hst : st.key.1 ≠ reg) :
    Alike reg frame slot (w.clientStore st) w' := by
  rcases clientStore_cases w st with heq | ⟨a, p, ha, hm, heq⟩
  · rw [heq]
    exact h
  · rw [heq]
    refine ⟨h.book, h.vm, h.fileSize, h.file, fun k q hk hq => ?_, h.slots,
      h.apart.sub (.of_shape rfl) fun _ _ hm => hm⟩
    have hne : q ≠ p := by
      rintro rfl
      rw [h.apart st.key a q ha hm k hq] at hk
      exact hst hk
    exact (h.frames k q hk hq).trans (Function.update_of_ne hne _ _).symm

theorem interfere_filter (h : Alike reg frame slot w w') (sts : List Store) :
    Alike reg frame slot (w.interfere sts)
      (w'.interfere (sts.filter fun st => st.key.1 = reg)) := by
  induction sts generalizing w w' with
  | nil => exact h
  | cons st sts ih =>
      by_cases hst : st.key.1 = reg
      · rw [List.filter_cons_of_pos (by simpa using hst)]
        exact ih (h.clientStore st)
      · rw [List.filter_cons_of_neg (by simpa using hst)]
        exact ih (h.hiddenStore hst)

/-- Stores that differ in what goes to other regions. -/
theorem interfere (h : Alike reg frame slot w w') {sts sts' : List Store}
    (hsame : (sts'.filter fun st => st.key.1 = reg) = sts.filter fun st => st.key.1 = reg) :
    Alike reg frame slot (w.interfere sts) (w'.interfere sts') := by
  have hleft := h.interfere_filter sts
  have hright : Alike reg frame slot _ _ := (refl h.apart').interfere_filter sts'
  rw [hsame] at hright
  exact hleft.trans hright.symm

/-! ## Transfers -/

/-- A slot of a region file is overwritten. -/
theorem writeSlot (h : Alike reg frame slot w w') (i : Nat) {page page' : Page}
    (hpage : id = reg → page' = page) :
    Alike reg frame slot (w.writeSlot (.pers id) i page) (w'.writeSlot (.pers id) i page') where
  book := h.book
  vm := h.vm
  fileSize := by rw [fileSize_writeSlot, fileSize_writeSlot, h.fileSize]
  file := by
    intro j
    by_cases hid : id = reg
    · have hj := h.file j
      have hsome := h.hasFile reg
      simp only [readSlot, Machine.writeSlot, hid, OrdMap.find?_modify_self, hpage hid] at hj ⊢
      cases hf : w.files.find? reg with
      | none =>
          rw [hf] at hsome
          have hnone : w'.files.find? reg = none := by simpa using hsome
          rw [hnone]
      | some f =>
          rw [hf] at hj hsome
          obtain ⟨f', hf'⟩ := Option.isSome_iff_exists.mp hsome
          rw [hf'] at hj ⊢
          simp only [Option.map_some, Option.getD_some, Function.update_apply] at hj ⊢
          rw [hj]
    · have hne : SwapFd.pers reg ≠ .pers id := fun heq => hid (SwapFd.pers.inj heq).symm
      rw [readSlot_writeSlot_of_ne _ hne, readSlot_writeSlot_of_ne _ hne]
      exact h.file j
  frames := h.frames
  slots := h.slots
  apart := h.apart.sub (.of_shape rfl) fun _ _ hm => hm

/-- A page is written to the file of its region. -/
theorem writeFile (h : Alike reg frame slot w w') (hp : id = reg → w'.shm p = w.shm p) (i : Nat)
    (ress : List IoResult) :
    Alike reg frame slot (w.swapOutPageData p (.pers id) i ress)
      (w'.swapOutPageData p (.pers id) i ress) := by
  refine h.writeSlot i fun hid => ?_
  subst hid
  rw [hp rfl, h.file i]

/-- A page is written to a slot that has no bytes of others.  A byte that is not
overwritten would be one of the slot's last owner. -/
theorem writeSwap (h : Alike reg frame slot w w') (hp : k.1 = reg → w'.shm p = w.shm p)
    (hx : ∀ k', slot k' = some x → k' = k) {ress : List IoResult}
    (hio : k.1 = reg → failsAtStart ress 0 = false) :
    Alike reg frame (Function.update slot k (some x)) (w.swapOutPageData p .swap x ress)
      (w'.swapOutPageData p .swap x ress) where
  book := h.book
  vm := h.vm
  fileSize := h.fileSize
  file := h.file
  frames := h.frames
  slots := by
    intro k' y hk' hy
    show Function.update w'.swapFile x _ y = Function.update w.swapFile x _ y
    by_cases hkk : k' = k
    · subst hkk
      rw [Function.update_self] at hy
      cases hy
      have hnone : ∀ j : Fin pageSize, ¬j.val < 0 := fun j => Nat.not_lt_zero _
      rw [Function.update_self, Function.update_self,
        pwriteLoop_eq (fun j hj => absurd hj (hnone j)) (hio hk'),
        pwriteLoop_eq (fun j hj => absurd hj (hnone j)) (hio hk'), hp hk']
    · rw [Function.update_of_ne hkk] at hy
      have hyx : y ≠ x := by
        rintro rfl
        exact hkk (hx k' hy)
      rw [Function.update_of_ne hyx, Function.update_of_ne hyx]
      exact h.slots k' y hk' hy
  apart := h.apart.sub (.of_shape rfl) fun _ _ hm => hm

theorem loadPage (h : Alike reg frame slot w w') (r : Region) (e : RegionPte) :
    Alike reg frame slot (w.loadPage r e env) (w'.loadPage r e env') := by
  cases e with
  | fresh => exact h
  | present p => exact h
  | swapped x =>
      refine ⟨?_, h.vm, h.fileSize, h.file, h.frames, h.slots,
        h.apart.sub (.of_shape ?_) fun _ _ hm => hm⟩
      · rw [loadPage_toBook, loadPage_toBook, h.book]
      · rw [loadPage_toBook]
        rfl

/-- A page of the region is read to the temporary page as a whole. -/
theorem loadPage_tmpPage (h : Alike reg frame slot w w') {r : Region} (hk : k.1 = reg)
    (hr : r.swapfd = .swap ∧ slot k = some x ∨ r.swapfd = .pers reg)
    (hpreads : env'.preads = env.preads) (hwhole : readsWhole env.preads = true) :
    (w'.loadPage r (.swapped x) env').tmpPage = (w.loadPage r (.swapped x) env).tmpPage := by
  show preadLoop _ env'.preads 0 _ = preadLoop _ env.preads 0 _
  rw [hpreads, preadLoop_whole hwhole, preadLoop_whole hwhole]
  rcases hr with ⟨hfd, hx⟩ | hfd
  · rw [hfd]
    exact h.slots k x hk hx
  · rw [hfd]
    exact h.file x

/-! ## Evictions -/

/-- The victim is unmapped while its bytes are still in the frame. -/
theorem unmapVictim (h : Alike reg frame slot w w') (hsame : env'.only reg = env.only reg)
    (p x : Nat) (slots : List Nat) (page : PageInfo) (r : Region) :
    Alike reg frame slot ((w.takeVictim p slots env).unmapPage x page r env)
      ((w'.takeVictim p slots env').unmapPage x page r env') := by
  have hstores := Env.stores_of_only hsame
  have hslots : Alike reg frame slot { w with freeSwapEntries := slots }
      { w' with freeSwapEntries := slots } := h.tables (by rw [h.book]) (.of_shape rfl)
  have hstored := hslots.interfere (hstores 1)
  have htake : Alike reg frame slot (w.takeVictim p slots env) (w'.takeVictim p slots env') :=
    hstored.tables (by rw [hstored.book]) (.of_shape rfl)
  exact ((((htake.interfere (hstores 2)).setPte _ _).interfere (hstores 3)).madvise _).interfere
    (hstores 4)

/-- A victim of an anonymous region is written to its slot. -/
theorem evictAnon (h : Alike reg frame slot w w') (hsame : env'.only reg = env.only reg)
    {page : PageInfo} {r : Region} {slots : List Nat} (hr : r.isAnon = true)
    (hown : frame (page.regionId, page.off) = some p)
    (hx : ∀ k, slot k = some x → k = (page.regionId, page.off))
    (hio : page.regionId = reg → failsAtStart (env.pwrites 0) 0 = false) :
    Alike reg frame (Function.update slot (page.regionId, page.off) (some x))
      ((w.takeVictim p slots env).evictPage p x page r env)
      ((w'.takeVictim p slots env').evictPage p x page r env') := by
  have hunmap := h.unmapVictim hsame p x slots page r
  have hpwrites : env'.pwrites = env.pwrites := (congrArg Env.pwrites hsame :)
  have hfd : r.swapfd = .swap := of_decide_eq_true hr
  have hwrite : (!r.isAnon && !page.dirty) ≠ true := by simp [hr]
  rw [evictPage, evictPage, if_neg hwrite, if_neg hwrite, hfd, hpwrites]
  exact (hunmap.writeSwap (fun hk => hunmap.frames _ p hk hown) hx hio).interfere
    (Env.stores_of_only hsame 5)

/-- A victim of a persistent region is written to the file, or not at all. -/
theorem evictPers (h : Alike reg frame slot w w') (hsame : env'.only reg = env.only reg)
    {page : PageInfo} {r : Region} {slots : List Nat} (hfd : r.swapfd = .pers page.regionId)
    (hown : frame (page.regionId, page.off) = some p) :
    Alike reg frame slot ((w.takeVictim p slots env).evictPage p x page r env)
      ((w'.takeVictim p slots env').evictPage p x page r env') := by
  have hunmap := h.unmapVictim hsame p x slots page r
  have hpwrites : env'.pwrites = env.pwrites := (congrArg Env.pwrites hsame :)
  have hlast := Env.stores_of_only hsame 5
  rw [evictPage, evictPage]
  split
  next => exact hunmap.interfere hlast
  next =>
    rw [hfd, hpwrites]
    exact (hunmap.writeFile (fun hk => hunmap.frames _ p hk hown) _ _).interfere hlast

/-- The victim moves out of its frame. -/
theorem evict (hp : w.Paging nrPagesRam nrPagesSwap [] k) (hl : w.Laid)
    (h : Alike reg w.frameOf (Function.update w.slotOf k none) w w')
    (hsame : env'.only reg = env.only reg) {slots : List Nat} {r : Region}
    (hv : w.findVictim w.usedPages.vals = .ok (p, x, slots))
    (hr : w.regions.find? (w.pageInfos p).regionId = some r)
    (hio : r.isAnon = true → (w.pageInfos p).regionId = reg →
      failsAtStart (env.pwrites 0) 0 = false)
    (ht : t = (w.takeVictim p slots env).evictPage p x (w.pageInfos p) r env)
    (ht' : t' = (w'.takeVictim p slots env').evictPage p x (w.pageInfos p) r env') :
    Alike reg t.frameOf (Function.update t.slotOf k none) t t' := by
  obtain ⟨hused, r', hr', hcase⟩ := Book.findVictim_ok hv
  cases hr.symm.trans hr'
  have hne := hp.victim_ne hused
  have hown := hp.frames.own_of_used hused
  have hslot : t.slotOf = Function.update w.slotOf
      ((w.pageInfos p).regionId, (w.pageInfos p).off) (if r.isAnon then some x else none) := by
    rw [ht, evictVictim_toBook, ← Book.anon_of_find? hr]
    exact Book.slotOf_setPte _ (Book.isSome_of_frameOf hown)
  have hgone : ∀ k' q, t.frameOf k' = some q → w.frameOf k' = some q := by
    intro k' q hq
    rw [ht, evictVictim_frameOf hown] at hq
    exact (update_none_eq_some.mp hq).2
  rw [hslot, Function.update_comm hne]
  subst ht ht'
  rcases hcase with ⟨ha, hlast, -⟩ | ⟨ha, -, -⟩
  · have hfree : ∀ k', Function.update w.slotOf k none k' = some x →
        k' = ((w.pageInfos p).regionId, (w.pageInfos p).off) := by
      intro k' hk'
      have hheld := (hp.slots.held k' x hk').2
      exact absurd (List.mem_append_left _ (List.mem_of_getLast? hlast)) hheld
    rw [if_pos ha]
    exact (h.evictAnon hsame ha hown hfree (hio ha)).mono hgone fun _ _ hx => hx
  · refine (h.evictPers hsame (hl.backed.swapfd_eq hr ha) hown).mono hgone fun k' y hy => ?_
    rw [ha] at hy
    exact (update_none_eq_some.mp hy).2

/-- A frame is found for the page, the same in both. -/
theorem acquirePage (hp : w.Paging nrPagesRam nrPagesSwap [] k) (hl : w.Laid)
    (h : Alike reg w.frameOf (Function.update w.slotOf k none) w w')
    (hsame : env'.only reg = env.only reg)
    (hio : ∀ q x slots, w.freePages = [] → w.findVictim w.usedPages.vals = .ok (q, x, slots) →
      w.anon (w.pageInfos q).regionId = true → (w.pageInfos q).regionId = reg →
      failsAtStart (env.pwrites 0) 0 = false)
    {p' : Nat} (hacq : w.acquirePage env = .ok (p, t))
    (hacq' : w'.acquirePage env' = .ok (p', t')) :
    p' = p ∧ Alike reg t.frameOf (Function.update t.slotOf k none) t t' := by
  rcases acquirePage_cases hacq with ⟨pages, hfree, rfl⟩ | ⟨hfree, hout⟩
  · rcases acquirePage_cases hacq' with ⟨pages', hfree', rfl⟩ | ⟨hfree', -⟩
    · rw [h.book, hfree] at hfree'
      cases hfree'
      exact ⟨rfl, h.tables (by rw [h.book]) (.of_shape rfl)⟩
    · rw [h.book, hfree] at hfree'
      cases hfree'
  · rcases acquirePage_cases hacq' with ⟨pages', hfree', -⟩ | ⟨-, hout'⟩
    · rw [h.book, hfree] at hfree'
      cases hfree'
    · obtain ⟨x, slots, r, e, hv, hr, -, ht⟩ := swapOutPage_ok hout
      obtain ⟨x', slots', r', e', hv', hr', -, ht'⟩ := swapOutPage_ok hout'
      rw [h.book, hv] at hv'
      cases hv'
      rw [h.book, hr] at hr'
      cases hr'
      rw [h.book] at ht'
      refine ⟨rfl, h.evict hp hl hsame hv hr (fun ha => ?_) ht ht'⟩
      exact hio p x slots hfree hv ((Book.anon_of_find? hr).trans ha)

/-! ## Page faults -/

/-- The page moves into its frame. -/
theorem installPage {e : RegionPte} {a : Nat} {write : Bool} (hpte : w.pte k = some e)
    (hp : w.Paging nrPagesRam nrPagesSwap [p] k)
    (h : Alike reg w.frameOf (Function.update w.slotOf k none) w w')
    (hsrc : k.1 = reg → w'.read e.source = w.read e.source)
    (ht : t = w.installPage k.1 k.2 a write p) (ht' : t' = w'.installPage k.1 k.2 a write p)
    (hapart : Apart t.frameOf t) : Alike reg t.frameOf t.slotOf t t' := by
  have hframe : t.frameOf = Function.update w.frameOf k (some p) := by
    rw [ht]
    exact Book.frameOf_setPte _ hp.live
  have hslot : t.slotOf = Function.update w.slotOf k none := by
    rw [ht]
    refine (Book.slotOf_setPte _ hp.live).trans ?_
    show Function.update w.slotOf k (if _ then none else none) = _
    rw [ite_self]
  have hread : t.read = Function.update w.read (.frame p) (w.read e.source) := by
    rw [ht]
    exact (installPage_eq hpte write).1
  have hread' : t'.read = Function.update w'.read (.frame p) (w'.read e.source) := by
    rw [ht']
    exact (installPage_eq (by rw [h.book]; exact hpte) write).1
  refine ⟨?_, ?_, ?_, ?_, fun k' q hk' hq => ?_, ?_, hapart⟩
  · rw [ht, ht']
    simp only [Machine.installPage, h.book]
  · rw [ht, ht']
    simp only [Machine.installPage, h.vm]
  · rw [ht, ht']
    exact h.fileSize
  · rw [ht, ht']
    exact h.file
  · show t'.read (.frame q) = t.read (.frame q)
    rw [hread, hread']
    rw [hframe] at hq
    by_cases hkk : k' = k
    · subst hkk
      rw [Function.update_self] at hq
      cases hq
      rw [Function.update_self, Function.update_self, hsrc hk']
    · rw [Function.update_of_ne hkk] at hq
      have hne : Cell.frame q ≠ .frame p := by
        intro heq
        cases heq
        exact (hp.frames.pool.held k' p hq).2 (List.mem_append_right _ List.mem_cons_self)
      rw [Function.update_of_ne hne, Function.update_of_ne hne]
      exact h.frames k' q hk' hq
  · rw [hslot, ht, ht']
    exact h.slots

/-- The page is read to the temporary page, which frees its slot. -/
theorem fetchPage (h : Alike reg w.frameOf w.slotOf w w') (hsame : env'.only reg = env.only reg)
    (k : PageKey) (r : Region) (e : RegionPte) :
    Alike reg (w.fetchPage r e env).frameOf (Function.update (w.fetchPage r e env).slotOf k none)
      (w.fetchPage r e env) (w'.fetchPage r e env') := by
  refine ((h.loadPage r e).interfere (Env.stores_of_only hsame 0)).mono ?_ ?_
  · rw [fetchPage_toBook]
    exact fun _ _ hp => hp
  · rw [fetchPage_toBook]
    exact fun k' x hx => (update_none_eq_some.mp hx).2

/-- A page of the region that was read as a whole is the same in both. -/
theorem fetchPage_source (h : Alike reg w.frameOf w.slotOf w w') (hl : w.Laid)
    (hsame : env'.only reg = env.only reg) {r : Region} {e : RegionPte}
    (hr : w.regions.find? k.1 = some r) (he : r.ptes[k.2]? = some e) (hk : k.1 = reg)
    (hread : ∀ x, e = .swapped x → readsWhole env.preads = true) :
    (w'.fetchPage r e env').read e.source = (w.fetchPage r e env).read e.source := by
  cases e with
  | fresh => rfl
  | present q => rfl
  | swapped x =>
      show (w'.fetchPage r (.swapped x) env').tmpPage = (w.fetchPage r (.swapped x) env).tmpPage
      rw [Machine.fetchPage, Machine.fetchPage, interfere_tmpPage, interfere_tmpPage]
      refine h.loadPage_tmpPage hk ?_ (congrArg Env.preads hsame :) (hread x rfl)
      cases ha : r.isAnon with
      | true =>
          refine Or.inl ⟨of_decide_eq_true ha, Book.slotOf_eq_some.mpr ⟨?_, ?_⟩⟩
          · exact (Book.anon_of_find? hr).trans ha
          · exact Book.pte_eq_some.mpr ⟨r, hr, he⟩
      | false =>
          rw [← hk]
          exact Or.inr (hl.backed.swapfd_eq hr ha)

end Alike

/-! ## What has to be transferred whole -/

/-- `unfix` reads a page of the region and not all of it arrives, or it writes a
page of the region to the swap file and a call of `pwrite` fails while the counter is at
the start of the page. -/
def exposes (reg id off : Nat) (env : Env) (w : Machine) : Bool :=
  id = reg && (w.pte (id, off / pageSize)).any (·.slot?.isSome) && !readsWhole env.preads ||
    w.evictedFrom id off = some reg && w.anon reg && failsAtStart (env.pwrites 0) 0

theorem exposes_eq_false {off : Nat} (h : w.exposes reg id off env = false) :
    (id = reg → ∀ x, w.pte (id, off / pageSize) = some (.swapped x) →
        readsWhole env.preads = true) ∧
      (w.evictedFrom id off = some reg → w.anon reg = true →
        failsAtStart (env.pwrites 0) 0 = false) := by
  rw [exposes, Bool.or_eq_false_iff] at h
  obtain ⟨hread, hwrite⟩ := h
  constructor
  · intro hid x hpte
    have hslot : (w.pte (id, off / pageSize)).any (·.slot?.isSome) = true := by
      rw [hpte]
      rfl
    rw [hslot, decide_eq_true hid] at hread
    simpa using hread
  · intro hvictim hanon
    rw [hanon, decide_eq_true hvictim] at hwrite
    exact hwrite

namespace Alike

variable {off : Nat}

theorem unfix {write : Bool} {res res' : UnfixResult} (h : Alike reg w.frameOf w.slotOf w w')
    (ho : w.Owned nrPagesRam nrPagesSwap) (hl : w.Laid) (hsame : env'.only reg = env.only reg)
    (hio : w.exposes reg id off env = false) (hrun : w.unfix id off write env = .ok (res, t))
    (hrun' : w'.unfix id off write env' = .ok (res', t')) :
    res' = res ∧ Alike reg t.frameOf t.slotOf t t' := by
  obtain ⟨hread, hwrite⟩ := exposes_eq_false hio
  have hapart : Apart t.frameOf t :=
    (unfix_laid ho hl hrun).1.apart (unfix_owned ho hrun).frames
  obtain ⟨r, e, hr, he, hcase⟩ := unfix_cases hrun
  obtain ⟨r', e', hr', he', hcase'⟩ := unfix_cases hrun'
  rw [h.book, hr] at hr'
  cases hr'
  cases he.symm.trans he'
  rcases hcase with ⟨p, rfl, rfl, rfl⟩ | ⟨habs, p, w₁, hacq, ht, rfl⟩
  · rcases hcase' with ⟨p', hp', rfl, rfl⟩ | ⟨habs', -⟩
    · cases hp'
      exact ⟨rfl, h.setDirty p write⟩
    · exact absurd rfl (habs' p)
  · rcases hcase' with ⟨p', hp', -⟩ | ⟨-, p', w₁', hacq', ht', rfl⟩
    · exact absurd hp' (habs p')
    · have hpaging := ho.fetch (k := (id, off / pageSize)) hr he habs
      rw [← fetchPage_toBook w r e env] at hpaging
      have hpte : w.pte (id, off / pageSize) = some e := Book.pte_eq_some.mpr ⟨r, hr, he⟩
      obtain ⟨rfl, hacquired⟩ := (h.fetchPage hsame (id, off / pageSize) r e).acquirePage hpaging
        (fetchPage_laid hl r e env) hsame (by
          rw [fetchPage_toBook]
          intro q x slots hfree hv hanon hq
          subst hq
          exact hwrite (evictedFrom_eq_some hr he habs hfree hv) hanon) hacq hacq'
      have hpte₁ : w₁.pte (id, off / pageSize) = some e := by
        rw [acquirePage_pte hpaging hacq, fetchPage_toBook]
        exact hpte
      have halike := hacquired.installPage hpte₁ (acquirePage_paging hpaging hacq) (fun hid => by
        rw [acquirePage_source hacq, acquirePage_source hacq']
        exact h.fetchPage_source (k := (id, off / pageSize)) hl hsame hr he hid
          fun x hx => hread hid x (hx ▸ hpte)) ht ht' hapart
      exact ⟨by rw [halike.book], halike⟩

theorem markDirty {res res' : MarkDirtyResult} (h : Alike reg w.frameOf w.slotOf w w')
    (hrun : w.markDirty id off = .ok (res, t)) (hrun' : w'.markDirty id off = .ok (res', t')) :
    res' = res ∧ Alike reg t.frameOf t.slotOf t t' := by
  obtain ⟨r, e, hr, he, hcase⟩ := markDirty_cases hrun
  obtain ⟨r', e', hr', he', hcase'⟩ := markDirty_cases hrun'
  rw [h.book, hr] at hr'
  cases hr'
  cases he.symm.trans he'
  rcases hcase with ⟨p, rfl, rfl, rfl⟩ | ⟨habs, rfl, rfl⟩
  · rcases hcase' with ⟨p', hp', rfl, rfl⟩ | ⟨habs', -⟩
    · cases hp'
      exact ⟨rfl, h.setDirty p true⟩
    · exact absurd rfl (habs' p)
  · rcases hcase' with ⟨p', hp', -⟩ | ⟨-, rfl, rfl⟩
    · exact absurd hp' (habs p')
    · exact ⟨rfl, h⟩

theorem writeprotect (h : Alike reg w.frameOf w.slotOf w w') (hl : w.Laid)
    (ho : w.Owned nrPagesRam nrPagesSwap) (addr : Nat) (protect : Bool) :
    Alike reg w.frameOf w.slotOf (w.writeprotect addr protect) (w'.writeprotect addr protect) where
  book := h.book
  vm := by rw [Machine.writeprotect, Machine.writeprotect, h.vm]
  fileSize := h.fileSize
  file := h.file
  frames := h.frames
  slots := h.slots
  apart := (writeprotect_laid hl addr protect).apart ho.frames

/-! ## Regions come and go -/

theorem setFile (h : Alike reg frame slot w w') (id size : Nat) :
    Alike reg frame slot (w.setFile id size) (w'.setFile id size) where
  book := h.book
  vm := h.vm
  fileSize := by rw [fileSize_setFile, fileSize_setFile, h.fileSize]
  file := by
    intro i
    have hi := h.file i
    simp only [readSlot, Machine.setFile, OrdMap.find?_insert] at hi ⊢
    split
    next => rfl
    next => exact hi
  frames := h.frames
  slots := h.slots
  apart := h.apart.sub (.of_shape rfl) fun _ _ hm => hm

theorem initFile (h : Alike reg frame slot w w') (pwrites : Nat → List IoResult) (is : List Nat) :
    Alike reg frame slot (w.initFile id pwrites is) (w'.initFile id pwrites is) := by
  induction is generalizing w w' with
  | nil => exact h
  | cons i is ih =>
      refine ih (h.writeSlot i fun hid => ?_)
      subst hid
      rw [h.file i]

end Alike

/-- No store reaches a page of a new region yet. -/
theorem Apart.withRegion (h : Apart frame w) (addr size : Nat) (fd : SwapFd)
    (persistent anchored : Bool) (contents : Nat → Page) :
    Apart frame (w.withRegion id (Region.new addr size fd persistent anchored) contents) := by
  intro k a p ha hm
  have hvm : a < addr ∨ addr + size ≤ a := by
    by_contra hin
    have hrange : addr ≤ a ∧ a < addr + size := by omega
    have hcleared : (w.withRegion id (Region.new addr size fd persistent anchored) contents).vm a =
        none := if_pos hrange
    cases hcleared.symm.trans hm
  obtain ⟨s, hs, hlt, rfl⟩ := Book.addr?_eq_some.mp ha
  rw [shape_withRegion, Function.update_apply] at hs
  split at hs
  next =>
    cases hs
    have hin : addr ≤ addr + k.2 * pageSize ∧ addr + k.2 * pageSize + pageSize ≤ addr + size :=
      Book.page_in_range addr hlt
    change addr + k.2 * pageSize < addr ∨ addr + size ≤ addr + k.2 * pageSize at hvm
    have hps := pageSize_pos
    omega
  next =>
    refine h k _ p (Book.addr?_eq_some.mpr ⟨s, hs, hlt, rfl⟩) ?_
    rw [← hm]
    exact (clearRange_outside hvm).symm

namespace Alike

variable {off : Nat}

/-- A new region owns nothing yet. -/
theorem withRegion (h : Alike reg w.frameOf w.slotOf w w') {addr size : Nat} {fd : SwapFd}
    {persistent anchored : Bool} {contents contents' : Nat → Page}
    (hid : w.regions.find? id = none) (hfd : persistent = !decide (fd = .swap))
    (ht : t = w.withRegion id (Region.new addr size fd persistent anchored) contents)
    (ht' : t' = w'.withRegion id (Region.new addr size fd persistent anchored) contents') :
    Alike reg t.frameOf t.slotOf t t' := by
  have hframe : t.frameOf = w.frameOf := by
    funext k
    rw [ht]
    exact Book.frameOf_insert hid addr size fd persistent anchored k
  have hslot : t.slotOf = w.slotOf := by
    funext k
    rw [ht]
    exact Book.slotOf_insert hid addr size hfd anchored k
  rw [hframe, hslot]
  subst ht ht'
  refine ⟨?_, ?_, h.fileSize, h.file, h.frames, h.slots, h.apart.withRegion _ _ _ _ _ _⟩
  · simp only [Machine.withRegion, clearRange, h.book]
  · simp only [Machine.withRegion, clearRange, h.vm]

theorem reserveVmemory (h : Alike reg frame slot w w') (choice : Option Nat) (size : Nat) :
    w'.reserveVmemory choice size = w.reserveVmemory choice size := by
  simp only [Machine.reserveVmemory, rangeFree, h.book]

theorem openExcl (h : Alike reg frame slot w w') (hsame : env'.only reg = env.only reg) (id : Nat) :
    w'.openExcl id env' = w.openExcl id env := by
  have herr : env'.openErr = env.openErr := (congrArg Env.openErr hsame :)
  rw [Machine.openExcl, Machine.openExcl, OrdMap.contains, OrdMap.contains, h.hasFile, herr]

theorem addRegion (h : Alike reg w.frameOf w.slotOf w w') (hsame : env'.only reg = env.only reg)
    {size : Nat} {fd : SwapFd} {persistent anchored : Bool} {contents contents' : Nat → Page}
    {res res' : Except Errno Nat}
    (hid : w.regions.find? id = none) (hfd : persistent = !decide (fd = .swap))
    (hadd : w.addRegion id size fd persistent anchored contents env = (res, t))
    (hadd' : w'.addRegion id size fd persistent anchored contents' env' = (res', t')) :
    res' = res ∧ Alike reg t.frameOf t.slotOf t t' := by
  have hreserve : env'.reserve = env.reserve := (congrArg Env.reserve hsame :)
  have hres' : w'.reserveVmemory env'.reserve size = w.reserveVmemory env.reserve size := by
    rw [hreserve, h.reserveVmemory]
  rcases addRegion_cases hadd with ⟨rfl, hres, rfl⟩ | ⟨addr, rfl, hres, ht⟩
  · rcases addRegion_cases hadd' with ⟨rfl, -, rfl⟩ | ⟨addr', -, hsome, -⟩
    · exact ⟨rfl, h⟩
    · cases (hres'.trans hres).symm.trans hsome
  · rcases addRegion_cases hadd' with ⟨-, hnone, -⟩ | ⟨addr', rfl, hsome, ht'⟩
    · cases (hres'.trans hres).symm.trans hnone
    · cases (hres'.trans hres).symm.trans hsome
      exact ⟨rfl, h.withRegion hid hfd ht ht'⟩

theorem allocate (h : Alike reg w.frameOf w.slotOf w w') (hsame : env'.only reg = env.only reg)
    {size : Nat} {persistent : Bool} {res res' : Except Errno Nat}
    (hrun : w.allocate id size persistent env = (res, t))
    (hrun' : w'.allocate id size persistent env' = (res', t')) :
    Alike reg t.frameOf t.slotOf t t' := by
  have hregions : w'.regions.contains id = w.regions.contains id := by rw [h.book]
  have havail : w'.nrAvailablePages = w.nrAvailablePages := by rw [h.book]
  have htrunc : env'.ftruncateOk = env.ftruncateOk := (congrArg Env.ftruncateOk hsame :)
  have hpwrites : env'.pwrites = env.pwrites := (congrArg Env.pwrites hsame :)
  unfold Machine.allocate at hrun hrun'
  rw [hregions, h.openExcl hsame, htrunc, hpwrites, havail] at hrun'
  by_cases hlive : w.regions.contains id = true
  · rw [if_pos hlive] at hrun hrun'
    cases hrun
    cases hrun'
    exact h
  rw [if_neg hlive] at hrun hrun'
  have hid : w.regions.find? id = none := OrdMap.contains_eq_false.mp (by simpa using hlive)
  by_cases hsize : (decide (size = 0) || decide (size % pageSize ≠ 0)) = true
  · rw [if_pos hsize] at hrun hrun'
    cases hrun
    cases hrun'
    exact h
  rw [if_neg hsize] at hrun hrun'
  cases persistent with
  | true =>
      simp only [if_true] at hrun hrun'
      cases hopen : w.openExcl id env with
      | some e =>
          simp only [hopen] at hrun hrun'
          cases hrun
          cases hrun'
          exact h
      | none =>
          simp only [hopen] at hrun hrun'
          split at hrun
          next hsized =>
            rw [if_pos hsized] at hrun'
            cases hadd : (w.setFile id size).addRegion id size (.pers id) true false
                (fun _ => initPage) env with
            | mk res₁ w₁ =>
              cases hadd' : (w'.setFile id size).addRegion id size (.pers id) true false
                  (fun _ => initPage) env' with
              | mk res₁' w₁' =>
                obtain ⟨rfl, hadded⟩ :=
                  addRegion (w := w.setFile id size) (h.setFile id size) hsame hid rfl hadd hadd'
                rw [hadd] at hrun
                rw [hadd'] at hrun'
                cases res₁' with
                | error e =>
                    cases hrun
                    cases hrun'
                    exact hadded
                | ok addr =>
                    cases hrun
                    cases hrun'
                    rw [initFile_toBook]
                    exact hadded.initFile _ _
          next hsized =>
            rw [if_neg hsized] at hrun'
            cases hrun
            cases hrun'
            exact h.setFile id 0
  | false =>
      simp only [Bool.false_eq_true, if_false] at hrun hrun'
      split at hrun
      next hlt =>
        rw [if_pos hlt] at hrun'
        cases hrun
        cases hrun'
        exact h
      next hle =>
        rw [if_neg hle] at hrun'
        exact (addRegion (w := { w with nrAvailablePages := w.nrAvailablePages - size / pageSize })
          (h.tables (by rw [h.book]) (.of_shape rfl)) hsame hid rfl hrun hrun').2

theorem getAnchoredRegion (h : Alike reg w.frameOf w.slotOf w w')
    (hsame : env'.only reg = env.only reg) {res res' : Except Errno (Nat × Nat)}
    (hrun : w.getAnchoredRegion id env = (res, t))
    (hrun' : w'.getAnchoredRegion id env' = (res', t')) : Alike reg t.frameOf t.slotOf t t' := by
  have herr : env'.openErr = env.openErr := (congrArg Env.openErr hsame :)
  have hstat : env'.fstatOk = env.fstatOk := (congrArg Env.fstatOk hsame :)
  have hsize : w'.fileSize id = w.fileSize id := by rw [h.fileSize]
  cases hr : w.regions.find? id with
  | some r =>
      rw [getAnchoredRegion_of_region hr] at hrun
      rw [getAnchoredRegion_of_region (by rw [h.book]; exact hr)] at hrun'
      cases hrun
      cases hrun'
      exact h
  | none =>
      have hr' : w'.regions.find? id = none := by
        rw [h.book]
        exact hr
      cases hf : w.files.find? id with
      | none =>
          have hf' : w'.files.find? id = none := by
            have hsome := h.hasFile id
            rw [hf] at hsome
            simpa using hsome
          rw [getAnchoredRegion_of_none hr hf] at hrun
          rw [getAnchoredRegion_of_none hr' hf'] at hrun'
          cases hrun
          cases hrun'
          exact h
      | some f =>
          rw [Machine.fileSize, Machine.fileSize, hf] at hsize
          obtain ⟨f', hf', hff⟩ := Option.map_eq_some_iff.mp hsize
          simp only [Machine.getAnchoredRegion, hr, hf] at hrun
          simp only [Machine.getAnchoredRegion, hr', hf', herr, hstat, hff] at hrun'
          split at hrun
          next hfail =>
            rw [if_pos hfail] at hrun'
            cases hrun
            cases hrun'
            exact h
          next hok =>
            rw [if_neg hok] at hrun'
            cases hadd : w.addRegion id f.size (.pers id) true true f.slots env with
            | mk res₁ w₁ =>
              cases hadd' : w'.addRegion id f.size (.pers id) true true f'.slots env' with
              | mk res₁' w₁' =>
                obtain ⟨rfl, hadded⟩ := h.addRegion hsame hr rfl hadd hadd'
                rw [hadd] at hrun
                rw [hadd'] at hrun'
                cases res₁' with
                | error e =>
                    cases hrun
                    cases hrun'
                    exact hadded
                | ok addr =>
                    cases hrun
                    cases hrun'
                    exact hadded

theorem setAnchored (h : Alike reg w.frameOf w.slotOf w w') (id : Nat) (anchored : Bool)
    (ht : t = w.setAnchored id anchored) : Alike reg t.frameOf t.slotOf t
      (w'.setAnchored id anchored) := by
  have hframe : t.frameOf = w.frameOf := by
    funext k
    rw [ht]
    exact Book.frameOf_congr (Book.pte_setAnchored w id anchored) k
  have hslot : t.slotOf = w.slotOf := by
    funext k
    rw [ht]
    exact Book.slotOf_congr (Book.pte_setAnchored w id anchored)
      (Book.anon_setAnchored w id anchored) k
  rw [hframe, hslot, ht]
  refine h.tables ?_ (setAnchored_sub w id anchored)
  rw [h.book]

theorem anchor (h : Alike reg w.frameOf w.slotOf w w') {res res' : Except Errno Unit}
    (hrun : w.anchor id = (res, t)) (hrun' : w'.anchor id = (res', t')) :
    Alike reg t.frameOf t.slotOf t t' := by
  unfold Machine.anchor at hrun hrun'
  rw [h.book] at hrun'
  cases hr : w.regions.find? id with
  | none =>
      simp only [hr] at hrun hrun'
      cases hrun
      cases hrun'
      exact h
  | some r =>
      simp only [hr] at hrun hrun'
      split at hrun
      next ha =>
        rw [if_pos ha] at hrun'
        cases hrun
        cases hrun'
        exact h
      next ha =>
        rw [if_neg ha] at hrun'
        cases hrun
        cases hrun'
        exact h.setAnchored id true rfl

theorem unanchor (h : Alike reg w.frameOf w.slotOf w w') {res res' : Except Errno Unit}
    (hrun : w.unanchor id = (res, t)) (hrun' : w'.unanchor id = (res', t')) :
    Alike reg t.frameOf t.slotOf t t' := by
  unfold Machine.unanchor at hrun hrun'
  rw [h.book] at hrun'
  cases hr : w.regions.find? id with
  | none =>
      simp only [hr] at hrun hrun'
      cases hrun
      cases hrun'
      exact h
  | some r =>
      simp only [hr] at hrun hrun'
      cases hrun
      cases hrun'
      exact h.setAnchored id false rfl

/-- One round of `free`.  The frame is given up later. -/
theorem freePte (h : Alike reg frame slot w w') {r : Region} {e : RegionPte} {ress : List IoResult}
    (hfd : r.isAnon = false → r.swapfd = .pers id)
    (hown : ∀ p, e = .present p → ∃ k, k.1 = id ∧ frame k = some p)
    (hrun : w.freePte r e ress = .ok t) (hrun' : w'.freePte r e ress = .ok t') :
    Alike reg frame slot t t' := by
  cases e with
  | fresh =>
      cases hrun
      cases hrun'
      exact h
  | swapped x =>
      cases hrun
      cases hrun'
      split
      · exact h.tables (by rw [h.book]) (.of_shape rfl)
      · exact h
  | present p =>
      obtain ⟨book, hbook, hrun⟩ := ok_of_bind hrun
      obtain ⟨book', hbook', hrun'⟩ := ok_of_bind hrun'
      rw [h.book, hbook] at hbook'
      cases hbook'
      obtain ⟨-, rfl⟩ := Book.eraseUsed_ok hbook
      rw [h.book] at hrun'
      cases hrun
      cases hrun'
      have hgiven : Alike reg frame slot
          { w with
            usedPages := w.usedPages.erase (w.pageInfos p).usedPagesIt
            freePages := w.freePages ++ [p] }
          { w' with
            toBook := { w.toBook with
              usedPages := w.usedPages.erase (w.pageInfos p).usedPagesIt
              freePages := w.freePages ++ [p] } } := h.tables rfl (.of_shape rfl)
      split
      next hout =>
        rw [Bool.and_eq_true, Bool.not_eq_true'] at hout
        rw [hfd hout.1]
        obtain ⟨k, hk, hp⟩ := hown p rfl
        exact hgiven.writeFile (fun hid => h.frames k p (hk.trans hid) hp) _ _
      next => exact hgiven

theorem freePtes {r : Region} {row : List RegionPte} {i : Nat}
    (h : Alike reg frame slot w w') (hfd : r.isAnon = false → r.swapfd = .pers id)
    (hsame : env'.only reg = env.only reg)
    (hown : ∀ p, .present p ∈ row → ∃ k, k.1 = id ∧ frame k = some p)
    (hrun : w.freePtes r env i row = .ok t) (hrun' : w'.freePtes r env' i row = .ok t') :
    Alike reg frame slot t t' := by
  have hpwrites : env'.pwrites = env.pwrites := (congrArg Env.pwrites hsame :)
  induction row generalizing i w w' with
  | nil =>
      cases hrun
      cases hrun'
      exact h
  | cons e row ih =>
      obtain ⟨w₁, hpte, hrun⟩ := ok_of_bind hrun
      obtain ⟨w₁', hpte', hrun'⟩ := ok_of_bind hrun'
      rw [hpwrites] at hpte'
      refine ih (h.freePte hfd (fun p hp => hown p ?_) hpte hpte')
        (fun p hp => hown p (List.mem_cons_of_mem _ hp)) hrun hrun'
      rw [hp]
      exact List.mem_cons_self

theorem clearRange (h : Alike reg frame slot w w') (addr size : Nat) :
    Alike reg frame slot (w.clearRange addr size) (w'.clearRange addr size) where
  book := h.book
  vm := by simp only [Machine.clearRange, h.vm]
  fileSize := h.fileSize
  file := h.file
  frames := h.frames
  slots := h.slots
  apart := by
    refine h.apart.sub (.of_shape rfl) fun a m hm => ?_
    change (if addr ≤ a ∧ a < addr + size then none else w.vm a) = some m at hm
    split at hm
    next => cases hm
    next => exact hm

theorem eraseFile (h : Alike reg frame slot w w') (id : Nat) :
    Alike reg frame slot { w with files := w.files.erase id }
      { w' with files := w'.files.erase id } where
  book := h.book
  vm := h.vm
  fileSize := by
    funext id'
    have hsize := congrFun h.fileSize id'
    simp only [Machine.fileSize, OrdMap.find?_erase] at hsize ⊢
    split
    next => rfl
    next => exact hsize
  file := by
    intro i
    have hi := h.file i
    simp only [readSlot, OrdMap.find?_erase] at hi ⊢
    split
    next => rfl
    next => exact hi
  frames := h.frames
  slots := h.slots
  apart := h.apart.sub (.of_shape rfl) fun _ _ hm => hm

theorem freed (h : Alike reg frame slot w w') (id : Nat) (r : Region) :
    Alike reg frame slot (w.freed id r) (w'.freed id r) := by
  rw [Machine.freed, Machine.freed]
  split
  next =>
    have hback : Alike reg frame slot
        { w with nrAvailablePages := (w.nrAvailablePages + r.size / pageSize) % 2 ^ 64 }
        { w' with nrAvailablePages := (w'.nrAvailablePages + r.size / pageSize) % 2 ^ 64 } :=
      h.tables (by rw [h.book]) (.of_shape rfl)
    exact hback.clearRange _ _
  next => exact (h.eraseFile id).clearRange _ _

theorem free (h : Alike reg w.frameOf w.slotOf w w') (hl : w.Laid)
    (hsame : env'.only reg = env.only reg) (hrun : w.free id env = .ok t)
    (hrun' : w'.free id env' = .ok t') : Alike reg t.frameOf t.slotOf t t' := by
  rcases free_cases hrun with ⟨rfl, hanch⟩ | ⟨r, w₁, hr, hanch, hloop, ht⟩
  · rcases free_cases hrun' with ⟨rfl, -⟩ | ⟨r', w₁', hr', hanch', -⟩
    · exact h
    · rw [h.book] at hr'
      cases hanch'.symm.trans (hanch r' hr')
  · rcases free_cases hrun' with ⟨-, hanch'⟩ | ⟨r', w₁', hr', -, hloop', ht'⟩
    · cases hanch.symm.trans (hanch' r (by rw [h.book]; exact hr))
    · rw [h.book, hr] at hr'
      cases hr'
      have herased : Alike reg w.frameOf w.slotOf { w with regions := w.regions.erase id }
          { w' with regions := w'.regions.erase id } := by
        refine h.tables (by rw [h.book]) fun id' s hs => ?_
        rw [Book.shape, OrdMap.find?_erase] at hs
        split at hs
        next => cases hs
        next => exact ⟨s, hs, rfl, rfl, rfl⟩
      have hloops := herased.freePtes (hl.backed.swapfd_eq hr) hsame (fun p hp => ?_) hloop hloop'
      · have hregions := free_regions hr hanch hrun
        have hfind : ∀ id' r', t.regions.find? id' = some r' → w.regions.find? id' = some r' := by
          intro id' r' hr'
          rw [hregions, OrdMap.find?_erase] at hr'
          split at hr'
          next => cases hr'
          next => exact hr'
        have hpte : ∀ k e, t.pte k = some e → w.pte k = some e := by
          intro k e he
          obtain ⟨r', hr', he⟩ := Book.pte_eq_some.mp he
          exact Book.pte_eq_some.mpr ⟨r', hfind k.1 r' hr', he⟩
        subst ht ht'
        refine (hloops.freed id r).mono (fun k p hp => ?_) fun k x hx => ?_
        · exact Book.frameOf_eq_some.mpr (hpte k _ (Book.frameOf_eq_some.mp hp))
        · obtain ⟨hanon, hx⟩ := Book.slotOf_eq_some.mp hx
          obtain ⟨r', hr', -⟩ := Book.pte_eq_some.mp hx
          rw [Book.anon_of_find? hr'] at hanon
          refine Book.slotOf_eq_some.mpr ⟨?_, hpte k _ hx⟩
          rw [Book.anon_of_find? (hfind k.1 r' hr'), hanon]
      · obtain ⟨j, hj⟩ := List.mem_iff_getElem?.mp hp
        exact ⟨(id, j), rfl, Book.frameOf_eq_some.mpr (Book.pte_eq_some.mpr ⟨r, hr, hj⟩)⟩

/-! ## Persisting -/

theorem persistPte {i : Nat} (h : Alike reg w.frameOf w.slotOf w w') (hl : w.Laid)
    (hanon : w.anon id = false) (hsame : env'.only reg = env.only reg)
    (hrun : w.persistPte id i env = .ok t) (hrun' : w'.persistPte id i env' = .ok t') :
    Alike reg t.frameOf t.slotOf t t' := by
  have hpwrites : env'.pwrites = env.pwrites := (congrArg Env.pwrites hsame :)
  have hstores := Env.stores_of_only hsame
  obtain ⟨r, e, hr, he, hcase⟩ := persistPte_cases hrun
  obtain ⟨r', e', hr', he', hcase'⟩ := persistPte_cases hrun'
  rw [h.book, hr] at hr'
  cases hr'
  cases he.symm.trans he'
  rw [h.book] at hcase'
  rcases hcase with ⟨rfl, hclean⟩ | ⟨p, w₁, rfl, hdirty, rfl, rfl⟩
  · rcases hcase' with ⟨rfl, -⟩ | ⟨p', w₁', hp', hdirty', -⟩
    · exact h
    · cases (hclean p' hp').symm.trans hdirty'
  · rcases hcase' with ⟨-, hclean'⟩ | ⟨p', w₁', hp', -, rfl, rfl⟩
    · cases (hclean' p rfl).symm.trans hdirty
    · cases hp'
      rw [Book.anon_of_find? hr] at hanon
      have hown : w.frameOf (id, i) = some p :=
        Book.frameOf_eq_some.mpr (Book.pte_eq_some.mpr ⟨r, hr, he⟩)
      have hwritten : Alike reg w.frameOf w.slotOf
          (w.swapOutPageData p r.swapfd i (env.pwrites i))
          (w'.swapOutPageData p r.swapfd i (env'.pwrites i)) := by
        rw [hl.backed.swapfd_eq hr hanon, hpwrites]
        exact h.writeFile (fun hid => h.frames (id, i) p hid hown) _ _
      have hstored := hwritten.interfere (hstores (2 * i))
      have hcleared := hstored.tables rfl
        (.of_shape (by rw [interfere_toBook, swapOutPageData_toBook]; rfl) :
          (w.setDirty p false).Sub _)
      rw [interfere_toBook]
      exact hcleared.interfere (hstores (2 * i + 1))

theorem persistPtes {is : List Nat} (h : Alike reg w.frameOf w.slotOf w w') (hl : w.Laid)
    (hanon : w.anon id = false) (hsame : env'.only reg = env.only reg)
    (hrun : w.persistPtes id env is = .ok t) (hrun' : w'.persistPtes id env' is = .ok t') :
    Alike reg t.frameOf t.slotOf t t' := by
  induction is generalizing w w' with
  | nil =>
      cases hrun
      cases hrun'
      exact h
  | cons i is ih =>
      obtain ⟨w₁, hpte, hrun⟩ := ok_of_bind hrun
      obtain ⟨w₁', hpte', hrun'⟩ := ok_of_bind hrun'
      refine ih (h.persistPte hl hanon hsame hpte hpte') (persistPte_laid hl hpte) ?_ hrun hrun'
      rw [Book.anon, (persistPte_kept hpte).1]
      exact hanon

end Alike

end Machine

end DASim
