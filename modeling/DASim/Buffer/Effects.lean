import DASim.Buffer.Operations
import DASim.Buffer.Ownership
import DASim.Lib.Run

/-!
# What each operation does

For every operation this module says once what it can do, so that no later
proof unfolds it.  Client stores change bytes of frames and the trace
(`interfere_eq`), writes to storage change files.  The tables are changed by
few steps, and the lemmas named `_ok` and `_cases` list them, one case per path
of the source.
-/

namespace DASim

namespace Machine

/-! ## Client stores -/

theorem clientStore_eq (w : Machine) (st : Store) :
    ∃ shm trace, w.clientStore st = { w with shm := shm, trace := trace } := by
  unfold clientStore
  split
  · exact ⟨_, _, rfl⟩
  · split
    · split <;> exact ⟨_, _, rfl⟩
    · exact ⟨_, _, rfl⟩

/-- Client stores change frames and the trace, nothing else. -/
theorem interfere_eq (w : Machine) (sts : List Store) :
    ∃ shm trace, w.interfere sts = { w with shm := shm, trace := trace } := by
  induction sts generalizing w with
  | nil => exact ⟨_, _, rfl⟩
  | cons st sts ih =>
      obtain ⟨shm, trace, hrest⟩ := ih (w.clientStore st)
      obtain ⟨shm₁, trace₁, hfirst⟩ := clientStore_eq w st
      refine ⟨shm, trace, ?_⟩
      show (w.clientStore st).interfere sts = _
      rw [hrest, hfirst]

@[simp] theorem interfere_toBook (w : Machine) (sts : List Store) :
    (w.interfere sts).toBook = w.toBook := by
  obtain ⟨_, _, h⟩ := interfere_eq w sts
  rw [h]

@[simp] theorem interfere_files (w : Machine) (sts : List Store) :
    (w.interfere sts).files = w.files := by
  obtain ⟨_, _, h⟩ := interfere_eq w sts
  rw [h]

@[simp] theorem interfere_readSlot (w : Machine) (sts : List Store) :
    (w.interfere sts).readSlot = w.readSlot := by
  obtain ⟨_, _, h⟩ := interfere_eq w sts
  rw [h]
  rfl

@[simp] theorem interfere_vm (w : Machine) (sts : List Store) :
    (w.interfere sts).vm = w.vm := by
  obtain ⟨_, _, h⟩ := interfere_eq w sts
  rw [h]

theorem writeprotect_vm (w : Machine) (addr : Nat) (protect : Bool) (a : Nat) :
    (w.writeprotect addr protect).vm a =
      if a = addr then (w.vm a).map (fun m => { m with wp := protect }) else w.vm a := by
  rw [writeprotect]
  split
  next h => rw [h]; exact Function.update_self _ _ _
  next h => exact Function.update_of_ne h _ _

/-! ## Storage -/

/-- A write to storage changes the files, nothing else. -/
theorem writeSlot_eq (w : Machine) (fd : SwapFd) (ix : Nat) (page : Page) :
    w.writeSlot fd ix page =
      { w with
        swapFile := (w.writeSlot fd ix page).swapFile
        files := (w.writeSlot fd ix page).files } := by
  cases fd with
  | swap => rfl
  | pers id => rfl

/-- The size of a region file, if there is one. -/
def fileSize (w : Machine) (id : Nat) : Option Nat := (w.files.find? id).map PersFile.size

theorem isSome_fileSize (w : Machine) (id : Nat) :
    (w.fileSize id).isSome = (w.files.find? id).isSome := Option.isSome_map

@[simp] theorem fileSize_writeSlot (w : Machine) (fd : SwapFd) (ix : Nat) (page : Page) :
    (w.writeSlot fd ix page).fileSize = w.fileSize := by
  funext id
  cases fd with
  | swap => rfl
  | pers id' =>
      rw [fileSize, writeSlot, OrdMap.find?_modify]
      split
      · rw [Option.map_map]
        rfl
      · rfl

theorem hasFile_writeSlot (w : Machine) (fd : SwapFd) (ix : Nat) (page : Page) (id : Nat) :
    ((w.writeSlot fd ix page).files.find? id).isSome = (w.files.find? id).isSome := by
  rw [← isSome_fileSize, ← isSome_fileSize, fileSize_writeSlot]

/-- Other files keep their contents. -/
theorem readSlot_writeSlot_of_ne (w : Machine) {fd fd' : SwapFd} (h : fd' ≠ fd) (ix ix' : Nat)
    (page : Page) : (w.writeSlot fd ix page).readSlot fd' ix' = w.readSlot fd' ix' := by
  cases fd with
  | swap =>
      cases fd' with
      | swap => exact absurd rfl h
      | pers id' => rfl
  | pers id =>
      cases fd' with
      | swap => rfl
      | pers id' =>
          have hne : id' ≠ id := fun heq => h (heq ▸ rfl)
          simp only [writeSlot, readSlot, OrdMap.find?_modify_ne _ _ hne]

theorem swapOutPageData_eq (w : Machine) (pageNr : Nat) (fd : SwapFd) (ix : Nat)
    (pwrites : List IoResult) :
    w.swapOutPageData pageNr fd ix pwrites =
      { w with
        swapFile := (w.swapOutPageData pageNr fd ix pwrites).swapFile
        files := (w.swapOutPageData pageNr fd ix pwrites).files } :=
  writeSlot_eq w fd ix _

@[simp] theorem swapOutPageData_toBook (w : Machine) (pageNr : Nat) (fd : SwapFd) (ix : Nat)
    (pwrites : List IoResult) : (w.swapOutPageData pageNr fd ix pwrites).toBook = w.toBook := by
  rw [swapOutPageData_eq]

@[simp] theorem swapOutPageData_vm (w : Machine) (pageNr : Nat) (fd : SwapFd) (ix : Nat)
    (pwrites : List IoResult) : (w.swapOutPageData pageNr fd ix pwrites).vm = w.vm := by
  rw [swapOutPageData_eq]

@[simp] theorem swapOutPageData_shm (w : Machine) (pageNr : Nat) (fd : SwapFd) (ix : Nat)
    (pwrites : List IoResult) : (w.swapOutPageData pageNr fd ix pwrites).shm = w.shm := by
  rw [swapOutPageData_eq]

@[simp] theorem swapOutPageData_trace (w : Machine) (pageNr : Nat) (fd : SwapFd) (ix : Nat)
    (pwrites : List IoResult) : (w.swapOutPageData pageNr fd ix pwrites).trace = w.trace := by
  rw [swapOutPageData_eq]

/-- `init_file` changes the files, nothing else. -/
theorem initFile_eq (id : Nat) (pwrites : Nat → List IoResult) (is : List Nat) (w : Machine) :
    w.initFile id pwrites is = { w with files := (w.initFile id pwrites is).files } := by
  induction is generalizing w with
  | nil => rfl
  | cons i is ih =>
      rw [initFile, ih]
      rfl

@[simp] theorem initFile_toBook (w : Machine) (id : Nat) (pwrites : Nat → List IoResult)
    (is : List Nat) : (w.initFile id pwrites is).toBook = w.toBook := by rw [initFile_eq]

/-! ## Lookups -/

end Machine

theorem Book.regionAt_eq_ok {b : Book} {id : Nat} {r : Region} :
    b.regionAt id = .ok r ↔ b.regions.find? id = some r := by
  rw [Book.regionAt]
  cases b.regions.find? id with
  | none => simp
  | some r' => simp

theorem Region.getPte_eq_ok {r : Region} {poff : Nat} {e : RegionPte} :
    r.getPte poff = .ok e ↔ r.ptes[poff]? = some e := by
  rw [Region.getPte]
  cases r.ptes[poff]? with
  | none => simp
  | some e' => simp

theorem Book.eraseUsed_ok {b b' : Book} {it : Nat} (h : b.eraseUsed it = .ok b') :
    b.usedPages.valid it = true ∧ b' = { b with usedPages := b.usedPages.erase it } := by
  unfold Book.eraseUsed at h
  split at h
  next hv => cases h; exact ⟨hv, rfl⟩
  next => cases h

/-! ## Eviction -/

/-- A victim is a used page: an anonymous one, which takes the last free slot,
or a persistent one, which goes to its own index. -/
theorem Book.findVictim_ok {b : Book} {p x : Nat} {slots pages : List Nat}
    (h : b.findVictim pages = .ok (p, x, slots)) :
    p ∈ pages ∧ ∃ r, b.regions.find? (b.pageInfos p).regionId = some r ∧
      (r.isAnon = true ∧ b.freeSwapEntries.getLast? = some x ∧
          slots = b.freeSwapEntries.dropLast ∨
        r.isAnon = false ∧ x = (b.pageInfos p).off ∧ slots = b.freeSwapEntries) := by
  induction pages with
  | nil => cases h
  | cons q pages ih =>
      rw [Book.findVictim] at h
      obtain ⟨r, hr, h⟩ := ok_of_bind h
      have hr := Book.regionAt_eq_ok.mp hr
      cases ha : r.isAnon with
      | false =>
          simp only [ha, Bool.false_eq_true, if_false] at h
          cases h
          exact ⟨List.mem_cons_self, r, hr, Or.inr ⟨ha, rfl, rfl⟩⟩
      | true =>
          simp only [ha, if_true] at h
          cases hl : b.freeSwapEntries.getLast? with
          | none =>
              simp only [hl] at h
              obtain ⟨hmem, hrest⟩ := ih h
              rw [← hl]
              exact ⟨List.mem_cons_of_mem _ hmem, hrest⟩
          | some y =>
              simp only [hl] at h
              cases h
              exact ⟨List.mem_cons_self, r, hr, Or.inl ⟨ha, rfl, rfl⟩⟩

namespace Machine

@[simp] theorem unmapPage_toBook (w : Machine) (x : Nat) (page : PageInfo) (r : Region)
    (env : Env) :
    (w.unmapPage x page r env).toBook =
      w.toBook.setPte (page.regionId, page.off) (.swapped x) := by
  simp only [unmapPage, interfere_toBook, madvise]

@[simp] theorem unmapPage_vm (w : Machine) (x : Nat) (page : PageInfo) (r : Region) (env : Env) :
    (w.unmapPage x page r env).vm = Function.update w.vm (r.pageAddr page.off) none := by
  simp only [unmapPage, interfere_vm, madvise]

@[simp] theorem unmapPage_files (w : Machine) (x : Nat) (page : PageInfo) (r : Region) (env : Env) :
    (w.unmapPage x page r env).files = w.files := by
  simp only [unmapPage, interfere_files, madvise]

/-- What an eviction leaves in the tables. -/
@[simp] theorem evictPage_toBook (w : Machine) (p x : Nat) (page : PageInfo) (r : Region)
    (env : Env) :
    (w.evictPage p x page r env).toBook =
      w.toBook.setPte (page.regionId, page.off) (.swapped x) := by
  simp only [evictPage, interfere_toBook]
  split
  · rw [unmapPage_toBook]
  · rw [swapOutPageData_toBook, unmapPage_toBook]

/-- The machine when the victim is off the list of used pages. -/
def takeVictim (pageNr : Nat) (slots : List Nat) (env : Env) (w : Machine) : Machine :=
  let w := ({ w with freeSwapEntries := slots } : Machine).interfere (env.stores 1)
  { w with usedPages := w.usedPages.erase (w.pageInfos pageNr).usedPagesIt }

@[simp] theorem takeVictim_toBook (w : Machine) (p : Nat) (slots : List Nat) (env : Env) :
    (w.takeVictim p slots env).toBook =
      { w.toBook with
        freeSwapEntries := slots
        usedPages := w.usedPages.erase (w.pageInfos p).usedPagesIt } := by
  simp only [takeVictim, interfere_toBook]

/-- The tables after an eviction. -/
theorem evictVictim_toBook (w : Machine) (p x : Nat) (slots : List Nat) (r : Region) (env : Env) :
    ((w.takeVictim p slots env).evictPage p x (w.pageInfos p) r env).toBook =
      Book.setPte { w.toBook with
        freeSwapEntries := slots
        usedPages := w.usedPages.erase (w.pageInfos p).usedPagesIt }
        ((w.pageInfos p).regionId, (w.pageInfos p).off) (.swapped x) := by
  rw [evictPage_toBook, takeVictim_toBook]

section Victim

variable {w : Machine} {p q x : Nat} {slots : List Nat} {r : Region} {env : Env}

/-- The victim is the only page that moves. -/
theorem evictVictim_pte
    (hown : w.frameOf ((w.pageInfos p).regionId, (w.pageInfos p).off) = some q) :
    ((w.takeVictim p slots env).evictPage p x (w.pageInfos p) r env).pte =
      Function.update w.pte ((w.pageInfos p).regionId, (w.pageInfos p).off)
        (some (.swapped x)) := by
  rw [evictVictim_toBook]
  exact Book.pte_setPte _ (Book.isSome_of_frameOf hown)

theorem evictVictim_frameOf
    (hown : w.frameOf ((w.pageInfos p).regionId, (w.pageInfos p).off) = some q) :
    ((w.takeVictim p slots env).evictPage p x (w.pageInfos p) r env).frameOf =
      Function.update w.frameOf ((w.pageInfos p).regionId, (w.pageInfos p).off) none := by
  rw [evictVictim_toBook]
  exact Book.frameOf_setPte _ (Book.isSome_of_frameOf hown)

end Victim

@[simp] theorem takeVictim_vm (w : Machine) (p : Nat) (slots : List Nat) (env : Env) :
    (w.takeVictim p slots env).vm = w.vm := by
  simp only [takeVictim, interfere_vm]

@[simp] theorem takeVictim_files (w : Machine) (p : Nat) (slots : List Nat) (env : Env) :
    (w.takeVictim p slots env).files = w.files := by
  simp only [takeVictim, interfere_files]

theorem swapOutPage_ok {w w' : Machine} {env : Env} {p : Nat}
    (h : w.swapOutPage env = .ok (p, w')) :
    ∃ x slots r e, w.findVictim w.usedPages.vals = .ok (p, x, slots) ∧
      w.regions.find? (w.pageInfos p).regionId = some r ∧
      r.ptes[(w.pageInfos p).off]? = some e ∧
      w' = (w.takeVictim p slots env).evictPage p x (w.pageInfos p) r env := by
  unfold swapOutPage at h
  obtain ⟨⟨p', x, w₀⟩, hfind, h⟩ := ok_of_bind h
  obtain ⟨⟨p'', x', slots⟩, hvictim, hret⟩ := ok_of_bind hfind
  cases hret
  obtain ⟨r, hr, h⟩ := ok_of_bind h
  obtain ⟨e, he, h⟩ := ok_of_bind h
  obtain ⟨book, hbook, h⟩ := ok_of_bind h
  cases h
  obtain ⟨-, rfl⟩ := Book.eraseUsed_ok hbook
  rw [interfere_toBook] at hr he
  refine ⟨x, slots, r, e, hvictim, Book.regionAt_eq_ok.mp hr, Region.getPte_eq_ok.mp he, ?_⟩
  simp only [takeVictim, interfere_toBook]

/-! ## Page faults -/

@[simp] theorem loadPage_vm (w : Machine) (r : Region) (pte : RegionPte) (env : Env) :
    (w.loadPage r pte env).vm = w.vm := by
  cases pte <;> rfl

@[simp] theorem loadPage_files (w : Machine) (r : Region) (pte : RegionPte) (env : Env) :
    (w.loadPage r pte env).files = w.files := by
  cases pte <;> rfl

/-- Reading a page in frees its slot, if it was in the swap file. -/
@[simp] theorem loadPage_toBook (w : Machine) (r : Region) (pte : RegionPte) (env : Env) :
    (w.loadPage r pte env).toBook =
      { w.toBook with
        freeSwapEntries :=
          w.freeSwapEntries ++ (if r.isAnon then pte.slot?.toList else []) } := by
  cases pte with
  | fresh => simp [loadPage, RegionPte.slot?]
  | present p => simp [loadPage, RegionPte.slot?]
  | swapped x =>
      rw [loadPage, swapInPage, Region.isAnon]
      by_cases hfd : r.swapfd = .swap
      · simp [hfd, RegionPte.slot?]
      · simp [hfd]

theorem fetchPage_toBook (w : Machine) (r : Region) (pte : RegionPte) (env : Env) :
    (w.fetchPage r pte env).toBook =
      { w.toBook with
        freeSwapEntries :=
          w.freeSwapEntries ++ (if r.isAnon then pte.slot?.toList else []) } := by
  rw [fetchPage, interfere_toBook, loadPage_toBook]

theorem acquirePage_cases {w w' : Machine} {env : Env} {p : Nat}
    (h : w.acquirePage env = .ok (p, w')) :
    (∃ pages, w.freePages = p :: pages ∧ w' = { w with freePages := pages }) ∨
      w.freePages = [] ∧ w.swapOutPage env = .ok (p, w') := by
  unfold acquirePage at h
  split at h
  next q pages hfree => cases h; exact Or.inl ⟨pages, hfree, rfl⟩
  next hfree => exact Or.inr ⟨hfree, h⟩

/-- `unfix` on a present page sets its dirty flag.  On another page it reads the
page in, takes a frame and maps it. -/
theorem unfix_cases {w w' : Machine} {id off : Nat} {write : Bool} {env : Env} {res : UnfixResult}
    (h : w.unfix id off write env = .ok (res, w')) :
    ∃ r e, w.regions.find? id = some r ∧ r.ptes[off / pageSize]? = some e ∧
      ((∃ p, e = .present p ∧ w' = { w with toBook := w.setDirty p write } ∧
          res = ⟨r.pageAddr (off / pageSize), pageSize, false, false⟩) ∨
        ((∀ p, e ≠ .present p) ∧ ∃ p w₁, (w.fetchPage r e env).acquirePage env = .ok (p, w₁) ∧
          w' = w₁.installPage id (off / pageSize) (r.pageAddr (off / pageSize)) write p ∧
          res = ⟨r.pageAddr (off / pageSize), pageSize, true, !(w'.pageInfos p).dirty⟩)) := by
  unfold unfix at h
  obtain ⟨r, hr, h⟩ := ok_of_bind h
  obtain ⟨e, he, h⟩ := ok_of_bind h
  refine ⟨r, e, Book.regionAt_eq_ok.mp hr, Region.getPte_eq_ok.mp he, ?_⟩
  cases e with
  | present p =>
      cases h
      exact Or.inl ⟨p, rfl, rfl, rfl⟩
  | fresh =>
      obtain ⟨⟨p, w₁⟩, hacq, h⟩ := ok_of_bind h
      cases h
      exact Or.inr ⟨by simp, p, w₁, hacq, rfl, rfl⟩
  | swapped x =>
      obtain ⟨⟨p, w₁⟩, hacq, h⟩ := ok_of_bind h
      cases h
      exact Or.inr ⟨by simp, p, w₁, hacq, rfl, rfl⟩

/-- The region that loses a frame if `unfix` works on a page. -/
def evictedFrom (id off : Nat) (w : Machine) : Option Nat :=
  (w.regions.find? id).bind fun r => r.ptes[off / pageSize]?.bind fun e =>
    if e.frame?.isSome || !w.freePages.isEmpty then none
    else
      (Book.findVictim { w.toBook with
          freeSwapEntries := w.freeSwapEntries ++ (if r.isAnon then e.slot?.toList else []) }
        w.usedPages.vals).toOption.map fun victim => (w.pageInfos victim.1).regionId

theorem evictedFrom_eq_some {w : Machine} {id off p x : Nat} {r : Region} {e : RegionPte}
    {slots : List Nat}
    (hr : w.regions.find? id = some r) (he : r.ptes[off / pageSize]? = some e)
    (habs : ∀ p, e ≠ .present p) (hfree : w.freePages = [])
    (hv : Book.findVictim { w.toBook with
        freeSwapEntries := w.freeSwapEntries ++ (if r.isAnon then e.slot?.toList else []) }
      w.usedPages.vals = .ok (p, x, slots)) :
    w.evictedFrom id off = some (w.pageInfos p).regionId := by
  have hframe : e.frame? = none := by
    cases e with
    | present q => exact absurd rfl (habs q)
    | fresh => rfl
    | swapped y => rfl
  rw [evictedFrom, hr, Option.bind_some, he, Option.bind_some, hframe, hfree, hv]
  rfl

/-- `mark_dirty` sets the dirty flag of a present page. -/
theorem markDirty_cases {w w' : Machine} {id off : Nat} {res : MarkDirtyResult}
    (h : w.markDirty id off = .ok (res, w')) :
    ∃ r e, w.regions.find? id = some r ∧ r.ptes[off / pageSize]? = some e ∧
      ((∃ p, e = .present p ∧ w' = { w with toBook := w.setDirty p true } ∧
          res = ⟨r.pageAddr (off / pageSize), pageSize, true⟩) ∨
        ((∀ p, e ≠ .present p) ∧ w' = w ∧
          res = ⟨r.pageAddr (off / pageSize), pageSize, false⟩)) := by
  unfold markDirty at h
  obtain ⟨r, hr, h⟩ := ok_of_bind h
  obtain ⟨e, he, h⟩ := ok_of_bind h
  refine ⟨r, e, Book.regionAt_eq_ok.mp hr, Region.getPte_eq_ok.mp he, ?_⟩
  cases e with
  | present p => cases h; exact Or.inl ⟨p, rfl, rfl, rfl⟩
  | fresh => cases h; exact Or.inr ⟨by simp, rfl, rfl⟩
  | swapped x => cases h; exact Or.inr ⟨by simp, rfl, rfl⟩

/-- What a dirty flag keeps, `mark_dirty` keeps. -/
theorem markDirty_invariant {P : Machine → Prop} {w w' : Machine} {id off : Nat}
    {res : MarkDirtyResult} (hw : P w) (hset : ∀ p, P { w with toBook := w.setDirty p true })
    (h : w.markDirty id off = .ok (res, w')) : P w' := by
  obtain ⟨r, e, -, -, ⟨p, -, rfl, -⟩ | ⟨-, rfl, -⟩⟩ := markDirty_cases h
  · exact hset p
  · exact hw

/-! ## Regions come and go -/

/-- A reserved range is not empty, lies in the address space and meets no live
region. -/
theorem reserveVmemory_eq_some {w : Machine} {choice : Option Nat} {size addr : Nat}
    (h : w.reserveVmemory choice size = some addr) :
    0 < addr ∧ 0 < size ∧ addr + size ≤ 2 ^ 64 ∧ ∀ id r, w.regions.find? id = some r →
      addr + size ≤ r.addr ∨ r.addr + r.size ≤ addr := by
  unfold reserveVmemory at h
  obtain ⟨-, hp⟩ := Option.filter_eq_some_iff.mp h
  simp only [Bool.and_eq_true, decide_eq_true_eq] at hp
  obtain ⟨⟨⟨haddr, hsize⟩, htop⟩, hfree⟩ := hp
  refine ⟨haddr, hsize, htop, fun id r hr => ?_⟩
  have hall := List.all_eq_true.mp hfree (id, r) (OrdMap.find?_eq_some.mp hr)
  simpa using hall

/-- The machine with a new region, at an address range that was cleared. -/
def withRegion (id : Nat) (r : Region) (contents : Nat → Page) (w : Machine) : Machine :=
  { w.clearRange r.addr r.size with
    regions := w.regions.insert id r
    trace := .created id contents :: w.trace }

theorem addRegion_cases {w w' : Machine} {id size : Nat} {fd : SwapFd} {persistent anchored : Bool}
    {contents : Nat → Page} {env : Env} {res : Except Errno Nat}
    (h : w.addRegion id size fd persistent anchored contents env = (res, w')) :
    (res = .error .enomem ∧ w.reserveVmemory env.reserve size = none ∧ w' = w) ∨
      ∃ addr, res = .ok addr ∧ w.reserveVmemory env.reserve size = some addr ∧
        w' = w.withRegion id (Region.new addr size fd persistent anchored) contents := by
  unfold addRegion at h
  split at h
  next hres => cases h; exact Or.inl ⟨rfl, hres, rfl⟩
  next addr hres => cases h; exact Or.inr ⟨addr, rfl, hres, rfl⟩

/-- The machine after a successful allocation. -/
def allocated (id size addr : Nat) (persistent : Bool) (env : Env) (w : Machine) : Machine :=
  if persistent then
    ((w.setFile id size).withRegion id (Region.new addr size (.pers id) true false)
      (fun _ => initPage)).initFile id env.pwrites (List.range (size / pageSize))
  else
    ({ w with nrAvailablePages := w.nrAvailablePages - size / pageSize } : Machine).withRegion id
      (Region.new addr size .swap false false) (fun _ => freshPage)

/-- Where `allocate` can return, in the order of the source.  Two ways to fail
leave the file of the region behind, and one leaves its pages charged. -/
inductive Allocates (id size : Nat) (persistent : Bool) (env : Env) (w : Machine) :
    Except Errno Nat → Machine → Prop
  | taken {r : Region} (hid : w.regions.find? id = some r) :
      Allocates id size persistent env w (.error .eexist) w
  | invalid (hid : w.regions.find? id = none) (hsize : ¬(size ≠ 0 ∧ size % pageSize = 0)) :
      Allocates id size persistent env w (.error .einval) w
  | unopened {e : Errno} (hid : w.regions.find? id = none)
      (hsize : size ≠ 0 ∧ size % pageSize = 0) (hpers : persistent = true)
      (hopen : w.openExcl id env = some e) :
      Allocates id size persistent env w (.error (if e = .eexist then .eexist else .enomem)) w
  | unsized (hid : w.regions.find? id = none) (hsize : size ≠ 0 ∧ size % pageSize = 0)
      (hpers : persistent = true) (hopen : w.openExcl id env = none)
      (htrunc : env.ftruncateOk = false) :
      Allocates id size persistent env w (.error .enomem) (w.setFile id 0)
  | unplaced (hid : w.regions.find? id = none) (hsize : size ≠ 0 ∧ size % pageSize = 0)
      (hpers : persistent = true) (hopen : w.openExcl id env = none)
      (htrunc : env.ftruncateOk = true) (hres : w.reserveVmemory env.reserve size = none) :
      Allocates id size persistent env w (.error .enomem) (w.setFile id size)
  | full (hid : w.regions.find? id = none) (hsize : size ≠ 0 ∧ size % pageSize = 0)
      (hpers : persistent = false) (hlt : w.nrAvailablePages < size / pageSize) :
      Allocates id size persistent env w (.error .enomem) w
  | charged (hid : w.regions.find? id = none) (hsize : size ≠ 0 ∧ size % pageSize = 0)
      (hpers : persistent = false) (hle : size / pageSize ≤ w.nrAvailablePages)
      (hres : w.reserveVmemory env.reserve size = none) :
      Allocates id size persistent env w (.error .enomem)
        { w with nrAvailablePages := w.nrAvailablePages - size / pageSize }
  | done {addr : Nat} (hid : w.regions.find? id = none) (hsize : size ≠ 0 ∧ size % pageSize = 0)
      (hopen : persistent = true → w.openExcl id env = none ∧ env.ftruncateOk = true)
      (hle : persistent = false → size / pageSize ≤ w.nrAvailablePages)
      (hres : w.reserveVmemory env.reserve size = some addr) :
      Allocates id size persistent env w (.ok addr) (w.allocated id size addr persistent env)

theorem allocate_outcome {w w' : Machine} {id size : Nat} {persistent : Bool} {env : Env}
    {res : Except Errno Nat} (h : w.allocate id size persistent env = (res, w')) :
    Allocates id size persistent env w res w' := by
  unfold allocate at h
  split at h
  next hid =>
    obtain ⟨r, hid⟩ := OrdMap.contains_iff.mp hid
    cases h
    exact .taken hid
  next hid =>
  have hid : w.regions.find? id = none := OrdMap.contains_eq_false.mp (by simpa using hid)
  split at h
  next hsize =>
    cases h
    exact .invalid hid (by simpa [or_iff_not_imp_left] using hsize)
  next hsize =>
  have hsize : size ≠ 0 ∧ size % pageSize = 0 := by simpa using hsize
  cases persistent with
  | true =>
      simp only [if_true] at h
      cases hopen : w.openExcl id env with
      | some e =>
          simp only [hopen] at h
          cases h
          exact .unopened hid hsize rfl hopen
      | none =>
          simp only [hopen] at h
          split at h
          next htrunc =>
            cases hadd : (w.setFile id size).addRegion id size (.pers id) true false
                (fun _ => initPage) env with
            | mk res₁ w₁ =>
              rcases addRegion_cases hadd with ⟨rfl, hres, rfl⟩ | ⟨addr, rfl, hres, rfl⟩
              · simp only [hadd] at h
                cases h
                exact .unplaced hid hsize rfl hopen htrunc hres
              · simp only [hadd] at h
                cases h
                exact .done hid hsize (fun _ => ⟨hopen, htrunc⟩) (by simp) hres
          next htrunc =>
            cases h
            exact .unsized hid hsize rfl hopen (by simpa using htrunc)
  | false =>
      simp only [Bool.false_eq_true, if_false] at h
      split at h
      next hlt =>
        cases h
        exact .full hid hsize rfl hlt
      next hle =>
        have hle : size / pageSize ≤ w.nrAvailablePages := Nat.le_of_not_lt hle
        rcases addRegion_cases h with ⟨rfl, hres, rfl⟩ | ⟨addr, rfl, hres, rfl⟩
        · exact .charged hid hsize rfl hle hres
        · exact .done hid hsize (by simp) (fun _ => hle) hres

/-- Nothing stands in the way of a new region. -/
theorem allocate_done {w : Machine} {id size addr : Nat} {persistent : Bool} {env : Env}
    (hid : w.regions.find? id = none) (hsize : size ≠ 0 ∧ size % pageSize = 0)
    (hopen : persistent = true → w.openExcl id env = none ∧ env.ftruncateOk = true)
    (hle : persistent = false → size / pageSize ≤ w.nrAvailablePages)
    (hres : w.reserveVmemory env.reserve size = some addr) :
    w.allocate id size persistent env = (.ok addr, w.allocated id size addr persistent env) := by
  generalize hcall : w.allocate id size persistent env = out
  obtain ⟨res, w'⟩ := out
  cases allocate_outcome hcall with
  | taken hid' => cases hid.symm.trans hid'
  | invalid _ hsize' => exact absurd hsize hsize'
  | unopened _ _ hpers hopen' => cases (hopen hpers).1.symm.trans hopen'
  | unsized _ _ hpers _ htrunc => cases (hopen hpers).2.symm.trans htrunc
  | unplaced _ _ _ _ _ hres' => cases hres.symm.trans hres'
  | full _ _ hpers hlt => exact absurd (hle hpers) (Nat.not_le.mpr hlt)
  | charged _ _ _ _ hres' => cases hres.symm.trans hres'
  | done _ _ _ _ hres' =>
      cases hres.symm.trans hres'
      rfl

theorem openExcl_eq_none {w : Machine} {id : Nat} {env : Env} :
    w.openExcl id env = none ↔ w.files.find? id = none ∧ env.openErr = none := by
  rw [openExcl]
  split
  next hc =>
    obtain ⟨f, hf⟩ := OrdMap.contains_iff.mp hc
    simp [hf]
  next hc =>
    have hf : w.files.find? id = none := OrdMap.contains_eq_false.mp (by simpa using hc)
    simp [hf]

/-- A failed allocation can leave a file behind, or pages that are charged and
never given back.  A successful one adds the region. -/
theorem allocate_cases {w w' : Machine} {id size : Nat} {persistent : Bool} {env : Env}
    {res : Except Errno Nat} (h : w.allocate id size persistent env = (res, w')) :
    (∃ e, res = .error e ∧ (w' = w ∨
        (∃ n, persistent = true ∧ w.files.find? id = none ∧ w' = w.setFile id n) ∨
        (persistent = false ∧ size / pageSize ≤ w.nrAvailablePages ∧
          w' = { w with nrAvailablePages := w.nrAvailablePages - size / pageSize }))) ∨
      ∃ addr, res = .ok addr ∧ w.regions.find? id = none ∧ size ≠ 0 ∧ size % pageSize = 0 ∧
        w.reserveVmemory env.reserve size = some addr ∧
        (persistent = true → w.files.find? id = none) ∧
        (persistent = false → size / pageSize ≤ w.nrAvailablePages) ∧
        w' = w.allocated id size addr persistent env := by
  cases allocate_outcome h with
  | taken | invalid | unopened | full => exact Or.inl ⟨_, rfl, Or.inl rfl⟩
  | unsized _ _ hpers hopen _ =>
      exact Or.inl ⟨_, rfl, Or.inr (Or.inl ⟨0, hpers, (openExcl_eq_none.mp hopen).1, rfl⟩)⟩
  | unplaced _ _ hpers hopen _ _ =>
      exact Or.inl ⟨_, rfl, Or.inr (Or.inl ⟨size, hpers, (openExcl_eq_none.mp hopen).1, rfl⟩)⟩
  | charged _ _ hpers hle _ => exact Or.inl ⟨_, rfl, Or.inr (Or.inr ⟨hpers, hle, rfl⟩)⟩
  | done hid hsize hopen hle hres =>
      exact Or.inr ⟨_, rfl, hid, hsize.1, hsize.2, hres,
        fun hpers => (openExcl_eq_none.mp (hopen hpers).1).1, hle, rfl⟩

/-- `get_anchored_region` answers from the table, or loads the region from its
file. -/
theorem getAnchoredRegion_cases {w w' : Machine} {id : Nat} {env : Env}
    {res : Except Errno (Nat × Nat)} (h : w.getAnchoredRegion id env = (res, w')) :
    (w' = w ∧ ((∃ e, res = .error e ∧ w.regions.find? id = none) ∨
        ∃ r, w.regions.find? id = some r ∧ res = .ok (r.addr, r.size))) ∨
      ∃ addr file, res = .ok (addr, file.size) ∧ w.regions.find? id = none ∧
        w.files.find? id = some file ∧ w.reserveVmemory env.reserve file.size = some addr ∧
        w' = w.withRegion id (Region.new addr file.size (.pers id) true true) file.slots := by
  unfold getAnchoredRegion at h
  split at h
  next r hr => cases h; exact Or.inl ⟨rfl, Or.inr ⟨r, hr, rfl⟩⟩
  next hr =>
  split at h
  next => cases h; exact Or.inl ⟨rfl, Or.inl ⟨_, rfl, hr⟩⟩
  next file hfile =>
  split at h
  next => cases h; exact Or.inl ⟨rfl, Or.inl ⟨_, rfl, hr⟩⟩
  next =>
    cases hadd : w.addRegion id file.size (.pers id) true true file.slots env with
    | mk res₁ w₁ =>
      rcases addRegion_cases hadd with ⟨rfl, -, rfl⟩ | ⟨addr, rfl, hres, rfl⟩
      · simp only [hadd] at h
        cases h
        exact Or.inl ⟨rfl, Or.inl ⟨_, rfl, hr⟩⟩
      · simp only [hadd] at h
        cases h
        exact Or.inr ⟨addr, file, rfl, hr, hfile, hres, rfl⟩

theorem getAnchoredRegion_of_region {w : Machine} {id : Nat} {r : Region}
    (hr : w.regions.find? id = some r) (env : Env) :
    w.getAnchoredRegion id env = (.ok (r.addr, r.size), w) := by
  rw [getAnchoredRegion, hr]

theorem getAnchoredRegion_of_file {w : Machine} {id addr : Nat} {file : PersFile} {env : Env}
    (hid : w.regions.find? id = none) (hfile : w.files.find? id = some file)
    (hopen : env.openErr = none) (hstat : env.fstatOk = true)
    (hres : w.reserveVmemory env.reserve file.size = some addr) :
    w.getAnchoredRegion id env = (.ok (addr, file.size),
      w.withRegion id (Region.new addr file.size (.pers id) true true) file.slots) := by
  simp only [getAnchoredRegion, hid, hfile, hopen, hstat, addRegion, hres]
  rfl

theorem getAnchoredRegion_of_none {w : Machine} {id : Nat} (hid : w.regions.find? id = none)
    (hfile : w.files.find? id = none) (env : Env) :
    w.getAnchoredRegion id env = (.error .enoent, w) := by
  rw [getAnchoredRegion, hid, hfile]

/-- `anchor` sets a flag or fails. -/
theorem anchor_cases {w w' : Machine} {id : Nat} {res : Except Errno Unit}
    (h : w.anchor id = (res, w')) :
    ((∃ e, res = .error e) ∧ w' = w) ∨
      ∃ r, w.regions.find? id = some r ∧ r.isAnon = false ∧ res = .ok () ∧
        w' = w.setAnchored id true := by
  unfold anchor at h
  split at h
  next => cases h; exact Or.inl ⟨⟨_, rfl⟩, rfl⟩
  next r hr =>
    split at h
    next => cases h; exact Or.inl ⟨⟨_, rfl⟩, rfl⟩
    next ha => cases h; exact Or.inr ⟨r, hr, by simpa using ha, rfl, rfl⟩

/-- What the flag keeps, `anchor` keeps. -/
theorem anchor_invariant {P : Machine → Prop} {w w' : Machine} {id : Nat}
    {res : Except Errno Unit} (hw : P w)
    (hset : ∀ r, w.regions.find? id = some r → r.isAnon = false → P (w.setAnchored id true))
    (h : w.anchor id = (res, w')) : P w' := by
  rcases anchor_cases h with ⟨-, rfl⟩ | ⟨r, hr, ha, -, rfl⟩
  · exact hw
  · exact hset r hr ha

/-- `unanchor` clears a flag or fails. -/
theorem unanchor_cases {w w' : Machine} {id : Nat} {res : Except Errno Unit}
    (h : w.unanchor id = (res, w')) :
    (res = .error .enoent ∧ w' = w ∧ w.regions.find? id = none) ∨
      ∃ r, w.regions.find? id = some r ∧ res = .ok () ∧ w' = w.setAnchored id false := by
  unfold unanchor at h
  split at h
  next hr => cases h; exact Or.inl ⟨rfl, rfl, hr⟩
  next r hr => cases h; exact Or.inr ⟨r, hr, rfl, rfl⟩

theorem unanchor_invariant {P : Machine → Prop} {w w' : Machine} {id : Nat}
    {res : Except Errno Unit} (hw : P w)
    (hset : ∀ r, w.regions.find? id = some r → P (w.setAnchored id false))
    (h : w.unanchor id = (res, w')) : P w' := by
  rcases unanchor_cases h with ⟨-, rfl, -⟩ | ⟨r, hr, -, rfl⟩
  · exact hw
  · exact hset r hr

/-- One round of `free` gives back a frame or a slot, or does nothing. -/
theorem freePte_cases {w w' : Machine} {r : Region} {e : RegionPte} {pwrites : List IoResult}
    (h : w.freePte r e pwrites = .ok w') :
    (∃ p, e = .present p ∧ w.usedPages.valid (w.pageInfos p).usedPagesIt = true ∧
        ∃ w₁, w₁ = { w with
            usedPages := w.usedPages.erase (w.pageInfos p).usedPagesIt
            freePages := w.freePages ++ [p] } ∧
          (w' = w₁ ∨ r.isAnon = false ∧
            w' = w₁.swapOutPageData p r.swapfd (w.pageInfos p).off pwrites)) ∨
      (∃ x, e = .swapped x ∧ w' =
        if r.isAnon then { w with freeSwapEntries := w.freeSwapEntries ++ [x] } else w) ∨
      (e = .fresh ∧ w' = w) := by
  unfold freePte at h
  cases e with
  | fresh => cases h; exact Or.inr (Or.inr ⟨rfl, rfl⟩)
  | swapped x => cases h; exact Or.inr (Or.inl ⟨x, rfl, rfl⟩)
  | present p =>
      obtain ⟨book, hbook, h⟩ := ok_of_bind h
      obtain ⟨hv, rfl⟩ := Book.eraseUsed_ok hbook
      cases h
      refine Or.inl ⟨p, rfl, hv, _, rfl, ?_⟩
      split
      next hc =>
        rw [Bool.and_eq_true, Bool.not_eq_true'] at hc
        exact Or.inr ⟨hc.1, rfl⟩
      next => exact Or.inl rfl

/-- What the loop of `free` leaves alone.  It writes to no file but that of a
persistent region, and it removes none. -/
structure KeptByFree (r : Region) (w w' : Machine) : Prop where
  regions : w'.regions = w.regions
  pageInfos : w'.pageInfos = w.pageInfos
  nrAvailablePages : w'.nrAvailablePages = w.nrAvailablePages
  shm : w'.shm = w.shm
  vm : w'.vm = w.vm
  trace : w'.trace = w.trace
  fileSize : w'.fileSize = w.fileSize
  readSlot : ∀ fd ix, (fd = r.swapfd → r.isAnon = true) → w'.readSlot fd ix = w.readSlot fd ix

theorem KeptByFree.refl (r : Region) (w : Machine) : KeptByFree r w w :=
  ⟨rfl, rfl, rfl, rfl, rfl, rfl, rfl, fun _ _ _ => rfl⟩

theorem KeptByFree.hasFile {r : Region} {w w' : Machine} (h : KeptByFree r w w') (id : Nat) :
    (w'.files.find? id).isSome = (w.files.find? id).isSome := by
  rw [← isSome_fileSize, ← isSome_fileSize, h.fileSize]

theorem KeptByFree.trans {r : Region} {w₁ w₂ w₃ : Machine} (h : KeptByFree r w₁ w₂)
    (h' : KeptByFree r w₂ w₃) : KeptByFree r w₁ w₃ where
  regions := h'.regions.trans h.regions
  pageInfos := h'.pageInfos.trans h.pageInfos
  nrAvailablePages := h'.nrAvailablePages.trans h.nrAvailablePages
  shm := h'.shm.trans h.shm
  vm := h'.vm.trans h.vm
  trace := h'.trace.trans h.trace
  fileSize := h'.fileSize.trans h.fileSize
  readSlot := fun fd ix hfd => (h'.readSlot fd ix hfd).trans (h.readSlot fd ix hfd)

theorem freePte_kept {w w' : Machine} {r : Region} {e : RegionPte} {pwrites : List IoResult}
    (h : w.freePte r e pwrites = .ok w') : KeptByFree r w w' := by
  rcases freePte_cases h with ⟨p, -, -, w₁, rfl, rfl | ⟨ha, rfl⟩⟩ | ⟨x, -, rfl⟩ | ⟨-, rfl⟩
  · exact ⟨rfl, rfl, rfl, rfl, rfl, rfl, rfl, fun _ _ _ => rfl⟩
  · rw [swapOutPageData]
    refine ⟨?_, ?_, ?_, ?_, ?_, ?_, fileSize_writeSlot _ _ _ _, fun fd ix hfd => ?_⟩
    all_goals try rw [writeSlot_eq]
    have hne : fd ≠ r.swapfd := by
      intro heq
      rw [hfd heq] at ha
      cases ha
    exact readSlot_writeSlot_of_ne _ hne _ _ _
  · split
    · exact ⟨rfl, rfl, rfl, rfl, rfl, rfl, rfl, fun _ _ _ => rfl⟩
    · exact .refl r w
  · exact .refl r w'

theorem freePtes_kept {r : Region} {env : Env} {row : List RegionPte} {i : Nat} {w w' : Machine}
    (h : w.freePtes r env i row = .ok w') : KeptByFree r w w' := by
  induction row generalizing i w with
  | nil =>
      cases h
      exact .refl r _
  | cons e row ih =>
      obtain ⟨w₁, hpte, h⟩ := ok_of_bind h
      exact (freePte_kept hpte).trans (ih h)

/-- The end of `free`, after the loop. -/
def freed (id : Nat) (r : Region) (w : Machine) : Machine :=
  (if r.isAnon then
      { w with nrAvailablePages := (w.nrAvailablePages + r.size / pageSize) % 2 ^ 64 }
    else { w with files := w.files.erase id }).clearRange r.addr r.size

theorem free_cases {w w' : Machine} {id : Nat} {env : Env} (h : w.free id env = .ok w') :
    (w' = w ∧ ∀ r, w.regions.find? id = some r → r.anchored = true) ∨
      ∃ r w₁, w.regions.find? id = some r ∧ r.anchored = false ∧
        ({ w with regions := w.regions.erase id } : Machine).freePtes r env 0 r.ptes = .ok w₁ ∧
        w' = w₁.freed id r := by
  unfold free at h
  split at h
  next hr =>
    cases h
    refine Or.inl ⟨rfl, fun r hr' => ?_⟩
    rw [hr] at hr'
    cases hr'
  next r hr =>
    split at h
    next ha =>
      cases h
      refine Or.inl ⟨rfl, fun r' hr' => ?_⟩
      rw [hr] at hr'
      cases hr'
      exact ha
    next ha =>
      obtain ⟨w₁, hloop, h⟩ := ok_of_bind h
      cases h
      exact Or.inr ⟨r, w₁, hr, by simpa using ha, hloop, rfl⟩

/-! ## Persisting -/

/-- One round of `persist` writes a dirty page out and clears its flag. -/
theorem persistPte_cases {w w' : Machine} {id i : Nat} {env : Env}
    (h : w.persistPte id i env = .ok w') :
    ∃ r e, w.regions.find? id = some r ∧ r.ptes[i]? = some e ∧
      (w' = w ∧ (∀ p, e = .present p → (w.pageInfos p).dirty = false) ∨
        ∃ p w₁, e = .present p ∧ (w.pageInfos p).dirty = true ∧
          w₁ = (w.swapOutPageData p r.swapfd i (env.pwrites i)).interfere (env.stores (2 * i)) ∧
          w' = ({ w₁ with toBook := w.setDirty p false } : Machine).interfere
            (env.stores (2 * i + 1))) := by
  unfold persistPte at h
  obtain ⟨r, hr, h⟩ := ok_of_bind h
  obtain ⟨e, he, h⟩ := ok_of_bind h
  refine ⟨r, e, Book.regionAt_eq_ok.mp hr, Region.getPte_eq_ok.mp he, ?_⟩
  cases e with
  | fresh => cases h; exact Or.inl ⟨rfl, by simp⟩
  | swapped x => cases h; exact Or.inl ⟨rfl, by simp⟩
  | present p =>
      simp only at h
      split at h
      next hd =>
        cases h
        refine Or.inr ⟨p, _, rfl, hd, rfl, ?_⟩
        rw [interfere_toBook, swapOutPageData_toBook]
      next hd =>
        cases h
        refine Or.inl ⟨rfl, fun q hq => ?_⟩
        cases hq
        simpa using hd

/-- What a round of the loop of `persist` keeps, the loop keeps. -/
theorem persistPtes_invariant {P : Machine → Prop} {id : Nat} {env : Env}
    (hround : ∀ {i : Nat} {w w' : Machine}, P w → w.persistPte id i env = .ok w' → P w')
    {is : List Nat} {w w' : Machine} (h : P w) (hrun : w.persistPtes id env is = .ok w') :
    P w' := by
  induction is generalizing w with
  | nil =>
      cases hrun
      exact h
  | cons i is ih =>
      obtain ⟨w₁, hpte, hrun⟩ := ok_of_bind hrun
      exact ih (hround h hpte) hrun

theorem canPersist_ok {w : Machine} {id off size : Nat} (h : w.canPersist id off size = .ok ()) :
    ∃ r, w.regions.find? id = some r ∧ r.isAnon = false ∧ off + size ≤ r.size ∧
      off % pageSize = 0 ∧ size % pageSize = 0 ∧ size ≠ 0 := by
  unfold canPersist at h
  split at h
  next => cases h
  next r hr =>
  split at h
  next => cases h
  next hrange =>
  split at h
  next => cases h
  next hmod =>
  split at h
  next => cases h
  next ha =>
    simp only [Bool.or_eq_true, decide_eq_true_eq, not_or, not_not] at hrange hmod
    exact ⟨r, hr, by simpa using ha, by omega, hmod.1.1, hmod.1.2, hmod.2⟩

theorem canPersist_eq_ok {w : Machine} {id : Nat} {r : Region} (off size : Nat)
    (hr : w.regions.find? id = some r) :
    w.canPersist id off size = .ok () ↔ r.isAnon = false ∧ 0 < size ∧ off % pageSize = 0 ∧
      size % pageSize = 0 ∧ off + size ≤ r.size := by
  constructor
  · intro h
    obtain ⟨r', hr', ha, hrange, hoff, hsize, hne⟩ := canPersist_ok h
    cases hr.symm.trans hr'
    exact ⟨ha, Nat.pos_of_ne_zero hne, hoff, hsize, hrange⟩
  · rintro ⟨ha, hpos, hoff, hsize, hrange⟩
    have hin : ¬(r.size < off ∨ r.size - off < size) := by omega
    simp only [canPersist, hr, ha, hoff, hsize, Bool.or_eq_true, decide_eq_true_eq, hin,
      Nat.pos_iff_ne_zero.mp hpos, Bool.false_eq_true, if_false, ne_eq, not_true,
      decide_false, Bool.or_false]

theorem anon_of_canPersist {w : Machine} {id off size : Nat}
    (h : w.canPersist id off size = .ok ()) : w.anon id = false := by
  obtain ⟨r, hr, ha, -⟩ := canPersist_ok h
  rw [Book.anon_of_find? hr, ha]

/-- Persisting changes dirty flags and no other table. -/
theorem persistPtes_toBook {id : Nat} {env : Env} {is : List Nat} {w w' : Machine}
    (h : w.persistPtes id env is = .ok w') :
    w'.toBook = { w.toBook with pageInfos := w'.pageInfos } := by
  refine persistPtes_invariant (P := fun v => v.toBook = { w.toBook with pageInfos := v.pageInfos })
    (fun hbook hpte => ?_) rfl h
  obtain ⟨r, e, -, -, ⟨rfl, -⟩ | ⟨p, w₂, -, -, -, rfl⟩⟩ := persistPte_cases hpte
  · exact hbook
  · rw [interfere_toBook]
    show Book.setDirty _ p false = _
    rw [hbook]
    rfl

end Machine

end DASim
